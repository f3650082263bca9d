import NatsClient.Builders

namespace NatsClient.Builders

open Lib.Sharing (Shared Tracked Overwrites Originated write origin derive_tracked
  derive_originated)
open Lib.Machine (exec exec_cons_eq_some)

section Options

-- What an option sets in an expectation.
def PubOpt.setting : PubOpt → Setting
  | .expectStream stream => .stream stream
  | .expectLastMsgId id => .lastMsgID id
  | .expectLastSequence seq => .lastSeq seq
  | .expectLastSequencePerSubject seq => .lastSeqPerSubject seq

def expected (opts : List PubOpt) : PublishExpectation :=
  opts.foldl (fun e opt => opt.setting.apply e) .zero

-- The options say all of an expectation.
theorem expected_publishOpts (e : PublishExpectation) :
    expected (publishOptsFromMessage (some e)) = e := by
  obtain ⟨lastSeq, lastSeqPerSubject, stream, lastMsgID⟩ := e
  by_cases hstream : stream = "" <;> by_cases hid : lastMsgID = "" <;> cases lastSeq <;>
    cases lastSeqPerSubject <;>
    simp [expected, publishOptsFromMessage, PubOpt.setting, Setting.apply,
      PublishExpectation.zero, hstream, hid]

theorem publishOpts_inj {e e' : PublishExpectation} :
    publishOptsFromMessage (some e) = publishOptsFromMessage (some e') ↔ e = e' := by
  constructor
  · intro h
    rw [← expected_publishOpts e, h, expected_publishOpts]
  · rintro rfl
    rfl

end Options

section Run

variable {α : Type}

-- The calls seen from the header maps, and seen from the expectations.
def Call.msgID? : Call → Option String
  | .withMsgID id => some id
  | _ => none

def Call.setting? : Call → Option Setting
  | .withMsgID _ => none
  | .withExpectedStream stream => some (.stream stream)
  | .withExpectedLastSeq seq => some (.lastSeq seq)
  | .withExpectedLastSeqPerSubject seq => some (.lastSeqPerSubject seq)
  | .withExpectedLastMsgID id => some (.lastMsgID id)

-- The four calls that expect something differ in what they set only.
theorem Call.sets (α : Type) (call : Call) :
    (∃ id, call = .withMsgID id) ∨
      ∃ setting, call.msgID? = none ∧ call.setting? = some setting ∧
        (∀ m : Message α, call.run m = m.withExpected setting) ∧
        ∀ v : Value α, v.build call = v.withExpected setting := by
  cases call with
  | withMsgID id => exact .inl ⟨id, rfl⟩
  | withExpectedStream stream => exact .inr ⟨_, rfl, rfl, fun _ => rfl, fun _ => rfl⟩
  | withExpectedLastSeq seq => exact .inr ⟨_, rfl, rfl, fun _ => rfl, fun _ => rfl⟩
  | withExpectedLastSeqPerSubject seq => exact .inr ⟨_, rfl, rfl, fun _ => rfl, fun _ => rfl⟩
  | withExpectedLastMsgID id => exact .inr ⟨_, rfl, rfl, fun _ => rfl, fun _ => rfl⟩

def headerSide (mem : Memory) (derived : List (Message α × Value α)) : Shared Header :=
  ⟨mem.headers, derived.map fun p => (p.1.header, p.2.message.header)⟩

def expectSide (mem : Memory) (derived : List (Message α × Value α)) :
    Shared PublishExpectation :=
  ⟨mem.expectations, derived.map fun p => (p.1.expect, p.2.expect)⟩

-- A call that derives a message is a derivation on both sides.
theorem run_sides {derived : List (Message α × Value α)} {parent : Nat} {m : Message α}
    {v : Value α} (hget : derived[parent]? = some (m, v)) (call : Call) (mem : Memory) :
    Lib.Sharing.derive ∅ setMsgID (headerSide mem derived) (parent, call.msgID?) =
        some (headerSide (call.run m mem).1 (derived ++ [((call.run m mem).2, v.build call)])) ∧
      Lib.Sharing.derive .zero Setting.apply (expectSide mem derived) (parent, call.setting?) =
        some (expectSide (call.run m mem).1
          (derived ++ [((call.run m mem).2, v.build call)])) := by
  rcases call.sets α with ⟨id, rfl⟩ | ⟨setting, hid, hsetting, hrun, hbuild⟩
  · simp [Lib.Sharing.derive, headerSide, expectSide, hget, Call.msgID?, Call.setting?, Call.run,
      Message.withMsgID, Value.build, Publish.Message.withMsgID, setMsgID]
  · simp [Lib.Sharing.derive, headerSide, expectSide, hget, hid, hsetting, hrun, hbuild,
      Message.withExpected, Value.withExpected]

theorem overwrites_msgID : Overwrites setMsgID fun h => Header.get h headerMsgID :=
  fun id => .inl fun h g =>
    (Header.get_insert_self h headerMsgID id []).trans (Header.get_insert_self g _ id []).symm

-- Expectations are told apart by what each setting overwrites or leaves.
theorem expectation_ext {e e' : Option PublishExpectation}
    (h : ∀ (X : Type) (observe : PublishExpectation → X), Overwrites Setting.apply observe →
      e.map observe = e'.map observe) : e = e' := by
  have hseq := h _ (·.lastSeq) fun setting => by cases setting <;> simp [Setting.apply]
  have hsubject := h _ (·.lastSeqPerSubject) fun setting => by
    cases setting <;> simp [Setting.apply]
  have hstream := h _ (·.stream) fun setting => by cases setting <;> simp [Setting.apply]
  have hid := h _ (·.lastMsgID) fun setting => by cases setting <;> simp [Setting.apply]
  cases e with
  | none => cases e' <;> simp_all
  | some e =>
    cases e' with
    | none => cases hseq
    | some e' =>
      simp only [Option.map_some, Option.some.injEq] at hseq hsubject hstream hid
      cases e
      cases e'
      simp_all

-- The message whose call made the header map of each message, or its expectation: by the calls
-- alone, for each message the first one on its way from the base that had to make one.
def mapMakers (base : Value α) (calls : List (Nat × Call)) : List (Option Nat) :=
  calls.foldl (fun makers call => origin makers (call.1, call.2.msgID?))
    [base.message.header.map fun _ => 0]

def expectMakers (base : Value α) (calls : List (Nat × Call)) : List (Option Nat) :=
  calls.foldl (fun makers call => origin makers (call.1, call.2.setting?))
    [base.expect.map fun _ => 0]

-- What a map or a record holds is what the calls of one of its holders have made it.
structure Sound (mem : Memory) (derived : List (Message α × Value α))
    (maps records : List (Option Nat)) : Prop where
  maps : Originated (headerSide mem derived) maps
  records : Originated (expectSide mem derived) records
  headers : Tracked (fun h => Header.get h headerMsgID) (headerSide mem derived)
  expects : ∀ (X : Type) (observe : PublishExpectation → X), Overwrites Setting.apply observe →
    Tracked observe (expectSide mem derived)

theorem start_sound (base : Value α) :
    Sound (start base).mem ((start base).messages.zip [base])
      [base.message.header.map fun _ => 0] [base.expect.map fun _ => 0] :=
  ⟨Lib.Sharing.originated_single _, Lib.Sharing.originated_single _,
    Lib.Sharing.tracked_single _ base.message.header,
    fun _ observe _ => Lib.Sharing.tracked_single observe base.expect⟩

-- A setting says nothing about the unit.
theorem overwrites_unit : Overwrites Setting.apply fun _ : PublishExpectation => () :=
  fun _ => .inr fun _ => rfl

theorem run_sound {mem : Memory} {derived : List (Message α × Value α)} {parent : Nat}
    {m : Message α} {v : Value α} {maps records : List (Option Nat)}
    (h : Sound mem derived maps records) (hget : derived[parent]? = some (m, v)) (call : Call) :
    Sound (call.run m mem).1 (derived ++ [((call.run m mem).2, v.build call)])
      (origin maps (parent, call.msgID?)) (origin records (parent, call.setting?)) := by
  obtain ⟨hheaders, hexpects⟩ := run_sides hget call mem
  exact ⟨derive_originated h.headers h.maps hheaders,
    derive_originated (h.expects _ _ overwrites_unit) h.records hexpects,
    derive_tracked overwrites_msgID h.headers hheaders,
    fun X observe hlaw => derive_tracked hlaw (h.expects X observe hlaw) hexpects⟩

theorem exec_sound {d final : Derived α} {vs : List (Value α)} {calls : List (Nat × Call)}
    {maps records : List (Option Nat)} (hlen : d.messages.length = vs.length)
    (h : Sound d.mem (d.messages.zip vs) maps records)
    (hrun : exec derive d calls = some final) :
    final.messages.length = (calls.foldl chain vs).length ∧
    Sound final.mem (final.messages.zip (calls.foldl chain vs))
      (calls.foldl (fun makers call => origin makers (call.1, call.2.msgID?)) maps)
      (calls.foldl (fun makers call => origin makers (call.1, call.2.setting?)) records) := by
  induction calls generalizing d vs maps records with
  | nil =>
    cases hrun
    exact ⟨hlen, h⟩
  | cons call calls ih =>
    obtain ⟨next, hstep, hrest⟩ := exec_cons_eq_some.mp hrun
    obtain ⟨m, hm, rfl⟩ := Option.map_eq_some_iff.mp hstep
    obtain ⟨hlt, -⟩ := List.getElem?_eq_some_iff.mp hm
    obtain ⟨v, hv⟩ : ∃ v, vs[call.1]? = some v :=
      ⟨_, List.getElem?_eq_getElem (hlen ▸ hlt)⟩
    have hchain : chain vs call = vs ++ [v.build call.2] := by
      rw [chain, hv]
      rfl
    have hzip : (d.messages ++ [(call.2.run m d.mem).2]).zip (chain vs call) =
        d.messages.zip vs ++ [((call.2.run m d.mem).2, v.build call.2)] := by
      rw [hchain, List.zip_append hlen]
      rfl
    have hnext := run_sound h (List.getElem?_zip_eq_some.mpr ⟨hm, hv⟩) call.2
    exact ih (by simp [hchain, hlen]) (hzip ▸ hnext) hrest

end Run

section Persistence

variable {α : Type} {mem : Memory} {made : List (Message α × Value α)}
  {maps records : List (Option Nat)}

-- Derived messages whose map was made by the same call have one id by their own chains, and
-- those whose expectation was made by the same call have one expectation.
structure Agreeing (values : List (Value α)) (maps records : List (Option Nat)) : Prop where
  msgID : ∀ p ∈ (values.zip maps).tail, ∀ q ∈ (values.zip maps).tail, p.2 ≠ none → p.2 = q.2 →
    p.1.msgID = q.1.msgID
  expect : ∀ p ∈ (values.zip records).tail, ∀ q ∈ (values.zip records).tail, p.2 ≠ none →
    p.2 = q.2 → p.1.expect = q.1.expect

theorem msgID_eq_iff {h g : Option Header} (hsome : h.isSome = g.isSome) :
    Header.get (h.getD ∅) headerMsgID = Header.get (g.getD ∅) headerMsgID ↔
      h.map (Header.get · headerMsgID) = g.map (Header.get · headerMsgID) := by
  cases h <;> cases g <;> simp_all

theorem publishOpts_eq_iff {e e' : Option PublishExpectation} (hsome : e.isSome = e'.isSome) :
    publishOptsFromMessage e = publishOptsFromMessage e' ↔ e = e' := by
  cases e <;> cases e' <;> simp_all [publishOpts_inj]

theorem Sound.msgID_iff (h : Sound mem made maps records) :
    (∀ p ∈ made.tail, (p.1.value mem).msgID = p.2.msgID) ↔
      ∀ p ∈ made.tail, ∀ q ∈ made.tail, p.1.header ≠ none → p.1.header = q.1.header →
        p.2.msgID = q.2.msgID := by
  have hreads := h.headers.reads_own_iff
  simp only [headerSide, ← List.map_tail, List.forall_mem_map] at hreads
  have hsome : ∀ p ∈ made.tail, p.1.header.isSome = p.2.message.header.isSome ∧
      (p.1.header.bind (mem.headers[·]?)).isSome = p.2.message.header.isSome :=
    fun p hp => h.headers.read_isSome (List.mem_map_of_mem (List.mem_of_mem_tail hp))
  refine (forall₂_congr fun p hp => msgID_eq_iff (hsome p hp).2).trans (hreads.trans ?_)
  refine forall₂_congr fun p hp => forall₂_congr fun q hq => imp_congr_right fun _ =>
    imp_congr_right fun heq => (msgID_eq_iff ?_).symm
  rw [← (hsome p hp).1, ← (hsome q hq).1, heq]

theorem Sound.expect_iff (h : Sound mem made maps records) :
    (∀ p ∈ made.tail, (p.1.value mem).expect = p.2.expect) ↔
      ∀ p ∈ made.tail, ∀ q ∈ made.tail, p.1.expect ≠ none → p.1.expect = q.1.expect →
        p.2.expect = q.2.expect := by
  constructor
  · intro hown p hp q hq _ heq
    rw [← hown p hp, ← hown q hq, Message.value, Message.value, heq]
  · intro hagree p hp
    refine expectation_ext fun X observe hlaw => ?_
    have hreads := (h.expects X observe hlaw).reads_own_iff
    simp only [expectSide, ← List.map_tail, List.forall_mem_map] at hreads
    exact hreads.mpr (fun p hp q hq hne heq => congrArg _ (hagree p hp q hq hne heq)) p hp

theorem Sound.opts_iff (h : Sound mem made maps records) :
    (∀ p ∈ made.tail, publishOptsFromMessage (p.1.value mem).expect =
        publishOptsFromMessage p.2.expect) ↔
      ∀ p ∈ made.tail, (p.1.value mem).expect = p.2.expect := by
  refine forall₂_congr fun p hp => publishOpts_eq_iff ?_
  exact ((h.expects _ _ overwrites_unit).read_isSome
    (List.mem_map_of_mem (List.mem_of_mem_tail hp))).2

-- Messages have one address exactly if one call made what is there.
theorem shared_iff_made {V X Y : Type} (handle : Message α → Option Nat)
    (own : Value α → Option V) (field : Value α → Y) {observe : V → X} {cells : List V}
    {makers : List (Option Nat)}
    (htracked : Tracked observe ⟨cells, made.map fun p => (handle p.1, own p.2)⟩)
    (h : Originated ⟨cells, made.map fun p => (handle p.1, own p.2)⟩ makers) :
    (∀ p ∈ made.tail, ∀ q ∈ made.tail, handle p.1 ≠ none → handle p.1 = handle q.1 →
        field p.2 = field q.2) ↔
      ∀ p ∈ ((made.map Prod.snd).zip makers).tail, ∀ q ∈ ((made.map Prod.snd).zip makers).tail,
        p.2 ≠ none → p.2 = q.2 → field p.1 = field q.1 := by
  obtain ⟨f, hinj, -, rfl⟩ := h
  rw [List.map_map, List.zip_map', ← List.map_tail]
  simp only [List.forall_mem_map, Function.comp_apply]
  refine forall₂_congr fun p hp => forall₂_congr fun q hq => ?_
  rcases htracked.handle _ _ (List.mem_map_of_mem (List.mem_of_mem_tail hp)) with
    ⟨hnone, -⟩ | ⟨a, v, ha, -, hlt⟩
  · simp [hnone]
  · rcases htracked.handle _ _ (List.mem_map_of_mem (List.mem_of_mem_tail hq)) with
      ⟨hnone, -⟩ | ⟨b, w, hb, -, hltb⟩
    · simp [hnone, ha]
    · have hsame : a = b ↔ f a = f b := ⟨fun h => by rw [h], hinj a hlt b hltb⟩
      simp [ha, hb, hsame]

theorem Sound.persistent_iff (h : Sound mem made maps records) :
    Persistent made.tail mem ↔ Agreeing (made.map Prod.snd) maps records :=
  calc
    Persistent made.tail mem
    _ ↔ (∀ p ∈ made.tail, (p.1.value mem).msgID = p.2.msgID) ∧
        ∀ p ∈ made.tail, publishOptsFromMessage (p.1.value mem).expect =
          publishOptsFromMessage p.2.expect := forall₂_and
    _ ↔ Agreeing (made.map Prod.snd) maps records := by
      have hids := shared_iff_made (·.header) (·.message.header) (·.msgID) h.headers h.maps
      have hexpects := shared_iff_made (·.expect) (·.expect) (·.expect)
        (h.expects _ _ overwrites_unit) h.records
      rw [h.msgID_iff, h.opts_iff, h.expect_iff, hids, hexpects]
      exact ⟨fun h => ⟨h.1, h.2⟩, fun h => ⟨h.1, h.2⟩⟩

end Persistence

-- A builder writes through the map or the record that its receiver has, so that messages
-- derived from one that has it already are set by each other's calls.
theorem builders_persistent_iff {α : Type} (base : Value α) (calls : List (Nat × Call))
    (final : Derived α) (hrun : exec derive (start base) calls = some final) :
    Persistent (final.messages.zip (chains base calls)).tail final.mem ↔
      Agreeing (chains base calls) (mapMakers base calls) (expectMakers base calls) := by
  obtain ⟨hlen, hsound⟩ := exec_sound rfl (start_sound base) hrun
  have hpersistent := hsound.persistent_iff
  rwa [List.map_snd_zip hlen.ge] at hpersistent

-- A message with neither a map nor a record.
def bare : Value Unit := ⟨⟨.bytes [], none, .raw⟩, none⟩

-- Two messages are derived from it, and expect different sequences.
def fromBare : List (Nat × Call) := [(0, .withExpectedLastSeq 5), (0, .withExpectedLastSeq 9)]

theorem builders_persistent_iff_bare :
    ∃ final, exec derive (start bare) fromBare = some final ∧
      Persistent (final.messages.zip (chains bare fromBare)).tail final.mem := by
  refine ⟨_, rfl, (builders_persistent_iff bare fromBare _ rfl).mpr ⟨?_, ?_⟩⟩
  · decide
  · decide

-- Both are derived from a message that expects a stream.
def fromStream : List (Nat × Call) :=
  [(0, .withExpectedStream "ORDERS"), (1, .withExpectedLastSeq 5), (1, .withExpectedLastSeq 9)]

-- The first of them is published with the sequence of the second.
theorem sibling_overwrites_expected_seq :
    ∃ final m v, exec derive (start bare) fromStream = some final ∧
      (m, v) ∈ (final.messages.zip (chains bare fromStream)).tail ∧
      publishOptsFromMessage v.expect = [.expectStream "ORDERS", .expectLastSequence 5] ∧
      publishOptsFromMessage (m.value final.mem).expect =
        [.expectStream "ORDERS", .expectLastSequence 9] :=
  ⟨_, _, _, rfl, .tail _ (.head _), rfl, rfl⟩

end NatsClient.Builders
