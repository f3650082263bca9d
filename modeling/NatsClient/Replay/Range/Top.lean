import NatsClient.Replay.Range.Theorems

-- The walk up to the greatest sequence, where the scan for the next message wraps.
namespace NatsClient.Replay

open Lib.Loop

variable {a : Archive} {name : String} {low cap turns : Nat} {msgs : List RawMsg} {w : Walk}

section Segment

variable {high seq : Nat} {msg : RawMsg}

theorem mem_segment_iff :
    msg ∈ a.segment low high ↔
      low ≤ msg.sequence ∧ msg.sequence ≤ high ∧ a.raw? msg.sequence = some msg := by
  simp only [Archive.segment, List.mem_filterMap, List.mem_range'_1]
  constructor
  · rintro ⟨seq, hseq, hmsg⟩
    obtain rfl := raw_sequence hmsg
    exact ⟨hseq.1, by omega, hmsg⟩
  · rintro ⟨hlow, hhigh, hmsg⟩
    exact ⟨msg.sequence, by omega, hmsg⟩

theorem raw_eq_none_of_segment (h : a.segment low high = []) (hlow : low ≤ seq)
    (hhigh : seq ≤ high) : a.raw? seq = none := by
  cases hmsg : a.raw? seq with
  | none => rfl
  | some msg =>
    obtain rfl := raw_sequence hmsg
    have hmem : msg ∈ a.segment low high := mem_segment_iff.mpr ⟨hlow, hhigh, hmsg⟩
    rw [h] at hmem
    cases hmem

theorem length_segment_le (a : Archive) (low high : Nat) :
    (a.segment low high).length ≤ high + 1 - low := by
  rw [Archive.segment]
  exact (List.length_filterMap_le _ _).trans_eq List.length_range'

theorem segment_append (mid : Nat) (hlow : low ≤ mid + 1) (hhigh : mid ≤ high) :
    a.segment low high = a.segment low mid ++ a.segment (mid + 1) high := by
  have hlen : high + 1 - low = (mid + 1 - low) + (high + 1 - (mid + 1)) := by omega
  have hmid : low + (mid + 1 - low) = mid + 1 := by omega
  simp only [Archive.segment]
  rw [hlen, ← List.range'_append_1, List.filterMap_append, hmid]

-- A message is among the first ones if there is room for all sequences before it.
theorem mem_take_segment (hmsg : a.raw? msg.sequence = some msg) (hlow : low ≤ msg.sequence)
    (hhigh : msg.sequence ≤ high) (hpos : 1 ≤ msg.sequence) (hcap : msg.sequence - low < cap) :
    msg ∈ (a.segment low high).take cap := by
  obtain ⟨before, hbefore⟩ : ∃ before, msg.sequence = before + 1 := ⟨msg.sequence - 1, by omega⟩
  have hlength := length_segment_le a low before
  have hseg : a.segment (before + 1) high = msg :: a.segment (msg.sequence + 1) high :=
    segment_of_some (by omega) (hbefore ▸ hmsg)
  obtain ⟨room, hroom⟩ : ∃ room, cap - (a.segment low before).length = room + 1 :=
    ⟨cap - (a.segment low before).length - 1, by omega⟩
  rw [segment_append before (by omega) (by omega), hseg, List.take_append, hroom,
    List.take_succ_cons]
  exact List.mem_append_right _ List.mem_cons_self

end Segment

theorem nextExistingStep_of_none (hname : validateStreamName name = none) {high : Nat} {c : Cursor}
    (hle : c.seq ≤ high) (hmsg : a.raw? c.seq = none) :
    nextExistingStep (a.calls quiet) name high c = .inl ⟨(c.seq + 1) % 2 ^ 64, c.clock + 1⟩ := by
  have hanswer := getRawMsg_answer a quiet hname c.clock c.seq
  rw [nextExistingStep, if_pos hle]
  generalize getRawMsg (a.calls quiet c.clock) name c.seq = answer at hanswer
  cases hanswer with
  | failed h => cases h
  | found _ hfound =>
    rw [hmsg] at hfound
    cases hfound
  | missing _ _ he => exact if_pos he

-- Without a message up to the greatest sequence the scan goes on at 0.
theorem nextExisting_restarts (hname : validateStreamName name = none) (left clock : Nat)
    (hleft : low + (left + 1) = 2 ^ 64) (hrest : a.segment low (2 ^ 64 - 1) = []) :
    iterate (nextExistingStep (a.calls quiet) name (2 ^ 64 - 1)) (left + 1) ⟨low, clock⟩ =
      .inl ⟨0, clock + (left + 1)⟩ := by
  have hmsg : a.raw? low = none := raw_eq_none_of_segment hrest (Nat.le_refl _) (by omega)
  have hle : low ≤ 2 ^ 64 - 1 := by omega
  rw [iterate_succ_of_inl (nextExistingStep_of_none hname hle hmsg)]
  induction left generalizing low clock with
  | zero =>
    have hzero : (low + 1) % 2 ^ 64 = 0 := by
      rw [hleft]
      exact Nat.mod_self _
    rw [iterate, hzero]
  | succ left ih =>
    have hmod : (low + 1) % 2 ^ 64 = low + 1 := Nat.mod_eq_of_lt (by omega)
    rw [segment_of_none hle hmsg] at hrest
    have hnext : a.raw? (low + 1) = none :=
      raw_eq_none_of_segment hrest (Nat.le_refl _) (by omega)
    have hstep := nextExistingStep_of_none hname (c := ⟨low + 1, clock + 1⟩)
      (show low + 1 ≤ 2 ^ 64 - 1 by omega) hnext
    rw [hmod, iterate_succ_of_inl hstep, ih (clock + 1) (by omega) hrest hnext (by omega)]
    congr 2
    omega

-- Where no message follows, the scan finds one that does not follow.
theorem nextExisting_wraps (hname : validateStreamName name = none) {after : Nat} (clock : Nat)
    (hafter : after < 2 ^ 64 - 1) (hrest : a.segment (after + 1) (2 ^ 64 - 1) = [])
    (hany : a.segment 0 (2 ^ 64 - 1) ≠ []) (hturns : 2 ^ 65 ≤ turns) :
    ∃ msg clock', nextExisting (a.calls quiet) name (2 ^ 64 - 1) after clock turns =
      some (.ok msg, clock') ∧ msg.sequence ≤ after := by
  obtain ⟨left, hleft⟩ : ∃ left, after + 1 + (left + 1) = 2 ^ 64 := ⟨2 ^ 64 - after - 2, by omega⟩
  obtain ⟨more, rfl⟩ : ∃ more, turns = left + 1 + more := ⟨turns - (left + 1), by omega⟩
  have hmod : (after + 1) % 2 ^ 64 = after + 1 := Nat.mod_eq_of_lt (by omega)
  obtain ⟨result, hresult, hnext⟩ := nextExisting_iterate a quiet hname 0 (clock + (left + 1)) more
    (.inr ⟨by decide, hany⟩) (Nat.zero_le _) (by omega)
  have hscan : nextExisting (a.calls quiet) name (2 ^ 64 - 1) after clock (left + 1 + more) =
      some result := by
    rw [nextExisting, hmod, iterate_add, nextExisting_restarts hname left clock hleft hrest,
      Sum.elim_inl, hresult]
    rfl
  cases hnext with
  | @found msg clock' _ _ _ hle hseg =>
    refine ⟨msg, clock', hscan, ?_⟩
    by_contra hlater
    have hmsg := (segment_cons_inv hseg).2.2.1
    rw [raw_eq_none_of_segment hrest (by omega) hle] at hmsg
    cases hmsg
  | missing _ _ hseg => exact absurd hseg hany
  | failed _ _ h => cases h

-- One turn of the walk: the next message is taken, or an earlier one because none is left, or
-- the function returns.
inductive TopTurn (a : Archive) (cap : Nat) (msgs : List RawMsg) (w : Walk) :
    Walk ⊕ MsgRange × Nat → Prop
  | next {msg clock}
      (hw : Walking a cap (2 ^ 64 - 1) msgs
        ⟨w.out ++ [storedMessageFromRaw msg], msg.sequence, clock⟩)
      (hcur : w.cur < msg.sequence) :
      TopTurn a cap msgs w (.inl ⟨w.out ++ [storedMessageFromRaw msg], msg.sequence, clock⟩)
  | wrapped {msg clock} (hroom : w.out.length < cap) (hcur : w.cur < 2 ^ 64 - 1)
      (hrest : a.segment (w.cur + 1) (2 ^ 64 - 1) = []) (hmsg : msg.sequence ≤ w.cur) :
      TopTurn a cap msgs w (.inl ⟨w.out ++ [storedMessageFromRaw msg], msg.sequence, clock⟩)
  | done {truncated clock} (hlast : cap ≤ w.out.length ∨ 2 ^ 64 - 1 ≤ w.cur) :
      TopTurn a cap msgs w (.inr (⟨w.out, truncated, none⟩, clock))

theorem rangeStep_topTurn (hname : validateStreamName name = none)
    (hw : Walking a cap (2 ^ 64 - 1) msgs w) (hturns : 2 ^ 65 ≤ turns) :
    TopTurn a cap msgs w (rangeStep (a.calls quiet) name cap (2 ^ 64 - 1) turns w) := by
  have hcap : ((cap : Int) ≤ w.out.length) ↔ cap ≤ w.out.length := by omega
  simp only [rangeStep, hcap]
  by_cases hlast : 2 ^ 64 - 1 ≤ w.cur
  · simp only [Nat.not_lt.mpr hlast, hlast, if_true, if_false, ite_self]
    exact .done (.inr hlast)
  simp only [Nat.not_le.mp hlast, hlast, if_true, if_false]
  by_cases hrest : a.segment (w.cur + 1) (2 ^ 64 - 1) = []
  · have hany : a.segment 0 (2 ^ 64 - 1) ≠ [] := by
      obtain ⟨msg, hmsg, -⟩ := hw.current
      have hseq := raw_sequence hmsg
      exact List.ne_nil_of_mem (mem_segment_iff.mpr ⟨Nat.zero_le _, by omega, hseq ▸ hmsg⟩)
    obtain ⟨msg, clock, hnext, hmsg⟩ := nextExisting_wraps hname w.clock (by omega) hrest hany
      hturns
    rw [hnext]
    split_ifs with hfull
    · exact .done (.inl hfull)
    · exact .wrapped (by omega) (by omega) hrest hmsg
  · obtain ⟨answer, hanswer, hnext⟩ := nextExisting_next a quiet hname (.inr ⟨by decide, hrest⟩)
      w.clock hw.cur_le (show 2 ^ 64 - 1 + 1 ≤ w.cur + turns by omega)
    rw [hanswer]
    cases hnext with
    | found _ _ hlow hmsg hseg =>
      split_ifs with hfull
      · exact .done (.inl hfull)
      · exact .next (hw.take (by omega) hmsg hseg _) hlow
    | missing _ _ hseg => exact absurd hseg hrest
    | failed _ _ h => cases h

theorem Walking.messages_of_done (hw : Walking a cap (2 ^ 64 - 1) msgs w)
    (hlast : cap ≤ w.out.length ∨ 2 ^ 64 - 1 ≤ w.cur) :
    w.out = (MsgRange.window cap msgs).messages := by
  cases hrest : a.segment (w.cur + 1) (2 ^ 64 - 1) with
  | nil => rw [hw.exact_of_nil hrest]
  | cons msg rest =>
    obtain hfull | hcur := hlast
    · rw [hw.exact_of_cons hfull hrest]
    · rw [segment_of_lt (by omega)] at hrest
      cases hrest

-- The greatest sequence is retained, or the cap is reached before it.
def Settled (a : Archive) (cap : Nat) (msgs : List RawMsg) : Prop :=
  (a.raw? (2 ^ 64 - 1)).isSome ∨ cap ≤ msgs.length

theorem Walking.rest_ne_nil (hw : Walking a cap (2 ^ 64 - 1) msgs w) (h : Settled a cap msgs)
    (hroom : w.out.length < cap) (hcur : w.cur < 2 ^ 64 - 1) :
    a.segment (w.cur + 1) (2 ^ 64 - 1) ≠ [] := by
  intro hrest
  obtain htop | hlength := h
  · rw [raw_eq_none_of_segment hrest (by omega) (Nat.le_refl _)] at htop
    cases htop
  · obtain ⟨taken, hout, hmsgs⟩ := hw.split
    rw [hrest, List.append_nil] at hmsgs
    rw [hout, List.length_map, ← hmsgs] at hroom
    omega

theorem rangeStep_settles (hname : validateStreamName name = none) (hturns : 2 ^ 65 ≤ turns)
    (h : Settled a cap msgs) (n : Nat) (w : Walk) (hw : Walking a cap (2 ^ 64 - 1) msgs w)
    (hn : 2 ^ 64 - 1 < w.cur + n) :
    ∃ truncated clock, iterate (rangeStep (a.calls quiet) name cap (2 ^ 64 - 1) turns) n w =
      .inr (⟨(MsgRange.window cap msgs).messages, truncated, none⟩, clock) := by
  induction n generalizing w with
  | zero => exact absurd hw.cur_le (by omega)
  | succ n ih =>
    have hturn := rangeStep_topTurn hname hw hturns
    rw [iterate]
    generalize rangeStep (a.calls quiet) name cap (2 ^ 64 - 1) turns w = out at hturn
    cases hturn with
    | next hw' hcur =>
      refine ih _ hw' ?_
      dsimp only
      omega
    | wrapped hroom hcur hrest => exact absurd hrest (hw.rest_ne_nil h hroom hcur)
    | done hlast => exact ⟨_, _, by rw [← hw.messages_of_done hlast]⟩

-- The messages are in increasing order.
def Increasing (out : List StoredMessage) : Prop := (out.map (·.sequence)).Pairwise (· < ·)

theorem Increasing.of_append {out more : List StoredMessage} (h : Increasing (out ++ more)) :
    Increasing out := by
  rw [Increasing, List.map_append] at h
  exact (List.pairwise_append.mp h).1

theorem not_increasing_of_earlier {out : List StoredMessage} {earlier msg : StoredMessage}
    (hmem : earlier ∈ out) (hle : msg.sequence ≤ earlier.sequence) :
    ¬Increasing (out ++ [msg]) := by
  intro h
  rw [Increasing, List.map_append] at h
  have hlt := (List.pairwise_append.mp h).2.2 _ (List.mem_map_of_mem hmem) msg.sequence
    List.mem_cons_self
  omega

-- The walk keeps the messages that it has.
theorem rangeStep_out {calls : Calls} {max : Int} {endSeq : Nat} {w' : Walk}
    (h : rangeStep calls name max endSeq turns w = .inl w') : ∃ more, w'.out = w.out ++ more := by
  rw [rangeStep] at h
  split_ifs at h
  · split at h
    · cases h
      exact ⟨[], (List.append_nil _).symm⟩
    · cases h
    · split_ifs at h
  · split at h
    · cases h
      exact ⟨[], (List.append_nil _).symm⟩
    · cases h
      exact ⟨_, rfl⟩
    · split_ifs at h

theorem rangeStep_result {calls : Calls} {max : Int} {endSeq : Nat} {result : MsgRange × Nat}
    (h : rangeStep calls name max endSeq turns w = .inr result) :
    result.1.messages = w.out ∨ result.1.err ≠ none := by
  rw [rangeStep] at h
  split_ifs at h
  · split at h
    · cases h
    · cases h
      exact .inl rfl
    · split_ifs at h
      · cases h
        exact .inl rfl
      · cases h
        exact .inr (Option.some_ne_none _)
  · cases h
    exact .inl rfl
  · cases h
    exact .inl rfl
  · split at h
    · cases h
    · cases h
    · split_ifs at h
      · cases h
        exact .inl rfl
      · cases h
        exact .inr (Option.some_ne_none _)

-- Otherwise the walk goes on at every message of the window.
theorem Walking.unfinished (hw : Walking a cap (2 ^ 64 - 1) msgs w) (h : ¬Settled a cap msgs) :
    ¬(cap ≤ w.out.length ∨ 2 ^ 64 - 1 ≤ w.cur) := by
  obtain ⟨htop, hlength⟩ := not_or.mp h
  rintro (hfull | hcur)
  · obtain ⟨taken, hout, hmsgs⟩ := hw.split
    have hle := congrArg List.length hmsgs
    rw [hout, List.length_map] at hfull
    rw [List.length_append] at hle
    omega
  · obtain ⟨msg, hmsg, -⟩ := hw.current
    rw [Nat.le_antisymm hw.cur_le hcur] at hmsg
    rw [hmsg] at htop
    exact htop rfl

-- Unless it is settled, the walk takes an earlier message after the last one.
theorem rangeStep_unsettled (hname : validateStreamName name = none) (hturns : 2 ^ 65 ≤ turns)
    (h : ¬Settled a cap msgs) {n : Nat} {result : MsgRange × Nat}
    (hw : Walking a cap (2 ^ 64 - 1) msgs w)
    (hresult : iterate (rangeStep (a.calls quiet) name cap (2 ^ 64 - 1) turns) n w = .inr result)
    (herr : result.1.err = none) : ¬Increasing result.1.messages := by
  refine iterate_inr (P := fun w => Walking a cap (2 ^ 64 - 1) msgs w ∨ ¬Increasing w.out)
    (Q := fun result => result.1.err = none → ¬Increasing result.1.messages) ?_ ?_ hresult
    (.inl hw) herr
  · rintro w w' (hw | hw) hstep
    · have hturn := rangeStep_topTurn hname hw hturns
      rw [hstep] at hturn
      cases hturn with
      | next hw' => exact .inl hw'
      | wrapped hroom hcur hrest hmsg =>
        obtain ⟨current, hcurrent, hmem⟩ := hw.current
        refine .inr (not_increasing_of_earlier hmem ?_)
        exact hmsg.trans_eq (raw_sequence hcurrent).symm
    · obtain ⟨more, hmore⟩ := rangeStep_out hstep
      exact .inr fun hinc => hw (Increasing.of_append (hmore ▸ hinc))
  · rintro w result (hw | hw) hstep herr
    · have hturn := rangeStep_topTurn hname hw hturns
      rw [hstep] at hturn
      cases hturn with
      | done hlast => exact absurd hlast (hw.unfinished h)
    · rwa [(rangeStep_result hstep).resolve_right (not_not.mpr herr)]

section Walk

variable (hname : validateStreamName name = none) (hlow : 1 ≤ low) (hcap : 1 ≤ cap)
  (hany : a.segment low (2 ^ 64 - 1) ≠ []) (hturns : 2 ^ 65 ≤ turns) (clock : Nat)

include hname hlow hcap hany hturns

theorem rangeStart_top : ∃ w, rangeStart (a.calls quiet) name low (2 ^ 64 - 1) clock turns =
    some (.inl w) ∧ Walking a cap (2 ^ 64 - 1) (a.segment low (2 ^ 64 - 1)) w := by
  have hle : low ≤ 2 ^ 64 - 1 := by
    by_contra hlt
    exact hany (segment_of_lt (by omega))
  obtain ⟨first, hfirst, hstart⟩ := rangeStart_start a quiet clock hname (.inr ⟨by decide, hany⟩)
    hlow hle hcap (show 2 ^ 64 - 1 + 1 ≤ turns by omega)
  cases hstart with
  | walk hw => exact ⟨_, hfirst, hw⟩
  | done houtcome hmsgs =>
    have herr := hmsgs.resolve_left hany
    cases houtcome with
    | exact => exact absurd rfl herr
    | failed _ _ h => cases h

theorem rangeWalk_settled (h : Settled a cap (a.segment low (2 ^ 64 - 1))) :
    ∃ truncated clock', rangeWalk (a.calls quiet) name cap low (2 ^ 64 - 1) clock turns =
      some (⟨(MsgRange.window cap (a.segment low (2 ^ 64 - 1))).messages, truncated, none⟩,
        clock') := by
  obtain ⟨w, hstart, hw⟩ := rangeStart_top hname hlow hcap hany hturns clock
  obtain ⟨truncated, clock', hwalk⟩ := rangeStep_settles hname hturns h turns w hw (by omega)
  refine ⟨truncated, clock', ?_⟩
  rw [rangeWalk, hstart]
  simp only [hwalk, Sum.getRight?]

theorem rangeWalk_unsettled (h : ¬Settled a cap (a.segment low (2 ^ 64 - 1)))
    {result : MsgRange × Nat}
    (hresult : rangeWalk (a.calls quiet) name cap low (2 ^ 64 - 1) clock turns = some result)
    (herr : result.1.err = none) : ¬Increasing result.1.messages := by
  obtain ⟨w, hstart, hw⟩ := rangeStart_top hname hlow hcap hany hturns clock
  rw [rangeWalk, hstart] at hresult
  exact rangeStep_unsettled hname hturns h hw (Sum.getRight?_eq_some_iff.mp hresult) herr

end Walk

-- A walk sees of the server what GetMsg answers.
theorem rangeWalk_congr {calls calls' : Calls}
    (h : ∀ n, getRawMsg (calls n) = getRawMsg (calls' n)) : rangeWalk calls = rangeWalk calls' := by
  have hscan : nextExistingStep calls = nextExistingStep calls' := by
    funext stream endSeq c
    rw [nextExistingStep, nextExistingStep, h]
  have hnext : nextExisting calls = nextExisting calls' := by
    funext stream endSeq after clock turns
    rw [nextExisting, nextExisting, hscan]
  have hstart : rangeStart calls = rangeStart calls' := by
    funext stream startSeq endSeq clock turns
    rw [rangeStart, rangeStart, h, hnext]
  have hstep : rangeStep calls = rangeStep calls' := by
    funext stream max endSeq turns w
    rw [rangeStep, rangeStep, hnext]
  funext stream max startSeq endSeq clock turns
  rw [rangeWalk, rangeWalk, hstart, hstep]

-- A stream at rest whose last sequence may be the greatest one.
structure Holding where
  first : Nat
  last : Nat
  content : Nat → Option Content
  last_lt : last < 2 ^ 64
  retained : ∀ seq, (content seq).isSome → 1 ≤ seq ∧ seq ≤ last

-- Its messages.
def Holding.archive (h : Holding) : Archive := ⟨h.first, 0, h.content, by decide⟩

def Holding.calls (h : Holding) : Calls := fun _ =>
  { h.archive.source with streamInfo := fun _ => .ok ⟨h.first, h.last⟩ }

theorem Holding.getMsgRange_eq (h : Holding) (hname : validateStreamName name = none)
    {startSeq endSeq : Nat} (opts : List MsgRangeOpt) (turns : Nat) (hstart : 1 ≤ startSeq)
    (hend : startSeq ≤ endSeq) (hlast : startSeq ≤ h.last) :
    getMsgRange h.calls name startSeq endSeq opts 0 turns =
      rangeWalk (h.archive.calls quiet) name (applyMsgRangeOpts opts).max startSeq
        (min endSeq h.last) 1 turns := by
  have hzero : ¬ (startSeq = 0 ∨ endSeq = 0) := by omega
  have hmin : (if h.last < endSeq then h.last else endSeq) = min endSeq h.last := by
    split_ifs <;> omega
  have hwalk : rangeWalk h.calls = rangeWalk (h.archive.calls quiet) :=
    rangeWalk_congr fun _ => rfl
  simp only [getMsgRange, hname, hzero, Nat.not_lt.mpr hend, if_false, streamInfo, Source.server,
    hwalk]
  simp only [Holding.calls, hmin, Nat.not_lt.mpr hlast, if_false]

end NatsClient.Replay
