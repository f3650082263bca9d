import NatsClient.Dlq.Redrive
import NatsClient.Replay.Range.Theorems

namespace NatsClient.Dlq

open Lib.Loop
open Replay (Archive RawMsg getRawMsg getNextRawMsgAfter)

-- A stream at rest. Its messages have sequences from 1 to the last one, any may be deleted.
structure SourceStream extends Archive where
  within : ∀ seq, content seq ≠ none → 1 ≤ seq ∧ seq ≤ last

-- The retained messages from a sequence on.
def SourceStream.retained (st : SourceStream) (low : Nat) : List RawMsg :=
  st.segment low st.last

-- What ReplayToStream reads of a message.
def storedOf (msg : RawMsg) : RawStreamMsg := ⟨msg.sequence, msg.header.getD ∅, msg.data⟩

-- The calls of the source that fail: the one GetMsg, and GetNextMsgAfter by the number of
-- messages considered before.
structure SourceFaults where
  get : Option GoError
  next : Nat → Option GoError

def SourceFaults.none : SourceFaults := ⟨.none, fun _ => .none⟩

-- The source is the stream manager in front of the stream, except for the calls that fail.
structure Serves (st : SourceStream) (f : SourceFaults) (s : Surroundings) : Prop where
  get : ∀ stream seq, s.getMsg stream seq =
    f.get.elim ((getRawMsg st.source stream seq).map fun msg => some (storedOf msg)) .error
  next : ∀ n stream seq result, getNextRawMsgAfter st.source stream seq = some result →
    s.getNextMsgAfter n stream seq =
      (f.next n).elim (result.map fun msg => some (storedOf msg)) .error

-- The stream manager itself, with a publisher and a context that do not fail.
def SourceStream.manager (st : SourceStream) (f : SourceFaults) : Surroundings where
  source := true
  publisher := true
  getMsg stream seq :=
    f.get.elim ((getRawMsg st.source stream seq).map fun msg => some (storedOf msg)) .error
  getNextMsgAfter n stream seq :=
    let result := (getNextRawMsgAfter st.source stream seq).getD (.error (.sentinel .errMsgNotFound))
    (f.next n).elim (result.map fun msg => some (storedOf msg)) .error
  publishResult _ := none
  ctxErr _ := none
  pauseErr _ := none
  equalFold a b := toLower a = toLower b
  keys _ := []

theorem manager_serves (st : SourceStream) (f : SourceFaults) : Serves st f (st.manager f) where
  get _ _ := rfl
  next n stream seq result h := by
    simp only [SourceStream.manager, h, Option.getD_some]

-- The first turn needs no GetNextMsgAfter: GetMsg returns the message at the start.
def Direct (st : SourceStream) (f : SourceFaults) (cfg : ReplayConfig) (n : Nat) : Prop :=
  n = 0 ∧ f.get = none ∧ st.content cfg.startSeq ≠ none

-- GetNextMsgAfter fails where the turn needs it.
def Cut (st : SourceStream) (f : SourceFaults) (cfg : ReplayConfig) (n : Nat) : Prop :=
  f.next n ≠ none ∧ ¬ Direct st f cfg n

variable (s : Surroundings) (cfg : ReplayConfig)

def passes (msg : RawMsg) : Bool := matchReplayFilters s (storedOf msg).header cfg

-- The variables of the loop when it has gone through these messages.
def progress (seen : List RawMsg) : Progress where
  seq := (seen.getLast?.map (·.sequence)).getD cfg.startSeq
  out :=
    { considered := seen.length
      matched := seen.countP (passes s cfg)
      published := if cfg.dryRun then 0 else seen.countP (passes s cfg)
      skipped := seen.countP fun msg => !passes s cfg msg
      lastSeq := (seen.getLast?.map (·.sequence)).getD 0 }
  sent := if cfg.dryRun then []
    else (seen.filter (passes s cfg)).map fun msg => resent s cfg (storedOf msg)

theorem progress_nil : progress s cfg [] = ⟨cfg.startSeq, ⟨0, 0, 0, 0, 0⟩, []⟩ := by
  simp [progress]

variable {s cfg} {st : SourceStream} {f : SourceFaults} {seen rest : List RawMsg}

-- Behind the messages that were seen the stream goes on with the rest.
theorem retained_rest {low : Nat} (h : st.retained low = seen ++ rest) :
    rest = st.retained ((seen.getLast?.map (·.sequence + 1)).getD low) := by
  induction seen using List.reverseRecOn generalizing rest with
  | nil => exact h.symm
  | append_singleton seen msg ih =>
    rw [List.append_assoc] at h
    have hcons := (ih h).symm
    obtain ⟨-, -, -, hrest⟩ := Replay.segment_cons_inv hcons
    rw [List.getLast?_concat]
    exact hrest

theorem retained_bound {low : Nat} (h : st.retained low = seen ++ rest) {msg : RawMsg}
    (hmsg : seen.getLast? = some msg) : msg.sequence ≤ st.last := by
  have hmem : msg ∈ st.retained low := h ▸ List.mem_append_left _ (List.mem_of_getLast? hmsg)
  obtain ⟨seq, -, hraw⟩ := List.mem_filterMap.mp hmem
  obtain ⟨c, hc, rfl⟩ := Option.map_eq_some_iff.mp hraw
  exact (st.within seq (by simp [hc])).2

section Fetch

variable (hs : Serves st f s) (hname : validateStreamName cfg.sourceStream = none)

include hs hname

-- GetMsg, with what the stream holds under the sequence.
theorem getMsg_serves (hget : f.get = none) (seq : Nat) :
    (∀ msg, st.raw? seq = some msg → s.getMsg cfg.sourceStream seq = .ok (some (storedOf msg))) ∧
      (st.raw? seq = none → ∃ e, s.getMsg cfg.sourceStream seq = .error e) := by
  constructor
  · intro msg hmsg
    simp only [hs.get, hget, Option.elim_none, getRawMsg, hname, Archive.source, hmsg, Except.map]
  · intro hmsg
    simp only [hs.get, hget, Option.elim_none, getRawMsg, hname, Archive.source, hmsg, Except.map]
    exact ⟨_, rfl⟩

-- GetNextMsgAfter returns the first message of what is retained behind the sequence.
theorem getNextMsgAfter_serves {n seq : Nat} (hnext : f.next n = none) (hseq : seq + 1 < 2 ^ 64) :
    (∀ msg rest, st.retained (seq + 1) = msg :: rest →
      s.getNextMsgAfter n cfg.sourceStream seq = .ok (some (storedOf msg))) ∧
    (st.retained (seq + 1) = [] → ∃ e, s.getNextMsgAfter n cfg.sourceStream seq = .error e) := by
  obtain ⟨result, hresult, hfollowing⟩ :=
    Replay.getNextRawMsgAfter_following st.toArchive hname hseq
  rw [hs.next n _ seq result hresult, hnext, Option.elim_none]
  cases hfollowing with
  | found h =>
    refine ⟨fun msg rest hmsg => ?_, fun hnil => ?_⟩
    · cases h.symm.trans hmsg
      rfl
    · cases h.symm.trans hnil
  | missing h he =>
    refine ⟨fun msg rest hmsg => ?_, fun hnil => ⟨_, rfl⟩⟩
    cases h.symm.trans hmsg

theorem getNextMsgAfter_fails {n seq : Nat} {e : GoError} (hnext : f.next n = some e)
    (hseq : seq + 1 < 2 ^ 64) : s.getNextMsgAfter n cfg.sourceStream seq = .error e := by
  obtain ⟨result, hresult, -⟩ := Replay.getNextRawMsgAfter_following st.toArchive hname hseq
  rw [hs.next n _ seq result hresult, hnext, Option.elim_some]

-- What a turn gets to see at the rest of the stream.
inductive Fetched (rest : List RawMsg) (cut : Prop) : Except GoError (Option RawStreamMsg) → Prop
  | cut {e} (h : cut) : Fetched rest cut (.error e)
  | ended {e} (h : rest = []) : Fetched rest cut (.error e)
  | found {msg more} (h : rest = msg :: more) (hnot : ¬ cut) :
      Fetched rest cut (.ok (some (storedOf msg)))

theorem fetched_next {n seq : Nat} (hdirect : ¬ Direct st f cfg n) (hseq : seq + 1 < 2 ^ 64)
    (hrest : rest = st.retained (seq + 1)) :
    Fetched rest (Cut st f cfg n) (s.getNextMsgAfter n cfg.sourceStream seq) := by
  cases hnext : f.next n with
  | some e =>
    rw [getNextMsgAfter_fails hs hname hnext hseq]
    exact .cut ⟨by simp [hnext], hdirect⟩
  | none =>
    obtain ⟨hfound, hempty⟩ := getNextMsgAfter_serves hs hname hnext hseq
    cases hr : rest with
    | nil =>
      obtain ⟨e, he⟩ := hempty (hrest.symm.trans hr)
      rw [he]
      exact .ended rfl
    | cons msg more =>
      rw [hfound msg more (hrest.symm.trans hr)]
      exact .found rfl fun hcut => hcut.1 hnext

theorem fetch_progress (hstart : 1 ≤ cfg.startSeq) (hword : cfg.startSeq < 2 ^ 64)
    (hseen : st.retained cfg.startSeq = seen ++ rest) :
    Fetched rest (Cut st f cfg seen.length)
      (fetch s cfg (progress s cfg seen).seq seen.length) := by
  have hrest := retained_rest hseen
  cases hlast : seen.getLast? with
  | some msg =>
    have hne : seen.length ≠ 0 := by
      intro hzero
      rw [List.length_eq_zero_iff.mp hzero] at hlast
      cases hlast
    have hseq : (progress s cfg seen).seq = msg.sequence := by simp [progress, hlast]
    rw [hlast] at hrest
    have hbound := retained_bound hseen hlast
    have hlt := st.last_lt
    rw [fetch, if_neg hne, hseq]
    exact fetched_next hs hname (fun hd => hne hd.1) (by omega) hrest
  | none =>
    obtain rfl := List.getLast?_eq_none_iff.mp hlast
    -- The first turn: GetMsg at the start, and from just before it where that fails.
    have hback : cfg.startSeq - 1 + 1 = cfg.startSeq := by omega
    have hrest : rest = st.retained cfg.startSeq := hrest
    have hfallback (hdirect : ¬ Direct st f cfg 0) : Fetched rest (Cut st f cfg 0)
        (s.getNextMsgAfter 0 cfg.sourceStream (cfg.startSeq - 1)) :=
      fetched_next hs hname hdirect (by omega) (by rw [hback]; exact hrest)
    simp only [fetch, progress, List.length_nil, if_true, List.getLast?_nil, Option.map_none,
      Option.getD_none]
    cases hget : f.get with
    | some e =>
      rw [hs.get, hget, Option.elim_some]
      exact hfallback fun hd => by cases hget.symm.trans hd.2.1
    | none =>
      obtain ⟨hfound, hmissing⟩ := getMsg_serves hs hname hget cfg.startSeq
      cases hraw : st.raw? cfg.startSeq with
      | some msg =>
        rw [hfound msg hraw]
        have hcontent : st.content cfg.startSeq ≠ none := by
          intro hnone
          simp [Archive.raw?, hnone] at hraw
        have hle := (st.within _ hcontent).2
        refine .found (hrest.trans (Replay.segment_of_some hle hraw)) fun hcut => ?_
        exact hcut.2 ⟨rfl, hget, hcontent⟩
      | none =>
        obtain ⟨e, he⟩ := hmissing hraw
        rw [he]
        refine hfallback fun hd => hd.2.2 ?_
        exact Option.map_eq_none_iff.mp hraw

end Fetch

section Turn

variable (s cfg) (seen) (msg : RawMsg)

theorem progress_skip (h : passes s cfg msg = false) :
    progress s cfg (seen ++ [msg]) =
      { progress s cfg seen with
        seq := msg.sequence
        out := { (progress s cfg seen).out with
          lastSeq := msg.sequence
          considered := seen.length + 1
          skipped := (progress s cfg seen).out.skipped + 1 } } := by
  simp [progress, h]

theorem progress_dry (h : passes s cfg msg = true) (hdry : cfg.dryRun = true) :
    progress s cfg (seen ++ [msg]) =
      { progress s cfg seen with
        seq := msg.sequence
        out := { (progress s cfg seen).out with
          lastSeq := msg.sequence
          considered := seen.length + 1
          matched := (progress s cfg seen).out.matched + 1 } } := by
  simp [progress, h, hdry]

theorem progress_publish (h : passes s cfg msg = true) (hdry : cfg.dryRun = false) :
    progress s cfg (seen ++ [msg]) =
      { seq := msg.sequence
        out := { (progress s cfg seen).out with
          lastSeq := msg.sequence
          considered := seen.length + 1
          matched := (progress s cfg seen).out.matched + 1
          published := (progress s cfg seen).out.published + 1 }
        sent := (progress s cfg seen).sent ++ [resent s cfg (storedOf msg)] } := by
  simp [progress, h, hdry]

end Turn

-- The context, the publisher and the pauses give no errors.
structure Undisturbed (s : Surroundings) : Prop where
  ctx : ∀ n, s.ctxErr n = none
  publish : ∀ n, s.publishResult n = none
  pause : ∀ n, s.pauseErr n = none

-- One turn at the rest of the stream: it reports an error of the context or the publisher,
-- ends without one, or goes on with the next message.
inductive Turn (s : Surroundings) (cfg : ReplayConfig) (seen rest : List RawMsg) (cut : Prop) :
    Progress ⊕ Progress × Option GoError → Prop
  | disturbed {p e} (h : ¬ Undisturbed s) : Turn s cfg seen rest cut (.inr (p, some e))
  | ended (hctx : s.ctxErr seen.length = none) (h : cut ∨ rest = []) :
      Turn s cfg seen rest cut (.inr (progress s cfg seen, none))
  | passed {msg more} (h : rest = msg :: more) (hnot : ¬ cut) :
      Turn s cfg seen rest cut (.inl (progress s cfg (seen ++ [msg])))

theorem replayTurn_turn (hs : Serves st f s) (hname : validateStreamName cfg.sourceStream = none)
    (hstart : 1 ≤ cfg.startSeq) (hword : cfg.startSeq < 2 ^ 64)
    (hseen : st.retained cfg.startSeq = seen ++ rest) :
    Turn s cfg seen rest (Cut st f cfg seen.length) (replayTurn s cfg (progress s cfg seen)) := by
  have hfetched := fetch_progress hs hname hstart hword hseen
  have hn : (progress s cfg seen).out.considered = seen.length := rfl
  unfold replayTurn
  simp only [hn]
  cases hctx : s.ctxErr seen.length with
  | some e => exact .disturbed fun h => by cases hctx.symm.trans (h.ctx _)
  | none =>
    generalize fetch s cfg (progress s cfg seen).seq seen.length = answer at hfetched
    cases hfetched with
    | cut h => exact .ended hctx (.inl h)
    | ended h => exact .ended hctx (.inr h)
    | @found msg more h hnot =>
      have hpasses : matchReplayFilters s (storedOf msg).header cfg = passes s cfg msg := rfl
      simp only [hpasses]
      cases hmatch : passes s cfg msg with
      | false =>
        have hgo := progress_skip s cfg seen msg hmatch
        simp only [Bool.not_false, if_true]
        exact hgo ▸ .passed h hnot
      | true =>
        simp only [Bool.not_true, Bool.false_eq_true, if_false]
        cases hdry : cfg.dryRun with
        | true =>
          have hgo := progress_dry s cfg seen msg hmatch hdry
          simp only [if_true]
          exact hgo ▸ .passed h hnot
        | false =>
          have hgo := progress_publish s cfg seen msg hmatch hdry
          simp only [Bool.false_eq_true, if_false]
          cases hpub : s.publishResult seen.length with
          | some e => exact .disturbed fun hq => by cases hpub.symm.trans (hq.publish _)
          | none =>
            cases hpause : pause s cfg seen.length with
            | some e =>
              refine .disturbed fun hq => ?_
              simp [pause, hq.pause] at hpause
            | none => exact hgo ▸ .passed h hnot

-- The loop comes to a state after as many turns as it has messages.
def Comes (s : Surroundings) (cfg : ReplayConfig) (seen : List RawMsg) : Prop :=
  iterate (replayTurn s cfg) seen.length ⟨cfg.startSeq, ⟨0, 0, 0, 0, 0⟩, []⟩ =
    .inl (progress s cfg seen)

-- The result of the loop is where its last turn left it.
inductive Ending (s : Surroundings) (cfg : ReplayConfig) (cut : Nat → Prop) (all : List RawMsg) :
    Progress × Option GoError → Prop
  | disturbed {p e} (h : ¬ Undisturbed s) : Ending s cfg cut all (p, some e)
  | full {seen rest : List RawMsg} (h : all = seen ++ rest) (hn : seen.length = cfg.limit.toNat) :
      Ending s cfg cut all (progress s cfg seen, none)
  | ended {seen rest : List RawMsg} (h : all = seen ++ rest) (hn : seen.length < cfg.limit.toNat)
      (hcomes : Comes s cfg seen) (hctx : s.ctxErr seen.length = none)
      (hend : cut seen.length ∨ rest = []) : Ending s cfg cut all (progress s cfg seen, none)

section Run

variable (hs : Serves st f s) (hname : validateStreamName cfg.sourceStream = none)
  (hstart : 1 ≤ cfg.startSeq) (hword : cfg.startSeq < 2 ^ 64)

include hs hname hstart hword

-- The induction is on the turns that are left.
theorem iterate_ending (hseen : st.retained cfg.startSeq = seen ++ rest)
    (hcomes : Comes s cfg seen) (turns : Nat) (hturns : seen.length + turns = cfg.limit.toNat) :
    Ending s cfg (Cut st f cfg) (st.retained cfg.startSeq)
      ((iterate (replayTurn s cfg) turns (progress s cfg seen)).elim (fun p => (p, none)) id) := by
  induction turns generalizing seen rest with
  | zero => exact .full hseen hturns
  | succ turns ih =>
    have hturn := replayTurn_turn hs hname hstart hword hseen
    generalize hresult : replayTurn s cfg (progress s cfg seen) = result at hturn
    cases hturn with
    | disturbed h =>
      simp only [iterate, hresult]
      exact .disturbed h
    | ended hctx h =>
      simp only [iterate, hresult]
      exact .ended hseen (by omega) hcomes hctx h
    | @passed msg more h hnot =>
      rw [iterate_succ_of_inl hresult]
      have hnext : st.retained cfg.startSeq = (seen ++ [msg]) ++ more := by
        rw [hseen, h, List.append_assoc, List.singleton_append]
      refine ih hnext ?_ ?_
      · rw [Comes, List.length_append, List.length_singleton, iterate_succ_of_reached hcomes,
          hresult]
      · rw [List.length_append, List.length_singleton]
        omega

theorem replayLoop_ending :
    Ending s cfg (Cut st f cfg) (st.retained cfg.startSeq) (replayLoop s cfg) := by
  have hcomes : Comes s cfg [] := by
    rw [Comes, progress_nil]
    rfl
  have hloop := iterate_ending hs hname hstart hword rfl hcomes cfg.limit.toNat (by simp)
  rw [progress_nil] at hloop
  unfold replayLoop
  cases h : iterate (replayTurn s cfg) cfg.limit.toNat ⟨cfg.startSeq, ⟨0, 0, 0, 0, 0⟩, []⟩ with
  | inl p =>
    rw [h] at hloop
    exact hloop
  | inr result =>
    rw [h] at hloop
    exact hloop

-- Every state that the loop comes to is one of them.
theorem comes_of_iterate {turns : Nat} {p : Progress}
    (h : iterate (replayTurn s cfg) turns ⟨cfg.startSeq, ⟨0, 0, 0, 0, 0⟩, []⟩ = .inl p) :
    ∃ seen rest, st.retained cfg.startSeq = seen ++ rest ∧ seen.length = turns ∧
      p = progress s cfg seen := by
  induction turns generalizing p with
  | zero =>
    cases h
    exact ⟨[], _, rfl, rfl, (progress_nil s cfg).symm⟩
  | succ turns ih =>
    rw [iterate_add] at h
    cases hbefore : iterate (replayTurn s cfg) turns ⟨cfg.startSeq, ⟨0, 0, 0, 0, 0⟩, []⟩ with
    | inr result =>
      rw [hbefore] at h
      cases h
    | inl q =>
      obtain ⟨seen, rest, hseen, hlength, rfl⟩ := ih hbefore
      have hturn := replayTurn_turn hs hname hstart hword hseen
      have hstep : replayTurn s cfg (progress s cfg seen) = .inl p := by
        rw [← iterate_succ_of_reached hbefore, iterate_add, h]
      rw [hstep] at hturn
      generalize hresult : Sum.inl p = result at hturn
      cases hturn with
      | disturbed => cases hresult
      | ended => cases hresult
      | @passed msg more hrest hnot =>
        cases hresult
        exact ⟨seen ++ [msg], more, by rw [hseen, hrest, List.append_assoc,
          List.singleton_append], by simp [hlength], rfl⟩

end Run

-- The arguments that ReplayToStream does not refuse.
structure Admitted (s : Surroundings) (cfg : ReplayConfig) : Prop where
  source : s.source = true
  publisher : s.publisher = true
  stream : cfg.sourceStream ≠ ""
  dest : cfg.destSubject ≠ ""

theorem replayToStream_admitted (h : Admitted s cfg) :
    replayToStream s cfg = ⟨some (replayLoop s cfg.withDefaults).1.out,
      (replayLoop s cfg.withDefaults).2, (replayLoop s cfg.withDefaults).1.sent⟩ := by
  simp [replayToStream, h.source, h.publisher, h.stream, h.dest]

theorem replayToStream_refused (h : ¬ Admitted s cfg) : (replayToStream s cfg).err ≠ none := by
  unfold replayToStream
  simp only
  split_ifs with hnil hstream hdest
  · simp
  · simp
  · simp
  · simp only [Bool.not_eq_true', not_or, Bool.not_eq_false] at hnil
    exact absurd ⟨hnil.1, hnil.2, hstream, hdest⟩ h

theorem withDefaults_name (hname : validateStreamName cfg.sourceStream = none) :
    validateStreamName cfg.withDefaults.sourceStream = none :=
  hname

theorem withDefaults_start (cfg : ReplayConfig) : 1 ≤ cfg.withDefaults.startSeq := by
  simp only [ReplayConfig.withDefaults]
  split_ifs <;> omega

theorem withDefaults_word (hword : cfg.startSeq < 2 ^ 64) :
    cfg.withDefaults.startSeq < 2 ^ 64 := by
  simp only [ReplayConfig.withDefaults]
  split_ifs <;> omega

end NatsClient.Dlq
