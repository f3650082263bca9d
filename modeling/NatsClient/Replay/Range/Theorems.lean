import NatsClient.Replay.Range

namespace NatsClient.Replay

open Lib.Loop

variable {a : Archive} {faults : Faults} {name : String} {low high clock : Nat}

section Segment

theorem segment_of_lt (h : high < low) : a.segment low high = [] := by
  rw [Archive.segment, Nat.sub_eq_zero_of_le h]
  rfl

theorem segment_eq_cons (h : low ≤ high) :
    a.segment low high = (a.raw? low).toList ++ a.segment (low + 1) high := by
  have hlen : high + 1 - low = (high - low) + 1 := by omega
  rw [Archive.segment, hlen, List.range'_succ, List.filterMap_cons, Archive.segment,
    Nat.succ_sub_succ]
  cases a.raw? low <;> rfl

theorem segment_of_none (h : low ≤ high) (hmsg : a.raw? low = none) :
    a.segment low high = a.segment (low + 1) high := by
  rw [segment_eq_cons h, hmsg]
  rfl

theorem raw_sequence {seq : Nat} {msg : RawMsg} (h : a.raw? seq = some msg) :
    msg.sequence = seq := by
  obtain ⟨c, -, rfl⟩ := Option.map_eq_some_iff.mp h
  rfl

theorem segment_of_some {msg : RawMsg} (h : low ≤ high) (hmsg : a.raw? low = some msg) :
    a.segment low high = msg :: a.segment (msg.sequence + 1) high := by
  rw [segment_eq_cons h, hmsg, raw_sequence hmsg]
  rfl

-- The first message of a segment, and the rest of the segment behind it.
theorem segment_cons_inv {msg : RawMsg} {rest : List RawMsg}
    (h : a.segment low high = msg :: rest) :
    low ≤ msg.sequence ∧ msg.sequence ≤ high ∧ a.raw? msg.sequence = some msg ∧
      rest = a.segment (msg.sequence + 1) high := by
  induction hn : high + 1 - low generalizing low with
  | zero =>
    rw [segment_of_lt (by omega)] at h
    cases h
  | succ n ih =>
    have hle : low ≤ high := by omega
    cases hmsg : a.raw? low with
    | none =>
      obtain ⟨hlow, hrest⟩ := ih (segment_of_none hle hmsg ▸ h) (by omega)
      exact ⟨by omega, hrest⟩
    | some first =>
      rw [segment_of_some hle hmsg] at h
      cases h
      have hseq := raw_sequence hmsg
      exact ⟨by omega, by omega, hseq ▸ hmsg, rfl⟩

end Segment

-- GetNextMsgAfter with the whole message is GetNextMsgAfter.
theorem getNextRawMsgAfter_server (src : Source) (stream : String) (seq : Nat) :
    (getNextRawMsgAfter src stream seq).map (·.map RawMsg.toRawStreamMsg) =
      getNextMsgAfter src.server stream seq := by
  unfold getNextRawMsgAfter getNextMsgAfter
  cases validateStreamName stream with
  | some e => rfl
  | none =>
    cases streamInfo src.server stream with
    | error e => rfl
    | ok info =>
      have hstep : ∀ next, nextMsgStep src.server stream seq info.lastSeq next =
          (nextRawMsgStep src stream seq info.lastSeq next).map id
            (·.map RawMsg.toRawStreamMsg) := by
        intro next
        simp only [nextMsgStep, nextRawMsgStep, Source.server]
        split_ifs
        · cases src.getMsg stream next with
          | ok msg => rfl
          | error e =>
            simp only [Except.map]
            split_ifs <;> rfl
        · rfl
      simp only [getNextMsgAfterKnownLast, iterate_map hstep]
      cases iterate (nextRawMsgStep src stream seq info.lastSeq) (2 ^ 64 + 1)
        ((seq + 1) % 2 ^ 64) <;> rfl

-- What comes after a sequence.
inductive Following (a : Archive) (low : Nat) : Except GoError RawMsg → Prop
  | found {msg rest} (h : a.segment low a.last = msg :: rest) : Following a low (.ok msg)
  | missing {e} (h : a.segment low a.last = []) (he : e.is .errMsgNotFound = true) :
      Following a low (.error e)

theorem nextRawMsg_iterate (a : Archive) (name : String) (seq turns next : Nat)
    (hpos : 0 < turns) (hturns : a.last + 1 < next + turns) :
    ∃ result, iterate (nextRawMsgStep a.source name seq a.last) turns next = .inr result ∧
      Following a next result := by
  induction turns generalizing next with
  | zero => omega
  | succ turns ih =>
    by_cases hle : next ≤ a.last
    · cases hmsg : a.raw? next with
      | some msg =>
        refine ⟨.ok msg, ?_, .found (segment_of_some hle hmsg)⟩
        simp [iterate, nextRawMsgStep, hle, Archive.source, hmsg]
      | none =>
        have hstep : nextRawMsgStep a.source name seq a.last next = .inl (next + 1) := by
          have hlast := a.last_lt
          simp [nextRawMsgStep, hle, Archive.source, hmsg]
          omega
        obtain ⟨result, hresult, hnext⟩ := ih (next + 1) (by omega) (by omega)
        rw [iterate_succ_of_inl hstep]
        refine ⟨result, hresult, ?_⟩
        have hseg := segment_of_none hle hmsg
        cases hnext with
        | found h => exact .found (hseg.trans h)
        | missing h he => exact .missing (hseg.trans h) he
    · exact ⟨_, by simp [iterate, nextRawMsgStep, hle]; rfl,
        .missing (segment_of_lt (Nat.not_le.mp hle)) rfl⟩

theorem getNextRawMsgAfter_following (a : Archive) (hname : validateStreamName name = none)
    {seq : Nat} (hseq : seq + 1 < 2 ^ 64) :
    ∃ result, getNextRawMsgAfter a.source name seq = some result ∧
      Following a (seq + 1) result := by
  obtain ⟨result, hresult, hnext⟩ := nextRawMsg_iterate a name seq (2 ^ 64 + 1) (seq + 1)
    (by omega) (by have := a.last_lt; omega)
  have hmod : (seq + 1) % 2 ^ 64 = seq + 1 := Nat.mod_eq_of_lt hseq
  refine ⟨result, ?_, hnext⟩
  simp only [getNextRawMsgAfter, hname, streamInfo, Source.server, Archive.source, hmod]
  exact Sum.getRight?_eq_some_iff.mpr hresult


-- No call fails from one number to before another.
def Clear (faults : Faults) (low high : Nat) : Prop :=
  ∀ n, low ≤ n → n < high → faults.err n = none

theorem Clear.refl (n : Nat) : Clear faults n n := fun _ hle hlt => absurd hlt (Nat.not_lt.mpr hle)

theorem Clear.one {n : Nat} (hn : faults.err n = none) : Clear faults n (n + 1) := by
  intro m hle hlt
  obtain rfl := Nat.le_antisymm hle (Nat.le_of_lt_succ hlt)
  exact hn

theorem Clear.trans {mid : Nat} (h : Clear faults low mid) (h' : Clear faults mid high) :
    Clear faults low high := by
  intro n hle hlt
  by_cases hn : n < mid
  · exact h n hle hn
  · exact h' n (Nat.not_lt.mp hn) hlt

theorem Faults.wrap_other {n : Nat} {e : GoError} (h : faults.err n = some e) (place : String) :
    (GoError.wrap place e "").is .errMsgNotFound = false :=
  faults.other n e h

-- The answers of the server to GetMsg.
inductive Answer (a : Archive) (faults : Faults) (n seq : Nat) : Except GoError RawMsg → Prop
  | failed {e place} (h : faults.err n = some e) : Answer a faults n seq (.error (.wrap place e ""))
  | found {msg} (h : faults.err n = none) (hmsg : a.raw? seq = some msg) :
      Answer a faults n seq (.ok msg)
  | missing {e} (h : faults.err n = none) (hmsg : a.raw? seq = none)
      (he : e.is .errMsgNotFound = true) : Answer a faults n seq (.error e)

theorem getRawMsg_answer (a : Archive) (faults : Faults)
    (hname : validateStreamName name = none) (n seq : Nat) :
    Answer a faults n seq (getRawMsg (a.calls faults n) name seq) := by
  simp only [getRawMsg, hname, Archive.calls]
  cases hn : faults.err n with
  | some e => exact .failed hn
  | none =>
    cases hmsg : a.raw? seq with
    | some msg =>
      simp only [Archive.source, hmsg]
      exact .found hn hmsg
    | none =>
      simp only [Archive.source, hmsg]
      exact .missing hn hmsg rfl

-- What nextExisting comes to from a sequence on, and the number of the call after.
inductive Next (a : Archive) (faults : Faults) (high low clock : Nat) :
    Except GoError RawMsg × Nat → Prop
  | found {msg clock'} (hle : clock ≤ clock') (hclear : Clear faults clock clock')
      (hlow : low ≤ msg.sequence) (hhigh : msg.sequence ≤ high)
      (hseg : a.segment low high = msg :: a.segment (msg.sequence + 1) high) :
      Next a faults high low clock (.ok msg, clock')
  | missing {clock'} (hle : clock ≤ clock') (hclear : Clear faults clock clock')
      (hseg : a.segment low high = []) :
      Next a faults high low clock (.error (.sentinel .errMsgNotFound), clock')
  | failed {n e place} (hle : clock ≤ n) (hclear : Clear faults clock n)
      (h : faults.err n = some e) :
      Next a faults high low clock (.error (.wrap place e ""), n + 1)

-- A sequence without a message is passed over.
theorem Next.cons {result : Except GoError RawMsg × Nat} (h : Next a faults high (low + 1)
    (clock + 1) result) (hle : low ≤ high) (hn : faults.err clock = none)
    (hmsg : a.raw? low = none) : Next a faults high low clock result := by
  have hseg := segment_of_none hle hmsg
  have hfirst : Clear faults clock (clock + 1) := Clear.one hn
  cases h with
  | found hc hclear hlow hhigh h =>
    exact .found (by omega) (hfirst.trans hclear) (by omega) hhigh (hseg.trans h)
  | missing hc hclear h => exact .missing (by omega) (hfirst.trans hclear) (hseg.trans h)
  | failed hc hclear h => exact .failed (by omega) (hfirst.trans hclear) h

-- The scan does not pass the greatest sequence: it ends before it, or there is a message on
-- the way.
def Bounded (a : Archive) (low high : Nat) : Prop :=
  high < 2 ^ 64 - 1 ∨ high < 2 ^ 64 ∧ a.segment low high ≠ []

theorem Bounded.low_lt (h : Bounded a low high) (hlow : low ≤ high + 1) : low < 2 ^ 64 := by
  obtain hhigh | ⟨hhigh, hseg⟩ := h
  · omega
  · by_contra hlast
    exact hseg (segment_of_lt (by omega))

theorem Bounded.of_none (h : Bounded a low high) (hle : low ≤ high) (hmsg : a.raw? low = none) :
    Bounded a (low + 1) high := by
  rwa [Bounded, ← segment_of_none hle hmsg]

theorem nextExisting_iterate (a : Archive) (faults : Faults)
    (hname : validateStreamName name = none) (low clock turns : Nat) (hbound : Bounded a low high)
    (hlow : low ≤ high + 1) (hturns : high + 1 < low + turns) :
    ∃ result, iterate (nextExistingStep (a.calls faults) name high) turns ⟨low, clock⟩ =
      .inr result ∧ Next a faults high low clock result := by
  induction turns generalizing low clock with
  | zero => omega
  | succ turns ih =>
    by_cases hle : low ≤ high
    · have hanswer := getRawMsg_answer a faults hname clock low
      simp only [iterate, nextExistingStep, if_pos hle]
      generalize getRawMsg (a.calls faults clock) name low = answer at hanswer
      cases hanswer with
      | @failed e place h =>
        refine ⟨(.error (.wrap place e ""), clock + 1), ?_, .failed (Nat.le_refl _) (.refl _) h⟩
        simp only [Faults.wrap_other h, Bool.false_eq_true, if_false]
      | @found msg h hmsg =>
        have hseg := segment_of_some hle hmsg
        obtain rfl := raw_sequence hmsg
        exact ⟨_, rfl, .found (Nat.le_succ _) (.one h) (Nat.le_refl _) hle hseg⟩
      | missing h hmsg he =>
        have hbound := hbound.of_none hle hmsg
        have hmod : (low + 1) % 2 ^ 64 = low + 1 :=
          Nat.mod_eq_of_lt (hbound.low_lt (by omega))
        simp only [he, if_true, hmod]
        obtain ⟨result, hresult, hnext⟩ := ih (low + 1) (clock + 1) hbound (by omega) (by omega)
        exact ⟨result, hresult, hnext.cons hle h hmsg⟩
    · refine ⟨_, by simp only [iterate, nextExistingStep, if_neg hle]; rfl, ?_⟩
      exact .missing (Nat.le_refl _) (.refl _) (segment_of_lt (by omega))

theorem nextExisting_next (a : Archive) (faults : Faults)
    (hname : validateStreamName name = none) {after turns : Nat}
    (hbound : Bounded a (after + 1) high) (clock : Nat) (hafter : after ≤ high)
    (hturns : high + 1 ≤ after + turns) :
    ∃ result, nextExisting (a.calls faults) name high after clock turns = some result ∧
      Next a faults high (after + 1) clock result := by
  have hmod : (after + 1) % 2 ^ 64 = after + 1 := Nat.mod_eq_of_lt (hbound.low_lt (by omega))
  obtain ⟨result, hresult, hnext⟩ := nextExisting_iterate a faults hname (after + 1)
    clock turns hbound (by omega) (by omega)
  exact ⟨result, by rw [nextExisting, hmod, hresult]; rfl, hnext⟩

-- What GetMsgRange has to return for the retained messages of the window.
def MsgRange.window (cap : Nat) (msgs : List RawMsg) : MsgRange :=
  ⟨(msgs.take cap).map storedMessageFromRaw, decide (cap < msgs.length), none⟩

-- The calls up to a result: all went through, or the last one failed.
inductive Outcome (faults : Faults) (clock : Nat) (exact : MsgRange) : MsgRange × Nat → Prop
  | exact {clock'} (hle : clock ≤ clock') (hclear : Clear faults clock clock') :
      Outcome faults clock exact (exact, clock')
  | failed {n cause e} (hle : clock ≤ n) (hclear : Clear faults clock n)
      (h : faults.err n = some cause) (he : cause.Wraps e) :
      Outcome faults clock exact (.failed e, n + 1)

theorem Outcome.after {exact : MsgRange} {mid : Nat} {result : MsgRange × Nat}
    (h : Outcome faults mid exact result) (hle : clock ≤ mid) (hclear : Clear faults clock mid) :
    Outcome faults clock exact result := by
  cases h with
  | exact hle' hclear' => exact .exact (hle.trans hle') (hclear.trans hclear')
  | failed hle' hclear' h he => exact .failed (hle.trans hle') (hclear.trans hclear') h he

theorem window_of_end {cap : Nat} {taken : List RawMsg} (h : taken.length ≤ cap) :
    MsgRange.window cap taken = ⟨taken.map storedMessageFromRaw, false, none⟩ := by
  simp [MsgRange.window, List.take_of_length_le h, Nat.not_lt.mpr h]

theorem window_nil (cap : Nat) : MsgRange.window cap [] = ⟨[], false, none⟩ :=
  window_of_end (Nat.zero_le cap)

theorem window_of_full (taken : List RawMsg) (msg : RawMsg) (rest : List RawMsg) :
    MsgRange.window taken.length (taken ++ msg :: rest) =
      ⟨taken.map storedMessageFromRaw, true, none⟩ := by
  simp [MsgRange.window]

theorem window_ne_failed (cap : Nat) (msgs : List RawMsg) (e : GoError) :
    MsgRange.window cap msgs ≠ .failed e := by
  intro h
  cases congrArg MsgRange.err h

-- At the head of the loop: the messages taken so far, and those after the current one.
structure Walking (a : Archive) (cap high : Nat) (msgs : List RawMsg) (w : Walk) : Prop where
  cur_le : w.cur ≤ high
  length_le : w.out.length ≤ cap
  split : ∃ taken : List RawMsg, w.out = taken.map storedMessageFromRaw ∧
    msgs = taken ++ a.segment (w.cur + 1) high
  current : ∃ msg, a.raw? w.cur = some msg ∧ storedMessageFromRaw msg ∈ w.out

-- One turn: a later message is taken, or the function returns.
inductive Turn (a : Archive) (faults : Faults) (cap high : Nat) (msgs : List RawMsg) (w : Walk) :
    Walk ⊕ MsgRange × Nat → Prop
  | next {w' : Walk} (hw : Walking a cap high msgs w') (hcur : w.cur < w'.cur)
      (hle : w.clock ≤ w'.clock) (hclear : Clear faults w.clock w'.clock) :
      Turn a faults cap high msgs w (.inl w')
  | done {result} (h : Outcome faults w.clock (.window cap msgs) result) :
      Turn a faults cap high msgs w (.inr result)

section Walk

variable {cap turns : Nat} {msgs : List RawMsg} {w : Walk}

-- Nothing is left after the current message.
theorem Walking.exact_of_nil (hw : Walking a cap high msgs w)
    (hrest : a.segment (w.cur + 1) high = []) :
    MsgRange.window cap msgs = ⟨w.out, false, none⟩ := by
  obtain ⟨taken, hout, hmsgs⟩ := hw.split
  have hlen : taken.length ≤ cap := by simpa [hout] using hw.length_le
  rw [hmsgs, hrest, List.append_nil, window_of_end hlen, hout]

theorem Walking.exact_of_cons (hw : Walking a cap high msgs w) (hfull : cap ≤ w.out.length)
    {msg : RawMsg} {rest : List RawMsg} (hrest : a.segment (w.cur + 1) high = msg :: rest) :
    MsgRange.window cap msgs = ⟨w.out, true, none⟩ := by
  obtain ⟨taken, hout, hmsgs⟩ := hw.split
  have hcap : cap = taken.length := by
    have := hw.length_le
    simp only [hout, List.length_map] at hfull this
    omega
  rw [hmsgs, hrest, hcap, window_of_full, hout]

-- The next message is taken.
theorem Walking.take (hw : Walking a cap high msgs w) (hroom : w.out.length < cap) {msg : RawMsg}
    (hmsg : msg.sequence ≤ high)
    (hseg : a.segment (w.cur + 1) high = msg :: a.segment (msg.sequence + 1) high) (clock : Nat) :
    Walking a cap high msgs ⟨w.out ++ [storedMessageFromRaw msg], msg.sequence, clock⟩ where
  cur_le := hmsg
  length_le := by
    rw [List.length_append]
    exact hroom
  split := by
    obtain ⟨taken, hout, hmsgs⟩ := hw.split
    refine ⟨taken ++ [msg], by rw [hout, List.map_append]; rfl, ?_⟩
    rw [hmsgs, hseg, List.append_assoc]
    rfl
  current := ⟨msg, (segment_cons_inv hseg).2.2.1, List.mem_append_right _ List.mem_cons_self⟩

theorem rangeStep_turn (faults : Faults) (hname : validateStreamName name = none)
    (hhigh : high < 2 ^ 64 - 1) (hw : Walking a cap high msgs w) (hturns : high + 1 ≤ turns) :
    Turn a faults cap high msgs w (rangeStep (a.calls faults) name cap high turns w) := by
  obtain ⟨answer, hanswer, hnext⟩ := nextExisting_next a faults hname (.inl hhigh) w.clock
    hw.cur_le (show high + 1 ≤ w.cur + turns by omega)
  have hcap : ((cap : Int) ≤ w.out.length) ↔ cap ≤ w.out.length := by omega
  simp only [rangeStep, hcap, hanswer]
  by_cases hlast : high ≤ w.cur
  -- The current message is the last of the interval.
  · have hexact := hw.exact_of_nil (segment_of_lt (show high < w.cur + 1 by omega))
    simp only [Nat.not_lt.mpr hlast, hlast, if_true, if_false, ite_self, ← hexact]
    exact .done (.exact (Nat.le_refl _) (.refl _))
  · simp only [Nat.not_le.mp hlast, hlast, if_true, if_false]
    cases hnext with
    | @found msg _ hle hclear hlow hmsg hseg =>
      split_ifs with hfull
      · rw [← hw.exact_of_cons hfull hseg]
        exact .done (.exact hle hclear)
      · exact .next (hw.take (Nat.not_le.mp hfull) hmsg hseg _) hlow hle hclear
    | missing hle hclear hseg =>
      have his : (GoError.sentinel .errMsgNotFound).is .errMsgNotFound = true := rfl
      simp only [his, if_true, ite_self, ← hw.exact_of_nil hseg]
      exact .done (.exact hle hclear)
    | @failed n e place hle hclear h =>
      simp only [Faults.wrap_other h, Bool.false_eq_true, if_false]
      split_ifs
      · exact .done (.failed hle hclear h (.wrap .self))
      · exact .done (.failed hle hclear h (.wrap (.wrap .self)))

theorem rangeStep_iterate (faults : Faults) (hname : validateStreamName name = none)
    (hhigh : high < 2 ^ 64 - 1) (hturns : high + 1 ≤ turns) (n : Nat) (w : Walk)
    (hw : Walking a cap high msgs w)
    (hn : high < w.cur + n) :
    ∃ result, iterate (rangeStep (a.calls faults) name cap high turns) n w = .inr result ∧
      Outcome faults w.clock (.window cap msgs) result := by
  induction n generalizing w with
  | zero => exact absurd hw.cur_le (by omega)
  | succ n ih =>
    have hturn := rangeStep_turn faults hname hhigh hw hturns
    rw [iterate]
    generalize rangeStep (a.calls faults) name cap high turns w = out at hturn
    cases hturn with
    | next hw' hcur hle hclear =>
      obtain ⟨result, hresult, houtcome⟩ := ih _ hw' (by omega)
      exact ⟨result, hresult, houtcome.after hle hclear⟩
    | done h => exact ⟨_, rfl, h⟩

theorem walking_first {msg : RawMsg} (hcap : 1 ≤ cap) (hmsg : msg.sequence ≤ high)
    (hseg : a.segment low high = msg :: a.segment (msg.sequence + 1) high) (clock : Nat) :
    Walking a cap high (a.segment low high) ⟨[storedMessageFromRaw msg], msg.sequence, clock⟩ :=
  ⟨hmsg, hcap, ⟨[msg], rfl, hseg⟩, msg, (segment_cons_inv hseg).2.2.1, List.mem_cons_self⟩

-- Before the loop: the first message is taken, or the function returns.
inductive Start (a : Archive) (faults : Faults) (cap high clock : Nat) (msgs : List RawMsg) :
    Walk ⊕ MsgRange × Nat → Prop
  | walk {w : Walk} (hw : Walking a cap high msgs w) (hle : clock ≤ w.clock)
      (hclear : Clear faults clock w.clock) : Start a faults cap high clock msgs (.inl w)
  | done {result} (h : Outcome faults clock (.window cap msgs) result)
      (hmsgs : msgs = [] ∨ result.1.err ≠ none) : Start a faults cap high clock msgs (.inr result)

theorem rangeStart_start (a : Archive) (faults : Faults) (clock : Nat)
    (hname : validateStreamName name = none) (hbound : Bounded a low high) (hlow : 1 ≤ low)
    (hle : low ≤ high) (hcap : 1 ≤ cap) (hturns : high + 1 ≤ turns) :
    ∃ first, rangeStart (a.calls faults) name low high clock turns = some first ∧
      Start a faults cap high clock (a.segment low high) first := by
  have hanswer := getRawMsg_answer a faults hname clock low
  rw [rangeStart]
  generalize getRawMsg (a.calls faults clock) name low = answer at hanswer
  cases hanswer with
  | failed h =>
    simp only [Faults.wrap_other h, Bool.false_eq_true, if_false]
    exact ⟨_, rfl, .done (.failed (Nat.le_refl _) (.refl _) h (.wrap (.wrap .self)))
      (.inr (Option.some_ne_none _))⟩
  | found h hmsg =>
    have hseg := segment_of_some hle hmsg
    obtain rfl := raw_sequence hmsg
    exact ⟨_, rfl, .walk (walking_first hcap hle hseg _) (Nat.le_succ _) (.one h)⟩
  | missing h hmsg he =>
    have hbound : Bounded a (low - 1 + 1) high := by rwa [Nat.sub_add_cancel hlow]
    obtain ⟨answer, hnext, hanswer⟩ := nextExisting_next a faults hname hbound (clock + 1)
      (show low - 1 ≤ high by omega) (show high + 1 ≤ low - 1 + turns by omega)
    rw [Nat.sub_add_cancel hlow] at hanswer
    have hfirst : Clear faults clock (clock + 1) := .one h
    simp only [he, if_true, hnext, Option.map_some]
    refine ⟨_, rfl, ?_⟩
    cases hanswer with
    | found hle' hclear hlow' hmsg' hseg =>
      exact .walk (walking_first hcap hmsg' hseg _) (Nat.le_of_succ_le hle')
        (hfirst.trans hclear)
    | missing hle' hclear hseg =>
      rw [hseg, ← window_nil cap]
      exact .done (.exact (Nat.le_of_succ_le hle') (hfirst.trans hclear)) (.inl rfl)
    | failed hle' hclear h' =>
      simp only [Faults.wrap_other h', Bool.false_eq_true, if_false]
      exact .done (.failed (Nat.le_of_succ_le hle') (hfirst.trans hclear) h'
        (.wrap (.wrap .self))) (.inr (Option.some_ne_none _))

theorem rangeWalk_outcome (a : Archive) (faults : Faults) (clock : Nat)
    (hname : validateStreamName name = none) (hhigh : high < 2 ^ 64 - 1) (hlow : 1 ≤ low)
    (hle : low ≤ high) (hcap : 1 ≤ cap) (hturns : high + 1 ≤ turns) :
    ∃ result, rangeWalk (a.calls faults) name cap low high clock turns = some result ∧
      Outcome faults clock (.window cap (a.segment low high)) result := by
  obtain ⟨first, hfirst, hstart⟩ := rangeStart_start a faults clock hname (.inl hhigh) hlow hle
    hcap hturns
  rw [rangeWalk, hfirst]
  cases hstart with
  | @walk w hw hle' hclear =>
    obtain ⟨result, hresult, houtcome⟩ := rangeStep_iterate faults hname hhigh hturns turns w hw
      (by omega)
    exact ⟨result, by simp only [hresult, Sum.getRight?], houtcome.after hle' hclear⟩
  | done h => exact ⟨_, rfl, h⟩

end Walk

theorem applyMsgRangeOpts_pos (opts : List MsgRangeOpt) : 0 < (applyMsgRangeOpts opts).max := by
  simp only [applyMsgRangeOpts]
  split_ifs with h
  · decide
  · exact not_le.mp h

theorem getMsgRange_outcome (a : Archive) (faults : Faults) (clock : Nat)
    {opts : List MsgRangeOpt} {cap startSeq endSeq turns : Nat} (hname : validateStreamName name = none)
    (hstart : 1 ≤ startSeq) (hend : startSeq ≤ endSeq)
    (hcap : (applyMsgRangeOpts opts).max = cap) (hturns : a.last + 1 ≤ turns) :
    ∃ result, getMsgRange (a.calls faults) name startSeq endSeq opts clock turns = some result ∧
      Outcome faults clock (.window cap (a.segment startSeq (min endSeq a.last))) result := by
  have hpos : 1 ≤ cap := by
    have := applyMsgRangeOpts_pos opts
    omega
  have hzero : ¬ (startSeq = 0 ∨ endSeq = 0) := by omega
  simp only [getMsgRange, hname, hzero, Nat.not_lt.mpr hend, if_false, streamInfo,
    Archive.calls, Source.server, hcap]
  cases hinfo : faults.err clock with
  | some e => exact ⟨_, rfl, .failed (Nat.le_refl _) (.refl _) hinfo (.wrap (.wrap .self))⟩
  | none =>
    have hfirst : Clear faults clock (clock + 1) := Clear.one hinfo
    have hmin : (if a.last < endSeq then a.last else endSeq) = min endSeq a.last := by
      split_ifs <;> omega
    simp only [Archive.source, hmin]
    by_cases hlast : a.last < startSeq
    · refine ⟨_, if_pos hlast, ?_⟩
      have hseg : a.segment startSeq (min endSeq a.last) = [] := segment_of_lt (by omega)
      rw [hseg, window_nil]
      exact .exact (Nat.le_succ _) hfirst
    · have hhigh := a.last_lt
      obtain ⟨result, hresult, houtcome⟩ := rangeWalk_outcome a faults (clock + 1) hname
        (show min endSeq a.last < 2 ^ 64 - 1 by omega) hstart (by omega) hpos
        (show min endSeq a.last + 1 ≤ turns by omega)
      exact ⟨result, (if_neg hlast).trans hresult, houtcome.after (Nat.le_succ _) hfirst⟩

theorem segment_sequences (a : Archive) (low high : Nat) :
    (a.segment low high).map (·.sequence) =
      (List.range' low (high + 1 - low)).filter fun seq => (a.raw? seq).isSome := by
  rw [Archive.segment, List.map_filterMap, ← List.filterMap_eq_filter]
  refine List.filterMap_congr fun seq _ => ?_
  cases h : a.raw? seq with
  | none => simp [Option.guard, h]
  | some msg => simp [Option.guard, h, raw_sequence h]

theorem window_increasing (a : Archive) (cap low high : Nat) :
    ((MsgRange.window cap (a.segment low high)).messages.map (·.sequence)).Pairwise (· < ·) := by
  have hstored : (fun msg : StoredMessage => msg.sequence) ∘ storedMessageFromRaw =
      fun msg => msg.sequence := rfl
  rw [MsgRange.window, List.map_map, hstored, List.map_take, segment_sequences]
  exact ((List.pairwise_lt_range').filter _).take

-- The messages 1, 3 and 5 of a stream of six.
def odd : Archive where
  first := 1
  last := 6
  content seq := if seq % 2 = 1 then some ⟨seq, "orders", none, []⟩ else none
  last_lt := by decide

def quiet : Faults where
  err _ := none
  other _ _ h := absurd h.symm (Option.some_ne_none _)

end NatsClient.Replay
