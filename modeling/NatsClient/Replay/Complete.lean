import NatsClient.Replay.Sound

namespace NatsClient.Replay

open Lib.Loop

variable {s : Stream} {name : String} {left : RawStreamMsg → Bool} {keepLeft : Bool}
  {w next : Window} {seq : Nat}

-- The walk back finds the messages in its reach and no others.
theorem prevWalk_reach (hname : validateStreamName name = none) {steps prev : Nat}
    {msg : RawStreamMsg} (h : prevWalk s.server name s.first steps prev = .ok msg) :
    prev < msg.sequence + steps := by
  induction steps generalizing prev with
  | zero => cases h
  | succ steps ih =>
    have hstep := prevWalk_step (s := s) hname steps prev
    rw [h] at hstep
    generalize hresult : Except.ok msg = result at hstep
    cases hstep with
    | left => cases hresult
    | found =>
      cases hresult
      exact Nat.lt_add_of_pos_right (Nat.succ_pos steps)
    | missing =>
      have hlt := ih hresult.symm
      omega

theorem prevWalk_ok (hname : validateStreamName name = none) {steps prev k : Nat} {t : Int}
    (hk : s.time k = some t) (hle : k ≤ prev) (hlt : prev < k + steps) :
    ∃ msg, prevWalk s.server name s.first steps prev = .ok msg := by
  induction steps generalizing prev with
  | zero => omega
  | succ steps ih =>
    have hin := (s.retained k t hk).1
    have hstep := prevWalk_step (s := s) hname steps prev
    generalize prevWalk s.server name s.first (steps + 1) prev = result at hstep ⊢
    cases hstep with
    | left => omega
    | found => exact ⟨_, rfl⟩
    | missing hfirst hnone =>
      have hne : k ≠ prev := by
        rintro rfl
        rw [hk] at hnone
        cases hnone
      exact ih (by omega) (by omega)

theorem prevWalk_error (hname : validateStreamName name = none) {steps prev : Nat} {e : GoError}
    (h : prevWalk s.server name s.first steps prev = .error e) :
    e = .sentinel .errMsgNotFound := by
  induction steps generalizing prev with
  | zero =>
    cases h
    rfl
  | succ steps ih =>
    have hstep := prevWalk_step (s := s) hname steps prev
    rw [h] at hstep
    generalize hresult : Except.error e = result at hstep
    cases hstep with
    | left =>
      cases hresult
      rfl
    | found => cases hresult
    | missing => exact ih hresult.symm

-- A message is retained at the sequence, after it, or so little before it that the walk back
-- comes to it.
def Near (s : Stream) (seq : Nat) : Prop := ∃ k t, s.time k = some t ∧ seq < k + maxPrevWalk

theorem Near.mono {low : Nat} (h : Near s seq) (hle : low ≤ seq) : Near s low := by
  obtain ⟨k, t, hk, hlt⟩ := h
  exact ⟨k, t, hk, hle.trans_lt hlt⟩

-- The probe finds a message exactly if one is near.
theorem probe_of_near (hname : validateStreamName name = none) (hlo : s.first ≤ seq)
    (hhi : seq ≤ s.last) (h : Near s seq) : ∃ msg, probe s name seq = some (.ok msg) := by
  obtain ⟨k, t, hk, hlt⟩ := h
  have hprobed : Probed s name seq (probe s name seq) := getExistingAtOrNear_probed hname hlo hhi
  generalize probe s name seq = probed at hprobed
  cases hprobed with
  | here | next => exact ⟨_, rfl⟩
  | back _ hgap =>
    have hin := (s.retained k t hk).2
    -- nothing is retained from the sequence on, so the message stands before it
    have hbefore : k ≤ seq := by
      by_contra hafter
      rw [hgap k (by omega) (by omega)] at hk
      cases hk
    obtain ⟨msg, hmsg⟩ := prevWalk_ok hname hk hbefore hlt
    exact ⟨msg, congrArg some hmsg⟩

theorem probe_of_not_near (hname : validateStreamName name = none) (hlo : s.first ≤ seq)
    (hhi : seq ≤ s.last) (h : ¬ Near s seq) :
    probe s name seq = some (.error (.sentinel .errMsgNotFound)) := by
  have hfar (k : Nat) (t : Int) (hk : s.time k = some t) : k + maxPrevWalk ≤ seq := by
    by_contra hnear
    exact h ⟨k, t, hk, by omega⟩
  have hprobed : Probed s name seq (probe s name seq) := getExistingAtOrNear_probed hname hlo hhi
  generalize probe s name seq = probed at hprobed
  cases hprobed with
  | here ht =>
    have hle := hfar seq _ ht
    simp only [maxPrevWalk] at hle
    omega
  | next _ hm hlt _ =>
    have hle := hfar _ _ hm
    omega
  | back =>
    cases hwalk : prevWalk s.server name s.first maxPrevWalk seq with
    | error e => rw [prevWalk_error hname hwalk]
    | ok msg =>
      have hle := hfar _ _ (prevWalk_server hname _ _ _ hwalk).1
      have hlt := prevWalk_reach hname hwalk
      omega

-- As long as nothing was recorded, the bound of the kept side has not moved.
def Unmoved (s : Stream) (keepLeft : Bool) (w : Window) : Prop :=
  w.found = 0 → if keepLeft then w.hi = s.last else w.lo = s.first

theorem Unmoved.step (hname : validateStreamName name = none) (hb : Bracket s left w)
    (hu : Unmoved s keepLeft w)
    (h : bisectStep (probe s name) s.first left keepLeft w = .inl next) :
    Unmoved s keepLeft next := by
  obtain ⟨msg, hle, hprobe, hm, hcase⟩ := bisectStep_inl hname hb h
  have hfound := bisectStep_found hprobe hle h
  have hone := s.one_le_first
  have hin := (s.retained _ _ hm).1
  intro hzero
  rw [hfound] at hzero
  obtain ⟨hleft, hlo, -, -⟩ | ⟨hleft, -, hhi⟩ := hcase
  · cases keepLeft with
    | true =>
      rw [if_pos hleft] at hzero
      omega
    | false =>
      rw [if_neg (by simp [hleft])] at hzero
      rw [if_neg (by decide), hlo]
      simpa using hu hzero
  · cases keepLeft with
    | true =>
      rw [if_neg (by simp [hleft])] at hzero
      rw [if_pos rfl, hhi]
      simpa using hu hzero
    | false =>
      rw [if_pos hleft] at hzero
      omega

-- No message lies on the side that the search is for.
def Vacant (s : Stream) (left : RawStreamMsg → Bool) (keepLeft : Bool) : Prop :=
  ∀ k t, s.time k = some t → left ⟨k, t⟩ ≠ keepLeft

theorem Pinned.vacant (hp : Pinned s left keepLeft w) (hu : Unmoved s keepLeft w)
    (hlt : w.hi < w.lo) (hzero : w.found = 0) : Vacant s left keepLeft := by
  intro k t hk
  have hin := s.retained k t hk
  have hside := hu hzero
  cases keepLeft with
  | true =>
    rw [if_pos rfl] at hside
    rw [hp.below k t (by omega) hk]
    decide
  | false =>
    rw [if_neg (by decide)] at hside
    rw [hp.above k t (by omega) hk]
    decide

theorem answer_error {found : Nat} {e : GoError} (h : Window.answer found = .error e) :
    found = 0 := by
  unfold Window.answer at h
  split_ifs at h with hzero
  exact hzero

-- A search that ends in an error has probed a place with no message near, or there is
-- nothing to be found.
theorem Pinned.error (hname : validateStreamName name = none) (hsplits : Splits s left)
    (hp : Pinned s left keepLeft w) (hu : Unmoved s keepLeft w) {e : GoError}
    (h : bisectStep (probe s name) s.first left keepLeft w = .inr (.error e)) :
    (w.lo ≤ w.hi ∧ ¬ Near s w.mid) ∨ Vacant s left keepLeft := by
  by_cases hle : w.lo ≤ w.hi
  · obtain ⟨hf, hl, -, -⟩ := hp.bracket.mid_bounds hle
    by_cases hnear : Near s w.mid
    · right
      obtain ⟨msg, hprobe⟩ := probe_of_near hname hf hl hnear
      obtain ⟨answer, hr, hspec⟩ := getExistingAtOrNear_server hname hf hl
      obtain rfl : answer = .ok msg :=
        Option.some.inj (hr.symm.trans hprobe)
      obtain ⟨hm, -⟩ := hspec msg rfl
      have hone := s.one_le_first
      have hin := (s.retained _ _ hm).1
      simp only [bisectStep, if_pos hle, hprobe] at h
      split_ifs at h with hleft hstop hkept
      · have hzero := answer_error (Sum.inr.inj h)
        omega
      · -- the message stands at the start of the stream and is not of the kept side
        intro k t hk hkeep
        have hmore := hsplits msg.sequence k msg.time t ?_ hm hk hleft
        · rw [hleft] at hkept
          exact hkept (hmore.symm.trans hkeep)
        · have hin' := (s.retained k t hk).1
          omega
    · exact .inl ⟨hle, hnear⟩
  · right
    simp only [bisectStep, if_neg hle] at h
    exact hp.vacant hu (by omega) (answer_error (Sum.inr.inj h))

-- Every place that the search probes has a message near.
def Answered (s : Stream) (name : String) (left : RawStreamMsg → Bool) (keepLeft : Bool) : Prop :=
  ∀ w, Visits (bisectStep (probe s name) s.first left keepLeft) (start s) w →
    w.lo ≤ w.hi → Near s w.mid

-- A short tail of deleted messages is no obstacle.
theorem answered_of_near (hname : validateStreamName name = none) (left : RawStreamMsg → Bool)
    (keepLeft : Bool) (h : Near s s.last) : Answered s name left keepLeft := by
  intro w hv hle
  obtain ⟨hb, -⟩ := hv.invariant (P := Bracket s left) (fun _ _ hb h => hb.step hname h)
    (bracket_start s left)
  exact h.mono (hb.mid_bounds hle).2.1

theorem bisect_of_invalid {e : GoError} (hname : validateStreamName name = some e)
    (turns : Nat) : bisect s.server name left keepLeft turns = some (.error e) := by
  simp only [bisect, hname]

-- An error means that there is nothing on the kept side exactly if that is so, or if every
-- place that is probed has a message near.
theorem bisect_complete_iff (name : String) (keepLeft : Bool) (hsplits : Splits s left) :
    (∀ turns e, bisect s.server name left keepLeft turns = some (.error e) →
        Vacant s left keepLeft) ↔
      Vacant s left keepLeft ∨
        validateStreamName name = none ∧ Answered s name left keepLeft := by
  constructor
  · intro h
    refine or_iff_not_imp_left.mpr fun hsome => ?_
    cases hname : validateStreamName name with
    | some e => exact absurd (h 0 e (bisect_of_invalid hname 0)) hsome
    | none =>
      refine ⟨rfl, fun w hv hle => ?_⟩
      by_contra hfar
      obtain ⟨hb, -⟩ := hv.invariant (P := Bracket s left) (fun _ _ hb h => hb.step hname h)
        (bracket_start s left)
      obtain ⟨hf, hl, -, -⟩ := hb.mid_bounds hle
      have hstep : bisectStep (probe s name) s.first left keepLeft w =
          .inr (.error (.sentinel .errMsgNotFound)) := by
        simp only [bisectStep, if_pos hle, probe_of_not_near hname hf hl hfar]
      obtain ⟨turns, hturns⟩ := exists_iterate_of_visits hv hstep
      refine hsome (h turns (.sentinel .errMsgNotFound) ?_)
      rw [bisect_server s hname, hturns]
      rfl
  · rintro (hvacant | ⟨hname, hanswered⟩) turns e h
    · exact hvacant
    · rw [bisect_server s hname, Sum.getRight?_eq_some_iff] at h
      obtain ⟨w, hv, ⟨hp, hu⟩, hlast⟩ := exists_last_of_iterate
        (P := fun w => Pinned s left keepLeft w ∧ Unmoved s keepLeft w)
        (fun _ _ hs hstep => ⟨hs.1.step hname hsplits hstep, hs.2.step hname hs.1.bracket hstep⟩)
        h ⟨pinned_start s left keepLeft, fun _ => by cases keepLeft <;> rfl⟩
      rcases hp.error hname hsplits hu hlast with ⟨hle, hfar⟩ | hvacant
      · exact absurd (hanswered w hv hle) hfar
      · exact hvacant

theorem vacant_atOrAfter_iff (s : Stream) (t : Int) :
    Vacant s (atOrAfter t) true ↔ ∀ k tk, s.time k = some tk → tk < t := by
  simp [Vacant, atOrAfter]

theorem vacant_after_iff (s : Stream) (t : Int) :
    Vacant s (after t) false ↔ ∀ k tk, s.time k = some tk → t < tk := by
  simp [Vacant, after]

-- The searches err only where there is nothing to find, exactly if there is nothing to find
-- or every place that they probe has a message near. That is so if one of the last
-- `maxPrevWalk` sequences is retained.
theorem find_complete_iff (s : Stream) (name : String) (t : Int) :
    ((∀ turns e, findFirstSeqAtOrAfter s.server name t turns = some (.error e) →
          ∀ k tk, s.time k = some tk → tk < t) ↔
        (∀ k tk, s.time k = some tk → tk < t) ∨
          validateStreamName name = none ∧ Answered s name (atOrAfter t) true) ∧
      ((∀ turns e, findLastSeqAtOrBefore s.server name t turns = some (.error e) →
          ∀ k tk, s.time k = some tk → t < tk) ↔
        (∀ k tk, s.time k = some tk → t < tk) ∨
          validateStreamName name = none ∧ Answered s name (after t) false) ∧
      (validateStreamName name = none → Near s s.last →
        Answered s name (atOrAfter t) true ∧ Answered s name (after t) false) := by
  refine ⟨?_, ?_, fun hname hnear => ?_⟩
  · rw [← vacant_atOrAfter_iff]
    exact bisect_complete_iff name true (splits_atOrAfter s t)
  · rw [← vacant_after_iff]
    exact bisect_complete_iff name false (splits_after s t)
  · exact ⟨answered_of_near hname _ _ hnear, answered_of_near hname _ _ hnear⟩

-- The first of 300 messages is retained.
def headOnly : Stream where
  first := 1
  last := 300
  time seq := if seq = 1 then some 0 else none
  one_le_first := Nat.one_pos
  first_le_last := by decide
  last_lt := by decide
  retained := by grind
  monotone := tailless.monotone

-- It is the answer to both searches, and both end in an error.
theorem find_misses_behind_tail :
    headOnly.time 1 = some 0 ∧
      findFirstSeqAtOrAfter headOnly.server "S" 0 1 =
        some (.error (.sentinel .errMsgNotFound)) ∧
      findLastSeqAtOrBefore headOnly.server "S" 0 1 =
        some (.error (.sentinel .errMsgNotFound)) := by
  have hname : validateStreamName "S" = none := by decide
  have hfar : ¬ Near headOnly (start headOnly).mid := by
    rintro ⟨k, t, hk, hlt⟩
    simp only [headOnly, Option.ite_none_right_eq_some] at hk
    rw [hk.1] at hlt
    exact absurd hlt (by decide)
  have hprobe := probe_of_not_near hname (by decide) (by decide) hfar
  have hle : (start headOnly).lo ≤ (start headOnly).hi := by decide
  refine ⟨rfl, ?_, ?_⟩
  · rw [findFirstSeqAtOrAfter, bisect_server headOnly hname]
    simp only [iterate, bisectStep, if_pos hle, hprobe]
    rfl
  · rw [findLastSeqAtOrBefore, bisect_server headOnly hname]
    simp only [iterate, bisectStep, if_pos hle, hprobe]
    rfl

end NatsClient.Replay
