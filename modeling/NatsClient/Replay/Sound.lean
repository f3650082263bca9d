import Mathlib.Order.Bounds.Basic
import NatsClient.Replay.Theorems

namespace NatsClient.Replay

open Lib.Loop

variable {s : Stream} {name : String} {left : RawStreamMsg → Bool} {keepLeft : Bool}
  {w next : Window} {msg : RawStreamMsg}

-- The messages to the left of the searched place come first.
def Splits (s : Stream) (left : RawStreamMsg → Bool) : Prop :=
  ∀ i j ti tj, i ≤ j → s.time i = some ti → s.time j = some tj → left ⟨i, ti⟩ = true →
    left ⟨j, tj⟩ = true

theorem splits_atOrAfter (s : Stream) (t : Int) : Splits s (atOrAfter t) := by
  intro i j ti tj hij hi hj hleft
  have hmono := s.monotone i j ti tj hij hi hj
  simp only [atOrAfter, Bool.not_eq_true', decide_eq_false_iff_not] at hleft ⊢
  omega

theorem splits_after (s : Stream) (t : Int) : Splits s (after t) := by
  intro i j ti tj hij hi hj hleft
  have hmono := s.monotone i j ti tj hij hi hj
  simp only [after, decide_eq_true_eq] at hleft ⊢
  omega

-- The message of the kept side that is next to the place where the sides meet.
structure Nearest (s : Stream) (left : RawStreamMsg → Bool) (keepLeft : Bool) (seq : Nat) :
    Prop where
  retained : ∃ t, s.time seq = some t ∧ left ⟨seq, t⟩ = keepLeft
  nearest : ∀ k t, s.time k = some t → left ⟨k, t⟩ = keepLeft →
    if keepLeft then seq ≤ k else k ≤ seq

-- The window holds everything that is undecided, and what was recorded last stands right
-- behind the bound of its side.
structure Pinned (s : Stream) (left : RawStreamMsg → Bool) (keepLeft : Bool) (w : Window) :
    Prop where
  bracket : Bracket s left w
  below : ∀ k t, k < w.lo → s.time k = some t → left ⟨k, t⟩ = false
  above : ∀ k t, w.hi < k → s.time k = some t → left ⟨k, t⟩ = true
  found : w.found ≠ 0 → (∃ t, s.time w.found = some t ∧ left ⟨w.found, t⟩ = keepLeft) ∧
    if keepLeft then w.found = w.hi + 1 else w.found + 1 = w.lo

theorem pinned_start (s : Stream) (left : RawStreamMsg → Bool) (keepLeft : Bool) :
    Pinned s left keepLeft (start s) where
  bracket := bracket_start s left
  below k t hk ht := absurd (s.retained k t ht).1 (Nat.not_le.mpr hk)
  above k t hk ht := absurd (s.retained k t ht).2 (Nat.not_le.mpr hk)
  found h := absurd rfl h

theorem bisectStep_found (hprobe : probe s name w.mid = some (.ok msg)) (hle : w.lo ≤ w.hi)
    (h : bisectStep (probe s name) s.first left keepLeft w = .inl next) :
    next.found = if left msg = keepLeft then msg.sequence else w.found := by
  simp only [bisectStep, if_pos hle, hprobe] at h
  generalize (if left msg = keepLeft then msg.sequence else w.found) = found at h ⊢
  split_ifs at h <;> cases h <;> rfl

theorem Pinned.step (hname : validateStreamName name = none) (hsplits : Splits s left)
    (hp : Pinned s left keepLeft w)
    (h : bisectStep (probe s name) s.first left keepLeft w = .inl next) :
    Pinned s left keepLeft next := by
  obtain ⟨msg, hle, hprobe, hm, hcase⟩ := bisectStep_inl hname hp.bracket h
  have hfound := bisectStep_found hprobe hle h
  have hbracket := hp.bracket.step hname h
  obtain ⟨hleft, hlo, hhi, -⟩ | ⟨hleft, hlo, hhi⟩ := hcase
  · refine ⟨hbracket, hlo ▸ hp.below, fun k t hk ht => ?_, fun hne => ?_⟩
    · exact hsplits msg.sequence k msg.time t (by omega) hm ht hleft
    · cases keepLeft with
      | true =>
        rw [if_pos hleft] at hfound
        rw [hfound, if_pos rfl]
        exact ⟨⟨msg.time, hm, hleft⟩, hhi.symm⟩
      | false =>
        rw [if_neg (by simp [hleft])] at hfound
        rw [hfound] at hne ⊢
        obtain ⟨hkept, hside⟩ := hp.found hne
        rw [if_neg (by decide)] at hside ⊢
        exact ⟨hkept, hside.trans hlo.symm⟩
  · refine ⟨hbracket, fun k t hk ht => ?_, hhi ▸ hp.above, fun hne => ?_⟩
    · by_contra hright
      have hmore := hsplits k msg.sequence t msg.time (by omega) ht hm (by simpa using hright)
      rw [hleft] at hmore
      cases hmore
    · cases keepLeft with
      | true =>
        rw [if_neg (by simp [hleft])] at hfound
        rw [hfound] at hne ⊢
        obtain ⟨hkept, hside⟩ := hp.found hne
        rw [if_pos rfl] at hside ⊢
        exact ⟨hkept, hside.trans (by rw [hhi])⟩
      | false =>
        rw [if_pos hleft] at hfound
        rw [hfound, if_neg (by decide)]
        exact ⟨⟨msg.time, hm, hleft⟩, hlo.symm⟩

theorem eq_of_answer {found seq : Nat} (h : Window.answer found = .ok seq) :
    found ≠ 0 ∧ found = seq := by
  unfold Window.answer at h
  split_ifs at h with hzero
  cases h
  exact ⟨hzero, rfl⟩

-- The bounds have met.
theorem Pinned.closed (hp : Pinned s left keepLeft w) (hlt : w.hi < w.lo) (hne : w.found ≠ 0) :
    Nearest s left keepLeft w.found := by
  obtain ⟨hkept, hside⟩ := hp.found hne
  refine ⟨hkept, fun k t ht hleft => ?_⟩
  cases keepLeft with
  | true =>
    rw [if_pos rfl] at hside ⊢
    by_contra hk
    rw [hp.below k t (by omega) ht] at hleft
    cases hleft
  | false =>
    rw [if_neg (by decide)] at hside ⊢
    by_contra hk
    rw [hp.above k t (by omega) ht] at hleft
    cases hleft

-- A message of the left side at the start of the stream leaves nothing on the other side.
theorem Pinned.atStart (hsplits : Splits s left) (hp : Pinned s left keepLeft w)
    (hm : s.time msg.sequence = some msg.time) (hleft : left msg = true)
    (hfirst : msg.sequence ≤ s.first)
    (hne : (if left msg = keepLeft then msg.sequence else w.found) ≠ 0) :
    Nearest s left keepLeft (if left msg = keepLeft then msg.sequence else w.found) := by
  cases keepLeft with
  | true =>
    rw [if_pos hleft]
    refine ⟨⟨msg.time, hm, hleft⟩, fun k t ht _ => ?_⟩
    rw [if_pos rfl]
    exact hfirst.trans (s.retained k t ht).1
  | false =>
    rw [if_neg (by simp [hleft])] at hne
    obtain ⟨⟨t, ht, hright⟩, -⟩ := hp.found hne
    have hle := hfirst.trans (s.retained _ t ht).1
    rw [hsplits msg.sequence w.found msg.time t hle hm ht hleft] at hright
    cases hright

theorem Pinned.result (hname : validateStreamName name = none) (hsplits : Splits s left)
    (hp : Pinned s left keepLeft w) {result : Except GoError Nat}
    (h : bisectStep (probe s name) s.first left keepLeft w = .inr result) :
    ∀ seq, result = .ok seq → Nearest s left keepLeft seq := by
  rintro seq rfl
  unfold bisectStep at h
  split_ifs at h with hle
  · obtain ⟨hf, hl, -, -⟩ := hp.bracket.mid_bounds hle
    obtain ⟨answer, hr, hspec⟩ := getExistingAtOrNear_server hname hf hl
    rw [show probe s name w.mid = some answer from hr] at h
    cases answer with
    | error e => cases h
    | ok msg =>
      obtain ⟨hm, -⟩ := hspec msg rfl
      have hone := s.one_le_first
      have hin := s.retained _ _ hm
      simp only at h
      generalize hfound : (if left msg = keepLeft then msg.sequence else w.found) = found at h
      split_ifs at h with hleft hstop
      obtain ⟨hne, rfl⟩ := eq_of_answer (Sum.inr.inj h)
      subst hfound
      exact hp.atStart hsplits hm hleft (by omega) hne
  · obtain ⟨hne, rfl⟩ := eq_of_answer (Sum.inr.inj h)
    exact hp.closed (by omega) hne

theorem bisect_nearest (hsplits : Splits s left) {turns seq : Nat}
    (h : bisect s.server name left keepLeft turns = some (.ok seq)) :
    Nearest s left keepLeft seq := by
  cases hname : validateStreamName name with
  | some e =>
    simp only [bisect, hname] at h
    cases h
  | none =>
    rw [bisect_server s hname, Sum.getRight?_eq_some_iff] at h
    exact iterate_inr (P := Pinned s left keepLeft)
      (Q := fun result => ∀ seq, result = .ok seq → Nearest s left keepLeft seq)
      (fun _ _ hp hstep => hp.step hname hsplits hstep)
      (fun _ _ hp hstep => hp.result hname hsplits hstep) h (pinned_start s left keepLeft) seq rfl

theorem Nearest.isLeast {t : Int} {seq : Nat} (h : Nearest s (atOrAfter t) true seq) :
    IsLeast {k | ∃ tk, s.time k = some tk ∧ t ≤ tk} seq := by
  obtain ⟨⟨tk, htime, hkept⟩, hnearest⟩ := h
  simp only [atOrAfter, Bool.not_eq_true', decide_eq_false_iff_not, Int.not_lt, if_true]
    at hkept hnearest
  exact ⟨⟨tk, htime, hkept⟩, fun k ⟨tk', htk, hle⟩ => hnearest k tk' htk hle⟩

theorem Nearest.isGreatest {t : Int} {seq : Nat} (h : Nearest s (after t) false seq) :
    IsGreatest {k | ∃ tk, s.time k = some tk ∧ tk ≤ t} seq := by
  obtain ⟨⟨tk, htime, hkept⟩, hnearest⟩ := h
  simp only [after, decide_eq_false_iff_not, Int.not_lt, Bool.false_eq_true, if_false]
    at hkept hnearest
  exact ⟨⟨tk, htime, hkept⟩, fun k ⟨tk', htk, hle⟩ => hnearest k tk' htk hle⟩

-- A sequence that a search returns is the right one, whichever messages were deleted.
theorem find_sound (s : Stream) (name : String) (t : Int) (turns seq : Nat) :
    (findFirstSeqAtOrAfter s.server name t turns = some (.ok seq) →
        IsLeast {k | ∃ tk, s.time k = some tk ∧ t ≤ tk} seq) ∧
      (findLastSeqAtOrBefore s.server name t turns = some (.ok seq) →
        IsGreatest {k | ∃ tk, s.time k = some tk ∧ tk ≤ t} seq) := by
  exact ⟨fun h => (bisect_nearest (splits_atOrAfter s t) h).isLeast,
    fun h => (bisect_nearest (splits_after s t) h).isGreatest⟩

-- Sequences 3 and 4 are deleted, and the first probe of both searches asks for 3.
def sparse : Stream where
  first := 1
  last := 5
  time seq := if seq = 1 then some 10 else if seq = 2 then some 20 else
    if seq = 5 then some 50 else none
  one_le_first := Nat.one_pos
  first_le_last := by decide
  last_lt := by decide
  retained := by grind
  monotone := by grind

theorem find_sound_sparse :
    findFirstSeqAtOrAfter sparse.server "S" 15 4 = some (.ok 2) ∧
      IsLeast {k | ∃ tk, sparse.time k = some tk ∧ 15 ≤ tk} 2 ∧
      findLastSeqAtOrBefore sparse.server "S" 15 4 = some (.ok 1) ∧
      IsGreatest {k | ∃ tk, sparse.time k = some tk ∧ tk ≤ 15} 1 :=
  ⟨rfl, (find_sound sparse "S" 15 4 2).1 rfl, rfl, (find_sound sparse "S" 15 4 1).2 rfl⟩

end NatsClient.Replay
