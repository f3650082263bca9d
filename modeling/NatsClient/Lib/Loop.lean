import Mathlib.Data.Sum.Basic

namespace Lib.Loop

variable {σ ρ : Type*}

-- Takes at most the given number of turns of a loop. A turn ends in a new state or
-- in the result of the loop.
def iterate (step : σ → σ ⊕ ρ) : Nat → σ → σ ⊕ ρ
  | 0, s => .inl s
  | turns + 1, s =>
    match step s with
    | .inl next => iterate step turns next
    | .inr result => .inr result

def Halts (step : σ → σ ⊕ ρ) (s : σ) : Prop := ∃ turns result, iterate step turns s = .inr result

def Visits (step : σ → σ ⊕ ρ) (s t : σ) : Prop := ∃ turns, iterate step turns s = .inl t

variable {step : σ → σ ⊕ ρ} {s t next : σ}

theorem iterate_succ_of_inl (h : step s = .inl next) (turns : Nat) :
    iterate step (turns + 1) s = iterate step turns next := by
  simp [iterate, h]

theorem iterate_succ_of_inr {result : ρ} (h : step s = .inr result) (turns : Nat) :
    iterate step (turns + 1) s = .inr result := by
  simp [iterate, h]

-- The turns of a loop, cut in two.
theorem iterate_add (first second : Nat) (s : σ) :
    iterate step (first + second) s = (iterate step first s).elim (iterate step second) .inr := by
  induction first generalizing s with
  | zero => simp [iterate]
  | succ first ih =>
    rw [Nat.succ_add]
    simp only [iterate]
    cases step s with
    | inl next => exact ih next
    | inr result => rfl

-- One more turn behind a state that was reached.
theorem iterate_succ_of_reached {turns : Nat} (h : iterate step turns s = .inl t) :
    iterate step (turns + 1) s = step t := by
  rw [iterate_add, h, Sum.elim_inl]
  simp only [iterate]
  cases step t <;> rfl

-- More turns do not change a result.
theorem iterate_mono {few many : Nat} {result : ρ} (h : iterate step few s = .inr result)
    (hle : few ≤ many) : iterate step many s = .inr result := by
  obtain ⟨more, rfl⟩ := Nat.exists_eq_add_of_le hle
  rw [iterate_add, h, Sum.elim_inr]

theorem halts_of_inr {result : ρ} (h : step s = .inr result) : Halts step s :=
  ⟨1, result, by simp [iterate, h]⟩

theorem halts_iff_of_inl (h : step s = .inl next) : Halts step s ↔ Halts step next := by
  constructor
  · rintro ⟨turns, result, hr⟩
    cases turns with
    | zero => cases hr
    | succ turns => exact ⟨turns, result, by rwa [iterate_succ_of_inl h] at hr⟩
  · rintro ⟨turns, result, hr⟩
    exact ⟨turns + 1, result, by rwa [iterate_succ_of_inl h]⟩

theorem Visits.refl (s : σ) : Visits step s s := ⟨0, rfl⟩

theorem Visits.head (h : step s = .inl next) (hv : Visits step next t) : Visits step s t := by
  obtain ⟨turns, ht⟩ := hv
  exact ⟨turns + 1, by rwa [iterate_succ_of_inl h]⟩

-- Induction over the states a loop visits.
theorem Visits.invariant {P : σ → Prop} (hstep : ∀ s t, P s → step s = .inl t → P t)
    (hv : Visits step s t) (hs : P s) : P t ∧ (Halts step s ↔ Halts step t) := by
  obtain ⟨turns, ht⟩ := hv
  induction turns generalizing s with
  | zero =>
    cases ht
    exact ⟨hs, Iff.rfl⟩
  | succ turns ih =>
    cases hst : step s with
    | inr result => simp [iterate, hst] at ht
    | inl next =>
      rw [iterate_succ_of_inl hst] at ht
      obtain ⟨hp, hiff⟩ := ih (hstep s next hs hst) ht
      exact ⟨hp, (halts_iff_of_inl hst).trans hiff⟩

-- A state that a loop visits decides its result.
theorem exists_iterate_of_visits {result : ρ} (hv : Visits step s t) (h : step t = .inr result) :
    ∃ turns, iterate step turns s = .inr result := by
  obtain ⟨turns, ht⟩ := hv
  exact ⟨turns + 1, (iterate_succ_of_reached ht).trans h⟩

-- What is in force when a loop takes its last turn.
theorem exists_last_of_iterate {P : σ → Prop} (hstep : ∀ s t, P s → step s = .inl t → P t)
    {turns : Nat} {result : ρ} (h : iterate step turns s = .inr result) (hs : P s) :
    ∃ t, Visits step s t ∧ P t ∧ step t = .inr result := by
  induction turns generalizing s with
  | zero => cases h
  | succ turns ih =>
    cases hst : step s with
    | inr last =>
      simp only [iterate, hst] at h
      cases h
      exact ⟨s, .refl s, hs, hst⟩
    | inl next =>
      rw [iterate_succ_of_inl hst] at h
      obtain ⟨t, hv, hp, ht⟩ := ih h (hstep s next hs hst)
      exact ⟨t, hv.head hst, hp, ht⟩

-- What holds in every state of a loop decides what its result is.
theorem iterate_inr {P : σ → Prop} {Q : ρ → Prop} (hstep : ∀ s t, P s → step s = .inl t → P t)
    (hresult : ∀ s result, P s → step s = .inr result → Q result) {turns : Nat} {result : ρ}
    (h : iterate step turns s = .inr result) (hs : P s) : Q result := by
  obtain ⟨t, -, hp, ht⟩ := exists_last_of_iterate hstep h hs
  exact hresult t result hp ht

-- Two loops with the same states whose results differ by a function.
theorem iterate_map {ρ' : Type*} {other : σ → σ ⊕ ρ'} {f : ρ → ρ'}
    (hstep : ∀ s, other s = (step s).map id f) (turns : Nat) (s : σ) :
    iterate other turns s = (iterate step turns s).map id f := by
  induction turns generalizing s with
  | zero => rfl
  | succ turns ih =>
    cases hst : step s with
    | inl next =>
      rw [iterate_succ_of_inl hst, iterate_succ_of_inl (by rw [hstep, hst]; rfl)]
      exact ih next
    | inr result => simp [iterate, hstep, hst]

-- A loop that enters a fixed state has no result.
theorem getRight?_iterate_of_fixed (next : σ) (hfirst : step s = .inl next)
    (hfixed : step next = .inl next) (turns : Nat) : (iterate step turns s).getRight? = none := by
  cases turns with
  | zero => rfl
  | succ turns =>
    rw [iterate_succ_of_inl hfirst]
    induction turns with
    | zero => rfl
    | succ turns ih => rwa [iterate_succ_of_inl hfixed]

section Measured

variable {P stuck : σ → Prop} {m : σ → Nat}

theorem not_halts_of_stuck (hstep : ∀ s t, P s → step s = .inl t → P t)
    (hstuck : ∀ s, P s → stuck s → ∃ t, step s = .inl t ∧ stuck t) (hs : P s) (hk : stuck s) :
    ¬ Halts step s := by
  rintro ⟨turns, result, hr⟩
  induction turns generalizing s with
  | zero => cases hr
  | succ turns ih =>
    obtain ⟨next, hn, hk⟩ := hstuck s hs hk
    rw [iterate_succ_of_inl hn] at hr
    exact ih (hstep s next hs hn) hk hr

-- A loop in which every turn decreases the measure, except in states that it
-- never leaves, halts exactly if it visits no such state.
theorem halts_iff_not_stuck (hstep : ∀ s t, P s → step s = .inl t → P t)
    (hdec : ∀ s t, P s → ¬ stuck s → step s = .inl t → m t < m s)
    (hstuck : ∀ s, P s → stuck s → ∃ t, step s = .inl t ∧ stuck t) (hs : P s) :
    Halts step s ↔ ∀ t, Visits step s t → ¬ stuck t := by
  constructor
  · intro hh t hv hk
    obtain ⟨hp, hiff⟩ := hv.invariant hstep hs
    exact not_halts_of_stuck hstep hstuck hp hk (hiff.mp hh)
  · intro hfree
    induction hm : m s using Nat.strongRecOn generalizing s with
    | _ size ih =>
      cases hst : step s with
      | inr result => exact halts_of_inr hst
      | inl next =>
        have hlt := hdec s next hs (hfree s (.refl s)) hst
        refine (halts_iff_of_inl hst).mpr (ih _ (hm ▸ hlt) (hstep s next hs hst) ?_ rfl)
        exact fun t hv => hfree t (hv.head hst)

end Measured

end Lib.Loop
