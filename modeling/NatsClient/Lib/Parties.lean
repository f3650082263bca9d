import Mathlib.Algebra.BigOperators.Pi
import Mathlib.Algebra.Order.BigOperators.Group.Finset

namespace Lib.Parties

section Update

variable {ι β : Type*} [DecidableEq ι] {g : ι → β} {i j : ι} {b c : β}

-- What a party does after one of them has moved.
theorem of_update {P : β → Prop} (h : P (Function.update g i b j)) :
    (j = i ∧ P b) ∨ (j ≠ i ∧ P (g j)) := by
  by_cases hj : j = i
  · subst hj
    rw [Function.update_self] at h
    exact .inl ⟨rfl, h⟩
  · rw [Function.update_of_ne hj] at h
    exact .inr ⟨hj, h⟩

theorem update_cases (h : Function.update g i b j = c) :
    (j = i ∧ b = c) ∨ (j ≠ i ∧ g j = c) :=
  of_update (P := (· = c)) h

end Update

open Finset

variable {ι β : Type*} [Fintype ι] [DecidableEq ι]

-- What a total over some parties gains and loses when one of them moves.
omit [Fintype ι] in
theorem sum_update_mem (parties : Finset ι) (f : ι → β → Nat) (g : ι → β) {i : ι}
    (hi : i ∈ parties) (b : β) :
    (∑ j ∈ parties, f j (Function.update g i b j)) + f i (g i) =
      (∑ j ∈ parties, f j (g j)) + f i b := by
  have hfun : (fun j => f j (Function.update g i b j)) =
      Function.update (fun j => f j (g j)) i (f i b) :=
    funext fun j => Function.apply_update f g i b j
  have hrest := sum_eq_add_sum_sdiff_singleton_of_mem hi fun j => f j (g j)
  rw [hfun, sum_update_of_mem hi]
  omega

theorem sum_update (f : ι → β → Nat) (g : ι → β) (i : ι) (b : β) :
    (∑ j, f j (Function.update g i b j)) + f i (g i) = (∑ j, f j (g j)) + f i b :=
  sum_update_mem univ f g (mem_univ i) b

omit [DecidableEq ι] in
theorem le_sum (f : ι → Nat) (i : ι) : f i ≤ ∑ j, f j :=
  single_le_sum (fun _ _ => Nat.zero_le _) (mem_univ i)

omit [DecidableEq ι] in
theorem add_le_sum (f : ι → Nat) {i j : ι} (hne : i ≠ j) : f i + f j ≤ ∑ k, f k := by
  classical
  rw [← sum_pair hne]
  exact sum_le_sum_of_subset (subset_univ _)

end Lib.Parties
