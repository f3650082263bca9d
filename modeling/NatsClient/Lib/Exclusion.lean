import Mathlib.Logic.Function.Basic

namespace Lib.Exclusion

-- How one party can change a mutex and its own hold on it.
inductive Turn : Bool → Bool → Bool → Bool → Prop
  | kept {locked holds : Bool} : Turn locked holds locked holds
  | took : Turn false false true true
  | gave {locked : Bool} : Turn locked true false false

-- At most one party holds the mutex, and only while it is locked.
structure Exclusive {ι : Type*} (locked : Bool) (holds : ι → Bool) : Prop where
  locked : ∀ i, holds i = true → locked = true
  unique : ∀ i j, holds i = true → holds j = true → i = j

variable {ι : Type*} {locked locked' : Bool} {holds holds' : ι → Bool} {i : ι}

theorem Exclusive.turn (hs : Exclusive locked holds) (hothers : ∀ j, j ≠ i → holds' j = holds j)
    (h : Turn locked (holds i) locked' (holds' i)) : Exclusive locked' holds' := by
  generalize hbefore : holds i = before at h
  generalize hafter : holds' i = after at h
  cases h with
  | kept =>
    have hsame (j : ι) : holds' j = holds j := by
      by_cases hj : j = i
      · rw [hj, hafter, hbefore]
      · exact hothers j hj
    constructor
    · intro j hj
      exact hs.locked j (hsame j ▸ hj)
    · intro j k hj hk
      exact hs.unique j k (hsame j ▸ hj) (hsame k ▸ hk)
  | took =>
    -- nobody held it before
    have honly (j : ι) (hj : holds' j = true) : j = i := by
      by_contra hne
      rw [hothers j hne] at hj
      cases hs.locked j hj
    exact ⟨fun _ _ => rfl, fun j k hj hk => (honly j hj).trans (honly k hk).symm⟩
  | gave =>
    -- nobody else held it
    have hnone (j : ι) : holds' j ≠ true := by
      intro hj
      by_cases hne : j = i
      · rw [hne, hafter] at hj
        cases hj
      · exact hne (hs.unique j i (hothers j hne ▸ hj) hbefore)
    exact ⟨fun j hj => absurd hj (hnone j), fun j _ hj => absurd hj (hnone j)⟩

end Lib.Exclusion
