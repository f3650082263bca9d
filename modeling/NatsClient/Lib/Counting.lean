import Mathlib.Data.Finset.Card
import Mathlib.Logic.Function.Basic

namespace Lib.Counting

variable {α : Type*}

-- The counter is the number of the things that have the property.
def Counts (n : Int) (P : α → Prop) : Prop :=
  ∃ members : Finset α, (∀ a, a ∈ members ↔ P a) ∧ n = members.card

variable {n : Int} {P R : α → Prop}

theorem counts_zero (h : ∀ a, ¬ P a) : Counts 0 P :=
  ⟨∅, fun a => by simp [h a], rfl⟩

theorem Counts.congr (h : Counts n P) (hiff : ∀ a, R a ↔ P a) : Counts n R := by
  obtain ⟨members, hmem, hn⟩ := h
  exact ⟨members, fun a => (hmem a).trans (hiff a).symm, hn⟩

theorem Counts.eq_zero (h : Counts 0 P) (a : α) : ¬ P a := by
  obtain ⟨members, hmem, hn⟩ := h
  have hempty : members = ∅ := Finset.card_eq_zero.mp (by omega)
  rw [← hmem a, hempty]
  exact Finset.notMem_empty a

theorem Counts.nonneg (h : Counts n P) : 0 ≤ n := by
  obtain ⟨members, -, hn⟩ := h
  omega

theorem Counts.exists_of_ne_zero (h : Counts n P) (hne : n ≠ 0) : ∃ a, P a := by
  obtain ⟨members, hmem, hn⟩ := h
  have hsome : members.Nonempty := by
    rw [← Finset.card_ne_zero]
    omega
  obtain ⟨a, ha⟩ := hsome
  exact ⟨a, (hmem a).mp ha⟩

-- One more has it.
theorem Counts.add (h : Counts n P) {a : α} (ha : ¬ P a) (hiff : ∀ b, R b ↔ P b ∨ b = a) :
    Counts (n + 1) R := by
  classical
  obtain ⟨members, hmem, hn⟩ := h
  refine ⟨insert a members, fun b => ?_, ?_⟩
  · rw [Finset.mem_insert, hmem, hiff, or_comm]
  · rw [Finset.card_insert_of_notMem (fun hin => ha ((hmem a).mp hin)), hn]
    rfl

-- One of them loses it.
theorem Counts.remove (h : Counts n P) {a : α} (ha : P a) (hiff : ∀ b, R b ↔ P b ∧ b ≠ a) :
    Counts (n - 1) R := by
  classical
  obtain ⟨members, hmem, hn⟩ := h
  have hin : a ∈ members := (hmem a).mpr ha
  refine ⟨members.erase a, fun b => ?_, ?_⟩
  · rw [Finset.mem_erase, hmem, hiff, and_comm]
  · have hcard := Finset.card_erase_add_one hin
    omega

section Parties

variable {ι β : Type*} [DecidableEq ι] {g : ι → β} {i : ι} {b : β} {n' : Int}

-- The counter follows a party that moves, where each party counts at most once.
theorem Counts.update_at {f : ι → β → Nat} (h : Counts n fun j => f j (g j) = 1)
    (hf : ∀ j b, f j b ≤ 1) (hn : n' + f i (g i) = n + f i b) :
    Counts n' fun j => f j (Function.update g i b j) = 1 := by
  have hself : f i (Function.update g i b i) = f i b := by rw [Function.update_self]
  have hother (j : ι) (hj : j ≠ i) : f j (Function.update g i b j) = f j (g j) := by
    rw [Function.update_of_ne hj]
  have hold := hf i (g i)
  have hnew := hf i b
  by_cases hsame : f i b = f i (g i)
  · obtain rfl : n' = n := by omega
    refine h.congr fun j => ?_
    by_cases hj : j = i
    · rw [hj, hself, hsame]
    · rw [hother j hj]
  · by_cases hone : f i b = 1
    · obtain rfl : n' = n + 1 := by omega
      refine h.add (a := i) (by omega) fun j => ?_
      by_cases hj : j = i
      · rw [hj, hself]
        exact iff_of_true hone (.inr rfl)
      · rw [hother j hj, or_iff_left hj]
    · obtain rfl : n' = n - 1 := by omega
      refine h.remove (a := i) (by omega) fun j => ?_
      by_cases hj : j = i
      · rw [hj, hself]
        exact iff_of_false hone fun hnot => hnot.2 rfl
      · rw [hother j hj, and_iff_left hj]

theorem Counts.update {f : β → Nat} (h : Counts n fun j => f (g j) = 1) (hf : ∀ b, f b ≤ 1)
    (hn : n' + f (g i) = n + f b) : Counts n' fun j => f (Function.update g i b j) = 1 :=
  h.update_at (f := fun _ => f) (fun _ => hf) hn

-- No more of them than the counter says.
theorem Counts.card_le (h : Counts n P) (chosen : Finset α) (hchosen : ∀ a ∈ chosen, P a) :
    chosen.card ≤ n := by
  obtain ⟨members, hmem, hn⟩ := h
  have hsub : chosen ⊆ members := fun a ha => (hmem a).mpr (hchosen a ha)
  have hcard := Finset.card_le_card hsub
  omega

end Parties

end Lib.Counting
