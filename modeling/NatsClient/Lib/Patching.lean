import Mathlib.Data.List.Basic

namespace Lib.Patching

variable {σ β : Type*}

-- A change to a record that is made where it is needed.
structure Patch (σ : Type*) where
  needed : σ → Bool
  apply : σ → σ

-- The record, and whether it was changed.
def Patch.step (s : σ × Bool) (p : Patch σ) : σ × Bool :=
  if p.needed s.1 then (p.apply s.1, true) else s

def run (patches : List (Patch σ)) (s : σ × Bool) : σ × Bool := patches.foldl Patch.step s

def Settled (patches : List (Patch σ)) (s : σ) : Prop := ∀ p ∈ patches, p.needed s = false

-- No patch is needed once it was applied, and a later one does not undo it.
structure Compatible (patches : List (Patch σ)) : Prop where
  settles : ∀ p ∈ patches, ∀ s, p.needed s = true → p.needed (p.apply s) = false
  apart : patches.Pairwise fun p q => ∀ s, p.needed s = false → p.needed (q.apply s) = false

variable {patches : List (Patch σ)}

theorem run_cons (p : Patch σ) (patches : List (Patch σ)) (s : σ × Bool) :
    run (p :: patches) s = run patches (Patch.step s p) := rfl

theorem run_append (first second : List (Patch σ)) (s : σ × Bool) :
    run (first ++ second) s = run second (run first s) := List.foldl_append

-- The invariant rule: every patch that is needed keeps the property.
theorem run_invariant {P : σ → Prop}
    (h : ∀ p ∈ patches, ∀ s, P s → p.needed s = true → P (p.apply s)) (s : σ × Bool)
    (hs : P s.1) : P (run patches s).1 := by
  induction patches generalizing s with
  | nil => exact hs
  | cons p patches ih =>
    refine ih (fun q hq => h q (List.mem_cons_of_mem _ hq)) _ ?_
    unfold Patch.step
    split_ifs with hneeded
    · exact h p List.mem_cons_self s.1 hs hneeded
    · exact hs

-- What no patch changes stays.
theorem run_frame (f : σ → β) (h : ∀ p ∈ patches, ∀ s, p.needed s = true → f (p.apply s) = f s)
    (s : σ × Bool) : f (run patches s).1 = f s.1 :=
  run_invariant (P := fun t => f t = f s.1)
    (fun p hp t ht hneeded => (h p hp t hneeded).trans ht) s rfl

theorem run_of_settled (s : σ × Bool) (h : Settled patches s.1) : run patches s = s := by
  induction patches generalizing s with
  | nil => rfl
  | cons p patches ih =>
    have hstep : Patch.step s p = s := by simp [Patch.step, h p List.mem_cons_self]
    rw [run_cons, hstep, ih s fun q hq => h q (List.mem_cons_of_mem _ hq)]

-- A run that changes nothing leaves the record.
theorem run_eq_of_unchanged (s : σ × Bool) (h : (run patches s).2 = false) :
    run patches s = s := by
  induction patches generalizing s with
  | nil => rfl
  | cons p patches ih =>
    rw [run_cons] at h ⊢
    have hrest := ih _ h
    rw [hrest] at h ⊢
    unfold Patch.step at h ⊢
    split_ifs with hneeded
    · simp [hneeded] at h
    · rfl

theorem step_needed {p : Patch σ} (hp : ∀ s, p.needed s = true → p.needed (p.apply s) = false)
    (s : σ × Bool) : p.needed (Patch.step s p).1 = false := by
  unfold Patch.step
  split_ifs with hneeded
  · exact hp s.1 hneeded
  · simpa using hneeded

theorem settled_run (h : Compatible patches) (s : σ × Bool) :
    Settled patches (run patches s).1 := by
  induction patches generalizing s with
  | nil => simp [Settled]
  | cons p patches ih =>
    obtain ⟨hp, hpatches⟩ := List.pairwise_cons.mp h.apart
    have hrest : Compatible patches :=
      ⟨fun q hq => h.settles q (List.mem_cons_of_mem _ hq), hpatches⟩
    intro q hq
    rcases List.mem_cons.mp hq with rfl | hq
    · -- the rest of the run keeps what the first patch has settled
      exact run_invariant (fun r hr t ht _ => hp r hr t ht) _
        (step_needed (h.settles q List.mem_cons_self) s)
    · exact ih hrest _ q hq

end Lib.Patching
