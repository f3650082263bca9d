import NatsClient.Lib.Machine
import Mathlib.Order.MinMax

namespace Lib.Fairness

open Lib.Machine

variable {σ α ι : Type*}

-- An infinite run. A moment without an action leaves the state as it is.
structure Run (step : σ → α → Option σ) where
  state : Nat → σ
  act : Nat → Option α
  next : ∀ n, (act n).elim (some (state n)) (step (state n)) = some (state (n + 1))

-- The thread i can take a step.
def Enabled (step : σ → α → Option σ) (moves : α → ι → Prop) (s : σ) (i : ι) : Prop :=
  ∃ a t, moves a i ∧ step s a = some t

variable {step : σ → α → Option σ} {moves : α → ι → Prop}

-- A thread that can take a step again and again does take one.
def Run.Fair (run : Run step) (moves : α → ι → Prop) : Prop :=
  ∀ i, (∀ n, ∃ m ≥ n, Enabled step moves (run.state m) i) →
    ∀ n, ∃ m ≥ n, ∃ a, run.act m = some a ∧ moves a i

theorem Run.next_of_act (run : Run step) {n : Nat} {a : α} (h : run.act n = some a) :
    step (run.state n) a = some (run.state (n + 1)) := by
  have hn := run.next n
  rwa [h] at hn

theorem Run.invariant (run : Run step) {P : σ → Prop}
    (hstep : ∀ s a t, P s → step s a = some t → P t) (h : P (run.state 0)) (n : Nat) :
    P (run.state n) := by
  induction n with
  | zero => exact h
  | succ n ih =>
    have hn := run.next n
    cases ha : run.act n with
    | none =>
      rw [ha] at hn
      rwa [← Option.some.inj hn]
    | some a => exact hstep _ a _ ih (run.next_of_act ha)

-- A thread moves at last from where the others leave it, if it stays possible there.
theorem Run.Fair.exists_move {run : Run step} (hfair : run.Fair moves) {i : ι} {Q : σ → Prop}
    {n : Nat} (hn : Q (run.state n))
    (hkeep : ∀ m a t, Q (run.state m) → ¬ moves a i → step (run.state m) a = some t → Q t)
    (henabled : (∀ m ≥ n, Q (run.state m)) →
      ∀ m ≥ n, ∃ k ≥ m, Enabled step moves (run.state k) i) :
    ∃ m ≥ n, Q (run.state m) ∧ ∃ a, moves a i ∧ step (run.state m) a = some (run.state (m + 1)) := by
  by_contra hnot
  have hstill (m : Nat) (hm : Q (run.state m)) (hle : n ≤ m) (a : α) (ha : run.act m = some a) :
      ¬ moves a i :=
    fun hmoves => hnot ⟨m, hle, hm, a, hmoves, run.next_of_act ha⟩
  -- the thread never moves, so the others leave it where it is
  have hall (m : Nat) (hle : n ≤ m) : Q (run.state m) := by
    induction m, hle using Nat.le_induction with
    | base => exact hn
    | succ m hle ih =>
      have hm := run.next m
      cases ha : run.act m with
      | none =>
        rw [ha] at hm
        rwa [← Option.some.inj hm]
      | some a => exact hkeep m a _ ih (hstill m ih hle a ha) (run.next_of_act ha)
  obtain ⟨m, hle, a, ha, hmoves⟩ := hfair i (fun k => by
    obtain ⟨l, hl, he⟩ := henabled hall (max n k) (le_max_left _ _)
    exact ⟨l, (le_max_right _ _).trans hl, he⟩) n
  exact hstill m (hall m hle) hle a ha hmoves

section Finite

variable {s t : σ} {acts : List α}

theorem exec_take (h : exec step s acts = some t) {n : Nat} {a : α} (ha : acts[n]? = some a) :
    step (follow step s (acts.take n)) a = some (follow step s (acts.take (n + 1))) := by
  induction acts generalizing s n with
  | nil => cases ha
  | cons b rest ih =>
    obtain ⟨next, hnext, hrest⟩ := exec_cons_eq_some.mp h
    cases n with
    | zero =>
      cases ha
      simp [follow, hnext]
    | succ n =>
      simp only [List.take_succ_cons, follow_cons_of_some hnext]
      exact ih hrest (by simpa using ha)

-- A finite run, and then nothing.
def Run.ofExec (h : exec step s acts = some t) : Run step where
  state n := follow step s (acts.take n)
  act n := acts[n]?
  next n := by
    cases ha : acts[n]? with
    | none =>
      have hle : acts.length ≤ n := List.getElem?_eq_none_iff.mp ha
      simp [List.take_of_length_le hle, List.take_of_length_le (Nat.le_succ_of_le hle)]
    | some a => exact exec_take h ha

theorem follow_eq_of_exec (h : exec step s acts = some t) : follow step s acts = t := by
  induction acts generalizing s with
  | nil => simpa [exec, follow] using h
  | cons a rest ih =>
    obtain ⟨next, hnext, hrest⟩ := exec_cons_eq_some.mp h
    rw [follow_cons_of_some hnext]
    exact ih hrest

-- It is a fair one if no thread can move at its end.
theorem Run.ofExec_fair (h : exec step s acts = some t)
    (hend : ∀ i : ι, ¬ Enabled step moves t i) : (Run.ofExec h).Fair moves := by
  intro i henabled
  obtain ⟨m, hm, he⟩ := henabled acts.length
  have hstate : (Run.ofExec h).state m = t := by
    simp only [Run.ofExec, List.take_of_length_le hm]
    exact follow_eq_of_exec h
  rw [hstate] at he
  exact absurd he (hend i)

end Finite

end Lib.Fairness
