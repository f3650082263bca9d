import Mathlib.Algebra.Order.Ring.Int
import Mathlib.Data.List.Basic
import Mathlib.Tactic.SplitIfs
import NatsClient.Lib.Machine

namespace Lib.Backoff

open Lib.Machine

-- What a loop that backs off does that counts: it waits, or it starts over.
inductive Mark (δ : Type*)
  | wait (d : δ)
  | reset
  deriving DecidableEq, Repr

def Mark.delay? {δ : Type*} : Mark δ → Option δ
  | wait d => some d
  | reset => none

def waits {δ : Type*} (marks : List (Mark δ)) : List δ := marks.filterMap Mark.delay?

-- A loop whose nth wait since it started over is `delay n`, if there may be one. The state
-- is the number of these waits.
def pace {δ : Type*} [DecidableEq δ] (delay : Nat → δ) (may : Nat → Bool) (n : Nat) :
    Mark δ → Option Nat
  | .wait d => if may n ∧ d = delay n then some (n + 1) else none
  | .reset => some 0

-- The first n waits.
def firstWaits {δ : Type*} (delay : Nat → δ) (n : Nat) : List (Mark δ) :=
  (List.range n).map fun k => .wait (delay k)

section Pace

variable {δ : Type*} [DecidableEq δ] {delay : Nat → δ} {may : Nat → Bool} {n k : Nat}
  {marks : List (Mark δ)}

theorem pace_wait (hmay : may n = true) : pace delay may n (.wait (delay n)) = some (n + 1) :=
  if_pos ⟨hmay, rfl⟩

omit [DecidableEq δ] in
theorem firstWaits_succ (delay : Nat → δ) (n : Nat) :
    firstWaits delay (n + 1) = firstWaits delay n ++ [.wait (delay n)] := by
  simp [firstWaits, List.range_succ]

omit [DecidableEq δ] in
theorem waits_firstWaits (delay : Nat → δ) (n : Nat) :
    waits (firstWaits delay n) = (List.range n).map delay := by
  unfold waits firstWaits
  rw [List.filterMap_map]
  exact congrFun List.filterMap_eq_map' (List.range n)

theorem exec_wait (h : exec (pace delay may) n marks = some k) {d : δ}
    (hmem : .wait d ∈ marks) : ∃ j, may j = true ∧ d = delay j := by
  induction marks generalizing n with
  | nil => cases hmem
  | cons m marks ih =>
    obtain ⟨next, hm, hrest⟩ := exec_cons_eq_some.mp h
    rcases List.mem_cons.mp hmem with rfl | hmem
    · simp only [pace] at hm
      split_ifs at hm with hwait
      exact ⟨n, hwait⟩
    · exact ih hrest hmem

-- Without a reset the waits are those that come next.
theorem exec_stretch (h : exec (pace delay may) n marks = some k) (hreset : .reset ∉ marks) :
    k = n + marks.length ∧ waits marks = (List.range' n marks.length).map delay ∧
      ∀ j, n ≤ j → j < k → may j = true := by
  induction marks generalizing n with
  | nil =>
    cases h
    exact ⟨rfl, rfl, fun j hle hlt => absurd hle (Nat.not_le.mpr hlt)⟩
  | cons m marks ih =>
    obtain ⟨next, hm, hrest⟩ := exec_cons_eq_some.mp h
    obtain ⟨hne, hstill⟩ := not_or.mp fun hmem => hreset (List.mem_cons.mpr hmem)
    cases m with
    | reset => exact absurd rfl hne
    | wait d =>
      simp only [pace] at hm
      split_ifs at hm with hwait
      obtain ⟨hmay, rfl⟩ := hwait
      cases hm
      obtain ⟨rfl, hwaits, hall⟩ := ih hrest hstill
      refine ⟨by simp only [List.length_cons]; omega, ?_, ?_⟩
      · have hcons : waits (.wait (delay n) :: marks) = delay n :: waits marks := rfl
        rw [hcons, hwaits, List.length_cons, List.range'_succ, List.map_cons]
      · intro j hle hlt
        rcases Nat.eq_or_lt_of_le hle with rfl | hgt
        · exact hmay
        · exact hall j hgt hlt

end Pace

-- The waits are positive and within the cap, and do not decrease until the loop starts over.
structure Steady {δ : Type*} [Zero δ] [Preorder δ] (cap : δ) (marks : List (Mark δ)) : Prop where
  bounds : ∀ d, .wait d ∈ marks → 0 < d ∧ d ≤ cap
  rising : ∀ first stretch rest, marks = first ++ stretch ++ rest → .reset ∉ stretch →
    (waits stretch).Pairwise (· ≤ ·)

section Steady

variable {δ : Type*} [Zero δ] [Preorder δ] {delay : Nat → δ} {may : Nat → Bool} {cap : δ}

omit [Zero δ] in
theorem pairwise_range' {n len : Nat}
    (hle : ∀ j, n ≤ j → j + 1 < n + len → delay j ≤ delay (j + 1)) :
    ((List.range' n len).map delay).Pairwise (· ≤ ·) := by
  rw [← List.isChain_iff_pairwise, List.isChain_iff_getElem]
  intro i hi
  simp only [List.length_map, List.length_range'] at hi
  simp only [List.getElem_map, List.getElem_range', Nat.one_mul]
  exact hle (n + i) (by omega) (by omega)

-- A paced loop is steady where the delays it may come to are.
theorem steady_of_pace [DecidableEq δ] (hbounds : ∀ n, may n = true → 0 < delay n ∧ delay n ≤ cap)
    (hrising : ∀ n, may (n + 1) = true → delay n ≤ delay (n + 1)) {marks : List (Mark δ)} {k : Nat}
    (h : exec (pace delay may) 0 marks = some k) : Steady cap marks := by
  constructor
  · intro d hmem
    obtain ⟨j, hmay, rfl⟩ := exec_wait h hmem
    exact hbounds j hmay
  · rintro first stretch rest rfl hreset
    obtain ⟨second, hsecond, -⟩ := exec_append_eq_some.mp h
    obtain ⟨n, -, hstretch⟩ := exec_append_eq_some.mp hsecond
    obtain ⟨rfl, hwaits, hall⟩ := exec_stretch hstretch hreset
    rw [hwaits]
    exact pairwise_range' fun j hle hlt => hrising j (hall (j + 1) (by omega) hlt)

-- And the first waits of a steady loop say as much of its delays.
theorem Steady.delays {n : Nat} (h : Steady cap (firstWaits delay (n + 1))) :
    (0 < delay n ∧ delay n ≤ cap) ∧ ∀ k, k + 1 = n → delay k ≤ delay n := by
  constructor
  · refine h.bounds (delay n) ?_
    rw [firstWaits_succ]
    exact List.mem_append_right _ (List.mem_singleton_self _)
  · rintro k rfl
    have hreset : .reset ∉ firstWaits delay (k + 2) := by simp [firstWaits]
    have hpairs := h.rising [] _ [] (by simp) hreset
    rw [waits_firstWaits, List.range_succ, List.map_append, List.pairwise_append] at hpairs
    exact hpairs.2.2 _ (List.mem_map_of_mem (List.mem_range.mpr (Nat.lt_succ_self k))) _
      (List.mem_singleton_self _)

-- A loop that is paced, and that comes to each wait it may come to without starting over, is
-- steady in all its runs iff its delays are.
theorem forall_steady_iff [DecidableEq δ] {ρ : Type*} (run : ρ → Prop) (seen : ρ → List (Mark δ))
    (hpaced : ∀ r, run r → ∃ k, exec (pace delay may) 0 (seen r) = some k)
    (hfirst : ∀ n, may n = true → ∃ r, run r ∧ seen r = firstWaits delay (n + 1)) :
    (∀ r, run r → Steady cap (seen r)) ↔
      ∀ n, may n = true →
        (0 < delay n ∧ delay n ≤ cap) ∧ ∀ k, k + 1 = n → delay k ≤ delay n := by
  constructor
  · intro hsteady n hmay
    obtain ⟨r, hr, hseen⟩ := hfirst n hmay
    exact Steady.delays (hseen ▸ hsteady r hr)
  · intro hdelays r hr
    obtain ⟨k, hk⟩ := hpaced r hr
    refine steady_of_pace (fun n hmay => (hdelays n hmay).1) ?_ hk
    intro n hmay
    exact (hdelays (n + 1) hmay).2 n rfl

end Steady

-- The delays of a capped doubling, in unbounded integers.
def capped (initial cap : Int) (n : Nat) : Int := min (initial * 2 ^ n) cap

section Capped

variable {initial cap : Int} {n : Nat}

theorem capped_zero (h : initial ≤ cap) : capped initial cap 0 = initial := by
  simp [capped, h]

theorem capped_le (initial cap : Int) (n : Nat) : capped initial cap n ≤ cap := min_le_right ..

theorem capped_pos (hinitial : 0 < initial) (hcap : 0 < cap) (n : Nat) :
    0 < capped initial cap n :=
  lt_min (Int.mul_pos hinitial (Int.pow_pos (by decide))) hcap

theorem capped_succ (hcap : 0 ≤ cap) (n : Nat) :
    capped initial cap (n + 1) = min (capped initial cap n * 2) cap := by
  unfold capped
  rw [Int.pow_succ, ← Int.mul_assoc]
  omega

theorem capped_le_succ (hinitial : 0 < initial) (hcap : 0 < cap) (n : Nat) :
    capped initial cap n ≤ capped initial cap (n + 1) := by
  have hpos := capped_pos hinitial hcap n
  have hle := capped_le initial cap n
  rw [capped_succ hcap.le]
  omega

theorem capped_mono (hinitial : 0 < initial) (hcap : 0 < cap) {few many : Nat}
    (h : few ≤ many) : capped initial cap few ≤ capped initial cap many := by
  induction many, h using Nat.le_induction with
  | base => exact Int.le_refl _
  | succ n _ ih => exact Int.le_trans ih (capped_le_succ hinitial hcap n)

-- The first doubling of n + 1, done at once.
theorem capped_double (initial cap : Int) (n : Nat) :
    capped (initial * 2) cap n = capped initial cap (n + 1) := by
  unfold capped
  rw [Int.mul_assoc, Int.pow_succ, Int.mul_comm 2]

theorem capped_eq_cap (hinitial : 0 ≤ initial) (h : cap ≤ initial * 2) :
    capped initial cap (n + 1) = cap := by
  have hone : (1 : Int) ≤ 2 ^ n := Int.pow_pos (by decide)
  have hle : initial * 2 * 1 ≤ initial * 2 * 2 ^ n := Int.mul_le_mul_of_nonneg_left hone (by omega)
  rw [← capped_double, capped]
  omega

end Capped

end Lib.Backoff
