import Mathlib.Data.List.Basic
import Mathlib.Tactic.SplitIfs
import NatsClient.Lib.Machine

namespace Lib.Budget

open Lib.Machine

-- What a supervisor does that counts: it finds its charge sound, it finds it broken and gives
-- up or does not, or it makes one more attempt.
inductive Mark
  | sound
  | broken (gaveUp : Bool)
  | attempt
  deriving DecidableEq, Repr

-- The attempts since the charge was last found sound.
structure Ledger where
  used : Nat
  live : Bool
  deriving DecidableEq, Repr

def Ledger.fresh : Ledger := ⟨0, true⟩

-- A budget of `limit` attempts. It is given up where the charge is broken and none is left.
def spend (limit : Nat) (b : Ledger) : Mark → Option Ledger
  | .sound => if b.live then some { b with used := 0 } else none
  | .broken gaveUp =>
    if b.live ∧ (gaveUp = true ↔ limit ≤ b.used) then some { b with live := !gaveUp } else none
  | .attempt => if b.live ∧ b.used < limit then some { b with used := b.used + 1 } else none

def Mark.count (n : Nat) : Mark → Nat
  | .sound => 0
  | .broken _ => n
  | .attempt => n + 1

def sinceSound (marks : List Mark) : Nat := marks.foldl Mark.count 0

variable {limit : Nat} {b next last : Ledger} {m : Mark} {marks : List Mark}

theorem spend_sound (limit : Nat) (hlive : b.live = true) :
    spend limit b .sound = some { b with used := 0 } := by
  simp [spend, hlive]

theorem spend_goOn (hlive : b.live = true) (hlt : b.used < limit) :
    spend limit b (.broken false) = some b := by
  cases b
  simp_all [spend]

theorem spend_giveUp (hlive : b.live = true) (hle : limit ≤ b.used) :
    spend limit b (.broken true) = some { b with live := false } := by
  simp [spend, hlive, hle]

theorem spend_attempt (hlive : b.live = true) (hlt : b.used < limit) :
    spend limit b .attempt = some { b with used := b.used + 1 } := by
  simp [spend, hlive, hlt]

theorem spend_live (h : spend limit b m = some next) : b.live = true := by
  cases m <;> simp only [spend] at h <;> split_ifs at h <;> simp_all

theorem spend_used (h : spend limit b m = some next) : next.used = m.count b.used := by
  cases m <;> simp only [spend] at h <;> split_ifs at h <;> cases h <;> rfl

theorem spend_le (hb : b.used ≤ limit) (h : spend limit b m = some next) :
    next.used ≤ limit := by
  cases m with
  | sound =>
    rw [spend_used h]
    exact Nat.zero_le _
  | broken gaveUp =>
    rw [spend_used h]
    exact hb
  | attempt =>
    simp only [spend] at h
    split_ifs at h with hlt
    cases h
    exact hlt.2

theorem exec_used (h : exec (spend limit) b marks = some last) :
    last.used = marks.foldl Mark.count b.used := by
  induction marks generalizing b with
  | nil =>
    cases h
    rfl
  | cons m marks ih =>
    obtain ⟨next, hm, hrest⟩ := exec_cons_eq_some.mp h
    rw [ih hrest, spend_used hm, List.foldl_cons]

theorem exec_le (hb : b.used ≤ limit) (h : exec (spend limit) b marks = some last) :
    last.used ≤ limit :=
  Reaches.invariant (P := fun b => b.used ≤ limit) (fun _ _ _ hb hm => spend_le hb hm)
    ⟨marks, h⟩ hb

-- Without a sound mark the attempts add up.
theorem foldl_count_of_notMem (hsound : .sound ∉ marks) (n : Nat) :
    marks.foldl Mark.count n = n + marks.count .attempt := by
  induction marks generalizing n with
  | nil => rfl
  | cons m marks ih =>
    obtain ⟨hm, hrest⟩ := not_or.mp fun h => hsound (List.mem_cons.mpr h)
    rw [List.foldl_cons, ih hrest]
    cases m with
    | sound => exact absurd rfl hm
    | broken gaveUp => simp [Mark.count]
    | attempt =>
      simp only [Mark.count, List.count_cons_self]
      omega

section Runs

variable {first stretch rest : List Mark}

-- Between two sound marks the attempts keep within the limit.
theorem attempts_le (hb : b.used ≤ limit)
    (h : exec (spend limit) b (first ++ stretch ++ rest) = some last)
    (hsound : .sound ∉ stretch) : stretch.count .attempt ≤ limit := by
  obtain ⟨second, hsecond, -⟩ := exec_append_eq_some.mp h
  obtain ⟨mid, -, hstretch⟩ := exec_append_eq_some.mp hsecond
  have hle := exec_le hb hsecond
  rw [exec_used hstretch, foldl_count_of_notMem hsound] at hle
  omega

theorem gaveUp_iff {gaveUp : Bool}
    (h : exec (spend limit) .fresh (first ++ .broken gaveUp :: rest) = some last) :
    gaveUp = true ↔ sinceSound first = limit := by
  obtain ⟨mid, hfirst, hrest⟩ := exec_append_eq_some.mp h
  obtain ⟨next, hbroken, -⟩ := exec_cons_eq_some.mp hrest
  have hused : mid.used = sinceSound first := exec_used hfirst
  have hle : mid.used ≤ limit := exec_le (Nat.zero_le _) hfirst
  simp only [spend] at hbroken
  split_ifs at hbroken with hiff
  rw [hiff.2, ← hused]
  exact ⟨fun hge => Nat.le_antisymm hle hge, fun heq => Nat.le_of_eq heq.symm⟩

-- Giving up is the end.
theorem nil_of_gaveUp (h : exec (spend limit) b (first ++ .broken true :: rest) = some last) :
    rest = [] := by
  obtain ⟨mid, -, hrest⟩ := exec_append_eq_some.mp h
  obtain ⟨next, hbroken, hafter⟩ := exec_cons_eq_some.mp hrest
  have hdead : next.live = false := by
    simp only [spend] at hbroken
    split_ifs at hbroken
    cases hbroken
    rfl
  cases rest with
  | nil => rfl
  | cons m rest =>
    obtain ⟨after, hm, -⟩ := exec_cons_eq_some.mp hafter
    exact absurd (spend_live hm) (by simp [hdead])

theorem count_gaveUp_le (h : exec (spend limit) b marks = some last) :
    marks.count (.broken true) ≤ 1 := by
  by_cases hmem : .broken true ∈ marks
  · obtain ⟨first, rest, rfl⟩ := List.append_of_mem hmem
    obtain rfl := nil_of_gaveUp h
    have hfirst : .broken true ∉ first := by
      intro hearlier
      obtain ⟨before, after, rfl⟩ := List.append_of_mem hearlier
      rw [List.append_assoc] at h
      exact absurd (nil_of_gaveUp h) (by simp)
    have hone : (first ++ [Mark.broken true]).count (.broken true) = 1 := by
      rw [List.count_append, List.count_eq_zero.mpr hfirst, List.count_singleton_self]
    exact Nat.le_of_eq hone
  · rw [List.count_eq_zero.mpr hmem]
    exact Nat.zero_le _

end Runs

end Lib.Budget
