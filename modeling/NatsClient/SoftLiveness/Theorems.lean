import Mathlib.Data.List.Chain
import Mathlib.Data.List.DropRight
import NatsClient.SoftLiveness

namespace NatsClient.SoftLiveness

open Lib.Machine

variable {cfg : SoftLivenessConfig} {s t : State} {q : Poll} {seen : List UInt64} {pending : UInt64}
  {fired : Option SoftLivenessEvent}

-- What a poll and its event add to the pending counts since the last event's poll.
def extend (seen : List UInt64) (entry : Poll × Option SoftLivenessEvent) : List UInt64 :=
  match entry.1.pending with
  | none => seen
  | some pending => if entry.2.isSome then [pending] else seen ++ [pending]

-- The pending counts of the successful polls from the last event's poll on, or from the first.
def sinceEvent (trace : List (Poll × Option SoftLivenessEvent)) : List UInt64 :=
  trace.foldl extend []

-- There are n steps at least, and the last n of them go up.
def Rose (n : Nat) (counts : List UInt64) : Prop :=
  n < counts.length ∧ (counts.rtake (n + 1)).IsChain (· < ·)

theorem rose_zero_concat (seen : List UInt64) (pending : UInt64) : Rose 0 (seen ++ [pending]) := by
  refine ⟨by simp, ?_⟩
  rw [List.rtake_concat_succ, List.rtake_zero]
  exact List.isChain_singleton pending

theorem rose_succ_concat {n : Nat} : Rose (n + 1) (seen ++ [pending]) ↔
    Rose n seen ∧ ∀ prev, seen.getLast? = some prev → prev < pending := by
  have hlength : n + 1 < (seen ++ [pending]).length ↔ n < seen.length := by simp
  unfold Rose
  rw [hlength, List.rtake_concat_succ, List.isChain_append, and_assoc]
  refine and_congr_right fun hlt => and_congr_right fun _ => ?_
  have hlast : (seen.rtake (n + 1)).getLast? = seen.getLast? := by
    rw [List.rtake, List.getLast?_drop, if_neg (by omega)]
  simp [hlast]

-- What the loop remembers of the counts.
structure Tracks (s : State) (seen : List UInt64) : Prop where
  prev : seen.getLast? = if s.havePrev then some s.prevPending else none
  rose : ∀ n, Rose n seen ↔ s.havePrev = true ∧ n ≤ s.rising

theorem tracks_start : Tracks start [] := by
  refine ⟨rfl, fun n => ?_⟩
  simp [Rose, start]

theorem Tracks.rose_concat (h : Tracks s seen) (n : Nat) :
    Rose n (seen ++ [pending]) ↔ n ≤ s.risen pending := by
  cases n with
  | zero => exact iff_of_true (rose_zero_concat seen pending) (Nat.zero_le _)
  | succ n =>
    rw [rose_succ_concat, h.rose, h.prev, State.risen]
    cases s.havePrev with
    | false => simp
    | true =>
      by_cases hlt : s.prevPending < pending
      · simp [hlt]
      · simp [hlt]

theorem Tracks.concat (h : Tracks s seen) (pending : UInt64) :
    Tracks ⟨pending, true, s.risen pending⟩ (seen ++ [pending]) := by
  refine ⟨by simp, fun n => ?_⟩
  rw [h.rose_concat]
  simp

theorem withDefaults_risingWindows (cfg : SoftLivenessConfig) :
    0 < cfg.withDefaults.risingWindows := by
  simp only [SoftLivenessConfig.withDefaults]
  split_ifs <;> omega

section Observe

variable (hwindows : 0 < cfg.risingWindows)
include hwindows

-- The check for a count of zero adds nothing: a count that rose is positive.
theorem quiet_iff (s : State) (idle : Int64) (pending : UInt64) :
    (s.risen pending < cfg.risingWindows ∨ idle < cfg.stallAfter ∨ pending = 0) ↔
      ¬ (cfg.stallAfter ≤ idle ∧ cfg.risingWindows ≤ s.risen pending) := by
  have hpositive : cfg.risingWindows ≤ s.risen pending → pending ≠ 0 := by
    rintro hle rfl
    have hzero : s.risen 0 = 0 := if_neg (by simp)
    omega
  rw [Int64.lt_iff_toInt_lt, Int64.le_iff_toInt_le]
  by_cases hrisen : cfg.risingWindows ≤ s.risen pending
  · have hne := hpositive hrisen
    simp only [hne, or_false]
    omega
  · omega

-- A successful poll.
theorem observe_success (hq : q.pending = some pending) :
    observe cfg s q =
      if cfg.stallAfter ≤ q.idle ∧ cfg.risingWindows ≤ s.risen pending then
        (if cfg.circuitStop then none else some ⟨pending, true, 0⟩,
          some ⟨.sentinel .errConsumerStall, pending, q.idle⟩)
      else (some ⟨pending, true, s.risen pending⟩, none) := by
  have hquiet := quiet_iff hwindows s q.idle pending
  simp only [observe, hq]
  by_cases hstall : cfg.stallAfter ≤ q.idle ∧ cfg.risingWindows ≤ s.risen pending
  · rw [if_pos hstall, if_neg fun hnot => hquiet.mp hnot hstall]
    split_ifs <;> rfl
  · rw [if_neg hstall, if_pos (hquiet.mpr hstall)]

theorem Tracks.fires_iff (h : Tracks s seen) :
    (observe cfg s q).2.isSome = true ↔ ∃ pending, q.pending = some pending ∧
      cfg.stallAfter ≤ q.idle ∧ Rose cfg.risingWindows.toNat (seen ++ [pending]) := by
  cases hq : q.pending with
  | none => simp [observe, hq]
  | some pending =>
    have hrose : Rose cfg.risingWindows.toNat (seen ++ [pending]) ↔
        cfg.risingWindows ≤ s.risen pending := by
      rw [h.rose_concat]
      omega
    rw [observe_success hwindows hq]
    simp only [Option.some.injEq, exists_eq_left', hrose]
    split_ifs with hstall <;> simp [hstall]

theorem Tracks.step (h : Tracks s seen) (hnext : (observe cfg s q).1 = some t) :
    Tracks t (extend seen (q, (observe cfg s q).2)) := by
  cases hq : q.pending with
  | none =>
    simp only [observe, hq] at hnext
    cases hnext
    simpa [extend, hq] using h
  | some pending =>
    rw [observe_success hwindows hq] at hnext ⊢
    by_cases hstall : cfg.stallAfter ≤ q.idle ∧ cfg.risingWindows ≤ s.risen pending
    · simp only [if_pos hstall] at hnext ⊢
      split_ifs at hnext
      cases hnext
      simpa [extend, hq, State.risen, start] using tracks_start.concat pending
    · simp only [if_neg hstall] at hnext ⊢
      cases hnext
      simpa [extend, hq] using h.concat pending

-- The state in which a poll of the trace is made. The induction is over the polls before it.
theorem Tracks.exists_at {polls : List Poll} {before after : List (Poll × Option SoftLivenessEvent)}
    (h : Tracks s seen) (hsplit : loop cfg s polls = before ++ (q, fired) :: after) :
    ∃ t, Tracks t (before.foldl extend seen) ∧ fired = (observe cfg t q).2 := by
  induction before generalizing s seen polls with
  | nil =>
    cases polls with
    | nil => cases hsplit
    | cons p polls =>
      simp only [loop, outputs, List.nil_append, List.singleton_append, List.cons.injEq,
        Prod.mk.injEq] at hsplit
      obtain ⟨⟨rfl, rfl⟩, -⟩ := hsplit
      exact ⟨s, h, rfl⟩
  | cons entry before ih =>
    cases polls with
    | nil => cases hsplit
    | cons p polls =>
      simp only [loop, outputs, List.cons_append, List.nil_append, List.cons.injEq] at hsplit
      obtain ⟨rfl, hrest⟩ := hsplit
      cases hnext : (observe cfg s p).1 with
      | none => simp [hnext] at hrest
      | some next =>
        rw [hnext, Option.elim_some] at hrest
        exact ih (h.step hwindows hnext) hrest

end Observe

def Poll.succeeds (q : Poll) : Bool := q.pending.isSome

theorem foldl_extend_length (trace : List (Poll × Option SoftLivenessEvent)) (seen : List UInt64)
    (hseen : seen ≠ []) :
    (trace.foldl extend seen).length ≤
      seen.length + trace.countP fun entry => entry.1.succeeds := by
  induction trace generalizing seen with
  | nil => exact Nat.le_refl _
  | cons entry trace ih =>
    have hpos : 0 < seen.length := List.length_pos_iff.mpr hseen
    rw [List.foldl_cons, List.countP_cons]
    cases hpending : entry.1.pending with
    | none =>
      have hsame : extend seen entry = seen := by simp [extend, hpending]
      rw [hsame]
      exact (ih seen hseen).trans (by omega)
    | some pending =>
      have hgrows : extend seen entry ≠ [] ∧ (extend seen entry).length ≤ seen.length + 1 := by
        simp only [extend, hpending]
        split_ifs <;> simp
      have hone : entry.1.succeeds = true := by simp [Poll.succeeds, hpending]
      have hrest := ih _ hgrows.1
      rw [if_pos hone]
      omega

-- Without CircuitStop the loop makes every poll.
theorem loop_polls (hcircuit : cfg.circuitStop = false) (s : State) (polls : List Poll) :
    (loop cfg s polls).map (·.1) = polls := by
  induction polls generalizing s with
  | nil => rfl
  | cons q polls ih =>
    have hnext : ∃ next, (observe cfg s q).1 = some next := by
      unfold observe
      split
      · exact ⟨_, rfl⟩
      · dsimp only
        split_ifs with hquiet hstop
        · exact ⟨_, rfl⟩
        · simp [hcircuit] at hstop
        · exact ⟨_, rfl⟩
    obtain ⟨next, hnext⟩ := hnext
    simpa [loop, outputs, hnext] using ih next

-- What an event at a poll of the trace says.
theorem fired_iff {polls : List Poll} {before after : List (Poll × Option SoftLivenessEvent)}
    (hsplit : watchSoftLiveness cfg polls = before ++ (q, fired) :: after) :
    fired.isSome = true ↔ ∃ pending, q.pending = some pending ∧
      cfg.withDefaults.stallAfter ≤ q.idle ∧
      Rose cfg.withDefaults.risingWindows.toNat (sinceEvent before ++ [pending]) := by
  have hwindows := withDefaults_risingWindows cfg
  obtain ⟨t, ht, rfl⟩ := tracks_start.exists_at hwindows hsplit
  exact ht.fires_iff hwindows

-- An event is emitted at a poll iff the consumer has been idle long enough there, and pending
-- has gone up in each of the last RisingWindows steps, all of them since the last event.
theorem soft_liveness_fires_iff (cfg : SoftLivenessConfig) (polls : List Poll) :
    (cfg.circuitStop = false → (watchSoftLiveness cfg polls).map (·.1) = polls) ∧
    (∀ before q fired after, watchSoftLiveness cfg polls = before ++ (q, fired) :: after →
      (fired.isSome = true ↔ ∃ pending, q.pending = some pending ∧
        cfg.withDefaults.stallAfter ≤ q.idle ∧
        Rose cfg.withDefaults.risingWindows.toNat (sinceEvent before ++ [pending]))) ∧
    ∀ before p first mid q second after,
      watchSoftLiveness cfg polls =
        before ++ (p, some first) :: (mid ++ (q, some second) :: after) →
      cfg.withDefaults.risingWindows ≤ (mid.map (·.1) ++ [q]).countP Poll.succeeds := by
  refine ⟨fun hcircuit => ?_, fun _ _ _ _ hsplit => fired_iff hsplit, ?_⟩
  · have hoff : cfg.withDefaults.circuitStop = false := hcircuit
    exact loop_polls hoff start polls
  intro before p first mid q second after hsplit
  obtain ⟨was, hwas, -⟩ := (fired_iff hsplit).mp rfl
  have hlater : watchSoftLiveness cfg polls =
      (before ++ (p, some first) :: mid) ++ (q, some second) :: after := by
    rw [hsplit, List.append_assoc, List.cons_append]
  obtain ⟨pending, hpending, -, hrose, -⟩ := (fired_iff hlater).mp rfl
  -- the counts that the second event is about start with that of the first
  have hsince : sinceEvent (before ++ (p, some first) :: mid) = mid.foldl extend [was] := by
    simp [sinceEvent, extend, hwas]
  have hlength := foldl_extend_length mid [was] (List.cons_ne_nil was [])
  rw [hsince, List.length_append] at hrose
  rw [List.countP_append, List.countP_map]
  have hone : [q].countP Poll.succeeds = 1 := by simp [Poll.succeeds, hpending]
  have hsame : mid.countP (Poll.succeeds ∘ (·.1)) = mid.countP fun entry => entry.1.succeeds := rfl
  simp only [List.length_singleton] at hlength hrose
  omega

-- Two windows, and a consumer that does nothing. The fourth poll fails.
def stalling : List Poll :=
  [⟨some 1, 50⟩, ⟨some 4, 51⟩, ⟨some 9, 52⟩, ⟨none, 53⟩, ⟨some 11, 54⟩, ⟨some 12, 55⟩]

example : (watchSoftLiveness ⟨0, 20, 2, false⟩ stalling).map (·.2.isSome) =
    [false, false, true, false, false, true] := by
  decide

end NatsClient.SoftLiveness
