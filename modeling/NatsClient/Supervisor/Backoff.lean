import Mathlib.Data.Int.ConditionallyCompleteOrder
import Mathlib.Logic.Function.Iterate
import Mathlib.Order.ConditionallyCompleteLattice.Basic
import NatsClient.Lib.Backoff
import NatsClient.Lib.Signed
import NatsClient.Supervisor.Runs

namespace NatsClient.Supervisor

open Lib.Machine Lib.Backoff Lib.Signed

-- The backoff after n failures in a row, for a configuration with its defaults.
def SupervisorConfig.delay (cfg : SupervisorConfig) (n : Nat) : Int64 :=
  (nextBackoff · cfg.maxBackoff)^[n] cfg.initialBackoff

-- MaxRetries leaves room for one more attempt after n of them.
def SupervisorConfig.mayRetry (cfg : SupervisorConfig) (n : Nat) : Bool :=
  cfg.maxRetries < 0 ∨ n < cfg.maxRetries

-- The initial backoff is within the cap, and a backoff that another one may follow can be
-- doubled in an int64.
def SupervisorConfig.Doubles (cfg : SupervisorConfig) : Prop :=
  cfg.initialBackoff.toInt ≤ cfg.maxBackoff.toInt ∧
    ∀ n : Nat, cfg.maxRetries < 0 ∨ n + 1 < cfg.maxRetries →
      min (cfg.initialBackoff.toInt * 2 ^ n) cfg.maxBackoff.toInt < 2 ^ 62

section Words

variable {current maxBackoff : Int64}

theorem toInt_nextBackoff (h : 0 < current.toInt) (hlt : current.toInt < 2 ^ 62) :
    (nextBackoff current maxBackoff).toInt = min (current.toInt * 2) maxBackoff.toInt := by
  have hdouble := toInt_double current h
  rw [if_pos hlt] at hdouble
  unfold nextBackoff
  simp only [Int64.lt_iff_toInt_lt, hdouble]
  split_ifs with hcap
  · omega
  · rw [hdouble]
    omega

-- From 2^62 on the product wraps to a negative number, which passes the comparison.
theorem toInt_nextBackoff_neg (hge : 2 ^ 62 ≤ current.toInt) (hmax : 0 < maxBackoff.toInt) :
    (nextBackoff current maxBackoff).toInt < 0 := by
  have hlt := current.toInt_lt
  have hdouble := toInt_double current (by omega)
  rw [if_neg (by omega)] at hdouble
  unfold nextBackoff
  simp only [Int64.lt_iff_toInt_lt, hdouble]
  rw [if_neg (by omega), hdouble]
  omega

end Words

section Delays

variable {cfg : SupervisorConfig} {n : Nat}

theorem delay_succ (cfg : SupervisorConfig) (n : Nat) :
    cfg.delay (n + 1) = nextBackoff (cfg.delay n) cfg.maxBackoff :=
  Function.iterate_succ_apply' ..

theorem mayRetry_iff : cfg.mayRetry n = true ↔ cfg.maxRetries < 0 ∨ n < cfg.maxRetries :=
  decide_eq_true_iff

theorem mayRetry_of_le {k : Nat} (h : cfg.mayRetry n = true) (hle : k ≤ n) :
    cfg.mayRetry k = true := by
  rw [mayRetry_iff] at h ⊢
  omega

-- What withDefaults makes sure of.
structure SupervisorConfig.Defaulted (cfg : SupervisorConfig) : Prop where
  initial : 0 < cfg.initialBackoff.toInt
  max : 0 < cfg.maxBackoff.toInt
  retries : cfg.maxRetries ≠ 0

theorem withDefaults_defaulted (cfg : SupervisorConfig) : cfg.withDefaults.Defaulted := by
  constructor
  · exact toInt_default_pos _ (by decide)
  · exact toInt_default_pos _ (by decide)
  · simp only [SupervisorConfig.withDefaults]
    split_ifs with h
    · decide
    · exact h

-- As long as nothing overflows, the delays are those of a capped doubling.
theorem toInt_delay (hcfg : cfg.Defaulted) (hle : cfg.initialBackoff.toInt ≤ cfg.maxBackoff.toInt)
    (hlt : ∀ k < n, capped cfg.initialBackoff.toInt cfg.maxBackoff.toInt k < 2 ^ 62) :
    (cfg.delay n).toInt = capped cfg.initialBackoff.toInt cfg.maxBackoff.toInt n := by
  induction n with
  | zero => exact (capped_zero hle).symm
  | succ n ih =>
    have hn := ih fun k hk => hlt k (Nat.lt_succ_of_lt hk)
    have hpos := capped_pos hcfg.initial hcfg.max n
    have hbelow := hlt n (Nat.lt_succ_self n)
    rw [delay_succ, toInt_nextBackoff (by omega) (by omega), hn, capped_succ hcfg.max.le]

theorem delays_iff (hcfg : cfg.Defaulted) :
    (∀ n, cfg.mayRetry n = true →
        (0 < (cfg.delay n).toInt ∧ (cfg.delay n).toInt ≤ cfg.maxBackoff.toInt) ∧
          ∀ k, k + 1 = n → (cfg.delay k).toInt ≤ (cfg.delay n).toInt) ↔
      cfg.Doubles := by
  constructor
  · intro hdelays
    have hfirst : cfg.mayRetry 0 = true := by
      have hretries := hcfg.retries
      rw [mayRetry_iff]
      omega
    have hle : cfg.initialBackoff.toInt ≤ cfg.maxBackoff.toInt := (hdelays 0 hfirst).1.2
    refine ⟨hle, fun n => ?_⟩
    -- below the first overflow the delays are known, and the one after it is negative
    induction n using Nat.strongRecOn with
    | _ n ih =>
      intro hmay
      by_contra hover
      have hn : (cfg.delay n).toInt =
          capped cfg.initialBackoff.toInt cfg.maxBackoff.toInt n :=
        toInt_delay hcfg hle fun k hk => ih k hk (by omega)
      have hneg : (cfg.delay (n + 1)).toInt < 0 := by
        rw [delay_succ]
        exact toInt_nextBackoff_neg (by rw [hn]; exact Int.not_lt.mp hover) hcfg.max
      have hpos := (hdelays (n + 1) (mayRetry_iff.mpr (by omega))).1.1
      omega
  · rintro ⟨hle, hsmall⟩ n hmay
    have hdelay (k : Nat) (hk : k ≤ n) : (cfg.delay k).toInt =
        capped cfg.initialBackoff.toInt cfg.maxBackoff.toInt k := by
      refine toInt_delay hcfg hle fun j hj => hsmall j ?_
      have hj := mayRetry_iff.mp (mayRetry_of_le (k := j + 1) hmay (by omega))
      omega
    rw [hdelay n (Nat.le_refl n)]
    refine ⟨⟨capped_pos hcfg.initial hcfg.max n, capped_le _ _ n⟩, ?_⟩
    rintro k rfl
    rw [hdelay k (Nat.le_succ k)]
    exact capped_le_succ hcfg.initial hcfg.max k

-- What both loops wait for, in nanoseconds.
def paces (cfg : SupervisorConfig) : Nat → Mark Int → Option Nat :=
  pace (fun n => (cfg.delay n).toInt) cfg.mayRetry

theorem paces_wait (h : cfg.mayRetry n = true) :
    exec (paces cfg) n [.wait (cfg.delay n).toInt] = some (n + 1) :=
  exec_cons_eq_some.mpr ⟨n + 1, pace_wait h, rfl⟩

-- A loop with these waits is steady in all its runs iff its configuration doubles.
theorem forall_steady_iff_doubles (hcfg : cfg.Defaulted) {ρ : Type*} (run : ρ → Prop)
    (seen : ρ → List (Mark Int))
    (hpaced : ∀ r, run r → ∃ k, exec (paces cfg) 0 (seen r) = some k)
    (hfirst : ∀ n, cfg.mayRetry n = true →
      ∃ r, run r ∧ seen r = firstWaits (fun k => (cfg.delay k).toInt) (n + 1)) :
    (∀ r, run r → Steady cfg.maxBackoff.toInt (seen r)) ↔ cfg.Doubles :=
  (forall_steady_iff run seen hpaced hfirst).trans (delays_iff hcfg)

end Delays

namespace Runs

variable {cfg : SupervisorConfig} {s t : State} {n : Nat}

-- The wait that a state begins.
def State.waits (s : State) : List (Mark Int) :=
  match s.pc with
  | .backoff => [.wait s.backoff.toInt]
  | _ => []

-- The wait that a result of run leads to.
def backoffs (cfg : SupervisorConfig) (s : State) : Act → List (Mark Int)
  | .ran err => (after cfg.withDefaults s err).waits
  | _ => []

-- After n waits the backoff is the nth delay; the loop has not moved on to it while it waits.
def Paced (cfg : SupervisorConfig) (s : State) (n : Nat) : Prop :=
  match s.pc with
  | .top | .running => s.backoff = cfg.delay n ∧ s.attempts = n
  | .backoff => ∃ k, n = k + 1 ∧ s.backoff = cfg.delay k ∧ s.attempts = n
  | .returned _ => True

theorem after_cases (cfg : SupervisorConfig) (s : State) (err : Option GoError) :
    (∃ e, (after cfg s err).pc = .returned e) ∨
      ((after cfg s err).pc = .backoff ∧ (after cfg s err).backoff = s.backoff ∧
        (after cfg s err).attempts = s.attempts + 1 ∧
        (cfg.maxRetries < 0 ∨ s.attempts < cfg.maxRetries)) := by
  cases err with
  | none => exact .inl ⟨none, rfl⟩
  | some err =>
    simp only [after]
    by_cases hcanceled : (err.is .canceled || err.is .deadlineExceeded) = true
    · rw [if_pos hcanceled]
      exact .inl ⟨_, rfl⟩
    · rw [if_neg hcanceled]
      by_cases hspent : 0 ≤ cfg.maxRetries ∧ cfg.maxRetries ≤ s.attempts
      · rw [if_pos hspent]
        exact .inl ⟨_, rfl⟩
      · rw [if_neg hspent]
        exact .inr ⟨rfl, rfl, rfl, by omega⟩

theorem Paced.after (hpc : s.pc = .running) (h : Paced cfg s n) (err : Option GoError) :
    ∃ m, exec (paces cfg) n (after cfg s err).waits = some m ∧ Paced cfg (after cfg s err) m := by
  simp only [Paced, hpc] at h
  obtain ⟨hbackoff, hattempts⟩ := h
  rcases after_cases cfg s err with ⟨e, hreturned⟩ | ⟨hwaits, hsame, hmore, hroom⟩
  · exact ⟨n, by simp [State.waits, hreturned, exec], by simp [Paced, hreturned]⟩
  · have hmay : cfg.mayRetry n = true := mayRetry_iff.mpr (by omega)
    refine ⟨n + 1, ?_, ?_⟩
    · simp only [State.waits, hwaits, hsame, hbackoff]
      exact paces_wait hmay
    · simp only [Paced, hwaits, hsame, hmore, hattempts]
      exact ⟨n, rfl, hbackoff, rfl⟩

theorem Paced.step (h : Paced cfg.withDefaults s n) {a : Act} (hstep : step cfg s a = some t) :
    ∃ m, exec (paces cfg.withDefaults) n (backoffs cfg s a) = some m ∧
      Paced cfg.withDefaults t m := by
  cases a with
  | call =>
    simp only [Runs.step] at hstep
    split_ifs at hstep with hpc
    cases hstep
    simp only [Paced, hpc] at h
    exact ⟨n, rfl, h⟩
  | ran err =>
    simp only [Runs.step] at hstep
    split_ifs at hstep with hpc
    cases hstep
    exact h.after hpc err
  | timer =>
    simp only [Runs.step] at hstep
    split_ifs at hstep with hpc
    cases hstep
    simp only [Paced, hpc] at h
    obtain ⟨k, rfl, hbackoff, hattempts⟩ := h
    refine ⟨k + 1, rfl, ?_, hattempts⟩
    rw [delay_succ, hbackoff]
  | ctxDone err =>
    simp only [Runs.step] at hstep
    split_ifs at hstep with hpc
    cases hstep
    exact ⟨n, rfl, trivial⟩

theorem paced_start (cfg : SupervisorConfig) (run : Bool) :
    Paced cfg.withDefaults (start cfg run) 0 := by
  cases run with
  | true => exact ⟨rfl, rfl⟩
  | false => trivial

-- The marks so far are a run of the paced loop.
def Follows (cfg : SupervisorConfig) (s : State) (out : List (Mark Int)) : Prop :=
  ∃ n, exec (paces cfg) 0 out = some n ∧ Paced cfg s n

theorem Follows.step {a : Act} {out : List (Mark Int)} (h : Follows cfg.withDefaults s out)
    (hstep : step cfg s a = some t) : Follows cfg.withDefaults t (out ++ backoffs cfg s a) := by
  obtain ⟨n, hexec, hpaced⟩ := h
  obtain ⟨m, hmarks, hnext⟩ := hpaced.step hstep
  exact ⟨m, exec_append_eq_some.mpr ⟨n, hexec, hmarks⟩, hnext⟩

theorem run_follows {run : Bool} {acts : List Act}
    (h : exec (step cfg) (start cfg run) acts = some s) :
    Follows cfg.withDefaults s (outputs (step cfg) (backoffs cfg) (start cfg run) acts) := by
  have hstart : Follows cfg.withDefaults (start cfg run) [] := ⟨0, rfl, paced_start cfg run⟩
  exact outputs_invariant (fun _ _ _ _ hs hstep => hs.step hstep) h hstart

def refused : GoError := .foreign "connection refused" []

-- A run function that fails each time, up to the wait after n + 1 failures.
def failing : Nat → List Act
  | 0 => [.call, .ran (some refused)]
  | n + 1 => failing n ++ [.timer, .call, .ran (some refused)]

-- The next call of run, once the wait is over.
def State.again (cfg : SupervisorConfig) (s : State) : State :=
  { s with pc := .running, backoff := nextBackoff s.backoff cfg.maxBackoff }

theorem after_refused (hattempts : s.attempts = n) (hmay : cfg.mayRetry n = true) :
    (after cfg s (some refused)).pc = .backoff ∧
      (after cfg s (some refused)).backoff = s.backoff ∧
      (after cfg s (some refused)).attempts = n + 1 := by
  have hroom := mayRetry_iff.mp hmay
  have hcanceled : (refused.is .canceled || refused.is .deadlineExceeded) ≠ true := by decide
  simp only [after, if_neg hcanceled]
  rw [if_neg (by omega)]
  exact ⟨rfl, rfl, by rw [← hattempts]⟩

theorem run_failing (hmay : cfg.withDefaults.mayRetry n = true) :
    ∃ t, exec (step cfg) (start cfg true) (failing n) = some t ∧ t.pc = .backoff ∧
      t.backoff = cfg.withDefaults.delay n ∧ t.attempts = n + 1 ∧
      outputs (step cfg) (backoffs cfg) (start cfg true) (failing n) =
        firstWaits (fun k => (cfg.withDefaults.delay k).toInt) (n + 1) := by
  induction n with
  | zero =>
    obtain ⟨hpc, hbackoff, hattempts⟩ :=
      after_refused (s := { start cfg true with pc := .running }) rfl hmay
    refine ⟨_, rfl, hpc, hbackoff, hattempts, ?_⟩
    show (after cfg.withDefaults _ (some refused)).waits ++ [] = _
    simp only [State.waits, hpc, hbackoff]
    rfl
  | succ n ih =>
    obtain ⟨t, hexec, hpc, hbackoff, hattempts, hout⟩ := ih (mayRetry_of_le hmay (by omega))
    obtain ⟨hnext, hsame, hmore⟩ := after_refused (s := t.again cfg.withDefaults) (n := n + 1)
      (by exact_mod_cast hattempts) hmay
    have hturn : exec (step cfg) t [.timer, .call, .ran (some refused)] =
        some (after cfg.withDefaults (t.again cfg.withDefaults) (some refused)) := by
      simp [exec, step, hpc, State.again]
    have hdelay : (t.again cfg.withDefaults).backoff = cfg.withDefaults.delay (n + 1) := by
      rw [delay_succ, ← hbackoff]
      rfl
    refine ⟨_, exec_append_eq_some.mpr ⟨t, hexec, hturn⟩, hnext, hsame.trans hdelay,
      by exact_mod_cast hmore, ?_⟩
    rw [failing, outputs_append _ _ hexec, hout, firstWaits_succ _ (n + 1)]
    congr 1
    have hwaits : (after cfg.withDefaults (t.again cfg.withDefaults) (some refused)).waits =
        [.wait (cfg.withDefaults.delay (n + 1)).toInt] := by
      simp only [State.waits, hnext, hsame, hdelay]
    simpa [outputs, step, hpc, backoffs, State.again] using hwaits

-- SupervisePullProcess is steady iff its configuration doubles.
theorem runs_steady_iff (cfg : SupervisorConfig) :
    (∀ run acts s, exec (step cfg) (start cfg run) acts = some s →
        Steady cfg.withDefaults.maxBackoff.toInt
          (outputs (step cfg) (backoffs cfg) (start cfg run) acts)) ↔
      cfg.withDefaults.Doubles := by
  have hiff := forall_steady_iff_doubles (withDefaults_defaulted cfg)
    (fun r : Bool × List Act => ∃ s, exec (step cfg) (start cfg r.1) r.2 = some s)
    (fun r => outputs (step cfg) (backoffs cfg) (start cfg r.1) r.2)
    (fun r ⟨s, hexec⟩ => (run_follows hexec).imp fun _ h => h.1)
    (fun n hmay => by
      obtain ⟨t, hexec, -, -, -, hout⟩ := run_failing hmay
      exact ⟨(true, failing n), ⟨t, hexec⟩, hout⟩)
  simpa only [Prod.forall, forall_exists_index] using hiff

end Runs

end NatsClient.Supervisor
