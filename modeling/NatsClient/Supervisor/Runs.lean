import NatsClient.Supervisor

namespace NatsClient.Supervisor.Runs

open Lib.Machine

inductive Pc
  -- before the call of run
  | top
  | running
  | backoff
  | returned (err : Option GoError)
  deriving DecidableEq, Repr

structure State where
  pc : Pc
  attempts : Int
  backoff : Int64
  events : List SupervisorEvent
  deriving DecidableEq, Repr

inductive Act
  | call
  | ran (err : Option GoError)
  | timer
  | ctxDone (err : GoError)
  deriving DecidableEq, Repr

-- What the loop does with the result of run.
def after (cfg : SupervisorConfig) (s : State) : Option GoError → State
  | none => { s with pc := .returned none }
  | some err =>
    if err.is .canceled || err.is .deadlineExceeded then { s with pc := .returned (some err) }
    else if 0 ≤ cfg.maxRetries ∧ cfg.maxRetries ≤ s.attempts then
      { s with
        pc := .returned (some (.join "" (.sentinel .errSupervisorGiveUp) ": " err ""))
        events := if cfg.onEvent then s.events ++ [⟨err, .giveUp, s.attempts⟩] else s.events }
    else
      { s with
        pc := .backoff
        attempts := s.attempts + 1
        events :=
          if cfg.onEvent then s.events ++ [⟨err, .resubscribed, s.attempts + 1⟩]
          else s.events }

-- SupervisePullProcess for any run.
def step (cfg : SupervisorConfig) (s : State) : Act → Option State
  | .call => if s.pc = .top then some { s with pc := .running } else none
  | .ran err => if s.pc = .running then some (after cfg.withDefaults s err) else none
  | .timer =>
    if s.pc = .backoff then
      some { s with
        pc := .top
        backoff := nextBackoff s.backoff cfg.withDefaults.maxBackoff }
    else none
  | .ctxDone err =>
    if s.pc = .backoff then some { s with pc := .returned (some err) } else none

-- The run function may be nil.
def start (cfg : SupervisorConfig) (run : Bool) : State where
  pc := if run then .top else .returned (some (.foreign "supervise pull: run fn is nil" []))
  attempts := 0
  backoff := cfg.withDefaults.initialBackoff
  events := []

section Client

variable {Q W S : Type} {cfg : SupervisorConfig}

-- The client's helper, whose run is Pull and then Process.
def project (s : Supervisor.State Q W S) : State where
  pc := match s.pc with
    | .pull | .process => .running
    | .backoff => .backoff
    | .returned err => .returned (some err)
  attempts := s.attempts
  backoff := s.backoff
  events := s.events

theorem project_after (s : Supervisor.State Q W S) (err : GoError) :
    project (Supervisor.after cfg s err) = after cfg (project s) (some err) := by
  have hattempts : (project s).attempts = s.attempts := rfl
  simp only [Supervisor.after, after, hattempts]
  split_ifs <;> rfl

theorem ran_of_running {s : State} (hpc : s.pc = .running) (err : Option GoError) :
    step cfg s (.ran err) = some (after cfg.withDefaults s err) :=
  if_pos hpc

variable [DecidableEq Q] [DecidableEq W] [DecidableEq S] {u : Process.Setup Q}
  {s t : Supervisor.State Q W S}

-- Inside a run nothing moves here. After the backoff the helper is in its next run at once.
theorem project_step {a : Supervisor.Act Q W S} (h : Supervisor.step cfg u s a = some t) :
    Reaches (step cfg) (project s) (project t) := by
  cases a with
  | pull err =>
    simp only [Supervisor.step] at h
    split at h
    · next hpc =>
        cases h
        have hsame : project s = project { s with
            pc := .process, proc := { s.proc with pc := .top } } := by simp [project, hpc]
        exact hsame ▸ .refl _
    · next e hpc =>
        cases h
        rw [project_after]
        exact .single (ran_of_running (by simp [project, hpc]) (some e))
    · cases h
  | process act =>
    simp only [Supervisor.step] at h
    split_ifs at h
    obtain ⟨proc, -, rfl⟩ := Option.map_eq_some_iff.mp h
    exact .refl _
  | observe =>
    simp only [Supervisor.step] at h
    split at h
    · next e hpc _ =>
        cases h
        rw [project_after]
        exact .single (ran_of_running (by simp [project, hpc]) (some e))
    · cases h
  | timer =>
    simp only [Supervisor.step] at h
    split_ifs at h with hpc
    cases h
    exact ⟨[.timer, .call], by simp [exec, step, project, hpc]⟩
  | ctxDone =>
    simp only [Supervisor.step] at h
    split at h
    · next e hpc _ =>
        cases h
        exact ⟨[.ctxDone e], by simp [exec, step, project, hpc]⟩
    · cases h

-- A run of the client's helper is one of the loop.
theorem project_initial {acts : List (Supervisor.Act Q (Fin (WorkerPool.poolLen
    u.consumer.cfg.poolSize)) S)} {s : Supervisor.State Q _ S}
    (h : exec (Supervisor.step cfg u) (initial cfg u) acts = some s) :
    Reaches (step cfg) (start cfg true) (project s) := by
  refine Reaches.invariant (P := fun t => Reaches (step cfg) (start cfg true) (project t)) ?_
    ⟨acts, h⟩ ⟨[.call], rfl⟩
  intro s a t hs hstep
  exact hs.trans (project_step hstep)

end Client

section Counts

variable {cfg : SupervisorConfig} {s t : State} {limit : Nat} {acts : List Act}

-- A call of run has returned an error.
def Act.fails : Act → Bool
  | .ran (some _) => true
  | _ => false

def calls (acts : List Act) : Nat := acts.count .call

def failures (acts : List Act) : Nat := acts.countP Act.fails

theorem calls_concat (acts : List Act) (a : Act) :
    calls (acts ++ [a]) = calls acts + if a = .call then 1 else 0 := by
  simp [calls, List.count_singleton]

theorem failures_concat (acts : List Act) (a : Act) :
    failures (acts ++ [a]) = failures acts + if a.fails then 1 else 0 := by
  simp [failures, List.countP_singleton]

-- The error is the one that the last call of run or the context has ended with.
def HandedOn (acts : List Act) (err : GoError) : Prop :=
  (acts.getLast? = some (.ran (some err)) ∧
      (err.is .canceled || err.is .deadlineExceeded) = true) ∨
    acts.getLast? = some (.ctxDone err)

-- Every call but one that still runs has failed.
def Counted (limit : Nat) (s : State) (acts : List Act) : Prop :=
  match s.pc with
  | .top | .backoff =>
    (calls acts : Int) = s.attempts ∧ (failures acts : Int) = s.attempts ∧ s.attempts ≤ limit
  | .running =>
    (calls acts : Int) = s.attempts + 1 ∧ (failures acts : Int) = s.attempts ∧
      s.attempts ≤ limit
  | .returned err =>
    calls acts ≤ limit + 1 ∧
      ∀ e, err = some e → e.is .errSupervisorGiveUp = true →
        (failures acts = limit + 1 ∧ calls acts = limit + 1) ∨ HandedOn acts e

theorem counted_start (cfg : SupervisorConfig) (run : Bool) (limit : Nat) :
    Counted limit (start cfg run) [] := by
  cases run with
  | true => exact ⟨rfl, rfl, Int.natCast_nonneg limit⟩
  | false =>
    refine ⟨Nat.zero_le _, ?_⟩
    intro e he hgiveUp
    cases he
    cases hgiveUp

theorem Counted.ran (hmax : cfg.maxRetries = limit) (hpc : s.pc = .running)
    (h : Counted limit s acts) (err : Option GoError) :
    Counted limit (after cfg s err) (acts ++ [.ran err]) := by
  obtain ⟨hcalls, hfails, hle⟩ : (calls acts : Int) = s.attempts + 1 ∧
      (failures acts : Int) = s.attempts ∧ s.attempts ≤ limit := by
    simpa only [Counted, hpc] using h
  have hsame : calls (acts ++ [.ran err]) = calls acts := calls_concat acts _
  cases err with
  | none =>
    refine ⟨by omega, ?_⟩
    intro e he
    cases he
  | some err =>
    have hmore : failures (acts ++ [.ran (some err)]) = failures acts + 1 :=
      failures_concat acts _
    simp only [after]
    by_cases hcanceled : (err.is .canceled || err.is .deadlineExceeded) = true
    · rw [if_pos hcanceled]
      refine ⟨by omega, ?_⟩
      intro e he _
      cases he
      exact .inr (.inl ⟨List.getLast?_concat, hcanceled⟩)
    · rw [if_neg hcanceled]
      by_cases hspent : 0 ≤ cfg.maxRetries ∧ cfg.maxRetries ≤ s.attempts
      · rw [if_pos hspent]
        refine ⟨by omega, ?_⟩
        intro e _ _
        exact .inl ⟨by omega, by omega⟩
      · rw [if_neg hspent]
        show (calls (acts ++ [.ran (some err)]) : Int) = s.attempts + 1 ∧
          (failures (acts ++ [.ran (some err)]) : Int) = s.attempts + 1 ∧ s.attempts + 1 ≤ limit
        omega

theorem Counted.step (hmax : cfg.withDefaults.maxRetries = limit) (h : Counted limit s acts)
    {a : Act} (hstep : step cfg s a = some t) : Counted limit t (acts ++ [a]) := by
  cases a with
  | call =>
    simp only [Runs.step] at hstep
    split_ifs at hstep with hpc
    cases hstep
    simp only [Counted, hpc] at h
    have hmore : calls (acts ++ [.call]) = calls acts + 1 := calls_concat acts _
    have hsame : failures (acts ++ [.call]) = failures acts := failures_concat acts _
    simp only [Counted, hmore, hsame]
    omega
  | ran err =>
    simp only [Runs.step] at hstep
    split_ifs at hstep with hpc
    cases hstep
    exact h.ran hmax hpc err
  | timer =>
    simp only [Runs.step] at hstep
    split_ifs at hstep with hpc
    cases hstep
    simp only [Counted, hpc] at h
    have hcalls : calls (acts ++ [.timer]) = calls acts := calls_concat acts _
    have hfails : failures (acts ++ [.timer]) = failures acts := failures_concat acts _
    simp only [Counted, hcalls, hfails]
    exact h
  | ctxDone err =>
    simp only [Runs.step] at hstep
    split_ifs at hstep with hpc
    cases hstep
    simp only [Counted, hpc] at h
    have hsame : calls (acts ++ [.ctxDone err]) = calls acts := calls_concat acts _
    refine ⟨by omega, ?_⟩
    intro e he _
    cases he
    exact .inr (.inr List.getLast?_concat)

theorem exec_counted (hmax : cfg.withDefaults.maxRetries = limit) {run : Bool}
    (h : exec (step cfg) (start cfg run) acts = some s) : Counted limit s acts :=
  exec_induction (counted_start cfg run limit)
    (fun _ _ _ _ _ hs hstep => hs.step hmax hstep) h

theorem Counted.calls_le (h : Counted limit s acts) : calls acts ≤ limit + 1 := by
  unfold Counted at h
  split at h <;> omega

theorem Counted.gaveUp {err : GoError} (h : Counted limit s acts)
    (hpc : s.pc = .returned (some err)) (herr : err.is .errSupervisorGiveUp = true) :
    (failures acts = limit + 1 ∧ calls acts = limit + 1) ∨ HandedOn acts err := by
  simp only [Counted, hpc] at h
  exact h.2 err rfl herr

end Counts

end NatsClient.Supervisor.Runs
