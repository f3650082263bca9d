import NatsClient.Supervise.Moves
import NatsClient.Supervisor.Backoff

namespace NatsClient.Supervise

open Lib.Machine Lib.Backoff
open Supervisor (paces paces_wait delay_succ mayRetry_iff mayRetry_of_le)

variable {Q : Type} {cfg : SupervisorConfig} {s t : State Q} {n : Nat}

-- The wait that a state begins.
def State.waits (s : State Q) : List (Mark Int) :=
  match s.pc with
  | .waiting => [.wait s.backoff.toInt]
  | _ => []

-- A tick that finds the subscription invalid leads to a wait, or to the end. One that finds it
-- valid ends a series of failures, and so does a new subscription.
def backoffs (cfg : SupervisorConfig) (s : State Q) : Act Q → List (Mark Int)
  | .loop .proceed =>
    match s.pc with
    | .select => if s.sub.any s.valid then [.reset] else (tick cfg.withDefaults s).waits
    | .drop _ => [.reset]
    | _ => []
  | _ => []

-- After n waits in a row the backoff is the nth delay; the loop moves on to it when subscribe
-- fails.
def Paced (cfg : SupervisorConfig) (s : State Q) (n : Nat) : Prop :=
  match s.pc with
  | .select => s.backoff = cfg.delay n ∧ n ≤ s.attempts
  | .waiting | .subscribing => ∃ k, n = k + 1 ∧ s.backoff = cfg.delay k ∧ n ≤ s.attempts
  | .install _ | .drop _ => 0 ≤ s.attempts
  | .cleanup | .release _ | .exited => True

theorem backoffs_of_invalid (hpc : s.pc = .select) (hvalid : s.sub.any s.valid = false) :
    backoffs cfg s (.loop .proceed) = (tick cfg.withDefaults s).waits := by
  simp [backoffs, hpc, hvalid]

theorem Paced.of_eq (h : Paced cfg s n) (hpc : t.pc = s.pc) (hbackoff : t.backoff = s.backoff)
    (hattempts : t.attempts = s.attempts) : Paced cfg t n := by
  unfold Paced
  rw [hpc, hbackoff, hattempts]
  exact h

-- The marks of a step are those of the paced loop.
def Keeps (cfg : SupervisorConfig) (n : Nat) (marks : List (Mark Int)) (t : State Q) : Prop :=
  ∃ m, exec (paces cfg.toSupervisorConfig) n marks = some m ∧ Paced cfg t m

theorem Paced.tick (hpc : s.pc = .select) (h : Paced cfg.withDefaults s n)
    (hmove : TickMove cfg.withDefaults s t) (htick : t = tick cfg.withDefaults s) :
    Keeps cfg.withDefaults n (backoffs cfg s (.loop .proceed)) t := by
  simp only [Paced, hpc] at h
  obtain ⟨hbackoff, hattempts⟩ := h
  cases hmove with
  | sound streak interval valid =>
    refine ⟨0, by simp [backoffs, hpc, valid, exec, paces, pace], ?_⟩
    simp only [Paced, hpc]
    exact ⟨rfl, Int.le_refl 0⟩
  | gaveUp valid spent =>
    have hmarks : backoffs cfg s (.loop .proceed) = [] := by
      rw [backoffs_of_invalid hpc valid, ← htick]
      rfl
    exact ⟨n, by rw [hmarks]; rfl, trivial⟩
  | retried valid room =>
    have hmarks : backoffs cfg s (.loop .proceed) =
        [.wait (cfg.withDefaults.delay n).toInt] := by
      rw [backoffs_of_invalid hpc valid, ← htick, ← hbackoff]
      rfl
    refine ⟨n + 1, ?_, n, rfl, hbackoff, ?_⟩
    · rw [hmarks]
      exact paces_wait (mayRetry_iff.mpr (by omega))
    · simpa using hattempts

theorem Paced.loopMove (h : Paced cfg.withDefaults s n) {choice : Choice}
    (hmove : LoopMove cfg.withDefaults s choice t) :
    Keeps cfg.withDefaults n (backoffs cfg s (.loop choice)) t := by
  cases hmove with
  | canceled pc done => exact ⟨n, rfl, trivial⟩
  | stopped pc closed => exact ⟨n, rfl, trivial⟩
  | failed pc =>
    simp only [Paced, pc] at h
    obtain ⟨k, rfl, hbackoff, hattempts⟩ := h
    refine ⟨k + 1, rfl, ?_, hattempts⟩
    rw [delay_succ, hbackoff]
  | ticked pc move tick => exact h.tick pc move tick
  | waited pc =>
    refine ⟨n, by simp [backoffs, pc, exec], ?_⟩
    simpa only [Paced, pc] using h
  | subscribed pc =>
    refine ⟨n, by simp [backoffs, pc, exec], ?_⟩
    simp only [Paced, pc] at h ⊢
    omega
  | installed newSub pc =>
    refine ⟨n, by simp [backoffs, pc, exec], ?_⟩
    simpa only [Paced, pc] using h
  | dropped old pc =>
    simp only [Paced, pc] at h
    exact ⟨0, by simp [backoffs, pc, exec, paces, pace], rfl, h⟩
  | cleared pc => exact ⟨n, by simp [backoffs, pc, exec], trivial⟩
  | released sub pc => exact ⟨n, by simp [backoffs, pc, exec], trivial⟩

variable [DecidableEq Q]

theorem Paced.step (h : Paced cfg.withDefaults s n) {a : Act Q} (hstep : step cfg s a = some t) :
    Keeps cfg.withDefaults n (backoffs cfg s a) t := by
  cases a with
  | cancel =>
    cases hstep
    exact ⟨n, rfl, h⟩
  | validity sub valid =>
    cases hstep
    exact ⟨n, rfl, h⟩
  | loop choice => exact h.loopMove (loopStep_loopMove hstep)
  | stop q =>
    obtain ⟨hpc, hattempts, hbackoff, -⟩ := stopStep_loop hstep
    exact ⟨n, rfl, h.of_eq hpc hbackoff hattempts⟩

theorem run_keeps {acts : List (Act Q)} (h : exec (step cfg) (supervise cfg) acts = some s) :
    Keeps cfg.withDefaults 0 (outputs (step cfg) (backoffs cfg) (supervise cfg) acts) s := by
  have hstart : Keeps cfg.withDefaults 0 [] (supervise cfg : State Q) :=
    ⟨0, rfl, rfl, Int.le_refl 0⟩
  refine outputs_invariant (P := fun s out => Keeps cfg.withDefaults 0 out s) ?_ h hstart
  rintro s a t out ⟨n, hexec, hpaced⟩ hstep
  obtain ⟨m, hmarks, hnext⟩ := hpaced.step hstep
  exact ⟨m, exec_append_eq_some.mpr ⟨n, hexec, hmarks⟩, hnext⟩

-- The subscription is lost and subscribe fails each time, up to the wait after n failures.
def failing : Nat → List (Act Q)
  | 0 => [.validity 0 false, .loop .proceed]
  | n + 1 => failing n ++ [.loop .proceed, .loop .failed, .loop .proceed]

def State.lose (s : State Q) : State Q := { s with valid := Function.update s.valid 0 false }

-- The next tick of the loop, after subscribe has failed.
def State.again (cfg : SupervisorConfig) (s : State Q) : State Q :=
  { s with pc := .select, backoff := Supervisor.nextBackoff s.backoff cfg.maxBackoff }

omit [DecidableEq Q] in
theorem tick_failing (hvalid : s.sub.any s.valid = false) (hattempts : s.attempts = n)
    (hmay : cfg.mayRetry n = true) :
    (tick cfg s).pc = .waiting ∧ (tick cfg s).backoff = s.backoff ∧
      (tick cfg s).attempts = n + 1 ∧ (tick cfg s).sub.any (tick cfg s).valid = false := by
  have hroom := mayRetry_iff.mp hmay
  have hmove := tick_move cfg s
  generalize tick cfg s = t at hmove ⊢
  cases hmove with
  | sound streak interval valid => simp [hvalid] at valid
  | gaveUp valid spent => omega
  | retried valid room => exact ⟨rfl, rfl, by rw [← hattempts], hvalid⟩

-- Every tick of such a run leads to the next wait.
theorem run_failing (hmay : cfg.withDefaults.mayRetry n = true) :
    ∃ t : State Q, exec (step cfg) (supervise cfg) (failing n) = some t ∧ t.pc = .waiting ∧
      t.backoff = cfg.withDefaults.delay n ∧ t.attempts = n + 1 ∧ t.sub.any t.valid = false ∧
      outputs (step cfg) (backoffs cfg) (supervise cfg : State Q) (failing n) =
        firstWaits (fun k => (cfg.withDefaults.delay k).toInt) (n + 1) := by
  induction n with
  | zero =>
    have hlost : ((supervise cfg).lose : State Q).sub.any ((supervise cfg).lose : State Q).valid =
        false := by
      simp [State.lose, supervise]
    obtain ⟨hpc, hbackoff, hattempts, hvalid⟩ := tick_failing (n := 0) hlost rfl hmay
    refine ⟨_, rfl, hpc, hbackoff, hattempts, hvalid, ?_⟩
    have hout : outputs (step cfg) (backoffs cfg) (supervise cfg : State Q) (failing 0) =
        backoffs cfg (supervise cfg).lose (.loop .proceed) :=
      outputs_single ..
    rw [hout, backoffs_of_invalid rfl hlost, State.waits, hpc, hbackoff]
    rfl
  | succ n ih =>
    obtain ⟨t, hexec, hpc, hbackoff, hattempts, hvalid, hout⟩ :=
      ih (mayRetry_of_le hmay (Nat.le_succ n))
    obtain ⟨hnext, hsame, hmore, hstill⟩ := tick_failing (s := t.again cfg.withDefaults)
      (n := n + 1) hvalid (by exact_mod_cast hattempts) hmay
    have hturn : exec (step cfg) t [.loop .proceed, .loop .failed, .loop .proceed] =
        some (tick cfg.withDefaults (t.again cfg.withDefaults)) := by
      simp [exec, step, loopStep, hpc, State.again]
    have hdelay : (t.again cfg.withDefaults).backoff = cfg.withDefaults.delay (n + 1) := by
      rw [delay_succ, ← hbackoff]
      rfl
    refine ⟨_, exec_append_eq_some.mpr ⟨t, hexec, hturn⟩, hnext, hsame.trans hdelay,
      by exact_mod_cast hmore, hstill, ?_⟩
    have hlast : outputs (step cfg) (backoffs cfg) t
        [.loop .proceed, .loop .failed, .loop .proceed] =
          backoffs cfg (t.again cfg.withDefaults) (.loop .proceed) := by
      simp [outputs, step, loopStep, hpc, hvalid, backoffs, State.again]
    rw [failing, outputs_append _ _ hexec, hout, firstWaits_succ _ (n + 1), hlast,
      backoffs_of_invalid (s := t.again cfg.withDefaults) rfl hvalid, State.waits, hnext, hsame,
      hdelay]

-- Both loops wait for positive times within the cap that do not decrease in a series of
-- failures iff the configuration doubles.
theorem backoff_steady_iff (cfg : SupervisorConfig) :
    ((∀ (acts : List (Act Q)) (s : State Q), exec (step cfg) (supervise cfg) acts = some s →
        Steady cfg.withDefaults.maxBackoff.toInt
          (outputs (step cfg) (backoffs cfg) (supervise cfg) acts)) ↔
      cfg.withDefaults.Doubles) ∧
    ((∀ (run : Bool) (acts : List Supervisor.Runs.Act) (s : Supervisor.Runs.State),
        exec (Supervisor.Runs.step cfg.toSupervisorConfig)
          (Supervisor.Runs.start cfg.toSupervisorConfig run) acts = some s →
        Steady cfg.withDefaults.maxBackoff.toInt
          (outputs (Supervisor.Runs.step cfg.toSupervisorConfig)
            (Supervisor.Runs.backoffs cfg.toSupervisorConfig)
            (Supervisor.Runs.start cfg.toSupervisorConfig run) acts)) ↔
      cfg.withDefaults.Doubles) := by
  refine ⟨?_, Supervisor.Runs.runs_steady_iff cfg.toSupervisorConfig⟩
  have hiff := Supervisor.forall_steady_iff_doubles
    (Supervisor.withDefaults_defaulted cfg.toSupervisorConfig)
    (fun acts : List (Act Q) => ∃ s, exec (step cfg) (supervise cfg) acts = some s)
    (outputs (step cfg) (backoffs cfg) (supervise cfg))
    (fun acts ⟨s, hexec⟩ => (run_keeps hexec).imp fun _ h => h.1)
    (fun n hmay => by
      obtain ⟨t, hexec, -, -, -, -, hout⟩ := run_failing (Q := Q) hmay
      exact ⟨failing n, ⟨t, hexec⟩, hout⟩)
  simp only [forall_exists_index] at hiff
  exact hiff

-- The first wait of one minute is above the default cap, which the second one keeps to.
def slowStart : SupervisorConfig := ⟨⟨60000000000, 0, 0, false⟩, 0, 0, 0⟩

theorem backoff_unsteady :
    (∃ s : State Empty, exec (step slowStart) (supervise slowStart) (failing 1) = some s) ∧
      outputs (step slowStart) (backoffs slowStart) (supervise slowStart : State Empty)
        (failing 1) = [.wait 60000000000, .wait 30000000000] ∧
      slowStart.withDefaults.maxBackoff.toInt = 30000000000 ∧
      ¬ Steady slowStart.withDefaults.maxBackoff.toInt
        (outputs (step slowStart) (backoffs slowStart) (supervise slowStart : State Empty)
          (failing 1)) := by
  have hout : outputs (step slowStart) (backoffs slowStart) (supervise slowStart : State Empty)
      (failing 1) = [.wait 60000000000, .wait 30000000000] := by decide
  refine ⟨⟨_, rfl⟩, hout, by decide, ?_⟩
  intro hsteady
  have hfirst := hsteady.bounds 60000000000 (by rw [hout]; exact List.mem_cons_self)
  exact absurd hfirst.2 (by decide)

end NatsClient.Supervise
