import NatsClient.Lib.Budget
import NatsClient.Supervise.Moves
import NatsClient.Supervisor.Runs

namespace NatsClient.Supervise

open Lib.Machine Lib.Budget

variable {Q : Type} {cfg : SupervisorConfig} {s t : State Q} {limit : Nat} {b : Ledger}

-- How often SupervisorGiveUp has been emitted.
def State.giveUps (s : State Q) : Nat := s.events.countP fun e => e.kind = .giveUp

-- The ticks of the loop, and its calls of subscribe.
def marks (cfg : SupervisorConfig) (s : State Q) : Act Q → List Mark
  | .loop .proceed =>
    match s.pc with
    | .select =>
      if s.sub.any s.valid then [.sound]
      else [.broken (s.giveUps < (tick cfg.withDefaults s).giveUps)]
    | .waiting => [.attempt]
    | _ => []
  | _ => []

-- The attempts are those of the ledger. While the loop waits for its backoff it has counted
-- the call that comes next.
def Held (limit : Nat) (s : State Q) (b : Ledger) : Prop :=
  match s.pc with
  | .select | .subscribing | .install _ | .drop _ =>
    b.live = true ∧ s.attempts = b.used ∧ b.used ≤ limit
  | .waiting => b.live = true ∧ s.attempts = b.used + 1 ∧ b.used < limit
  | .cleanup | .release _ | .exited => True

-- Between two ticks the attempts stay.
def LoopPc.between : LoopPc → Prop
  | select | subscribing | install _ | drop _ => True
  | waiting | cleanup | release _ | exited => False

theorem held_iff (hpc : s.pc.between) :
    Held limit s b ↔ b.live = true ∧ s.attempts = b.used ∧ b.used ≤ limit := by
  unfold Held
  cases h : s.pc <;> simp_all [LoopPc.between]

theorem Held.pass (h : Held limit s b) (hs : s.pc.between) (ht : t.pc.between)
    (hattempts : t.attempts = s.attempts) : Held limit t b := by
  rw [held_iff ht, hattempts]
  exact (held_iff hs).mp h

theorem Held.of_eq (h : Held limit s b) (hpc : t.pc = s.pc) (hattempts : t.attempts = s.attempts) :
    Held limit t b := by
  unfold Held
  rw [hpc, hattempts]
  exact h

-- What a step does is within the budget.
structure Spent (cfg : SupervisorConfig) (limit : Nat) (s : State Q) (b : Ledger) (a : Act Q)
    (t : State Q) (next : Ledger) : Prop where
  spends : exec (spend limit) b (marks cfg s a) = some next
  held : Held limit t next
  giveUps : t.giveUps = s.giveUps + (marks cfg s a).count (.broken true)

theorem Spent.quiet {a : Act Q} (hmarks : marks cfg s a = []) (h : Held limit t b)
    (hups : t.giveUps = s.giveUps) : Spent cfg limit s b a t b :=
  ⟨by rw [hmarks]; rfl, h, by rw [hmarks]; exact hups⟩

theorem Spent.single {a : Act Q} {m : Mark} {next : Ledger} (hmarks : marks cfg s a = [m])
    (hspend : spend limit b m = some next) (h : Held limit t next)
    (hups : t.giveUps = s.giveUps + [m].count (.broken true)) : Spent cfg limit s b a t next :=
  ⟨by simp [hmarks, exec, hspend], h, by rw [hmarks]; exact hups⟩

theorem Held.tick (hmax : cfg.withDefaults.maxRetries = limit) (hpc : s.pc = .select)
    (h : Held limit s b) (hmove : TickMove cfg.withDefaults s t)
    (htick : t = tick cfg.withDefaults s) :
    ∃ next, Spent cfg limit s b (.loop .proceed) t next := by
  obtain ⟨hlive, hused, hle⟩ := (held_iff (hpc ▸ trivial)).mp h
  cases hmove with
  | sound streak interval valid =>
    have hmarks : marks cfg s (.loop .proceed) = [.sound] := by simp [marks, hpc, valid]
    refine ⟨_, .single hmarks (spend_sound limit hlive) ?_ rfl⟩
    simp [Held, hpc, hlive]
  | gaveUp valid spent =>
    have hmarks : marks cfg s (.loop .proceed) = [.broken true] := by
      simp [marks, hpc, valid, ← htick, State.giveUps]
    refine ⟨_, .single hmarks (spend_giveUp hlive (by omega)) trivial ?_⟩
    simp [State.giveUps]
  | retried valid room =>
    have hmarks : marks cfg s (.loop .proceed) = [.broken false] := by
      simp [marks, hpc, valid, ← htick, State.giveUps]
    have hleft : b.used < limit := by omega
    refine ⟨_, .single hmarks (spend_goOn hlive hleft) ⟨hlive, ?_, hleft⟩ ?_⟩
    · simp [hused]
    · simp [State.giveUps]

-- From the backoff the loop goes on to its call.
theorem Held.subscribe (hpc : s.pc = .waiting) (h : Held limit s b) :
    ∃ next, Spent cfg limit s b (.loop .proceed) { s with pc := .subscribing } next := by
  obtain ⟨hlive, hused, hlt⟩ : b.live = true ∧ s.attempts = b.used + 1 ∧ b.used < limit := by
    simpa only [Held, hpc] using h
  have hmarks : marks cfg s (.loop .proceed) = [.attempt] := by simp [marks, hpc]
  refine ⟨_, .single hmarks (spend_attempt hlive hlt) ?_ rfl⟩
  exact ⟨hlive, by simpa using hused, hlt⟩

theorem Held.loopMove (hmax : cfg.withDefaults.maxRetries = limit) (h : Held limit s b)
    {choice : Choice} (hmove : LoopMove cfg.withDefaults s choice t) :
    ∃ next, Spent cfg limit s b (.loop choice) t next := by
  cases hmove with
  | canceled pc done => exact ⟨b, .quiet rfl trivial rfl⟩
  | stopped pc closed => exact ⟨b, .quiet rfl trivial rfl⟩
  | failed pc => exact ⟨b, .quiet rfl (h.pass (pc ▸ trivial) trivial rfl) rfl⟩
  | ticked pc move tick => exact h.tick hmax pc move tick
  | waited pc => exact h.subscribe pc
  | subscribed pc =>
    exact ⟨b, .quiet (by simp [marks, pc]) (h.pass (pc ▸ trivial) trivial rfl) rfl⟩
  | installed newSub pc =>
    exact ⟨b, .quiet (by simp [marks, pc]) (h.pass (pc ▸ trivial) trivial rfl) rfl⟩
  | dropped old pc =>
    refine ⟨b, .quiet (by simp [marks, pc]) (h.pass (pc ▸ trivial) trivial rfl) ?_⟩
    simp [State.giveUps]
  | cleared pc => exact ⟨b, .quiet (by simp [marks, pc]) trivial rfl⟩
  | released sub pc => exact ⟨b, .quiet (by simp [marks, pc]) trivial rfl⟩

variable [DecidableEq Q]

theorem Held.step (hmax : cfg.withDefaults.maxRetries = limit) (h : Held limit s b) {a : Act Q}
    (hstep : step cfg s a = some t) : ∃ next, Spent cfg limit s b a t next := by
  cases a with
  | cancel =>
    cases hstep
    exact ⟨b, .quiet rfl h rfl⟩
  | validity sub valid =>
    cases hstep
    exact ⟨b, .quiet rfl h rfl⟩
  | loop choice => exact h.loopMove hmax (loopStep_loopMove hstep)
  | stop q =>
    obtain ⟨hpc, hattempts, -, hevents⟩ := stopStep_loop hstep
    refine ⟨b, .quiet rfl (h.of_eq hpc hattempts) ?_⟩
    rw [State.giveUps, hevents]
    rfl

-- The marks so far are a run of the budget, and count what has been emitted.
def Within (limit : Nat) (s : State Q) (out : List Mark) : Prop :=
  ∃ b, exec (spend limit) .fresh out = some b ∧ Held limit s b ∧
    s.giveUps = out.count (.broken true)

theorem Within.step (hmax : cfg.withDefaults.maxRetries = limit) {a : Act Q} {out : List Mark}
    (h : Within limit s out) (hstep : step cfg s a = some t) :
    Within limit t (out ++ marks cfg s a) := by
  obtain ⟨b, hspends, hheld, hups⟩ := h
  obtain ⟨next, hspent⟩ := hheld.step hmax hstep
  refine ⟨next, exec_append_eq_some.mpr ⟨b, hspends, hspent.spends⟩, hspent.held, ?_⟩
  rw [hspent.giveUps, hups, List.count_append]

theorem run_within (hmax : cfg.withDefaults.maxRetries = limit) {acts : List (Act Q)}
    (hrun : exec (step cfg) (supervise cfg) acts = some s) :
    Within limit s (outputs (step cfg) (marks cfg) (supervise cfg) acts) := by
  have hstart : Within limit (supervise cfg : State Q) [] :=
    ⟨.fresh, rfl, ⟨rfl, rfl, Nat.zero_le _⟩, rfl⟩
  exact outputs_invariant (fun _ _ _ _ h hstep => h.step hmax hstep) hrun hstart

-- Both loops keep to their budget. The one of a push subscription is fresh after each tick
-- that finds the subscription valid, the one of SupervisePullProcess never is.
theorem supervisor_retry_budget (cfg : SupervisorConfig) (limit : Nat)
    (hmax : cfg.withDefaults.maxRetries = limit) :
    (∀ (acts : List (Act Q)) (s : State Q),
      exec (step cfg) (supervise cfg) acts = some s →
        let seen := outputs (step cfg) (marks cfg) (supervise cfg) acts
        (∀ first stretch rest, seen = first ++ stretch ++ rest → .sound ∉ stretch →
          stretch.count .attempt ≤ limit) ∧
        (∀ first gaveUp rest, seen = first ++ .broken gaveUp :: rest →
          (gaveUp = true ↔ sinceSound first = limit)) ∧
        s.giveUps = seen.count (.broken true) ∧ s.giveUps ≤ 1 ∧
        ∀ first rest, seen = first ++ .broken true :: rest → .attempt ∉ rest) ∧
    ∀ (run : Bool) (acts : List Supervisor.Runs.Act) (s : Supervisor.Runs.State),
      exec (Supervisor.Runs.step cfg.toSupervisorConfig)
          (Supervisor.Runs.start cfg.toSupervisorConfig run) acts = some s →
        Supervisor.Runs.calls acts ≤ limit + 1 ∧
        ∀ err, s.pc = .returned (some err) → err.is .errSupervisorGiveUp = true →
          (Supervisor.Runs.failures acts = limit + 1 ∧
            Supervisor.Runs.calls acts = limit + 1) ∨
          Supervisor.Runs.HandedOn acts err := by
  constructor
  · intro acts s hrun
    obtain ⟨b, hspends, -, hups⟩ := run_within hmax hrun
    refine ⟨?_, ?_, hups, hups ▸ count_gaveUp_le hspends, ?_⟩
    · intro first stretch rest hseen hsound
      exact attempts_le (Nat.zero_le _) (hseen ▸ hspends) hsound
    · intro first gaveUp rest hseen
      exact gaveUp_iff (hseen ▸ hspends)
    · intro first rest hseen
      have hend : rest = [] := nil_of_gaveUp (hseen ▸ hspends)
      rw [hend]
      exact List.not_mem_nil
  · intro run acts s hrun
    have hcounted := Supervisor.Runs.exec_counted hmax hrun
    exact ⟨hcounted.calls_le, fun err hpc herr => hcounted.gaveUp hpc herr⟩

def retryOnce : SupervisorConfig := ⟨⟨0, 0, 1, false⟩, 0, 0, 0⟩

-- The subscription is lost, and subscribe fails.
def lost : List (Act Empty) :=
  [.validity 0 false, .loop .proceed, .loop .proceed, .loop .failed, .loop .proceed]

def refusedTwice : List Supervisor.Runs.Act :=
  let refused : Option GoError := some (.foreign "connection refused" [])
  [.call, .ran refused, .timer, .call, .ran refused]

theorem supervisor_retry_budget_once :
    ∃ (s : State Empty) (t : Supervisor.Runs.State) (err : GoError),
      exec (step retryOnce) (supervise retryOnce) lost = some s ∧
      s.giveUps = (outputs (step retryOnce) (marks retryOnce) (supervise retryOnce) lost).count
        (.broken true) ∧ s.giveUps ≤ 1 ∧
      exec (Supervisor.Runs.step retryOnce.toSupervisorConfig)
        (Supervisor.Runs.start retryOnce.toSupervisorConfig true) refusedTwice = some t ∧
      t.pc = .returned (some err) ∧ err.is .errSupervisorGiveUp = true ∧
      ((Supervisor.Runs.failures refusedTwice = 2 ∧ Supervisor.Runs.calls refusedTwice = 2) ∨
        Supervisor.Runs.HandedOn refusedTwice err) := by
  obtain ⟨hpush, hpull⟩ := supervisor_retry_budget (Q := Empty) retryOnce 1 rfl
  obtain ⟨-, -, hups, hle, -⟩ := hpush lost _ rfl
  exact ⟨_, _, _, rfl, hups, hle, rfl, rfl, rfl, (hpull true refusedTwice _ rfl).2 _ rfl rfl⟩

-- A run that has itself been given up, by a loop whose context was cancelled.
def cancelledGiveUp : GoError :=
  .join "" (.sentinel .errSupervisorGiveUp) ": " (.sentinel .canceled) ""

-- The error of a cancelled run is handed on after one failing run, whatever else it is.
theorem giveUp_handed_on :
    ∃ t : Supervisor.Runs.State,
      exec (Supervisor.Runs.step retryOnce.toSupervisorConfig)
        (Supervisor.Runs.start retryOnce.toSupervisorConfig true)
        [.call, .ran (some cancelledGiveUp)] = some t ∧
      t.pc = .returned (some cancelledGiveUp) ∧ cancelledGiveUp.is .errSupervisorGiveUp = true ∧
      Supervisor.Runs.failures [.call, .ran (some cancelledGiveUp)] = 1 ∧
      retryOnce.withDefaults.maxRetries = 1 :=
  ⟨_, rfl, rfl, rfl, rfl, rfl⟩

end NatsClient.Supervise
