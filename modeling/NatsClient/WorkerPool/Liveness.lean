import NatsClient.WorkerPool.Clients
import NatsClient.WorkerPool.Wakeup
import NatsClient.WorkerPool.Theorems
import NatsClient.Lib.Fairness

namespace NatsClient.WorkerPool

open Lib.Machine Lib.Fairness Lib.Counting

-- The threads that take part in an action.
def Act.moves {P W S : Type} : Act P W S → Thread P W S → Prop
  | .publish p _, .publisher q => p = q
  | .handoff p _, .publisher q => p = q
  | .handoff _ w, .worker v => w = v
  | .work w _, .worker v => w = v
  | .stop i, .stopper j => i = j
  | _, _ => False

-- The step of signalDrain that the thread is at.
def PubPc.stage? : PubPc → Option Stage
  | .sent stage | .left stage _ => some stage
  | _ => none

def WorkPc.stage? {P : Type} : WorkPc P → Option Stage
  | .entered stage _ _ _ | .exited stage _ => some stage
  | _ => none

def StopPc.stage? : StopPc → Option Stage
  | .cancelled stage => some stage
  | _ => none

-- The steps after which the mutex is free again.
def Stage.grip : Stage → Nat
  | .lock => 0
  | .broadcast => 2
  | .unlock => 1

def WorkPc.grip {P : Type} : WorkPc P → Nat
  | .entered stage _ _ _ | .exited stage _ => stage.grip
  | .testPublishers => 8
  | .testDepth => 7
  | .testInFlight => 6
  | .againRecv => 5
  | .againPublishers => 4
  | .againDepth => 3
  | .againInFlight => 2
  | .wait | .unlock | .unlockTo _ _ => 1
  | _ => 0

section Moves

variable {C M F P : Type} {cfg : Config C M F P} {sh sh' : Shared C M F P}

theorem grip_of_testing {pc : WorkPc P} (h : pc.testing = true) : 5 < pc.grip := by
  cases pc with
  | testPublishers => simp [WorkPc.grip]
  | testDepth => simp [WorkPc.grip]
  | testInFlight => simp [WorkPc.grip]
  | _ => cases h

theorem DrainMove.grip {pc pc' : WorkPc P} (h : DrainMove sh pc sh' pc') (hpc : 0 < pc.grip) :
    sh'.locked = false ∨ (0 < pc'.grip ∧ pc'.grip < pc.grip) := by
  cases h with
  | again htest => exact .inr ⟨Nat.succ_pos _, grip_of_testing htest⟩
  | parked => exact .inl rfl
  | unlocked => exact .inl rfl
  | foundNothing _ => cases hpc
  | sawPublishers => cases hpc
  | locked _ => cases hpc
  | woken _ => cases hpc
  | _ => exact .inr (by simp [WorkPc.grip])

theorem signal_grip {stage : Stage} {next : Option Stage}
    (h : signal sh stage = some (sh', next)) (hs : 0 < stage.grip) :
    sh'.locked = false ∨ (0 < next.elim 0 Stage.grip ∧ next.elim 0 Stage.grip < stage.grip) := by
  cases stage with
  | lock => cases hs
  | broadcast => cases h; exact .inr (by decide)
  | unlock => cases h; exact .inl rfl

-- A broadcast calls up every ticket.
theorem signal_broadcast {next : Option Stage} (h : signal sh .broadcast = some (sh', next)) :
    sh'.notified = sh'.waits := by
  cases h
  rfl

theorem signal_lock_next {next : Option Stage} (h : signal sh .lock = some (sh', next)) :
    next = some .broadcast := by
  unfold signal at h
  split_ifs at h
  cases h
  rfl

theorem WorkTurn.grip {pc pc' : WorkPc P} (h : WorkTurn cfg sh pc sh' pc') (hpc : 0 < pc.grip) :
    sh'.locked = false ∨ (0 < pc'.grip ∧ pc'.grip < pc.grip) := by
  cases h.move with
  | received hin hr =>
    cases pc with
    | select => cases hpc
    | tryRecv => cases hpc
    | againRecv =>
      cases hr
      exact .inr (by simp [WorkPc.grip])
    | _ => cases hr
  | @signalled _ _ next _ _ _ hs =>
    refine (signal_grip hs hpc).imp_right fun hlt => ?_
    cases next <;> exact hlt
  | @returned _ _ next back hs =>
    refine (signal_grip hs hpc).imp_right fun hlt => ?_
    cases next with
    | none => exact absurd hlt.1 (by decide)
    | some stage => exact hlt
  | unlocked => exact .inl rfl
  | drained _ hd hd' _ => exact (h.drain hd hd').grip hpc
  | _ => cases hpc

-- A thread inside signalDrain takes its next step.
theorem pub_stage_step {p : P} {pc pc' : PubPc} {stage : Stage} (hpc : pc.stage? = some stage)
    (h : PubMove cfg sh p pc sh' pc') :
    ∃ next, signal sh stage = some (sh', next) ∧
      ∀ stage', next = some stage' → pc'.stage? = some stage' := by
  cases h with
  | @signalled _ _ next h =>
    cases hpc
    exact ⟨next, h, fun stage' he => by rw [he]; rfl⟩
  | @finished _ _ next result h =>
    cases hpc
    exact ⟨next, h, fun stage' he => by rw [he]; rfl⟩
  | _ => cases hpc

theorem no_stage_of_drains {pc : WorkPc P} (h : pc.drains = true) : pc.stage? = none := by
  cases pc <;> first | rfl | cases h

theorem no_stage_of_received {pc pc' : WorkPc P} {r : Nat} {p : P}
    (h : received pc r p = some pc') : pc.stage? = none := by
  cases pc <;> first | rfl | cases h

theorem work_stage_step {pc pc' : WorkPc P} {stage : Stage} (hpc : pc.stage? = some stage)
    (h : WorkMove cfg sh pc sh' pc') :
    ∃ next, signal sh stage = some (sh', next) ∧
      ∀ stage', next = some stage' → pc'.stage? = some stage' := by
  cases h with
  | received hin hr => cases pc <;> cases hr <;> cases hpc
  | @signalled _ _ next _ _ _ h =>
    cases hpc
    exact ⟨next, h, fun stage' he => by rw [he]; rfl⟩
  | @returned _ _ next back h =>
    cases hpc
    exact ⟨next, h, fun stage' he => by rw [he]; rfl⟩
  | drained _ hd _ _ =>
    rw [no_stage_of_drains hd] at hpc
    cases hpc
  | _ => cases hpc

theorem stop_stage_step {pc pc' : StopPc} {stage : Stage} (hpc : pc.stage? = some stage)
    (h : StopMove sh pc sh' pc') :
    ∃ next, signal sh stage = some (sh', next) ∧
      ∀ stage', next = some stage' → pc'.stage? = some stage' := by
  cases h with
  | @signalled _ _ next h =>
    cases hpc
    exact ⟨next, h, fun stage' he => by rw [he]; rfl⟩
  | _ => cases hpc

-- A worker that holds the mutex inside the loop of drain can go on.
theorem workStep_enabled {pc : WorkPc P} (hpc : 0 < pc.grip) (hs : pc.stage? = none) :
    ∃ choice next, workStep cfg sh pc choice = some next := by
  cases pc with
  | againRecv =>
    cases hin : sh.input with
    | nil => exact ⟨.giveUp, _, by simp only [workStep, hin, if_true]; rfl⟩
    | cons task rest => exact ⟨.go, _, by simp only [workStep, hin]; rfl⟩
  | _ => first | exact ⟨.go, _, rfl⟩ | cases hpc | cases hs

theorem WorkTurn.wakes {pc pc' : WorkPc P} {ticket : Nat} (h : WorkTurn cfg sh pc sh' pc')
    (hpc : pc = .parked ticket) : pc' = .lock := by
  subst hpc
  cases h.move with
  | received hin hr => cases hr
  | drained _ hd hd' _ =>
    cases h.drain hd hd' with
    | again htest => cases htest
    | woken _ => rfl

theorem WorkTurn.enters {pc pc' : WorkPc P} {r : Nat} {p : P} {back : Back}
    (h : WorkTurn cfg sh pc sh' pc') (hpc : pc = .enter r p back) : pc'.stage? = some .lock := by
  subst hpc
  cases h.move with
  | received hin hr => cases hr
  | entered => rfl
  | drained _ hd _ _ => cases hd

theorem PubPc.stage_of_owes {pc : PubPc} (h : pc.owes = true) (hnot : ¬ pc.counted = 1) :
    pc.stage? = some .lock ∨ pc.stage? = some .broadcast := by
  cases pc with
  | left stage result =>
    cases stage with
    | lock => exact .inl rfl
    | broadcast => exact .inr rfl
    | unlock => cases h
  | idle => cases h
  | done result => cases h
  | _ => exact absurd rfl hnot

theorem WorkPc.stage_of_owes {pc : WorkPc P} (h : pc.owes = true) (hidle : ¬ pc.queued = 1)
    (hquiet : ¬ pc.running = 1) :
    (∃ r p back, pc = .enter r p back) ∨
      pc.stage? = some .lock ∨ pc.stage? = some .broadcast := by
  cases pc with
  | enter r p back => exact .inl ⟨r, p, back, rfl⟩
  | exited stage back =>
    cases stage with
    | lock => exact .inr (.inl rfl)
    | broadcast => exact .inr (.inr rfl)
    | unlock => cases h
  | _ => first | exact absurd rfl hidle | exact absurd rfl hquiet | cases h

end Moves

variable {C M F P W S : Type} {cfg : Config C M F P} {s t : State C M F P W S} {a : Act P W S}

def State.stage? (s : State C M F P W S) : Thread P W S → Option Stage
  | .publisher p => (s.pub p).stage?
  | .worker w => (s.work w).stage?
  | .stopper i => (s.stop i).stage?

def State.grip (s : State C M F P W S) : Thread P W S → Nat
  | .publisher p => (s.pub p).stage?.elim 0 Stage.grip
  | .worker w => (s.work w).grip
  | .stopper i => (s.stop i).stage?.elim 0 Stage.grip

theorem Stage.grip_pos {stage : Stage} (h : stage.holdsLock = true) : 0 < stage.grip := by
  cases stage <;> first | decide | cases h

theorem grip_pos_of_holds {x : Thread P W S} (h : s.holds x = true) : 0 < s.grip x := by
  cases x with
  | publisher p =>
    simp only [State.holds, State.grip] at h ⊢
    cases hpc : s.pub p with
    | sent stage => rw [hpc] at h; exact Stage.grip_pos h
    | left stage result => rw [hpc] at h; exact Stage.grip_pos h
    | _ => rw [hpc] at h; cases h
  | worker w =>
    simp only [State.holds, State.grip] at h ⊢
    cases hpc : s.work w with
    | entered stage r p back => rw [hpc] at h; exact Stage.grip_pos h
    | exited stage back => rw [hpc] at h; exact Stage.grip_pos h
    | _ => rw [hpc] at h; first | exact Nat.succ_pos _ | cases h
  | stopper i =>
    simp only [State.holds, State.grip] at h ⊢
    cases hpc : s.stop i with
    | cancelled stage => rw [hpc] at h; exact Stage.grip_pos h
    | _ => rw [hpc] at h; cases h

theorem grip_of_stage {x : Thread P W S} {stage : Stage} (h : s.stage? x = some stage) :
    s.grip x = stage.grip := by
  cases x with
  | publisher p => rw [State.grip, show (s.pub p).stage? = some stage from h]; rfl
  | stopper i => rw [State.grip, show (s.stop i).stage? = some stage from h]; rfl
  | worker w =>
    have hw : (s.work w).stage? = some stage := h
    rw [State.grip]
    cases hpc : s.work w <;> rw [hpc] at hw <;> cases hw <;> rfl

theorem Held.exists_holder (hs : Held s) (hl : s.shared.locked = true) :
    ∃ x : Thread P W S, s.holds x = true := by
  rcases hs hl with ⟨p, hp⟩ | ⟨w, hw⟩ | ⟨i, hi⟩
  · exact ⟨.publisher p, hp⟩
  · exact ⟨.worker w, hw⟩
  · exact ⟨.stopper i, hi⟩

variable [DecidableEq P] [DecidableEq W] [DecidableEq S]

section Frame

-- An action leaves the other workers and calls of GracefulStop where they are.
theorem step_others (h : step cfg s a = some t) :
    (∀ w, ¬ a.moves (.worker w) → t.work w = s.work w) ∧
      ∀ i, ¬ a.moves (.stopper i) → t.stop i = s.stop i := by
  cases a with
  | publish p choice =>
    obtain ⟨next, -, rfl⟩ := Option.map_eq_some_iff.mp h
    exact ⟨fun _ _ => rfl, fun _ _ => rfl⟩
  | work v choice =>
    obtain ⟨next, -, rfl⟩ := Option.map_eq_some_iff.mp h
    exact ⟨fun w ha => Function.update_of_ne (fun he => ha he.symm) _ _, fun _ _ => rfl⟩
  | handoff p v =>
    simp only [step, handoffStep] at h
    split at h
    · split_ifs at h
      obtain ⟨next, -, rfl⟩ := Option.map_eq_some_iff.mp h
      exact ⟨fun w ha => Function.update_of_ne (fun he => ha he.symm) _ _, fun _ _ => rfl⟩
    · cases h
  | stop j =>
    obtain ⟨next, -, rfl⟩ := Option.map_eq_some_iff.mp h
    exact ⟨fun _ _ => rfl, fun i ha => Function.update_of_ne (fun he => ha he.symm) _ _⟩
  | cancelCaller p err =>
    simp only [step] at h
    split_ifs at h
    cases h
    exact ⟨fun _ _ => rfl, fun _ _ => rfl⟩
  | cancelParent err =>
    cases h
    exact ⟨fun _ _ => rfl, fun _ _ => rfl⟩

theorem step_work_of_not_moves (h : step cfg s a = some t) {w : W} (ha : ¬ a.moves (.worker w)) :
    t.work w = s.work w :=
  (step_others h).1 w ha

theorem step_stop_of_not_moves (h : step cfg s a = some t) {i : S} (ha : ¬ a.moves (.stopper i)) :
    t.stop i = s.stop i :=
  (step_others h).2 i ha

theorem step_pub_of_not_moves (h : step cfg s a = some t) {p : P} (ha : ¬ a.moves (.publisher p)) :
    t.pub p = s.pub p := by
  refine step_pub_of_ne h fun hp => ha ?_
  cases a with
  | publish q choice => exact Option.some.inj hp
  | handoff q w => exact Option.some.inj hp
  | _ => cases hp

theorem stage_of_not_moves (h : step cfg s a = some t) {x : Thread P W S} (ha : ¬ a.moves x) :
    t.stage? x = s.stage? x := by
  cases x with
  | publisher p => exact congrArg PubPc.stage? (step_pub_of_not_moves h ha)
  | worker w => exact congrArg WorkPc.stage? (step_work_of_not_moves h ha)
  | stopper i => exact congrArg StopPc.stage? (step_stop_of_not_moves h ha)

theorem grip_of_not_moves (h : step cfg s a = some t) {x : Thread P W S} (ha : ¬ a.moves x) :
    t.grip x = s.grip x := by
  cases x with
  | publisher p => simp only [State.grip, step_pub_of_not_moves h ha]
  | worker w => simp only [State.grip, step_work_of_not_moves h ha]
  | stopper i => simp only [State.grip, step_stop_of_not_moves h ha]

end Frame

-- The step of a worker; in a handoff it receives what is not in the channel.
theorem step_worker (h : step cfg s a = some t) {w : W} (ha : a.moves (.worker w)) :
    ∃ input, WorkTurn cfg { s.shared with input := input } (s.work w) t.shared (t.work w) := by
  cases a with
  | work v choice =>
    cases ha
    obtain ⟨next, hnext, rfl⟩ := Option.map_eq_some_iff.mp h
    exact ⟨s.shared.input, by simpa [State.setWork] using workStep_turn hnext⟩
  | handoff p v =>
    cases ha
    simp only [step, handoffStep] at h
    split at h
    · next r hpub =>
      split_ifs at h with hcond
      obtain ⟨next, hnext, rfl⟩ := Option.map_eq_some_iff.mp h
      have hsh : { s.shared with input := [] } = s.shared := by rw [← hcond.2.1]
      refine ⟨[(r, p)], ?_⟩
      have hturn : WorkTurn cfg { s.shared with input := [(r, p)] } (s.work w)
          { s.shared with input := [] } next := turn_of_received rfl hnext
      rw [hsh] at hturn
      simpa [State.setWork, State.setPub] using hturn
    · cases h
  | _ => cases ha

-- A thread inside signalDrain takes its next step.
theorem stage_step (h : step cfg s a = some t) {x : Thread P W S} (ha : a.moves x) {stage : Stage}
    (hx : s.stage? x = some stage) :
    ∃ next, signal s.shared stage = some (t.shared, next) ∧
      ∀ stage', next = some stage' → t.stage? x = some stage' := by
  cases x with
  | publisher p =>
    cases a with
    | publish q choice =>
      cases ha
      obtain ⟨⟨sh', pc'⟩, hnext, rfl⟩ := Option.map_eq_some_iff.mp h
      have hself : (s.setPub p (sh', pc')).pub p = pc' := Function.update_self _ _ _
      obtain ⟨next, hs, hpc'⟩ := pub_stage_step hx (pubStep_move hnext)
      exact ⟨next, hs, fun stage' he => by rw [State.stage?, hself]; exact hpc' stage' he⟩
    | handoff q w =>
      cases ha
      simp only [step, handoffStep] at h
      split at h
      · next r hpub =>
        rw [State.stage?, hpub] at hx
        cases hx
      · cases h
    | _ => cases ha
  | worker w =>
    cases a with
    | work v choice =>
      cases ha
      obtain ⟨⟨sh', pc'⟩, hnext, rfl⟩ := Option.map_eq_some_iff.mp h
      have hself : (s.setWork w (sh', pc')).work w = pc' := Function.update_self _ _ _
      obtain ⟨next, hs, hpc'⟩ := work_stage_step hx (workStep_move hnext)
      exact ⟨next, hs, fun stage' he => by rw [State.stage?, hself]; exact hpc' stage' he⟩
    | handoff q v =>
      cases ha
      simp only [step, handoffStep] at h
      split at h
      · split_ifs at h
        obtain ⟨next, hnext, rfl⟩ := Option.map_eq_some_iff.mp h
        rw [State.stage?, no_stage_of_received hnext] at hx
        cases hx
      · cases h
    | _ => cases ha
  | stopper i =>
    cases a with
    | stop j =>
      cases ha
      obtain ⟨⟨sh', pc'⟩, hnext, rfl⟩ := Option.map_eq_some_iff.mp h
      have hself : (s.setStop i (sh', pc')).stop i = pc' := Function.update_self _ _ _
      obtain ⟨next, hs, hpc'⟩ := stop_stage_step hx (stopStep_move hnext)
      exact ⟨next, hs, fun stage' he => by rw [State.stage?, hself]; exact hpc' stage' he⟩
    | _ => cases ha

omit [DecidableEq P] [DecidableEq W] [DecidableEq S] in
theorem signal_enabled {stage : Stage} (hl : stage = .lock → s.shared.locked = false) :
    ∃ sh' next, signal s.shared stage = some (sh', next) := by
  cases stage with
  | lock => exact ⟨_, _, by simp [signal, hl rfl]; exact ⟨rfl, rfl⟩⟩
  | broadcast => exact ⟨_, _, rfl⟩
  | unlock => exact ⟨_, _, rfl⟩

theorem stage_enabled {x : Thread P W S} {stage : Stage} (hx : s.stage? x = some stage)
    (hl : stage = .lock → s.shared.locked = false) : Enabled (step cfg) Act.moves s x := by
  obtain ⟨sh', next, hs⟩ := signal_enabled hl
  cases x with
  | publisher p =>
    have hx' : (s.pub p).stage? = some stage := hx
    refine ⟨.publish p .go, ?_⟩
    cases hpc : s.pub p <;> rw [hpc] at hx' <;> cases hx' <;>
      exact ⟨_, rfl, by simp only [step, hpc, pubStep, hs]; rfl⟩
  | worker w =>
    have hx' : (s.work w).stage? = some stage := hx
    refine ⟨.work w .go, ?_⟩
    cases hpc : s.work w <;> rw [hpc] at hx' <;> cases hx' <;>
      exact ⟨_, rfl, by simp only [step, hpc, workStep, hs]; rfl⟩
  | stopper i =>
    have hx' : (s.stop i).stage? = some stage := hx
    refine ⟨.stop i, ?_⟩
    cases hpc : s.stop i with
    | cancelled _ =>
      rw [hpc] at hx'
      cases hx'
      exact ⟨_, rfl, by simp only [step, hpc, stopStep, hs]; rfl⟩
    | _ =>
      rw [hpc] at hx'
      cases hx'

-- Whoever holds the mutex can go on.
theorem grip_enabled {x : Thread P W S} (hx : 0 < s.grip x) : Enabled (step cfg) Act.moves s x := by
  cases hstage : s.stage? x with
  | some stage =>
    refine stage_enabled hstage fun he => ?_
    rw [grip_of_stage hstage, he] at hx
    cases hx
  | none =>
    cases x with
    | worker w =>
      obtain ⟨choice, next, hnext⟩ :
          ∃ choice next, workStep cfg s.shared (s.work w) choice = some next :=
        workStep_enabled hx hstage
      exact ⟨.work w choice, s.setWork w next, rfl, by simp only [step, hnext]; rfl⟩
    | publisher p =>
      rw [State.grip, show (s.pub p).stage? = none from hstage] at hx
      cases hx
    | stopper i =>
      rw [State.grip, show (s.stop i).stage? = none from hstage] at hx
      cases hx

-- and comes closer to giving it back.
theorem grip_step (h : step cfg s a = some t) {x : Thread P W S} (ha : a.moves x)
    (hx : 0 < s.grip x) : t.shared.locked = false ∨ (0 < t.grip x ∧ t.grip x < s.grip x) := by
  cases hstage : s.stage? x with
  | some stage =>
    obtain ⟨next, hs, hnext⟩ := stage_step h ha hstage
    rw [grip_of_stage hstage] at hx ⊢
    refine (signal_grip hs hx).imp_right fun hlt => ?_
    cases next with
    | none => exact absurd hlt.1 (by decide)
    | some stage' =>
      rw [grip_of_stage (hnext stage' rfl)]
      exact hlt
  | none =>
    cases x with
    | worker w =>
      obtain ⟨input, hturn⟩ := step_worker h ha
      exact hturn.grip hx
    | publisher p =>
      rw [State.grip, show (s.pub p).stage? = none from hstage] at hx
      cases hx
    | stopper i =>
      rw [State.grip, show (s.stop i).stage? = none from hstage] at hx
      cases hx

theorem Live.step (hs : Live s) (h : step cfg s a = some t) : Live t :=
  step_keeps (fun _ _ he hs => hs.event he) h hs

-- A ticket that has been called up stays so.
theorem step_called {ticket : Nat} (h : step cfg s a = some t)
    (hs : ticket < s.shared.notified ∧ ticket < s.shared.waits) :
    ticket < t.shared.notified ∧ ticket < t.shared.waits := by
  refine step_keeps (I := fun s => ticket < s.shared.notified ∧ ticket < s.shared.waits)
    (fun s t he hs => ?_) h hs
  cases he.called with
  | none hn hw => omega
  | all hn hw => omega

-- Nobody can move once all calls and workers are through.
theorem not_enabled_of_over (hpub : ∀ p, ∃ result, s.pub p = .done result)
    (hwork : ∀ w, s.work w = .gone) (hstop : ∀ i, s.stop i = .returned) (x : Thread P W S) :
    ¬ Enabled (step cfg) Act.moves s x := by
  rintro ⟨a, t, ha, h⟩
  cases x with
  | worker w =>
    obtain ⟨input, hturn⟩ := step_worker h ha
    exact hturn.move.not_gone (hwork w)
  | publisher p =>
    obtain ⟨result, hp⟩ := hpub p
    cases a with
    | publish q choice =>
      cases ha
      obtain ⟨next, hnext, rfl⟩ := Option.map_eq_some_iff.mp h
      have hmove := pubStep_move hnext
      rw [hp] at hmove
      exact hmove.not_done
    | handoff q w =>
      cases ha
      simp only [step, handoffStep, hp] at h
      cases h
    | _ => cases ha
  | stopper i =>
    cases a with
    | stop j =>
      cases ha
      simp only [step, hstop, stopStep] at h
      cases h
    | _ => cases ha

section Run

variable {run : Run (step (W := W) (S := S) cfg)}

-- The mutex is free again and again.
theorem exists_unlocked_later (hfair : run.Fair Act.moves)
    (hheld : ∀ n, Held (run.state n)) (n : Nat) : ∃ m ≥ n, (run.state m).shared.locked = false := by
  have hrelease (k : Nat) : ∀ n (x : Thread P W S), (run.state n).grip x ≤ k →
      0 < (run.state n).grip x → ∃ m ≥ n, (run.state m).shared.locked = false := by
    induction k with
    | zero => intro n x hk hpos; omega
    | succ k ih =>
      intro n x hk hpos
      obtain ⟨m, hm, hgrip, a, ha, hstep⟩ := hfair.exists_move (i := x)
        (Q := fun s => s.grip x = (run.state n).grip x) rfl
        (fun m a t hq ha hstep => (grip_of_not_moves hstep ha).trans hq)
        (fun hall m hm => ⟨m, le_rfl, grip_enabled ((hall m hm).symm ▸ hpos)⟩)
      rcases grip_step hstep ha (hgrip.symm ▸ hpos) with hfree | ⟨hpos', hlt⟩
      · exact ⟨m + 1, by omega, hfree⟩
      · obtain ⟨l, hl, hfree⟩ := ih (m + 1) x (by omega) hpos'
        exact ⟨l, by omega, hfree⟩
  cases hl : (run.state n).shared.locked with
  | false => exact ⟨n, le_rfl, hl⟩
  | true =>
    obtain ⟨x, hx⟩ := (hheld n).exists_holder hl
    exact hrelease _ n x le_rfl (grip_pos_of_holds hx)

-- Whoever is about to lock or to broadcast in signalDrain does broadcast.
theorem exists_broadcast (hfair : run.Fair Act.moves) (hheld : ∀ n, Held (run.state n)) {n : Nat}
    {x : Thread P W S}
    (hx : (run.state n).stage? x = some .lock ∨ (run.state n).stage? x = some .broadcast) :
    ∃ m ≥ n, (run.state m).shared.notified = (run.state m).shared.waits := by
  have hbroadcast (n : Nat) (hx : (run.state n).stage? x = some .broadcast) :
      ∃ m ≥ n, (run.state m).shared.notified = (run.state m).shared.waits := by
    obtain ⟨m, hm, hstage, a, ha, hstep⟩ := hfair.exists_move (i := x)
      (Q := fun s => s.stage? x = some .broadcast) hx
      (fun m a t hq ha hstep => (stage_of_not_moves hstep ha).trans hq)
      (fun hall m hm => ⟨m, le_rfl, stage_enabled (hall m hm) fun he => by cases he⟩)
    obtain ⟨next, hs, -⟩ := stage_step hstep ha hstage
    exact ⟨m + 1, by omega, signal_broadcast hs⟩
  rcases hx with hlock | hdone
  · obtain ⟨m, hm, hstage, a, ha, hstep⟩ := hfair.exists_move (i := x)
      (Q := fun s => s.stage? x = some .lock) hlock
      (fun m a t hq ha hstep => (stage_of_not_moves hstep ha).trans hq)
      (fun hall m hm => by
        obtain ⟨l, hl, hfree⟩ := exists_unlocked_later hfair hheld m
        exact ⟨l, hl, stage_enabled (hall l (hm.trans hl)) fun _ => hfree⟩)
    obtain ⟨next, hs, hnext⟩ := stage_step hstep ha hstage
    obtain ⟨l, hl, hdone⟩ := hbroadcast (m + 1) (hnext _ (signal_lock_next hs))
    exact ⟨l, by omega, hdone⟩
  · exact hbroadcast n hdone

-- A worker stays parked until it is about to take the mutex again.
theorem parked_or_woken {w : W} {ticket : Nat} (hw : (run.state 0).work w = .parked ticket)
    (n : Nat) : (run.state n).work w = .parked ticket ∨ ∃ m, (run.state m).work w = .lock := by
  induction n with
  | zero => exact .inl hw
  | succ n ih =>
    rcases ih with hparked | hwoken
    · have hn := run.next n
      cases ha : run.act n with
      | none =>
        rw [ha] at hn
        exact .inl (Option.some.inj hn ▸ hparked)
      | some a =>
        have hstep := run.next_of_act ha
        by_cases hmoves : a.moves (.worker w)
        · obtain ⟨input, hturn⟩ := step_worker hstep hmoves
          exact .inr ⟨n + 1, hturn.wakes hparked⟩
        · exact .inl ((step_work_of_not_moves hstep hmoves).trans hparked)
    · exact .inr hwoken

-- A worker whose ticket is called up goes on.
theorem exists_woken_of_called (hfair : run.Fair Act.moves) {w : W} {ticket n : Nat}
    (hw : (run.state n).work w = .parked ticket) (hn : ticket < (run.state n).shared.notified)
    (hwaits : ticket < (run.state n).shared.waits) : ∃ m, (run.state m).work w = .lock := by
  obtain ⟨m, hm, ⟨hparked, -⟩, a, ha, hstep⟩ := hfair.exists_move (i := .worker w)
    (Q := fun s => s.work w = .parked ticket ∧ ticket < s.shared.notified ∧
      ticket < s.shared.waits) ⟨hw, hn, hwaits⟩
    (fun m a t hq ha hstep =>
      ⟨(step_work_of_not_moves hstep ha).trans hq.1, step_called hstep hq.2⟩)
    (fun hall m hm => by
      obtain ⟨hparked, hcalled, -⟩ := hall m hm
      exact ⟨m, le_rfl, .work w .go, _, rfl, by simp [step, hparked, workStep, hcalled]; rfl⟩)
  obtain ⟨input, hturn⟩ := step_worker hstep ha
  exact ⟨m + 1, hturn.wakes hparked⟩

-- With all counters at zero the broadcast that a parked worker waits for is near.
theorem exists_call (hfair : run.Fair Act.moves) (hlive : ∀ n, Live (run.state n)) {w : W}
    (hpublishers : (run.state 0).shared.publishers = 0) (hdepth : (run.state 0).shared.depth = 0)
    (hinFlight : (run.state 0).shared.inFlight = 0) (hpend : Pending (run.state 0) w) :
    ∃ m, (run.state m).shared.notified = (run.state m).shared.waits := by
  have hheld (n : Nat) : Held (run.state n) := (hlive n).held
  have ht := (hlive 0).tally
  rcases hpend with ⟨p, hp⟩ | ⟨v, -, hv⟩
  · have hnot := (hpublishers ▸ ht.publishers).eq_zero p
    obtain ⟨m, -, hcall⟩ := exists_broadcast hfair hheld (x := .publisher p)
      (PubPc.stage_of_owes hp hnot)
    exact ⟨m, hcall⟩
  · have hidle := ht.taking_eq_zero hdepth v
    have hquiet := (hinFlight ▸ ht.inFlight).eq_zero v
    rcases WorkPc.stage_of_owes hv hidle hquiet with ⟨r, p, back, hpc⟩ | hstage
    · obtain ⟨m, -, hpc', a, ha, hstep⟩ := hfair.exists_move (i := .worker v)
        (Q := fun s => s.work v = .enter r p back) hpc
        (fun m a t hq ha hstep => (step_work_of_not_moves hstep ha).trans hq)
        (fun hall m hm => ⟨m, le_rfl, .work v .go, _, rfl, by
          simp only [step, hall m hm, workStep]; rfl⟩)
      obtain ⟨input, hturn⟩ := step_worker hstep ha
      obtain ⟨l, -, hcall⟩ := exists_broadcast hfair hheld (n := m + 1) (x := .worker v)
        (.inl (hturn.enters hpc'))
      exact ⟨l, hcall⟩
    · obtain ⟨m, -, hcall⟩ := exists_broadcast hfair hheld (x := .worker v) hstage
      exact ⟨m, hcall⟩

theorem exists_woken (hfair : run.Fair Act.moves) (hstart : Live (run.state 0)) {w : W}
    {ticket : Nat} (hpublishers : (run.state 0).shared.publishers = 0)
    (hdepth : (run.state 0).shared.depth = 0) (hinFlight : (run.state 0).shared.inFlight = 0)
    (hw : (run.state 0).work w = .parked ticket) : ∃ m, (run.state m).work w = .lock := by
  have hlive := run.invariant (P := Live) (fun _ _ _ hs h => hs.step h) hstart
  by_cases hn : ticket < (run.state 0).shared.notified
  · exact exists_woken_of_called hfair hw hn (hstart.waking.ticket w ticket hw)
  · obtain ⟨m, hcall⟩ := exists_call hfair hlive hpublishers hdepth hinFlight
      (hstart.waking.parked w ticket hw (by omega))
    rcases parked_or_woken hw m with hparked | hwoken
    · have hwaits := (hlive m).waking.ticket w ticket hparked
      exact exists_woken_of_called hfair hparked (by omega) hwaits
    · exact hwoken

end Run

-- In every reachable state, whoever cancels the context of the pool, the counters are the
-- numbers of threads at the places between their updates, and a worker whose ticket has not
-- been called up has a broadcast ahead of it. With all counters at zero it wakes up in every
-- run in which no thread that can move again and again is passed over forever.
theorem drain_no_lost_wakeup (workerPoolLen : Int)
    {s : State C M F P (Fin (poolLen workerPoolLen)) S}
    (h : Reaches (step cfg) (initial (poolLen workerPoolLen)) s) :
    (∃ sending taking : Int, Counts sending (fun p => (s.pub p).queued = 1) ∧
      Counts taking (fun w => (s.work w).queued = 1) ∧
      s.shared.depth = s.shared.input.length + sending + taking) ∧
    Counts s.shared.inFlight (fun w => (s.work w).running = 1) ∧
    (0 ≤ s.shared.depth ∧ 0 ≤ s.shared.inFlight ∧ 0 ≤ s.shared.publishers) ∧
    (∀ w ticket, s.work w = .parked ticket → s.shared.notified ≤ ticket → Pending s w) ∧
    ∀ run : Run (step cfg), run.state 0 = s → run.Fair Act.moves →
      s.shared.publishers = 0 → s.shared.depth = 0 → s.shared.inFlight = 0 →
      ∀ w ticket, s.work w = .parked ticket → ∃ n, (run.state n).work w = .lock := by
  have hlive : Live s := h.invariant (fun _ _ _ hs h => hs.step h) live_initial
  refine ⟨hlive.tally.depth, hlive.tally.inFlight, ⟨hlive.tally.depth_nonneg,
    hlive.tally.inFlight.nonneg, hlive.tally.publishers.nonneg⟩, hlive.waking.parked, ?_⟩
  rintro run rfl hfair hpublishers hdepth hinFlight w ticket hw
  exact exists_woken hfair hlive hpublishers hdepth hinFlight hw

-- No buffer and one worker, which looks for work while a call is under way that then
-- gives up.
def unbuffered : Config Unit Unit Unit Unit where
  capacity := 0
  registerFn := some ()
  request _ := ⟨(), (), false, none, true⟩

def parkDuringCall : List (Act Unit (Fin (poolLen 1)) Empty) :=
  [Act.publish () .go, Act.cancelParent (.sentinel .canceled), Act.work onlyWorker .poolDone,
    Act.work onlyWorker .giveUp] ++ List.replicate 3 (Act.work onlyWorker .go) ++
    [Act.work onlyWorker .giveUp, Act.work onlyWorker .go, Act.work onlyWorker .go] ++
    List.replicate 4 (Act.publish () .go) ++ [Act.publish () .giveUp] ++
    List.replicate 3 (Act.publish () .go)

def signalThenLeave : List (Act Unit (Fin (poolLen 1)) Empty) :=
  List.replicate 3 (Act.publish () .go) ++ List.replicate 6 (Act.work onlyWorker .go) ++
    [Act.work onlyWorker .giveUp] ++ List.replicate 4 (Act.work onlyWorker .go)

theorem drain_no_lost_wakeup_rejectedCall :
    ∃ (s : State Unit Unit Unit Unit (Fin (poolLen 1)) Empty) (run : Run (step unbuffered)),
      Reaches (step unbuffered) (initial (poolLen 1)) s ∧ s.work onlyWorker = .parked 0 ∧
        Pending s onlyWorker ∧ run.state 0 = s ∧ run.Fair Act.moves ∧
        ∃ n, (run.state n).work onlyWorker = .lock := by
  obtain ⟨s, hs, hparked, hnotified, hpublishers, hdepth, hinFlight, t, ht, hpub, hwork⟩ :
      ∃ s : State Unit Unit Unit Unit (Fin (poolLen 1)) Empty,
        exec (step unbuffered) (initial (poolLen 1)) parkDuringCall = some s ∧
          s.work onlyWorker = .parked 0 ∧ s.shared.notified = 0 ∧ s.shared.publishers = 0 ∧
          s.shared.depth = 0 ∧ s.shared.inFlight = 0 ∧
          ∃ t, exec (step unbuffered) s signalThenLeave = some t ∧
            t.pub () = .done .rejected ∧ t.work onlyWorker = .gone :=
    ⟨_, rfl, rfl, rfl, rfl, rfl, rfl, _, rfl, rfl, rfl⟩
  have hfair : (Run.ofExec ht).Fair Act.moves := by
    refine Run.ofExec_fair ht
      (not_enabled_of_over (fun _ => ⟨_, hpub⟩) (fun w => ?_) fun i => i.elim)
    obtain rfl : w = onlyWorker := Fin.fin_one_eq_zero w
    exact hwork
  obtain ⟨-, -, -, hpend, hwake⟩ := drain_no_lost_wakeup 1 ⟨parkDuringCall, hs⟩
  exact ⟨s, Run.ofExec ht, ⟨parkDuringCall, hs⟩, hparked, hpend _ 0 hparked (by omega), rfl, hfair,
    hwake (Run.ofExec ht) rfl hfair hpublishers hdepth hinFlight _ 0 hparked⟩

end NatsClient.WorkerPool
