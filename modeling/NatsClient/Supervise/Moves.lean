import NatsClient.Supervise

namespace NatsClient.Supervise

variable {Q : Type} {cfg : SupervisorConfig} {s t : State Q}

-- The loop holds no subscription and has not left.
def LoopPc.calm : LoopPc → Prop
  | select | waiting | subscribing => True
  | _ => False

-- The subscription in the hands of the loop.
def LoopPc.held : LoopPc → Option Nat
  | install newSub => some newSub
  | drop old => old
  | release sub => sub
  | _ => none

theorem LoopPc.calm.held_eq {pc : LoopPc} (h : pc.calm) : pc.held = none := by
  cases pc <;> first | rfl | exact h.elim

theorem LoopPc.held_eq_none {pc : LoopPc} (h : pc.calm ∨ pc = .cleanup) : pc.held = none := by
  obtain h | rfl := h
  · exact h.held_eq
  · rfl

@[simp] theorem LoopPc.held_exited : LoopPc.exited.held = none := rfl

@[simp] theorem LoopPc.held_select : LoopPc.select.held = none := rfl

-- s.sub has been taken for good, or the loop has left.
def LoopPc.over : LoopPc → Prop
  | release _ | exited => True
  | _ => False

theorem LoopPc.calm.not_over {pc : LoopPc} (h : pc.calm) : ¬ pc.over := by
  cases pc <;> first | exact h.elim | exact id

-- Nothing that counts here has changed but where the loop is.
structure Agrees (s t : State Q) : Prop where
  sub : t.sub = s.sub
  made : t.made = s.made
  unsubscribed : t.unsubscribed = s.unsubscribed
  once : t.once = s.once
  stopper : t.stopper = s.stopper

-- What a tick can do.
inductive TickMove (cfg : SupervisorConfig) (s : State Q) : State Q → Prop
  | sound (streak : Int) (interval : Int64) (valid : s.sub.any s.valid = true) :
      TickMove cfg s { s with
        attempts := 0
        backoff := cfg.initialBackoff
        healthyStreak := streak
        currentInterval := interval }
  | gaveUp (valid : s.sub.any s.valid = false)
      (spent : 0 ≤ cfg.maxRetries ∧ cfg.maxRetries ≤ s.attempts) :
      TickMove cfg s { s with
        healthyStreak := 0
        currentInterval := cfg.checkInterval
        events := s.events ++ [⟨none, .invalid, s.attempts⟩] ++
          [⟨some (.sentinel .errSupervisorGiveUp), .giveUp, s.attempts⟩]
        pc := .cleanup }
  | retried (valid : s.sub.any s.valid = false)
      (room : cfg.maxRetries < 0 ∨ s.attempts < cfg.maxRetries) :
      TickMove cfg s { s with
        healthyStreak := 0
        currentInterval := cfg.checkInterval
        events := s.events ++ [⟨none, .invalid, s.attempts⟩]
        attempts := s.attempts + 1
        pc := .waiting }

theorem tick_move (cfg : SupervisorConfig) (s : State Q) : TickMove cfg s (tick cfg s) := by
  cases hvalid : s.sub.any s.valid with
  | true =>
    unfold tick
    rw [if_pos hvalid]
    dsimp only
    split_ifs <;> exact .sound _ _ hvalid
  | false =>
    unfold tick
    rw [if_neg (by simp [hvalid])]
    dsimp only [State.emit]
    split_ifs with hspent
    · exact .gaveUp hvalid hspent
    · exact .retried hvalid (by omega)

-- What a step of the loop can do.
inductive LoopMove (cfg : SupervisorConfig) (s : State Q) : Choice → State Q → Prop
  | canceled (pc : s.pc = .select ∨ s.pc = .waiting) (done : s.ctxDone = true) :
      LoopMove cfg s .ctx { s with pc := .cleanup }
  | stopped (pc : s.pc = .select ∨ s.pc = .waiting) (closed : s.once.closed = true) :
      LoopMove cfg s .stopCh { s with pc := .exited }
  | failed (pc : s.pc = .subscribing) :
      LoopMove cfg s .failed { s with
        pc := .select, backoff := Supervisor.nextBackoff s.backoff cfg.maxBackoff }
  | ticked {t : State Q} (pc : s.pc = .select) (move : TickMove cfg s t)
      (tick : t = tick cfg s) : LoopMove cfg s .proceed t
  | waited (pc : s.pc = .waiting) : LoopMove cfg s .proceed { s with pc := .subscribing }
  | subscribed (pc : s.pc = .subscribing) :
      LoopMove cfg s .proceed { s with
        pc := .install s.made
        made := s.made + 1
        valid := Function.update s.valid s.made true }
  | installed (newSub : Nat) (pc : s.pc = .install newSub) :
      LoopMove cfg s .proceed { s with pc := .drop s.sub, sub := some newSub }
  | dropped (old : Option Nat) (pc : s.pc = .drop old) :
      LoopMove cfg s .proceed { s with
        unsubscribed := s.unsubscribed ++ old.toList
        events := s.events ++ [⟨none, .resubscribed, s.attempts⟩]
        pc := .select
        backoff := cfg.initialBackoff }
  | cleared (pc : s.pc = .cleanup) :
      LoopMove cfg s .proceed { s with pc := .release s.sub, sub := none }
  | released (sub : Option Nat) (pc : s.pc = .release sub) :
      LoopMove cfg s .proceed { s with
        unsubscribed := s.unsubscribed ++ sub.toList, pc := .exited }

theorem loopStep_loopMove {choice : Choice} (h : loopStep cfg s choice = some t) :
    LoopMove cfg s choice t := by
  unfold loopStep at h
  cases choice with
  | ctx =>
    dsimp only at h
    split_ifs at h with hpc
    cases h
    exact .canceled hpc.1 hpc.2
  | stopCh =>
    dsimp only at h
    split_ifs at h with hpc
    cases h
    exact .stopped hpc.1 hpc.2
  | failed =>
    dsimp only at h
    split_ifs at h with hpc
    cases h
    exact .failed hpc
  | proceed =>
    dsimp only at h
    cases hpc : s.pc with
    | select =>
      rw [hpc] at h
      cases h
      exact .ticked hpc (tick_move cfg s) rfl
    | waiting =>
      rw [hpc] at h
      cases h
      exact .waited hpc
    | subscribing =>
      rw [hpc] at h
      cases h
      exact .subscribed hpc
    | install newSub =>
      rw [hpc] at h
      cases h
      exact .installed newSub hpc
    | drop old =>
      rw [hpc] at h
      cases h
      exact .dropped old hpc
    | cleanup =>
      rw [hpc] at h
      cases h
      exact .cleared hpc
    | release sub =>
      rw [hpc] at h
      cases h
      exact .released sub hpc
    | exited =>
      rw [hpc] at h
      cases h

variable [DecidableEq Q]

-- What a step can do.
inductive Move (s : State Q) : Act Q → State Q → Prop
  | outside {a : Act Q} {t : State Q} (agrees : Agrees s t) (pc : t.pc = s.pc)
      (act : a ≠ .loop .stopCh) : Move s a t
  | turned {a : Act Q} {t : State Q} (agrees : Agrees s t) (calm : s.pc.calm)
      (pc : t.pc.calm ∨ t.pc = .cleanup) (act : a ≠ .loop .stopCh) : Move s a t
  | left (pc : s.pc = .select ∨ s.pc = .waiting) (closed : s.once.closed = true) :
      Move s (.loop .stopCh) { s with pc := .exited }
  | subscribed (pc : s.pc = .subscribing) :
      Move s (.loop .proceed) { s with
        pc := .install s.made
        made := s.made + 1
        valid := Function.update s.valid s.made true }
  | installed (newSub : Nat) (pc : s.pc = .install newSub) :
      Move s (.loop .proceed) { s with pc := .drop s.sub, sub := some newSub }
  | dropped (old : Option Nat) (t : State Q) (pc : s.pc = .drop old)
      (agrees : Agrees (s.unsubscribe old) t) (next : t.pc = .select) :
      Move s (.loop .proceed) t
  | cleared (pc : s.pc = .cleanup) :
      Move s (.loop .proceed) { s with pc := .release s.sub, sub := none }
  | released (sub : Option Nat) (pc : s.pc = .release sub) :
      Move s (.loop .proceed) { s.unsubscribe sub with pc := .exited }
  | called (q : Q) (at_ : s.stopper q = .idle) :
      Move s (.stop q) { s with stopper := Function.update s.stopper q .calling }
  | entered (q : Q) (at_ : s.stopper q = .calling) (once : s.once = .fresh) :
      Move s (.stop q) { s with once := .closing q }
  | closed (q : Q) (at_ : s.stopper q = .calling) (once : s.once = .closing q) :
      Move s (.stop q) { s with once := .loading q }
  | loaded (q : Q) (at_ : s.stopper q = .calling) (once : s.once = .loading q) :
      Move s (.stop q) { s with once := .releasing q s.sub }
  | stopped (q : Q) (sub : Option Nat) (at_ : s.stopper q = .calling)
      (once : s.once = .releasing q sub) :
      Move s (.stop q) { s.unsubscribe sub with
        once := .done sub
        stopper := Function.update s.stopper q .returned }
  | joined (q : Q) (sub : Option Nat) (at_ : s.stopper q = .calling) (once : s.once = .done sub) :
      Move s (.stop q) { s with stopper := Function.update s.stopper q .returned }

theorem calm_of_select {pc : LoopPc} (h : pc = .select ∨ pc = .waiting) : pc.calm := by
  obtain rfl | rfl := h <;> trivial

theorem loopStep_move {choice : Choice} (h : loopStep cfg s choice = some t) :
    Move s (.loop choice) t := by
  cases loopStep_loopMove h with
  | canceled pc done =>
    exact .turned ⟨rfl, rfl, rfl, rfl, rfl⟩ (calm_of_select pc) (.inr rfl) (by simp)
  | stopped pc closed => exact .left pc closed
  | failed pc => exact .turned ⟨rfl, rfl, rfl, rfl, rfl⟩ (pc ▸ trivial) (.inl trivial) (by simp)
  | ticked pc move tick =>
    cases move with
    | sound streak interval valid =>
      exact .turned ⟨rfl, rfl, rfl, rfl, rfl⟩ (pc ▸ trivial) (.inl (pc ▸ trivial)) (by simp)
    | gaveUp valid spent =>
      exact .turned ⟨rfl, rfl, rfl, rfl, rfl⟩ (pc ▸ trivial) (.inr rfl) (by simp)
    | retried valid room =>
      exact .turned ⟨rfl, rfl, rfl, rfl, rfl⟩ (pc ▸ trivial) (.inl trivial) (by simp)
  | waited pc => exact .turned ⟨rfl, rfl, rfl, rfl, rfl⟩ (pc ▸ trivial) (.inl trivial) (by simp)
  | subscribed pc => exact .subscribed pc
  | installed newSub pc => exact .installed newSub pc
  | dropped old pc => exact .dropped old _ pc ⟨rfl, rfl, rfl, rfl, rfl⟩ rfl
  | cleared pc => exact .cleared pc
  | released sub pc => exact .released sub pc

-- A caller of Stop leaves the loop's own variables alone.
theorem stopStep_loop {q : Q} (h : stopStep s q = some t) :
    t.pc = s.pc ∧ t.attempts = s.attempts ∧ t.backoff = s.backoff ∧ t.events = s.events := by
  unfold stopStep at h
  split at h <;> (try split_ifs at h) <;> cases h <;> exact ⟨rfl, rfl, rfl, rfl⟩

theorem stopStep_move {q : Q} (h : stopStep s q = some t) : Move s (.stop q) t := by
  unfold stopStep at h
  split at h
  case h_1 hq =>
    cases h
    exact .called q hq
  case h_2 hq hs =>
    cases h
    exact .entered q hq hs
  case h_3 hq hs =>
    split_ifs at h with heq
    cases h
    subst heq
    exact .closed _ hq hs
  case h_4 hq hs =>
    split_ifs at h with heq
    cases h
    subst heq
    exact .loaded _ hq hs
  case h_5 hq hs =>
    split_ifs at h with heq
    cases h
    subst heq
    exact .stopped _ _ hq hs
  case h_6 hq hs =>
    cases h
    exact .joined q _ hq hs
  case h_7 => cases h

theorem step_move {a : Act Q} (h : step cfg s a = some t) : Move s a t := by
  cases a with
  | cancel =>
    cases h
    exact .outside ⟨rfl, rfl, rfl, rfl, rfl⟩ rfl (by simp)
  | validity sub valid =>
    cases h
    exact .outside ⟨rfl, rfl, rfl, rfl, rfl⟩ rfl (by simp)
  | loop choice => exact loopStep_move h
  | stop q => exact stopStep_move h

end NatsClient.Supervise
