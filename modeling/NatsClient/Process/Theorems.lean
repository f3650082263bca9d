import NatsClient.Process.Batch

namespace NatsClient.Process

open Lib.Machine

variable {Q W S : Type} [DecidableEq Q] [DecidableEq W] [DecidableEq S] {u : Setup Q}
  {s t : State Q W S} {a : Act Q W S}

-- The context of Process is not done and nobody stops the pool.
def Act.alive : Act Q W S → Bool
  | .batch (.cancel _) => false
  | .batch (.pool act) => !act.isStop && !act.isParent
  | _ => true

def aliveStep (u : Setup Q) (s : State Q W S) (a : Act Q W S) : Option (State Q W S) :=
  if a.alive then step u s a else none

theorem aliveStep_eq (h : aliveStep u s a = some t) : a.alive = true ∧ step u s a = some t := by
  unfold aliveStep at h
  split_ifs at h with ha
  exact ⟨ha, h⟩

def Mild (s : State Q W S) : Act Q W S → Prop
  | .batch (.drive _) => EndsMild s.batch
  | _ => True

-- Every Fetch that fails is idle.
def IdleFetches (u : Setup Q) : Prop :=
  ∀ k e, u.fetchErr k = some e → fetchVerdict u.path e = .continue

structure Running (s : State Q W S) : Prop where
  ctx : s.batch.ctxErr = none
  fine : Fine s.batch.pc
  stays : ∀ e, s.pc ≠ .returned e

-- Everything a step of the loop of Process can do.
inductive LoopMove (u : Setup Q) (s : State Q W S) : State Q W S → Prop
  | stopped {e} (hpc : s.pc = .top) (hc : s.batch.ctxErr = some e) :
      LoopMove u s { s with pc := .returned (Pull.processErr e) }
  | opened (hpc : s.pc = .top) (hc : s.batch.ctxErr = none) : LoopMove u s { s with pc := .fetch }
  | fetched (hpc : s.pc = .fetch) (he : u.fetchErr s.next = none) :
      LoopMove u s { pc := .batch, next := s.next + 1, batch := s.batch.begin u.toSetup s.next }
  | idle {e} (hpc : s.pc = .fetch) (he : u.fetchErr s.next = some e) :
      LoopMove u s { s with pc := .top, next := s.next + 1 }
  | refused {e} (hpc : s.pc = .fetch) (he : u.fetchErr s.next = some e)
      (hv : fetchVerdict u.path e ≠ .continue) :
      LoopMove u s
        { s with pc := .returned (.wrap "pull process fetch: " e ""), next := s.next + 1 }
  | interrupted {e} (hpc : s.pc = .fetch) (he : u.fetchErr s.next = some e)
      (hv : fetchVerdict u.path e ≠ .continue) :
      LoopMove u s
        { pc := .batch, next := s.next + 1
          batch := (s.batch.begin u.toSetup s.next).goto (.nak 0 (.ret (Pull.processErr e))) }
  | ended {err} (hpc : s.pc = .batch) (hb : s.batch.pc = .returned err)
      (hf : ∀ e, err = some e → fatal e = false) : LoopMove u s { s with pc := .top }
  | failed {e} (hpc : s.pc = .batch) (hb : s.batch.pc = .returned (some e))
      (hf : fatal e = true) : LoopMove u s { s with pc := .returned e }

omit [DecidableEq Q] [DecidableEq W] [DecidableEq S] in
theorem loopStep_move (h : loopStep u s = some t) : LoopMove u s t := by
  unfold loopStep at h
  split at h
  · next hpc =>
    split at h <;> cases h
    · exact .stopped hpc ‹_›
    · exact .opened hpc ‹_›
  · next hpc =>
    cases h
    unfold fetchStep
    split
    · exact .fetched hpc ‹_›
    · next e he =>
      split
      · exact .idle hpc he
      · next hv => exact .refused hpc he (by simp [hv])
      · next hv => exact .interrupted hpc he (by simp [hv])
  · next hpc =>
    split at h
    · next hb =>
      cases h
      exact .ended hpc hb (by simp)
    · next e hb =>
      split_ifs at h with hf <;> cases h
      · exact .failed hpc hb hf
      · exact .ended hpc hb (by rintro _ ⟨⟩; simpa using hf)
    · cases h
  · cases h

omit [DecidableEq Q] [DecidableEq W] [DecidableEq S] in
theorem Running.loop (hfetch : IdleFetches u) (hr : Running s) (h : LoopMove u s t) :
    Running t := by
  cases h with
  | stopped hpc hc => rw [hr.ctx] at hc; cases hc
  | opened hpc hc => exact ⟨hr.ctx, hr.fine, by simp⟩
  | fetched hpc he => exact ⟨hr.ctx, fine_startPc _ _, by simp⟩
  | idle hpc he => exact ⟨hr.ctx, hr.fine, by simp⟩
  | refused hpc he hv => exact absurd (hfetch _ _ he) hv
  | interrupted hpc he hv => exact absurd (hfetch _ _ he) hv
  | ended hpc hb hf => exact ⟨hr.ctx, hr.fine, by simp⟩
  | failed hpc hb hf =>
    have hmild := hr.fine
    rw [hb] at hmild
    exact absurd (hf.symm.trans hmild) (by simp)

theorem Running.step (hfetch : IdleFetches u) (hr : Running s) (hm : Mild s a)
    (h : aliveStep u s a = some t) : Running t := by
  obtain ⟨ha, hs⟩ := aliveStep_eq h
  cases a with
  | loop => exact hr.loop hfetch (loopStep_move hs)
  | pause =>
    simp only [Process.step] at hs
    split_ifs at hs
    cases hs
    exact ⟨hr.ctx, hr.fine, by simp⟩
  | batch act =>
    obtain ⟨batch, hbatch, rfl⟩ := Option.map_eq_some_iff.mp hs
    have hcancel : act.isCancel = false := by cases act <;> first | rfl | cases ha
    refine ⟨(Pull.step_ctxErr hbatch hcancel).trans hr.ctx, ?_, hr.stays⟩
    rcases Pull.step_pc hbatch with ⟨viaCtx, rfl, hmove⟩ | hpc
    · exact fine_drive hmove rfl hr.ctx hr.fine hm
    · exact hpc.symm ▸ hr.fine

-- While a batch is under way Process waits for it.
def Busy (s : State Q W S) : Prop := (∃ err, s.batch.pc = .returned err) ∨ s.pc = .batch

theorem Busy.step (hb : Busy s) (h : step u s a = some t) : Busy t := by
  cases a with
  | loop =>
    have hret (hpc : s.pc ≠ .batch) : ∃ err, s.batch.pc = .returned err := hb.resolve_right hpc
    cases loopStep_move h with
    | stopped hpc => exact .inl (hret (by simp [hpc]))
    | opened hpc => exact .inl (hret (by simp [hpc]))
    | fetched => exact .inr rfl
    | idle hpc => exact .inl (hret (by simp [hpc]))
    | refused hpc => exact .inl (hret (by simp [hpc]))
    | interrupted => exact .inr rfl
    | ended hpc hb' => exact .inl ⟨_, hb'⟩
    | failed hpc hb' => exact .inl ⟨_, hb'⟩
  | pause =>
    simp only [Process.step] at h
    split_ifs at h with hpc
    cases h
    exact .inl (hb.resolve_right (by simp [hpc]))
  | batch act =>
    obtain ⟨batch, hbatch, rfl⟩ := Option.map_eq_some_iff.mp h
    refine hb.imp_left ?_
    rintro ⟨err, he⟩
    rcases Pull.step_pc hbatch with ⟨viaCtx, rfl, hmove⟩ | hpc
    · rw [he] at hmove
      cases hmove
    · exact ⟨err, hpc.trans he⟩

-- Process has returned, or it will as soon as its batch is over.
def Doomed (s : State Q W S) : Prop :=
  (s.pc = .batch ∧ Failing s.batch.pc) ∨ ∃ e, s.pc = .returned e

theorem Doomed.step (hd : Doomed s) (h : step u s a = some t) : Doomed t := by
  cases a with
  | loop =>
    cases loopStep_move h with
    | failed => exact .inr ⟨_, rfl⟩
    | ended hpc hb hf =>
      -- the batch has ended with a fatal error
      simp only [Doomed, hpc, hb, true_and, reduceCtorEq, exists_false, or_false] at hd
      next err =>
      cases err with
      | none => exact hd.elim
      | some e => exact absurd (hd.symm.trans (hf e rfl)) (by simp)
    | stopped hpc => simp [Doomed, hpc] at hd
    | opened hpc => simp [Doomed, hpc] at hd
    | fetched hpc => simp [Doomed, hpc] at hd
    | idle hpc => simp [Doomed, hpc] at hd
    | refused hpc => simp [Doomed, hpc] at hd
    | interrupted hpc => simp [Doomed, hpc] at hd
  | pause =>
    simp only [Process.step] at h
    split_ifs at h with hpc
    simp [Doomed, hpc] at hd
  | batch act =>
    obtain ⟨batch, hbatch, rfl⟩ := Option.map_eq_some_iff.mp h
    refine hd.imp_left ?_
    rintro ⟨hpc, hf⟩
    refine ⟨hpc, ?_⟩
    rcases Pull.step_pc hbatch with ⟨viaCtx, rfl, hmove⟩ | hsame
    · exact failing_drive hmove hf
    · exact hsame.symm ▸ hf

theorem doomed_of_not_mild (hb : Busy s) (hm : ¬ Mild s a) (h : step u s a = some t) :
    Doomed t := by
  cases a with
  | loop => exact absurd trivial hm
  | pause => exact absurd trivial hm
  | batch act =>
    cases act with
    | drive viaCtx =>
      simp only [Mild, EndsMild, not_forall] at hm
      obtain ⟨hpc, e, he, hfatal⟩ := hm
      obtain ⟨batch, hbatch, rfl⟩ := Option.map_eq_some_iff.mp h
      simp only [Pull.step, Pull.driveStep, hpc, he, Option.some.injEq] at hbatch
      subst hbatch
      have hbusy : s.pc = .batch := hb.resolve_left (by simp [hpc])
      have hf : fatal e = true := by simpa using hfatal
      exact .inl ⟨hbusy, hf⟩
    | _ => exact absurd trivial hm

section Guaranteed

theorem Calm.step (hu : Tame u.toSetup) (hs : Calm s.batch) (h : aliveStep u s a = some t) :
    Calm t.batch := by
  obtain ⟨ha, hstep⟩ := aliveStep_eq h
  cases a with
  | loop =>
    have hbegin (k : Nat) (pc : Pull.Pc) : Calm ((s.batch.begin u.toSetup k).goto pc) :=
      ⟨hs.ctx, hs.firstErr, by simp [Pull.State.begin, Pull.State.goto], hs.job, hs.flag,
        hs.poolCtx, hs.caller, hs.pub⟩
    cases loopStep_move hstep with
    | fetched => exact hbegin _ _
    | interrupted => exact hbegin _ _
    | _ => exact hs
  | pause =>
    simp only [Process.step] at hstep
    split_ifs at hstep
    cases hstep
    exact hs
  | batch act =>
    obtain ⟨batch, hbatch, rfl⟩ := Option.map_eq_some_iff.mp hstep
    cases act with
    | drive viaCtx => exact hs.drive hu (Pull.driveStep_move hbatch)
    | worker n =>
      simp only [Pull.step] at hbatch
      split_ifs at hbatch
      exact hs.worker_step hu hbatch
    | job call => exact hs.job_step hu hbatch
    | pool act =>
      simp only [Act.alive, Bool.and_eq_true, Bool.not_eq_true'] at ha
      exact hs.pool_step ha.1 ha.2 hbatch
    | cancel err => cases ha

theorem outside_step (hp : u.consumer.cfg.workerPoolEnabled = false) (hs : Outside s.batch.pc)
    (h : step u s a = some t) : Outside t.batch.pc := by
  cases a with
  | loop =>
    cases loopStep_move h with
    | fetched => exact outside_startPc hp _
    | interrupted => trivial
    | _ => exact hs
  | pause =>
    simp only [Process.step] at h
    split_ifs at h
    cases h
    exact hs
  | batch act =>
    obtain ⟨batch, hbatch, rfl⟩ := Option.map_eq_some_iff.mp h
    rcases Pull.step_pc hbatch with ⟨viaCtx, rfl, hmove⟩ | hpc
    · exact outside_drive hmove hs
    · exact hpc.symm ▸ hs

omit [DecidableEq Q] [DecidableEq W] [DecidableEq S] in
theorem mild_of_calm (hs : Calm s.batch) (a : Act Q W S) : Mild s a := by
  cases a with
  | loop => trivial
  | pause => trivial
  | batch act =>
    cases act with
    | drive viaCtx => exact fun _ e he => hs.firstErr _ e he
    | _ => trivial

omit [DecidableEq Q] [DecidableEq W] [DecidableEq S] in
theorem mild_of_outside (hs : Outside s.batch.pc) (a : Act Q W S) : Mild s a := by
  cases a with
  | loop => trivial
  | pause => trivial
  | batch act =>
    cases act with
    | drive viaCtx =>
      intro hpc
      rw [hpc] at hs
      exact hs.elim
    | _ => trivial

end Guaranteed

section Runs

variable {acts : List (Act Q (Fin (WorkerPool.poolLen u.consumer.cfg.poolSize)) S)}
  {s : State Q (Fin (WorkerPool.poolLen u.consumer.cfg.poolSize)) S}

omit [DecidableEq Q] [DecidableEq S] in
theorem running_initial :
    Running (initial u : State Q (Fin (WorkerPool.poolLen u.consumer.cfg.poolSize)) S) :=
  ⟨rfl, trivial, by simp [initial]⟩

-- Without a worker pool, or with mild errors only, every batch of every run ends mildly.
theorem along_mild (h : u.consumer.cfg.workerPoolEnabled = false ∨ Tame u.toSetup)
    (acts : List (Act Q (Fin (WorkerPool.poolLen u.consumer.cfg.poolSize)) S)) :
    Along (aliveStep u) Mild (initial u) acts := by
  rcases h with hp | hu
  · refine along_of_invariant (P := fun s => Outside s.batch.pc) ?_
      (fun s a hs => mild_of_outside hs a) ?_ acts
    · exact fun s a t hs ha => outside_step hp hs (aliveStep_eq ha).2
    · trivial
  · refine along_of_invariant (P := fun s => Calm s.batch) (fun s a t hs ha => hs.step hu ha)
      (fun s a hs => mild_of_calm hs a) ?_ acts
    constructor <;> simp [initial, Pull.idle, WorkerPool.initial, WorkerPool.PubPc.calm]

theorem running_of_along (hfetch : IdleFetches u)
    (halong : Along (aliveStep u) Mild (initial u) acts)
    (hexec : exec (aliveStep u) (initial u) acts = some s) : Running s :=
  halong.invariant (fun _ _ _ hr hm hs => hr.step hfetch hm hs) hexec running_initial

-- Once a batch has ended with a fatal error there is no further Fetch.
theorem doomed_of_not_along (hexec : exec (aliveStep u) (initial u) acts = some s)
    (hnot : ¬ Along (aliveStep u) Mild (initial u) acts) : Doomed s := by
  obtain ⟨before, a, after, mid, next, -, hbefore, hviolated, hstep, hafter⟩ :=
    exists_violation hexec hnot
  have hbusy : Busy mid :=
    Reaches.invariant (fun _ _ _ hb hs => hb.step (aliveStep_eq hs).2) ⟨before, hbefore⟩
      (.inl ⟨none, rfl⟩)
  exact Reaches.invariant (fun _ _ _ hd hs => hd.step (aliveStep_eq hs).2) ⟨after, hafter⟩
    (doomed_of_not_mild hbusy hviolated (aliveStep_eq hstep).2)

end Runs

end NatsClient.Process
