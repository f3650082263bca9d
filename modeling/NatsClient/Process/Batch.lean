import NatsClient.Process
import NatsClient.Pull.Moves
import NatsClient.WorkerPool.Clients

namespace NatsClient.Process

@[simp] theorem fatal_wrap (before after : String) (e : GoError) :
    fatal (.wrap before e after) = fatal e := rfl

open Pull

variable {Q W S : Type} {u : Pull.Setup Q} {s t : Pull.State Q W S}

-- Where processBatch can be when the context is not done: an error that it returns, or
-- is about to return, is a mild one.
def Fine : Pull.Pc → Prop
  | .nak _ (.ret e) | .returned (some e) => fatal e = false
  | .few _ => False
  | _ => True

theorem fine_published (i : Nat) (blocking : Bool) (result : WorkerPool.Result) :
    Fine (published s i blocking result).pc := by
  unfold published
  split
  · trivial
  · trivial
  · split_ifs <;> trivial

theorem fine_decided (i : Nat) (err : Option GoError) : Fine (decided s i err).pc := by
  unfold decided
  split_ifs <;> trivial

theorem fine_startPc (u : Pull.Setup Q) (k : Nat) : Fine (u.startPc k) := by
  unfold Pull.Setup.startPc Pull.Setup.concurrentPc
  split_ifs with hs hp hc hf
  · trivial
  · trivial
  · exact absurd hf (by omega)
  · trivial
  · trivial

-- The batch of the pool ends with an error that does not end Process.
def EndsMild (s : Pull.State Q W S) : Prop :=
  s.pc = .finish → ∀ e, s.firstErr s.round = some e → fatal e = false

theorem fine_drive {pc : Pull.Pc} (h : DriveMove u s pc t) (hpc : s.pc = pc)
    (hc : s.ctxErr = none) (hf : Fine pc) (hm : EndsMild s) : Fine t.pc := by
  cases h with
  | stopped hd => rw [hc] at hd; cases hd
  | @nakked i after hi => cases after <;> exact hf
  | @nakkedAll i after =>
    cases after with
    | ret e => exact hf
    | close => trivial
  | offered hp => exact fine_published _ _ _
  | published hp => exact fine_published _ _ _
  | decided hr => exact fine_decided _ _
  | failed he => exact hm hpc _ he
  | fewHandled hd => exact hf.elim
  | fewFailed hd => exact hf.elim
  | ended =>
    rw [hc]
    trivial
  | _ => trivial

-- A batch that is about to return a fatal error.
def Failing : Pull.Pc → Prop
  | .nak _ (.ret e) | .returned (some e) => fatal e = true
  | _ => False

theorem failing_drive {pc : Pull.Pc} (h : DriveMove u s pc t) (hf : Failing pc) :
    Failing t.pc := by
  cases h with
  | @nakked i after hi => cases after <;> exact hf
  | @nakkedAll i after =>
    cases after with
    | ret e => exact hf
    | close => exact hf.elim
  | _ => exact hf.elim

-- The steps of processBatch without the worker pool.
def Outside : Pull.Pc → Prop
  | .poolCheck _ | .offer _ | .backpressure _ | .decide _ _ | .publish _ | .wait | .finish
  | .few _ => False
  | _ => True

theorem outside_drive {pc : Pull.Pc} (h : DriveMove u s pc t) (ho : Outside pc) :
    Outside t.pc := by
  cases h with
  | @nakkedAll i after => cases after <;> trivial
  | _ => trivial

theorem outside_startPc (hp : u.consumer.cfg.workerPoolEnabled = false) (k : Nat) :
    Outside (u.startPc k) := by
  unfold Pull.Setup.startPc Pull.Setup.concurrentPc
  simp only [hp, Bool.false_eq_true, if_false]
  split_ifs with hs hc hf
  · trivial
  · exact absurd hf (by omega)
  · trivial
  · trivial

-- No error of a handler, of the network or of a decompression is one that ends Process.
structure Tame (u : Pull.Setup Q) : Prop where
  outcome : ∀ k i e, (u.outcome k i).err = some e → fatal e = false
  wire : ∀ k i n e, (u.wire k i).ackResult n = some e → fatal e = false
  decompression : ∀ msg e, maybeDecompressMsg u.comp msg = .error e → fatal e = false

theorem Tame.ackError (hu : Tame u) {k i : Nat} {d : Delivery} {e : GoError}
    (he : d.ackError (u.wire k i) = some e) : fatal e = false := by
  rcases Delivery.ackError_eq_some he with rfl | rfl | rfl | ⟨n, hn⟩
  · rfl
  · rfl
  · rfl
  · exact hu.wire k i n e hn

theorem Tame.processMessage (hu : Tame u) {k i : Nat} {d : Delivery} {e : GoError}
    (he : (u.processMessage k i d).2 = some e) : fatal e = false := by
  simp only [Pull.Setup.processMessage, NatsClient.processMessage] at he
  split at he
  · next cause hcause =>
    cases he
    split_ifs at hcause
    rw [fatal_wrap]
    exact hu.decompression _ _ hcause
  · obtain ⟨before, cause, rfl, hcause | hack⟩ := settleOutcome_snd he
    · exact hu.outcome k i cause hcause
    · rw [fatal_wrap]
      exact hu.ackError hack

theorem Tame.handlePoolBackpressure (hu : Tame u) {k i : Nat} {depth again : Int}
    {d : Delivery} {e : GoError}
    (he : (handlePoolBackpressure u.consumer (u.wire k i) depth again d).2 = some e) :
    fatal e = false := by
  obtain rfl | rfl | ⟨before, cause, rfl, hack⟩ := handlePoolBackpressure_snd he
  · rfl
  · rfl
  · rw [fatal_wrap]
    exact hu.ackError hack

-- No error that ends Process is recorded or on its way to be.
structure Calm (s : Pull.State Q W S) : Prop where
  ctx : s.ctxErr = none
  firstErr : ∀ k e, s.firstErr k = some e → fatal e = false
  worker : ∀ n e, s.worker n = .record e → fatal e = false
  job : ∀ call e, s.job call = .recording (some e) → fatal e = false
  flag : s.pool.shared.flag = .running
  poolCtx : s.pool.shared.ctxErr = none
  caller : ∀ call, s.pool.shared.callerErr (.inl call) = none
  pub : ∀ call, (s.pool.pub (.inl call)).calm = true

def MildRecords (firstErr : Nat → Option GoError) : Prop :=
  ∀ k e, firstErr k = some e → fatal e = false

theorem MildRecords.record (hs : MildRecords s.firstErr) (k : Nat) {err : Option GoError}
    (he : ∀ e, err = some e → fatal e = false) : MildRecords (s.record k err).firstErr := by
  intro k' e h
  simp only [State.record] at h
  by_cases hk : k' = k
  · subst hk
    rw [Function.update_self] at h
    cases hf : s.firstErr k' with
    | none =>
      rw [hf, Option.none_or] at h
      exact he e h
    | some first =>
      rw [hf, Option.some_or] at h
      cases h
      exact hs k' e hf
  · rw [Function.update_of_ne hk] at h
    exact hs k' e h

theorem MildRecords.published (hs : MildRecords s.firstErr) {i : Nat} {blocking : Bool}
    {result : WorkerPool.Result} (hr : ∀ e, result ≠ .failed e) :
    MildRecords (published s i blocking result).firstErr := by
  cases result with
  | failed e => exact absurd rfl (hr e)
  | accepted => exact hs
  | rejected => cases blocking <;> exact hs

theorem MildRecords.drive {pc : Pull.Pc} (hs : MildRecords s.firstErr) (hu : Tame u)
    (h : DriveMove u s pc t) (hc : s.ctxErr = none)
    (hp : ∀ call, (s.pool.pub (.inl call)).calm = true) : MildRecords t.firstErr := by
  have hnot (call : Call) (result : WorkerPool.Result)
      (hd : s.pool.pub (.inl call) = .done result) (e : GoError) : result ≠ .failed e := by
    rintro rfl
    have hcalm := hp call
    rw [hd] at hcalm
    cases hcalm
  cases h with
  | poolStopped hd => rw [hc] at hd; cases hd
  | givenUp hd => rw [hc] at hd; cases hd
  | offered hd => exact hs.published (hnot _ _ hd)
  | published hd => exact hs.published (hnot _ _ hd)
  | @decided i depth result hr =>
    unfold Pull.decided
    split_ifs
    · exact hs
    · exact hs
    · refine MildRecords.record (s := s.deliver s.round i result.1) hs _ fun e he => ?_
      exact hu.handlePoolBackpressure (hr ▸ he)
  | _ => exact hs

theorem Calm.drive (hs : Calm s) (hu : Tame u) {pc : Pull.Pc} (h : DriveMove u s pc t) :
    Calm t := by
  have hf := h.frame
  refine ⟨hf.ctxErr.trans hs.ctx, MildRecords.drive hs.firstErr hu h hs.ctx hs.pub, ?_, ?_, ?_, ?_,
    ?_, ?_⟩
  · rw [hf.worker]; exact hs.worker
  · rw [hf.job]; exact hs.job
  · rw [hf.pool]; exact hs.flag
  · rw [hf.pool]; exact hs.poolCtx
  · rw [hf.pool]; exact hs.caller
  · rw [hf.pool]; exact hs.pub

theorem Calm.worker_step (hs : Calm s) (hu : Tame u) {n : Nat}
    (h : workerStep u s n = some t) : Calm t := by
  have hset (next : Pull.State Q W S) (hn : Calm next) (pc : WorkerPc)
      (hpc : ∀ e, pc = .record e → fatal e = false) : Calm (next.setWorker n pc) := by
    refine ⟨hn.ctx, hn.firstErr, fun m e hm => ?_, hn.job, hn.flag, hn.poolCtx, hn.caller, hn.pub⟩
    simp only [State.setWorker] at hm
    by_cases hmn : m = n
    · subst hmn
      rw [Function.update_self] at hm
      exact hpc e hm
    · rw [Function.update_of_ne hmn] at hm
      exact hn.worker m e hm
  have hdeliver (k i : Nat) (d : Delivery) : Calm (s.deliver k i d) :=
    ⟨hs.ctx, hs.firstErr, hs.worker, hs.job, hs.flag, hs.poolCtx, hs.caller, hs.pub⟩
  have hjobs (rest : List Nat) : Calm { s with jobs := rest } :=
    ⟨hs.ctx, hs.firstErr, hs.worker, hs.job, hs.flag, hs.poolCtx, hs.caller, hs.pub⟩
  have hmove := workerStep_move h
  generalize hpc : s.worker n = pc at hmove
  cases hmove with
  | received hj => exact hset _ (hjobs _) _ (by simp)
  | exited hj hc => exact hset _ hs _ (by simp)
  | stopped hc =>
    rw [hs.ctx] at hc
    cases hc
  | checked hc => exact hset _ hs _ (by simp)
  | nakked => exact hset _ (hdeliver _ _ _) _ (by simp)
  | handled hd => exact hset _ (hdeliver _ _ _) _ (by simp)
  | @failed i d e hd =>
    refine hset _ (hdeliver _ _ _) _ ?_
    rintro _ ⟨⟩
    rw [fatal_wrap]
    exact hu.processMessage (congrArg Prod.snd hd)
  | @recorded e =>
    have hmild : MildRecords (s.record s.round (some e)).firstErr := by
      refine MildRecords.record hs.firstErr _ ?_
      rintro _ ⟨⟩
      exact hs.worker n e hpc
    have hrecord : Calm (s.record s.round (some e)) :=
      ⟨hs.ctx, hmild, hs.worker, hs.job, hs.flag, hs.poolCtx, hs.caller, hs.pub⟩
    exact hset _ hrecord _ (by simp)

theorem Calm.job_step (hs : Calm s) (hu : Tame u) {call : Call}
    (h : jobStep u s call = some t) : Calm t := by
  unfold jobStep at h
  split at h
  · cases h
    refine ⟨hs.ctx, hs.firstErr, hs.worker, fun c e hc => ?_, hs.flag, hs.poolCtx, hs.caller,
      hs.pub⟩
    simp only at hc
    by_cases hcc : c = call
    · subst hcc
      rw [Function.update_self, JobPc.recording.injEq] at hc
      exact hu.processMessage hc
    · rw [Function.update_of_ne hcc] at hc
      exact hs.job c e hc
  · next err hpc =>
    cases h
    refine ⟨hs.ctx, ?_, hs.worker, fun c e hc => ?_, hs.flag, hs.poolCtx, hs.caller, hs.pub⟩
    · refine MildRecords.record hs.firstErr _ ?_
      rintro e rfl
      exact hs.job call e hpc
    · simp only at hc
      by_cases hcc : c = call
      · subst hcc
        rw [Function.update_self] at hc
        cases hc
      · rw [Function.update_of_ne hcc] at hc
        exact hs.job c e hc
  · cases h

theorem Calm.pool_step [DecidableEq Q] [DecidableEq W] [DecidableEq S] (hs : Calm s)
    {act : WorkerPool.Act (Call ⊕ Q) W S} (hstop : act.isStop = false)
    (hparent : act.isParent = false) (h : poolStep u s act = some t) : Calm t := by
  obtain ⟨hallowed, pool, hpool, rfl⟩ := poolStep_eq h
  obtain ⟨hflag, hctx, hcaller⟩ := WorkerPool.step_shared hpool hstop hparent
  refine ⟨hs.ctx, hs.firstErr, hs.worker, fun c e hc => ?_, hflag.trans hs.flag,
    hctx.trans hs.poolCtx, fun c => ?_, fun c => ?_⟩
  · simp only at hc
    cases hst : started s act with
    | none =>
      rw [hst] at hc
      exact hs.job c e hc
    | some call =>
      rw [hst] at hc
      simp only [Option.elim_some] at hc
      by_cases hcc : c = call
      · subst hcc
        rw [Function.update_self] at hc
        cases hc
      · rw [Function.update_of_ne hcc] at hc
        exact hs.job c e hc
  · refine (hcaller (.inl c) ?_).trans (hs.caller c)
    rintro err rfl
    cases hallowed
  · rcases WorkerPool.step_pub hpool (.inl c) with hsame | ⟨sh', hm⟩
    · rw [hsame]
      exact hs.pub c
    · exact hm.calm hs.flag hs.poolCtx (hs.caller c) (hs.pub c)

end NatsClient.Process
