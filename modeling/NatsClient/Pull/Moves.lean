import NatsClient.Pull

namespace NatsClient.Pull

variable {Q W S : Type} {u : Setup Q} {s t : State Q W S}

-- Everything a step of processBatch can do, by where it is.
inductive DriveMove (u : Setup Q) (s : State Q W S) : Pc → State Q W S → Prop
  | checked {i} (hc : s.ctxErr = none) (hi : i < u.size s.round) :
      DriveMove u s (.check i) (s.goto (.handle i))
  | stopped {i e} (hc : s.ctxErr = some e) (hi : i < u.size s.round) :
      DriveMove u s (.check i) (s.goto (.nak i (.ret (processErr e))))
  | checkedAll {i} (hi : ¬ i < u.size s.round) : DriveMove u s (.check i) (s.goto (.returned none))
  | handled {i d} (hd : d = (u.processMessage s.round i (s.delivery s.round i)).1) :
      DriveMove u s (.handle i) ((s.deliver s.round i d).goto (.check (i + 1)))
  | nakked {i after} (hi : i < u.size s.round) :
      DriveMove u s (.nak i after) ((s.nak u i).goto (.nak (i + 1) after))
  | nakkedAll {i after} (hi : ¬ i < u.size s.round) : DriveMove u s (.nak i after) (s.goto after.pc)
  | poolStopped {i e} (hc : s.ctxErr = some e) (hi : i < u.size s.round) :
      DriveMove u s (.poolCheck i) ((s.record s.round (some (processErr e))).goto .wait)
  | offering {i} (hc : s.ctxErr = none) (hi : i < u.size s.round) :
      DriveMove u s (.poolCheck i) ((s.addWg s.round 1).goto (.offer i))
  | offeredAll {i} (hi : ¬ i < u.size s.round) : DriveMove u s (.poolCheck i) (s.goto .wait)
  | offered {i result} (hp : s.pool.pub (.inl ⟨s.round, i, false⟩) = .done result) :
      DriveMove u s (.offer i) (published s i false result)
  | looked {i} : DriveMove u s (.backpressure i) (s.goto (.decide i s.pool.shared.depth))
  | decided {i depth result}
      (hr : result = handlePoolBackpressure u.consumer (u.wire s.round i) depth
        s.pool.shared.depth (s.delivery s.round i)) :
      DriveMove u s (.decide i depth) (decided (s.deliver s.round i result.1) i result.2)
  | published {i result} (hp : s.pool.pub (.inl ⟨s.round, i, true⟩) = .done result) :
      DriveMove u s (.publish i) (published s i true result)
  | givenUp {e} (hc : s.ctxErr = some e) :
      DriveMove u s .wait ((s.record s.round (some (processErr e))).goto .finish)
  | waited (hw : s.wg s.round = 0) : DriveMove u s .wait (s.goto .finish)
  | failed {e} (he : s.firstErr s.round = some e) :
      DriveMove u s .finish (s.goto (.nak 0 (.ret e)))
  | succeeded (he : s.firstErr s.round = none) : DriveMove u s .finish (s.goto (.returned none))
  | fewHandled {i d} (hd : u.processMessage s.round i (s.delivery s.round i) = (d, none))
      (hi : i < u.size s.round) :
      DriveMove u s (.few i) ((s.deliver s.round i d).goto (.few (i + 1)))
  | fewFailed {i d e} (hd : u.processMessage s.round i (s.delivery s.round i) = (d, some e))
      (hi : i < u.size s.round) :
      DriveMove u s (.few i) ((s.deliver s.round i d).goto (.returned (some (.wrap
        ("pull process subject=" ++ quoted (u.msg s.round i).subject ++ ": ") e ""))))
  | fewAll {i} (hi : ¬ i < u.size s.round) : DriveMove u s (.few i) (s.goto (.returned none))
  | sawErr {i} (he : (s.firstErr s.round).isSome = true) (hi : i < u.size s.round) :
      DriveMove u s (.produce i) (s.goto (.nak i .close))
  | sawNoErr {i} (he : s.firstErr s.round = none) (hi : i < u.size s.round) :
      DriveMove u s (.produce i) (s.goto (.produceCtx i))
  | producedAll {i} (hi : ¬ i < u.size s.round) : DriveMove u s (.produce i) (s.goto .close)
  | sawDone {i} (hc : s.ctxErr.isSome = true) :
      DriveMove u s (.produceCtx i) (s.goto (.nak i .close))
  | produced {i} (hc : s.ctxErr = none) :
      DriveMove u s (.produceCtx i) ({ s with jobs := s.jobs ++ [i] }.goto (.produce (i + 1)))
  | closed : DriveMove u s .close ({ s with closed := true }.goto .join)
  | joined (hw : ∀ n < u.workers s.round, s.worker n = .exited) :
      DriveMove u s .join (s.goto .last)
  | ended : DriveMove u s .last (s.goto (.returned (s.ctxErr.map processErr)))

theorem driveStep_move {viaCtx : Bool} (h : driveStep u s viaCtx = some t) :
    DriveMove u s s.pc t := by
  unfold driveStep at h
  split at h <;> rename_i hpc <;> rw [hpc]
  · split_ifs at h with hi
    · split at h <;> cases h
      · exact .stopped ‹_› hi
      · exact .checked ‹_› hi
    · cases h; exact .checkedAll hi
  · cases h; exact .handled rfl
  · split_ifs at h with hi <;> cases h
    · exact .nakked hi
    · exact .nakkedAll hi
  · split_ifs at h with hi
    · split at h <;> cases h
      · exact .poolStopped ‹_› hi
      · exact .offering ‹_› hi
    · cases h; exact .offeredAll hi
  · split at h <;> cases h
    exact .offered ‹_›
  · cases h; exact .looked
  · cases h; exact .decided rfl
  · split at h <;> cases h
    exact .published ‹_›
  · split at h
    · cases h; exact .givenUp ‹_›
    · split_ifs at h with hw
      cases h
      exact .waited hw
    · cases h
  · split at h <;> cases h
    · exact .failed ‹_›
    · exact .succeeded ‹_›
  · split_ifs at h with hi
    · simp only at h
      split at h <;> rename_i hr <;> cases h
      · exact .fewHandled (Prod.ext rfl hr) hi
      · exact .fewFailed (Prod.ext rfl hr) hi
    · cases h; exact .fewAll hi
  · split_ifs at h with hi he <;> cases h
    · exact .sawErr he hi
    · exact .sawNoErr (by simpa using he) hi
    · exact .producedAll hi
  · split_ifs at h with hc <;> cases h
    · exact .sawDone hc
    · exact .produced (by simpa using hc)
  · cases h; exact .closed
  · split_ifs at h with hw
    cases h
    exact .joined hw
  · cases h; exact .ended
  · cases h

-- Everything a step of a worker of processBatchConcurrent can do, by where it is.
inductive WorkerMove (u : Setup Q) (s : State Q W S) (n : Nat) : WorkerPc → State Q W S → Prop
  | received {i rest} (hj : s.jobs = i :: rest) :
      WorkerMove u s n .recv ({ s with jobs := rest }.setWorker n (.check i))
  | exited (hj : s.jobs = []) (hc : s.closed = true) : WorkerMove u s n .recv (s.setWorker n .exited)
  | stopped {i e} (hc : s.ctxErr = some e) :
      WorkerMove u s n (.check i) ((s.record s.round (some e)).setWorker n (.nak i))
  | checked {i} (hc : s.ctxErr = none) : WorkerMove u s n (.check i) (s.setWorker n (.handle i))
  | nakked {i} : WorkerMove u s n (.nak i) ((s.nak u i).setWorker n .recv)
  | handled {i d} (hd : u.processMessage s.round i (s.delivery s.round i) = (d, none)) :
      WorkerMove u s n (.handle i) ((s.deliver s.round i d).setWorker n .recv)
  | failed {i d e} (hd : u.processMessage s.round i (s.delivery s.round i) = (d, some e)) :
      WorkerMove u s n (.handle i) ((s.deliver s.round i d).setWorker n (.record (.wrap
        ("pull process subject=" ++ quoted (u.msg s.round i).subject ++ ": ") e "")))
  | recorded {e} :
      WorkerMove u s n (.record e) ((s.record s.round (some e)).setWorker n .recv)

theorem workerStep_move {n : Nat} (h : workerStep u s n = some t) :
    WorkerMove u s n (s.worker n) t := by
  unfold workerStep at h
  split at h <;> rename_i hpc <;> rw [hpc]
  · split at h
    · cases h; exact .received ‹_›
    · split_ifs at h with hc
      cases h
      exact .exited ‹_› hc
  · split at h <;> cases h
    · exact .stopped ‹_›
    · exact .checked ‹_›
  · cases h; exact .nakked
  · simp only at h
    split at h <;> rename_i hr <;> cases h
    · exact .handled (Prod.ext rfl hr)
    · exact .failed (Prod.ext rfl hr)
  · cases h; exact .recorded
  · cases h

-- What a step does to message i of batch k.
inductive Touched (u : Setup Q) (k i : Nat) (d : Delivery) : Delivery → Prop
  | same : Touched u k i d d
  | settled (kind : AckKind) : Touched u k i d (d.settle (u.wire k i) kind).1
  | processed : Touched u k i d (u.processMessage k i d).1

-- processMessage may open the payload, and it settles the message at most once.
theorem Setup.processMessage_fst (u : Setup Q) (k i : Nat) (d : Delivery) :
    ∃ opened : Msg, opened.bound = d.msg.bound ∧ opened.reply = d.msg.reply ∧
      ((u.processMessage k i d).1 = ⟨opened, d.log⟩ ∨
        ∃ kind, (u.processMessage k i d).1 =
          (Delivery.settle (u.wire k i) ⟨opened, d.log⟩ kind).1) := by
  simp only [Setup.processMessage, NatsClient.processMessage]
  split
  · exact ⟨d.msg, rfl, rfl, .inr ⟨.nak 0, rfl⟩⟩
  · next opened ho =>
    have haddr : opened.bound = d.msg.bound ∧ opened.reply = d.msg.reply := by
      split_ifs at ho
      · exact maybeDecompressMsg_address ho
      · cases ho; exact ⟨rfl, rfl⟩
    refine ⟨opened, haddr.1, haddr.2, ?_⟩
    simp only [invokeMsgHandler, Setup.handler]
    cases (u.outcome k i).err with
    | none => exact .inr ⟨.ack, settleOutcome_none_fst _ _ _⟩
    | some e =>
      rw [settleOutcome_some_fst]
      split_ifs
      · exact .inl rfl
      · exact .inr ⟨.nak 0, rfl⟩

def AllTouched (u : Setup Q) (s t : State Q W S) : Prop :=
  ∀ k i, Touched u k i (s.delivery k i) (t.delivery k i)

theorem allTouched_of_eq (h : t.delivery = s.delivery) : AllTouched u s t := by
  intro k i
  rw [h]
  exact .same

theorem deliver_self (s : State Q W S) (k i : Nat) (d : Delivery) :
    (s.deliver k i d).delivery k i = d := by
  simp [State.deliver]

theorem deliver_of_ne (s : State Q W S) (k : Nat) (d : Delivery) {i j : Nat} (hne : j ≠ i) :
    (s.deliver k i d).delivery k j = s.delivery k j := by
  simp [State.deliver, hne]

theorem allTouched_of_deliver {k i : Nat} {d : Delivery}
    (hd : Touched u k i (s.delivery k i) d)
    (h : t.delivery = (s.deliver k i d).delivery) : AllTouched u s t := by
  intro k' i'
  rw [h]
  by_cases hk : k' = k
  · subst hk
    by_cases hi : i' = i
    · subst hi
      rw [deliver_self]
      exact hd
    · rw [deliver_of_ne s _ _ hi]
      exact .same
  · simp only [State.deliver, Function.update_of_ne hk]
    exact .same

theorem handlePoolBackpressure_touched (k i : Nat) (depth again : Int) (d : Delivery) :
    Touched u k i d (handlePoolBackpressure u.consumer (u.wire k i) depth again d).1 := by
  rcases handlePoolBackpressure_fst u.consumer (u.wire k i) depth again d with h | ⟨kind, h⟩
  · rw [h]
    exact .same
  · rw [h]
    exact .settled kind

theorem published_delivery (s : State Q W S) (i : Nat) (blocking : Bool)
    (result : WorkerPool.Result) : (published s i blocking result).delivery = s.delivery := by
  unfold published
  split
  · rfl
  · rfl
  · split_ifs <;> rfl

theorem decided_delivery (s : State Q W S) (i : Nat) (err : Option GoError) :
    (Pull.decided s i err).delivery = s.delivery := by
  unfold Pull.decided
  split_ifs <;> rfl

theorem touched_of_eq {k i : Nat} {d next : Delivery} {err : Option GoError}
    (h : u.processMessage k i d = (next, err)) : Touched u k i d next := by
  have hnext : (u.processMessage k i d).1 = next := by rw [h]
  exact hnext ▸ .processed

theorem DriveMove.touched {pc : Pc} (h : DriveMove u s pc t) : AllTouched u s t := by
  cases h with
  | handled hd => exact allTouched_of_deliver (hd ▸ .processed) rfl
  | fewHandled hd => exact allTouched_of_deliver (touched_of_eq hd) rfl
  | fewFailed hd => exact allTouched_of_deliver (touched_of_eq hd) rfl
  | nakked hi => exact allTouched_of_deliver (.settled _) rfl
  | decided hr =>
    exact allTouched_of_deliver (hr ▸ handlePoolBackpressure_touched _ _ _ _ _)
      (decided_delivery _ _ _)
  | offered hp => exact allTouched_of_eq (published_delivery _ _ _ _)
  | published hp => exact allTouched_of_eq (published_delivery _ _ _ _)
  | _ => exact allTouched_of_eq rfl

theorem WorkerMove.touched {n : Nat} {pc : WorkerPc} (h : WorkerMove u s n pc t) :
    AllTouched u s t := by
  cases h with
  | nakked => exact allTouched_of_deliver (.settled _) rfl
  | handled hd => exact allTouched_of_deliver (touched_of_eq hd) rfl
  | failed hd => exact allTouched_of_deliver (touched_of_eq hd) rfl
  | _ => exact allTouched_of_eq rfl

theorem jobStep_touched {call : Call} (h : jobStep u s call = some t) : AllTouched u s t := by
  unfold jobStep at h
  split at h <;> cases h
  · exact allTouched_of_deliver .processed rfl
  · exact allTouched_of_eq rfl

-- What processBatch leaves alone.
structure DriveFrame (s t : State Q W S) : Prop where
  round : t.round = s.round
  ctxErr : t.ctxErr = s.ctxErr
  worker : t.worker = s.worker
  job : t.job = s.job
  pool : t.pool = s.pool

theorem published_frame (s : State Q W S) (i : Nat) (blocking : Bool)
    (result : WorkerPool.Result) : DriveFrame s (published s i blocking result) := by
  unfold published
  split
  · exact ⟨rfl, rfl, rfl, rfl, rfl⟩
  · exact ⟨rfl, rfl, rfl, rfl, rfl⟩
  · split_ifs <;> exact ⟨rfl, rfl, rfl, rfl, rfl⟩

theorem decided_frame (s : State Q W S) (i : Nat) (err : Option GoError) :
    DriveFrame s (Pull.decided s i err) := by
  unfold Pull.decided
  split_ifs <;> exact ⟨rfl, rfl, rfl, rfl, rfl⟩

theorem DriveMove.frame {pc : Pc} (h : DriveMove u s pc t) : DriveFrame s t := by
  cases h with
  | @decided i depth result hr =>
    have hf := decided_frame (s.deliver s.round i result.1) i result.2
    exact ⟨hf.round, hf.ctxErr, hf.worker, hf.job, hf.pool⟩
  | offered hp => exact published_frame _ _ _ _
  | published hp => exact published_frame _ _ _ _
  | _ => exact ⟨rfl, rfl, rfl, rfl, rfl⟩

-- What the workers of processBatchConcurrent leave alone.
structure WorkerFrame (s t : State Q W S) : Prop where
  round : t.round = s.round
  pc : t.pc = s.pc
  ctxErr : t.ctxErr = s.ctxErr
  job : t.job = s.job
  pool : t.pool = s.pool

theorem WorkerMove.frame {n : Nat} {pc : WorkerPc} (h : WorkerMove u s n pc t) :
    WorkerFrame s t := by
  cases h <;> exact ⟨rfl, rfl, rfl, rfl, rfl⟩

-- What a function that the pool runs leaves alone.
structure JobFrame (s t : State Q W S) : Prop where
  round : t.round = s.round
  pc : t.pc = s.pc
  ctxErr : t.ctxErr = s.ctxErr
  worker : t.worker = s.worker
  pool : t.pool = s.pool

theorem jobStep_frame {call : Call} (h : jobStep u s call = some t) : JobFrame s t := by
  unfold jobStep at h
  split at h <;> cases h <;> exact ⟨rfl, rfl, rfl, rfl, rfl⟩

variable [DecidableEq Q] [DecidableEq W] [DecidableEq S]

theorem poolStep_eq {act : WorkerPool.Act (Call ⊕ Q) W S} (h : poolStep u s act = some t) :
    allowed s act = true ∧ ∃ pool, WorkerPool.step u.pool s.pool act = some pool ∧
      t = { s with
        pool := pool
        job := (started s act).elim s.job fun call => Function.update s.job call .running } := by
  unfold poolStep at h
  split_ifs at h with ha
  obtain ⟨pool, hpool, rfl⟩ := Option.map_eq_some_iff.mp h
  exact ⟨ha, pool, hpool, rfl⟩

def Act.isCancel : Act Q W S → Bool
  | .cancel _ => true
  | _ => false

-- Where processBatch is changes by its own steps only.
theorem step_pc {a : Act Q W S} (h : step u s a = some t) :
    (∃ viaCtx, a = .drive viaCtx ∧ DriveMove u s s.pc t) ∨ t.pc = s.pc := by
  cases a with
  | drive viaCtx => exact .inl ⟨viaCtx, rfl, driveStep_move h⟩
  | worker n =>
    simp only [step] at h
    split_ifs at h
    exact .inr (workerStep_move h).frame.pc
  | job call => exact .inr (jobStep_frame h).pc
  | pool act =>
    obtain ⟨-, pool, -, rfl⟩ := poolStep_eq h
    exact .inr rfl
  | cancel err =>
    simp only [step, cancelStep] at h
    split_ifs at h
    cases h
    exact .inr rfl

theorem step_ctxErr {a : Act Q W S} (h : step u s a = some t) (ha : a.isCancel = false) :
    t.ctxErr = s.ctxErr := by
  cases a with
  | drive viaCtx => exact (driveStep_move h).frame.ctxErr
  | worker n =>
    simp only [step] at h
    split_ifs at h
    exact (workerStep_move h).frame.ctxErr
  | job call => exact (jobStep_frame h).ctxErr
  | pool act =>
    obtain ⟨-, pool, -, rfl⟩ := poolStep_eq h
    rfl
  | cancel err => cases ha

theorem step_touched {a : Act Q W S} (h : step u s a = some t) : AllTouched u s t := by
  cases a with
  | drive viaCtx => exact (driveStep_move h).touched
  | worker n =>
    simp only [step] at h
    split_ifs at h
    exact (workerStep_move h).touched
  | job call => exact jobStep_touched h
  | pool act =>
    obtain ⟨-, pool, -, rfl⟩ := poolStep_eq h
    exact allTouched_of_eq rfl
  | cancel err =>
    simp only [step, cancelStep] at h
    split_ifs at h
    cases h
    exact allTouched_of_eq rfl

end NatsClient.Pull
