import NatsClient.WorkerPool

namespace NatsClient.WorkerPool

variable {C M F P W S : Type} {cfg : Config C M F P} {sh sh' : Shared C M F P} {p : P}

-- Only the mutex and the notify list change.
structure Quiet (sh sh' : Shared C M F P) : Prop where
  flag : sh'.flag = sh.flag
  ctxErr : sh'.ctxErr = sh.ctxErr
  closed : sh'.closed = sh.closed
  publishers : sh'.publishers = sh.publishers
  depth : sh'.depth = sh.depth
  inFlight : sh'.inFlight = sh.inFlight
  wg : sh'.wg = sh.wg
  input : sh'.input = sh.input
  heap : sh'.heap = sh.heap
  free : sh'.free = sh.free
  fresh : sh'.fresh = sh.fresh
  callerErr : sh'.callerErr = sh.callerErr
  log : sh'.log = sh.log

theorem quiet_of_eq {locked : Bool} {waits notified : Nat}
    (h : sh' = { sh with locked := locked, waits := waits, notified := notified }) :
    Quiet sh sh' := by
  subst h
  constructor <;> rfl

theorem Quiet.refl (sh : Shared C M F P) : Quiet sh sh := quiet_of_eq rfl

theorem signal_quiet {stage : Stage} {next : Option Stage}
    (h : signal sh stage = some (sh', next)) : Quiet sh sh' := by
  cases stage with
  | lock =>
    unfold signal at h
    split_ifs at h
    cases h
    exact quiet_of_eq rfl
  | broadcast => cases h; exact quiet_of_eq rfl
  | unlock => cases h; exact quiet_of_eq rfl

-- What lets a select without a partner for its send go on.
def Cause.due (cfg : Config C M F P) (sh : Shared C M F P) (p : P) : Cause → Prop
  | .full => (cfg.request p).nonBlocking = true
  | .caller err => sh.callerErr p = some err
  | .pool => sh.ctxErr.isSome = true

-- Everything a step of tryPublish can do. The send stands for a handoff as well and
-- leaves the capacity aside.
inductive PubMove (cfg : Config C M F P) (sh : Shared C M F P) (p : P) :
    PubPc → Shared C M F P → PubPc → Prop
  | begun : PubMove cfg sh p .idle { sh with publishers := sh.publishers + 1 } .gate
  | passed (h : sh.flag = .running) : PubMove cfg sh p .gate sh .get
  | refused (h : sh.flag ≠ .running) :
      PubMove cfg sh p .gate sh (.leave (.failed (.sentinel .errPoolStopped)))
  | made : PubMove cfg sh p .get { sh with fresh := sh.fresh + 1 } (.fill sh.fresh)
  | reused {r} (h : r ∈ sh.free) :
      PubMove cfg sh p .get { sh with free := sh.free.erase r } (.fill r)
  | filled {r} : PubMove cfg sh p (.fill r)
      { sh with heap := Function.update sh.heap r (cfg.request p).task } (.count r)
  | counted {r} : PubMove cfg sh p (.count r) { sh with depth := sh.depth + 1 } (.send r)
  | sent {r} : PubMove cfg sh p (.send r) { sh with input := sh.input ++ [(r, p)] } (.sent .lock)
  | gaveUp {r cause} (h : cause.due cfg sh p) : PubMove cfg sh p (.send r) sh (.rollback r cause)
  | signalled {sh' stage next} (h : signal sh stage = some (sh', next)) :
      PubMove cfg sh p (.sent stage) sh' (next.elim (.leave .accepted) .sent)
  | rolledBack {r cause} : PubMove cfg sh p (.rollback r cause)
      { sh with depth := sh.depth - 1 } (.discard r cause)
  | discarded {r cause} : PubMove cfg sh p (.discard r cause) (put sh r) cause.next
  | rechecked {e} : PubMove cfg sh p .recheck sh (.leave (.failed e))
  | leaving {result} : PubMove cfg sh p (.leave result)
      { sh with publishers := sh.publishers - 1 } (.left .lock result)
  | finished {sh' stage next result} (h : signal sh stage = some (sh', next)) :
      PubMove cfg sh p (.left stage result) sh' (next.elim (.done result) (.left · result))

theorem pubStep_move {pc pc' : PubPc} {choice : Choice}
    (h : pubStep cfg sh p pc choice = some (sh', pc')) : PubMove cfg sh p pc sh' pc' := by
  unfold pubStep at h
  split at h
  · cases h; exact .begun
  · split_ifs at h with hflag <;> cases h
    · exact .passed hflag
    · exact .refused hflag
  · cases h; exact .made
  · split_ifs at h with hr
    cases h
    exact .reused hr
  · cases h; exact .filled
  · cases h; exact .counted
  · split_ifs at h
    cases h
    exact .sent
  · split_ifs at h with hfull
    cases h
    exact .gaveUp hfull.1
  · split at h
    · next e _ he =>
      cases h
      exact .gaveUp he
    · cases h
  · split_ifs at h with hpool
    cases h
    exact .gaveUp hpool.2
  · obtain ⟨next, hs, he⟩ := Option.map_eq_some_iff.mp h
    cases he
    exact .signalled hs
  · cases h; exact .rolledBack
  · cases h; exact .discarded
  · split_ifs at h <;> cases h <;> exact .rechecked
  · cases h; exact .leaving
  · obtain ⟨next, hs, he⟩ := Option.map_eq_some_iff.mp h
    cases he
    exact .finished hs
  · cases h

-- The steps of drain at which a worker has nothing in hand and has read nothing yet
-- that could let it return.
def WorkPc.drains : WorkPc P → Bool
  | .tryRecv | .loadPublishers | .lock | .testPublishers | .testDepth | .testInFlight | .againRecv
  | .againPublishers | .againDepth | .againInFlight | .wait | .parked _ | .unlock => true
  | _ => false

def Stage.holdsLock : Stage → Bool
  | .lock => false
  | _ => true

def WorkPc.holdsLock : WorkPc P → Bool
  | .entered stage _ _ _ | .exited stage _ => stage.holdsLock
  | .testPublishers | .testDepth | .testInFlight | .againRecv | .unlockTo _ _ | .againPublishers
  | .againDepth | .againInFlight | .wait | .unlock => true
  | _ => false

-- Everything a step of a worker can do.
inductive WorkMove (cfg : Config C M F P) (sh : Shared C M F P) :
    WorkPc P → Shared C M F P → WorkPc P → Prop
  | received {pc r p rest pc'} (h : sh.input = (r, p) :: rest) (hpc : received pc r p = some pc') :
      WorkMove cfg sh pc { sh with input := rest } pc'
  | cancelled (h : sh.ctxErr.isSome = true) : WorkMove cfg sh .select sh .tryRecv
  | took {r p back} : WorkMove cfg sh (.take r p back)
      { sh with depth := sh.depth - 1 } (.enter r p back)
  | entered {r p back} : WorkMove cfg sh (.enter r p back)
      { sh with inFlight := sh.inFlight + 1 } (.entered .lock r p back)
  | signalled {sh' stage next r p back} (h : signal sh stage = some (sh', next)) :
      WorkMove cfg sh (.entered stage r p back) sh'
        (next.elim (.invoke r p back) (.entered · r p back))
  | invoked {r p back} : WorkMove cfg sh (.invoke r p back)
      { sh with log := sh.log ++ [(sh.heap r).invocation cfg.registerFn p] } (.handling r p back)
  | handled {r p back} : WorkMove cfg sh (.handling r p back) sh (.clear r back)
  | cleared {r back} : WorkMove cfg sh (.clear r back) (put sh r) (.exit back)
  | exited {back} : WorkMove cfg sh (.exit back)
      { sh with inFlight := sh.inFlight - 1 } (.exited .lock back)
  | returned {sh' stage next back} (h : signal sh stage = some (sh', next)) :
      WorkMove cfg sh (.exited stage back) sh' (next.elim back.next (.exited · back))
  | unlocked {r p} : WorkMove cfg sh (.unlockTo r p) { sh with locked := false } (.take r p .inner)
  | drained {sh' pc pc'} (h : Quiet sh sh') (hpc : pc.drains = true) (hpc' : pc'.drains = true)
      (hl : sh'.locked = true →
        pc'.holdsLock = true ∨ (sh.locked = true ∧ pc.holdsLock = false)) :
      WorkMove cfg sh pc sh' pc'
  | sawNoPublishers (h : sh.publishers = 0) : WorkMove cfg sh .loadPublishers sh .loadDepth
  | sawNoDepth (h : sh.depth = 0) : WorkMove cfg sh .loadDepth sh .loadInFlight
  | sawDepth : WorkMove cfg sh .loadDepth sh .lock
  | sawNoInFlight (h : sh.inFlight = 0) : WorkMove cfg sh .loadInFlight sh .exiting
  | sawInFlight : WorkMove cfg sh .loadInFlight sh .lock
  | finished : WorkMove cfg sh .exiting { sh with wg := sh.wg - 1 } .gone

theorem workStep_move {pc pc' : WorkPc P} {choice : Choice}
    (h : workStep cfg sh pc choice = some (sh', pc')) : WorkMove cfg sh pc sh' pc' := by
  unfold workStep at h
  split at h
  · split_ifs at h with hctx
    cases h
    exact .cancelled hctx
  · cases h; exact .took
  · cases h; exact .entered
  · obtain ⟨next, hs, he⟩ := Option.map_eq_some_iff.mp h
    cases he
    exact .signalled hs
  · cases h; exact .invoked
  · cases h; exact .handled
  · cases h; exact .cleared
  · cases h; exact .exited
  · obtain ⟨next, hs, he⟩ := Option.map_eq_some_iff.mp h
    cases he
    exact .returned hs
  · split_ifs at h
    cases h
    exact .drained (.refl sh) rfl rfl (by simp [WorkPc.holdsLock])
  · cases h
    split_ifs with hp
    · exact .sawNoPublishers hp
    · exact .drained (.refl sh) rfl rfl (by simp [WorkPc.holdsLock])
  · cases h
    split_ifs with hd
    · exact .sawNoDepth hd
    · exact .sawDepth
  · cases h
    split_ifs with hi
    · exact .sawNoInFlight hi
    · exact .sawInFlight
  · split_ifs at h
    cases h
    exact .drained (quiet_of_eq rfl) rfl rfl (by simp [WorkPc.holdsLock])
  -- the three loads of the loop condition
  iterate 3
    · cases h
      split_ifs <;> exact .drained (.refl sh) rfl rfl (by simp [WorkPc.holdsLock])
  · split_ifs at h
    cases h
    exact .drained (.refl sh) rfl rfl (by simp [WorkPc.holdsLock])
  · cases h; exact .unlocked
  -- the three loads before the wait
  iterate 3
    · cases h
      split_ifs <;> exact .drained (.refl sh) rfl rfl (by simp [WorkPc.holdsLock])
  · cases h; exact .drained (quiet_of_eq rfl) rfl rfl (by simp [WorkPc.holdsLock])
  · split_ifs at h
    cases h
    exact .drained (.refl sh) rfl rfl (by simp [WorkPc.holdsLock])
  · cases h; exact .drained (quiet_of_eq rfl) rfl rfl (by simp [WorkPc.holdsLock])
  · cases h; exact .finished
  · split at h
    · cases h
    · next r p rest hin =>
      obtain ⟨next, hnext, he⟩ := Option.map_eq_some_iff.mp h
      cases he
      exact .received hin hnext
  · cases h

-- Everything a step of GracefulStop can do.
inductive StopMove (sh : Shared C M F P) : StopPc → Shared C M F P → StopPc → Prop
  | won (h : sh.flag = .running) : StopMove sh .start { sh with flag := .draining } .cancel
  | lost (h : sh.flag ≠ .running) : StopMove sh .start sh .waitStopped
  | cancelled : StopMove sh .cancel
      { sh with ctxErr := sh.ctxErr.or (some (.sentinel .canceled)) } (.cancelled .lock)
  | signalled {sh' stage next} (h : signal sh stage = some (sh', next)) :
      StopMove sh (.cancelled stage) sh' (next.elim .waitGroup .cancelled)
  | waited (h : sh.wg = 0) : StopMove sh .waitGroup sh .store
  | stored : StopMove sh .store { sh with flag := .stopped } .close
  | closed : StopMove sh .close { sh with closed := true } .returned
  | returned (h : sh.closed = true) : StopMove sh .waitStopped sh .returned

theorem stopStep_move {pc pc' : StopPc} (h : stopStep sh pc = some (sh', pc')) :
    StopMove sh pc sh' pc' := by
  unfold stopStep at h
  split at h
  · split_ifs at h with hflag <;> cases h
    · exact .won hflag
    · exact .lost hflag
  · cases h; exact .cancelled
  · obtain ⟨next, hs, he⟩ := Option.map_eq_some_iff.mp h
    cases he
    exact .signalled hs
  · split_ifs at h with hwg
    cases h
    exact .waited hwg
  · cases h; exact .stored
  · cases h; exact .closed
  · split_ifs at h with hclosed
    cases h
    exact .returned hclosed
  · cases h

variable [DecidableEq P] [DecidableEq W] [DecidableEq S] {s t : State C M F P W S}

-- A step of one thread, or of the context of a caller.
inductive Move (cfg : Config C M F P) (s : State C M F P W S) : State C M F P W S → Prop
  | publish {p sh' pc'} (h : PubMove cfg s.shared p (s.pub p) sh' pc') :
      Move cfg s (s.setPub p (sh', pc'))
  | work {w sh' pc'} (h : WorkMove cfg s.shared (s.work w) sh' pc') :
      Move cfg s (s.setWork w (sh', pc'))
  | stop {i sh' pc'} (h : StopMove s.shared (s.stop i) sh' pc') :
      Move cfg s (s.setStop i (sh', pc'))
  | caller {callerErr} : Move cfg s { s with shared := { s.shared with callerErr := callerErr } }

def Act.isParent : Act P W S → Bool
  | .cancelParent _ => true
  | _ => false

-- A handoff is a send and the receive of what was sent.
theorem step_move {a : Act P W S} (ha : a.isParent = false) (h : step cfg s a = some t) :
    Move cfg s t ∨ ∃ mid, Move cfg s mid ∧ Move cfg mid t := by
  cases a with
  | publish p choice =>
    obtain ⟨next, hnext, rfl⟩ := Option.map_eq_some_iff.mp h
    exact .inl (.publish (pubStep_move hnext))
  | work w choice =>
    obtain ⟨next, hnext, rfl⟩ := Option.map_eq_some_iff.mp h
    exact .inl (.work (workStep_move hnext))
  | stop i =>
    obtain ⟨next, hnext, rfl⟩ := Option.map_eq_some_iff.mp h
    exact .inl (.stop (stopStep_move hnext))
  | cancelCaller p err =>
    simp only [step] at h
    split_ifs at h
    cases h
    exact .inl .caller
  | cancelParent err => cases ha
  | handoff p w =>
    right
    simp only [step, handoffStep] at h
    split at h
    · next r hpub =>
      split_ifs at h with hcond
      obtain ⟨next, hnext, rfl⟩ := Option.map_eq_some_iff.mp h
      have hsh : { s.shared with input := [] } = s.shared := by rw [← hcond.2.1]
      let mid := s.setPub p ({ s.shared with input := s.shared.input ++ [(r, p)] }, .sent .lock)
      refine ⟨mid, .publish (hpub ▸ .sent), ?_⟩
      have hrecv : WorkMove cfg mid.shared (mid.work w) { mid.shared with input := [] } next :=
        .received (by simp [mid, State.setPub, hcond.2.1]) hnext
      have hmove := Move.work hrecv
      rwa [show { mid.shared with input := [] } = s.shared from hsh] at hmove
    · cases h

end NatsClient.WorkerPool
