import NatsClient.GoError
import NatsClient.Lib.Machine
import Mathlib.Logic.Function.Basic

namespace NatsClient.WorkerPool

-- A task object, known by its address r. Its fields are zero while nobody has filled it.
structure Task (C M F : Type) where
  ctx : Option C
  msg : Option M
  processFn : Option F
  applyFn : Bool

-- The arguments of one call of tryPublish.
structure Request (C M F : Type) where
  ctx : C
  msg : M
  applyFn : Bool
  processFn : Option F
  nonBlocking : Bool

-- What New fixes, and the calls of tryPublish to come.
structure Config (C M F P : Type) where
  capacity : Nat
  registerFn : Option F
  request : P → Request C M F

-- The sizes that New works with.
def poolLen (workerPoolLen : Int) : Nat := if workerPoolLen < 1 then 1 else workerPoolLen.toNat

def bufLen (messageBufLen : Int) : Nat := if messageBufLen < 0 then 0 else messageBufLen.toNat

inductive Flag
  | running
  | draining
  | stopped
  deriving DecidableEq, Repr

-- The result of tryPublish.
inductive Result
  | accepted
  | rejected
  | failed (err : GoError)
  deriving DecidableEq, Repr

-- Why tryPublish gives up.
inductive Cause
  | full
  | caller (err : GoError)
  | pool
  deriving DecidableEq, Repr

-- The steps of signalDrain.
inductive Stage
  | lock
  | broadcast
  | unlock
  deriving DecidableEq, Repr

-- The next step of a call of tryPublish.
inductive PubPc
  | idle
  | gate
  | get
  | fill (r : Nat)
  | count (r : Nat)
  | send (r : Nat)
  | sent (stage : Stage)
  | rollback (r : Nat) (cause : Cause)
  | discard (r : Nat) (cause : Cause)
  | recheck
  | leave (result : Result)
  | left (stage : Stage) (result : Result)
  | done (result : Result)
  deriving DecidableEq, Repr

-- Where process returns to.
inductive Back
  | runner
  | outer
  | inner
  deriving DecidableEq, Repr

-- The next step of a worker. A task in its hands is known by its address; the call
-- it stems from is kept for reference.
inductive WorkPc (P : Type)
  | select
  -- process
  | take (r : Nat) (p : P) (back : Back)
  | enter (r : Nat) (p : P) (back : Back)
  | entered (stage : Stage) (r : Nat) (p : P) (back : Back)
  | invoke (r : Nat) (p : P) (back : Back)
  | handling (r : Nat) (p : P) (back : Back)
  | clear (r : Nat) (back : Back)
  | exit (back : Back)
  | exited (stage : Stage) (back : Back)
  -- the outer loop of drain
  | tryRecv
  | loadPublishers
  | loadDepth
  | loadInFlight
  -- the inner loop of drain
  | lock
  | testPublishers
  | testDepth
  | testInFlight
  | againRecv
  | unlockTo (r : Nat) (p : P)
  | againPublishers
  | againDepth
  | againInFlight
  | wait
  | parked (ticket : Nat)
  | unlock
  -- the deferred wg.Done
  | exiting
  | gone
  deriving DecidableEq

-- The next step of a call of GracefulStop.
inductive StopPc
  | start
  | cancel
  | cancelled (stage : Stage)
  | waitGroup
  | store
  | close
  | waitStopped
  | returned
  deriving DecidableEq, Repr

-- The call of a handler: the function, if there is one, and its arguments.
structure Invocation (C M F P : Type) where
  origin : P
  handler : Option F
  ctx : Option C
  msg : Option M

structure Shared (C M F P : Type) where
  flag : Flag
  -- The error of the context of the pool, once it is done.
  ctxErr : Option GoError
  closed : Bool
  publishers : Int
  depth : Int
  inFlight : Int
  wg : Int
  input : List (Nat × P)
  heap : Nat → Task C M F
  -- The sync.Pool, and the address of the next object that it makes.
  free : List Nat
  fresh : Nat
  locked : Bool
  -- The tickets that the notify list of cond has given out, and notified.
  waits : Nat
  notified : Nat
  -- The error of the context of each call, once it is done.
  callerErr : P → Option GoError
  log : List (Invocation C M F P)

structure State (C M F P W S : Type) where
  shared : Shared C M F P
  pub : P → PubPc
  work : W → WorkPc P
  stop : S → StopPc

-- What a thread does where several things can happen.
inductive Choice
  | go
  | reuse (r : Nat)
  | giveUp
  | callerDone
  | poolDone
  deriving DecidableEq, Repr

inductive Act (P W S : Type)
  | publish (p : P) (choice : Choice)
  | work (w : W) (choice : Choice)
  | handoff (p : P) (w : W)
  | stop (s : S)
  | cancelCaller (p : P) (err : GoError)
  | cancelParent (err : GoError)

-- The call of tryPublish that an action belongs to.
def Act.publisher? {P W S : Type} : Act P W S → Option P
  | .publish p _ | .handoff p _ => some p
  | _ => none

variable {C M F P W S : Type} [DecidableEq P] [DecidableEq W] [DecidableEq S]

def Task.zero : Task C M F := ⟨none, none, none, false⟩

def Request.task (req : Request C M F) : Task C M F :=
  ⟨some req.ctx, some req.msg, req.processFn, req.applyFn⟩

-- The switch of process.
def Task.handler (registerFn : Option F) (t : Task C M F) : Option F :=
  if t.applyFn && t.processFn.isSome then t.processFn else registerFn

def Task.invocation (registerFn : Option F) (t : Task C M F) (p : P) : Invocation C M F P :=
  ⟨p, t.handler registerFn, t.ctx, t.msg⟩

-- One step of signalDrain, and the one after it.
def signal (sh : Shared C M F P) : Stage → Option (Shared C M F P × Option Stage)
  | .lock => if sh.locked then none else some ({ sh with locked := true }, some .broadcast)
  | .broadcast => some ({ sh with notified := sh.waits }, some .unlock)
  | .unlock => some ({ sh with locked := false }, none)

def put (sh : Shared C M F P) (r : Nat) : Shared C M F P :=
  { sh with heap := Function.update sh.heap r .zero, free := r :: sh.free }

-- What comes after the rollback.
def Cause.next : Cause → PubPc
  | .full => .leave .rejected
  | .caller e => .leave (.failed e)
  | .pool => .recheck

def pubStep (cfg : Config C M F P) (sh : Shared C M F P) (p : P) :
    PubPc → Choice → Option (Shared C M F P × PubPc)
  | .idle, .go => some ({ sh with publishers := sh.publishers + 1 }, .gate)
  | .gate, .go =>
    if sh.flag = .running then some (sh, .get)
    else some (sh, .leave (.failed (.sentinel .errPoolStopped)))
  | .get, .go => some ({ sh with fresh := sh.fresh + 1 }, .fill sh.fresh)
  | .get, .reuse r =>
    if r ∈ sh.free then some ({ sh with free := sh.free.erase r }, .fill r) else none
  | .fill r, .go =>
    some ({ sh with heap := Function.update sh.heap r (cfg.request p).task }, .count r)
  | .count r, .go => some ({ sh with depth := sh.depth + 1 }, .send r)
  | .send r, .go =>
    if sh.input.length < cfg.capacity then
      some ({ sh with input := sh.input ++ [(r, p)] }, .sent .lock)
    else none
  -- the default branch; without a buffer it depends on a receiver being there
  | .send r, .giveUp =>
    if (cfg.request p).nonBlocking ∧ cfg.capacity ≤ sh.input.length then
      some (sh, .rollback r .full)
    else none
  | .send r, .callerDone =>
    match (cfg.request p).nonBlocking, sh.callerErr p with
    | false, some e => some (sh, .rollback r (.caller e))
    | _, _ => none
  | .send r, .poolDone =>
    if !(cfg.request p).nonBlocking ∧ sh.ctxErr.isSome then some (sh, .rollback r .pool) else none
  | .sent stage, .go =>
    (signal sh stage).map fun (sh, next) => (sh, next.elim (.leave .accepted) .sent)
  | .rollback r cause, .go => some ({ sh with depth := sh.depth - 1 }, .discard r cause)
  | .discard r cause, .go => some (put sh r, cause.next)
  | .recheck, .go =>
    if sh.flag ≠ .running then some (sh, .leave (.failed (.sentinel .errPoolStopped)))
    else some (sh, .leave (.failed (sh.ctxErr.getD (.sentinel .canceled))))
  | .leave result, .go =>
    some ({ sh with publishers := sh.publishers - 1 }, .left .lock result)
  | .left stage result, .go =>
    (signal sh stage).map fun (sh, next) => (sh, next.elim (.done result) (.left · result))
  | _, _ => none

-- Where a worker goes with a task it has received.
def received : WorkPc P → Nat → P → Option (WorkPc P)
  | .select, r, p => some (.take r p .runner)
  | .tryRecv, r, p => some (.take r p .outer)
  | .againRecv, r, p => some (.unlockTo r p)
  | _, _, _ => none

def Back.next : Back → WorkPc P
  | .runner => .select
  | .outer => .tryRecv
  | .inner => .lock

def workStep (cfg : Config C M F P) (sh : Shared C M F P) :
    WorkPc P → Choice → Option (Shared C M F P × WorkPc P)
  | .select, .poolDone => if sh.ctxErr.isSome then some (sh, .tryRecv) else none
  | .take r p back, .go => some ({ sh with depth := sh.depth - 1 }, .enter r p back)
  | .enter r p back, .go => some ({ sh with inFlight := sh.inFlight + 1 }, .entered .lock r p back)
  | .entered stage r p back, .go =>
    (signal sh stage).map fun (sh, next) =>
      (sh, next.elim (.invoke r p back) (.entered · r p back))
  | .invoke r p back, .go =>
    some ({ sh with log := sh.log ++ [(sh.heap r).invocation cfg.registerFn p] },
      .handling r p back)
  -- the handler returns, with or without an error
  | .handling r _ back, .go => some (sh, .clear r back)
  | .clear r back, .go => some (put sh r, .exit back)
  | .exit back, .go => some ({ sh with inFlight := sh.inFlight - 1 }, .exited .lock back)
  | .exited stage back, .go =>
    (signal sh stage).map fun (sh, next) => (sh, next.elim back.next (.exited · back))
  | .tryRecv, .giveUp => if sh.input = [] then some (sh, .loadPublishers) else none
  | .loadPublishers, .go => some (sh, if sh.publishers = 0 then .loadDepth else .lock)
  | .loadDepth, .go => some (sh, if sh.depth = 0 then .loadInFlight else .lock)
  | .loadInFlight, .go => some (sh, if sh.inFlight = 0 then .exiting else .lock)
  | .lock, .go => if sh.locked then none else some ({ sh with locked := true }, .testPublishers)
  | .testPublishers, .go => some (sh, if sh.publishers ≠ 0 then .againRecv else .testDepth)
  | .testDepth, .go => some (sh, if sh.depth ≠ 0 then .againRecv else .testInFlight)
  | .testInFlight, .go => some (sh, if sh.inFlight ≠ 0 then .againRecv else .unlock)
  | .againRecv, .giveUp => if sh.input = [] then some (sh, .againPublishers) else none
  | .unlockTo r p, .go => some ({ sh with locked := false }, .take r p .inner)
  | .againPublishers, .go => some (sh, if sh.publishers = 0 then .againDepth else .wait)
  | .againDepth, .go => some (sh, if sh.depth = 0 then .againInFlight else .wait)
  | .againInFlight, .go => some (sh, if sh.inFlight = 0 then .unlock else .wait)
  | .wait, .go => some ({ sh with locked := false, waits := sh.waits + 1 }, .parked sh.waits)
  | .parked ticket, .go => if ticket < sh.notified then some (sh, .lock) else none
  | .unlock, .go => some ({ sh with locked := false }, .tryRecv)
  | .exiting, .go => some ({ sh with wg := sh.wg - 1 }, .gone)
  -- a receive from the buffer, in any of the three selects
  | pc, .go =>
    match sh.input with
    | [] => none
    | (r, p) :: rest => (received pc r p).map fun next => ({ sh with input := rest }, next)
  | _, _ => none

def stopStep (sh : Shared C M F P) : StopPc → Option (Shared C M F P × StopPc)
  | .start =>
    if sh.flag = .running then some ({ sh with flag := .draining }, .cancel)
    else some (sh, .waitStopped)
  | .cancel =>
    some ({ sh with ctxErr := sh.ctxErr.or (some (.sentinel .canceled)) }, .cancelled .lock)
  | .cancelled stage =>
    (signal sh stage).map fun (sh, next) => (sh, next.elim .waitGroup .cancelled)
  | .waitGroup => if sh.wg = 0 then some (sh, .store) else none
  | .store => some ({ sh with flag := .stopped }, .close)
  | .close => some ({ sh with closed := true }, .returned)
  | .waitStopped => if sh.closed then some (sh, .returned) else none
  | .returned => none

def State.setPub (s : State C M F P W S) (p : P) (next : Shared C M F P × PubPc) :
    State C M F P W S :=
  { s with shared := next.1, pub := Function.update s.pub p next.2 }

def State.setWork (s : State C M F P W S) (w : W) (next : Shared C M F P × WorkPc P) :
    State C M F P W S :=
  { s with shared := next.1, work := Function.update s.work w next.2 }

def State.setStop (s : State C M F P W S) (i : S) (next : Shared C M F P × StopPc) :
    State C M F P W S :=
  { s with shared := next.1, stop := Function.update s.stop i next.2 }

-- A channel without a buffer passes a task from a sender to a receiver. Two selects
-- that both have a default branch never meet.
def handoffStep (cfg : Config C M F P) (s : State C M F P W S) (p : P) (w : W) :
    Option (State C M F P W S) :=
  match s.pub p with
  | .send r =>
    if cfg.capacity = 0 ∧ s.shared.input = [] ∧
        ((cfg.request p).nonBlocking → s.work w = .select) then
      (received (s.work w) r p).map fun next =>
        (s.setPub p (s.shared, .sent .lock)).setWork w (s.shared, next)
    else none
  | _ => none

def step (cfg : Config C M F P) (s : State C M F P W S) :
    Act P W S → Option (State C M F P W S)
  | .publish p choice => (pubStep cfg s.shared p (s.pub p) choice).map (s.setPub p)
  | .work w choice => (workStep cfg s.shared (s.work w) choice).map (s.setWork w)
  | .handoff p w => handoffStep cfg s p w
  | .stop i => (stopStep s.shared (s.stop i)).map (s.setStop i)
  | .cancelCaller p err =>
    if (s.shared.callerErr p).isNone then
      some { s with shared := { s.shared with
        callerErr := Function.update s.shared.callerErr p (some err) } }
    else none
  | .cancelParent err =>
    some { s with shared := { s.shared with ctxErr := s.shared.ctxErr.or (some err) } }

-- The pool after Consume.
def initial (workers : Nat) : State C M F P (Fin workers) S where
  shared :=
    { flag := .running, ctxErr := none, closed := false, publishers := 0, depth := 0,
      inFlight := 0, wg := workers, input := [], heap := fun _ => .zero, free := [], fresh := 0,
      locked := false, waits := 0, notified := 0, callerErr := fun _ => none, log := [] }
  pub _ := .idle
  work _ := .select
  stop _ := .start

end NatsClient.WorkerPool
