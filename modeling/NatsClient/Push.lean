import NatsClient.Backpressure
import NatsClient.WorkerPool

namespace NatsClient.Push

-- The next step of one call of the handler that wrapHandler builds.
inductive Pc
  | start
  | backpressure
  -- handlePoolBackpressure has read the depth
  | decide (depth : Int)
  -- the call of TryPublish or TryPublishNonBlocking
  | publish
  | returned (err : Option GoError)
  deriving DecidableEq, Repr

-- A consumer, the calls H of its handler, and the calls Q that others make to publish
-- to its pool. The processFn of a call is known by the handler it closes over.
structure Setup (C H Q : Type) where
  consumer : Consumer
  comp : Compressors
  handler : Handler
  ctx : H → C
  msg : H → Msg
  wire : H → Wire
  others : Q → WorkerPool.Request C Msg Handler

structure State (C H Q W S : Type) where
  pool : WorkerPool.State C Msg Handler (H ⊕ Q) W S
  pc : H → Pc
  -- What the calls themselves have done to their messages.
  delivery : H → Delivery

inductive Act (H Q W S : Type)
  | handler (h : H)
  | pool (act : WorkerPool.Act (H ⊕ Q) W S)

variable {C H Q W S : Type}

namespace Setup

def nonBlocking (u : Setup C H Q) : Bool := u.consumer.mode.orBlock = .nak

-- The pool of initWorkerPool, with the calls that wrapHandler makes.
def pool (u : Setup C H Q) : WorkerPool.Config C Msg Handler (H ⊕ Q) where
  capacity := WorkerPool.bufLen u.consumer.cfg.workerBufferSize
  registerFn := none
  request
    | .inl h => ⟨u.ctx h, u.msg h, true, some u.handler, u.nonBlocking⟩
    | .inr q => u.others q

-- What wrapHandler makes of the error of handlePoolBackpressure.
def afterBackpressure (u : Setup C H Q) (err : Option GoError) : Pc :=
  if u.nonBlocking then .returned err
  else match err with
    | none => .publish
    | some e =>
      if e.is .errPoolFull then .publish
      else if e.is .errBackpressureHandled then .returned none
      else .returned (some e)

-- What it makes of the result of tryPublish. TryPublish passes on the error alone.
def afterPublish (u : Setup C H Q) : WorkerPool.Result → Pc
  | .failed e => .returned (some e)
  | .accepted => .returned none
  | .rejected => if u.nonBlocking then .backpressure else .returned none

end Setup

def handlerStep (u : Setup C H Q) (s : State C H Q W S) (h : H) : Option (Pc × Delivery) :=
  match s.pc h with
  | .start =>
    if !u.consumer.cfg.workerPoolEnabled then
      let result := processMessage u.comp u.consumer.cfg (u.wire h) u.handler (s.delivery h)
      some (.returned result.2, result.1)
    else if u.nonBlocking then some (.publish, s.delivery h)
    else some (.backpressure, s.delivery h)
  | .backpressure => some (.decide s.pool.shared.depth, s.delivery h)
  | .decide depth =>
    let result := handlePoolBackpressure u.consumer (u.wire h) depth s.pool.shared.depth
      (s.delivery h)
    some (u.afterBackpressure result.2, result.1)
  | .publish =>
    match s.pool.pub (.inl h) with
    | .done result => some (u.afterPublish result, s.delivery h)
    | _ => none
  | .returned _ => none

variable [DecidableEq H] [DecidableEq Q] [DecidableEq W] [DecidableEq S]

def State.setHandler (s : State C H Q W S) (h : H) (next : Pc × Delivery) : State C H Q W S :=
  { s with
    pc := Function.update s.pc h next.1
    delivery := Function.update s.delivery h next.2 }

-- The pool runs on its own; only the calls of tryPublish by a handler wait for it.
def step (u : Setup C H Q) (s : State C H Q W S) : Act H Q W S → Option (State C H Q W S)
  | .handler h => (handlerStep u s h).map (s.setHandler h)
  | .pool act =>
    let next := (WorkerPool.step u.pool s.pool act).map fun pool => { s with pool := pool }
    match act.publisher? with
    | some (.inl h) => if s.pc h = .publish then next else none
    | _ => next

def initial (u : Setup C H Q) :
    State C H Q (Fin (WorkerPool.poolLen u.consumer.cfg.poolSize)) S where
  pool := WorkerPool.initial _
  pc _ := .start
  delivery h := ⟨u.msg h, []⟩

end NatsClient.Push
