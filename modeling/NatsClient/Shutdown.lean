import NatsClient.WorkerPool.Theorems

namespace NatsClient.Shutdown

open Lib.Machine

-- What NewClient has put together, and whether messages go to a worker pool.
structure Setup where
  healthCheck : Bool
  collector : Bool
  workerPoolEnabled : Bool
  nkeyPair : Bool
  -- the drain timeout as it is printed
  drainTimeout : String

-- The goroutine of startHealthCheck, and HealthCheck, which it calls.
inductive HealthPc
  | select
  | checking
  | loading
  | calling
  | gone
  deriving DecidableEq, Repr

-- The goroutine of the metrics collector.
inductive CollectPc
  | select
  | collecting
  | gone
  deriving DecidableEq, Repr

inductive Link
  | up
  | draining
  | closed
  deriving DecidableEq, Repr

inductive Key
  | none
  | live
  | wiped
  deriving DecidableEq, Repr

-- shutdownOnce.
inductive Once
  | fresh
  | running
  | done
  deriving DecidableEq, Repr

-- The steps of shutdownGraceful and of drainAndClose, which it calls.
inductive Stage
  | stopTicker
  | cancelCollector
  | waitCollector
  | gracefulStop
  | cancelConsumer
  | completeAsync
  | stopPublisher
  | cancel
  | waitHealth
  | clear
  | drain
  | poll
  | close
  | wipe
  | leave
  deriving DecidableEq, Repr

-- A call of Shutdown.
inductive Pc
  | idle
  | body (stage : Stage)
  | returned (err : Option GoError)
  deriving DecidableEq, Repr

structure Client (C M F P : Type) (workers : Nat) where
  conn : Bool
  js : Bool
  link : Link
  -- the error of the context that NewClient was given, once it is done
  parentErr : Option GoError
  cancelled : Bool
  ticker : Bool
  tick : Bool
  health : Option HealthPc
  collector : Option CollectPc
  collectorCancelled : Bool
  -- poolOnce is done; until then the pool is the one that initWorkerPool would make
  poolMade : Bool
  pool : WorkerPool.State C M F P (Fin workers) Unit
  publisherCancelled : Bool
  key : Key
  once : Once
  errs : List GoError

structure State (C M F P : Type) (workers : Nat) (I : Type) where
  client : Client C M F P workers
  calls : I → Pc

inductive Choice
  | go
  | timeout
  -- what a call of nats.go or of the publisher comes back with
  | result (err : Option GoError)
  deriving DecidableEq, Repr

inductive HealthChoice
  | go
  | tick
  | done
  -- what IsConnected of the connection says
  | connected (answer : Bool)
  deriving DecidableEq, Repr

inductive CollectChoice
  | go
  | done
  deriving DecidableEq, Repr

inductive Act (P : Type) (workers : Nat) (I : Type)
  | call (i : I) (choice : Choice)
  | health (choice : HealthChoice)
  | collect (choice : CollectChoice)
  -- a message comes, be it the first one or a later one
  | initWorkerPool
  -- the deliveries and the workers
  | pool (a : WorkerPool.Act P (Fin workers) Unit)
  | tick
  | closed
  | cancelParent (err : GoError)

variable {C M F P I : Type} {workers : Nat} [DecidableEq P] [DecidableEq I]

-- errors.Join.
def errorsJoin : List GoError → Option GoError
  | [] => none
  | e :: rest => some ((errorsJoin rest).elim (.wrap "" e "") (.joined e))

def errDrainTimeout : GoError := .foreign "connection drain timed out" []

def Client.ctxDone (c : Client C M F P workers) : Bool := c.cancelled || c.parentErr.isSome

-- What shutdownGraceful keeps of the error of PublishAsyncComplete.
def asyncErrs : Option GoError → List GoError
  | none => []
  | some e =>
    if e.is .deadlineExceeded || e.is .canceled then []
    else [.wrap "async publish drain: " e ""]

-- The contexts of the consumer and of its pool come from the one that is cancelled here.
def Client.cancelPool (c : Client C M F P workers) (err : GoError) : Client C M F P workers :=
  { c with pool.shared.ctxErr := c.pool.shared.ctxErr.or (some err) }

def bodyStep (u : Setup) (cfg : WorkerPool.Config C M F P) (c : Client C M F P workers) :
    Stage → Choice → Option (Client C M F P workers × Pc)
  | .stopTicker, .go => some ({ c with ticker := false }, .body .cancelCollector)
  | .cancelCollector, .go =>
    if c.collector = none then some (c, .body .gracefulStop)
    else some ({ c with collectorCancelled := true }, .body .waitCollector)
  | .waitCollector, .go =>
    if c.collector = none ∨ c.collector = some .gone then some (c, .body .gracefulStop) else none
  | .gracefulStop, .go =>
    if c.poolMade = true ∧ c.pool.stop () ≠ .returned then
      (WorkerPool.step cfg c.pool (.stop ())).map fun pool =>
        ({ c with pool }, .body .gracefulStop)
    else some (c, .body .cancelConsumer)
  | .cancelConsumer, .go => some (c.cancelPool (.sentinel .canceled), .body .completeAsync)
  -- it comes back when the drain timeout is over at the latest
  | .completeAsync, .result err =>
    some ({ c with errs := c.errs ++ asyncErrs err }, .body .stopPublisher)
  | .stopPublisher, .go => some ({ c with publisherCancelled := true }, .body .cancel)
  | .cancel, .go => some ({ c with cancelled := true }, .body .waitHealth)
  | .waitHealth, .go =>
    if c.health = none ∨ c.health = some .gone then some (c, .body .clear) else none
  | .clear, .go => some ({ c with conn := false, js := false }, .body .drain)
  | .drain, .result (some e) =>
    some ({ c with errs := c.errs ++ [.wrap "drain: " e ""] }, .body .close)
  | .drain, .result none =>
    if c.link = .closed then none else some ({ c with link := .draining }, .body .poll)
  | .poll, .go => if c.link = .closed then some (c, .body .wipe) else none
  | .poll, .timeout =>
    let err := GoError.wrap "" errDrainTimeout (" after " ++ u.drainTimeout)
    some ({ c with errs := c.errs ++ [err] }, .body .close)
  | .close, .go => some ({ c with link := .closed }, .body .wipe)
  | .wipe, .go =>
    some ({ c with key := if c.key = .none then .none else .wiped }, .body .leave)
  | .leave, .go => some ({ c with once := .done }, .returned (errorsJoin c.errs))
  | _, _ => none

def callStep (u : Setup) (cfg : WorkerPool.Config C M F P) (c : Client C M F P workers) :
    Pc → Choice → Option (Client C M F P workers × Pc)
  | .idle, .go =>
    match c.once with
    | .fresh => some ({ c with once := .running }, .body .stopTicker)
    | .running => none
    | .done => some (c, .returned none)
  | .body stage, choice => bodyStep u cfg c stage choice
  | _, _ => none

def healthStep (c : Client C M F P workers) :
    HealthPc → HealthChoice → Option (Client C M F P workers × HealthPc)
  | .select, .tick => if c.tick then some ({ c with tick := false }, .checking) else none
  | .select, .done => if c.ctxDone then some (c, .gone) else none
  | .checking, .connected answer => some (c, if c.conn && answer then .loading else .select)
  | .loading, .go => some (c, if c.js then .calling else .select)
  | .calling, .go => some (c, .select)
  | _, _ => none

def collectStep (c : Client C M F P workers) : CollectPc → CollectChoice → Option CollectPc
  | .select, .go => some .collecting
  | .select, .done => if c.collectorCancelled || c.parentErr.isSome then some .gone else none
  | .collecting, .go => some .select
  | _, _ => none

-- Nobody but Shutdown stops the pool.
def ofPool : WorkerPool.Act P (Fin workers) Unit → Bool
  | .stop _ | .cancelParent _ => false
  | _ => true

def step (u : Setup) (cfg : WorkerPool.Config C M F P) (s : State C M F P workers I) :
    Act P workers I → Option (State C M F P workers I)
  | .call i choice =>
    (callStep u cfg s.client (s.calls i) choice).map fun (client, pc) =>
      ⟨client, Function.update s.calls i pc⟩
  | .health choice =>
    s.client.health.bind fun pc =>
      (healthStep s.client pc choice).map fun (client, pc) =>
        { s with client := { client with health := some pc } }
  | .collect choice =>
    s.client.collector.bind fun pc =>
      (collectStep s.client pc choice).map fun pc =>
        { s with client := { s.client with collector := some pc } }
  | .initWorkerPool =>
    if u.workerPoolEnabled then some { s with client := { s.client with poolMade := true } }
    else none
  | .pool a =>
    if s.client.poolMade ∧ ofPool a then
      (WorkerPool.step cfg s.client.pool a).map fun pool =>
        { s with client := { s.client with pool } }
    else none
  | .tick =>
    if s.client.ticker then some { s with client := { s.client with tick := true } } else none
  | .closed => some { s with client := { s.client with link := .closed } }
  | .cancelParent err =>
    let client := s.client.cancelPool err
    some { s with client := { client with parentErr := client.parentErr.or (some err) } }

-- The client as NewClient returns it.
def initial (u : Setup) (workers : Nat) : State C M F P workers I where
  client :=
    { conn := true, js := true, link := .up, parentErr := none, cancelled := false,
      ticker := u.healthCheck, tick := false,
      health := if u.healthCheck then some .select else none,
      collector := if u.collector then some .select else none, collectorCancelled := false,
      poolMade := false, pool := WorkerPool.initial workers, publisherCancelled := false,
      key := if u.nkeyPair then .live else .none, once := .fresh, errs := [] }
  calls _ := .idle

end NatsClient.Shutdown
