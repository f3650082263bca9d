import NatsClient.ConsumerManager
import NatsClient.Lib.Patching

namespace NatsClient.Setup

open ConsumerManager Lib.Patching

-- In nanoseconds.
def defaultAckWait : Int := 30000000000

structure WorkerSetup where
  queue : String
  subject : String
  -- the name of the stream
  stream : String
  consumer : DurableConsumerConfig

-- What SetupWorker reads of the client's RuntimeConsumer and, last, of its Backpressure.
structure ClientConfig where
  ackWait : Int
  idleHeartbeat : Int
  flowControl : Bool
  maxAckPending : Int

-- The configuration that newConsumer keeps.
def ClientConfig.consumer (cfg : ClientConfig) : ClientConfig :=
  { cfg with ackWait := if cfg.ackWait ≤ 0 then defaultAckWait else cfg.ackWait }

-- The options of nats.go for a subscription.
inductive SubOpt
  | ackWait (wait : Int)
  | maxAckPending (n : Int)
  | bindStream (stream : String)
  | durable (name : String)
  | bind (stream consumer : String)
  | manualAck
  | idleHeartbeat (interval : Int)
  | enableFlowControl
  deriving DecidableEq, Repr

-- What a list of options asks for.
structure SubOpts where
  ackWait : Option Int := none
  maxAckPending : Option Int := none
  heartbeat : Int := 0
  flowControl : Bool := false
  stream : String := ""
  durable : String := ""
  bound : Bool := false
  deriving DecidableEq, Repr

-- A later option overrides an earlier one of its kind.
def SubOpts.add (o : SubOpts) : SubOpt → SubOpts
  | .ackWait wait => { o with ackWait := some wait }
  | .maxAckPending n => { o with maxAckPending := some n }
  | .bindStream stream => { o with stream := stream }
  | .durable name => { o with durable := name }
  | .bind stream consumer => { o with stream := stream, durable := consumer, bound := true }
  | .manualAck => o
  | .idleHeartbeat interval => { o with heartbeat := interval }
  | .enableFlowControl => { o with flowControl := true }

def collect (opts : List SubOpt) : SubOpts := opts.foldl SubOpts.add {}

-- What the server reports of a consumer. It has values of its own for settings that are not
-- positive.
structure Server where
  ackWait : Int → Int
  maxAckPending : Int → Int
  ackWait_of_pos : ∀ wait, 0 < wait → ackWait wait = wait
  ackWait_idem : ∀ wait, ackWait (ackWait wait) = ackWait wait
  maxAckPending_of_pos : ∀ n, 0 < n → maxAckPending n = n
  maxAckPending_idem : ∀ n, maxAckPending (maxAckPending n) = maxAckPending n

def Server.report (server : Server) (cc : ConsumerConfig) : ConsumerConfig :=
  { cc with
    ackWait := server.ackWait cc.ackWait
    maxAckPending := server.maxAckPending cc.maxAckPending }

-- What one call of SetupWorker meets.
structure Call where
  net : Net
  -- the error of CreateOrUpdateStream
  streamErr : Option GoError
  -- the answer of NewInbox, here or in nats.go
  inbox : String
  -- what else than an option nats.go holds against a durable that exists
  unfit : ConsumerConfig → Option GoError
  -- the order in which a map is walked
  range : Metadata → List String
  mem_range : ∀ m key, key ∈ range m ↔ key ∈ m

structure Subscription where
  -- the subject it listens on
  deliver : String
  -- nats.go made the durable for it
  created : Bool
  deriving DecidableEq, Repr

-- A failed call, and whether nats.go refused an explicit option.
structure Failure where
  err : GoError
  mismatch : Bool := false

-- The options that are set differ from the durable.
def SubOpts.mismatch (o : SubOpts) (cc : ConsumerConfig) : Bool :=
  o.ackWait.any (fun wait => decide (wait ≠ cc.ackWait)) ||
    o.maxAckPending.any fun n => decide (n ≠ cc.maxAckPending)

-- The consumer that nats.go makes for a subscription to a durable that does not exist.
def SubOpts.config (o : SubOpts) (queue subject inbox : String) : ConsumerConfig where
  durable := o.durable
  deliverSubject := inbox
  deliverGroup := queue
  filterSubject := subject
  ackPolicy := .explicit
  ackWait := o.ackWait.getD 0
  maxAckPending := o.maxAckPending.getD 0
  heartbeat := o.heartbeat
  flowControl := o.flowControl

-- QueueSubscribe of the JetStreamContext.
def Js.queueSubscribe (server : Server) (call : Call) (queue subject : String) (o : SubOpts)
    (w : World) : Except Failure Subscription × World :=
  match call.net.fault w.clock with
  | some e => (.error { err := e }, w.tick)
  | none =>
    match w.store (o.stream, o.durable) with
    | some cc =>
      if o.mismatch (server.report cc) then
        let text := "nats: configuration requests another value than the consumer's"
        (.error { err := .foreign text [], mismatch := true }, w.tick)
      else match call.unfit cc with
        | some e => (.error { err := e }, w.tick)
        | none => (.ok ⟨cc.deliverSubject, false⟩, w.tick)
    | none =>
      if o.bound then (.error { err := .sentinel .errConsumerNotFound }, w.tick)
      else (.ok ⟨call.inbox, true⟩, w.tick.put o.stream (o.config queue subject call.inbox))

def appendConsumerOpts (cfg : ClientConfig) (opts : List SubOpt) (forQueue : Bool) :
    List SubOpt :=
  let opts := opts ++ [.manualAck]
  let opts := if 0 < cfg.ackWait then opts ++ [.ackWait cfg.ackWait] else opts
  -- Queue groups cannot use idle heartbeat or flow control (nats.go).
  if !forQueue && decide (0 < cfg.idleHeartbeat) then
    let opts := opts ++ [.idleHeartbeat cfg.idleHeartbeat]
    if cfg.flowControl then opts ++ [.enableFlowControl] else opts
  else opts

-- QueueSubscribe of the client's consumer.
def queueSubscribe (server : Server) (client : ClientConfig) (call : Call)
    (queue subject : String) (opts : List SubOpt) (w : World) :
    Except Failure Subscription × World :=
  match validateQueueName queue <|> validateAnySubject subject with
  | some e => (.error { err := .wrap "queue subscribe: " e "" }, w)
  | none =>
    let opts := appendConsumerOpts client.consumer opts true
    match Js.queueSubscribe server call queue subject (collect opts) w with
    | (.error f, w) => (.error { f with err := .wrap "queue subscribe: " f.err "" }, w)
    | (.ok sub, w) => (.ok sub, w)

-- Unsubscribe. It deletes a durable that nats.go made for the subscription, and its error is
-- dropped.
def unsubscribe (call : Call) (setup : WorkerSetup) (sub : Subscription) (w : World) : World :=
  if sub.created then (Js.deleteConsumer call.net setup.stream setup.consumer.durable w).2 else w

def setupWorkerSubOpts (durable : DurableConsumerConfig) (client : ClientConfig) : List SubOpt :=
  let ackWait := if durable.ackWait ≤ 0 then client.ackWait else durable.ackWait
  let maxAck := if durable.maxAckPending ≤ 0 then client.maxAckPending else durable.maxAckPending
  (if 0 < ackWait then [.ackWait ackWait] else []) ++
    if 0 < maxAck then [.maxAckPending maxAck] else []

-- One `if` of applySetupDurableConfig: a field that the setup sets and the consumer has otherwise.
def fieldPatch {α : Type} [DecidableEq α] (isSet : Bool) (value : α) (get : ConsumerConfig → α)
    (set : ConsumerConfig → ConsumerConfig) : Patch ConsumerConfig :=
  ⟨fun cc => isSet && decide (get cc ≠ value), set⟩

-- A key that is not there reads as the empty string.
def metadataDiffers (wanted m : Metadata) (key : String) : Bool :=
  decide ((m.lookup key).getD "" ≠ (wanted.lookup key).getD "")

-- One turn of the loop over the metadata.
def setMetadata (wanted m : Metadata) (key : String) : Metadata :=
  if metadataDiffers wanted m key then m.insert key ((wanted.lookup key).getD "") else m

def metadataPatch (call : Call) (wanted : Metadata) : Patch ConsumerConfig where
  needed cc := (call.range wanted).any (metadataDiffers wanted cc.metadata)
  apply cc := { cc with metadata := (call.range wanted).foldl (setMetadata wanted) cc.metadata }

-- The fields before the deliver policy.
def settingPatches (call : Call) (c : DurableConsumerConfig) : List (Patch ConsumerConfig) :=
  [fieldPatch (decide (0 < c.maxDeliver)) c.maxDeliver ConsumerConfig.maxDeliver
      fun cc => { cc with maxDeliver := c.maxDeliver },
    fieldPatch (decide (0 < c.rateLimit)) c.rateLimit ConsumerConfig.rateLimit
      fun cc => { cc with rateLimit := c.rateLimit },
    fieldPatch (decide (0 < c.inactiveThreshold)) c.inactiveThreshold
      ConsumerConfig.inactiveThreshold
      fun cc => { cc with inactiveThreshold := c.inactiveThreshold },
    fieldPatch (decide (0 < c.replicas)) c.replicas ConsumerConfig.replicas
      fun cc => { cc with replicas := c.replicas },
    fieldPatch c.memStorage true ConsumerConfig.memoryStorage
      fun cc => { cc with memoryStorage := true },
    metadataPatch call c.metadata,
    fieldPatch (decide (0 < c.maxAckPending)) c.maxAckPending ConsumerConfig.maxAckPending
      fun cc => { cc with maxAckPending := c.maxAckPending },
    fieldPatch (decide (0 < c.ackWait)) c.ackWait ConsumerConfig.ackWait
      fun cc => { cc with ackWait := c.ackWait },
    fieldPatch (decide (0 < c.heartbeat)) c.heartbeat ConsumerConfig.heartbeat
      fun cc => { cc with heartbeat := c.heartbeat },
    fieldPatch (decide (0 < c.maxWaiting)) c.maxWaiting ConsumerConfig.maxWaiting
      fun cc => { cc with maxWaiting := c.maxWaiting },
    fieldPatch c.hasAckPolicy c.ackPolicy ConsumerConfig.ackPolicy
      fun cc => { cc with ackPolicy := c.ackPolicy },
    fieldPatch c.hasReplayPolicy c.replayPolicy ConsumerConfig.replayPolicy
      fun cc => { cc with replayPolicy := c.replayPolicy }]

def WorkerSetup.multi (setup : WorkerSetup) : Bool := decide (setup.consumer.filterSubjects ≠ [])

def filterPatch (setup : WorkerSetup) : Patch ConsumerConfig :=
  if setup.multi then
    ⟨fun cc => decide (cc.filterSubjects ≠ setup.consumer.filterSubjects),
      fun cc => { cc with filterSubjects := setup.consumer.filterSubjects, filterSubject := "" }⟩
  else
    ⟨fun cc => decide (setup.subject ≠ "" ∧ cc.filterSubject ≠ setup.subject ∧
        cc.filterSubjects = []),
      fun cc => { cc with filterSubject := setup.subject }⟩

def applySetupDurableConfig (server : Server) (call : Call) (setup : WorkerSetup) (w : World) :
    Option GoError × World :=
  let place := placeOf setup.stream setup.consumer.durable
  match consumerInfo call.net setup.stream setup.consumer.durable w with
  | (.error e, w) => (some (.wrap ("setup worker consumer info" ++ place) e ""), w)
  | (.ok info, w) =>
    let patched := run (settingPatches call setup.consumer) (server.report info, false)
    if setup.consumer.hasDeliverPolicy ∧
        patched.1.deliverPolicy ≠ setup.consumer.deliverPolicy then
      -- Deliver policy is immutable on most servers.
      (some (.wrap ("setup worker durable=" ++ quoted setup.consumer.durable ++ ": ")
        (.sentinel .errConsumerRecreateRequired) " (deliver policy)"), w)
    else
      let (cc, updated) := run [filterPatch setup] patched
      if !updated then (none, w)
      else match updateConsumer call.net setup.stream cc w with
        | (.error e, w) => (some (.wrap ("setup worker update consumer" ++ place) e ""), w)
        | (.ok _, w) => (none, w)

-- The end of SetupWorker, once it has a subscription. What drainOnCancel does comes after the
-- call.
def finishSetup (server : Server) (call : Call) (setup : WorkerSetup) (sub : Subscription)
    (w : World) : Except Failure Subscription × World :=
  match applySetupDurableConfig server call setup w with
  | (some e, w) => (.error { err := e }, unsubscribe call setup sub w)
  | (none, w) => (.ok sub, w)

def deliverOf (setup : WorkerSetup) (inbox : String) : String :=
  if setup.consumer.deliverSubject = "" then inbox else setup.consumer.deliverSubject

def multiFilterConfig (client : ClientConfig) (setup : WorkerSetup) (inbox : String) :
    DurableConsumerConfig :=
  let c := setup.consumer
  { c with
    deliverSubject := deliverOf setup inbox
    deliverGroup := if c.deliverGroup = "" then setup.queue else c.deliverGroup
    ackWait := if c.ackWait ≤ 0 then client.ackWait else c.ackWait
    maxAckPending := if c.maxAckPending ≤ 0 then client.maxAckPending else c.maxAckPending }

-- The options that SetupWorker hands to QueueSubscribe.
def workerOpts (client : ClientConfig) (setup : WorkerSetup) : List SubOpt :=
  if setup.multi then [.bind setup.stream setup.consumer.durable]
  else setupWorkerSubOpts setup.consumer client ++
    [.bindStream setup.stream, .durable setup.consumer.durable]

def setupWorkerMultiFilter (server : Server) (client : ClientConfig) (setup : WorkerSetup)
    (call : Call) (w : World) : Except Failure Subscription × World :=
  let durable := " durable=" ++ quoted setup.consumer.durable
  let cfg := multiFilterConfig client setup call.inbox
  match createOrUpdateConsumer call.net setup.stream cfg w with
  | (.error e, w) =>
    (.error { err := .wrap ("setup worker create multi-filter" ++ durable ++ ": ") e "" }, w)
  | (.ok _, w) =>
    match queueSubscribe server client call setup.queue (deliverOf setup call.inbox)
        (workerOpts client setup) w with
    | (.error f, w) =>
      let place := "setup worker bind multi-filter stream=" ++ quoted setup.stream ++ durable ++
        " queue=" ++ quoted setup.queue ++ ": "
      (.error { f with err := .wrap place f.err "" }, w)
    | (.ok sub, w) => finishSetup server call setup sub w

def setupWorkerSingle (server : Server) (client : ClientConfig) (setup : WorkerSetup)
    (call : Call) (w : World) : Except Failure Subscription × World :=
  match queueSubscribe server client call setup.queue setup.subject (workerOpts client setup) w with
  | (.error f, w) =>
    let place := "setup worker subscribe stream=" ++ quoted setup.stream ++ " durable=" ++
      quoted setup.consumer.durable ++ " queue=" ++ quoted setup.queue ++ " subject=" ++
      quoted setup.subject ++ ": "
    (.error { f with err := .wrap place f.err "" }, w)
  | (.ok sub, w) => finishSetup server call setup sub w

-- The checks of the filters.
def validateFilter (setup : WorkerSetup) : Option GoError :=
  let c := setup.consumer
  let subjectErr := (validateAnySubject setup.subject).map fun e =>
    GoError.wrap ("setup worker subject=" ++ quoted setup.subject ++ ": ") e ""
  if setup.multi then
    ((validateSubjects c.filterSubjects).map fun e =>
      GoError.wrap "setup worker filter subjects: " e "") <|>
    (if c.filterSubject = "" then none
      else some (.foreign "setup worker: use FilterSubject or FilterSubjects, not both" [])) <|>
    if setup.subject = "" then none else subjectErr
  else
    subjectErr <|>
    if c.filterSubject ≠ "" ∧ c.filterSubject ≠ setup.subject then
      some (.foreign ("setup worker: Consumer.FilterSubject " ++ quoted c.filterSubject ++
        " must equal Subject " ++ quoted setup.subject) [])
    else none

def validateSetup (setup : WorkerSetup) : Option GoError :=
  ((validateStreamName setup.stream).map fun e =>
    GoError.wrap ("setup worker stream=" ++ quoted setup.stream ++ ": ") e "") <|>
  ((validateDurableName setup.consumer.durable).map fun e =>
    GoError.wrap ("setup worker durable=" ++ quoted setup.consumer.durable ++ ": ") e "") <|>
  ((validateQueueName setup.queue).map fun e =>
    GoError.wrap ("setup worker queue=" ++ quoted setup.queue ++ ": ") e "") <|>
  validateFilter setup

def setupWorker (server : Server) (client : ClientConfig) (setup : WorkerSetup) (call : Call)
    (w : World) : Except Failure Subscription × World :=
  match validateSetup setup with
  | some e => (.error { err := e }, w)
  | none =>
    match call.streamErr with
    | some e =>
      let place := "setup worker create stream=" ++ quoted setup.stream ++ ": "
      (.error { err := .wrap place e "" }, w)
    | none =>
      if setup.multi then setupWorkerMultiFilter server client setup call w
      else setupWorkerSingle server client setup call w

end NatsClient.Setup
