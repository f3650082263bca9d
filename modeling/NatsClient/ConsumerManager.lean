import Mathlib.Data.Finmap
import Mathlib.Logic.Function.Basic
import NatsClient.Validate

namespace NatsClient.ConsumerManager

inductive DeliverPolicy
  | all
  | last
  | new
  | byStartSequence
  | byStartTime
  | lastPerSubject
  deriving DecidableEq, Repr

-- The %v verb prints the number.
def DeliverPolicy.number : DeliverPolicy → Nat
  | all => 0
  | last => 1
  | new => 2
  | byStartSequence => 3
  | byStartTime => 4
  | lastPerSubject => 5

inductive AckPolicy
  | none
  | all
  | explicit
  deriving DecidableEq, Repr

inductive ReplayPolicy
  | instant
  | original
  deriving DecidableEq, Repr

-- map[string]string; nil and the empty map are one value.
abbrev Metadata := Finmap (fun _ : String => String)

-- The ConsumerConfig of nats.go. Durations and times are nanoseconds.
structure ConsumerConfig where
  durable : String := ""
  name : String := ""
  description : String := ""
  deliverPolicy : DeliverPolicy := .all
  optStartSeq : Nat := 0
  optStartTime : Option Int := none
  ackPolicy : AckPolicy := .none
  ackWait : Int := 0
  maxDeliver : Int := 0
  backOff : List Int := []
  filterSubject : String := ""
  filterSubjects : List String := []
  replayPolicy : ReplayPolicy := .instant
  rateLimit : Nat := 0
  sampleFrequency : String := ""
  maxWaiting : Int := 0
  maxAckPending : Int := 0
  flowControl : Bool := false
  heartbeat : Int := 0
  headersOnly : Bool := false
  maxRequestBatch : Int := 0
  maxRequestExpires : Int := 0
  maxRequestMaxBytes : Int := 0
  deliverSubject : String := ""
  deliverGroup : String := ""
  inactiveThreshold : Int := 0
  replicas : Int := 0
  memoryStorage : Bool := false
  metadata : Metadata := ∅

structure DurableConsumerConfig where
  optStartTime : Option Int := none
  metadata : Metadata := ∅
  durable : String := ""
  filterSubject : String := ""
  filterSubjects : List String := []
  deliverSubject : String := ""
  deliverGroup : String := ""
  deliverPolicy : DeliverPolicy := .all
  replayPolicy : ReplayPolicy := .instant
  ackPolicy : AckPolicy := .none
  maxDeliver : Int := 0
  ackWait : Int := 0
  maxAckPending : Int := 0
  rateLimit : Nat := 0
  heartbeat : Int := 0
  inactiveThreshold : Int := 0
  replicas : Int := 0
  maxWaiting : Int := 0
  optStartSeq : Nat := 0
  flowControl : Bool := false
  memStorage : Bool := false
  hasAckPolicy : Bool := false
  hasDeliverPolicy : Bool := false
  hasReplayPolicy : Bool := false

def toNatsConsumerConfig (cfg : DurableConsumerConfig) : ConsumerConfig where
  durable := cfg.durable
  filterSubject := cfg.filterSubject
  filterSubjects := cfg.filterSubjects
  deliverSubject := cfg.deliverSubject
  deliverGroup := cfg.deliverGroup
  replayPolicy :=
    if !cfg.hasReplayPolicy && cfg.replayPolicy = .instant then .instant else cfg.replayPolicy
  ackPolicy := if !cfg.hasAckPolicy && cfg.ackPolicy = .none then .explicit else cfg.ackPolicy
  maxDeliver := cfg.maxDeliver
  ackWait := cfg.ackWait
  maxAckPending := cfg.maxAckPending
  rateLimit := cfg.rateLimit
  heartbeat := cfg.heartbeat
  inactiveThreshold := cfg.inactiveThreshold
  flowControl := cfg.flowControl
  replicas := cfg.replicas
  memoryStorage := cfg.memStorage
  maxWaiting := cfg.maxWaiting
  optStartSeq := cfg.optStartSeq
  optStartTime := cfg.optStartTime
  metadata := cfg.metadata
  -- DeliverAll is the zero value
  deliverPolicy := if cfg.hasDeliverPolicy then cfg.deliverPolicy else .all

-- What a request changed on the server.
inductive Write
  | delete (stream durable : String)
  | put (stream : String) (cc : ConsumerConfig)

-- The consumers of the server by stream and name, the writes so far, and the number of
-- ctx checks and JetStream calls so far.
structure World where
  store : String × String → Option ConsumerConfig
  writes : List Write
  clock : Nat

-- What one operation meets: ctx.Err() and the failures of its JetStream calls by the clock,
-- and the comparison of AddConsumer with a consumer that exists. A failed call has no effect.
structure Net where
  ctxErr : Nat → Option GoError
  fault : Nat → Option GoError
  checkConfig : ConsumerConfig → ConsumerConfig → Bool

namespace World

def tick (w : World) : World := { w with clock := w.clock + 1 }

def delete (w : World) (stream durable : String) : World :=
  { w with
    store := Function.update w.store (stream, durable) none
    writes := w.writes ++ [.delete stream durable] }

def put (w : World) (stream : String) (cc : ConsumerConfig) : World :=
  { w with
    store := Function.update w.store (stream, cc.durable) (some cc)
    writes := w.writes ++ [.put stream cc] }

end World

-- The calls of the JetStreamContext.
namespace Js

def consumerInfo (net : Net) (stream durable : String) (w : World) :
    Except GoError ConsumerConfig × World :=
  match net.fault w.clock with
  | some e => (.error e, w.tick)
  | none =>
    match w.store (stream, durable) with
    | some cc => (.ok cc, w.tick)
    | none => (.error (.sentinel .errConsumerNotFound), w.tick)

def deleteConsumer (net : Net) (stream durable : String) (w : World) :
    Except GoError Unit × World :=
  match net.fault w.clock with
  | some e => (.error e, w.tick)
  | none =>
    match w.store (stream, durable) with
    | some _ => (.ok (), w.tick.delete stream durable)
    | none => (.error (.sentinel .errConsumerNotFound), w.tick)

def addConsumer (net : Net) (stream : String) (cc : ConsumerConfig) (w : World) :
    Except GoError ConsumerConfig × World :=
  match net.fault w.clock with
  | some e => (.error e, w.tick)
  | none =>
    match w.store (stream, cc.durable) with
    | some existing =>
      if net.checkConfig existing cc then (.ok existing, w.tick)
      else
        let place := ": creating consumer " ++ quoted cc.durable ++ " on stream " ++ quoted stream
        (.error (.wrap "" (.sentinel .errConsumerNameAlreadyInUse) place), w.tick)
    | none => (.ok cc, w.tick.put stream cc)

def updateConsumer (net : Net) (stream : String) (cc : ConsumerConfig) (w : World) :
    Except GoError ConsumerConfig × World :=
  match net.fault w.clock with
  | some e => (.error e, w.tick)
  | none => (.ok cc, w.tick.put stream cc)

end Js

-- The frame of the methods of consumerManager: ctxReady, the checks of the arguments, and
-- runWithContext around the JetStream calls.
def guarded {α : Type} (net : Net) (checks : Option GoError)
    (calls : World → Except GoError α × World) (w : World) : Except GoError α × World :=
  match net.ctxErr w.clock with
  | some e => (.error e, w.tick)
  | none =>
    match checks with
    | some e => (.error e, w.tick)
    | none =>
      match net.ctxErr w.tick.clock with
      | some e => (.error e, w.tick.tick)
      | none => calls w.tick.tick

def placeOf (stream durable : String) : String :=
  " stream=" ++ quoted stream ++ " durable=" ++ quoted durable ++ ": "

def consumerInfo (net : Net) (stream durable : String) :
    World → Except GoError ConsumerConfig × World :=
  guarded net (validateStreamName stream <|> validateDurableName durable) fun w =>
    match Js.consumerInfo net stream durable w with
    | (.ok info, w) => (.ok info, w)
    | (.error e, w) => (.error (.wrap ("consumer info" ++ placeOf stream durable) e ""), w)

def deleteConsumer (net : Net) (stream durable : String) : World → Except GoError Unit × World :=
  guarded net (validateStreamName stream <|> validateDurableName durable) fun w =>
    match Js.deleteConsumer net stream durable w with
    | (.ok (), w) => (.ok (), w)
    | (.error e, w) => (.error (.wrap ("delete consumer" ++ placeOf stream durable) e ""), w)

def updateConsumer (net : Net) (stream : String) (cc : ConsumerConfig) :
    World → Except GoError ConsumerConfig × World :=
  let checks := validateStreamName stream <|>
    if cc.durable = "" then none else validateDurableName cc.durable
  guarded net checks fun w =>
    match Js.updateConsumer net stream cc w with
    | (.ok info, w) => (.ok info, w)
    | (.error e, w) => (.error (.wrap ("update consumer" ++ placeOf stream cc.durable) e ""), w)

-- The checks of an optional filter subject and of a list of them.
def validateFilters (filterSubject : String) (filterSubjects : List String) : Option GoError :=
  (if filterSubject = "" then none else validateAnySubject filterSubject) <|>
    validateSubjects filterSubjects

-- An omitted deliver policy keeps the existing one.
def updatedConfig (cfg : DurableConsumerConfig) (existing : ConsumerConfig) : ConsumerConfig :=
  if cfg.hasDeliverPolicy then toNatsConsumerConfig cfg
  else { toNatsConsumerConfig cfg with deliverPolicy := existing.deliverPolicy }

-- The update that follows a refused AddConsumer.
def updateExisting (net : Net) (stream : String) (cfg : DurableConsumerConfig)
    (existing : ConsumerConfig) (w : World) : Except GoError ConsumerConfig × World :=
  let place := placeOf stream cfg.durable
  let cc := updatedConfig cfg existing
  if existing.deliverPolicy ≠ cc.deliverPolicy then
    let change := "deliver policy " ++ toString existing.deliverPolicy.number ++ " -> " ++
      toString cc.deliverPolicy.number ++ ": "
    (.error (.wrap ("create or update consumer" ++ place ++ change)
      (.sentinel .errConsumerRecreateRequired) ""), w)
  else
    match Js.updateConsumer net stream cc w with
    | (.ok info, w) => (.ok info, w)
    | (.error e, w) => (.error (.wrap ("update consumer" ++ place) e ""), w)

def createOrUpdateConsumer (net : Net) (stream : String) (cfg : DurableConsumerConfig) :
    World → Except GoError ConsumerConfig × World :=
  let checks := validateStreamName stream <|> validateDurableName cfg.durable <|>
    validateFilters cfg.filterSubject cfg.filterSubjects
  guarded net checks fun w =>
    match Js.addConsumer net stream (toNatsConsumerConfig cfg) w with
    | (.ok info, w) => (.ok info, w)
    | (.error e, w) =>
      match Js.consumerInfo net stream cfg.durable w with
      | (.error _, w) =>
        (.error (.wrap ("create consumer" ++ placeOf stream cfg.durable) e ""), w)
      | (.ok existing, w) => updateExisting net stream cfg existing w

end NatsClient.ConsumerManager
