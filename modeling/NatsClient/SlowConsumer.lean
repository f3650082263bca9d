import Mathlib.Algebra.Group.Int.Defs
import NatsClient.Lib.Machine

namespace NatsClient.SlowConsumer

open Lib.Machine

def slowReasonPending := "pending"
def slowReasonLag := "lag"
def slowReasonAckPending := "ack_pending"

-- Durations are in nanoseconds.
structure SlowConsumerConfig where
  pollInterval : Int64
  sustainFor : Int64
  pendingThreshold : UInt64
  lagThreshold : UInt64
  ackPendingRatio : Float
  circuitStop : Bool

def SlowConsumerConfig.withDefaults (c : SlowConsumerConfig) : SlowConsumerConfig :=
  { c with
    pollInterval := if c.pollInterval ≤ 0 then 2000000000 else c.pollInterval
    sustainFor := if c.sustainFor ≤ 0 then 30000000000 else c.sustainFor
    pendingThreshold := if c.pendingThreshold = 0 then 1000 else c.pendingThreshold
    lagThreshold := if c.lagThreshold = 0 then 1000 else c.lagThreshold
    ackPendingRatio := if c.ackPendingRatio ≤ 0 then 0.9 else c.ackPendingRatio }

structure SlowConsumerEvent where
  stream : String
  durable : String
  reasons : List String
  pending : UInt64
  lag : UInt64
  ackPending : Int
  maxAckPending : Int
  sustainedFor : Int
  deriving DecidableEq, Repr

-- The limit for unacknowledged messages.
def SlowConsumerConfig.ackLimit (cfg : SlowConsumerConfig) (maxAckPending : Int) : Int :=
  let limit := (Float.ofInt maxAckPending * cfg.ackPendingRatio).toInt64.toInt
  if limit < 1 then 1 else limit

def evaluateSlowConsumer (pending lag : UInt64) (ackPending maxAckPending : Int)
    (cfg : SlowConsumerConfig) : Bool × List String :=
  let cfg := cfg.withDefaults
  let reasons :=
    (if cfg.pendingThreshold ≤ pending then [slowReasonPending] else []) ++
      (if cfg.lagThreshold ≤ lag then [slowReasonLag] else []) ++
      (if 0 < maxAckPending ∧ cfg.ackLimit maxAckPending ≤ ackPending then [slowReasonAckPending]
        else [])
  (reasons ≠ [], reasons)

def consumerLagMessages (streamLastSeq deliveredStreamSeq : UInt64) : UInt64 :=
  if streamLastSeq ≤ deliveredStreamSeq then 0 else streamLastSeq - deliveredStreamSeq

structure ConsumerInfo where
  stream : String
  name : String
  numPending : UInt64
  -- Delivered.Stream
  delivered : UInt64
  numAckPending : Int
  -- Config.MaxAckPending
  maxAckPending : Int
  deriving DecidableEq, Repr

-- One tick: the time that is read, what ConsumerInfo answers, and what streamLastSeq answers
-- where it is called. A call that fails has no answer.
structure Poll where
  now : Int
  info : Option ConsumerInfo
  tip : Option UInt64
  deriving DecidableEq, Repr

structure Watcher where
  cfg : SlowConsumerConfig
  -- the function is not nil
  streamLastSeq : Bool

def watchSlowConsumer (cfg : SlowConsumerConfig) (streamLastSeq : Bool) : Watcher :=
  ⟨cfg.withDefaults, streamLastSeq⟩

-- The variables of loop, and the flag of the watcher.
structure State where
  breachStart : Int
  haveBreach : Bool
  slow : Bool
  deriving DecidableEq, Repr

def start : State := ⟨0, false, false⟩

-- now.Sub(breachStart), which saturates.
def timeSub (later earlier : Int) : Int := max (-2 ^ 63) (min (later - earlier) (2 ^ 63 - 1))

def Watcher.lag (w : Watcher) (q : Poll) (info : ConsumerInfo) : UInt64 :=
  let lastSeq := if w.streamLastSeq ∧ info.stream ≠ "" then q.tip.getD 0 else 0
  consumerLagMessages lastSeq info.delivered

def Watcher.evaluate (w : Watcher) (q : Poll) (info : ConsumerInfo) :
    Bool × List String :=
  evaluateSlowConsumer info.numPending (w.lag q info) info.numAckPending info.maxAckPending w.cfg

def Watcher.event (w : Watcher) (q : Poll) (info : ConsumerInfo) (sustained : Int) :
    SlowConsumerEvent where
  stream := info.stream
  durable := info.name
  reasons := (w.evaluate q info).2
  pending := info.numPending
  lag := w.lag q info
  ackPending := info.numAckPending
  maxAckPending := info.maxAckPending
  sustainedFor := sustained

-- A tick of loop: the state after it, none where the loop returns, and the event.
def Watcher.observe (w : Watcher) (s : State) (q : Poll) :
    Option State × Option SlowConsumerEvent :=
  match q.info with
  | none => (some { s with haveBreach := false }, none)
  | some info =>
    if !(w.evaluate q info).1 then (some { s with haveBreach := false }, none)
    else
      let s := if s.haveBreach then s else { s with breachStart := q.now, haveBreach := true }
      let sustained := timeSub q.now s.breachStart
      if sustained < w.cfg.sustainFor.toInt then (some s, none)
      else if s.slow && !w.cfg.circuitStop then (some s, none)
      else
        let event := w.event q info sustained
        if w.cfg.circuitStop then (none, some event)
        else (some { s with slow := true, haveBreach := false, breachStart := 0 }, some event)

-- The polls that the loop makes, with the events.
def Watcher.loop (w : Watcher) (s : State) (polls : List Poll) :
    List (Poll × Option SlowConsumerEvent) :=
  outputs (fun s q => (w.observe s q).1) (fun s q => [(q, (w.observe s q).2)]) s polls

-- The events, each with the poll at which it is emitted.
def Watcher.events (w : Watcher) (polls : List Poll) :
    List (Poll × SlowConsumerEvent) :=
  (w.loop start polls).filterMap fun (q, event) => event.map (q, ·)

end NatsClient.SlowConsumer
