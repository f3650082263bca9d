import Mathlib.Algebra.Order.Ring.Rat
import NatsClient.Lib.Signed

namespace NatsClient.AdaptivePressure

open Lib.Signed

inductive AdaptivePressureLevel
  | idle
  | warm
  | elevated
  | hard
  | critical
  deriving DecidableEq, Repr

def AdaptivePressureLevel.toNat : AdaptivePressureLevel → Nat
  | idle => 0
  | warm => 1
  | elevated => 2
  | hard => 3
  | critical => 4

-- Durations are in nanoseconds.
structure AdaptivePressureConfig where
  enabled : Bool
  minFetchBatch : Int64
  maxFetchBatch : Int64
  minAckPending : Int64
  nakDelayMin : Int64
  nakDelayMax : Int64
  deriving DecidableEq, Repr

def AdaptivePressureConfig.withDefaults (c : AdaptivePressureConfig) : AdaptivePressureConfig :=
  let minFetchBatch := if c.minFetchBatch ≤ 0 then 1 else c.minFetchBatch
  let maxFetchBatch := if c.maxFetchBatch ≤ 0 then 256 else c.maxFetchBatch
  { c with
    minFetchBatch := minFetchBatch
    maxFetchBatch := if maxFetchBatch < minFetchBatch then minFetchBatch else maxFetchBatch
    minAckPending := if c.minAckPending ≤ 0 then 50 else c.minAckPending
    nakDelayMin := if c.nakDelayMin ≤ 0 then 100000000 else c.nakDelayMin
    nakDelayMax := if c.nakDelayMax ≤ 0 then 5000000000 else c.nakDelayMax }

structure AdaptivePressureInput where
  poolDepth : Int64
  poolCapacity : Int64
  handlerLatency : Int64
  baselineLatency : Int64
  lag : UInt64
  pending : UInt64
  currentBatch : Int64
  currentAckPend : Int64
  maxAckPending : Int64
  deriving DecidableEq, Repr

structure AdaptivePressureDecision where
  level : AdaptivePressureLevel
  fetchBatch : Int64
  ackPending : Int64
  nakDelay : Int64
  deriving DecidableEq, Repr

namespace AdaptivePressureInput

variable (x : AdaptivePressureInput)

-- The two ratios are exact rationals.
def fill : ℚ :=
  if 0 < x.poolCapacity then (x.poolDepth.toInt : ℚ) / x.poolCapacity.toInt else 0

def latencyFactor : ℚ :=
  if 0 < x.baselineLatency ∧ 0 < x.handlerLatency then
    (x.handlerLatency.toInt : ℚ) / x.baselineLatency.toInt
  else 1

def level : AdaptivePressureLevel :=
  if 95 / 100 ≤ x.fill ∨ 5 ≤ x.latencyFactor ∨ 10000 < x.lag then .critical
  else if 7 / 10 ≤ x.fill ∨ 3 ≤ x.latencyFactor ∨ 5000 < x.pending then .hard
  else if 4 / 10 ≤ x.fill ∨ 3 / 2 ≤ x.latencyFactor ∨ 500 < x.lag then .elevated
  else if 15 / 100 ≤ x.fill ∨ 50 < x.lag then .warm
  else .idle

end AdaptivePressureInput

section

variable (cfg : AdaptivePressureConfig) (x : AdaptivePressureInput)

-- The values that the level then acts on.
def startBatch : Int64 := if x.currentBatch ≤ 0 then cfg.maxFetchBatch else x.currentBatch

def startAck : Int64 :=
  let ack := if x.currentAckPend ≤ 0 then x.maxAckPending else x.currentAckPend
  if ack ≤ 0 then cfg.minAckPending * 4 else ack

def batchAt : AdaptivePressureLevel → Int64
  | .idle =>
    let batch := startBatch cfg x
    let batch := if 0 < x.poolCapacity then least cfg.maxFetchBatch (batch * 2) else batch
    if batch < cfg.minFetchBatch then cfg.minFetchBatch else batch
  | .warm => startBatch cfg x
  | .elevated => greatest cfg.minFetchBatch (startBatch cfg x / 2)
  | .hard | .critical => cfg.minFetchBatch

def ackAt : AdaptivePressureLevel → Int64
  | .idle => if 0 < x.maxAckPending then x.maxAckPending else startAck cfg x
  | .warm | .elevated => startAck cfg x
  | .hard => greatest cfg.minAckPending (startAck cfg x / 2)
  | .critical => cfg.minAckPending

def nakAt : AdaptivePressureLevel → Int64
  | .idle | .warm => 0
  | .elevated => cfg.nakDelayMin
  | .hard => if cfg.nakDelayMin * 2 > cfg.nakDelayMax then cfg.nakDelayMax else cfg.nakDelayMin * 2
  | .critical => cfg.nakDelayMax

-- The two checks at the end.
def clamp (batch : Int64) : Int64 :=
  let batch := if batch > cfg.maxFetchBatch then cfg.maxFetchBatch else batch
  if batch < cfg.minFetchBatch then cfg.minFetchBatch else batch

def decideAdaptivePressure : AdaptivePressureDecision :=
  let cfg := cfg.withDefaults
  { level := x.level
    fetchBatch := clamp cfg (batchAt cfg x x.level)
    ackPending := ackAt cfg x x.level
    nakDelay := nakAt cfg x.level }

end

-- A controller and its last decision.
structure Controller where
  cfg : AdaptivePressureConfig
  decision : AdaptivePressureDecision
  deriving DecidableEq, Repr

def newAdaptivePressure (cfg : AdaptivePressureConfig) : Controller where
  cfg := cfg.withDefaults
  decision := ⟨.idle, cfg.withDefaults.maxFetchBatch, 0, 0⟩

def Controller.observe (a : Controller) (x : AdaptivePressureInput) :
    Controller × AdaptivePressureDecision :=
  if !a.cfg.enabled then (a, ⟨.idle, 0, 0, 0⟩)
  else
    let d := decideAdaptivePressure a.cfg x
    ({ a with decision := d }, d)

-- A nil controller is none.
def fetchBatchOr (a : Option Controller) (defaultBatch : Int64) : Int64 :=
  match a with
  | none => defaultBatch
  | some a =>
    if !a.cfg.enabled then defaultBatch
    else if 0 < a.decision.fetchBatch then a.decision.fetchBatch
    else defaultBatch

end NatsClient.AdaptivePressure
