import NatsClient.GoError
import NatsClient.Lib.Machine

namespace NatsClient.SoftLiveness

open Lib.Machine

-- Durations are in nanoseconds.
structure SoftLivenessConfig where
  pollInterval : Int64
  stallAfter : Int64
  risingWindows : Int
  circuitStop : Bool
  deriving DecidableEq, Repr

def SoftLivenessConfig.withDefaults (c : SoftLivenessConfig) : SoftLivenessConfig :=
  { c with
    pollInterval := if c.pollInterval ≤ 0 then 2000000000 else c.pollInterval
    stallAfter := if c.stallAfter ≤ 0 then 10000000000 else c.stallAfter
    risingWindows := if c.risingWindows ≤ 0 then 3 else c.risingWindows }

structure SoftLivenessEvent where
  err : GoError
  numPending : UInt64
  stalledFor : Int64
  deriving DecidableEq, Repr

-- One tick: NumPending of ConsumerInfo, none where the call fails, and the time since the last
-- successful process.
structure Poll where
  pending : Option UInt64
  idle : Int64
  deriving DecidableEq, Repr

-- The variables of loop.
structure State where
  prevPending : UInt64
  havePrev : Bool
  rising : Nat
  deriving DecidableEq, Repr

def start : State := ⟨0, false, 0⟩

-- The counter after a successful poll.
def State.risen (s : State) (pending : UInt64) : Nat :=
  if s.havePrev ∧ s.prevPending < pending then s.rising + 1 else 0

-- A tick of loop: the state after it, none where the loop returns, and the event.
def observe (cfg : SoftLivenessConfig) (s : State) (q : Poll) :
    Option State × Option SoftLivenessEvent :=
  match q.pending with
  | none => (some s, none)
  | some pending =>
    let rising := s.risen pending
    if rising < cfg.risingWindows ∨ q.idle < cfg.stallAfter ∨ pending = 0 then
      (some ⟨pending, true, rising⟩, none)
    else
      let event : SoftLivenessEvent := ⟨.sentinel .errConsumerStall, pending, q.idle⟩
      if cfg.circuitStop then (none, some event) else (some ⟨pending, true, 0⟩, some event)

-- The polls that the loop makes, with the events.
def loop (cfg : SoftLivenessConfig) (s : State) (polls : List Poll) :
    List (Poll × Option SoftLivenessEvent) :=
  outputs (fun s q => (observe cfg s q).1) (fun s q => [(q, (observe cfg s q).2)]) s polls

def watchSoftLiveness (cfg : SoftLivenessConfig) (polls : List Poll) :
    List (Poll × Option SoftLivenessEvent) :=
  loop cfg.withDefaults start polls

end NatsClient.SoftLiveness
