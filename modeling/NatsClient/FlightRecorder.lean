import NatsClient.Lib.Ring
import NatsClient.SoftLiveness
import NatsClient.Supervise

namespace NatsClient

open Supervise (SupervisorEvent SupervisorEventKind)
open SoftLiveness (SoftLivenessEvent)

def defaultFlightRecorderCapacity : Nat := 128
def flightRecorderEventBuffer : Nat := 32

-- Any byte; the package has names for five.
abbrev IncidentKind := UInt8

def IncidentKind.supervisor : IncidentKind := 1
def IncidentKind.stall : IncidentKind := 2
def IncidentKind.dlq : IncidentKind := 3
def IncidentKind.reconnect : IncidentKind := 4
def IncidentKind.shadow : IncidentKind := 5

-- The zero time is 0.
structure IncidentEvent where
  time : Nat := 0
  detail : String := ""
  subject : String := ""
  stream : String := ""
  consumer : String := ""
  reason : String := ""
  err : String := ""
  sequence : UInt64 := 0
  numPending : UInt64 := 0
  attempt : Int := 0
  kind : IncidentKind
  deriving DecidableEq, Repr

-- `events` is what waits in the channel.
structure FlightRecorder where
  events : List IncidentEvent
  buf : List IncidentEvent
  cap : Nat
  next : Nat
  full : Bool
  length_buf : buf.length = cap
  next_lt : next < cap
  length_events : events.length ≤ flightRecorderEventBuffer

-- The zero value of an element of buf is never read.
def unset : IncidentEvent := { kind := 0 }

def newFlightRecorder (capacity : Int) : FlightRecorder where
  events := []
  cap := if capacity ≤ 0 then defaultFlightRecorderCapacity else capacity.toNat
  buf :=
    List.replicate (if capacity ≤ 0 then defaultFlightRecorderCapacity else capacity.toNat) unset
  next := 0
  full := false
  length_buf := List.length_replicate
  next_lt := by
    split_ifs with h
    · decide
    · omega
  length_events := Nat.zero_le _

namespace FlightRecorder

-- A send that finds no room is dropped.
def send (events : List IncidentEvent) (ev : IncidentEvent) : List IncidentEvent :=
  if events.length < flightRecorderEventBuffer then events ++ [ev] else events

theorem length_send_le {events : List IncidentEvent} (h : events.length ≤ flightRecorderEventBuffer)
    (ev : IncidentEvent) : (send events ev).length ≤ flightRecorderEventBuffer := by
  unfold send
  split_ifs with hroom
  · rw [List.length_append]
    exact hroom
  · exact h

def stamp (now : Nat) (ev : IncidentEvent) : IncidentEvent :=
  if ev.time = 0 then { ev with time := now } else ev

def record (r : FlightRecorder) (now : Nat) (ev : IncidentEvent) : FlightRecorder where
  events := send r.events (stamp now ev)
  buf := r.buf.set r.next (stamp now ev)
  cap := r.cap
  next := (r.next + 1) % r.cap
  full := if (r.next + 1) % r.cap = 0 then true else r.full
  length_buf := by rw [List.length_set, r.length_buf]
  next_lt := Nat.mod_lt _ (Nat.zero_lt_of_lt r.next_lt)
  length_events := length_send_le r.length_events _

-- A receive from Events; without a waiting event the receiver blocks.
def receive (r : FlightRecorder) : FlightRecorder :=
  { r with
    events := r.events.tail
    length_events := by
      rw [List.length_tail]
      exact Nat.le_trans (Nat.sub_le _ 1) r.length_events }

def snapshot (r : FlightRecorder) : List IncidentEvent :=
  if r.full = false ∧ r.next = 0 then []
  else if r.full = false then r.buf.take r.next
  else r.buf.drop r.next ++ r.buf.take r.next

def supervisorKindName : SupervisorEventKind → String
  | .resubscribed => "resubscribed"
  | .giveUp => "give_up"
  | .invalid => "invalid"

-- The callers of Record: RecordDLQ, RecordDLQAutopsy and RecordReconnect, the callbacks that
-- AttachSupervisor and AttachSoftLiveness install, and everybody else.
inductive Caller
  | anyone (ev : IncidentEvent)
  | attachSupervisor (ev : SupervisorEvent)
  | attachSoftLiveness (ev : SoftLivenessEvent)
  | recordDLQ (subject stream consumer reason : String) (seq : UInt64)
  | recordDLQAutopsy (subject stream consumer reason errStr : String) (seq : UInt64)
  | recordReconnect (detail : String)

def Caller.event : Caller → IncidentEvent
  | anyone ev => ev
  | attachSupervisor ev =>
    { kind := .supervisor, detail := supervisorKindName ev.kind, attempt := ev.attempt,
      err := ev.err.elim "" GoError.message }
  | attachSoftLiveness ev =>
    { kind := .stall, detail := "consumer_stall", numPending := ev.numPending,
      err := ev.err.message }
  | recordDLQ subject stream consumer reason seq =>
    { kind := .dlq, detail := "dlq_route", subject, stream, consumer, reason, sequence := seq }
  | recordDLQAutopsy subject stream consumer reason errStr seq =>
    { kind := .dlq, detail := "autopsy", subject, stream, consumer, reason, err := errStr,
      sequence := seq }
  | recordReconnect detail => { kind := .reconnect, detail }

inductive Action
  | record (caller : Caller) (now : Nat)
  | receive

def step (r : FlightRecorder) : Action → FlightRecorder
  | .record caller now => r.record now caller.event
  | .receive => r.receive

def run (r : FlightRecorder) (acts : List Action) : FlightRecorder := acts.foldl step r

-- What an action records, and what it takes from the channel.
def Action.recorded : Action → List IncidentEvent
  | record caller now => [stamp now caller.event]
  | receive => []

def Action.received (r : FlightRecorder) : Action → List IncidentEvent
  | record _ _ => []
  | receive => r.events.take 1

def recorded (acts : List Action) : List IncidentEvent := acts.flatMap Action.recorded

def received : FlightRecorder → List Action → List IncidentEvent
  | _, [] => []
  | r, act :: rest => act.received r ++ received (step r act) rest

end FlightRecorder

end NatsClient
