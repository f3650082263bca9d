import Mathlib.Logic.Function.Basic

namespace NatsClient.Incident

def defaultCapsuleWindow : Int := 50
def defaultIncidentCapsuleBucket := "nats_incident_capsules"
def defaultIncidentIndexBucket := "nats_incident_index"

inductive IncidentTrigger
  | manual
  | dlq
  | anomaly
  | shadowMismatch
  | stall
  deriving DecidableEq, Repr

-- R stands for the flight recorders and F for the functions that redact.
structure CapsuleAutoConfig (R F : Type) where
  storeBucket : String
  indexBucket : String
  window : Int
  flightRecorder : Option R
  -- OnReady is there
  onReady : Bool
  redact : Option F
  enabled : Bool

structure CapsuleAuto (R F : Type) where
  -- the client is there
  client : Bool
  cfg : CapsuleAutoConfig R F
  stream : String
  durable : String

-- The arguments of Capture that CapsuleAuto fills in.
structure IncidentCapture (R F : Type) where
  redact : Option F
  flightRecorder : Option R
  stream : String
  consumer : String
  subject : String
  reason : String
  storeBucket : String
  indexBucket : String
  trigger : IncidentTrigger
  failingSeq : Nat
  window : Int
  deriving DecidableEq, Repr

-- The callbacks that CapsuleAuto hands out, with their arguments.
inductive Callback
  | recordDLQ (subject stream consumer reason : String) (seq : Nat)
  | recordDLQAutopsy (subject stream consumer reason err : String) (seq : Nat)
  | recordShadow (detail subject err : String)
  | onAnomaly (stream durable : String)
  deriving DecidableEq, Repr

-- The arguments of capture.
structure Request where
  trigger : IncidentTrigger
  seq : Nat
  subject : String
  reason : String
  deriving DecidableEq, Repr

-- The next step of a callback: its first critical section, the one of capture, or the
-- return of Capture.
inductive Pc
  | start
  | capture
  | answer
  | done
  deriving DecidableEq, Repr

variable {R F : Type}

def newCapsuleAuto (defaultCapsuleRedact : F) (client : Bool) (stream durable : String)
    (cfg : CapsuleAutoConfig R F) : CapsuleAuto R F where
  client := client
  stream := stream
  durable := durable
  cfg := { cfg with
    window := if cfg.window ≤ 0 then defaultCapsuleWindow else cfg.window
    storeBucket := if cfg.storeBucket = "" then defaultIncidentCapsuleBucket else cfg.storeBucket
    indexBucket := if cfg.indexBucket = "" then defaultIncidentIndexBucket else cfg.indexBucket
    redact := cfg.redact.or (some defaultCapsuleRedact) }

namespace Callback

-- The stream and the consumer that the callback names; RecordShadow names none.
def names : Callback → String × String
  | recordDLQ _ stream consumer _ _ => (stream, consumer)
  | recordDLQAutopsy _ stream consumer _ _ _ => (stream, consumer)
  | recordShadow _ _ _ => ("", "")
  | onAnomaly stream durable => (stream, durable)

def request : Callback → Request
  | recordDLQ subject _ _ reason seq => ⟨.dlq, seq, subject, reason⟩
  | recordDLQAutopsy subject _ _ reason _ seq => ⟨.dlq, seq, subject, reason⟩
  | recordShadow detail subject err =>
    ⟨.shadowMismatch, 0, subject, if err = "" then detail else detail ++ ": " ++ err⟩
  | onAnomaly _ _ => ⟨.anomaly, 0, "", "behavior_fingerprint_anomaly"⟩

end Callback

namespace CapsuleAuto

-- What a callback names replaces what is in the fields.
def park (a : CapsuleAuto R F) (names : String × String) : CapsuleAuto R F :=
  { a with
    stream := if names.1 = "" then a.stream else names.1
    durable := if names.2 = "" then a.durable else names.2 }

def captures (a : CapsuleAuto R F) : Bool := a.cfg.enabled && a.client

def incidentCapture (a : CapsuleAuto R F) (req : Request) : IncidentCapture R F where
  stream := a.stream
  consumer := a.durable
  trigger := req.trigger
  failingSeq := req.seq
  window := a.cfg.window
  subject := req.subject
  reason := req.reason
  storeBucket := a.cfg.storeBucket
  indexBucket := a.cfg.indexBucket
  flightRecorder := a.cfg.flightRecorder
  redact := a.cfg.redact

end CapsuleAuto

-- The shared CapsuleAuto, where each callback is, the calls of Capture so far with the
-- callback that made them, and the capsules that OnReady was given.
structure State (ι R F K : Type) where
  auto : CapsuleAuto R F
  pc : ι → Pc
  captured : List (ι × IncidentCapture R F)
  ready : List K

-- A critical section of a callback, or the answer of Capture with a capsule or without.
inductive Act (ι K : Type)
  | run (i : ι)
  | answer (i : ι) (capsule : Option K)

variable {ι K : Type} [DecidableEq ι]

def step (calls : ι → Callback) (s : State ι R F K) : Act ι K → Option (State ι R F K)
  | .run i =>
    match s.pc i with
    | .start =>
      some { s with
        auto := s.auto.park (calls i).names
        pc := Function.update s.pc i .capture }
    | .capture =>
      if s.auto.captures then
        some { s with
          captured := s.captured ++ [(i, s.auto.incidentCapture (calls i).request)]
          pc := Function.update s.pc i .answer }
      else some { s with pc := Function.update s.pc i .done }
    | _ => none
  | .answer i capsule =>
    match s.pc i with
    | .answer =>
      some { s with
        ready := if s.auto.cfg.onReady then s.ready ++ capsule.toList else s.ready
        pc := Function.update s.pc i .done }
    | _ => none

def initial (a : CapsuleAuto R F) : State ι R F K := ⟨a, fun _ => .start, [], []⟩

end NatsClient.Incident
