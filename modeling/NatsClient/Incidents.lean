import NatsClient.FlightRecorder
import NatsClient.Incident
import NatsClient.KeyValue
import NatsClient.Replay.Range
import NatsClient.Validate.Text

namespace NatsClient.Incidents

open Incident (IncidentTrigger defaultCapsuleWindow)
open KeyValue (Bucket)
open Replay (MsgRange MsgRangeOpt StoredMessage StreamState withMaxMessages)

def defaultIncidentCapsuleBucket : Bytes := Validate.utf8 Incident.defaultIncidentCapsuleBucket
def defaultIncidentIndexBucket : Bytes := Validate.utf8 Incident.defaultIncidentIndexBucket
def capsuleSchemaVersion : Int := 1

-- A nil header is none.
structure CapsuleMessage where
  time : Int
  header : Option Header
  subject : String
  data : Bytes
  sequence : Nat
  deriving DecidableEq

-- P stands for the payloads of the fingerprints.
structure Capsule (P : Type) where
  createdAt : Nat
  fingerprint : Option P
  id : Bytes
  stream : Bytes
  consumer : Bytes
  trigger : IncidentTrigger
  subject : Bytes
  reason : Bytes
  messages : List CapsuleMessage
  flightTimeline : List IncidentEvent
  failingSeq : Nat
  schemaVersion : Int
  deriving DecidableEq

-- The empty trigger is none.
structure IncidentCapture (P : Type) where
  redact : Option (CapsuleMessage → CapsuleMessage)
  flightRecorder : Option FlightRecorder
  fingerprint : Option P
  stream : Bytes
  consumer : Bytes
  subject : Bytes
  reason : Bytes
  storeBucket : Bytes
  indexBucket : Bytes
  trigger : Option IncidentTrigger
  failingSeq : Nat
  window : Int

-- The answers of the managers and of json.Marshal. A nil stream manager is none.
structure Managers (P : Type) where
  streamInfo : Option (Bytes → Except GoError (Option StreamState))
  -- none where GetMsgRange never returns
  getMsgRange : Bytes → Nat → Nat → List MsgRangeOpt → Option MsgRange
  marshal : Capsule P → Except GoError Bytes
  -- the error of objects.Put
  putObject : Bytes → Bytes → Bytes → Option GoError
  -- the errors of js.KeyValue and of kv.Put
  keyValue : Bytes → Option GoError
  kvPut : Option GoError

variable {P : Type}

namespace IncidentCapture

def windowOrDefault (cfg : IncidentCapture P) : Int :=
  if cfg.window ≤ 0 then defaultCapsuleWindow else cfg.window

def half (cfg : IncidentCapture P) : Nat := (cfg.windowOrDefault / 2).toNat

def store (cfg : IncidentCapture P) : Bytes :=
  if cfg.storeBucket = [] then defaultIncidentCapsuleBucket else cfg.storeBucket

end IncidentCapture

def indexOrDefault (indexBucket : Bytes) : Bytes :=
  if indexBucket = [] then defaultIncidentIndexBucket else indexBucket

def slash : UInt8 := 0x2f

def incidentIndexKey (stream consumer id : Bytes) : Bytes :=
  stream ++ slash :: (consumer ++ slash :: id)

def cloneHeaderMap (h : Option Header) : Option Header :=
  h.filter fun header => header.keys.card ≠ 0

def capsuleMessage (cfg : IncidentCapture P) (replayMsg : StoredMessage) : CapsuleMessage :=
  let cm : CapsuleMessage :=
    { sequence := replayMsg.sequence
      subject := replayMsg.subject
      time := replayMsg.time
      data := replayMsg.data
      header := cloneHeaderMap replayMsg.header }
  match cfg.redact with
  | some redact => redact cm
  | none => cm

-- A last sequence of 0 leaves it at 0.
def failingSeq (m : Managers P) (cfg : IncidentCapture P) : Nat :=
  if cfg.failingSeq = 0 then
    match m.streamInfo with
    | none => 0
    | some streamInfo =>
      match streamInfo cfg.stream with
      | .ok (some info) => info.lastSeq
      | _ => 0
  else cfg.failingSeq

def windowStart (cfg : IncidentCapture P) (failingSeq : Nat) : Nat :=
  if cfg.half < failingSeq then failingSeq - cfg.half else 1

-- The messages around the failing one. The addition wraps.
def window (m : Managers P) (cfg : IncidentCapture P) (failingSeq : Nat) : Option MsgRange :=
  if 0 < failingSeq then
    m.getMsgRange cfg.stream (windowStart cfg failingSeq) ((failingSeq + cfg.half) % 2 ^ 64)
      [withMaxMessages cfg.windowOrDefault]
  else some ⟨[], false, none⟩

def capsule (cfg : IncidentCapture P) (id : Bytes) (now failingSeq : Nat)
    (msgs : List StoredMessage) : Capsule P where
  id := id
  createdAt := now
  stream := cfg.stream
  consumer := cfg.consumer
  trigger := cfg.trigger.getD .manual
  failingSeq := failingSeq
  subject := cfg.subject
  reason := cfg.reason
  fingerprint := cfg.fingerprint
  schemaVersion := capsuleSchemaVersion
  flightTimeline := (cfg.flightRecorder.map FlightRecorder.snapshot).getD []
  messages := msgs.map (capsuleMessage cfg)

-- keys.Put, which nobody else runs meanwhile. Its error is dropped.
def putIndex (m : Managers P) (buckets : Bytes → Bucket) (index key value : Bytes) (now : Nat) :
    Bytes → Bucket :=
  match KeyValue.writeErr m.keyValue "put kv" index key m.kvPut with
  | some _ => buckets
  | none => Function.update buckets index ((buckets index).put key value now)

-- Capture at the given time, with the given id. The errors of objects.Create and
-- kv.CreateOrUpdate are dropped.
def capture (m : Managers P) (buckets : Bytes → Bucket) (id : Bytes) (now : Nat)
    (cfg : IncidentCapture P) : Option (Except GoError (Capsule P) × (Bytes → Bucket)) :=
  match Validate.validateStreamName cfg.stream with
  | some e => some (.error (.wrap "incident capture: " e ""), buckets)
  | none =>
    if cfg.consumer = [] then
      some (.error (.foreign "incident capture: consumer required" []), buckets)
    else
      match window m cfg (failingSeq m cfg) with
      | none => none
      | some ⟨_, _, some e⟩ => some (.error (.wrap "incident capture range: " e ""), buckets)
      | some ⟨msgs, _, none⟩ =>
        let made := capsule cfg id now (failingSeq m cfg) msgs
        match m.marshal made with
        | .error e => some (.error (.wrap "incident capture marshal: " e ""), buckets)
        | .ok raw =>
          match m.putObject cfg.store id raw with
          | some e =>
            some (.error (.wrap "incident capture put object: " e ""), buckets)
          | none =>
            let key := incidentIndexKey cfg.stream cfg.consumer id
            some (.ok made, putIndex m buckets (indexOrDefault cfg.indexBucket) key id now)

-- List, with the answer of kv.Keys.
def list (m : Managers P) (keys : Except GoError (Page.Slice Bytes))
    (stream consumer indexBucket : Bytes) : Option (Except GoError (List Bytes)) :=
  let begins := incidentIndexKey stream consumer []
  match KeyValue.listKeys m.keyValue keys (indexOrDefault indexBucket) 0 (-1) with
  | none => none
  | some (.error e) => some (.error (.wrap "incident list keys: " e ""))
  | some (.ok (all, _)) =>
    some (.ok (all.filterMap fun k =>
      if begins.isPrefixOf k then some (k.drop begins.length) else none))

-- Managers that refuse nothing.
def accepting : Managers Unit where
  streamInfo := none
  getMsgRange _ _ _ _ := none
  marshal _ := .ok []
  putObject _ _ _ := none
  keyValue _ := none
  kvPut := none

end NatsClient.Incidents
