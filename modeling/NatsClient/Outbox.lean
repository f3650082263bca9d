import Mathlib.Logic.Function.Basic
import NatsClient.GoError
import NatsClient.Header

namespace NatsClient.Outbox

abbrev Headers := Finmap (fun _ : String => String)

structure Record where
  createdAt : Int
  headers : Headers
  id : String
  subject : String
  data : Bytes
  deriving DecidableEq

-- encoding/json on records: what it has written it reads back.
structure Codec where
  marshal : Record → Except GoError Bytes
  unmarshal : Bytes → Except GoError Record
  roundTrip : ∀ record raw, marshal record = .ok raw → unmarshal raw = .ok record

-- The arguments of a call of Enqueue.
structure EnqueueCall where
  -- the store is nil
  noStore : Bool
  subject : String
  data : Bytes
  headers : Headers

-- The arguments of a call of Flush.
structure FlushCall where
  noStore : Bool
  noPublisher : Bool
  limit : Int

-- The calls to come, and the id that nuid.Next returns in each call of Enqueue.
structure Config (E L : Type) where
  codec : Codec
  enqueue : E → EnqueueCall
  flush : L → FlushCall
  ids : E → String
  unique : Function.Injective ids

-- The next step of a call of Enqueue.
inductive EnqueuePc
  | start
  | put (record : Record) (raw : Bytes)
  | returned (result : Except GoError Record)

-- The next step of a call of Flush: the list of keys, the head of the loop, or one of the
-- three calls of its body.
inductive FlushPc
  | start
  | next (keys : List String) (flushed : Nat)
  | get (key : String) (keys : List String) (flushed : Nat)
  | publish (key : String) (record : Record) (keys : List String) (flushed : Nat)
  | delete (key : String) (keys : List String) (flushed : Nat)
  | returned (flushed : Nat) (err : Option GoError)

-- What PublishRaw is given.
structure Message where
  subject : String
  data : Bytes
  headers : Headers

def Record.message (record : Record) : Message := ⟨record.subject, record.data, record.headers⟩

structure State (E L : Type) where
  store : String → Option Bytes
  -- The calls of PublishRaw that succeeded, with the call of Flush that made them.
  published : List (L × Message)
  enqueue : E → EnqueuePc
  flush : L → FlushPc

-- The calls of store, publisher and context with their answers. A Put or a Delete that
-- fails may have had its effect all the same, and Keys may answer with any list.
inductive Act (E L : Type)
  | make (e : E) (now : Int)
  | put (e : E) (err : Option GoError) (stored : Bool)
  | keys (l : L) (answer : Except GoError (List String))
  | next (l : L) (ctxErr : Option GoError)
  | get (l : L) (err : Option GoError)
  | publish (l : L) (err : Option GoError)
  | delete (l : L) (deleted : Bool)

variable {E L : Type}

def Config.record (cfg : Config E L) (e : E) (now : Int) : Record where
  id := cfg.ids e
  subject := (cfg.enqueue e).subject
  data := (cfg.enqueue e).data
  headers := (cfg.enqueue e).headers
  createdAt := now

-- Enqueue up to the call of Put.
def Config.begin (cfg : Config E L) (e : E) (now : Int) : EnqueuePc :=
  if (cfg.enqueue e).noStore then
    .returned (.error (.foreign "outbox enqueue: store is nil" []))
  else if (cfg.enqueue e).subject = "" then
    .returned (.error (.foreign "outbox enqueue: subject is required" []))
  else
    match cfg.codec.marshal (cfg.record e now) with
    | .error err => .returned (.error err)
    | .ok raw => .put (cfg.record e now) raw

def FlushCall.bound (call : FlushCall) : Int := if call.limit ≤ 0 then 100 else call.limit

-- Flush up to the loop.
def FlushCall.begin (call : FlushCall) (answer : Except GoError (List String)) : FlushPc :=
  if call.noStore || call.noPublisher then
    .returned 0 (some (.foreign "outbox flush: store and publisher are required" []))
  else
    match answer with
    | .error err => .returned 0 (some err)
    | .ok keys => .next keys 0

-- The head of the loop.
def FlushCall.turn (call : FlushCall) (ctxErr : Option GoError) (flushed : Nat) :
    List String → FlushPc
  | [] => .returned flushed none
  | key :: keys =>
    if call.bound ≤ flushed then .returned flushed none
    else
      match ctxErr with
      | some err => .returned flushed (some err)
      | none => .get key keys flushed

-- What follows the call of Get, which has found the value or failed.
def Codec.read (codec : Codec) (value : Option Bytes) (key : String) (keys : List String)
    (flushed : Nat) : FlushPc :=
  match value with
  | none => .next keys flushed
  | some raw =>
    match codec.unmarshal raw with
    | .error _ => .next keys flushed
    | .ok record => .publish key record keys flushed

variable [DecidableEq E] [DecidableEq L]

def step (cfg : Config E L) (s : State E L) : Act E L → Option (State E L)
  | .make e now =>
    match s.enqueue e with
    | .start => some { s with enqueue := Function.update s.enqueue e (cfg.begin e now) }
    | _ => none
  | .put e err stored =>
    match s.enqueue e with
    | .put record raw =>
      let result := match err with
        | none => .ok record
        | some err => .error (.wrap "outbox enqueue put: " err "")
      some { s with
        store :=
          if err.isNone || stored then Function.update s.store record.id (some raw) else s.store
        enqueue := Function.update s.enqueue e (.returned result) }
    | _ => none
  | .keys l answer =>
    match s.flush l with
    | .start => some { s with flush := Function.update s.flush l ((cfg.flush l).begin answer) }
    | _ => none
  | .next l ctxErr =>
    match s.flush l with
    | .next keys flushed =>
      some { s with
        flush := Function.update s.flush l ((cfg.flush l).turn ctxErr flushed keys) }
    | _ => none
  | .get l err =>
    match s.flush l with
    | .get key keys flushed =>
      let value := if err.isSome then none else s.store key
      some { s with
        flush := Function.update s.flush l (cfg.codec.read value key keys flushed) }
    | _ => none
  | .publish l err =>
    match s.flush l with
    | .publish key record keys flushed =>
      match err with
      | some err =>
        let place := "outbox flush publish id=" ++ record.id ++ ": "
        some { s with
          flush := Function.update s.flush l (.returned flushed (some (.wrap place err ""))) }
      | none =>
        some { s with
          published := s.published ++ [(l, record.message)]
          flush := Function.update s.flush l (.delete key keys flushed) }
    | _ => none
  | .delete l deleted =>
    match s.flush l with
    | .delete key keys flushed =>
      some { s with
        store := if deleted then Function.update s.store key none else s.store
        flush := Function.update s.flush l (.next keys (flushed + 1)) }
    | _ => none

def initial (store : String → Option Bytes) : State E L :=
  ⟨store, [], fun _ => .start, fun _ => .start⟩

end NatsClient.Outbox
