import Mathlib.Logic.Function.Basic
import NatsClient.Lib.Machine
import NatsClient.Page
import NatsClient.Validate.Bytes

namespace NatsClient.KeyValue

structure KVEntry where
  bucket : Bytes
  key : Bytes
  value : Bytes
  revision : Nat
  created : Nat
  deriving DecidableEq, Repr

-- An entry as the broker stores it.
structure Stored where
  value : Bytes
  revision : Nat
  created : Nat
  deriving DecidableEq, Repr

-- A bucket of the broker: the last revision, and what Get finds under a key.
structure Bucket where
  revision : Nat
  entry : Bytes → Option Stored

namespace Bucket

def put (b : Bucket) (key value : Bytes) (now : Nat) : Bucket where
  revision := b.revision + 1
  entry := Function.update b.entry key (some ⟨value, b.revision + 1, now⟩)

-- The marker of a deletion has a revision of its own, and Get does not find it.
def delete (b : Bucket) (key : Bytes) : Bucket where
  revision := b.revision + 1
  entry := Function.update b.entry key none

def get (b : Bucket) (key : Bytes) : Except GoError Stored :=
  match b.entry key with
  | some stored => .ok stored
  | none => .error (.sentinel .errKeyNotFound)

end Bucket

def kvEntryFrom (bucket key : Bytes) (stored : Stored) : KVEntry :=
  ⟨bucket, key, stored.value, stored.revision, stored.created⟩

-- The calls of Put and DeleteKey that the clients make.
inductive Request
  | put (bucket key value : Bytes)
  | deleteKey (bucket key : Bytes)
  deriving DecidableEq, Repr

def Request.place : Request → Bytes × Bytes
  | put bucket key _ => (bucket, key)
  | deleteKey bucket key => (bucket, key)

structure Setup (C : Type) where
  request : C → Request
  -- the error of js.KeyValue
  keyValue : Bytes → Option GoError

inductive Pc
  | start
  -- Put, after kv.Put has returned
  | stored (revision : Nat)
  | returned (result : Except GoError KVEntry)
  | deleted (err : Option GoError)
  deriving DecidableEq, Repr

structure State (C : Type) where
  bucket : Bytes → Bucket
  calls : C → Pc

-- The operations of the clients on the broker, with the error of the operation if it fails:
-- kv.Put or kv.Delete, and the kv.Get after kv.Put.
inductive Act (C : Type)
  | write (c : C) (now : Nat) (err : Option GoError)
  | read (c : C) (err : Option GoError)
  deriving DecidableEq, Repr

variable {C : Type} [DecidableEq C]

def place (verb : String) (bucket key : Bytes) : String :=
  verb ++ " bucket=" ++ Validate.quoted bucket ++ " key=" ++ Validate.quoted key ++ ": "

-- The checks before the write, and the write.
def writeErr (keyValue : Bytes → Option GoError) (verb : String) (bucket key : Bytes)
    (err : Option GoError) : Option GoError :=
  (Validate.validateBucketName bucket).or <| (Validate.validateKVKey key).or <|
    ((keyValue bucket).or err).map fun e => .wrap (place verb bucket key) e ""

def getAfterPut (bucket key : Bytes) (revision : Nat) (answer : Except GoError Stored) :
    Except GoError KVEntry :=
  match answer with
  | .ok stored => .ok (kvEntryFrom bucket key stored)
  | .error e =>
    let after := "get after put (rev=" ++ toString revision ++ "): "
    .error (.wrap (place "put kv" bucket key ++ after) e "")

def State.goto (s : State C) (c : C) (pc : Pc) : State C :=
  { s with calls := Function.update s.calls c pc }

def State.set (s : State C) (name : Bytes) (b : Bucket) : State C :=
  { s with bucket := Function.update s.bucket name b }

def step (u : Setup C) (s : State C) : Act C → Option (State C)
  | .write c now err =>
    match s.calls c, u.request c with
    | .start, .put bucket key value =>
      match writeErr u.keyValue "put kv" bucket key err with
      | some e => some (s.goto c (.returned (.error e)))
      | none =>
        let b := (s.bucket bucket).put key value now
        some ((s.set bucket b).goto c (.stored b.revision))
    | .start, .deleteKey bucket key =>
      match writeErr u.keyValue "delete kv key" bucket key err with
      | some e => some (s.goto c (.deleted (some e)))
      | none => some ((s.set bucket ((s.bucket bucket).delete key)).goto c (.deleted none))
    | _, _ => none
  | .read c err =>
    match s.calls c, u.request c with
    | .stored revision, .put bucket key _ =>
      let answer := match err with
        | some e => .error e
        | none => (s.bucket bucket).get key
      some (s.goto c (.returned (getAfterPut bucket key revision answer)))
    | _, _ => none

-- ListKeys, with the answer of kv.Keys.
def listKeys (keyValue : Bytes → Option GoError) (answer : Except GoError (Page.Slice Bytes))
    (bucket : Bytes) (offset limit : Int64) : Option (Except GoError (List Bytes × Int64)) :=
  let place := "list kv keys bucket=" ++ Validate.quoted bucket ++ ": "
  match Validate.validateBucketName bucket with
  | some e => some (.error e)
  | none =>
    match keyValue bucket with
    | some e => some (.error (.wrap place e ""))
    | none =>
      match answer with
      | .ok keys => (Page.pageSlice keys offset limit).map .ok
      | .error e =>
        if e.is .errNoKeysFound then
          (Page.pageSlice ⟨[], by decide⟩ offset limit).map .ok
        else some (.error (.wrap place e ""))

-- The answers of kv.Keys: the keys that have an entry, in any order.
inductive Bucket.Keys (b : Bucket) : Except GoError (Page.Slice Bytes) → Prop
  | found {keys : Page.Slice Bytes} (nodup : keys.items.Nodup)
      (mem_iff : ∀ key, key ∈ keys.items ↔ (b.entry key).isSome) : Keys b (.ok keys)
  | missing (h : ∀ key, b.entry key = none) : Keys b (.error (.sentinel .errNoKeysFound))

end NatsClient.KeyValue
