import Mathlib.Logic.Function.Basic
import NatsClient.Lib.Machine
import NatsClient.Validate.Bytes

namespace NatsClient.ObjectStore

structure ObjectEntry where
  modified : Nat
  bucket : Bytes
  name : Bytes
  data : Bytes
  size : Nat
  deriving DecidableEq, Repr

structure ObjectInfo where
  size : Nat
  modTime : Nat
  deriving DecidableEq, Repr

-- A version of an object.
structure Version where
  data : Bytes
  modTime : Nat
  deriving DecidableEq, Repr

def Version.info (v : Version) : ObjectInfo := ⟨v.data.length, v.modTime⟩

-- 64 MiB
def maxObjectGetBytes : Nat := 67108864

def errObjectNotFound : GoError := .foreign "nats: object not found" []

-- io.ReadFull of a buffer of the size, from a reader over the version.
def readFull (v : Version) (size : Nat) : Except GoError Bytes :=
  if size ≤ v.data.length then .ok (v.data.take size)
  else .error (.foreign (if v.data = [] then "EOF" else "unexpected EOF") [])

-- The calls of Get, Put and DeleteObject that the clients make.
inductive Request
  | get (bucket name : Bytes)
  | put (bucket name data : Bytes)
  | deleteObject (bucket name : Bytes)
  deriving DecidableEq, Repr

structure Setup (C : Type) where
  request : C → Request
  -- the error of js.ObjectStore
  objectStore : Bytes → Option GoError

inductive Pc
  | start
  -- Get, after GetInfo
  | sized (info : ObjectInfo)
  | returned (result : Except GoError ObjectEntry)
  | deleted (err : Option GoError)
  deriving DecidableEq, Repr

-- `versions` is no variable of the program: all versions of an object so far, each with the
-- call of Put that stored it.
structure State (C : Type) where
  object : Bytes × Bytes → Option Version
  versions : Bytes × Bytes → List (Option C × Version)
  calls : C → Pc

-- The operations of the clients on the broker, with the error of the operation if it fails.
inductive Act (C : Type)
  | getInfo (c : C) (err : Option GoError)
  | get (c : C) (err : Option GoError)
  | put (c : C) (now : Nat) (err : Option GoError)
  | delete (c : C) (err : Option GoError)
  deriving DecidableEq, Repr

variable {C : Type} [DecidableEq C]

def place (what : String) (bucket name : Bytes) : String :=
  what ++ " bucket=" ++ Validate.quoted bucket ++ " name=" ++ Validate.quoted name ++ ": "

-- What all three check before they use the bucket.
def openErr (u : Setup C) (what : String) (bucket name : Bytes) : Option GoError :=
  (Validate.validateBucketName bucket).or <|
    if name = [] then
      some (.foreign (what ++ " bucket=" ++ Validate.quoted bucket ++ ": empty object name") [])
    else (u.objectStore bucket).map fun e => .wrap (place what bucket name) e ""

def State.goto (s : State C) (c : C) (pc : Pc) : State C :=
  { s with calls := Function.update s.calls c pc }

-- The answer of GetInfo and of Get of the bucket.
def State.answer (s : State C) (bucket name : Bytes) : Option GoError → Except GoError Version
  | some e => .error e
  | none =>
    match s.object (bucket, name) with
    | some v => .ok v
    | none => .error errObjectNotFound

def State.store (s : State C) (c : C) (bucket name : Bytes) (v : Version) : State C :=
  { s with
    object := Function.update s.object (bucket, name) (some v)
    versions := Function.update s.versions (bucket, name)
      (s.versions (bucket, name) ++ [(some c, v)]) }

def State.erase (s : State C) (bucket name : Bytes) : State C :=
  { s with object := Function.update s.object (bucket, name) none }

-- Get up to the size check.
def sizeOf (u : Setup C) (s : State C) (bucket name : Bytes) (err : Option GoError) :
    Except GoError ObjectInfo :=
  match openErr u "get object" bucket name with
  | some e => .error e
  | none =>
    match s.answer bucket name err with
    | .error e => .error (.wrap (place "get object info" bucket name) e "")
    | .ok v =>
      if maxObjectGetBytes < v.info.size then
        let detail := "size " ++ toString v.info.size ++ " exceeds " ++
          toString maxObjectGetBytes ++ " byte limit"
        .error (.foreign (place "get object" bucket name ++ detail) [])
      else .ok v.info

-- The rest of Get.
def contentOf (s : State C) (bucket name : Bytes) (info : ObjectInfo) (err : Option GoError) :
    Except GoError ObjectEntry :=
  match s.answer bucket name err with
  | .error e => .error (.wrap (place "get object" bucket name) e "")
  | .ok v =>
    match readFull v info.size with
    | .error e => .error (.wrap (place "get object read" bucket name) e "")
    | .ok data => .ok ⟨info.modTime, bucket, name, data, info.size⟩

def step (u : Setup C) (s : State C) : Act C → Option (State C)
  | .getInfo c err =>
    match s.calls c, u.request c with
    | .start, .get bucket name =>
      match sizeOf u s bucket name err with
      | .error e => some (s.goto c (.returned (.error e)))
      | .ok info => some (s.goto c (.sized info))
    | _, _ => none
  | .get c err =>
    match s.calls c, u.request c with
    | .sized info, .get bucket name =>
      some (s.goto c (.returned (contentOf s bucket name info err)))
    | _, _ => none
  | .put c now err =>
    match s.calls c, u.request c with
    | .start, .put bucket name data =>
      match (openErr u "put object" bucket name).or
          (err.map fun e => .wrap (place "put object" bucket name) e "") with
      | some e => some (s.goto c (.returned (.error e)))
      | none =>
        let v : Version := ⟨data, now⟩
        let entry : ObjectEntry := ⟨v.modTime, bucket, name, data, v.info.size⟩
        some ((s.store c bucket name v).goto c (.returned (.ok entry)))
    | _, _ => none
  | .delete c err =>
    match s.calls c, u.request c with
    | .start, .deleteObject bucket name =>
      match (openErr u "delete object" bucket name).or
          (err.map fun e => .wrap (place "delete object" bucket name) e "") with
      | some e => some (s.goto c (.deleted (some e)))
      | none => some ((s.erase bucket name).goto c (.deleted none))
    | _, _ => none

def initial (objects : Bytes × Bytes → Option Version) : State C where
  object := objects
  versions place := (objects place).toList.map fun v => (none, v)
  calls _ := .start

end NatsClient.ObjectStore
