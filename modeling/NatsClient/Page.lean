import Mathlib.Algebra.Group.Nat.Defs
import NatsClient.GoError
import NatsClient.Text

namespace NatsClient.Page

-- A Go slice: its length is an int.
structure Slice (α : Type) where
  items : List α
  bound : items.length < 2 ^ 63

variable {α T : Type}

def Slice.len (s : Slice α) : Int64 := Int64.ofNat s.items.length

-- items[low:high], which panics unless 0 ≤ low ≤ high and high is within the slice.
def Slice.between (s : Slice α) (low high : Int64) : Option (List α) :=
  if 0 ≤ low ∧ low ≤ high ∧ high ≤ s.len then
    some ((s.items.drop low.toInt.toNat).take (high.toInt - low.toInt).toNat)
  else none

-- A panic is none. The addition wraps.
def pageSlice (s : Slice α) (offset limit : Int64) : Option (List α × Int64) :=
  let total := s.len
  let offset := if offset < 0 then 0 else offset
  if total ≤ offset then some ([], total)
  else if limit < 0 then (s.between offset total).map (·, total)
  else
    let stop := offset + limit
    let stop := if stop > total then total else stop
    (s.between offset stop).map (·, total)

structure PageInfos (T : Type) where
  infos : List T
  total : Int64
  err : Option GoError

-- The loop of pageInfos.
def fetchInfos (fetch : String → Except GoError T) (isNotFound : GoError → Bool) :
    List String → List T → Except GoError (List T)
  | [], infos => .ok infos
  | name :: names, infos =>
    match fetch name with
    | .ok info => fetchInfos fetch isNotFound names (infos ++ [info])
    | .error err =>
      if isNotFound err then fetchInfos fetch isNotFound names infos else .error err

def pageInfos (names : Slice String) (offset limit : Int64) (fetch : String → Except GoError T)
    (isNotFound : GoError → Bool) : Option (PageInfos T) :=
  (pageSlice names offset limit).map fun (page, _) =>
    match fetchInfos fetch isNotFound page [] with
    | .ok infos => ⟨infos, names.len, none⟩
    | .error err => ⟨[], names.len, some err⟩

-- The fetch functions of the managers: an error other than not-found is wrapped.
def wrapping (notFound : Sentinel) (place : String → String)
    (info : String → Except GoError T) (name : String) : Except GoError T :=
  match info name with
  | .ok found => .ok found
  | .error err => if err.is notFound then .error err else .error (.wrap (place name) err "")

def listStreamsPage (names : Slice String) (info : String → Except GoError T)
    (offset limit : Int64) : Option (PageInfos T) :=
  pageInfos names offset limit
    (wrapping .errStreamNotFound (fun name => "list streams: info " ++ quoted name ++ ": ") info)
    (·.is .errStreamNotFound)

def listConsumersPage (stream : String) (names : Slice String) (info : String → Except GoError T)
    (offset limit : Int64) : Option (PageInfos T) :=
  pageInfos names offset limit
    (wrapping .errConsumerNotFound
      (fun name => "list consumers stream=" ++ quoted stream ++ " name=" ++ quoted name ++ ": ")
      info)
    (·.is .errConsumerNotFound)

end NatsClient.Page
