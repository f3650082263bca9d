import NatsClient.Consumer
import NatsClient.Validate
import NatsClient.Lib.Machine

namespace NatsClient.Idempotency

def pendingValue : Bytes := [0x70]
def doneValue : Bytes := [0x64]
-- The marker of the time before claims; it counts as done.
def legacyMarkedValue : Bytes := [1]

def isDoneValue (v : Bytes) : Bool := v == doneValue || v == legacyMarkedValue

-- A KV bucket: the live value of each key.
abbrev Bucket := String → Option Bytes

-- What befalls one operation on the bucket: nothing, a failure before it took
-- effect, or a failure reported although it took effect.
inductive Fault
  | none
  | failed (err : GoError)
  | applied (err : GoError)
  deriving DecidableEq, Repr

def Fault.takesEffect : Fault → Bool
  | .failed _ => false
  | _ => true

-- The bucket and the error after an operation with the given effect.
def Fault.after (fault : Fault) (before effect : Bucket) (err : Option GoError) :
    Bucket × Option GoError :=
  match fault with
  | .none => (effect, err)
  | .failed e => (before, some e)
  | .applied e => (effect, some e)

def kvCreate (b : Bucket) (key : String) (value : Bytes) (fault : Fault) :
    Bucket × Option GoError :=
  match b key with
  | .none => fault.after b (Function.update b key (some value)) .none
  | some _ => fault.after b b (some (.sentinel .errKeyExists))

def kvGet (b : Bucket) (key : String) (fault : Fault) : Except GoError Bytes :=
  match fault with
  | .failed e => .error e
  | .applied e => .error e
  | .none =>
    match b key with
    | some value => .ok value
    | .none => .error (.sentinel .errKeyNotFound)

def kvPut (b : Bucket) (key : String) (value : Bytes) (fault : Fault) : Bucket × Option GoError :=
  fault.after b (Function.update b key (some value)) .none

def kvPurge (b : Bucket) (key : String) (fault : Fault) : Bucket × Option GoError :=
  fault.after b (Function.update b key .none) .none

-- The methods of kvStore.
def seen (b : Bucket) (id : String) (fault : Fault) : Except GoError Bool :=
  match validateKVKey id with
  | some e => .error e
  | .none =>
    match kvGet b id fault with
    | .ok value => .ok (isDoneValue value)
    | .error e =>
      if e.is .errKeyNotFound then .ok false
      else .error (.wrap ("kv dedup seen " ++ quoted id ++ ": ") e "")

def mark (b : Bucket) (id : String) (fault : Fault) : Bucket × Option GoError :=
  match validateKVKey id with
  | some e => (b, some e)
  | .none =>
    let put := kvPut b id doneValue fault
    (put.1, put.2.map fun e => .wrap ("kv dedup mark " ++ quoted id ++ ": ") e "")

def claim (b : Bucket) (id : String) (fault : Fault) : Bucket × Except GoError Bool :=
  match validateKVKey id with
  | some e => (b, .error e)
  | .none =>
    match kvCreate b id pendingValue fault with
    | (next, .none) => (next, .ok true)
    | (next, some e) =>
      if e.is .errKeyExists then (next, .ok false)
      else (next, .error (.wrap ("kv dedup claim " ++ quoted id ++ ": ") e ""))

def release (b : Bucket) (id : String) (fault : Fault) : Bucket × Option GoError :=
  match validateKVKey id with
  | some e => (b, some e)
  | .none =>
    match kvPurge b id fault with
    | (next, .none) => (next, .none)
    | (next, some e) =>
      if e.is .errKeyNotFound then (next, .none)
      else (next, some (.wrap ("kv dedup release " ++ quoted id ++ ": ") e ""))

-- How an invocation came to run its handler: without an id, after a Seen of a
-- plain DedupStore, or as the holder of a claim.
inductive Guard
  | bare
  | plain
  | claimed
  deriving DecidableEq, Repr

-- Where an invocation of WithHandler stands. Each store operation and the run of
-- the handler is one step.
inductive Pc
  | start
  -- Seen after a Claim that was not acquired.
  | lookup
  | running (guard : Guard)
  | marking (guard : Guard)
  | releasing (cause : GoError) (context : String)
  | returned (err : Option GoError)
  | panicked
  deriving DecidableEq, Repr

-- The invocations under way: the id extractID gives for each, and whether the
-- store is a ClaimStore.
structure Invocations (ι : Type) where
  id : ι → String
  claims : Bool

structure State (ι : Type) where
  bucket : Bucket
  pc : ι → Pc
  -- The ids for which a handler has returned nil.
  handled : List String

inductive Act (ι : Type)
  | store (i : ι) (fault : Fault)
  | finish (i : ι) (outcome : Outcome)
  | expire (key : String)

variable {ι : Type} [DecidableEq ι]

def State.goto (s : State ι) (i : ι) (pc : Pc) : State ι :=
  { s with pc := Function.update s.pc i pc }

def State.write (s : State ι) (b : Bucket) : State ι := { s with bucket := b }

-- The next store operation of an invocation, in WithHandler and withClaimHandler.
def storeStep (inv : Invocations ι) (s : State ι) (i : ι) (fault : Fault) : Option (State ι) :=
  let id := inv.id i
  match s.pc i with
  | .start =>
    if id = "" then some (s.goto i (.running .bare))
    else if inv.claims then
      let (b, acquired) := claim s.bucket id fault
      match acquired with
      | .error e => some ((s.write b).goto i (.returned (some e)))
      | .ok true => some ((s.write b).goto i (.running .claimed))
      | .ok false => some ((s.write b).goto i .lookup)
    else
      match seen s.bucket id fault with
      | .error e => some (s.goto i (.returned (some e)))
      | .ok true => some (s.goto i (.returned none))
      | .ok false => some (s.goto i (.running .plain))
  | .lookup =>
    match seen s.bucket id fault with
    | .error e => some (s.goto i (.returned (some e)))
    | .ok true => some (s.goto i (.returned none))
    | .ok false =>
      some (s.goto i (.returned
        (some (.wrap "" (.sentinel .errClaimInFlight) (": id=" ++ quoted id)))))
  | .marking guard =>
    let (b, err) := mark s.bucket id fault
    match guard, err with
    | .claimed, some e =>
      some ((s.write b).goto i (.releasing e "idempotency release after mark id="))
    | _, err => some ((s.write b).goto i (.returned err))
  | .releasing cause context =>
    let (b, err) := release s.bucket id fault
    match err with
    | none => some ((s.write b).goto i (.returned (some cause)))
    | some e => some ((s.write b).goto i
        (.returned (some (cause.joined (.wrap (context ++ quoted id ++ ": ") e "")))))
  | _ => none

-- The handler of a running invocation ends.
def finishStep (inv : Invocations ι) (s : State ι) (i : ι) (outcome : Outcome) :
    Option (State ι) :=
  match s.pc i with
  | .running guard =>
    match outcome with
    | .panicked _ => some (s.goto i .panicked)
    | .returned none =>
      let s := { s with handled := inv.id i :: s.handled }
      match guard with
      | .bare => some (s.goto i (.returned none))
      | guard => some (s.goto i (.marking guard))
    | .returned (some e) =>
      match guard with
      | .claimed => some (s.goto i (.releasing e "idempotency release id="))
      | _ => some (s.goto i (.returned (some e)))
  | _ => none

def step (inv : Invocations ι) (s : State ι) : Act ι → Option (State ι)
  | .store i fault => storeStep inv s i fault
  | .finish i outcome => finishStep inv s i outcome
  | .expire key => some (s.write (Function.update s.bucket key none))

-- No invocation has begun.
def initial (b : Bucket) : State ι := ⟨b, fun _ => .start, []⟩

end NatsClient.Idempotency
