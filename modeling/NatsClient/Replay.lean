import Mathlib.Algebra.Group.Nat.Defs
import NatsClient.Validate
import NatsClient.Lib.Loop

namespace NatsClient.Replay

open Lib.Loop

structure RawStreamMsg where
  sequence : Nat
  time : Int
  deriving DecidableEq, Repr

structure StreamState where
  firstSeq : Nat
  lastSeq : Nat

-- What the JetStream server answers while nobody writes to it.
structure Server where
  streamInfo : String → Except GoError StreamState
  getMsg : String → Nat → Except GoError RawStreamMsg

-- The methods of streamManager.
def streamInfo (server : Server) (name : String) : Except GoError StreamState :=
  match validateStreamName name with
  | some e => .error e
  | none =>
    match server.streamInfo name with
    | .ok info => .ok info
    | .error e => .error (.wrap ("stream info " ++ quoted name ++ ": ") e "")

def getMsg (server : Server) (stream : String) (seq : Nat) : Except GoError RawStreamMsg :=
  match validateStreamName stream with
  | some e => .error e
  | none =>
    match server.getMsg stream seq with
    | .ok msg => .ok msg
    | .error e =>
      let place := "get msg stream=" ++ quoted stream ++ " seq=" ++ toString seq
      .error (.wrap (place ++ ": ") e "")

-- One turn of the loop of getNextMsgAfterKnownLast.
def nextMsgStep (server : Server) (stream : String) (seq last next : Nat) :
    Nat ⊕ Except GoError RawStreamMsg :=
  let place := "get next msg stream=" ++ quoted stream ++ " after=" ++ toString seq
  if next ≤ last then
    match server.getMsg stream next with
    | .ok msg => .inr (.ok msg)
    | .error e =>
      if e.is .errMsgNotFound then .inl ((next + 1) % 2 ^ 64)
      else .inr (.error (.wrap (place ++ " at=" ++ toString next ++ ": ") e ""))
  else .inr (.error (.wrap (place ++ ": ") (.sentinel .errMsgNotFound) ""))

-- The counter has 2 ^ 64 values, so a walk that takes more turns never ends.
def getNextMsgAfterKnownLast (server : Server) (stream : String) (seq last : Nat) :
    Option (Except GoError RawStreamMsg) :=
  (iterate (nextMsgStep server stream seq last) (2 ^ 64 + 1) ((seq + 1) % 2 ^ 64)).getRight?

def getNextMsgAfter (server : Server) (stream : String) (seq : Nat) :
    Option (Except GoError RawStreamMsg) :=
  match validateStreamName stream with
  | some e => some (.error e)
  | none =>
    match streamInfo server stream with
    | .error e => some (.error e)
    | .ok info => getNextMsgAfterKnownLast server stream seq info.lastSeq

def maxPrevWalk : Nat := 128

-- The walk of getExistingAtOrNear towards lower sequences.
def prevWalk (server : Server) (stream : String) (first : Nat) :
    Nat → Nat → Except GoError RawStreamMsg
  | 0, _ => .error (.sentinel .errMsgNotFound)
  | steps + 1, prev =>
    if first ≤ prev then
      match getMsg server stream prev with
      | .ok msg => .ok msg
      | .error e =>
        if !e.is .errMsgNotFound then .error e
        else if prev = 0 then .error (.sentinel .errMsgNotFound)
        else prevWalk server stream first steps (prev - 1)
    else .error (.sentinel .errMsgNotFound)

def getExistingAtOrNear (server : Server) (stream : String) (seq first last : Nat) :
    Option (Except GoError RawStreamMsg) :=
  let seq := if seq < first then first else seq
  let seq := if last < seq then last else seq
  match getMsg server stream seq with
  | .ok msg => some (.ok msg)
  | .error e =>
    if !e.is .errMsgNotFound then some (.error e)
    else
      match getNextMsgAfter server stream seq with
      | none => none
      | some (.ok next) => some (.ok next)
      | some (.error e) =>
        if !e.is .errMsgNotFound then some (.error e)
        else some (prevWalk server stream first maxPrevWalk seq)

-- The variables of the bisection.
structure Window where
  lo : Nat
  hi : Nat
  found : Nat
  deriving DecidableEq, Repr

def Window.mid (w : Window) : Nat := w.lo + (w.hi - w.lo) / 2

def Window.answer (found : Nat) : Except GoError Nat :=
  if found = 0 then .error (.sentinel .errMsgNotFound) else .ok found

-- One turn of the bisection of FindFirstSeqAtOrAfter and FindLastSeqAtOrBefore.
-- `left` tells whether the search goes on below the message; the message is
-- recorded where `left` agrees with `keepLeft`.
def bisectStep (probe : Nat → Option (Except GoError RawStreamMsg)) (first : Nat)
    (left : RawStreamMsg → Bool) (keepLeft : Bool) (w : Window) : Window ⊕ Except GoError Nat :=
  if w.lo ≤ w.hi then
    match probe w.mid with
    -- the probe itself never returns
    | none => .inl w
    | some (.error e) => .inr (.error e)
    | some (.ok msg) =>
      let found := if left msg = keepLeft then msg.sequence else w.found
      if left msg then
        if msg.sequence = 0 ∨ msg.sequence - 1 < first then .inr (Window.answer found)
        else .inl { w with hi := msg.sequence - 1, found := found }
      else .inl { w with lo := (msg.sequence + 1) % 2 ^ 64, found := found }
  else .inr (Window.answer w.found)

def bisect (server : Server) (stream : String) (left : RawStreamMsg → Bool) (keepLeft : Bool)
    (turns : Nat) : Option (Except GoError Nat) :=
  match validateStreamName stream with
  | some e => some (.error e)
  | none =>
    match streamInfo server stream with
    | .error e => some (.error e)
    | .ok info =>
      let first := info.firstSeq
      let last := info.lastSeq
      if last = 0 ∨ first = 0 then some (.error (.sentinel .errMsgNotFound))
      else
        let probe seq := getExistingAtOrNear server stream seq first last
        (iterate (bisectStep probe first left keepLeft) turns ⟨first, last, 0⟩).getRight?

def atOrAfter (t : Int) (msg : RawStreamMsg) : Bool := !decide (msg.time < t)

def after (t : Int) (msg : RawStreamMsg) : Bool := decide (t < msg.time)

-- The result within the given number of turns of the loop.
def findFirstSeqAtOrAfter (server : Server) (stream : String) (t : Int) (turns : Nat) :
    Option (Except GoError Nat) :=
  bisect server stream (atOrAfter t) true turns

def findLastSeqAtOrBefore (server : Server) (stream : String) (t : Int) (turns : Nat) :
    Option (Except GoError Nat) :=
  bisect server stream (after t) false turns

-- A stream at rest: the timestamps of the retained sequences.
structure Stream where
  first : Nat
  last : Nat
  time : Nat → Option Int
  one_le_first : 1 ≤ first
  first_le_last : first ≤ last
  last_lt : last < 2 ^ 64 - 1
  retained : ∀ seq t, time seq = some t → first ≤ seq ∧ seq ≤ last
  monotone : ∀ i j ti tj, i ≤ j → time i = some ti → time j = some tj → ti ≤ tj

def Stream.server (s : Stream) : Server where
  streamInfo _ := .ok ⟨s.first, s.last⟩
  getMsg _ seq :=
    match s.time seq with
    | some t => .ok ⟨seq, t⟩
    | none => .error (.sentinel .errMsgNotFound)

end NatsClient.Replay
