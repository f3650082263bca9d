import NatsClient.Publish
import NatsClient.Replay

namespace NatsClient.Replay

open Lib.Loop

-- A message as GetMsg returns it. A nil header is none.
structure RawMsg extends RawStreamMsg where
  subject : String
  header : Option Header
  data : Bytes

structure StoredMessage where
  time : Int
  header : Option Header
  subject : String
  data : Bytes
  sequence : Nat
  messageType : Publish.MessageType

def storedMessageFromRaw (raw : RawMsg) : StoredMessage where
  time := raw.time
  header := raw.header
  subject := raw.subject
  data := raw.data
  sequence := raw.sequence
  messageType :=
    match raw.header with
    | some header => Publish.messageTypeFromHeader header
    | none => .json

-- What the JetStream server answers to one call.
structure Source where
  streamInfo : String → Except GoError StreamState
  getMsg : String → Nat → Except GoError RawMsg

-- What the time searches see of it.
def Source.server (src : Source) : Server where
  streamInfo := src.streamInfo
  getMsg stream seq := (src.getMsg stream seq).map RawMsg.toRawStreamMsg

-- GetMsg of streamManager, with the whole message.
def getRawMsg (src : Source) (stream : String) (seq : Nat) : Except GoError RawMsg :=
  match validateStreamName stream with
  | some e => .error e
  | none =>
    match src.getMsg stream seq with
    | .ok msg => .ok msg
    | .error e =>
      let place := "get msg stream=" ++ quoted stream ++ " seq=" ++ toString seq
      .error (.wrap (place ++ ": ") e "")

-- GetNextMsgAfter of streamManager, with the whole message.
def nextRawMsgStep (src : Source) (stream : String) (seq last next : Nat) :
    Nat ⊕ Except GoError RawMsg :=
  let place := "get next msg stream=" ++ quoted stream ++ " after=" ++ toString seq
  if next ≤ last then
    match src.getMsg stream next with
    | .ok msg => .inr (.ok msg)
    | .error e =>
      if e.is .errMsgNotFound then .inl ((next + 1) % 2 ^ 64)
      else .inr (.error (.wrap (place ++ " at=" ++ toString next ++ ": ") e ""))
  else .inr (.error (.wrap (place ++ ": ") (.sentinel .errMsgNotFound) ""))

def getNextRawMsgAfter (src : Source) (stream : String) (seq : Nat) :
    Option (Except GoError RawMsg) :=
  match validateStreamName stream with
  | some e => some (.error e)
  | none =>
    match streamInfo src.server stream with
    | .error e => some (.error e)
    | .ok info =>
      (iterate (nextRawMsgStep src stream seq info.lastSeq) (2 ^ 64 + 1)
        ((seq + 1) % 2 ^ 64)).getRight?

def defaultMsgRangeMax : Int := 1000

structure MsgRangeConfig where
  max : Int

-- A nil option is none.
abbrev MsgRangeOpt := Option (MsgRangeConfig → MsgRangeConfig)

def withMaxMessages (n : Int) : MsgRangeOpt := some fun c => if 0 < n then { c with max := n } else c

def applyMsgRangeOpts (opts : List MsgRangeOpt) : MsgRangeConfig :=
  let cfg := opts.foldl (fun c opt => opt.elim c (· c)) ⟨defaultMsgRangeMax⟩
  if cfg.max ≤ 0 then ⟨defaultMsgRangeMax⟩ else cfg

-- The three values that GetMsgRange returns.
structure MsgRange where
  messages : List StoredMessage
  truncated : Bool
  err : Option GoError

def MsgRange.failed (err : GoError) : MsgRange := ⟨[], false, some err⟩

-- The calls are numbered, and the server answers each as it likes. A result comes with the
-- number of the next call.
abbrev Calls := Nat → Source

structure Cursor where
  seq : Nat
  clock : Nat

-- One turn of the loop of nextExisting.
def nextExistingStep (calls : Calls) (stream : String) (endSeq : Nat) (c : Cursor) :
    Cursor ⊕ Except GoError RawMsg × Nat :=
  if c.seq ≤ endSeq then
    match getRawMsg (calls c.clock) stream c.seq with
    | .ok msg => .inr (.ok msg, c.clock + 1)
    | .error e =>
      if e.is .errMsgNotFound then .inl ⟨(c.seq + 1) % 2 ^ 64, c.clock + 1⟩
      else .inr (.error e, c.clock + 1)
  else .inr (.error (.sentinel .errMsgNotFound), c.clock)

-- The result within the given number of turns.
def nextExisting (calls : Calls) (stream : String) (endSeq after clock turns : Nat) :
    Option (Except GoError RawMsg × Nat) :=
  (iterate (nextExistingStep calls stream endSeq) turns ⟨(after + 1) % 2 ^ 64, clock⟩).getRight?

-- The variables of the loop of GetMsgRange.
structure Walk where
  out : List StoredMessage
  cur : Nat
  clock : Nat

def rangePlace (stream word : String) (seq : Nat) : String :=
  "replay get msg range stream=" ++ quoted stream ++ " " ++ word ++ "=" ++ toString seq ++ ": "

-- The first message.
def rangeStart (calls : Calls) (stream : String) (startSeq endSeq clock turns : Nat) :
    Option (Walk ⊕ MsgRange × Nat) :=
  match getRawMsg (calls clock) stream startSeq with
  | .ok raw => some (.inl ⟨[storedMessageFromRaw raw], startSeq, clock + 1⟩)
  | .error e =>
    if e.is .errMsgNotFound then
      (nextExisting calls stream endSeq (startSeq - 1) (clock + 1) turns).map fun
        | (.ok next, clock) => .inl ⟨[storedMessageFromRaw next], next.sequence, clock⟩
        | (.error e, clock) =>
          if e.is .errMsgNotFound then .inr (⟨[], false, none⟩, clock)
          else .inr (.failed (.wrap (rangePlace stream "start" startSeq) e ""), clock)
    else some (.inr (.failed (.wrap (rangePlace stream "start" startSeq) e ""), clock + 1))

-- One turn of the loop. Where nextExisting never returns, it does not either.
def rangeStep (calls : Calls) (stream : String) (max : Int) (endSeq turns : Nat) (w : Walk) :
    Walk ⊕ MsgRange × Nat :=
  if max ≤ w.out.length then
    if w.cur < endSeq then
      match nextExisting calls stream endSeq w.cur w.clock turns with
      | none => .inl w
      | some (.ok _, clock) => .inr (⟨w.out, true, none⟩, clock)
      | some (.error e, clock) =>
        if e.is .errMsgNotFound then .inr (⟨w.out, false, none⟩, clock)
        else .inr (.failed e, clock)
    else .inr (⟨w.out, false, none⟩, w.clock)
  else if endSeq ≤ w.cur then .inr (⟨w.out, false, none⟩, w.clock)
  else
    match nextExisting calls stream endSeq w.cur w.clock turns with
    | none => .inl w
    | some (.ok next, clock) => .inl ⟨w.out ++ [storedMessageFromRaw next], next.sequence, clock⟩
    | some (.error e, clock) =>
      if e.is .errMsgNotFound then .inr (⟨w.out, false, none⟩, clock)
      else .inr (.failed (.wrap (rangePlace stream "after" w.cur) e ""), clock)

-- The first message and the loop.
def rangeWalk (calls : Calls) (stream : String) (max : Int) (startSeq endSeq clock turns : Nat) :
    Option (MsgRange × Nat) :=
  match rangeStart calls stream startSeq endSeq clock turns with
  | none => none
  | some (.inr result) => some result
  | some (.inl w) => (iterate (rangeStep calls stream max endSeq turns) turns w).getRight?

-- The result within the given number of turns of each loop.
def getMsgRange (calls : Calls) (stream : String) (startSeq endSeq : Nat)
    (opts : List MsgRangeOpt) (clock turns : Nat) : Option (MsgRange × Nat) :=
  match validateStreamName stream with
  | some e => some (.failed e, clock)
  | none =>
    if startSeq = 0 ∨ endSeq = 0 then
      some (.failed (.wrap "" (.sentinel .errInvalidReplayBound)
        ": startSeq and endSeq must be >= 1"), clock)
    else if endSeq < startSeq then
      some (.failed (.wrap "" (.sentinel .errInvalidReplayBound)
        (": endSeq " ++ toString endSeq ++ " < startSeq " ++ toString startSeq)), clock)
    else
      match streamInfo (calls clock).server stream with
      | .error e =>
        let place := "replay get msg range stream=" ++ quoted stream ++ ": "
        some (.failed (.wrap place e ""), clock + 1)
      | .ok info =>
        let endSeq := if info.lastSeq < endSeq then info.lastSeq else endSeq
        if info.lastSeq < startSeq then some (⟨[], false, none⟩, clock + 1)
        else
          rangeWalk calls stream (applyMsgRangeOpts opts).max startSeq endSeq (clock + 1) turns

-- While nobody writes to the stream every call is answered from the same source.
def getMsgRangeByTime (src : Source) (stream : String) (start stop : Int)
    (opts : List MsgRangeOpt) (turns : Nat) : Option MsgRange :=
  if stop < start then
    some (.failed (.wrap "" (.sentinel .errInvalidReplayBound) ": end time before start time"))
  else
    match findFirstSeqAtOrAfter src.server stream start turns with
    | none => none
    | some (.error e) => some (.failed e)
    | some (.ok startSeq) =>
      match findLastSeqAtOrBefore src.server stream stop turns with
      | none => none
      | some (.error e) => some (.failed e)
      | some (.ok endSeq) =>
        if endSeq < startSeq then some ⟨[], false, none⟩
        else (getMsgRange (fun _ => src) stream startSeq endSeq opts 0 turns).map Prod.fst

-- What is stored under a sequence.
structure Content where
  time : Int
  subject : String
  header : Option Header
  data : Bytes

-- A stream at rest, with its messages. Any of them may be deleted.
structure Archive where
  first : Nat
  last : Nat
  content : Nat → Option Content
  last_lt : last < 2 ^ 64 - 1

def Archive.raw? (a : Archive) (seq : Nat) : Option RawMsg :=
  (a.content seq).map fun c => ⟨⟨seq, c.time⟩, c.subject, c.header, c.data⟩

def Archive.source (a : Archive) : Source where
  streamInfo _ := .ok ⟨a.first, a.last⟩
  getMsg _ seq :=
    match a.raw? seq with
    | some msg => .ok msg
    | none => .error (.sentinel .errMsgNotFound)

-- The calls that fail, with an error other than that of a missing message.
structure Faults where
  err : Nat → Option GoError
  other : ∀ n e, err n = some e → e.is .errMsgNotFound = false

def Archive.calls (a : Archive) (faults : Faults) : Calls := fun n =>
  match faults.err n with
  | some e => ⟨fun _ => .error e, fun _ _ => .error e⟩
  | none => a.source

-- The retained messages from one sequence to another.
def Archive.segment (a : Archive) (low high : Nat) : List RawMsg :=
  (List.range' low (high + 1 - low)).filterMap a.raw?

def Archive.between (a : Archive) (start stop : Int) : List RawMsg :=
  (a.segment a.first a.last).filter fun msg => start ≤ msg.time ∧ msg.time ≤ stop

-- A stream at rest with the texts of its messages.
def Stream.archive (s : Stream) (text : Nat → String × Option Header × Bytes) : Archive where
  first := s.first
  last := s.last
  content seq := (s.time seq).map fun t => ⟨t, (text seq).1, (text seq).2.1, (text seq).2.2⟩
  last_lt := s.last_lt

end NatsClient.Replay
