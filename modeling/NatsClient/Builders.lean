import NatsClient.Lib.Machine
import NatsClient.Lib.Sharing
import NatsClient.Publish

namespace NatsClient.Builders

open Lib.Sharing
open Lib.Machine (exec)

-- The sequences are pointers to an argument of the call, and nothing writes through them.
structure PublishExpectation where
  lastSeq : Option Nat
  lastSeqPerSubject : Option Nat
  stream : String
  lastMsgID : String
  deriving DecidableEq, Repr

def PublishExpectation.zero : PublishExpectation := ⟨none, none, "", ""⟩

-- The maps and the records that messages refer to, by address.
structure Memory where
  headers : List Header
  expectations : List PublishExpectation

structure Message (α : Type) where
  data : Publish.Data α
  -- A nil map or pointer is none.
  header : Option Nat
  expect : Option Nat
  messageType : Publish.MessageType

-- One field of an expectation.
inductive Setting
  | stream (stream : String)
  | lastSeq (seq : Nat)
  | lastSeqPerSubject (seq : Nat)
  | lastMsgID (id : String)
  deriving DecidableEq, Repr

def Setting.apply : Setting → PublishExpectation → PublishExpectation
  | .stream name, e => { e with stream := name }
  | .lastSeq seq, e => { e with lastSeq := some seq }
  | .lastSeqPerSubject seq, e => { e with lastSeqPerSubject := some seq }
  | .lastMsgID id, e => { e with lastMsgID := id }

def setMsgID (id : String) (h : Header) : Header := h.insert headerMsgID [id]

variable {α : Type}

namespace Message

def withMsgID (m : Message α) (id : String) (mem : Memory) : Memory × Message α :=
  let (headers, a) := write ∅ (setMsgID id) mem.headers m.header
  ({ mem with headers := headers }, { m with header := some a })

def withExpected (m : Message α) (setting : Setting) (mem : Memory) : Memory × Message α :=
  let (expectations, a) := write .zero setting.apply mem.expectations m.expect
  ({ mem with expectations := expectations }, { m with expect := some a })

def withExpectedStream (m : Message α) (stream : String) : Memory → Memory × Message α :=
  m.withExpected (.stream stream)

def withExpectedLastSeq (m : Message α) (seq : Nat) : Memory → Memory × Message α :=
  m.withExpected (.lastSeq seq)

def withExpectedLastSeqPerSubject (m : Message α) (seq : Nat) : Memory → Memory × Message α :=
  m.withExpected (.lastSeqPerSubject seq)

def withExpectedLastMsgID (m : Message α) (id : String) : Memory → Memory × Message α :=
  m.withExpected (.lastMsgID id)

end Message

inductive Call
  | withMsgID (id : String)
  | withExpectedStream (stream : String)
  | withExpectedLastSeq (seq : Nat)
  | withExpectedLastSeqPerSubject (seq : Nat)
  | withExpectedLastMsgID (id : String)
  deriving DecidableEq, Repr

def Call.run (m : Message α) : Call → Memory → Memory × Message α
  | .withMsgID id => m.withMsgID id
  | .withExpectedStream stream => m.withExpectedStream stream
  | .withExpectedLastSeq seq => m.withExpectedLastSeq seq
  | .withExpectedLastSeqPerSubject seq => m.withExpectedLastSeqPerSubject seq
  | .withExpectedLastMsgID id => m.withExpectedLastMsgID id

-- The messages made so far, the base first.
structure Derived (α : Type) where
  mem : Memory
  messages : List (Message α)

-- A call on one of the messages, which are numbered in the order they are made.
def derive (d : Derived α) (call : Nat × Call) : Option (Derived α) :=
  d.messages[call.1]?.map fun m =>
    let (mem, child) := call.2.run m d.mem
    ⟨mem, d.messages ++ [child]⟩

-- The options of nats.go for a publish that expects something of the stream.
inductive PubOpt
  | expectStream (stream : String)
  | expectLastMsgId (id : String)
  | expectLastSequence (seq : Nat)
  | expectLastSequencePerSubject (seq : Nat)
  deriving DecidableEq, Repr

def publishOptsFromMessage : Option PublishExpectation → List PubOpt
  | none => []
  | some e =>
    (if e.stream ≠ "" then [.expectStream e.stream] else []) ++
    (if e.lastMsgID ≠ "" then [.expectLastMsgId e.lastMsgID] else []) ++
    (e.lastSeq.map PubOpt.expectLastSequence).toList ++
    (e.lastSeqPerSubject.map PubOpt.expectLastSequencePerSubject).toList

-- A message as a value, with nothing that another one could refer to.
structure Value (α : Type) where
  message : Publish.Message α
  expect : Option PublishExpectation

namespace Value

def msgID (v : Value α) : String := Header.get (v.message.header.getD ∅) headerMsgID

def withExpected (v : Value α) (setting : Setting) : Value α :=
  { v with expect := some (setting.apply (v.expect.getD .zero)) }

-- The builders as their signatures read.
def build (v : Value α) : Call → Value α
  | .withMsgID id => { v with message := v.message.withMsgID id }
  | .withExpectedStream stream => v.withExpected (.stream stream)
  | .withExpectedLastSeq seq => v.withExpected (.lastSeq seq)
  | .withExpectedLastSeqPerSubject seq => v.withExpected (.lastSeqPerSubject seq)
  | .withExpectedLastMsgID id => v.withExpected (.lastMsgID id)

end Value

-- What a message refers to.
def Message.value (m : Message α) (mem : Memory) : Value α :=
  ⟨⟨m.data, m.header.bind (mem.headers[·]?), m.messageType⟩,
    m.expect.bind (mem.expectations[·]?)⟩

-- The base alone in memory.
def start (base : Value α) : Derived α :=
  ⟨⟨base.message.header.toList, base.expect.toList⟩,
    [⟨base.message.data, base.message.header.map fun _ => 0, base.expect.map fun _ => 0,
      base.message.messageType⟩]⟩

-- The values along each message's own chain of calls.
def chain (vs : List (Value α)) (call : Nat × Call) : List (Value α) :=
  vs ++ (vs[call.1]?.map fun v => v.build call.2).toList

def chains (base : Value α) (calls : List (Nat × Call)) : List (Value α) :=
  calls.foldl chain [base]

-- Each of the messages has the id and gives the options of its own chain.
def Persistent (derived : List (Message α × Value α)) (mem : Memory) : Prop :=
  ∀ p ∈ derived, (p.1.value mem).msgID = p.2.msgID ∧
    publishOptsFromMessage (p.1.value mem).expect = publishOptsFromMessage p.2.expect

end NatsClient.Builders
