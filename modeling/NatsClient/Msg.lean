import NatsClient.Compress

namespace NatsClient

-- The parts of a *nats.Msg that the library reads. `bound` says that Sub is
-- non-nil.
structure Msg where
  subject : String
  reply : String
  header : Header
  data : Bytes
  bound : Bool

-- The calls that settle a message. Nak is NakWithDelay with no delay.
inductive AckKind
  | ack
  | nak (delay : Int)
  | term
  deriving DecidableEq, Repr

inductive PanicValue
  | error (err : GoError)
  | other (message : String)
  deriving DecidableEq, Repr

-- How a call of a handler ends.
inductive Outcome
  | returned (err : Option GoError)
  | panicked (value : PanicValue)
  deriving DecidableEq, Repr

-- The message that dlq hands to its publisher.
structure RawPublish where
  header : Header
  data : Bytes

structure DlqRecord where
  subject : String
  stream : String
  consumer : String
  reason : String
  -- The error text of RecordDLQAutopsy; RecordDLQ has none.
  autopsyErr : Option String
  seq : Nat
  deriving DecidableEq, Repr

-- What happens to one delivered message, in order.
inductive Event
  | settle (kind : AckKind) (err : Option GoError)
  | dlqPublish (subject : String) (raw : RawPublish) (err : Option GoError)
  | dlqRecord (record : DlqRecord)
  | handled (outcome : Outcome)

structure Delivery where
  msg : Msg
  log : List Event

-- The results of the network for one delivery: of its settlement calls and of
-- its DLQ publishes, each by its number.
structure Wire where
  ackResult : Nat → Option GoError
  publishResult : Nat → Option GoError

def Event.isSettle : Event → Bool
  | .settle _ _ => true
  | _ => false

def Event.isPublish : Event → Bool
  | .dlqPublish _ _ _ => true
  | _ => false

-- A settlement call that sent its reply.
def Event.sent? : Event → Option AckKind
  | .settle kind none => some kind
  | _ => none

namespace Delivery

def push (d : Delivery) (e : Event) : Delivery := { d with log := d.log ++ [e] }

@[simp] theorem push_log (d : Delivery) (e : Event) : (d.push e).log = d.log ++ [e] := rfl

@[simp] theorem push_msg (d : Delivery) (e : Event) : (d.push e).msg = d.msg := rfl

-- The settlement the server has seen, if any.
def settlement (d : Delivery) : Option AckKind := (d.log.filterMap Event.sent?).head?

@[simp] theorem push_settlement (d : Delivery) (e : Event) :
    (d.push e).settlement = d.settlement.or e.sent? := by
  cases he : e.sent? <;> simp [settlement, he, List.filterMap_append]

theorem settlement_eq_none_iff {d : Delivery} :
    d.settlement = none ↔ ∀ e ∈ d.log, e.sent? = none := by
  rw [settlement, List.head?_eq_none_iff, List.filterMap_eq_nil_iff]

-- nats.go remembers on the message that one reply went out.
def ackd (d : Delivery) : Bool := d.settlement.isSome

-- The error of Msg.Ack, Msg.Nak and Msg.Term.
def ackError (wire : Wire) (d : Delivery) : Option GoError :=
  if !d.msg.bound then some (.sentinel .errMsgNotBound)
  else if d.msg.reply = "" then some (.sentinel .errMsgNoReply)
  else if d.ackd then some (.sentinel .errMsgAlreadyAckd)
  else wire.ackResult (d.log.countP Event.isSettle)

-- Such an error is one of the three checks or comes from the network.
theorem ackError_eq_some {wire : Wire} {d : Delivery} {e : GoError}
    (h : d.ackError wire = some e) :
    e = .sentinel .errMsgNotBound ∨ e = .sentinel .errMsgNoReply ∨
      e = .sentinel .errMsgAlreadyAckd ∨ ∃ n, wire.ackResult n = some e := by
  unfold ackError at h
  split_ifs at h
  · cases h; exact .inl rfl
  · cases h; exact .inr (.inl rfl)
  · cases h; exact .inr (.inr (.inl rfl))
  · exact .inr (.inr (.inr ⟨_, h⟩))

theorem ackError_of_settlement {d : Delivery} (wire : Wire) (h : d.settlement ≠ none) :
    ∃ e, d.ackError wire = some e := by
  have hackd : d.ackd = true := Option.isSome_iff_ne_none.mpr h
  unfold ackError
  split_ifs <;> exact ⟨_, rfl⟩

-- Msg.Ack, Msg.Nak and Msg.Term. The reply is sent where there is no error.
def settle (wire : Wire) (d : Delivery) (kind : AckKind) : Delivery × Option GoError :=
  (d.push (.settle kind (d.ackError wire)), d.ackError wire)

@[simp] theorem settle_fst_log (wire : Wire) (d : Delivery) (kind : AckKind) :
    (d.settle wire kind).1.log = d.log ++ [.settle kind (d.ackError wire)] := rfl

@[simp] theorem settle_fst_msg (wire : Wire) (d : Delivery) (kind : AckKind) :
    (d.settle wire kind).1.msg = d.msg := rfl

@[simp] theorem settle_snd (wire : Wire) (d : Delivery) (kind : AckKind) :
    (d.settle wire kind).2 = d.ackError wire := rfl

end Delivery

abbrev Handler := Delivery → Delivery × Outcome

end NatsClient
