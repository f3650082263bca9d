import Mathlib.Data.List.Basic

namespace NatsClient

-- The error variables that the library compares with errors.Is: those of the
-- context package, those of nats.go, and its own.
inductive Sentinel
  | canceled
  | deadlineExceeded
  | errMsgNotBound
  | errMsgNoReply
  | errMsgAlreadyAckd
  | errTimeout
  | errNoHeartbeat
  | errMsgNotFound
  | errStreamNotFound
  | errConsumerNotFound
  | errConsumerNameAlreadyInUse
  | errKeyNotFound
  | errNoKeysFound
  | errKeyExists
  | errPoolStopped
  | errPoolFull
  | errBackpressureHandled
  | errSendToDLQ
  | errDLQRouted
  | errClaimInFlight
  | errInvalidMessageType
  | errInvalidTypeAssertion
  | errUnsupportedContentEncoding
  | errPayloadTooLarge
  | errInvalidKVKey
  | errInvalidStreamName
  | errInvalidDurableName
  | errInvalidQueueName
  | errInvalidBucketName
  | errInvalidSubject
  | errInvalidReplayBound
  | errConsumerRecreateRequired
  | errNatsConnectionNotEstablished
  | errEmptySubjectNotAllowed
  | errSupervisorGiveUp
  | errConsumerStall
  | errAsyncPublishPendingLimit
  deriving DecidableEq, Repr

def Sentinel.text : Sentinel → String
  | canceled => "context canceled"
  | deadlineExceeded => "context deadline exceeded"
  | errMsgNotBound => "nats: message is not bound to subscription/connection"
  | errMsgNoReply => "nats: message does not have a reply"
  | errMsgAlreadyAckd => "nats: message was already acknowledged"
  | errTimeout => "nats: timeout"
  | errNoHeartbeat => "nats: no heartbeat received"
  | errMsgNotFound => "nats: message not found"
  | errStreamNotFound => "nats: stream not found"
  | errConsumerNotFound => "nats: consumer not found"
  | errConsumerNameAlreadyInUse => "nats: consumer name already in use"
  | errKeyNotFound => "nats: key not found"
  | errNoKeysFound => "nats: no keys found"
  | errKeyExists => "nats: key exists"
  | errPoolStopped => "worker pool stopped"
  | errPoolFull => "worker pool queue full"
  | errBackpressureHandled => "message handled by backpressure policy"
  | errSendToDLQ => "send message to dlq"
  | errDLQRouted => "message routed to dlq"
  | errClaimInFlight => "idempotency: claim held by another worker"
  | errInvalidMessageType => "invalid message type"
  | errInvalidTypeAssertion => "invalid type assertion"
  | errUnsupportedContentEncoding => "unsupported content encoding"
  | errPayloadTooLarge => "decompressed payload exceeds size limit"
  | errInvalidKVKey => "invalid kv key"
  | errInvalidStreamName => "invalid stream name"
  | errInvalidDurableName => "invalid durable name"
  | errInvalidQueueName => "invalid queue name"
  | errInvalidBucketName => "invalid kv bucket name"
  | errInvalidSubject => "invalid subject"
  | errInvalidReplayBound => "invalid replay bound"
  | errConsumerRecreateRequired =>
    "consumer recreate required; delete and recreate explicitly to change immutable settings"
  | errNatsConnectionNotEstablished => "NATS connection is not established"
  | errEmptySubjectNotAllowed => "empty subject not allowed"
  | errSupervisorGiveUp => "subscription supervisor gave up after max retries"
  | errConsumerStall =>
    "consumer soft-liveness stall: pending rising without process activity"
  | errAsyncPublishPendingLimit => "async publish pending limit exceeded"

-- A non-nil error value. A foreign error is one that some other code built; the
-- sentinels its own Is method answers to are part of it. `wrap` is fmt.Errorf
-- with one %w verb, `join` is fmt.Errorf with two, or errors.Join.
inductive GoError
  | sentinel (name : Sentinel)
  | foreign (message : String) (answers : List Sentinel)
  | wrap (before : String) (inner : GoError) (after : String)
  | join (before : String) (first : GoError) (between : String) (second : GoError) (after : String)
  deriving DecidableEq, Repr

namespace GoError

-- The Error method.
def message : GoError → String
  | sentinel name => name.text
  | foreign message _ => message
  | wrap before inner after => before ++ inner.message ++ after
  | join before first between second after =>
    before ++ first.message ++ between ++ second.message ++ after

-- errors.is against a sentinel.
def is : GoError → Sentinel → Bool
  | sentinel name, target => decide (name = target)
  | foreign _ answers, target => decide (target ∈ answers)
  | wrap _ inner _, target => inner.is target
  | join _ first _ second _, target => first.is target || second.is target

@[simp] theorem sentinel_is (name target : Sentinel) :
    (sentinel name).is target = decide (name = target) := rfl

@[simp] theorem wrap_is (before after : String) (inner : GoError) (target : Sentinel) :
    (wrap before inner after).is target = inner.is target := rfl

@[simp] theorem join_is (before between after : String) (first second : GoError)
    (target : Sentinel) :
    (join before first between second after).is target =
      (first.is target || second.is target) := rfl

-- Unwrapping the error leads to the cause.
inductive Wraps (cause : GoError) : GoError → Prop
  | self : Wraps cause cause
  | wrap {before inner after} (h : Wraps cause inner) : Wraps cause (.wrap before inner after)
  | first {before first between second after} (h : Wraps cause first) :
      Wraps cause (.join before first between second after)
  | second {before first between second after} (h : Wraps cause second) :
      Wraps cause (.join before first between second after)

-- errors.Join of two non-nil errors.
def joined (first second : GoError) : GoError := join "" first "\n" second ""

end GoError

-- errors.is on an error that may be nil.
def errorsIs (err : Option GoError) (target : Sentinel) : Bool :=
  err.any fun e => e.is target

@[simp] theorem errorsIs_none (target : Sentinel) : errorsIs none target = false := rfl

@[simp] theorem errorsIs_some (e : GoError) (target : Sentinel) :
    errorsIs (some e) target = e.is target := rfl

end NatsClient
