import NatsClient.Msg

namespace NatsClient

structure RuntimeConsumerConfig where
  workerPoolSize : Int
  workerBufferSize : Int
  workerPoolEnabled : Bool
  payloadDecompression : Bool
  deriving DecidableEq, Repr

-- maybeDecompressMsg, which updates the message in place.
def maybeDecompressMsg (comp : Compressors) (msg : Msg) : Except GoError Msg :=
  let enc := Header.get msg.header headerContentEncoding
  if enc = "" then .ok msg
  else match decompressPayload comp msg.data enc with
    | .error e => .error e
    | .ok out => .ok { msg with data := out, header := msg.header.erase headerContentEncoding }

theorem maybeDecompressMsg_address {comp : Compressors} {msg opened : Msg}
    (h : maybeDecompressMsg comp msg = .ok opened) :
    opened.bound = msg.bound ∧ opened.reply = msg.reply := by
  unfold maybeDecompressMsg at h
  simp only at h
  split_ifs at h
  · cases h; exact ⟨rfl, rfl⟩
  · split at h <;> cases h
    exact ⟨rfl, rfl⟩

-- The error that invokeMsgHandler makes of what it recovers.
def PanicValue.recovered : PanicValue → GoError
  | .error err => .wrap "handler panic: " err ""
  | .other message => .foreign ("handler panic: " ++ message) []

-- The error a call of a handler comes back with under the recover.
def Outcome.err : Outcome → Option GoError
  | .returned err => err
  | .panicked value => some value.recovered

def invokeMsgHandler (handler : Handler) (d : Delivery) : Delivery × Option GoError :=
  ((handler d).1, (handler d).2.err)

-- The Nak of recordProcessError. Its error is logged and dropped.
def recordProcessError (wire : Wire) (d : Delivery) : Delivery := (d.settle wire (.nak 0)).1

-- The part of processMessage after the handler has run.
def settleOutcome (wire : Wire) (subject : String) (d : Delivery) (err : Option GoError) :
    Delivery × Option GoError :=
  if errorsIs err .errDLQRouted then (d, none)
  else match err with
    | some e =>
      (recordProcessError wire d,
        some (.wrap ("message processing failed subject=" ++ quoted subject ++ ": ") e ""))
    | none =>
      match d.settle wire .ack with
      | (next, none) => (next, none)
      | (next, some e) =>
        if e.is .errMsgAlreadyAckd then (next, none)
        else (next, some (.wrap ("ack message subject=" ++ quoted subject ++ ": ") e ""))

theorem settleOutcome_some_fst (wire : Wire) (subject : String) (d : Delivery) (e : GoError) :
    (settleOutcome wire subject d (some e)).1 =
      if e.is .errDLQRouted then d else recordProcessError wire d := by
  cases h : e.is .errDLQRouted <;> simp [settleOutcome, h]

theorem settleOutcome_none_fst (wire : Wire) (subject : String) (d : Delivery) :
    (settleOutcome wire subject d none).1 = (d.settle wire .ack).1 := by
  simp only [settleOutcome, errorsIs_none, Delivery.settle, Bool.false_eq_true, if_false]
  cases d.ackError wire with
  | none => rfl
  | some e =>
    simp only
    split_ifs <;> rfl

-- The error wraps that of the handler or that of the Ack.
theorem settleOutcome_snd {wire : Wire} {subject : String} {d : Delivery} {err : Option GoError}
    {e : GoError} (h : (settleOutcome wire subject d err).2 = some e) :
    ∃ before cause, e = .wrap before cause "" ∧
      (err = some cause ∨ d.ackError wire = some cause) := by
  cases err with
  | some cause =>
    cases hr : cause.is .errDLQRouted with
    | true => simp [settleOutcome, hr] at h
    | false =>
      simp only [settleOutcome, errorsIs_some, hr, Bool.false_eq_true, if_false] at h
      cases h
      exact ⟨_, cause, rfl, .inl rfl⟩
  | none =>
    simp only [settleOutcome, errorsIs_none, Delivery.settle, Bool.false_eq_true, if_false] at h
    cases ha : d.ackError wire with
    | none => simp [ha] at h
    | some cause =>
      simp only [ha] at h
      split_ifs at h
      cases h
      exact ⟨_, cause, rfl, .inr rfl⟩

def processMessage (comp : Compressors) (cfg : RuntimeConsumerConfig) (wire : Wire)
    (handler : Handler) (d : Delivery) : Delivery × Option GoError :=
  let subject := d.msg.subject
  match if cfg.payloadDecompression then maybeDecompressMsg comp d.msg else .ok d.msg with
  | .error e =>
    (recordProcessError wire d,
      some (.wrap ("message decompression failed subject=" ++ quoted subject ++ ": ") e ""))
  | .ok msg =>
    let result := invokeMsgHandler handler { d with msg := msg }
    settleOutcome wire subject result.1 result.2

end NatsClient
