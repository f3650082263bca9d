import NatsClient.Validate
import NatsClient.Consumer

namespace NatsClient.Publish

inductive MessageType
  -- The zero value.
  | unset
  | json
  | proto
  | messagePack
  | raw
  | other
  deriving DecidableEq, Repr

-- The Data of a message: a byte slice or any other value.
inductive Data (α : Type)
  | bytes (b : Bytes)
  | value (v : α)

-- The encoders outside the repository. The proto encoder has no answer for a value
-- that is not a proto.Message.
structure Codec (α : Type) where
  json : Data α → Except GoError Bytes
  proto : Data α → Option (Except GoError Bytes)
  msgPack : Data α → Except GoError Bytes

structure Message (α : Type) where
  data : Data α
  -- A nil map is none.
  header : Option Header
  messageType : MessageType

variable {α : Type}

def Message.withMsgID (m : Message α) (id : String) : Message α :=
  { m with header := some ((m.header.getD ∅).insert headerMsgID [id]) }

-- The sonic encoder appends a newline, which is cut off again.
def encodeJSONPooled (codec : Codec α) (data : Data α) : Except GoError Bytes :=
  match codec.json data with
  | .error e => .error e
  | .ok b => if b.getLast? = some 10 then .ok b.dropLast else .ok b

def encode (codec : Codec α) (msg : Message α) : Except GoError Bytes :=
  match msg.messageType with
  | .json => encodeJSONPooled codec msg.data
  | .proto =>
    match codec.proto msg.data with
    | some result => result
    | none => .error (.wrap "encode proto: " (.sentinel .errInvalidTypeAssertion) "")
  | .messagePack => codec.msgPack msg.data
  | .raw =>
    match msg.data with
    | .bytes b => .ok b
    | .value _ => .error (.wrap "encode raw: " (.sentinel .errInvalidTypeAssertion) "")
  | _ => .error (.wrap "encode: " (.sentinel .errInvalidMessageType) "")

def messageTypeFromHeader (h : Header) : MessageType :=
  let value := Header.get h headerContentType
  if value = contentTypeProto then .proto
  else if value = contentTypeMsgPack then .messagePack
  else .json

def validMessageType : MessageType → Bool
  | .json | .proto | .messagePack | .raw => true
  | _ => false

def applyContentTypeHeader (msg : Message α) : Message α :=
  let set (value : String) : Message α :=
    { msg with header := some ((msg.header.getD ∅).insert headerContentType [value]) }
  match msg.messageType with
  | .proto => set contentTypeProto
  | .messagePack => set contentTypeMsgPack
  | .raw => { msg with header := some (msg.header.getD ∅) }
  | _ => set contentTypeJSON

def needsContentTypeHeader (msg : Message α) : Bool :=
  let h := msg.header.getD ∅
  let absent := decide (headerContentType ∉ h)
  match msg.messageType with
  | .raw => false
  | .json | .unset => if h = ∅ then false else absent
  | _ => if h = ∅ then true else absent

-- The entries of a map that may be nil.
abbrev entries (h : Option Header) : Header := h.getD ∅

-- The headers that the server and the consumers of the library read.
def readHeaders : List String := [headerContentType, headerContentEncoding, headerMsgID]

-- What injectTraceContext makes of a header map: the same map where nothing is traced, and
-- otherwise it sets the trace id and the fields of the propagator, which are none of those read.
structure Tracing where
  inject : Option Header → Option Header
  apart : ∀ h, ∀ key ∈ readHeaders, (entries (inject h)).lookup key = (entries h).lookup key

def Tracing.off : Tracing := ⟨id, fun _ _ _ => rfl⟩

structure Publisher (α : Type) where
  codec : Codec α
  comp : Compressors
  payloadCompression : PayloadCompressionMode
  skipSubjectValidation : Bool
  reconnectBufDisabled : Bool
  connected : Bool
  tracing : Tracing

def guardConnected (p : Publisher α) : Option GoError :=
  if !p.reconnectBufDisabled then none
  else if !p.connected then some (.sentinel .errNatsConnectionNotEstablished)
  else none

def validateOutboundSubject (subject op : String) (skip : Bool) : Option GoError :=
  if skip then none
  else match validatePublishSubject subject with
    | none => none
    | some e =>
      let place := op ++ " subject=" ++ quoted subject ++ ": "
      if e.is .errInvalidSubject ∧ subject = "" then
        some (.wrap place (.sentinel .errEmptySubjectNotAllowed) "")
      else some (.wrap place e "")

-- The checks of preparePublish.
def checkPublish (p : Publisher α) (subject : String) (msg : Message α) : Option GoError :=
  match guardConnected p with
  | some e => some e
  | none =>
    match validateOutboundSubject subject "publish" p.skipSubjectValidation with
    | some e => some e
    | none =>
      if !validMessageType msg.messageType then
        some (.wrap ("publish subject=" ++ quoted subject ++ ": ")
          (.sentinel .errInvalidMessageType) "")
      else none

def traced (p : Publisher α) (msg : Message α) : Message α :=
  { msg with header := p.tracing.inject msg.header }

def contentTyped (msg : Message α) : Message α :=
  if needsContentTypeHeader msg then applyContentTypeHeader msg else msg

-- The message with the header it has at the end, and the payload.
def preparePublish (p : Publisher α) (subject : String) (msg : Message α) :
    Message α × Except GoError Bytes :=
  match checkPublish p subject msg with
  | some e => (msg, .error e)
  | none =>
    let msg := traced p msg
    match encode p.codec msg with
    | .error e => (msg, .error (.wrap ("publish encode subject=" ++ quoted subject ++ ": ") e ""))
    | .ok data =>
      let msg := contentTyped msg
      let (data, header) := applyPayloadCompression p.comp p.payloadCompression data msg.header
      ({ msg with header := header }, .ok data)

-- The message that publishMsg hands to JetStream. Without entries it goes out
-- without a header.
def publishMsg (subject : String) (msg : Message α) (data : Bytes) : Msg :=
  ⟨subject, "", msg.header.getD ∅, data, false⟩

-- A call whose Message carries the header map of the caller, if it carries one.
inductive Call (α : Type)
  | publishMessage (subject : String) (data : Data α) (messageType : MessageType)
  | publishWithMsgID (subject id : String) (data : Data α) (messageType : MessageType)
  | publishBytesWithMsgID (subject id : String) (data : Bytes)

namespace Call

def subject : Call α → String
  | publishMessage subject _ _ => subject
  | publishWithMsgID subject _ _ _ => subject
  | publishBytesWithMsgID subject _ _ => subject

-- The message that reaches preparePublish, for the given content of the map.
def message (cell : Option Header) : Call α → Message α
  | publishMessage _ data messageType => ⟨data, cell, messageType⟩
  | publishWithMsgID _ id data messageType => Message.withMsgID ⟨data, cell, messageType⟩ id
  | publishBytesWithMsgID _ id data => Message.withMsgID ⟨.bytes data, none, .raw⟩ id

def shares : Call α → Bool
  | publishBytesWithMsgID _ _ _ => false
  | _ => true

def setsID : Call α → Bool
  | publishMessage _ _ _ => false
  | _ => true

end Call

-- One call: what goes out, and the map of the caller afterwards. Every step of the
-- call writes to that map, unless it is nil and a new one is made.
def publish (p : Publisher α) (cell : Option Header) (c : Call α) :
    Except GoError Msg × Option Header :=
  let (msg, data) := preparePublish p c.subject (c.message cell)
  (data.map (publishMsg c.subject msg), if c.shares then cell.bind fun _ => msg.header else cell)

def publishAll (p : Publisher α) : Option Header → List (Call α) → List (Except GoError Msg)
  | _, [] => []
  | cell, c :: rest => (publish p cell c).1 :: publishAll p (publish p cell c).2 rest

-- What a consumer makes of a wire message.
structure Received where
  payload : Except GoError Bytes
  messageType : MessageType
  msgID : String

def received (comp : Compressors) (msg : Msg) : Received where
  payload := (maybeDecompressMsg comp msg).map Msg.data
  messageType := messageTypeFromHeader msg.header
  msgID := Header.get msg.header headerMsgID

end NatsClient.Publish
