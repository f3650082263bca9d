import NatsClient.Publish

namespace NatsClient.Exchange

open Publish

section Codec

-- The decoders outside the repository, for destinations of one type. isProto says that the
-- destination is a proto.Message.
structure Decoder (β : Type) where
  json : Bytes → Except GoError β
  proto : Bytes → Except GoError β
  msgPack : Bytes → Except GoError β
  isProto : Bool

variable {β : Type}

def decode (dec : Decoder β) (data : Bytes) : MessageType → Except GoError β
  | .json => dec.json data
  | .proto =>
    if dec.isProto then dec.proto data
    else .error (.wrap "decode proto: " (.sentinel .errInvalidTypeAssertion) "")
  | .messagePack => dec.msgPack data
  | .unset | .raw | .other => .error (.wrap "decode: " (.sentinel .errInvalidMessageType) "")

def decodeProto (dec : Decoder β) (data : Bytes) : Except GoError β := dec.proto data

def decodeMsg (dec : Decoder β) (msg : Msg) (typ : MessageType) : Except GoError β :=
  decode dec msg.data (if typ = .unset then messageTypeFromHeader msg.header else typ)

def decodeTyped (dec : Decoder β) (msg : Msg) (typ : MessageType) : Except GoError β :=
  decodeMsg dec msg (if typ = .unset then messageTypeFromHeader msg.header else typ)

-- The function gets the subject and the payload, so the message stays as it is.
def handlerTyped (dec : Decoder β) (mt : MessageType) (fn : String → β → Outcome) : Handler :=
  fun d =>
    match decodeTyped dec d.msg mt with
    | .error e => (d, .returned (some e))
    | .ok payload => (d, fn d.msg.subject payload)

end Codec

section Request

variable {α β : Type}

structure Requester (α : Type) where
  codec : Codec α
  comp : Compressors
  -- the connection is not nil
  connected : Bool
  skipSubjectValidation : Bool
  payloadCompression : PayloadCompressionMode
  payloadDecompression : Bool
  -- what injectTraceContext makes of a header map, the same map where it does not trace
  trace : Option Header → Option Header

-- The content type that a request goes out with. That of a caller gives way for Proto and for
-- MessagePack.
def requestTyped (msg : Message α) : Message α :=
  if needsContentTypeHeader msg ∨ msg.messageType = .proto ∨ msg.messageType = .messagePack then
    applyContentTypeHeader msg
  else msg

-- RequestMessage from Encode on: the message that goes to the connection.
def Requester.encoded (r : Requester α) (subject : String) (msg : Message α) : Except GoError Msg :=
  let msg := { msg with header := r.trace msg.header }
  match encode r.codec msg with
  | .error e => .error (.wrap ("request encode subject=" ++ quoted subject ++ ": ") e "")
  | .ok data =>
    let msg := requestTyped msg
    let (data, header) := applyPayloadCompression r.comp r.payloadCompression data msg.header
    .ok ⟨subject, "", header.getD ∅, data, false⟩

def Requester.prepare (r : Requester α) (subject : String) (msg : Message α) : Except GoError Msg :=
  if !r.connected then .error (.sentinel .errNatsConnectionNotEstablished)
  else match validateOutboundSubject subject "request" r.skipSubjectValidation with
    | some e => .error e
    | none =>
      let msg := if msg.messageType = .unset then { msg with messageType := .json } else msg
      if !validMessageType msg.messageType then
        .error (.wrap ("request subject=" ++ quoted subject ++ ": ")
          (.sentinel .errInvalidMessageType) "")
      else r.encoded subject msg

-- The connection answers a message with a reply or an error.
def requestMessage (r : Requester α) (conn : Msg → Except GoError Msg) (subject : String)
    (msg : Message α) : Except GoError Msg :=
  match r.prepare subject msg with
  | .error e => .error e
  | .ok nmsg =>
    match conn nmsg with
    | .error e => .error (.wrap ("request subject=" ++ quoted subject ++ ": ") e "")
    | .ok reply =>
      if r.payloadDecompression then
        match maybeDecompressMsg r.comp reply with
        | .error e =>
          .error (.wrap ("request decompress reply subject=" ++ quoted subject ++ ": ") e "")
        | .ok reply => .ok reply
      else .ok reply

def requestJSON (r : Requester α) (conn : Msg → Except GoError Msg) (subject : String)
    (req : Data α) : Except GoError Msg :=
  requestMessage r conn subject ⟨req, none, .json⟩

def requestMsgPack (r : Requester α) (conn : Msg → Except GoError Msg) (subject : String)
    (req : Data α) : Except GoError Msg :=
  requestMessage r conn subject ⟨req, none, .messagePack⟩

def requestProto (r : Requester α) (conn : Msg → Except GoError Msg) (subject : String)
    (req : Data α) : Except GoError Msg :=
  requestMessage r conn subject ⟨req, none, .proto⟩

def requestJSONInto (r : Requester α) (conn : Msg → Except GoError Msg) (subject : String)
    (req : Data α) (dec : Decoder β) : Except GoError β :=
  match requestJSON r conn subject req with
  | .error e => .error e
  | .ok reply => decode dec reply.data .json

def requestMsgPackInto (r : Requester α) (conn : Msg → Except GoError Msg) (subject : String)
    (req : Data α) (dec : Decoder β) : Except GoError β :=
  match requestMsgPack r conn subject req with
  | .error e => .error e
  | .ok reply => decode dec reply.data .messagePack

def requestProtoInto (r : Requester α) (conn : Msg → Except GoError Msg) (subject : String)
    (req : Data α) (dec : Decoder β) : Except GoError β :=
  match requestProto r conn subject req with
  | .error e => .error e
  | .ok reply => decodeProto dec reply.data

end Request

section Reply

variable {α β : Type}

structure Responder where
  comp : Compressors
  payloadCompression : PayloadCompressionMode
  payloadDecompression : Bool

-- Msg.RespondMsg of nats.go, and Msg.Respond without a header: the reply that goes out.
def respondMsg (msg : Msg) (header : Header) (data : Bytes) : Except GoError Msg :=
  if !msg.bound then .error (.sentinel .errMsgNotBound)
  else if msg.reply = "" then .error (.sentinel .errMsgNoReply)
  else .ok ⟨msg.reply, "", header, data, false⟩

def respondEncoded (codec : Codec β) (comp : Compressors) (msg : Option Msg) (replyMsg : Message β)
    (mode : PayloadCompressionMode) : Except GoError Msg :=
  match msg with
  | none => .error (.foreign "respond: nil message" [])
  | some msg =>
    match encode codec replyMsg with
    | .error e => .error (.wrap "respond encode: " e "")
    | .ok data =>
      let replyMsg := applyContentTypeHeader replyMsg
      let (data, header) := applyPayloadCompression comp mode data replyMsg.header
      respondMsg msg (header.getD ∅) data

-- A handler of requests: the replies that it sends, and how it ends.
abbrev ReplyHandler := Msg → List Msg × Outcome

def Responder.wrap (r : Responder) (handler : ReplyHandler) (msg : Msg) :
    List Msg × Option GoError :=
  match if r.payloadDecompression then maybeDecompressMsg r.comp msg else .ok msg with
  | .error e => ([], some e)
  | .ok msg => ((handler msg).1, (handler msg).2.err)

-- The request as it arrives at a subscription.
def addressed (inbox : String) (nmsg : Msg) : Msg := { nmsg with reply := inbox, bound := true }

-- Conn.RequestMsgWithContext with this responder on the subject: the first reply that comes to the
-- inbox, or the error with which the wait ends.
def connTo (r : Responder) (handler : ReplyHandler) (inbox : String) (noReply : GoError)
    (nmsg : Msg) : Except GoError Msg :=
  match (r.wrap handler (addressed inbox nmsg)).1 with
  | [] => .error noReply
  | reply :: _ => .ok reply

-- The handler that decodes what its messages say they are, and answers in one encoding, through the
-- responder or through the functions of the package.
def answering (r : Responder) (codec : Codec β) (dec : Decoder α) (typ : MessageType) (own : Bool)
    (f : α → β) : ReplyHandler := fun msg =>
  match decodeMsg dec msg .unset with
  | .error e => ([], .returned (some e))
  | .ok req =>
    let mode := if own then r.payloadCompression else .off
    match respondEncoded codec r.comp (some msg) ⟨.value (f req), none, typ⟩ mode with
    | .error e => ([], .returned (some e))
    | .ok reply => ([reply], .returned none)

end Reply

end NatsClient.Exchange
