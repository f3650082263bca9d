import NatsClient.Compress.Theorems
import NatsClient.Exchange

namespace NatsClient.Exchange

open Publish

section Codec

variable {α : Type} {codec : Codec α} {dec : Decoder α}

-- The decoders take back what the encoders make of a value, also without a newline that the JSON
-- ends in.
structure Inverts (codec : Codec α) (dec : Decoder α) : Prop where
  json : ∀ v b, codec.json (.value v) = .ok b → dec.json b = .ok v
  newline : ∀ b v, dec.json (b ++ [10]) = .ok v → dec.json b = .ok v
  proto : ∀ v b, codec.proto (.value v) = some (.ok b) → dec.isProto = true ∧ dec.proto b = .ok v
  msgPack : ∀ v b, codec.msgPack (.value v) = .ok b → dec.msgPack b = .ok v

theorem Inverts.json_pooled (h : Inverts codec dec) {v : α} {b : Bytes}
    (hb : encodeJSONPooled codec (.value v) = .ok b) : dec.json b = .ok v := by
  unfold encodeJSONPooled at hb
  cases hjson : codec.json (.value v) with
  | error e => simp [hjson] at hb
  | ok full =>
    simp only [hjson] at hb
    split_ifs at hb with hlast
    · cases hb
      obtain ⟨front, rfl⟩ := List.getLast?_eq_some_iff.mp hlast
      rw [List.dropLast_concat]
      exact h.newline front v (h.json v _ hjson)
    · cases hb
      exact h.json v _ hjson

theorem Inverts.decode_encode (h : Inverts codec dec) {v : α} {header : Option Header}
    {typ : MessageType} {b : Bytes} (hb : encode codec ⟨.value v, header, typ⟩ = .ok b) :
    decode dec b typ = .ok v := by
  cases typ with
  | json => exact h.json_pooled hb
  | proto =>
    simp only [encode] at hb
    split at hb
    next result hproto =>
      subst hb
      obtain ⟨his, hdec⟩ := h.proto v b hproto
      simpa [decode, his] using hdec
    next => cases hb
  | messagePack => exact h.msgPack v b hb
  | raw | unset | other => cases hb

end Codec

section Wire

variable {comp : Compressors} {mode : PayloadCompressionMode} {decompress : Bool} {msg : Msg}
  {header : Option Header}

-- The receiver gets at the payload: it was not compressed, or it may be expanded.
def Fits (comp : Compressors) (mode : PayloadCompressionMode) (decompress : Bool) (data : Bytes) :
    Prop :=
  compressed comp mode data = none ∨
    decompress = true ∧ data.length ≤ maxPayloadDecompressBytes

def Beyond (comp : Compressors) (mode : PayloadCompressionMode) (data : Bytes) : Prop :=
  compressed comp mode data ≠ none ∧ maxPayloadDecompressBytes < data.length

-- What a receiver makes of a message on its arrival.
def opened (comp : Compressors) (decompress : Bool) (msg : Msg) : Except GoError Msg :=
  if decompress then maybeDecompressMsg comp msg else .ok msg

theorem opened_of_fits (hbr : comp.brotli.Inverts) (hgz : comp.gzip.Inverts)
    (hh : header.getD ∅ = msg.header) (hkey : headerContentEncoding ∉ msg.header)
    (hfits : Fits comp mode decompress msg.data) :
    opened comp decompress (sentMsg comp mode msg header) = .ok msg := by
  by_cases hplain : compressed comp mode msg.data = none
  · rw [sentMsg_of_plain hh hplain, opened, maybeDecompressMsg_of_absent comp msg hkey, ite_self]
  · obtain ⟨rfl, hlen⟩ := hfits.resolve_left hplain
    exact (decompress_sentMsg hbr hgz hh hkey hplain).1 hlen

theorem opened_of_beyond (hbr : comp.brotli.Inverts) (hgz : comp.gzip.Inverts)
    (hh : header.getD ∅ = msg.header) (hkey : headerContentEncoding ∉ msg.header)
    (hbeyond : Beyond comp mode msg.data) :
    ∃ e, opened comp true (sentMsg comp mode msg header) = .error e ∧
      e.is .errPayloadTooLarge = true :=
  (decompress_sentMsg hbr hgz hh hkey hbeyond.1).2 hbeyond.2

end Wire

section Types

variable {α : Type} {h : Option Header}

-- A header map without an entry that the library reads.
def Free (h : Option Header) : Prop :=
  headerContentType ∉ h.getD ∅ ∧ headerContentEncoding ∉ h.getD ∅

theorem messageTypeFromHeader_of_free (hfree : Free h) :
    messageTypeFromHeader (h.getD ∅) = .json := by
  have hget : Header.get (h.getD ∅) headerContentType = "" := by
    simp [Header.get, Finmap.lookup_eq_none.mpr hfree.1]
  rw [messageTypeFromHeader, hget]
  decide

theorem encoding_notMem_insert {h : Header} (hfree : headerContentEncoding ∉ h)
    (values : List String) :
    headerContentEncoding ∉ h.insert headerContentType values := by
  rw [Finmap.mem_insert]
  rintro (h | h)
  · exact absurd h (by decide)
  · exact hfree h

-- The three encodings of a typed request.
inductive Form
  | json
  | msgPack
  | proto

def Form.messageType : Form → MessageType
  | .json => .json
  | .msgPack => .messagePack
  | .proto => .proto

theorem applyContentTypeHeader_header (form : Form) (data : Data α) (h : Option Header) :
    ∃ value, (applyContentTypeHeader ⟨data, h, form.messageType⟩).header =
        some ((h.getD ∅).insert headerContentType [value]) ∧
      messageTypeFromHeader ((h.getD ∅).insert headerContentType [value]) = form.messageType := by
  cases form with
  | json => exact ⟨contentTypeJSON, rfl, by simp [messageTypeFromHeader]; decide⟩
  | msgPack => exact ⟨contentTypeMsgPack, rfl, by simp [messageTypeFromHeader]; decide⟩
  | proto => exact ⟨contentTypeProto, rfl, by simp [messageTypeFromHeader, Form.messageType]⟩

-- The receiver of a message can tell its type from the header.
def Typed (form : Form) (h : Option Header) : Prop :=
  messageTypeFromHeader (h.getD ∅) = form.messageType ∧ headerContentEncoding ∉ h.getD ∅

theorem typed_apply (form : Form) (data : Data α) (hfree : headerContentEncoding ∉ h.getD ∅) :
    Typed form (applyContentTypeHeader ⟨data, h, form.messageType⟩).header := by
  obtain ⟨value, hheader, htype⟩ := applyContentTypeHeader_header form data h
  rw [hheader]
  exact ⟨htype, encoding_notMem_insert hfree [value]⟩

theorem typed_request (form : Form) (data : Data α) (hfree : Free h) :
    Typed form (requestTyped ⟨data, h, form.messageType⟩).header := by
  unfold requestTyped
  split_ifs with hset
  · exact typed_apply form data hfree.2
  · refine ⟨?_, hfree.2⟩
    -- only JSON goes out without a content type
    cases form with
    | json => exact messageTypeFromHeader_of_free hfree
    | msgPack | proto => simp [Form.messageType] at hset

end Types

section Exchange

variable {α β : Type}

def Form.decode (form : Form) (dec : Decoder β) (data : Bytes) : Except GoError β :=
  match form with
  | .json => Exchange.decode dec data .json
  | .msgPack => Exchange.decode dec data .messagePack
  | .proto => decodeProto dec data

def Form.requestInto (form : Form) (r : Requester α) (conn : Msg → Except GoError Msg)
    (subject : String) (req : Data α) (dec : Decoder β) : Except GoError β :=
  match form with
  | .json => requestJSONInto r conn subject req dec
  | .msgPack => requestMsgPackInto r conn subject req dec
  | .proto => requestProtoInto r conn subject req dec

theorem Form.requestInto_eq (form : Form) (r : Requester α) (conn : Msg → Except GoError Msg)
    (subject : String) (req : Data α) (dec : Decoder β) :
    form.requestInto r conn subject req dec =
      (requestMessage r conn subject ⟨req, none, form.messageType⟩).bind fun reply =>
        form.decode dec reply.data := by
  cases form with
  | json =>
    simp only [Form.requestInto, requestJSONInto, requestJSON, Form.messageType]
    cases requestMessage r conn subject ⟨req, none, .json⟩ <;> rfl
  | msgPack =>
    simp only [Form.requestInto, requestMsgPackInto, requestMsgPack, Form.messageType]
    cases requestMessage r conn subject ⟨req, none, .messagePack⟩ <;> rfl
  | proto =>
    simp only [Form.requestInto, requestProtoInto, requestProto, Form.messageType]
    cases requestMessage r conn subject ⟨req, none, .proto⟩ <;> rfl

theorem Form.decode_of {form : Form} {dec : Decoder β} {data : Bytes} {v : β}
    (h : Exchange.decode dec data form.messageType = .ok v) : form.decode dec data = .ok v := by
  cases form with
  | json | msgPack => exact h
  | proto =>
    simp only [Form.messageType, Exchange.decode] at h
    split_ifs at h
    exact h

theorem encode_header (codec : Codec α) (data : Data α) (typ : MessageType) (h h' : Option Header) :
    encode codec ⟨data, h, typ⟩ = encode codec ⟨data, h', typ⟩ := by
  cases typ <;> rfl

variable {r : Requester α} {s : Responder} {codec : Codec β} {dec : Decoder α} {form : Form}
  {subject inbox : String} {v : α} {w : β} {b c : Bytes} {noReply : GoError}
  {handler : ReplyHandler}
  {nmsg msg : Msg} {mode : PayloadCompressionMode}

-- The header with which a typed request leaves.
def Requester.outbound (r : Requester α) (form : Form) (v : α) : Option Header :=
  (requestTyped ⟨.value v, r.trace none, form.messageType⟩).header

-- A typed request before it is compressed.
def Requester.plain (r : Requester α) (form : Form) (subject : String) (v : α) (b : Bytes) : Msg :=
  ⟨subject, "", (r.outbound form v).getD ∅, b, false⟩

theorem prepare_eq (hconn : r.connected = true)
    (hsubject : validateOutboundSubject subject "request" r.skipSubjectValidation = none)
    (hb : encode r.codec ⟨.value v, none, form.messageType⟩ = .ok b) :
    r.prepare subject ⟨.value v, none, form.messageType⟩ =
      .ok (sentMsg r.comp r.payloadCompression (r.plain form subject v b) (r.outbound form v)) := by
  have hset : form.messageType ≠ .unset := by cases form <;> decide
  have hvalid : validMessageType form.messageType = true := by cases form <;> rfl
  have hb' : encode r.codec ⟨.value v, r.trace none, form.messageType⟩ = .ok b :=
    (encode_header ..).trans hb
  simp [Requester.prepare, hconn, hsubject, hset, hvalid, Requester.encoded, hb', sentMsg,
    Requester.plain, Requester.outbound]

theorem connTo_of_opened
    (h : opened s.comp s.payloadDecompression (addressed inbox nmsg) = .ok msg) {reply : Msg}
    (hreply : (handler msg).1 = [reply]) : connTo s handler inbox noReply nmsg = .ok reply := by
  unfold opened at h
  simp only [connTo, Responder.wrap, h, hreply]

-- What the responder cannot open its handler never sees.
theorem connTo_of_error {e : GoError}
    (h : opened s.comp s.payloadDecompression (addressed inbox nmsg) = .error e) :
    connTo s handler inbox noReply nmsg = .error noReply := by
  simp only [connTo, Responder.wrap]
  unfold opened at h
  simp only [h]

-- The header of a typed reply, and the reply before it is compressed.
def replyHeader (form : Form) (w : β) : Option Header :=
  (applyContentTypeHeader ⟨.value w, none, form.messageType⟩).header

def plainReply (form : Form) (inbox : String) (w : β) (c : Bytes) : Msg :=
  ⟨inbox, "", (replyHeader form w).getD ∅, c, false⟩

theorem respondEncoded_eq (hinbox : msg.reply ≠ "") (hbound : msg.bound = true)
    (hc : encode codec ⟨.value w, none, form.messageType⟩ = .ok c) (comp : Compressors) :
    respondEncoded codec comp (some msg) ⟨.value w, none, form.messageType⟩ mode =
      .ok (sentMsg comp mode (plainReply form msg.reply w c) (replyHeader form w)) := by
  simp [respondEncoded, hc, respondMsg, hinbox, hbound, sentMsg, plainReply, replyHeader]

-- The mode with which the handler answers.
def Responder.replyMode (s : Responder) (own : Bool) : PayloadCompressionMode :=
  if own then s.payloadCompression else .off

theorem answering_eq {own : Bool} {f : α → β} (hinv : Inverts r.codec dec)
    (hb : encode r.codec ⟨.value v, none, form.messageType⟩ = .ok b)
    (hc : encode codec ⟨.value (f v), none, form.messageType⟩ = .ok c)
    (htyped : messageTypeFromHeader msg.header = form.messageType) (hdata : msg.data = b)
    (hinbox : msg.reply ≠ "") (hbound : msg.bound = true) :
    (answering s codec dec form.messageType own f msg).1 =
      [sentMsg s.comp (s.replyMode own) (plainReply form msg.reply (f v) c)
        (replyHeader form (f v))] := by
  have hdec : decodeMsg dec msg .unset = .ok v := by
    simp only [decodeMsg, if_pos, htyped, hdata]
    exact hinv.decode_encode hb
  simp only [answering, hdec]
  rw [respondEncoded_eq hinbox hbound hc]
  rfl

section RoundTrip

variable {respDec : Decoder β} {f : α → β}

-- The assumptions of an exchange: both sides have the same compressors, the decoders take back what
-- the encoders make, the trace puts nothing into the header that the library reads, and the
-- request is one that is sent.
structure Agreed (r : Requester α) (s : Responder) (codec : Codec β) (dec : Decoder α)
    (respDec : Decoder β) (form : Form) (subject inbox : String) (v : α) (w : β) (b c : Bytes) :
    Prop where
  same : s.comp = r.comp
  brotli : r.comp.brotli.Inverts
  gzip : r.comp.gzip.Inverts
  request : Inverts r.codec dec
  response : Inverts codec respDec
  free : Free (r.trace none)
  connected : r.connected = true
  valid : validateOutboundSubject subject "request" r.skipSubjectValidation = none
  inbox : inbox ≠ ""
  encoded : encode r.codec ⟨.value v, none, form.messageType⟩ = .ok b
  answered : encode codec ⟨.value w, none, form.messageType⟩ = .ok c

theorem addressed_sentMsg (inbox : String) (comp : Compressors) (mode : PayloadCompressionMode)
    (msg : Msg) (header : Option Header) :
    addressed inbox (sentMsg comp mode msg header) =
      sentMsg comp mode (addressed inbox msg) header := rfl

-- The request on its way.
def Requester.sent (r : Requester α) (form : Form) (subject : String) (v : α) (b : Bytes) : Msg :=
  sentMsg r.comp r.payloadCompression (r.plain form subject v b) (r.outbound form v)

-- The reply on its way.
def Responder.sent (s : Responder) (own : Bool) (form : Form) (inbox : String) (w : β) (c : Bytes) :
    Msg :=
  sentMsg s.comp (s.replyMode own) (plainReply form inbox w c) (replyHeader form w)

variable (h : Agreed r s codec dec respDec form subject inbox v (f v) b c)
include h

theorem Agreed.arrives (hreq : Fits r.comp r.payloadCompression s.payloadDecompression b) :
    opened s.comp s.payloadDecompression (addressed inbox (r.sent form subject v b)) =
      .ok (addressed inbox (r.plain form subject v b)) := by
  have htyped := typed_request form (.value v) h.free
  rw [h.same, Requester.sent, addressed_sentMsg]
  exact opened_of_fits h.brotli h.gzip rfl htyped.2 hreq

theorem Agreed.replies (own : Bool) (noReply : GoError)
    (hreq : Fits r.comp r.payloadCompression s.payloadDecompression b) :
    connTo s (answering s codec dec form.messageType own f) inbox noReply
      (r.sent form subject v b) = .ok (s.sent own form inbox (f v) c) := by
  have htyped := typed_request form (.value v) h.free
  exact connTo_of_opened (h.arrives hreq)
    (answering_eq h.request h.encoded h.answered htyped.1 rfl h.inbox rfl)

theorem Agreed.requestMessage_eq (own : Bool) (noReply : GoError)
    (hreq : Fits r.comp r.payloadCompression s.payloadDecompression b) :
    requestMessage r (connTo s (answering s codec dec form.messageType own f) inbox noReply) subject
      ⟨.value v, none, form.messageType⟩ =
      (opened r.comp r.payloadDecompression (s.sent own form inbox (f v) c)).mapError fun e =>
        .wrap ("request decompress reply subject=" ++ quoted subject ++ ": ") e "" := by
  have hprepare := prepare_eq h.connected h.valid h.encoded
  have hreplies := h.replies own noReply hreq
  rw [← Requester.sent] at hprepare
  simp only [requestMessage, hprepare, hreplies, opened]
  split_ifs
  · cases maybeDecompressMsg r.comp (s.sent own form inbox (f v) c) <;> rfl
  · rfl

omit h

theorem replyHeader_free (form : Form) (w : β) :
    headerContentEncoding ∉ (replyHeader form w).getD ∅ := by
  have hnone : headerContentEncoding ∉ (none : Option Header).getD ∅ := Finmap.notMem_empty
  exact (typed_apply form (.value w) hnone).2

-- For every encoding, every compression on either side and every trace: the handler gets exactly
-- the request, and the caller exactly what the handler made of it.
theorem request_round_trip (f : α → β) (own : Bool) (noReply : GoError)
    (h : Agreed r s codec dec respDec form subject inbox v (f v) b c)
    (hreq : Fits r.comp r.payloadCompression s.payloadDecompression b)
    (hresp : Fits r.comp (s.replyMode own) r.payloadDecompression c) :
    form.requestInto r (connTo s (answering s codec dec form.messageType own f) inbox noReply)
      subject (.value v) respDec = .ok (f v) := by
  have hopened : opened r.comp r.payloadDecompression (s.sent own form inbox (f v) c) =
      .ok (plainReply form inbox (f v) c) := by
    rw [Responder.sent, h.same]
    exact opened_of_fits h.brotli h.gzip rfl (replyHeader_free form (f v)) hresp
  rw [Form.requestInto_eq, h.requestMessage_eq own noReply hreq, hopened]
  exact Form.decode_of (h.response.decode_encode h.answered)

-- A message that was compressed and is beyond the limit of its receiver: the handler never sees
-- such a request, and the caller of such a reply is told so.
theorem request_beyond_limit (f : α → β) (own : Bool) (noReply : GoError)
    (h : Agreed r s codec dec respDec form subject inbox v (f v) b c)
    (hs : s.payloadDecompression = true) (hr : r.payloadDecompression = true) :
    (Beyond r.comp r.payloadCompression b → ∀ handler,
      (s.wrap handler (addressed inbox (r.sent form subject v b))).1 = [] ∧
      form.requestInto r (connTo s handler inbox noReply) subject (.value v) respDec =
        .error (.wrap ("request subject=" ++ quoted subject ++ ": ") noReply "")) ∧
    (¬ Beyond r.comp r.payloadCompression b → Beyond r.comp (s.replyMode own) c →
      ∃ e, form.requestInto r (connTo s (answering s codec dec form.messageType own f) inbox noReply)
        subject (.value v) respDec = .error e ∧ e.is .errPayloadTooLarge = true) := by
  constructor
  · intro hbeyond handler
    have htyped := typed_request form (.value v) h.free
    obtain ⟨e, hopened, -⟩ : ∃ e, opened s.comp s.payloadDecompression
        (addressed inbox (r.sent form subject v b)) = .error e ∧
          e.is .errPayloadTooLarge = true := by
      rw [h.same, hs, Requester.sent, addressed_sentMsg]
      exact opened_of_beyond h.brotli h.gzip rfl htyped.2 hbeyond
    refine ⟨?_, ?_⟩
    · unfold opened at hopened
      simp only [Responder.wrap, hopened]
    · have hprepare := prepare_eq h.connected h.valid h.encoded
      rw [← Requester.sent] at hprepare
      simp only [Form.requestInto_eq, requestMessage, hprepare, connTo_of_error hopened,
        Except.bind]
  · intro hfits hbeyond
    have hreq : Fits r.comp r.payloadCompression s.payloadDecompression b := by
      by_cases hplain : compressed r.comp r.payloadCompression b = none
      · exact .inl hplain
      · exact .inr ⟨hs, Nat.le_of_not_lt fun hlong => hfits ⟨hplain, hlong⟩⟩
    obtain ⟨e, hopened, hlimit⟩ : ∃ e, opened r.comp r.payloadDecompression
        (s.sent own form inbox (f v) c) = .error e ∧ e.is .errPayloadTooLarge = true := by
      rw [Responder.sent, h.same, hr]
      exact opened_of_beyond h.brotli h.gzip rfl (replyHeader_free form (f v)) hbeyond
    refine ⟨.wrap ("request decompress reply subject=" ++ quoted subject ++ ": ") e "", ?_, ?_⟩
    · rw [Form.requestInto_eq, h.requestMessage_eq own noReply hreq, hopened]
      rfl
    · simpa using hlimit

-- A codec of two values, one of which has a long encoding.
def bits (length : Nat) : Codec Bool where
  json
    | .value true => .ok (List.replicate length 7)
    | .value false => .ok [48, 10]
    | .bytes _ => .error (.foreign "unsupported type" [])
  proto _ := none
  msgPack _ := .error (.foreign "unsupported type" [])

def bitOf : Decoder Bool where
  json data :=
    if data.head? = some 7 then .ok true
    else if data.head? = some 48 then .ok false
    else .error (.foreign "invalid character" [])
  proto _ := .error (.foreign "invalid wire format" [])
  msgPack _ := .error (.foreign "invalid code" [])
  isProto := false

theorem bits_inverts {length : Nat} (h : length ≠ 0) : Inverts (bits length) bitOf where
  json := by
    rintro (_ | _) b ⟨⟩
    · rfl
    · simp [bitOf, List.head?_replicate, h]
  newline := by
    rintro (_ | ⟨first, rest⟩) v hv
    · cases hv
    · exact hv
  proto := by rintro _ _ ⟨⟩
  msgPack := by rintro _ _ ⟨⟩

def compressing (length : Nat) : Compressors :=
  ⟨packer (uniform length).data, packer (uniform length).data⟩

def asking (length : Nat) : Requester Bool :=
  ⟨bits length, compressing length, true, false, .brotli, true, id⟩

def replying (length : Nat) : Responder := ⟨compressing length, .brotli, true⟩

theorem encode_bits_true {length : Nat} (h : Option Header) :
    encode (bits length) ⟨.value true, h, .json⟩ = .ok (List.replicate length 7) := by
  have hlast : (List.replicate length (7 : UInt8)).getLast? ≠ some 10 := by
    rw [List.getLast?_replicate]
    split_ifs <;> decide
  simp [encode, encodeJSONPooled, bits, hlast]

theorem agreed_bits {length : Nat} (h : length ≠ 0) {v w : Bool} {b c : Bytes}
    (hb : encode (bits length) ⟨.value v, none, .json⟩ = .ok b)
    (hc : encode (bits length) ⟨.value w, none, .json⟩ = .ok c) :
    Agreed (asking length) (replying length) (bits length) bitOf bitOf .json "orders" "_INBOX.1" v w
      b c where
  same := rfl
  brotli := packer_inverts _
  gzip := packer_inverts _
  request := bits_inverts h
  response := bits_inverts h
  free := ⟨Finmap.notMem_empty, Finmap.notMem_empty⟩
  connected := rfl
  valid := (by decide : validateOutboundSubject "orders" "request" false = none)
  inbox := by decide
  encoded := hb
  answered := hc

theorem encode_bits_false (length : Nat) :
    encode (bits length) ⟨.value false, none, .json⟩ = .ok [48] := rfl

theorem compressed_short (length : Nat) : compressed (compressing length) .brotli [48] = none := by
  simp [compressed, compressPayloadAlgo, minPayloadCompressBytes]

theorem compressed_long {length : Nat} (h : minPayloadCompressBytes < length) :
    compressed (compressing length) .brotli (List.replicate length 7) ≠ none := by
  have hlen : (uniform length).data.length = length := List.length_replicate
  have hc : compressed (compressing length) .brotli (List.replicate length 7) =
      some ([1], encodingBrotli) := packer_compressed (by rwa [hlen])
  rw [hc]
  exact Option.some_ne_none _

-- The request is compressed, the reply is not.
theorem request_round_trip_bits :
    compressed (compressing 32769) .brotli (List.replicate 32769 7) ≠ none ∧
      Form.json.requestInto (asking 32769) (connTo (replying 32769)
        (answering (replying 32769) (bits 32769) bitOf .json true not) "_INBOX.1"
          (.sentinel .errTimeout)) "orders" (.value true) bitOf = .ok false := by
  refine ⟨compressed_long (by decide), ?_⟩
  have hagreed := agreed_bits (by decide : 32769 ≠ 0) (encode_bits_true none)
    (encode_bits_false 32769)
  refine request_round_trip not true _ hagreed (.inr ⟨rfl, ?_⟩) (.inl (compressed_short _))
  rw [List.length_replicate]
  decide

theorem request_beyond_limit_bits :
    ∃ e, Form.json.requestInto (asking (maxPayloadDecompressBytes + 1))
      (connTo (replying (maxPayloadDecompressBytes + 1))
        (answering (replying (maxPayloadDecompressBytes + 1)) (bits (maxPayloadDecompressBytes + 1))
          bitOf .json true not) "_INBOX.1" (.sentinel .errTimeout)) "orders" (.value false) bitOf =
        .error e ∧ e.is .errPayloadTooLarge = true := by
  have hagreed := agreed_bits (Nat.succ_ne_zero maxPayloadDecompressBytes)
    (encode_bits_false _) (encode_bits_true none)
  refine (request_beyond_limit not true _ hagreed rfl rfl).2 (fun hbeyond => ?_) ⟨?_, ?_⟩
  · exact hbeyond.1 (compressed_short _)
  · exact compressed_long (by decide)
  · rw [List.length_replicate]
    exact Nat.lt_succ_self _

end RoundTrip

end Exchange

end NatsClient.Exchange
