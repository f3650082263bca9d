import Mathlib.Logic.Relation
import NatsClient.Dlq.Redrive.Theorems
import NatsClient.Exchange.Theorems

namespace NatsClient.Dlq

open Publish Exchange

variable {α : Type} {comp : Compressors} {p : Publisher α} {m m' : Msg} {b : Bytes}
  {form : Form} {subject : String} {raw : RawPublish}

section Carries

-- What a consumer makes of the message: these bytes, in this encoding.
structure Carries (comp : Compressors) (form : Form) (b : Bytes) (h : Header) (data : Bytes) :
    Prop where
  payload : decompressPayload comp data (Header.get h headerContentEncoding) = .ok b
  type : messageTypeFromHeader h = form.messageType

theorem Carries.opened (h : Carries comp form b m.header m.data) :
    ∃ seen, maybeDecompressMsg comp m = .ok seen ∧ seen.data = b ∧
      messageTypeFromHeader seen.header = form.messageType ∧ seen.subject = m.subject := by
  by_cases henc : Header.get m.header headerContentEncoding = ""
  · have hpay := h.payload
    rw [henc, decompressPayload_empty] at hpay
    cases hpay
    exact ⟨m, by simp [maybeDecompressMsg, henc], rfl, h.type, rfl⟩
  · refine ⟨{ m with data := b, header := m.header.erase headerContentEncoding }, ?_, rfl, ?_, rfl⟩
    · simp [maybeDecompressMsg, henc, h.payload]
    · rw [← h.type]
      exact messageTypeFromHeader_congr
        (Header.get_eq_of_lookup (Finmap.lookup_erase_ne (by decide)))

-- The adapter may compress what is not encoded yet.
theorem Carries.publishRaw (hbr : p.comp.brotli.Inverts) (hgz : p.comp.gzip.Inverts)
    (hlen : b.length ≤ maxPayloadDecompressBytes)
    (h : Carries p.comp form b raw.header raw.data) (hout : publishRaw p subject raw = .ok m) :
    Carries p.comp form b m.header m.data := by
  have htype : messageTypeFromHeader m.header = form.messageType :=
    (messageTypeFromHeader_congr
      (Header.get_eq_of_lookup (publishRaw_lookup (by decide) (by decide) hout))).trans h.type
  refine ⟨?_, htype⟩
  rw [publishRaw_eq_ok hout]
  have htraced : Header.get (entries (p.tracing.inject (some raw.header))) headerContentEncoding =
      Header.get raw.header headerContentEncoding :=
    Header.get_eq_of_lookup (p.tracing.apart _ _ (by decide))
  have hpay := h.payload
  rw [← htraced] at hpay
  by_cases henc :
      Header.get (entries (p.tracing.inject (some raw.header))) headerContentEncoding = ""
  · have hraw := hpay
    rw [henc, decompressPayload_empty] at hraw
    cases hraw
    exact (applyPayloadCompression_decompress hbr hgz p.payloadCompression hlen _).trans hpay
  · rw [applyPayloadCompression_of_encoded p.comp p.payloadCompression raw.data henc]
    exact hpay

theorem Carries.routed (platform : Platform) {seen : Msg} (hcopy : CopyOf platform seen raw)
    (hdata : seen.data = b) (htype : messageTypeFromHeader seen.header = form.messageType) :
    Carries comp form b raw.header raw.data := by
  obtain ⟨cfg, reason, info, rfl⟩ := hcopy
  have hget (key : String) (hkey : key ∉ dlqHeaders) (hne : key ≠ headerMsgID) :=
    routeHeaders_get platform cfg seen reason info hkey hne
  have henc : Header.get (routeHeaders platform cfg seen reason info) headerContentEncoding = "" :=
    hget headerContentEncoding (by decide) (by decide)
  have hct : Header.get (routeHeaders platform cfg seen reason info) headerContentType =
      Header.get seen.header headerContentType :=
    hget headerContentType (by decide) (by decide)
  refine ⟨?_, (messageTypeFromHeader_congr hct).trans htype⟩
  show decompressPayload comp seen.data _ = _
  rw [henc, decompressPayload_empty, hdata]

theorem Carries.resent {s : Surroundings} {cfg : ReplayConfig} {r : Resent}
    (hr : r ∈ (replayToStream s cfg).sent)
    (h : Carries comp form b r.stored.header r.stored.data) :
    Carries comp form b r.raw.header r.raw.data := by
  have hget (key : String) (hkey : key ∉ dlqHeaders) :=
    Header.get_eq_of_lookup (replayToStream_lookup hr hkey)
  refine ⟨?_, ?_⟩
  · rw [(replayToStream_resent hr).2.1, hget headerContentEncoding (by decide)]
    exact h.payload
  · exact (messageTypeFromHeader_congr (hget headerContentType (by decide))).trans h.type

end Carries

section Rounds

theorem handlerTyped_copying (platform : Platform) (dec : Decoder α) (mt : MessageType)
    (fn : String → α → Outcome) : Copying platform (handlerTyped dec mt fn) := by
  intro d
  unfold handlerTyped
  split <;> exact .refl d

-- A round: a consumer with a typed handler sends the message to the DLQ, and a redrive brings
-- it back to a stream. Both publishers may compress. The message is delivered from the stream
-- with a subject and a reply of its own.
def Round (α : Type) (comp : Compressors) (m m' : Msg) : Prop :=
  ∃ (runtime : RuntimeConsumerConfig) (platform : Platform) (wire : Wire) (cfgs : List Config)
    (dec : Decoder α) (mt : MessageType) (fn : String → α → Outcome) (subject : String)
    (raw : RawPublish),
    runtime.payloadDecompression = true ∧
    .dlqPublish subject raw none ∈ (processMessage comp runtime wire
      (stacked platform wire cfgs (handlerTyped dec mt fn)) ⟨m, []⟩).1.log ∧
  ∃ (p : Publisher α) (copy : Msg), p.comp = comp ∧ publishRaw p subject raw = .ok copy ∧
  ∃ (s : Surroundings) (replay : ReplayConfig), ∃ r ∈ (replayToStream s replay).sent,
    r.stored.header = copy.header ∧ r.stored.data = copy.data ∧
  ∃ (q : Publisher α) (redriven : Msg), q.comp = comp ∧
    publishRaw q r.subject r.raw = .ok redriven ∧
    m'.header = redriven.header ∧ m'.data = redriven.data

variable (hbr : comp.brotli.Inverts) (hgz : comp.gzip.Inverts)
  (hlen : b.length ≤ maxPayloadDecompressBytes)

include hbr hgz hlen

theorem Carries.round (h : Carries comp form b m.header m.data) (hround : Round α comp m m') :
    Carries comp form b m'.header m'.data := by
  obtain ⟨runtime, platform, wire, cfgs, dec, mt, fn, subject, raw, hon, hraw, p, copy, rfl, hcopy,
    s, replay, r, hr, hheader, hdata, q, redriven, hq, hredriven, hheader', hdata'⟩ := hround
  obtain ⟨seen, hseen, hplain, htype, -⟩ := h.opened
  obtain ⟨opened, hopened, hof⟩ := processMessage_copies p.comp runtime wire
    (stacked_copying wire cfgs (handlerTyped_copying platform dec mt fn)) m hraw
  rw [hon, if_pos rfl, hseen] at hopened
  cases hopened
  have hstored : Carries p.comp form b r.stored.header r.stored.data := by
    rw [hheader, hdata]
    exact (Carries.routed platform hof hplain htype).publishRaw hbr hgz hlen hcopy
  rw [hheader', hdata']
  rw [← hq] at hbr hgz hstored ⊢
  exact (hstored.resent hr).publishRaw hbr hgz hlen hredriven

theorem Carries.rounds (h : Carries comp form b m.header m.data)
    (hrounds : Relation.ReflTransGen (Round α comp) m m') :
    Carries comp form b m'.header m'.data := by
  induction hrounds with
  | refl => exact h
  | tail _ hround ih => exact ih.round hbr hgz hlen hround

end Rounds

section Delivery

variable {dec : Decoder α} {v : α} {h cell : Option Header} {c : Call α} {out : Msg}

theorem encode_of_publish {messageType : MessageType}
    (hmsg : c.message cell = ⟨.value v, h, messageType⟩) (hout : (publish p cell c).1 = .ok out)
    (hb : encode p.codec ⟨.value v, none, messageType⟩ = .ok b) :
    checkAndEncode p c.subject ⟨.value v, h, messageType⟩ = .ok b := by
  have hb' : encode p.codec ⟨.value v, h, messageType⟩ = .ok b := (encode_header ..).trans hb
  simp only [publish, hmsg] at hout
  cases hdata : checkAndEncode p c.subject ⟨.value v, h, messageType⟩ with
  | error e => simp [(preparePublish_of_error hdata).1, Except.map] at hout
  | ok data => simpa [hb'] using (checkAndEncode_eq_ok.mp hdata).2.symm

theorem carries_publish (hbr : p.comp.brotli.Inverts) (hgz : p.comp.gzip.Inverts)
    (hlen : b.length ≤ maxPayloadDecompressBytes) (hfree : Free h)
    (hmsg : c.message cell = ⟨.value v, h, form.messageType⟩)
    (hout : (publish p cell c).1 = .ok out)
    (hb : encode p.codec ⟨.value v, none, form.messageType⟩ = .ok b) :
    Carries p.comp form b out.header out.data := by
  have hdata := encode_of_publish hmsg hout hb
  have hreceived := preparePublish_received hbr hgz hdata hlen
  have hsent : (preparePublish p c.subject ⟨.value v, h, form.messageType⟩).2.map (publishMsg
      c.subject (preparePublish p c.subject ⟨.value v, h, form.messageType⟩).1) = .ok out := by
    rw [← hout, publish, hmsg]
  generalize preparePublish p c.subject ⟨.value v, h, form.messageType⟩ = prepared
    at hreceived hsent
  obtain ⟨msg, _ | bytes⟩ := prepared
  · cases hsent
  cases hsent
  have henc : Header.get (entries h) headerContentEncoding = "" := by
    simp [Header.get, Finmap.lookup_eq_none.mpr hfree.2]
  have htype : reported form.messageType (entries h) = form.messageType := by
    refine if_neg ?_
    rintro (hraw | hmem)
    · cases form <;> cases hraw
    · exact hfree.1 hmem
  rw [henc, decompressPayload_empty, htype] at hreceived
  have heq := Except.ok.inj hreceived
  simp only [received, Received.mk.injEq, maybeDecompressMsg_data] at heq
  exact ⟨heq.1, heq.2.1⟩

theorem handlerTyped_of_carried {b : Bytes} {msg : Msg} {log : List Event} {mt : MessageType}
    (hinv : Inverts p.codec dec) (hb : encode p.codec ⟨.value v, none, form.messageType⟩ = .ok b)
    (hdata : msg.data = b) (htype : messageTypeFromHeader msg.header = form.messageType)
    (hmt : mt = .unset ∨ mt = form.messageType) (fn : String → α → Outcome) :
    handlerTyped dec mt fn ⟨msg, log⟩ = (⟨msg, log⟩, fn msg.subject v) := by
  have hset : form.messageType ≠ .unset := by cases form <;> decide
  have hdec : decodeTyped dec msg mt = .ok v := by
    rw [decodeTyped, decodeMsg, htype, hdata, ← hinv.decode_encode hb]
    rcases hmt with rfl | rfl <;> simp [hset]
  simp only [handlerTyped, hdec]

-- A value goes out in any of the encodings, compressed or not, and goes through the DLQ and a
-- redrive any number of times. Whoever consumes it then hands exactly this value to its handler,
-- and the handler alone decides how the message is settled.
theorem typed_survives_redrive (p : Publisher α) (cell : Option Header) (c : Call α)
    (hbr : p.comp.brotli.Inverts) (hgz : p.comp.gzip.Inverts) (hinv : Inverts p.codec dec)
    (hmsg : c.message cell = ⟨.value v, h, form.messageType⟩) (hfree : Free h)
    (hout : (publish p cell c).1 = .ok out)
    (hb : encode p.codec ⟨.value v, none, form.messageType⟩ = .ok b)
    (hlen : b.length ≤ maxPayloadDecompressBytes)
    (hheader : m.header = out.header) (hdata : m.data = out.data)
    (hrounds : Relation.ReflTransGen (Round α p.comp) m m')
    (runtime : RuntimeConsumerConfig) (hon : runtime.payloadDecompression = true) (wire : Wire)
    (mt : MessageType) (hmt : mt = .unset ∨ mt = form.messageType) (fn : String → α → Outcome) :
    ∃ seen, maybeDecompressMsg p.comp m' = .ok seen ∧
      processMessage p.comp runtime wire (handlerTyped dec mt fn) ⟨m', []⟩ =
        settleOutcome wire m'.subject ⟨seen, []⟩ (fn m'.subject v).err := by
  have hfirst : Carries p.comp form b m.header m.data := by
    rw [hheader, hdata]
    exact carries_publish hbr hgz hlen hfree hmsg hout hb
  obtain ⟨seen, hseen, hplain, htype, hsubject⟩ := (hfirst.rounds hbr hgz hlen hrounds).opened
  refine ⟨seen, hseen, ?_⟩
  simp only [processMessage, hon, if_true, hseen, invokeMsgHandler,
    handlerTyped_of_carried hinv hb hplain htype hmt, hsubject]

def bitClient : Publisher Bool := ⟨bits 3, compressing 3, .brotli, true, false, true, .off⟩

-- A bit as it is delivered, and as it is delivered again behind the DLQ.
def sentBit : Msg := ⟨"orders.new", "$JS.ACK.ORDERS", ∅, [48], true⟩

def rejectedBit : RawPublish :=
  ⟨routeHeaders ordersPlatform ordersDlq.withDefaults sentBit "handler_requested"
    ⟨"send message to dlq", []⟩, [48]⟩

def sentAgain : Msg :=
  ⟨"orders.new", "$JS.ACK.ORDERS", stripDLQHeaders rejectedBit.header, [48], true⟩

theorem sentBit_round : Round Bool bitClient.comp sentBit sentAgain := by
  refine ⟨⟨1, 1, false, true⟩, ordersPlatform, quietWire, [ordersDlq], bitOf, .unset,
    fun _ _ => .returned (some (.sentinel .errSendToDLQ)), "orders.dlq", rejectedBit, rfl, ?_,
    bitClient, ⟨"orders.dlq", "", rejectedBit.header, [48], false⟩, rfl, rfl,
    holding ⟨1, rejectedBit.header, [48]⟩, redriveOrders, _,
    holding_sent _ ▸ List.mem_singleton.mpr rfl, rfl, rfl, bitClient,
    ⟨"orders.new", "", stripDLQHeaders rejectedBit.header, [48], false⟩, rfl, rfl, rfl, rfl⟩
  left

theorem typed_survives_redrive_bit :
    Round Bool bitClient.comp sentBit sentAgain ∧
      ∃ seen, maybeDecompressMsg bitClient.comp sentAgain = .ok seen ∧
        processMessage bitClient.comp ⟨1, 1, false, true⟩ quietWire
            (handlerTyped bitOf .unset fun _ bit =>
              .returned (if bit then some (.sentinel .errSendToDLQ) else none)) ⟨sentAgain, []⟩ =
          settleOutcome quietWire "orders.new" ⟨seen, []⟩ none := by
  have hmsg : Call.message none (.publishMessage "orders.new" (.value false) .json) =
      ⟨.value false, none, Form.json.messageType⟩ := rfl
  have hb : encode bitClient.codec ⟨.value false, none, Form.json.messageType⟩ = .ok [48] :=
    encode_bits_false 3
  have hout : (publish bitClient none
      (.publishMessage "orders.new" (.value false) .json)).1 =
        .ok ⟨"orders.new", "", ∅, [48], false⟩ := rfl
  have hheader : sentBit.header = ∅ := rfl
  exact ⟨sentBit_round, typed_survives_redrive bitClient none _ (packer_inverts _)
    (packer_inverts _) (bits_inverts (by decide)) hmsg ⟨Finmap.notMem_empty, Finmap.notMem_empty⟩
    hout hb (by decide) hheader rfl (.single sentBit_round) _ rfl _ _ (.inl rfl) _⟩

end Delivery

end NatsClient.Dlq
