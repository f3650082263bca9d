import NatsClient.Dlq.Copies
import NatsClient.Publish.Theorems

namespace NatsClient.Dlq

open Lib.Loop

section Replay

variable {s : Surroundings} {cfg : ReplayConfig}

-- A turn publishes one message, made from the stored message it fetched, or none.
theorem replayTurn_sent {p : Progress} {result : Progress ⊕ Progress × Option GoError}
    (h : replayTurn s cfg p = result) :
    (result.elim Progress.sent fun r => r.1.sent) = p.sent ∨
      ∃ raw, (result.elim Progress.sent fun r => r.1.sent) = p.sent ++ [resent s cfg raw] := by
  subst h
  unfold replayTurn
  simp only
  cases s.ctxErr p.out.considered with
  | some e => exact .inl rfl
  | none =>
    cases fetch s cfg p.seq p.out.considered with
    | error e => exact .inl rfl
    | ok found =>
      cases found with
      | none => exact .inl rfl
      | some raw =>
        simp only
        split_ifs
        · exact .inl rfl
        · exact .inl rfl
        · cases s.publishResult p.out.considered with
          | some e => exact .inl rfl
          | none =>
            right
            refine ⟨raw, ?_⟩
            cases pause s cfg p.out.considered <;> rfl

-- Everything in the list was made from a stored message.
def AllResent (s : Surroundings) (cfg : ReplayConfig) (sent : List Resent) : Prop :=
  ∀ r ∈ sent, r = resent s cfg r.stored

theorem AllResent.turn {p : Progress} {result : Progress ⊕ Progress × Option GoError}
    (hp : AllResent s cfg p.sent) (h : replayTurn s cfg p = result) :
    AllResent s cfg (result.elim Progress.sent fun r => r.1.sent) := by
  rcases replayTurn_sent h with hs | ⟨raw, hs⟩
  · rwa [hs]
  · rw [hs]
    intro r hr
    rcases List.mem_append.mp hr with hr | hr
    · exact hp r hr
    · cases List.mem_singleton.mp hr
      rfl

theorem replayLoop_resent (s : Surroundings) (cfg : ReplayConfig) :
    AllResent s cfg (replayLoop s cfg).1.sent := by
  have hempty : AllResent s cfg [] := by simp [AllResent]
  unfold replayLoop
  cases h : iterate (replayTurn s cfg) cfg.limit.toNat ⟨cfg.startSeq, ⟨0, 0, 0, 0, 0⟩, []⟩ with
  | inl p =>
    exact (Visits.invariant (P := fun p => AllResent s cfg p.sent)
      (fun p next hp hstep => hp.turn hstep) ⟨_, h⟩ hempty).1
  | inr result =>
    exact iterate_inr (P := fun p => AllResent s cfg p.sent)
      (Q := fun r => AllResent s cfg r.1.sent) (fun p next hp hstep => hp.turn hstep)
      (fun p result hp hstep => hp.turn hstep) h hempty

-- Whatever the source, the context and the publisher do, a message goes to DestSubject with
-- the data of a stored message and its headers, stripped if that is asked for.
theorem replayToStream_resent {r : Resent} (hr : r ∈ (replayToStream s cfg).sent) :
    r.subject = cfg.destSubject ∧ r.raw.data = r.stored.data ∧
      r.raw.header =
        if cfg.stripDLQHeaders then stripDLQHeaders r.stored.header else r.stored.header := by
  unfold replayToStream at hr
  simp only at hr
  split_ifs at hr with hnil hstream hdest
  · cases hr
  · cases hr
  · cases hr
  · have hresent := replayLoop_resent s cfg.withDefaults r hr
    have hsubject : r.subject = cfg.destSubject := by
      rw [hresent]
      exact if_neg fun h => hdest h.2
    exact ⟨hsubject, congrArg (fun r => r.raw.data) hresent,
      congrArg (fun r => r.raw.header) hresent⟩

theorem foldl_erase_lookup (names : List String) (key : String) (h : Header) :
    (names.foldl (fun h key => h.erase key) h).lookup key =
      if key ∈ names then none else h.lookup key := by
  induction names generalizing h with
  | nil => simp
  | cons name names ih =>
    rw [List.foldl_cons, ih]
    by_cases heq : key = name
    · subst heq
      simp
    · simp [heq, Finmap.lookup_erase_ne heq]

theorem stripDLQHeaders_lookup {key : String} (hkey : key ∉ dlqHeaders) (h : Header) :
    (stripDLQHeaders h).lookup key = h.lookup key :=
  (foldl_erase_lookup dlqHeaders key h).trans (if_neg hkey)

-- A redrive keeps the headers that are not of the DLQ.
theorem replayToStream_lookup {r : Resent} (hr : r ∈ (replayToStream s cfg).sent) {key : String}
    (hkey : key ∉ dlqHeaders) : r.raw.header.lookup key = r.stored.header.lookup key := by
  rw [(replayToStream_resent hr).2.2]
  split_ifs
  · exact stripDLQHeaders_lookup hkey _
  · rfl

end Replay

section Decoding

open Publish

variable {α : Type} {p : Publisher α} {subject : String} {raw : RawPublish} {msg : Msg}

-- The adapter publishes data as it is. What it adds to the headers is the trace's and
-- compression's.
theorem publishRaw_eq_ok (h : publishRaw p subject raw = .ok msg) :
    msg = ⟨subject, "",
      entries (applyPayloadCompression p.comp p.payloadCompression raw.data
        (p.tracing.inject (some raw.header))).2,
      (applyPayloadCompression p.comp p.payloadCompression raw.data
        (p.tracing.inject (some raw.header))).1,
      false⟩ := by
  simp only [publishRaw, publish, Call.message, Call.subject] at h
  cases hdata : checkAndEncode p subject ⟨.bytes raw.data, some raw.header, .raw⟩ with
  | error e => simp [(preparePublish_of_error hdata).1, Except.map] at h
  | ok data =>
    have hraw : data = raw.data := by
      simpa [encode] using (checkAndEncode_eq_ok.mp hdata).2.symm
    subst hraw
    rw [preparePublish_of_ok hdata] at h
    cases h
    rfl

theorem publishRaw_off (hoff : p.payloadCompression = .off)
    (h : publishRaw p subject raw = .ok msg) :
    (∀ key ∈ readHeaders, msg.header.lookup key = raw.header.lookup key) ∧
      msg.data = raw.data := by
  rw [publishRaw_eq_ok h, hoff]
  exact ⟨p.tracing.apart _, rfl⟩

theorem publishRaw_lookup {key : String} (hread : key ∈ readHeaders)
    (hne : key ≠ headerContentEncoding) (h : publishRaw p subject raw = .ok msg) :
    msg.header.lookup key = raw.header.lookup key := by
  rw [publishRaw_eq_ok h]
  exact (applyPayloadCompression_lookup_of_ne p.comp p.payloadCompression raw.data _ key hne).trans
    (p.tracing.apart _ key hread)

-- The type a consumer reads off a message hangs on one header.
theorem messageTypeFromHeader_congr {h g : Header}
    (hget : Header.get h headerContentType = Header.get g headerContentType) :
    messageTypeFromHeader h = messageTypeFromHeader g := by
  simp only [messageTypeFromHeader, hget]

-- Opening a message leaves what a consumer makes of it, and plain data.
theorem received_of_opened {comp : Compressors} {m seen : Msg}
    (h : maybeDecompressMsg comp m = .ok seen) :
    (received comp m).payload = .ok seen.data ∧
      Header.get seen.header headerContentType = Header.get m.header headerContentType := by
  refine ⟨by simp [received, h, Except.map], ?_⟩
  unfold maybeDecompressMsg at h
  simp only at h
  split_ifs at h
  · cases h
    rfl
  · split at h <;> cases h
    exact Header.get_eq_of_lookup (Finmap.lookup_erase_ne (by decide))

-- A message goes through a stack of wrappers into the DLQ and comes back by a redrive. What
-- comes back has the data that route saw and no encoding.
theorem redrive_preserves_iff (comp : Compressors) (cfg : RuntimeConsumerConfig)
    (platform : Platform) (wire : Wire) (cfgs : List Config) (outcome : Msg → Outcome) (m : Msg)
    (subject : String) (raw : RawPublish)
    (hraw : .dlqPublish subject raw none ∈ (processMessage comp cfg wire
      (stacked platform wire cfgs (innermost fun m => (m, outcome m))) ⟨m, []⟩).1.log)
    (p : Publisher α) (hp : p.payloadCompression = .off) (copy : Msg)
    (hcopy : publishRaw p subject raw = .ok copy)
    (s : Surroundings) (replay : ReplayConfig) (r : Resent)
    (hr : r ∈ (replayToStream s replay).sent)
    (hstored : r.stored.header = copy.header ∧ r.stored.data = copy.data)
    (q : Publisher α) (hq : q.payloadCompression = .off) (redriven : Msg)
    (hredriven : publishRaw q r.subject r.raw = .ok redriven) :
    (received comp redriven).payload = (received comp m).payload ∧
        (received comp redriven).messageType = (received comp m).messageType ↔
      cfg.payloadDecompression = true ∨ (received comp m).payload = .ok m.data := by
  have hinner : Copying platform (innermost fun m => (m, outcome m)) := fun d => keeps_push d rfl
  obtain ⟨seen, hseen, dlq, reason, info, rfl⟩ := processMessage_copies comp cfg wire
    (stacked_copying wire cfgs hinner) m hraw
  obtain ⟨hcopyHeader, hcopyData⟩ := publishRaw_off hp hcopy
  obtain ⟨hheader, hdata⟩ := publishRaw_off hq hredriven
  have hget : ∀ key ∈ readHeaders, key ∉ dlqHeaders → key ≠ headerMsgID →
      Header.get redriven.header key =
        if key ∈ copiedHeaders then Header.get seen.header key else "" := by
    intro key hread hkey hne
    rw [Header.get_eq_of_lookup (hheader key hread),
      Header.get_eq_of_lookup (replayToStream_lookup hr hkey), hstored.1,
      Header.get_eq_of_lookup (hcopyHeader key hread),
      routeHeaders_get platform dlq seen reason info hkey hne]
  have hpayload : (received comp redriven).payload = .ok seen.data := by
    have hnone : Header.get redriven.header headerContentEncoding = "" :=
      hget headerContentEncoding (by decide) (by decide) (by decide)
    have hplain : redriven.data = seen.data := by
      rw [hdata, (replayToStream_resent hr).2.1, hstored.2, hcopyData]
    simp [received, maybeDecompressMsg, hnone, Except.map, hplain]
  have htype : Header.get redriven.header headerContentType =
      Header.get seen.header headerContentType :=
    hget headerContentType (by decide) (by decide) (by decide)
  cases hon : cfg.payloadDecompression with
  | true =>
    rw [hon, if_pos rfl] at hseen
    obtain ⟨hopen, hct⟩ := received_of_opened hseen
    simp only [true_or, iff_true]
    exact ⟨hpayload.trans hopen.symm, messageTypeFromHeader_congr (htype.trans hct)⟩
  | false =>
    rw [hon, if_neg Bool.false_ne_true] at hseen
    cases hseen
    simp only [Bool.false_eq_true, false_or]
    constructor
    · rintro ⟨hpay, -⟩
      rw [← hpay, hpayload]
    · intro hplain
      exact ⟨hpayload.trans hplain.symm, messageTypeFromHeader_congr htype⟩

-- A codec whose packed form has one byte in front.
def framing : Compressors :=
  let algo : Algorithm := ⟨fun data => .ok (31 :: data), fun data => (data.tail, none)⟩
  ⟨algo, algo⟩

def order (header : Header) : Msg := ⟨"orders.new", "$JS.ACK.ORDERS", header, [31, 7], true⟩

def ordersPlatform : Platform := ⟨fun _ => some ⟨"ORDERS", "worker", 5, 1⟩, fun _ => "", []⟩

def quietWire : Wire := ⟨fun _ => none, fun _ => none⟩

def ordersDlq : Config := ⟨true, false, "orders.dlq", "", ⟨false, false, 0, 0⟩, 0⟩

def dlqClient : Publisher Unit :=
  ⟨⟨fun _ => .ok [], fun _ => none, fun _ => .ok []⟩, framing, .off, true, false, true, .off⟩

-- A stream that holds one message.
def holding (stored : RawStreamMsg) : Surroundings where
  source := true
  publisher := true
  getMsg _ _ := .ok (some stored)
  getNextMsgAfter _ _ _ := .error (.foreign "nats: message not found" [])
  publishResult _ := none
  ctxErr _ := none
  pauseErr _ := none
  equalFold a b := a = b
  keys _ := []

def redriveOrders : ReplayConfig := ⟨"DLQ", "orders.new", "", "", 0, 1, 0, false, true⟩

-- However headers are found there, since the filters are left empty.
theorem holding_with_sent (stored : RawStreamMsg) (equalFold : String → String → Bool)
    (keys : Header → List String) :
    (replayToStream { holding stored with equalFold := equalFold, keys := keys }
        redriveOrders).sent =
      [⟨stored, "orders.new", ⟨stripDLQHeaders stored.header, stored.data⟩⟩] := by
  have hsubject : ∀ s raw, (resent s redriveOrders.withDefaults raw).subject = "orders.new" :=
    fun s raw => if_neg fun h => absurd h.2 (by decide)
  show [resent _ redriveOrders.withDefaults _] = _
  rw [← hsubject]
  rfl

theorem holding_sent (stored : RawStreamMsg) :
    (replayToStream (holding stored) redriveOrders).sent =
      [⟨stored, "orders.new", ⟨stripDLQHeaders stored.header, stored.data⟩⟩] :=
  holding_with_sent stored _ _

-- The copy of an order in the DLQ, and what a redrive makes of it.
def dlqOrder (header : Header) : RawPublish :=
  ⟨routeHeaders ordersPlatform ordersDlq.withDefaults (order header) "handler_requested"
    ⟨"send message to dlq", []⟩, [31, 7]⟩

def redrivenOrder (header : Header) : Msg :=
  ⟨"orders.new", "", stripDLQHeaders (dlqOrder header).header, [31, 7], false⟩

-- Its handler asks for the DLQ.
def sendToDlq : Handler := innermost fun m => (m, .returned (some (.sentinel .errSendToDLQ)))

theorem order_dlq (header : Header) :
    .dlqPublish "orders.dlq" (dlqOrder header) none ∈
      (processMessage framing ⟨1, 1, false, false⟩ quietWire
        (stacked ordersPlatform quietWire [ordersDlq] sendToDlq) ⟨order header, []⟩).1.log := by
  right; left

theorem redrive_preserves_iff_unencoded :
    (received framing (redrivenOrder ∅)).payload = (received framing (order ∅)).payload ∧
      (received framing (redrivenOrder ∅)).messageType =
        (received framing (order ∅)).messageType := by
  have hplain : (received framing (order ∅)).payload = .ok (order ∅).data := by
    simp [received, maybeDecompressMsg, order, Header.get, Except.map]
  exact (redrive_preserves_iff framing ⟨1, 1, false, false⟩ ordersPlatform quietWire [ordersDlq]
    (fun _ => .returned (some (.sentinel .errSendToDLQ))) (order ∅) "orders.dlq" (dlqOrder ∅)
    (order_dlq ∅) dlqClient rfl ⟨"orders.dlq", "", (dlqOrder ∅).header, [31, 7], false⟩ rfl
    (holding ⟨1, (dlqOrder ∅).header, [31, 7]⟩) redriveOrders _
    (holding_sent _ ▸ List.mem_singleton.mpr rfl) ⟨rfl, rfl⟩ dlqClient rfl (redrivenOrder ∅)
    rfl).mpr (.inr hplain)

def gzipped : Header := (∅ : Header).insert headerContentEncoding ["gzip"]

-- A consumer that leaves decompression off sends a gzip message to the DLQ. The redriven
-- message is the packed bytes, and nothing says so.
theorem redrive_drops_encoding :
    .dlqPublish "orders.dlq" (dlqOrder gzipped) none ∈
        (processMessage framing ⟨1, 1, false, false⟩ quietWire
          (stacked ordersPlatform quietWire [ordersDlq] sendToDlq) ⟨order gzipped, []⟩).1.log ∧
      publishRaw dlqClient "orders.dlq" (dlqOrder gzipped) =
        .ok ⟨"orders.dlq", "", (dlqOrder gzipped).header, [31, 7], false⟩ ∧
      (∃ r ∈ (replayToStream (holding ⟨1, (dlqOrder gzipped).header, [31, 7]⟩) redriveOrders).sent,
        publishRaw dlqClient r.subject r.raw = .ok (redrivenOrder gzipped)) ∧
      (received framing (order gzipped)).payload = .ok [7] ∧
      (received framing (redrivenOrder gzipped)).payload = .ok [31, 7] := by
  refine ⟨order_dlq gzipped, rfl, ⟨_, holding_sent _ ▸ List.mem_singleton.mpr rfl, rfl⟩,
    ?_, ?_⟩
  · have henc : Header.get (order gzipped).header headerContentEncoding = encodingGzip :=
      Header.get_insert_self _ _ _ _
    rw [received, maybeDecompressMsg_data, henc, decompressPayload_gzip]
    rfl
  · have hnone : Header.get (redrivenOrder gzipped).header headerContentEncoding = "" :=
      (Header.get_eq_of_lookup (stripDLQHeaders_lookup (by decide) _)).trans
        (routeHeaders_get _ _ _ _ _ (by decide) (by decide))
    rw [received, maybeDecompressMsg_data, hnone, decompressPayload_empty]
    rfl

end Decoding

end NatsClient.Dlq
