import NatsClient.Publish
import NatsClient.Compress.Theorems
import NatsClient.Lib.Machine

namespace NatsClient.Publish

open Lib.Machine

variable {α : Type} {p : Publisher α} {msg : Message α} {cell cell₀ : Option Header} {c : Call α}

section Prepare

-- The type a consumer reads off a message that starts with these entries.
def reported (messageType : MessageType) (h : Header) : MessageType :=
  if messageType = .raw ∨ headerContentType ∈ h then messageTypeFromHeader h
  else messageType

theorem reported_congr {h g : Header} (hl : h.lookup headerContentType = g.lookup headerContentType)
    (messageType : MessageType) : reported messageType h = reported messageType g := by
  have hmem : headerContentType ∈ h ↔ headerContentType ∈ g := by
    rw [← Finmap.lookup_isSome, ← Finmap.lookup_isSome, hl]
  simp only [reported, hmem, messageTypeFromHeader, Header.get_eq_of_lookup hl]

theorem contentTyped_lookup_of_ne (msg : Message α) {key : String}
    (hne : key ≠ headerContentType) :
    (entries (contentTyped msg).header).lookup key = (entries msg.header).lookup key := by
  unfold contentTyped
  split_ifs with hneeds
  · unfold applyContentTypeHeader
    split <;> simp [entries, Finmap.lookup_insert_of_ne _ hne]
  · rfl

theorem contentTyped_lookup_of_mem (msg : Message α)
    (hmem : headerContentType ∈ entries msg.header) :
    (contentTyped msg).header = msg.header := by
  have hneeds : needsContentTypeHeader msg = false := by
    have hne : ¬ entries msg.header = ∅ := fun h => Finmap.notMem_empty (h ▸ hmem)
    unfold needsContentTypeHeader
    cases msg.messageType <;> simp [hmem, hne]
  simp [contentTyped, hneeds]

theorem messageTypeFromHeader_of_notMem {h : Header} (hmem : headerContentType ∉ h) :
    messageTypeFromHeader h = .json := by
  have hget : Header.get h headerContentType = "" := by
    simp [Header.get, Finmap.lookup_eq_none.mpr hmem]
  simp only [messageTypeFromHeader, hget]
  decide

theorem contentTyped_reported (msg : Message α)
    (hvalid : validMessageType msg.messageType = true) :
    messageTypeFromHeader (entries (contentTyped msg).header) =
      reported msg.messageType (entries msg.header) := by
  by_cases hmem : headerContentType ∈ entries msg.header
  · rw [contentTyped_lookup_of_mem msg hmem, reported, if_pos (.inr hmem)]
  · have hjson := messageTypeFromHeader_of_notMem hmem
    cases hty : msg.messageType with
    | raw =>
      have hneeds : needsContentTypeHeader msg = false := by simp [needsContentTypeHeader, hty]
      simp [contentTyped, hneeds, reported]
    | json =>
      by_cases hempty : entries msg.header = ∅
      · have hneeds : needsContentTypeHeader msg = false := by
          simp [needsContentTypeHeader, hty, hempty]
        simp [contentTyped, hneeds, reported, hmem, hjson]
      · have hneeds : needsContentTypeHeader msg = true := by
          simp [needsContentTypeHeader, hty, hempty, hmem]
        simp [contentTyped, hneeds, applyContentTypeHeader, hty, reported, hmem,
          messageTypeFromHeader]
        decide
    | proto =>
      have hneeds : needsContentTypeHeader msg = true := by
        simp [needsContentTypeHeader, hty, hmem]
      simp [contentTyped, hneeds, applyContentTypeHeader, hty, reported, hmem,
        messageTypeFromHeader]
    | messagePack =>
      have hneeds : needsContentTypeHeader msg = true := by
        simp [needsContentTypeHeader, hty, hmem]
      simp [contentTyped, hneeds, applyContentTypeHeader, hty, reported, hmem,
        messageTypeFromHeader]
      decide
    | unset => simp [hty, validMessageType] at hvalid
    | other => simp [hty, validMessageType] at hvalid

theorem applyPayloadCompression_lookup_of_ne (comp : Compressors) (mode : PayloadCompressionMode)
    (data : Bytes) (h : Option Header) (key : String) (hne : key ≠ headerContentEncoding) :
    (entries (applyPayloadCompression comp mode data h).2).lookup key =
      (entries h).lookup key := by
  unfold applyPayloadCompression
  split_ifs
  · rfl
  · rfl
  · cases compressed comp mode data with
    | none => rfl
    | some packed => simp [entries, Finmap.lookup_insert_of_ne _ hne]

theorem contentEncodingFromHeader_eq (h : Option Header) :
    contentEncodingFromHeader h = Header.get (entries h) headerContentEncoding := by
  cases h with
  | none => simp [contentEncodingFromHeader, Header.get]
  | some h => rfl

theorem applyPayloadCompression_of_encoded (comp : Compressors) (mode : PayloadCompressionMode)
    (data : Bytes) {h : Option Header}
    (henc : Header.get (entries h) headerContentEncoding ≠ "") :
    applyPayloadCompression comp mode data h = (data, h) := by
  rw [← contentEncodingFromHeader_eq] at henc
  simp [applyPayloadCompression, henc]

theorem decompressPayload_empty (comp : Compressors) (data : Bytes) :
    decompressPayload comp data "" = .ok data := by
  have hname : toLower (trimSpace "") = "" := by decide
  simp [decompressPayload, hname]

-- Compression and the header it leaves agree on the payload.
theorem applyPayloadCompression_decompress {comp : Compressors} (hbr : comp.brotli.Inverts)
    (hgz : comp.gzip.Inverts) (mode : PayloadCompressionMode) {data : Bytes}
    (hlen : data.length ≤ maxPayloadDecompressBytes) (h : Option Header) :
    decompressPayload comp (applyPayloadCompression comp mode data h).1
        (Header.get (entries (applyPayloadCompression comp mode data h).2)
          headerContentEncoding) =
      decompressPayload comp data (Header.get (entries h) headerContentEncoding) := by
  by_cases henc : Header.get (entries h) headerContentEncoding = ""
  · rw [henc, decompressPayload_empty]
    have hplain : decompressPayload comp data (Header.get (entries h) headerContentEncoding) =
        .ok data := by rw [henc, decompressPayload_empty]
    unfold applyPayloadCompression
    split_ifs with hoff hne
    · exact hplain
    · exact hplain
    · cases hc : compressed comp mode data with
      | none => exact hplain
      | some packed => simpa [entries] using (compressed_decompress hbr hgz hc).2.1 hlen
  · rw [applyPayloadCompression_of_encoded comp mode data henc]

theorem maybeDecompressMsg_data (comp : Compressors) (msg : Msg) :
    (maybeDecompressMsg comp msg).map Msg.data =
      decompressPayload comp msg.data (Header.get msg.header headerContentEncoding) := by
  by_cases henc : Header.get msg.header headerContentEncoding = ""
  · rw [henc, decompressPayload_empty]
    simp [maybeDecompressMsg, henc, Except.map]
  · simp only [maybeDecompressMsg, henc, if_false]
    cases decompressPayload comp msg.data (Header.get msg.header headerContentEncoding) <;> rfl

-- What of preparePublish does not depend on the header.
def checkAndEncode (p : Publisher α) (subject : String) (msg : Message α) :
    Except GoError Bytes :=
  match checkPublish p subject msg with
  | some e => .error e
  | none =>
    match encode p.codec msg with
    | .ok data => .ok data
    | .error e => .error (.wrap ("publish encode subject=" ++ quoted subject ++ ": ") e "")

theorem encode_traced (p : Publisher α) (msg : Message α) :
    encode p.codec (traced p msg) = encode p.codec msg := rfl

theorem checkAndEncode_eq_ok {subject : String} {data : Bytes} :
    checkAndEncode p subject msg = .ok data ↔
      checkPublish p subject msg = none ∧ encode p.codec msg = .ok data := by
  unfold checkAndEncode
  cases checkPublish p subject msg with
  | some e => simp
  | none => cases encode p.codec msg <;> simp

theorem checkAndEncode_valid {subject : String} {data : Bytes}
    (h : checkAndEncode p subject msg = .ok data) : validMessageType msg.messageType = true := by
  have hcheck := (checkAndEncode_eq_ok.mp h).1
  unfold checkPublish at hcheck
  split at hcheck
  · cases hcheck
  · split at hcheck
    · cases hcheck
    · split_ifs at hcheck with hvalid
      simpa using hvalid

theorem preparePublish_of_ok {subject : String} {data : Bytes}
    (h : checkAndEncode p subject msg = .ok data) :
    preparePublish p subject msg =
      ({ contentTyped (traced p msg) with header :=
          (applyPayloadCompression p.comp p.payloadCompression data
            (contentTyped (traced p msg)).header).2 },
        .ok (applyPayloadCompression p.comp p.payloadCompression data
          (contentTyped (traced p msg)).header).1) := by
  obtain ⟨hcheck, hencode⟩ := checkAndEncode_eq_ok.mp h
  simp [preparePublish, hcheck, encode_traced, hencode]

theorem preparePublish_of_error {subject : String} {e : GoError}
    (h : checkAndEncode p subject msg = .error e) :
    (preparePublish p subject msg).2 = .error e ∧
      ((preparePublish p subject msg).1 = msg ∨
        (preparePublish p subject msg).1 = traced p msg) := by
  unfold checkAndEncode at h
  unfold preparePublish
  cases hcheck : checkPublish p subject msg with
  | some e' =>
    rw [hcheck] at h
    exact ⟨h, .inl rfl⟩
  | none =>
    rw [hcheck] at h
    simp only [encode_traced]
    cases hencode : encode p.codec msg with
    | error e' =>
      rw [hencode] at h
      exact ⟨h, .inr rfl⟩
    | ok data =>
      rw [hencode] at h
      cases h

theorem contentTyped_traced_lookup (p : Publisher α) (msg : Message α) {key : String}
    (hread : key ∈ readHeaders) (hne : key ≠ headerContentType) :
    (entries (contentTyped (traced p msg)).header).lookup key = (entries msg.header).lookup key :=
  (contentTyped_lookup_of_ne _ hne).trans (p.tracing.apart _ key hread)

-- What a consumer receives depends on the header only through the encoding, the
-- content type and the message id it starts with.
theorem preparePublish_received (hbr : p.comp.brotli.Inverts) (hgz : p.comp.gzip.Inverts)
    {subject : String} {data : Bytes} (hdata : checkAndEncode p subject msg = .ok data)
    (hlen : data.length ≤ maxPayloadDecompressBytes) :
    (preparePublish p subject msg).2.map
        (fun out => received p.comp (publishMsg subject (preparePublish p subject msg).1 out)) =
      .ok ⟨decompressPayload p.comp data (Header.get (entries msg.header) headerContentEncoding),
        reported msg.messageType (entries msg.header),
        Header.get (entries msg.header) headerMsgID⟩ := by
  have hce : Header.get (entries (contentTyped (traced p msg)).header) headerContentEncoding =
      Header.get (entries msg.header) headerContentEncoding :=
    Header.get_eq_of_lookup (contentTyped_traced_lookup p msg (by decide) (by decide))
  have hpay := applyPayloadCompression_decompress hbr hgz p.payloadCompression hlen
    (contentTyped (traced p msg)).header
  rw [hce] at hpay
  have hct := Header.get_eq_of_lookup (applyPayloadCompression_lookup_of_ne p.comp
    p.payloadCompression data (contentTyped (traced p msg)).header headerContentType (by decide))
  have hid := applyPayloadCompression_lookup_of_ne p.comp p.payloadCompression data
    (contentTyped (traced p msg)).header headerMsgID (by decide)
  rw [contentTyped_traced_lookup p msg (by decide) (by decide)] at hid
  have htype : messageTypeFromHeader (entries (contentTyped (traced p msg)).header) =
      reported msg.messageType (entries msg.header) :=
    (contentTyped_reported (traced p msg) (checkAndEncode_valid hdata)).trans
      (reported_congr (p.tracing.apart _ _ (by decide)) _)
  rw [← htype, ← hpay, ← Header.get_eq_of_lookup hid]
  rw [preparePublish_of_ok hdata]
  refine congrArg Except.ok ?_
  simp only [received, publishMsg, maybeDecompressMsg_data, messageTypeFromHeader, hct]

-- An encoding that is there stays, and so does a content type.
theorem preparePublish_header (p : Publisher α) (subject : String) (msg : Message α) :
    (Header.get (entries msg.header) headerContentEncoding ≠ "" →
      Header.get (entries (preparePublish p subject msg).1.header) headerContentEncoding =
        Header.get (entries msg.header) headerContentEncoding) ∧
    (headerContentType ∈ entries msg.header →
      (entries (preparePublish p subject msg).1.header).lookup headerContentType =
        (entries msg.header).lookup headerContentType) := by
  have htype := p.tracing.apart msg.header headerContentType (by decide)
  cases hdata : checkAndEncode p subject msg with
  | error e =>
    obtain hsame | htraced := (preparePublish_of_error hdata).2
    · rw [hsame]
      exact ⟨fun _ => rfl, fun _ => rfl⟩
    · rw [htraced]
      exact ⟨fun _ => Header.get_eq_of_lookup (p.tracing.apart _ _ (by decide)), fun _ => htype⟩
  | ok data =>
    rw [preparePublish_of_ok hdata]
    have hce : Header.get (entries (contentTyped (traced p msg)).header) headerContentEncoding =
        Header.get (entries msg.header) headerContentEncoding :=
      Header.get_eq_of_lookup (contentTyped_traced_lookup p msg (by decide) (by decide))
    refine ⟨fun henc => ?_, fun hmem => ?_⟩
    · rw [← hce] at henc
      rw [applyPayloadCompression_of_encoded p.comp p.payloadCompression data henc]
      exact hce
    · have hin : headerContentType ∈ entries (traced p msg).header := by
        rwa [← Finmap.lookup_isSome, traced, htype, Finmap.lookup_isSome]
      rw [applyPayloadCompression_lookup_of_ne p.comp p.payloadCompression data
        (contentTyped (traced p msg)).header headerContentType (by decide),
        contentTyped_lookup_of_mem _ hin]
      exact htype

end Prepare

section Calls

def Call.messageType : Call α → MessageType
  | .publishMessage _ _ messageType => messageType
  | .publishWithMsgID _ _ _ messageType => messageType
  | .publishBytesWithMsgID _ _ _ => .raw

-- The checks and the payload of a call, which do not depend on the map.
def Call.encoded (p : Publisher α) (c : Call α) : Except GoError Bytes :=
  checkAndEncode p c.subject (c.message none)

theorem checkAndEncode_message (p : Publisher α) (c : Call α) (cell : Option Header) :
    checkAndEncode p c.subject (c.message cell) = c.encoded p := by
  cases c <;> rfl

theorem message_lookup_of_ne (cell : Option Header) (hshares : c.shares = true) (key : String)
    (hne : key ≠ headerMsgID) :
    (entries (c.message cell).header).lookup key = (entries cell).lookup key := by
  cases c with
  | publishMessage subject data messageType => rfl
  | publishWithMsgID subject id data messageType =>
    simp [Call.message, Message.withMsgID, entries, Finmap.lookup_insert_of_ne _ hne]
  | publishBytesWithMsgID subject id data => cases hshares

theorem message_mem_iff (cell : Option Header) (hshares : c.shares = true) :
    headerContentType ∈ entries (c.message cell).header ↔ headerContentType ∈ entries cell := by
  rw [← Finmap.lookup_isSome, ← Finmap.lookup_isSome,
    message_lookup_of_ne cell hshares _ (by decide)]

theorem message_messageType (c : Call α) (cell : Option Header) :
    (c.message cell).messageType = c.messageType := by
  cases c <;> rfl

-- What the consumer receives of one call.
def seen (p : Publisher α) (cell : Option Header) (c : Call α) : Except GoError Received :=
  (publish p cell c).1.map (received p.comp)

theorem seen_of_error {e : GoError} (h : c.encoded p = .error e) (cell : Option Header) :
    seen p cell c = .error e := by
  have hdata := (checkAndEncode_message p c cell).trans h
  simp [seen, publish, (preparePublish_of_error hdata).1, Except.map]

theorem seen_of_ok (hbr : p.comp.brotli.Inverts) (hgz : p.comp.gzip.Inverts) {data : Bytes}
    (h : c.encoded p = .ok data) (hlen : data.length ≤ maxPayloadDecompressBytes)
    (cell : Option Header) :
    seen p cell c = .ok ⟨decompressPayload p.comp data
        (Header.get (entries (c.message cell).header) headerContentEncoding),
      reported c.messageType (entries (c.message cell).header),
      Header.get (entries (c.message cell).header) headerMsgID⟩ := by
  have hdata := (checkAndEncode_message p c cell).trans h
  have hr := preparePublish_received hbr hgz hdata hlen
  rw [message_messageType] at hr
  rw [← hr]
  simp only [seen, publish]
  cases (preparePublish p c.subject (c.message cell)).2 <;> rfl

-- What earlier calls can have done to the map: an encoding or a content type that
-- was there is still there.
structure Derived (cell₀ cell : Option Header) : Prop where
  encoding : Header.get (entries cell₀) headerContentEncoding ≠ "" →
    Header.get (entries cell) headerContentEncoding =
      Header.get (entries cell₀) headerContentEncoding
  contentType : headerContentType ∈ entries cell₀ →
    (entries cell).lookup headerContentType = (entries cell₀).lookup headerContentType

theorem Derived.refl (cell : Option Header) : Derived cell cell := ⟨fun _ => rfl, fun _ => rfl⟩

theorem publish_snd_of_shares (p : Publisher α) (h : Header) (hshares : c.shares = true) :
    (publish p (some h) c).2 = (preparePublish p c.subject (c.message (some h))).1.header := by
  simp [publish, hshares]

theorem Derived.publish (hd : Derived cell₀ cell) (p : Publisher α) (c : Call α) :
    Derived cell₀ (publish p cell c).2 := by
  by_cases hshares : c.shares = true
  swap
  · simpa [Publish.publish, hshares] using hd
  cases cell with
  | none => simpa [Publish.publish, hshares] using hd
  | some h =>
    obtain ⟨hce, hct⟩ := preparePublish_header p c.subject (c.message (some h))
    have hget := Header.get_eq_of_lookup
      (message_lookup_of_ne (some h) hshares headerContentEncoding (by decide))
    rw [publish_snd_of_shares p h hshares]
    refine ⟨fun henc => ?_, fun hmem => ?_⟩
    · rw [hce, hget, hd.encoding henc]
      rw [hget, hd.encoding henc]
      exact henc
    · have hlook := hd.contentType hmem
      have hin : headerContentType ∈ entries (some h) := by
        rw [← Finmap.lookup_isSome, hlook, Finmap.lookup_isSome]
        exact hmem
      rw [hct ((message_mem_iff _ hshares).mpr hin),
        message_lookup_of_ne _ hshares _ (by decide), hlook]

-- What is in the map when the call is made does not show: its encoding, content
-- type and message id are those of the original map, or the ones of the call.
structure Harmless (p : Publisher α) (cell₀ cell : Option Header) (c : Call α) (data : Bytes) :
    Prop where
  encoding : Header.get (entries cell) headerContentEncoding =
      Header.get (entries cell₀) headerContentEncoding ∨
    decompressPayload p.comp data (Header.get (entries cell) headerContentEncoding) = .ok data
  contentType : headerContentType ∈ entries cell₀ ∨ headerContentType ∉ entries cell ∨
    messageTypeFromHeader (entries cell) = reported c.messageType ∅
  msgID : c.setsID = true ∨
    Header.get (entries cell) headerMsgID = Header.get (entries cell₀) headerMsgID

-- Only calls that use the map and reach the wire are concerned.
def Undisturbed (p : Publisher α) (cell₀ cell : Option Header) (c : Call α) : Prop :=
  ∀ data, c.shares = true → c.encoded p = .ok data → Harmless p cell₀ cell c data

theorem reported_of_notMem {h : Header} (hmem : headerContentType ∉ h)
    (messageType : MessageType) : reported messageType h = reported messageType ∅ :=
  reported_congr (by rw [Finmap.lookup_eq_none.mpr hmem, Finmap.lookup_empty]) messageType

theorem Derived.reported_iff (hd : Derived cell₀ cell) (messageType : MessageType) :
    reported messageType (entries cell) = reported messageType (entries cell₀) ↔
      headerContentType ∈ entries cell₀ ∨ headerContentType ∉ entries cell ∨
        messageTypeFromHeader (entries cell) = reported messageType ∅ := by
  by_cases h₀ : headerContentType ∈ entries cell₀
  · exact iff_of_true (reported_congr (hd.contentType h₀) messageType) (.inl h₀)
  · rw [reported_of_notMem h₀]
    by_cases h : headerContentType ∈ entries cell
    · have hr : reported messageType (entries cell) = messageTypeFromHeader (entries cell) :=
        if_pos (.inr h)
      simp [h₀, h, hr]
    · exact iff_of_true (reported_of_notMem h messageType) (.inr (.inl h))

theorem Derived.payload_iff (hd : Derived cell₀ cell) (comp : Compressors) (data : Bytes) :
    decompressPayload comp data (Header.get (entries cell) headerContentEncoding) =
        decompressPayload comp data (Header.get (entries cell₀) headerContentEncoding) ↔
      Header.get (entries cell) headerContentEncoding =
          Header.get (entries cell₀) headerContentEncoding ∨
        decompressPayload comp data (Header.get (entries cell) headerContentEncoding) =
          .ok data := by
  by_cases henc : Header.get (entries cell₀) headerContentEncoding = ""
  · rw [henc, decompressPayload_empty]
    refine ⟨.inr, ?_⟩
    rintro (h | h)
    · rw [h, decompressPayload_empty]
    · exact h
  · have he := hd.encoding henc
    exact iff_of_true (by rw [he]) (.inl he)

theorem message_msgID_iff (hshares : c.shares = true) :
    Header.get (entries (c.message cell).header) headerMsgID =
        Header.get (entries (c.message cell₀).header) headerMsgID ↔
      c.setsID = true ∨
        Header.get (entries cell) headerMsgID = Header.get (entries cell₀) headerMsgID := by
  cases c with
  | publishMessage subject data messageType => simp [Call.message, Call.setsID]
  | publishWithMsgID subject id data messageType =>
    simp [Call.message, Call.setsID, Message.withMsgID, entries]
  | publishBytesWithMsgID subject id data => cases hshares

theorem seen_eq_iff (hbr : p.comp.brotli.Inverts) (hgz : p.comp.gzip.Inverts)
    (hlen : ∀ data, c.encoded p = .ok data → data.length ≤ maxPayloadDecompressBytes)
    (hd : Derived cell₀ cell) : seen p cell c = seen p cell₀ c ↔ Undisturbed p cell₀ cell c := by
  cases hdata : c.encoded p with
  | error e =>
    refine iff_of_true ?_ fun data _ h => ?_
    · rw [seen_of_error hdata, seen_of_error hdata]
    · rw [hdata] at h
      cases h
  | ok data =>
    cases hshares : c.shares with
    | false =>
      refine iff_of_true ?_ fun data h _ => ?_
      · cases c with
        | publishBytesWithMsgID subject id data => rfl
        | _ => cases hshares
      · rw [hshares] at h
        cases h
    | true =>
      have hce (cell) := Header.get_eq_of_lookup
        (message_lookup_of_ne cell hshares headerContentEncoding (by decide))
      have hct (cell) := reported_congr
        (message_lookup_of_ne cell hshares headerContentType (by decide)) c.messageType
      rw [seen_of_ok hbr hgz hdata (hlen data hdata), seen_of_ok hbr hgz hdata
        (hlen data hdata), Except.ok.injEq, Received.mk.injEq, hce, hce, hct, hct,
        hd.payload_iff, hd.reported_iff, message_msgID_iff hshares]
      constructor
      · rintro ⟨h1, h2, h3⟩ data' _ hdata'
        obtain rfl : data = data' := Except.ok.inj (hdata.symm.trans hdata')
        exact ⟨h1, h2, h3⟩
      · intro h
        obtain ⟨h1, h2, h3⟩ := h data hshares hdata
        exact ⟨h1, h2, h3⟩

end Calls

section Sequences

def step (p : Publisher α) (cell : Option Header) (c : Call α) : Option (Option Header) :=
  some (publish p cell c).2

theorem publishAll_seen_iff (hbr : p.comp.brotli.Inverts) (hgz : p.comp.gzip.Inverts)
    (calls : List (Call α))
    (hlen : ∀ c ∈ calls, ∀ data, c.encoded p = .ok data →
      data.length ≤ maxPayloadDecompressBytes)
    (hd : Derived cell₀ cell) :
    (publishAll p cell calls).map (Except.map (received p.comp)) = calls.map (seen p cell₀) ↔
      Along (step p) (Undisturbed p cell₀) cell calls := by
  induction calls generalizing cell with
  | nil => exact iff_of_true rfl trivial
  | cons c rest ih =>
    have hc := seen_eq_iff hbr hgz (hlen c (by simp)) hd
    have hrest := ih (fun c hc => hlen c (by simp [hc])) (hd.publish p c)
    simp only [publishAll, List.map_cons, List.cons.injEq, Along]
    refine and_congr hc (hrest.trans ⟨fun h next hn => ?_, fun h => h _ rfl⟩)
    cases hn
    exact h

-- Each message of a sequence of calls arrives as if its call had been made alone on
-- the original map, exactly if no call finds the map disturbed.
theorem publishAll_independent_iff (p : Publisher α) (hbr : p.comp.brotli.Inverts)
    (hgz : p.comp.gzip.Inverts) (header : Option Header) (calls : List (Call α))
    (hlen : ∀ c ∈ calls, ∀ data, c.encoded p = .ok data →
      data.length ≤ maxPayloadDecompressBytes) :
    (publishAll p header calls).map (Except.map (received p.comp)) =
        calls.map (fun c => (publish p header c).1.map (received p.comp)) ↔
      Along (step p) (Undisturbed p header) header calls :=
  publishAll_seen_iff hbr hgz calls hlen (.refl header)

-- A publisher whose compressors never shrink anything.
def storing : Publisher Unit where
  codec := ⟨fun _ => .ok [], fun _ => some (.ok []), fun _ => .ok []⟩
  comp := ⟨⟨.ok, fun data => (data, none)⟩, ⟨.ok, fun data => (data, none)⟩⟩
  payloadCompression := .auto
  skipSubjectValidation := false
  reconnectBufDisabled := false
  connected := true
  tracing := .off

def rawCall (data : Bytes) : Call Unit := .publishMessage "s" (.bytes data) .raw

def oneEntry : Option Header := some ((∅ : Header).insert "k" ["v"])

theorem publishAll_independent_iff_raw_retry :
    (publishAll storing oneEntry [rawCall [1], rawCall [1]]).map
        (Except.map (received storing.comp)) =
      [rawCall [1], rawCall [1]].map
        (fun c => (publish storing oneEntry c).1.map (received storing.comp)) := by
  have hinv : storing.comp.brotli.Inverts ∧ storing.comp.gzip.Inverts := by
    constructor <;> rintro plain packed ⟨⟩ <;> rfl
  refine (publishAll_independent_iff storing hinv.1 hinv.2 oneEntry _ ?_).mpr ?_
  · intro c hc data hdata
    obtain rfl : c = rawCall [1] := by simpa using hc
    obtain rfl : [1] = data := Except.ok.inj hdata
    decide
  · refine ⟨fun data _ _ => ⟨.inl rfl, .inr (.inl (by decide)), .inr rfl⟩, ?_⟩
    rintro next ⟨⟩
    exact ⟨fun data _ _ => ⟨.inl rfl, .inr (.inl (by decide)), .inr rfl⟩, fun _ _ => trivial⟩

def large : Bytes := List.replicate 32769 7

def packing : Publisher Unit :=
  { storing with comp := ⟨packer large, packer large⟩, payloadCompression := .brotli }

theorem large_length : large.length = 32769 := List.length_replicate

theorem packing_payload (cell : Option Header) :
    (publish packing cell (rawCall large)).1.map (fun m => (received packing.comp m).payload) =
      .ok (decompressPayload packing.comp large
        (Header.get (entries cell) headerContentEncoding)) := by
  have hlen : large.length ≤ maxPayloadDecompressBytes := by
    rw [large_length]
    decide
  have hseen := seen_of_ok (p := packing) (packer_inverts _) (packer_inverts _)
    (show (rawCall large).encoded packing = .ok large from rfl) hlen cell
  unfold seen at hseen
  cases hp : (publish packing cell (rawCall large)).1 with
  | error e => simp [hp, Except.map] at hseen
  | ok m =>
    simp only [hp, Except.map, Except.ok.injEq] at hseen
    simp only [Except.map, hseen]
    rfl

theorem packing_compresses :
    applyPayloadCompression packing.comp packing.payloadCompression large (some ∅) =
      ([1], some ((∅ : Header).insert headerContentEncoding [encodingBrotli])) := by
  have hc : compressed packing.comp .brotli large = some ([1], encodingBrotli) :=
    packer_compressed (by rw [large_length]; decide)
  simp [applyPayloadCompression, show packing.payloadCompression = .brotli from rfl, hc,
    contentEncodingFromHeader, Header.get]

theorem packing_leaves_encoding :
    (publish packing (some ∅) (rawCall large)).2 =
      some ((∅ : Header).insert headerContentEncoding [encodingBrotli]) := by
  have hdata : checkAndEncode packing (rawCall large).subject ((rawCall large).message (some ∅)) =
      .ok large := rfl
  have htyped : (contentTyped (traced packing ((rawCall large).message (some ∅)))).header =
      some ∅ := rfl
  rw [publish_snd_of_shares packing ∅ rfl, preparePublish_of_ok hdata, htyped, packing_compresses]

-- On a shared map a message id and a content type stick to the next message, and the
-- second publish of a compressed message arrives as plain bytes under the encoding
-- that the first one left.
theorem publishAll_shares_header :
    (publishAll storing (some ∅) [.publishWithMsgID "s" "1" (.bytes [1]) .raw, rawCall [2]]).map
        (Except.map fun m => (received storing.comp m).msgID) = [.ok "1", .ok "1"] ∧
    (publish storing (some ∅) (rawCall [2])).1.map
        (fun m => (received storing.comp m).msgID) = .ok "" ∧
    (publishAll storing (some ∅) [.publishMessage "s" (.value ()) .proto,
        .publishMessage "s" (.value ()) .messagePack]).map
        (Except.map fun m => (received storing.comp m).messageType) = [.ok .proto, .ok .proto] ∧
    (publish storing (some ∅) (.publishMessage "s" (.value ()) .messagePack)).1.map
        (fun m => (received storing.comp m).messageType) = .ok .messagePack ∧
    (publishAll packing (some ∅) [rawCall large, rawCall large]).map
        (Except.map fun m => (received packing.comp m).payload) =
      [.ok (.ok large),
        .ok (.error (.wrap "brotli decompress: " (.foreign "corrupt input" []) ""))] := by
  refine ⟨rfl, rfl, rfl, rfl, ?_⟩
  have henc : Header.get (entries (publish packing (some ∅) (rawCall large)).2)
      headerContentEncoding = encodingBrotli := by
    rw [packing_leaves_encoding]
    rfl
  simp only [publishAll, List.map_cons, List.map_nil, packing_payload, henc, decompressPayload_br]
  rfl

end Sequences

end NatsClient.Publish
