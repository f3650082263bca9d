import NatsClient.Dlq.Redelivery

namespace NatsClient.Dlq

-- nats.go reads the metadata off the reply subject of a bound message.
structure ReadsReply (platform : Platform) : Prop where
  address : ∀ m other, m.reply = other.reply → m.bound = other.bound →
    platform.metadata m = platform.metadata other
  bound : ∀ m md, platform.metadata m = some md → m.bound = true
  reply : ∀ m md, platform.metadata m = some md → m.reply ≠ ""

-- The payload reaches the handler: it is not to be decompressed, or it can be.
def Decodes (comp : Compressors) (runtime : RuntimeConsumerConfig) (msg : Msg) : Prop :=
  runtime.payloadDecompression = true → ∃ opened, maybeDecompressMsg comp msg = .ok opened

-- The message went to the DLQ subject and was Term'd, not Nak'd.
def DeadLettered (subject : String) (d : Delivery) : Prop :=
  (∃ raw, .dlqPublish subject raw none ∈ d.log ∧ raw.data = d.msg.data) ∧
    (∃ err, .settle .term err ∈ d.log) ∧ ∀ delay err, .settle (.nak delay) err ∉ d.log

theorem decodes_iff {comp : Compressors} {runtime : RuntimeConsumerConfig} {msg : Msg} :
    Decodes comp runtime msg ↔
      ∃ m, (if runtime.payloadDecompression then maybeDecompressMsg comp msg else .ok msg) =
        .ok m := by
  unfold Decodes
  cases runtime.payloadDecompression <;> simp

theorem termUpTo_msg (wire : Wire) (n : Nat) (d : Delivery) (last : Option GoError) :
    (termUpTo wire n d last).1.msg = d.msg := by
  induction n generalizing d last with
  | zero => rfl
  | succ n ih =>
    simp only [termUpTo, Delivery.settle]
    cases d.ackError wire with
    | none => rfl
    | some err => exact ih _ _

-- One Term call that goes out within the attempts settles the message.
theorem termUpTo_settlement {wire : Wire} {n : Nat} {d : Delivery} (last : Option GoError)
    (hbound : d.msg.bound = true) (hreply : d.msg.reply ≠ "") (hopen : d.settlement = none)
    (hsent : ∃ k < n, wire.ackResult (d.log.countP Event.isSettle + k) = none) :
    (termUpTo wire n d last).1.settlement = some .term := by
  induction n generalizing d last with
  | zero =>
    obtain ⟨k, hk, _⟩ := hsent
    exact absurd hk (Nat.not_lt_zero k)
  | succ n ih =>
    have hack : d.ackError wire = wire.ackResult (d.log.countP Event.isSettle) := by
      simp [Delivery.ackError, hbound, hreply, Delivery.ackd, hopen]
    simp only [termUpTo, Delivery.settle]
    cases he : d.ackError wire with
    | none => simp [hopen, Event.sent?]
    | some err =>
      apply ih
      · exact hbound
      · exact hreply
      · simp [hopen, Event.sent?]
      · obtain ⟨k, hk, hnone⟩ := hsent
        cases k with
        | zero =>
          rw [Nat.add_zero, ← hack, he] at hnone
          cases hnone
        | succ k =>
          refine ⟨k, Nat.lt_of_succ_lt_succ hk, ?_⟩
          rw [← hnone]
          congr 1
          simp [List.countP_append, Event.isSettle]
          omega

-- The log of a route whose publish succeeds on an untouched delivery.
structure Routed (wire : Wire) (subject : String) (msg : Msg) (d : Delivery) : Prop where
  msg_eq : d.msg = msg
  log : ∃ raw after, d.log = .dlqPublish subject raw none :: after ∧ raw.data = msg.data ∧
    (∃ err, .settle .term err ∈ after) ∧
    ∀ e ∈ after, (∃ err, e = .settle .term err) ∨ ∃ record, e = .dlqRecord record
  settlement : msg.bound = true → msg.reply ≠ "" → (∃ k < 3, wire.ackResult k = none) →
    d.settlement = some .term

theorem Routed.record {wire : Wire} {subject : String} {msg : Msg} {d : Delivery}
    (h : Routed wire subject msg d) (record : DlqRecord) :
    Routed wire subject msg (d.push (.dlqRecord record)) := by
  obtain ⟨raw, after, hlog, hdata, ⟨err, herr⟩, hafter⟩ := h.log
  refine ⟨h.msg_eq, ⟨raw, after ++ [.dlqRecord record], ?_, hdata, ⟨err, ?_⟩, ?_⟩, ?_⟩
  · simp [hlog]
  · exact List.mem_append_left _ herr
  · intro e he
    rcases List.mem_append.mp he with he | he
    · exact hafter e he
    · exact .inr ⟨record, List.mem_singleton.mp he⟩
  · intro hbound hreply hsent
    simp [h.settlement hbound hreply hsent]

theorem Routed.deadLettered {wire : Wire} {subject : String} {msg : Msg} {d : Delivery}
    (h : Routed wire subject msg d) : DeadLettered subject d := by
  obtain ⟨raw, after, hlog, hdata, ⟨err, herr⟩, hafter⟩ := h.log
  refine ⟨⟨raw, by simp [hlog], by rw [hdata, h.msg_eq]⟩, ⟨err, by simp [hlog, herr]⟩, ?_⟩
  intro delay nakErr hmem
  rw [hlog] at hmem
  rcases List.mem_cons.mp hmem with hmem | hmem
  · cases hmem
  · rcases hafter _ hmem with ⟨_, he⟩ | ⟨_, he⟩ <;> cases he

-- A route whose publish succeeds leads to an error that is ErrDLQRouted, or to none.
theorem route_routed (platform : Platform) {wire : Wire}
    (hpublish : ∀ k, wire.publishResult k = none) (cfg : Config) (msg : Msg) (reason : String)
    (info : AutopsyInfo) :
    Routed wire cfg.subject msg (route platform wire cfg ⟨msg, []⟩ reason info).1 ∧
      ∀ e, (route platform wire cfg ⟨msg, []⟩ reason info).2 = some e →
        e.is .errDLQRouted = true := by
  simp only [route, hpublish]
  generalize hraw : (RawPublish.mk (routeHeaders platform cfg msg reason info) msg.data) = raw
  generalize hstart : (⟨msg, []⟩ : Delivery).push (.dlqPublish cfg.subject raw none) = start
  have hmsg : (termUpTo wire 3 start none).1.msg = msg := by
    rw [termUpTo_msg, ← hstart]
    rfl
  obtain ⟨terms, hlog, hterms, hsome⟩ := termUpTo_log wire 3 start none
  have hrouted : Routed wire cfg.subject msg (termUpTo wire 3 start none).1 := by
    refine ⟨hmsg, ⟨raw, terms, ?_, ?_, ?_, fun e he => .inl (hterms e he)⟩, ?_⟩
    · rw [hlog, ← hstart]
      rfl
    · rw [← hraw]
    · obtain ⟨first, hfirst⟩ := List.exists_mem_of_ne_nil _ (hsome (by decide))
      obtain ⟨err, rfl⟩ := hterms first hfirst
      exact ⟨err, hfirst⟩
    · intro hbound hreply hsent
      subst hstart
      exact termUpTo_settlement none hbound hreply rfl (by simpa [Event.isSettle] using hsent)
  cases hterm : termUpTo wire 3 start none with
  | mk next termErr =>
    rw [hterm] at hrouted
    cases termErr with
    | some e =>
      refine ⟨hrouted, ?_⟩
      rintro _ ⟨⟩
      simp
    | none =>
      refine ⟨?_, by simp⟩
      simp only
      split_ifs
      · exact hrouted.record _
      · exact hrouted

-- A wrapper beyond its limit routes, whatever handler it wraps.
theorem dlqWith_routed (platform : Platform) {wire : Wire}
    (hpublish : ∀ k, wire.publishResult k = none) {cfg : Config} (hpub : cfg.publisher = true)
    (hsub : cfg.subject ≠ "") (handler : Handler) {msg : Msg}
    (hx : exhausted platform cfg.withDefaults msg = true) :
    Routed wire cfg.subject msg (dlqWith platform wire cfg handler ⟨msg, []⟩).1 ∧
      ∃ e, (dlqWith platform wire cfg handler ⟨msg, []⟩).2 = .returned (some e) ∧
        e.is .errDLQRouted = true := by
  simp only [dlqWith, hpub, hsub, Bool.not_true, Bool.false_eq_true, if_false, wrapped, hx, if_true]
  obtain ⟨hrouted, herr⟩ := route_routed platform hpublish cfg.withDefaults msg
    cfg.withDefaults.reason
    (fillAutopsyStack platform ⟨cfg.withDefaults.reason, []⟩ cfg.withDefaults.autopsy)
  split
  next next e hroute =>
    rw [hroute] at hrouted herr
    exact ⟨hrouted, e, rfl, herr e rfl⟩
  next next hroute =>
    rw [hroute] at hrouted
    exact ⟨hrouted, _, rfl, rfl⟩

section Delivery

variable {comp : Compressors} {runtime : RuntimeConsumerConfig} {platform : Platform} {wire : Wire}
  {cfg : Config} {msg : Msg} {md : MsgMetadata}

-- What the consumer cannot open it Naks, and no handler sees it.
theorem processMessage_undecoded (wire : Wire) (handler : Handler)
    (hno : ¬ Decodes comp runtime msg) :
    (processMessage comp runtime wire handler ⟨msg, []⟩).1 =
      ⟨msg, [.settle (.nak 0) ((⟨msg, []⟩ : Delivery).ackError wire)]⟩ := by
  cases hopen : (if runtime.payloadDecompression then maybeDecompressMsg comp msg else .ok msg) with
  | ok m => exact absurd (decodes_iff.mpr ⟨m, hopen⟩) hno
  | error e => simp [processMessage, hopen, recordProcessError, Delivery.settle, Delivery.push]

theorem undecoded_not_deadLettered (wire : Wire) (handler : Handler) (subject : String)
    (hno : ¬ Decodes comp runtime msg) :
    ¬ DeadLettered subject (processMessage comp runtime wire handler ⟨msg, []⟩).1 := by
  rw [processMessage_undecoded wire handler hno]
  rintro ⟨⟨raw, hraw, -⟩, -⟩
  simp at hraw

-- What it opens reaches the wrapper with the position of the delivery.
theorem processMessage_routed (hread : ReadsReply platform)
    (hpublish : ∀ k, wire.publishResult k = none) (hpub : cfg.publisher = true)
    (hsub : cfg.subject ≠ "") (hlimit : 1 ≤ cfg.maxDeliver) (handler : Handler)
    (hmd : platform.metadata msg = some md) (hbeyond : cfg.maxDeliver < md.numDelivered)
    (hdec : Decodes comp runtime msg) :
    ∃ m, platform.metadata m = some md ∧ Routed wire cfg.subject m
      (processMessage comp runtime wire (dlqWith platform wire cfg handler) ⟨msg, []⟩).1 := by
  obtain ⟨m, hopen⟩ := decodes_iff.mp hdec
  obtain ⟨hbound, hreply⟩ := opened_address hopen
  have hmeta : platform.metadata m = some md := (hread.address m msg hreply hbound).trans hmd
  have hx : exhausted platform cfg.withDefaults m = true := by
    have hpos : 0 < cfg.withDefaults.maxDeliver := hlimit
    have hlt : cfg.withDefaults.maxDeliver < md.numDelivered := hbeyond
    simp [exhausted, hmeta, hpos, hlt]
  obtain ⟨hrouted, e, he, hr⟩ := dlqWith_routed platform hpublish hpub hsub handler hx
  refine ⟨m, hmeta, ?_⟩
  simpa only [processMessage, hopen, invokeMsgHandler, he, Outcome.err, settleOutcome_some_fst, hr,
    if_true] using hrouted

-- A handler that fails and asks for nothing.
def failing : Handler := fun d => (d, .returned (some (.sentinel .canceled)))

-- Without the metadata the wrapper counts no delivery: it leaves the message to the handler.
theorem unread_not_deadLettered (hread : ReadsReply platform)
    (hmd : platform.metadata msg = none) (subject : String) :
    ¬ DeadLettered subject
      (processMessage comp runtime wire (dlqWith platform wire cfg failing) ⟨msg, []⟩).1 := by
  by_cases hdec : Decodes comp runtime msg
  · obtain ⟨m, hopen⟩ := decodes_iff.mp hdec
    obtain ⟨hbound, hreply⟩ := opened_address hopen
    have hmeta : platform.metadata m = none := (hread.address m msg hreply hbound).trans hmd
    have hwith : dlqWith platform wire cfg failing ⟨m, []⟩ = failing ⟨m, []⟩ := by
      unfold dlqWith
      split_ifs
      · rfl
      · rfl
      · simp [wrapped, exhausted, hmeta, failing]
    rintro ⟨⟨raw, hraw, -⟩, -⟩
    simp [processMessage, hopen, invokeMsgHandler, hwith, failing, Outcome.err,
      settleOutcome_some_fst, recordProcessError] at hraw
  · exact undecoded_not_deadLettered wire _ subject hdec

end Delivery

-- The delivery whose number is beyond the limit of the wrapper is dead-lettered for every
-- handler exactly if its payload gets past the consumer to the wrapper and the wrapper can read
-- the number. A payload that the consumer cannot open it Naks, and nothing else happens.
theorem dead_lettered_iff_decodes (comp : Compressors) (runtime : RuntimeConsumerConfig)
    (platform : Platform) (hread : ReadsReply platform) (wire : Wire)
    (hpublish : ∀ k, wire.publishResult k = none) (cfg : Config) (hpub : cfg.publisher = true)
    (hsub : cfg.subject ≠ "") (hlimit : 1 ≤ cfg.maxDeliver) (msg : Msg) (n : Nat)
    (hnum : ∀ md, platform.metadata msg = some md → md.numDelivered = n)
    (hbeyond : cfg.maxDeliver < n) :
    let d := fun handler =>
      (processMessage comp runtime wire (dlqWith platform wire cfg handler) ⟨msg, []⟩).1
    ((∀ handler, DeadLettered cfg.subject (d handler)) ↔
        Decodes comp runtime msg ∧ (platform.metadata msg).isSome = true) ∧
      ∀ handler,
        ((platform.metadata msg).isSome = true →
          (DeadLettered cfg.subject (d handler) ↔ Decodes comp runtime msg) ∧
            (Decodes comp runtime msg → (∃ k < 3, wire.ackResult k = none) →
              (d handler).settlement = some .term)) ∧
          (¬ Decodes comp runtime msg → (d handler).msg = msg ∧
            (d handler).log = [.settle (.nak 0) ((⟨msg, []⟩ : Delivery).ackError wire)]) := by
  intro d
  have hrouted (md : MsgMetadata) (hmd : platform.metadata msg = some md)
      (hdec : Decodes comp runtime msg) (handler : Handler) :=
    processMessage_routed hread hpublish hpub hsub hlimit handler hmd
      (hnum md hmd ▸ hbeyond) hdec
  refine ⟨⟨fun hall => ⟨?_, ?_⟩, fun ⟨hdec, hsome⟩ handler => ?_⟩,
    fun handler => ⟨fun hsome => ?_, fun hno => ?_⟩⟩
  · by_contra hno
    exact undecoded_not_deadLettered wire _ _ hno (hall failing)
  · by_contra hnone
    exact unread_not_deadLettered hread (by simpa using hnone) _ (hall failing)
  · obtain ⟨md, hmd⟩ := Option.isSome_iff_exists.mp hsome
    obtain ⟨m, -, h⟩ := hrouted md hmd hdec handler
    exact h.deadLettered
  · obtain ⟨md, hmd⟩ := Option.isSome_iff_exists.mp hsome
    refine ⟨⟨fun hdead => ?_, fun hdec => ?_⟩, fun hdec hsent => ?_⟩
    · by_contra hno
      exact undecoded_not_deadLettered wire _ _ hno hdead
    · obtain ⟨m, -, h⟩ := hrouted md hmd hdec handler
      exact h.deadLettered
    · obtain ⟨m, hmeta, h⟩ := hrouted md hmd hdec handler
      exact h.settlement (hread.bound m md hmeta) (hread.reply m md hmeta) hsent
  · have hd : d handler = ⟨msg, [.settle (.nak 0) ((⟨msg, []⟩ : Delivery).ackError wire)]⟩ :=
      processMessage_undecoded wire _ hno
    rw [hd]
    exact ⟨rfl, rfl⟩

-- The platform and the message of the two runs below.
def encodedOrder (encoding : String) (n : Nat) : Msg :=
  ⟨"orders.new", ackReply n, (∅ : Header).insert headerContentEncoding [encoding], [1], true⟩

def orderPlatform : Platform where
  metadata m := if m.bound ∧ m.reply ≠ "" then some ⟨"ORDERS", "worker", 7, ackNumber m.reply⟩
    else none
  sha256Hex _ := ""
  stack := []

theorem orderPlatform_readsReply : ReadsReply orderPlatform where
  address m other hreply hbound := by simp [orderPlatform, hreply, hbound]
  bound m md hmd := (Option.ite_none_right_eq_some.mp hmd).1.1
  reply m md hmd := (Option.ite_none_right_eq_some.mp hmd).1.2

theorem orderPlatform_encodedOrder (encoding : String) (n : Nat) :
    orderPlatform.metadata (encodedOrder encoding n) = some ⟨"ORDERS", "worker", 7, n⟩ := by
  simp [orderPlatform, encodedOrder, ackReply_ne_empty, ackNumber_ackReply]

-- A payload that is not to be decompressed is dead-lettered on its fourth delivery under a
-- limit of three.
theorem dead_lettered_iff_decodes_raw :
    DeadLettered "orders.dlq" (processMessage rejectedOrder.comp ⟨1, 1, false, false⟩
      (rejectedOrder.wire 4) (dlqWith orderPlatform (rejectedOrder.wire 4) (orderDlq 3)
        (innermost (rejectedOrder.run 4))) ⟨encodedOrder "zstd" 4, []⟩).1 :=
  ((dead_lettered_iff_decodes rejectedOrder.comp ⟨1, 1, false, false⟩ orderPlatform
    orderPlatform_readsReply (rejectedOrder.wire 4) (fun _ => rfl) (orderDlq 3) rfl (by decide)
    (by decide) (encodedOrder "zstd" 4) 4 (fun _ hmd => by
      rw [orderPlatform_encodedOrder] at hmd
      cases hmd
      rfl) (by decide)).1).mpr
    ⟨(fun h => by cases h), by rw [orderPlatform_encodedOrder]; rfl⟩
    (innermost (rejectedOrder.run 4))

-- An encoding the consumer does not know: the ninth delivery under a limit of three is Nak'd,
-- and the DLQ gets nothing.
theorem unknown_encoding_not_dead_lettered :
    let d := (processMessage rejectedOrder.comp ⟨1, 1, false, true⟩ (rejectedOrder.wire 9)
      (dlqWith orderPlatform (rejectedOrder.wire 9) (orderDlq 3)
        (innermost (rejectedOrder.run 9))) ⟨encodedOrder "zstd" 9, []⟩).1
    d.log = [.settle (.nak 0) none] ∧ d.settlement = some (.nak 0) ∧
      ¬ DeadLettered "orders.dlq" d := by
  intro d
  have hname : toLower (trimSpace "zstd") = "zstd" := by decide
  have hopen : ∃ e, maybeDecompressMsg rejectedOrder.comp (encodedOrder "zstd" 9) = .error e := by
    refine ⟨.wrap "" (.sentinel .errUnsupportedContentEncoding) (": " ++ quoted "zstd"), ?_⟩
    simp [maybeDecompressMsg, encodedOrder, decompressPayload, hname, encodingBrotli, encodingGzip]
  obtain ⟨e, he⟩ := hopen
  have hack : (⟨encodedOrder "zstd" 9, []⟩ : Delivery).ackError (rejectedOrder.wire 9) = none := by
    simp [Delivery.ackError, encodedOrder, ackReply_ne_empty, Delivery.ackd, Delivery.settlement,
      rejectedOrder]
  have hd : d.log = [.settle (.nak 0) none] := by
    simp [d, processMessage, he, recordProcessError, hack]
  refine ⟨hd, by simp [Delivery.settlement, hd, Event.sent?], fun hdead => ?_⟩
  exact hdead.2.2 0 none (by simp [hd])

end NatsClient.Dlq
