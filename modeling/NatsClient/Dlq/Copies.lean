import NatsClient.Dlq.Redrive
import Mathlib.Tactic.SplitIfs

namespace NatsClient.Dlq

section Headers

variable (platform : Platform) (cfg : Config) (msg : Msg) (reason : String) (info : AutopsyInfo)

def copiedHeaders : List String := [headerTraceID, headerMsgID, headerContentType]

-- The headers of the copy before the choice of its id.
def labelled : Header :=
  let h : Header := ((∅ : Header).insert headerOriginalSubject [msg.subject]).insert
    headerReason [reason]
  let h := copiedHeaders.foldl (copyHeader msg) h
  let h := match platform.metadata msg with
    | some md => metadataHeaders h md
    | none => h
  if cfg.autopsy.enabled then applyAutopsyHeaders platform h cfg.autopsy msg.data info else h

theorem routeHeaders_eq : routeHeaders platform cfg msg reason info =
    if Header.get (labelled platform cfg msg reason info) headerMsgID = "" then
      match platform.metadata msg with
      | some md => (labelled platform cfg msg reason info).insert headerMsgID
          ["dlq-" ++ md.stream ++ "-" ++ toString md.streamSeq]
      | none => labelled platform cfg msg reason info
    else labelled platform cfg msg reason info := rfl

variable {key : String}

-- The DLQ's own headers do not shadow others.
theorem lookup_insert_dlq (hkey : key ∉ dlqHeaders) {name : String} (hname : name ∈ dlqHeaders)
    (h : Header) (values : List String) : (h.insert name values).lookup key = h.lookup key :=
  Finmap.lookup_insert_of_ne _ fun heq : key = name => hkey (heq ▸ hname)

theorem metadataHeaders_lookup (hkey : key ∉ dlqHeaders) (h : Header) (md : MsgMetadata) :
    (metadataHeaders h md).lookup key = h.lookup key := by
  unfold metadataHeaders
  rw [lookup_insert_dlq hkey (by decide), lookup_insert_dlq hkey (by decide),
    lookup_insert_dlq hkey (by decide), lookup_insert_dlq hkey (by decide)]

theorem applyAutopsyHeaders_lookup (hkey : key ∉ dlqHeaders) (h : Header)
    (autopsy : AutopsyConfig) (data : Bytes) :
    (applyAutopsyHeaders platform h autopsy data info).lookup key = h.lookup key := by
  have hite : ∀ (p : Prop) [Decidable p] (a b : Header), a.lookup key = b.lookup key →
      (if p then a else b).lookup key = b.lookup key := by
    intro p _ a b hab
    split_ifs
    · exact hab
    · rfl
  unfold applyAutopsyHeaders
  simp only
  rw [hite _ _ _ (lookup_insert_dlq hkey (by decide) _ _)]
  split_ifs
  · rw [lookup_insert_dlq hkey (by decide)]
  · rw [lookup_insert_dlq hkey (by decide), lookup_insert_dlq hkey (by decide)]

theorem copyHeader_lookup (h : Header) (name : String) :
    (copyHeader msg h name).lookup key =
      if key = name ∧ Header.get msg.header key ≠ "" then some [Header.get msg.header key]
      else h.lookup key := by
  unfold copyHeader
  simp only
  by_cases hname : key = name
  · subst hname
    split_ifs with hempty <;> simp_all
  · split_ifs with hempty <;> simp_all [Finmap.lookup_insert_of_ne]

theorem foldl_copyHeader_lookup (names : List String) (h : Header) :
    (names.foldl (copyHeader msg) h).lookup key =
      if key ∈ names ∧ Header.get msg.header key ≠ "" then some [Header.get msg.header key]
      else h.lookup key := by
  induction names generalizing h with
  | nil => simp
  | cons name names ih =>
    rw [List.foldl_cons, ih, copyHeader_lookup]
    by_cases hmem : key ∈ names <;> by_cases hempty : Header.get msg.header key = "" <;>
      simp [hmem, hempty]

-- Of the message's own headers three are copied, and the rest is of the DLQ.
theorem labelled_lookup (hkey : key ∉ dlqHeaders) :
    (labelled platform cfg msg reason info).lookup key =
      if key ∈ copiedHeaders ∧ Header.get msg.header key ≠ "" then
        some [Header.get msg.header key]
      else none := by
  have hbase : (copiedHeaders.foldl (copyHeader msg) (((∅ : Header).insert headerOriginalSubject
      [msg.subject]).insert headerReason [reason])).lookup key =
      if key ∈ copiedHeaders ∧ Header.get msg.header key ≠ "" then
        some [Header.get msg.header key]
      else none := by
    rw [foldl_copyHeader_lookup, lookup_insert_dlq hkey (by decide),
      lookup_insert_dlq hkey (by decide), Finmap.lookup_empty]
  rw [← hbase]
  have hmeta := metadataHeaders_lookup hkey (copiedHeaders.foldl (copyHeader msg)
    (((∅ : Header).insert headerOriginalSubject [msg.subject]).insert headerReason [reason]))
  unfold labelled
  cases platform.metadata msg with
  | none =>
    simp only
    split_ifs
    · exact applyAutopsyHeaders_lookup platform info hkey _ _ _
    · rfl
  | some md =>
    simp only
    split_ifs
    · exact (applyAutopsyHeaders_lookup platform info hkey _ _ _).trans (hmeta md)
    · exact hmeta md

theorem labelled_get (hkey : key ∉ dlqHeaders) :
    Header.get (labelled platform cfg msg reason info) key =
      if key ∈ copiedHeaders then Header.get msg.header key else "" := by
  rw [Header.get, labelled_lookup platform cfg msg reason info hkey]
  by_cases hempty : Header.get msg.header key = "" <;> by_cases hmem : key ∈ copiedHeaders <;>
    simp [hempty, hmem]

theorem routeHeaders_get (hkey : key ∉ dlqHeaders) (hne : key ≠ headerMsgID) :
    Header.get (routeHeaders platform cfg msg reason info) key =
      if key ∈ copiedHeaders then Header.get msg.header key else "" := by
  rw [routeHeaders_eq, ← labelled_get platform cfg msg reason info hkey]
  split_ifs
  · cases platform.metadata msg with
    | none => rfl
    | some md => exact Header.get_insert_of_ne hne _ _
  · rfl

end Headers

section Copies

-- The message is what route makes of the delivered one.
def CopyOf (platform : Platform) (msg : Msg) (raw : RawPublish) : Prop :=
  ∃ cfg reason info, raw = ⟨routeHeaders platform cfg msg reason info, msg.data⟩

-- On the way to the next state the message stays as it is, and nothing but copies of it is
-- offered to the DLQ.
structure Keeps (platform : Platform) (d next : Delivery) : Prop where
  msg : next.msg = d.msg
  log : ∀ subject raw err, .dlqPublish subject raw err ∈ next.log →
    .dlqPublish subject raw err ∈ d.log ∨ CopyOf platform d.msg raw

variable {platform : Platform} {d next last : Delivery}

theorem Keeps.refl (d : Delivery) : Keeps platform d d := ⟨rfl, fun _ _ _ h => .inl h⟩

theorem Keeps.trans (h : Keeps platform d next) (hl : Keeps platform next last) :
    Keeps platform d last := by
  refine ⟨hl.msg.trans h.msg, fun subject raw err hmem => ?_⟩
  rcases hl.log subject raw err hmem with hmem | hcopy
  · exact h.log subject raw err hmem
  · exact .inr (h.msg ▸ hcopy)

theorem keeps_push (d : Delivery) {e : Event} (he : e.isPublish = false) :
    Keeps platform d (d.push e) := by
  refine ⟨rfl, fun subject raw err hmem => ?_⟩
  rcases List.mem_append.mp hmem with hmem | hmem
  · exact .inl hmem
  · cases List.mem_singleton.mp hmem
    cases he

theorem keeps_push_copy (d : Delivery) (subject : String) {raw : RawPublish}
    (hraw : CopyOf platform d.msg raw) (err : Option GoError) :
    Keeps platform d (d.push (.dlqPublish subject raw err)) := by
  refine ⟨rfl, fun subject raw err hmem => ?_⟩
  rcases List.mem_append.mp hmem with hmem | hmem
  · exact .inl hmem
  · cases List.mem_singleton.mp hmem
    exact .inr hraw

theorem keeps_settle (wire : Wire) (d : Delivery) (kind : AckKind) :
    Keeps platform d (d.settle wire kind).1 :=
  keeps_push d rfl

theorem keeps_termUpTo (wire : Wire) (n : Nat) (d : Delivery) (termErr : Option GoError) :
    Keeps platform d (termUpTo wire n d termErr).1 := by
  induction n generalizing d termErr with
  | zero => exact .refl d
  | succ n ih =>
    simp only [termUpTo, Delivery.settle]
    cases d.ackError wire with
    | none => exact keeps_push d rfl
    | some e => exact (keeps_push d rfl).trans (ih _ _)

theorem keeps_route (platform : Platform) (wire : Wire) (cfg : Config) (d : Delivery)
    (reason : String) (info : AutopsyInfo) :
    Keeps platform d (route platform wire cfg d reason info).1 := by
  have hcopy : CopyOf platform d.msg ⟨routeHeaders platform cfg d.msg reason info, d.msg.data⟩ :=
    ⟨cfg, reason, info, rfl⟩
  have hpush := keeps_push_copy d cfg.subject hcopy
  simp only [route]
  cases wire.publishResult (d.log.countP Event.isPublish) with
  | some e => exact hpush (some e)
  | none =>
    have hterm := (hpush none).trans (keeps_termUpTo wire 3 _ none)
    generalize termUpTo wire 3 _ none = result at hterm
    obtain ⟨next, _ | e⟩ := result
    · simp only
      split_ifs
      · exact hterm.trans (keeps_push next rfl)
      · exact hterm
    · exact hterm

def Copying (platform : Platform) (handler : Handler) : Prop :=
  ∀ d, Keeps platform d (handler d).1

theorem wrapped_copying (wire : Wire) (cfg : Config) {handler : Handler}
    (hh : Copying platform handler) : Copying platform (wrapped platform wire cfg handler) := by
  intro d
  have hd := hh d
  unfold wrapped
  split_ifs
  · have hroute := keeps_route platform wire cfg d cfg.reason
      (fillAutopsyStack platform ⟨cfg.reason, []⟩ cfg.autopsy)
    simp only
    generalize route platform wire cfg d cfg.reason _ = result at hroute
    obtain ⟨next, _ | e⟩ := result <;> exact hroute
  · generalize handler d = result at hd
    obtain ⟨next, (_ | e) | value⟩ := result
    · exact hd
    · simp only
      split_ifs
      · exact hd
      · have hroute := hd.trans (keeps_route platform wire cfg next "handler_requested"
          (fillAutopsyStack platform ⟨e.message, []⟩ cfg.autopsy))
        generalize route platform wire cfg next "handler_requested" _ = result at hroute
        obtain ⟨last, _ | r⟩ := result <;> exact hroute
    · exact hd

theorem stacked_copying (wire : Wire) (cfgs : List Config) {handler : Handler}
    (hh : Copying platform handler) : Copying platform (stacked platform wire cfgs handler) := by
  induction cfgs with
  | nil => exact hh
  | cons cfg cfgs ih =>
    show Copying platform (dlqWith platform wire cfg (stacked platform wire cfgs handler))
    unfold dlqWith
    split_ifs
    · exact ih
    · exact ih
    · exact wrapped_copying wire _ ih

-- The DLQ gets copies of the message as the consumer has opened it.
theorem processMessage_copies (comp : Compressors) (cfg : RuntimeConsumerConfig) (wire : Wire)
    {handler : Handler} (hh : Copying platform handler) (m : Msg) {subject : String}
    {raw : RawPublish} {err : Option GoError}
    (h : .dlqPublish subject raw err ∈ (processMessage comp cfg wire handler ⟨m, []⟩).1.log) :
    ∃ seen, (if cfg.payloadDecompression then maybeDecompressMsg comp m else .ok m) = .ok seen ∧
      CopyOf platform seen raw := by
  unfold processMessage at h
  simp only at h
  split at h
  · simp [recordProcessError, Delivery.settle] at h
  · rename_i seen hseen
    refine ⟨seen, hseen, ?_⟩
    have hkeeps : Keeps platform ⟨seen, []⟩ (settleOutcome wire m.subject
        (invokeMsgHandler handler ⟨seen, []⟩).1 (invokeMsgHandler handler ⟨seen, []⟩).2).1 := by
      refine (hh ⟨seen, []⟩).trans ?_
      cases (invokeMsgHandler handler ⟨seen, []⟩).2 with
      | none => rw [settleOutcome_none_fst]; exact keeps_settle wire _ _
      | some e =>
        rw [settleOutcome_some_fst]
        split_ifs
        · exact .refl _
        · exact keeps_settle wire _ _
    rcases hkeeps.log subject raw err h with hmem | hcopy
    · cases hmem
    · exact hcopy

end Copies

end NatsClient.Dlq
