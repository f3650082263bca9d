import Mathlib.Logic.Relation
import NatsClient.Dlq.Redrive.Theorems
import NatsClient.Lib.Words

namespace NatsClient.Dlq

def MsgMetadata.position (md : MsgMetadata) : String × Nat := (md.stream, md.streamSeq)

def syntheticID (position : String × Nat) : String :=
  "dlq-" ++ position.1 ++ "-" ++ toString position.2

-- The Nats-Msg-Id of a message, empty if it has none.
def suppliedID (msg : Msg) : String := Header.get msg.header headerMsgID

-- The id that the DLQ copy of a message gets.
def dlqID (msg : Msg) (md : MsgMetadata) : String :=
  if suppliedID msg = "" then syntheticID md.position else suppliedID msg

theorem routeHeaders_msgID {platform : Platform} {msg : Msg} {md : MsgMetadata}
    (hmd : platform.metadata msg = some md) (cfg : Config) (reason : String)
    (info : AutopsyInfo) :
    Header.get (routeHeaders platform cfg msg reason info) headerMsgID = dlqID msg md := by
  have hlabelled : Header.get (labelled platform cfg msg reason info) headerMsgID =
      suppliedID msg := labelled_get platform cfg msg reason info (by decide)
  rw [routeHeaders_eq, hlabelled, hmd, dlqID]
  split_ifs
  · exact Header.get_insert_self _ _ _ _
  · exact hlabelled

theorem dash_notMem_digits (n : Nat) : '-' ∉ (toString n).toList := by
  intro hmem
  have hdigit : Char.isDigit '-' = true :=
    Nat.isDigit_of_mem_toDigits (by decide) (by decide) (Nat.toList_repr ▸ hmem)
  exact absurd hdigit (by decide)

-- A stream name may hold dashes itself. The digits after the last one are the sequence.
theorem syntheticID_injective : Function.Injective syntheticID := by
  rintro ⟨stream, seq⟩ ⟨stream', seq'⟩ h
  have hlist := congrArg String.toList h
  simp only [syntheticID, String.toList_append, List.append_assoc] at hlist
  obtain ⟨hstream, hseq⟩ := Lib.Words.append_cons_inj_right (dash_notMem_digits seq)
    (dash_notMem_digits seq') (List.append_cancel_left hlist)
  have hnumber : seq = seq' :=
    calc
      seq = Nat.ofDigitChars 10 (toString seq).toList 0 :=
        (Nat.toList_repr ▸ Nat.ofDigitChars_ten_toDigits).symm
      _ = Nat.ofDigitChars 10 (toString seq').toList 0 := by rw [hseq]
      _ = seq' := Nat.toList_repr ▸ Nat.ofDigitChars_ten_toDigits
  rw [String.toList_injective hstream, hnumber]

theorem syntheticID_ne_empty (position : String × Nat) : syntheticID position ≠ "" := by
  simp [syntheticID]

theorem dlqID_ne_empty (msg : Msg) (md : MsgMetadata) : dlqID msg md ≠ "" := by
  unfold dlqID
  split_ifs with h
  · exact syntheticID_ne_empty _
  · exact h

-- Two copies get one id from equal positions without an id of their own, or where an id that
-- one message brings along is the id of the other's copy.
theorem dlqID_eq_iff (m m' : Msg) (md md' : MsgMetadata) :
    dlqID m md = dlqID m' md' ↔
      suppliedID m = "" ∧ suppliedID m' = "" ∧ md.position = md'.position ∨
      suppliedID m ≠ "" ∧ suppliedID m = dlqID m' md' ∨
      suppliedID m' ≠ "" ∧ suppliedID m' = dlqID m md := by
  by_cases h : suppliedID m = "" <;> by_cases h' : suppliedID m' = ""
  · simp [dlqID, h, h', syntheticID_injective.eq_iff]
  · simp [dlqID, h, h', eq_comm]
  · simp [dlqID, h, h']
  · simp [dlqID, h, h', eq_comm]

-- The stored header is what every delivery of a message brings its id from.
theorem dlq_id_identifies_iff (platform : Platform) (store : String × Nat → Header)
    (cfg cfg' : Config) (m m' : Msg) (reason reason' : String) (info info' : AutopsyInfo)
    (md md' : MsgMetadata) (hmd : platform.metadata m = some md)
    (hmd' : platform.metadata m' = some md')
    (hm : suppliedID m = Header.get (store md.position) headerMsgID)
    (hm' : suppliedID m' = Header.get (store md'.position) headerMsgID) :
    (Header.get (routeHeaders platform cfg m reason info) headerMsgID =
        Header.get (routeHeaders platform cfg' m' reason' info') headerMsgID ↔
      md.position = md'.position) ↔
    (md.position ≠ md'.position →
      (suppliedID m ≠ "" → suppliedID m ≠ dlqID m' md') ∧
      (suppliedID m' ≠ "" → suppliedID m' ≠ dlqID m md)) := by
  rw [routeHeaders_msgID hmd, routeHeaders_msgID hmd']
  by_cases hpos : md.position = md'.position
  · have hsame : dlqID m md = dlqID m' md' := by
      rw [← hpos, ← hm] at hm'
      simp only [dlqID, hm', hpos]
    simp [hpos, hsame]
  · simp only [hpos, iff_false, ne_eq, not_false_eq_true, forall_const]
    rw [dlqID_eq_iff]
    tauto

section Rounds

variable {platform : Platform} {α : Type}

-- A round: the message goes to the DLQ and comes back as another message.
def Returns (platform : Platform) (α : Type) (m m' : Msg) : Prop :=
  ∃ raw, CopyOf platform m raw ∧
    ∃ (p : Publish.Publisher α) (subject : String) (copy : Msg),
      publishRaw p subject raw = .ok copy ∧
    ∃ (s : Surroundings) (replay : ReplayConfig), ∃ r ∈ (replayToStream s replay).sent,
      r.stored.header = copy.header ∧
    ∃ (q : Publish.Publisher α) (redriven : Msg),
      publishRaw q r.subject r.raw = .ok redriven ∧ m'.header = redriven.header

theorem Returns.id_eq {m m' : Msg} {md : MsgMetadata} (h : Returns platform α m m')
    (hmd : platform.metadata m = some md) : suppliedID m' = dlqID m md := by
  obtain ⟨raw, ⟨cfg, reason, info, rfl⟩, p, subject, copy, hcopy, s, replay, r, hr, hstored, q,
    redriven, hredriven, hheader⟩ := h
  rw [← routeHeaders_msgID hmd cfg reason info]
  refine Header.get_eq_of_lookup ?_
  rw [hheader, publishRaw_lookup (by decide) (by decide) hredriven,
    replayToStream_lookup hr (by decide), hstored,
    publishRaw_lookup (by decide) (by decide) hcopy]

-- After any number of rounds a message has the id of its first copy, and so has each copy
-- that is made of it, whatever position it was stored at.
theorem returns_keep_id (hread : ∀ m, ∃ md, platform.metadata m = some md) {m m' : Msg}
    {md : MsgMetadata} (hmd : platform.metadata m = some md)
    (h : Relation.TransGen (Returns platform α) m m') (md' : MsgMetadata) :
    dlqID m' md' = dlqID m md := by
  have hsupplied : suppliedID m' = dlqID m md := by
    induction h with
    | single h => exact h.id_eq hmd
    | @tail before after _ hlast ih =>
      obtain ⟨last, hl⟩ := hread before
      have hne : suppliedID before ≠ "" := ih ▸ dlqID_ne_empty m md
      rw [hlast.id_eq hl, dlqID, if_neg hne, ih]
  rw [dlqID, if_neg (hsupplied ▸ dlqID_ne_empty m md), hsupplied]

end Rounds

def replyAt (seq : Nat) : String :=
  "$JS.ACK.ORDERS.worker.1." ++ toString seq ++ ".1.1700000000.0"

-- The messages of the stream ORDERS at 5 and at 9.
def twoOrders : Platform where
  metadata m := some ⟨"ORDERS", "worker", if m.reply = replyAt 9 then 9 else 5, 1⟩
  sha256Hex _ := ""
  stack := []

def orderAt (seq : Nat) (header : Header) : Msg := ⟨"orders.new", replyAt seq, header, [7], true⟩

theorem metadata_five (header : Header) :
    twoOrders.metadata (orderAt 5 header) = some ⟨"ORDERS", "worker", 5, 1⟩ :=
  congrArg (fun seq => some (MsgMetadata.mk "ORDERS" "worker" seq 1))
    (if_neg (show replyAt 5 ≠ replyAt 9 by decide +kernel))

theorem metadata_nine (header : Header) :
    twoOrders.metadata (orderAt 9 header) = some ⟨"ORDERS", "worker", 9, 1⟩ :=
  congrArg (fun seq => some (MsgMetadata.mk "ORDERS" "worker" seq 1)) (if_pos rfl)

theorem dlq_id_identifies_iff_unmarked :
    Header.get (routeHeaders twoOrders ordersDlq (orderAt 5 ∅) "" ⟨"", []⟩) headerMsgID ≠
      Header.get (routeHeaders twoOrders ordersDlq (orderAt 9 ∅) "" ⟨"", []⟩) headerMsgID := by
  have hnone : Header.get ∅ headerMsgID = "" := by simp [Header.get]
  have hiff := dlq_id_identifies_iff twoOrders (fun _ => ∅) ordersDlq ordersDlq (orderAt 5 ∅)
    (orderAt 9 ∅) "" "" ⟨"", []⟩ ⟨"", []⟩ _ _ (metadata_five ∅) (metadata_nine ∅) rfl rfl
  have hids := hiff.mpr fun _ => ⟨fun h => absurd hnone h, fun h => absurd hnone h⟩
  exact fun heq => absurd (hids.mp heq) (by decide)

def rejectedCopy : RawPublish :=
  ⟨routeHeaders twoOrders ordersDlq (orderAt 5 ∅) "handler_requested" ⟨"", []⟩, [7]⟩

-- What the redrive of the copy stores at 9.
def rejectedAgain : Msg := orderAt 9 (stripDLQHeaders rejectedCopy.header)

theorem rejected_returns : Returns twoOrders Unit (orderAt 5 ∅) rejectedAgain :=
  ⟨rejectedCopy, ⟨_, _, _, rfl⟩, dlqClient, "orders.dlq",
    ⟨"orders.dlq", "", rejectedCopy.header, [7], false⟩, rfl,
    holding ⟨1, rejectedCopy.header, [7]⟩, redriveOrders, _,
    holding_sent _ ▸ List.mem_singleton.mpr rfl, rfl, dlqClient,
    ⟨"orders.new", "", stripDLQHeaders rejectedCopy.header, [7], false⟩, rfl, rfl⟩

-- The order fails again after its redrive. It is at another position, and its copy has the
-- id of the first one.
theorem redriven_id_repeats :
    Returns twoOrders Unit (orderAt 5 ∅) rejectedAgain ∧
      twoOrders.metadata (orderAt 5 ∅) = some ⟨"ORDERS", "worker", 5, 1⟩ ∧
      twoOrders.metadata rejectedAgain = some ⟨"ORDERS", "worker", 9, 1⟩ ∧
      Header.get rejectedCopy.header headerMsgID =
        Header.get (routeHeaders twoOrders ordersDlq rejectedAgain "handler_requested" ⟨"", []⟩)
          headerMsgID := by
  refine ⟨rejected_returns, metadata_five _, metadata_nine _, ?_⟩
  have hagain : twoOrders.metadata rejectedAgain = some ⟨"ORDERS", "worker", 9, 1⟩ :=
    metadata_nine _
  rw [rejectedCopy, routeHeaders_msgID (metadata_five _), routeHeaders_msgID hagain]
  exact (returns_keep_id (fun _ => ⟨_, rfl⟩) (metadata_five _) (.single rejected_returns) _).symm

end NatsClient.Dlq
