import Mathlib.Algebra.GroupWithZero.Nat
import NatsClient.Dlq.Theorems

namespace NatsClient.Dlq

-- A message that the server delivers to a durable consumer again and again, with what
-- each delivery brings, by its number from 1 on.
structure Redelivery where
  comp : Compressors
  runtime : RuntimeConsumerConfig
  platform : Platform
  msg : Nat → Msg
  wire : Nat → Wire
  run : Nat → Msg → Msg × Outcome

-- The server does not deliver a message again that was Ack'd or Term'd.
def concluded (d : Delivery) : Bool := d.settlement = some .ack ∨ d.settlement = some .term

namespace Redelivery

-- What processMessage makes of delivery n under one wrapper.
def deliver (r : Redelivery) (cfg : Config) (n : Nat) : Delivery :=
  (processMessage r.comp r.runtime (r.wire n)
    (dlqWith r.platform (r.wire n) cfg (innermost (r.run n))) ⟨r.msg n, []⟩).1

-- The deliveries from number n on, at most `left` of them.
def history (r : Redelivery) (cfg : Config) : Nat → Nat → List Delivery
  | 0, _ => []
  | left + 1, n =>
    r.deliver cfg n :: if concluded (r.deliver cfg n) then [] else r.history cfg left (n + 1)

end Redelivery

def acceptedOn (subject : String) : Event → Bool
  | .dlqPublish target _ none => target = subject
  | _ => false

-- The copies on the DLQ subject.
def copies (subject : String) (deliveries : List Delivery) : Nat :=
  (deliveries.map fun d => d.log.countP (acceptedOn subject)).sum

-- A poison message: its handler fails with an ordinary error each time, nats.go reads the
-- number of the delivery off the reply subject, and DLQ publishes succeed.
structure Poison (r : Redelivery) : Prop where
  ordinary : ∀ n m, ∃ e, (r.run n m).2 = .returned (some e) ∧ Plain e
  counted : ∀ n m md, m.reply = (r.msg n).reply → m.bound = (r.msg n).bound →
    r.platform.metadata m = some md → md.numDelivered = n
  published : ∀ n k, (r.wire n).publishResult k = none

-- The message reaches its handler, its metadata can be read and its settlement goes out.
structure Settles (r : Redelivery) : Prop where
  opened : ∀ n, ∃ m, (if r.runtime.payloadDecompression then maybeDecompressMsg r.comp (r.msg n)
    else .ok (r.msg n)) = .ok m
  read : ∀ n m, m.reply = (r.msg n).reply → m.bound = true → r.platform.metadata m ≠ none
  bound : ∀ n, (r.msg n).bound = true
  reply : ∀ n, (r.msg n).reply ≠ ""
  sent : ∀ n k, (r.wire n).ackResult k = none

theorem Quiet.copies {log : List Event} (hq : Quiet log) (subject : String) :
    log.countP (acceptedOn subject) = 0 := by
  rw [List.countP_eq_zero]
  intro e he
  cases e with
  | dlqPublish target raw err => exact absurd he (hq.publish_notMem target raw err)
  | _ => simp [acceptedOn]

theorem opened_address {comp : Compressors} {on : Bool} {msg m : Msg}
    (h : (if on then maybeDecompressMsg comp msg else .ok msg) = .ok m) :
    m.bound = msg.bound ∧ m.reply = msg.reply := by
  split_ifs at h
  · exact maybeDecompressMsg_address h
  · cases h; exact ⟨rfl, rfl⟩

-- An ordinary error passes through a wrapper whose limit is not exceeded.
theorem wrapped_of_ordinary {platform : Platform} {wire : Wire} {cfg : Config}
    {handler : Handler} {d : Delivery} {e : GoError} (hx : exhausted platform cfg d.msg = false)
    (he : (handler d).2 = .returned (some e)) (hp : Plain e) :
    wrapped platform wire cfg handler d = handler d := by
  unfold wrapped
  simp only [hx, Bool.false_eq_true, if_false]
  cases hd : handler d with
  | mk next outcome =>
    rw [hd] at he
    cases he
    simp [hp.1]

variable {r : Redelivery} {cfg : Config}

-- Up to the limit of the wrapper a delivery ends with a Nak.
theorem deliver_of_le (hr : Poison r) (hpub : cfg.publisher = true) (hsub : cfg.subject ≠ "")
    {n : Nat} (hn : n ≤ cfg.maxDeliver) :
    ∃ before err, Quiet before ∧
      (r.deliver cfg n).log = before ++ [.settle (.nak 0) err] := by
  have hquiet : Quiet ([] : List Event) := by intro e he; cases he
  unfold Redelivery.deliver
  simp only [processMessage]
  split
  next e he => exact ⟨[], _, hquiet, rfl⟩
  next m hm =>
    obtain ⟨hbound, hreply⟩ := opened_address hm
    have hx : exhausted r.platform cfg.withDefaults m = false := by
      simp only [exhausted, Bool.and_eq_false_iff]
      right
      rw [Option.any_eq_false]
      intro md hmd
      have hcount := hr.counted n m md hreply hbound hmd
      have hle : md.numDelivered ≤ cfg.withDefaults.maxDeliver := hcount ▸ hn
      simpa using hle
    obtain ⟨e, he, hplain⟩ := hr.ordinary n m
    have hwith : dlqWith r.platform (r.wire n) cfg (innermost (r.run n)) ⟨m, []⟩ =
        innermost (r.run n) ⟨m, []⟩ := by
      simp only [dlqWith, hpub, hsub, Bool.not_true, Bool.false_eq_true, if_false]
      exact wrapped_of_ordinary hx he hplain
    refine ⟨[.handled (r.run n m).2], ((⟨(r.run n m).1,
      [.handled (r.run n m).2]⟩ : Delivery).ackError (r.wire n)), ?_, ?_⟩
    · intro event hevent
      rw [List.mem_singleton.mp hevent]
      exact ⟨rfl, rfl⟩
    · simp only [invokeMsgHandler, hwith, innermost, he, Outcome.err, settleOutcome_some_fst,
        hplain.2, Bool.false_eq_true, if_false]
      rfl

-- Beyond the limit a copy is published and the message is Term'd.
theorem deliver_of_lt (hr : Poison r) (ho : Settles r) (hpub : cfg.publisher = true)
    (hsub : cfg.subject ≠ "") (hpos : 0 < cfg.maxDeliver) {n : Nat} (hn : cfg.maxDeliver < n) :
    (r.deliver cfg n).log.countP (acceptedOn cfg.subject) = 1 ∧
      concluded (r.deliver cfg n) = true := by
  obtain ⟨m, hm⟩ := ho.opened n
  obtain ⟨hbound, hreply⟩ := opened_address hm
  have hb : m.bound = true := hbound.trans (ho.bound n)
  have hrep : m.reply ≠ "" := hreply ▸ ho.reply n
  obtain ⟨md, hmd⟩ := Option.ne_none_iff_exists'.mp (ho.read n m hreply hb)
  have hx : exhausted r.platform cfg.withDefaults m = true := by
    have hcount := hr.counted n m md hreply hbound hmd
    have hlt : cfg.withDefaults.maxDeliver < md.numDelivered := hcount ▸ hn
    simp [exhausted, hmd, hlt, show 0 < cfg.withDefaults.maxDeliver from hpos]
  have hack (log : List Event) (hlog : log.filterMap Event.sent? = []) :
      (⟨m, log⟩ : Delivery).ackError (r.wire n) = none := by
    simp [Delivery.ackError, hb, hrep, Delivery.ackd, Delivery.settlement, hlog, ho.sent]
  unfold Redelivery.deliver
  simp only [processMessage]
  rw [hm]
  simp only [invokeMsgHandler, dlqWith, hpub, hsub, Bool.not_true, Bool.false_eq_true, if_false,
    wrapped, hx, if_true, route, hr.published, termUpTo, Delivery.settle, Delivery.push,
    List.nil_append, List.cons_append]
  rw [hack _ rfl]
  cases cfg.withDefaults.recorder <;>
    simp [settleOutcome, Outcome.err, acceptedOn, concluded, Delivery.settlement, Event.sent?,
      List.findSome?_cons, Config.withDefaults]

-- Up to the limit nothing is published and the server tries again.
theorem again_of_le (hr : Poison r) (hpub : cfg.publisher = true) (hsub : cfg.subject ≠ "")
    {n : Nat} (hn : n ≤ cfg.maxDeliver) :
    (r.deliver cfg n).log.countP (acceptedOn cfg.subject) = 0 ∧
      concluded (r.deliver cfg n) = false := by
  obtain ⟨before, err, hq, hlog⟩ := deliver_of_le hr hpub hsub hn
  have hnone : before.filterMap Event.sent? = [] := by
    rw [List.filterMap_eq_nil_iff]
    intro e he
    cases e with
    | settle kind err => exact absurd he (hq.settle_notMem kind err)
    | _ => rfl
  constructor
  · rw [hlog, List.countP_append, hq.copies]
    rfl
  · cases err <;>
      simp [concluded, Delivery.settlement, hlog, List.filterMap_append, hnone, Event.sent?]

-- Nothing is published while the server stays within the limit of the wrapper.
theorem history_of_le (hr : Poison r) (hpub : cfg.publisher = true) (hsub : cfg.subject ≠ "")
    (left n : Nat) (hn : n + left ≤ cfg.maxDeliver + 1) :
    (r.history cfg left n).length = left ∧ copies cfg.subject (r.history cfg left n) = 0 := by
  induction left generalizing n with
  | zero => exact ⟨rfl, rfl⟩
  | succ left ih =>
    obtain ⟨hzero, hagain⟩ := again_of_le hr hpub hsub (n := n) (by omega)
    obtain ⟨hlength, hrest⟩ := ih (n + 1) (by omega)
    unfold copies at hrest ⊢
    simp [Redelivery.history, hagain, hzero, hlength, hrest]

-- The first delivery beyond the limit ends the history with one copy.
theorem history_of_lt (hr : Poison r) (ho : Settles r) (hpub : cfg.publisher = true)
    (hsub : cfg.subject ≠ "") (hpos : 0 < cfg.maxDeliver) (left n : Nat)
    (hn : n ≤ cfg.maxDeliver + 1) (hlast : cfg.maxDeliver + 1 < n + left) :
    copies cfg.subject (r.history cfg left n) = 1 := by
  induction left generalizing n with
  | zero => omega
  | succ left ih =>
    by_cases hle : n ≤ cfg.maxDeliver
    · obtain ⟨hzero, hagain⟩ := again_of_le hr hpub hsub hle
      have hrest := ih (n + 1) (by omega) (by omega)
      unfold copies at hrest ⊢
      simp [Redelivery.history, hagain, hzero, hrest]
    · obtain ⟨hone, hend⟩ := deliver_of_lt hr ho hpub hsub hpos (n := n) (by omega)
      simp [Redelivery.history, copies, hone, hend]

-- With the same limit N on the server and on the wrapper a poison message never gets to
-- the DLQ. It gets there exactly if the server delivers it more than N times.
theorem poison_never_routed (n : Nat) (hn : 1 ≤ n) (r : Redelivery) (hr : Poison r)
    (cfg : Config) (hpub : cfg.publisher = true) (hsub : cfg.subject ≠ "")
    (hlimit : cfg.maxDeliver = n) :
    copies cfg.subject (r.history cfg n 1) = 0 ∧
      (Settles r → ∀ server, copies cfg.subject (r.history cfg server 1) = 1 ↔ n < server) := by
  refine ⟨(history_of_le hr hpub hsub n 1 (by omega)).2, fun ho server => ⟨fun hone => ?_, fun h => ?_⟩⟩
  · by_contra hle
    rw [(history_of_le hr hpub hsub server 1 (by omega)).2] at hone
    cases hone
  · exact history_of_lt hr ho hpub hsub (by omega) server 1 (by omega) (by omega)

-- The reply subject of a delivery, and the number that nats.go reads off it.
def ackReply (n : Nat) : String := "$JS.ACK.ORDERS.worker." ++ n.repr ++ ".7.9.1700000000.0"

def ackNumber (reply : String) : Nat :=
  Nat.ofDigitChars 10 ((reply.toList.drop 22).takeWhile Char.isDigit) 0

theorem ackReply_ne_empty (n : Nat) : ackReply n ≠ "" := by
  unfold ackReply
  simp

-- The prefix and the rest are variables here: their letters play no part.
theorem digits_of_drop (before after : String) {k : Nat} (hk : before.toList.length = k)
    (hafter : after.toList.takeWhile Char.isDigit = []) (n : Nat) :
    Nat.ofDigitChars 10
      (((before ++ n.repr ++ after).toList.drop k).takeWhile Char.isDigit) 0 = n := by
  have hdigits : ∀ c ∈ Nat.toDigits 10 n, Char.isDigit c = true :=
    fun c hc => Nat.isDigit_of_mem_toDigits (by decide) (by decide) hc
  rw [String.toList_append, String.toList_append, List.append_assoc, List.drop_left' hk,
    Nat.toList_repr, List.takeWhile_append_of_pos hdigits, hafter, List.append_nil]
  exact Nat.ofDigitChars_ten_toDigits

theorem ackNumber_ackReply (n : Nat) : ackNumber (ackReply n) = n :=
  digits_of_drop "$JS.ACK.ORDERS.worker." ".7.9.1700000000.0" (by simp) (by simp) n

-- An order that its handler rejects each time.
def rejectedOrder : Redelivery where
  comp := ⟨⟨.ok, fun data => (data, none)⟩, ⟨.ok, fun data => (data, none)⟩⟩
  runtime := ⟨1, 1, false, true⟩
  platform := ⟨fun m => if m.bound then some ⟨"ORDERS", "worker", 7, ackNumber m.reply⟩ else none,
    fun _ => "", []⟩
  msg n := ⟨"orders.new", ackReply n, ∅, [1], true⟩
  wire _ := ⟨fun _ => none, fun _ => none⟩
  run _ m := (m, .returned (some (.foreign "reject order" [])))

theorem rejectedOrder_poison : Poison rejectedOrder where
  ordinary _ _ := ⟨_, rfl, rfl, rfl⟩
  counted n m md hreply hbound hmd := by
    have hread : rejectedOrder.platform.metadata m =
        some ⟨"ORDERS", "worker", 7, ackNumber m.reply⟩ := if_pos hbound
    cases hread.symm.trans hmd
    exact (congrArg ackNumber hreply).trans (ackNumber_ackReply n)
  published _ _ := rfl

def orderDlq (maxDeliver : Nat) : Config :=
  ⟨true, false, "orders.dlq", "", ⟨false, false, 0, 0⟩, maxDeliver⟩

theorem poison_never_routed_three :
    copies "orders.dlq" (rejectedOrder.history (orderDlq 3) 3 1) = 0 ∧
      copies "orders.dlq" (rejectedOrder.history (orderDlq 3) 4 1) = 1 := by
  have hsettles : Settles rejectedOrder := by
    refine ⟨fun n => ⟨(rejectedOrder.msg n), ?_⟩, fun n m _ hbound => ?_, fun _ => rfl,
      fun n hempty => ?_, fun _ _ => rfl⟩
    · simp [rejectedOrder, maybeDecompressMsg, Header.get]
    · simp [rejectedOrder, hbound]
    · exact ackReply_ne_empty n hempty
  have hlimit := poison_never_routed 3 (by decide) rejectedOrder rejectedOrder_poison (orderDlq 3)
    rfl (by decide) rfl
  exact ⟨hlimit.1, (hlimit.2 hsettles 4).mpr (by decide)⟩

-- Five deliveries and a limit of five: the server gives up and the DLQ is empty.
theorem poison_lost_at_five :
    (rejectedOrder.history (orderDlq 5) 5 1).length = 5 ∧
      copies "orders.dlq" (rejectedOrder.history (orderDlq 5) 5 1) ≠ 1 := by
  have hpub : (orderDlq 5).publisher = true := rfl
  obtain ⟨hlength, hzero⟩ := history_of_le rejectedOrder_poison hpub (by decide) 5 1 (by decide)
  refine ⟨hlength, ?_⟩
  rw [show "orders.dlq" = (orderDlq 5).subject from rfl, hzero]
  decide

end NatsClient.Dlq
