import NatsClient.Dlq

namespace NatsClient.Dlq

-- An error that does not wrap one of the two errors the routing speaks in.
def Plain (e : GoError) : Prop := e.is .errSendToDLQ = false ∧ e.is .errDLQRouted = false

structure PlainWire (wire : Wire) : Prop where
  ack : ∀ n e, wire.ackResult n = some e → Plain e
  publish : ∀ n e, wire.publishResult n = some e → Plain e

-- Nothing has been settled and nothing has been offered to the DLQ.
def Quiet (log : List Event) : Prop := ∀ e ∈ log, e.isSettle = false ∧ e.isPublish = false

-- The DLQ refused the message, and nothing was settled.
def Refused (log : List Event) : Prop :=
  ∃ before subject raw e, log = before ++ [.dlqPublish subject raw (some e)] ∧ Quiet before

-- The DLQ took the message. What follows is Term calls and the recorder's note.
def Accepted (log : List Event) : Prop :=
  ∃ before subject raw after, log = before ++ .dlqPublish subject raw none :: after ∧
    Quiet before ∧ ∀ e ∈ after, (∃ err, e = .settle .term err) ∨ ∃ r, e = .dlqRecord r

theorem Quiet.append {first second : List Event} (hf : Quiet first) (hs : Quiet second) :
    Quiet (first ++ second) := by
  intro e he
  rcases List.mem_append.mp he with he | he
  · exact hf e he
  · exact hs e he

theorem ackError_plain {wire : Wire} (hw : PlainWire wire) {d : Delivery} {e : GoError}
    (he : d.ackError wire = some e) : Plain e := by
  rcases Delivery.ackError_eq_some he with rfl | rfl | rfl | ⟨n, hn⟩
  · exact ⟨rfl, rfl⟩
  · exact ⟨rfl, rfl⟩
  · exact ⟨rfl, rfl⟩
  · exact hw.ack n e hn

-- The Term loop only adds Term calls, and at least one if it is entered.
theorem termUpTo_log (wire : Wire) (n : Nat) (d : Delivery) (last : Option GoError) :
    ∃ terms, (termUpTo wire n d last).1.log = d.log ++ terms ∧
      (∀ e ∈ terms, ∃ err, e = Event.settle .term err) ∧ (0 < n → terms ≠ []) := by
  induction n generalizing d last with
  | zero => exact ⟨[], by simp [termUpTo], by simp, by simp⟩
  | succ n ih =>
    simp only [termUpTo, Delivery.settle]
    cases d.ackError wire with
    | none => exact ⟨[.settle .term none], rfl, by simp, by simp⟩
    | some err =>
      obtain ⟨terms, hlog, hterms, _⟩ := ih (d.push (.settle .term (some err))) (some err)
      refine ⟨.settle .term (some err) :: terms, ?_, ?_, by simp⟩
      · simp only [hlog, Delivery.push_log, List.append_assoc, List.singleton_append]
      · intro e hm
        rcases List.mem_cons.mp hm with rfl | hm
        · exact ⟨_, rfl⟩
        · exact hterms e hm

-- An error the Term loop ends with is one of its calls'.
theorem termUpTo_plain {wire : Wire} (hw : PlainWire wire) (n : Nat) (d : Delivery)
    (last : Option GoError) (hl : ∀ e, last = some e → Plain e) :
    ∀ e, (termUpTo wire n d last).2 = some e → Plain e := by
  induction n generalizing d last with
  | zero => exact hl
  | succ n ih =>
    simp only [termUpTo, Delivery.settle]
    cases he : d.ackError wire with
    | none => simp
    | some err => exact ih _ _ (by rintro e ⟨⟩; exact ackError_plain hw he)

-- Routing a quiet delivery ends in one of two ways, and its error tells which.
theorem route_spec (platform : Platform) {wire : Wire} (hw : PlainWire wire) (cfg : Config)
    (d : Delivery) (reason : String) (info : AutopsyInfo) (hq : Quiet d.log) :
    (∃ e, (route platform wire cfg d reason info).2 = some e ∧ Plain e ∧
      Refused (route platform wire cfg d reason info).1.log) ∨
    (Accepted (route platform wire cfg d reason info).1.log ∧
      ∀ e, (route platform wire cfg d reason info).2 = some e →
        e.is .errDLQRouted = true ∧ e.is .errSendToDLQ = false) := by
  simp only [route]
  cases hp : wire.publishResult (d.log.countP Event.isPublish) with
  | some e =>
    left
    have hplain : Plain e := hw.publish _ _ hp
    exact ⟨_, rfl, hplain, d.log, _, _, _, rfl, hq⟩
  | none =>
    right
    generalize hraw :
      (RawPublish.mk (routeHeaders platform cfg d.msg reason info) d.msg.data) = raw
    obtain ⟨terms, hlog, hterms, _⟩ := termUpTo_log wire 3
      (d.push (.dlqPublish cfg.subject raw none)) none
    have herr := termUpTo_plain hw 3 (d.push (.dlqPublish cfg.subject raw none)) none (by simp)
    cases ht : termUpTo wire 3 (d.push (.dlqPublish cfg.subject raw none)) none with
    | mk next termErr =>
      rw [ht] at hlog herr
      have hnext : next.log = d.log ++ .dlqPublish cfg.subject raw none :: terms := by
        simpa using hlog
      cases termErr with
      | some e =>
        refine ⟨⟨d.log, _, _, terms, hnext, hq, fun e he => .inl (hterms e he)⟩, ?_⟩
        rintro _ ⟨⟩
        have hplain := herr e rfl
        exact ⟨by simp, by simp [hplain.1]⟩
      | none =>
        refine ⟨?_, by simp⟩
        split_ifs
        · refine ⟨d.log, cfg.subject, raw,
            terms ++ [.dlqRecord (recordOf platform cfg d.msg reason info)], ?_, hq, ?_⟩
          · simp only [Delivery.push_log, Delivery.push_msg, hnext, List.append_assoc,
              List.cons_append]
          · intro e he
            rcases List.mem_append.mp he with he | he
            · exact .inl (hterms e he)
            · exact .inr ⟨_, List.mem_singleton.mp he⟩
        · exact ⟨d.log, _, _, terms, hnext, hq, fun e he => .inl (hterms e he)⟩

-- What a stack of wrappers leaves behind, with the outcome it hands on.
inductive Left (log : List Event) : Outcome → Prop
  | quiet (outcome : Outcome) (hq : Quiet log)
      (hnil : outcome = .returned none → .handled (.returned none) ∈ log) : Left log outcome
  | refused (e : GoError) (hr : Refused log) (hp : Plain e) : Left log (.returned (some e))
  | accepted (e : GoError) (ha : Accepted log) (hr : e.is .errDLQRouted = true)
      (hs : e.is .errSendToDLQ = false) : Left log (.returned (some e))

-- Both uses of route in a wrapper turn its result into an outcome the same way,
-- up to the text around the error.
private theorem left_of_route (platform : Platform) {wire : Wire} (hw : PlainWire wire)
    (cfg : Config) (d : Delivery) (reason : String) (info : AutopsyInfo) (hq : Quiet d.log)
    (mark : GoError → GoError) (hmark : ∀ e target, (mark e).is target = e.is target) :
    ∀ next err, route platform wire cfg d reason info = (next, err) →
      Left next.log (.returned (some ((err.map mark).getD (.sentinel .errDLQRouted)))) := by
  intro next err hr
  have hspec := route_spec platform hw cfg d reason info hq
  rw [hr] at hspec
  cases err with
  | none =>
    rcases hspec with ⟨e, he, _⟩ | ⟨ha, _⟩
    · cases he
    · exact .accepted _ ha rfl rfl
  | some e =>
    rcases hspec with ⟨e', he, hp, href⟩ | ⟨ha, hs⟩
    · cases he
      exact .refused _ href ⟨by simp [hmark, hp.1], by simp [hmark, hp.2]⟩
    · obtain ⟨h1, h2⟩ := hs e rfl
      exact .accepted _ ha (by simp [hmark, h1]) (by simp [hmark, h2])

theorem wrapped_left (platform : Platform) {wire : Wire} (hw : PlainWire wire) (cfg : Config)
    (handler : Handler) (d : Delivery) (hq : Quiet d.log)
    (hleft : Left (handler d).1.log (handler d).2) :
    Left (wrapped platform wire cfg handler d).1.log (wrapped platform wire cfg handler d).2 := by
  simp only [wrapped]
  split_ifs
  · have hr := left_of_route platform hw cfg d cfg.reason
      (fillAutopsyStack platform ⟨cfg.reason, []⟩ cfg.autopsy) hq id (fun _ _ => rfl)
    split
    next next e he => exact hr next (some e) he
    next next he => exact hr next none he
  · cases hh : handler d with
    | mk next outcome =>
      rw [hh] at hleft
      cases hleft with
      | quiet _ hquiet hnil =>
        cases outcome with
        | panicked value => exact .quiet _ hquiet hnil
        | returned err =>
          cases err with
          | none => exact .quiet _ hquiet hnil
          | some e =>
            simp only
            split_ifs
            · exact .quiet _ hquiet (by simp)
            · have hr := left_of_route platform hw cfg next "handler_requested"
                (fillAutopsyStack platform ⟨e.message, []⟩ cfg.autopsy) hquiet
                (fun r => .wrap "dlq after handler request: " r "") (fun _ _ => rfl)
              split
              next last r he => exact hr last (some r) he
              next last he => exact hr last none he
      | refused e hr hp =>
        simp only [hp.1, Bool.not_false, if_true]
        exact .refused e hr hp
      | accepted e ha hr hs =>
        simp only [hs, Bool.not_false, if_true]
        exact .accepted e ha hr hs

theorem dlqWith_left (platform : Platform) {wire : Wire} (hw : PlainWire wire) (cfg : Config)
    (handler : Handler) (d : Delivery) (hq : Quiet d.log)
    (hleft : Left (handler d).1.log (handler d).2) :
    Left (dlqWith platform wire cfg handler d).1.log (dlqWith platform wire cfg handler d).2 := by
  unfold dlqWith
  split_ifs
  · exact hleft
  · exact hleft
  · exact wrapped_left platform hw cfg.withDefaults handler d hq hleft

-- The induction over the depth of the stack.
theorem stacked_left (platform : Platform) {wire : Wire} (hw : PlainWire wire)
    (cfgs : List Config) (run : Msg → Msg × Outcome) (d : Delivery) (hq : Quiet d.log) :
    Left (stacked platform wire cfgs (innermost run) d).1.log
      (stacked platform wire cfgs (innermost run) d).2 := by
  induction cfgs with
  | nil =>
    refine .quiet _ (hq.append ?_) ?_
    · intro e he
      rw [List.mem_singleton.mp he]
      exact ⟨rfl, rfl⟩
    · intro ho
      simp only [stacked, List.foldr_nil, innermost] at ho ⊢
      simp [ho]
  | cons cfg rest ih => exact dlqWith_left platform hw cfg _ d hq ih

-- The log of a delivery when processMessage is done with it.
inductive Final : List Event → Prop
  | acked (log : List Event) (err : Option GoError) (hq : Quiet log)
      (hh : .handled (.returned none) ∈ log) : Final (log ++ [.settle .ack err])
  | nakked (log : List Event) (err : Option GoError) (hq : Quiet log) :
      Final (log ++ [.settle (.nak 0) err])
  | untouched (log : List Event) (hq : Quiet log) : Final log
  | refused (log : List Event) (err : Option GoError) (hr : Refused log) :
      Final (log ++ [.settle (.nak 0) err])
  | accepted (log : List Event) (ha : Accepted log) : Final log

theorem settleOutcome_final (wire : Wire) (subject : String) (d : Delivery) (outcome : Outcome)
    (hleft : Left d.log outcome) :
    Final (settleOutcome wire subject d outcome.err).1.log := by
  cases hleft with
  | quiet _ hq hnil =>
    have hsome : ∀ e, Final (settleOutcome wire subject d (some e)).1.log := by
      intro e
      rw [settleOutcome_some_fst]
      split_ifs
      · exact .untouched _ hq
      · exact .nakked _ _ hq
    cases outcome with
    | panicked value => exact hsome value.recovered
    | returned err =>
      cases err with
      | none =>
        simp only [Outcome.err, settleOutcome_none_fst]
        exact .acked _ _ hq (hnil rfl)
      | some e => exact hsome e
  | refused e hr hp =>
    simp only [Outcome.err, settleOutcome_some_fst, hp.2, Bool.false_eq_true, if_false]
    exact .refused _ _ hr
  | accepted e ha hr hs =>
    simp only [Outcome.err, settleOutcome_some_fst, hr, if_true]
    exact .accepted _ ha

theorem processMessage_final (comp : Compressors) (cfg : RuntimeConsumerConfig)
    (platform : Platform) {wire : Wire} (hw : PlainWire wire) (cfgs : List Config)
    (run : Msg → Msg × Outcome) (msg : Msg) :
    Final (processMessage comp cfg wire
      (stacked platform wire cfgs (innermost run)) ⟨msg, []⟩).1.log := by
  have hquiet : Quiet ([] : List Event) := by intro e he; cases he
  simp only [processMessage]
  split
  next e he => exact .nakked [] _ hquiet
  next opened he =>
    exact settleOutcome_final wire msg.subject _ _
      (stacked_left platform hw cfgs run ⟨opened, []⟩ hquiet)

theorem Quiet.settle_notMem {log : List Event} (hq : Quiet log) (kind : AckKind)
    (err : Option GoError) : .settle kind err ∉ log := by
  intro hm
  cases (hq _ hm).1

theorem Quiet.publish_notMem {log : List Event} (hq : Quiet log) (subject : String)
    (raw : RawPublish) (err : Option GoError) : .dlqPublish subject raw err ∉ log := by
  intro hm
  cases (hq _ hm).2

-- A publish that the DLQ stream took.
def isAccepted : Event → Bool
  | .dlqPublish _ _ none => true
  | _ => false

theorem Quiet.countP_accepted {log : List Event} (hq : Quiet log) :
    log.countP isAccepted = 0 := by
  rw [List.countP_eq_zero]
  intro e he
  cases e with
  | dlqPublish subject raw err => exact absurd he (hq.publish_notMem subject raw err)
  | _ => simp [isAccepted]

theorem Final.ack_handled {log : List Event} (hf : Final log) (err : Option GoError)
    (hm : .settle .ack err ∈ log) : .handled (.returned none) ∈ log := by
  cases hf with
  | acked log err' hq hh => exact List.mem_append_left _ hh
  | nakked log err' hq => simp [hq.settle_notMem] at hm
  | untouched _ hq => exact absurd hm (hq.settle_notMem _ _)
  | refused log err' hr =>
    obtain ⟨before, subject, raw, e, rfl, hq⟩ := hr
    simp [hq.settle_notMem] at hm
  | accepted _ ha =>
    obtain ⟨before, subject, raw, after, rfl, hq, hafter⟩ := ha
    rcases List.mem_append.mp hm with hm | hm
    · exact absurd hm (hq.settle_notMem _ _)
    · rcases List.mem_cons.mp hm with hm | hm
      · cases hm
      · rcases hafter _ hm with ⟨_, he⟩ | ⟨_, he⟩ <;> cases he

theorem Final.nak_not_accepted {log : List Event} (hf : Final log) (subject : String)
    (raw : RawPublish) (hm : .dlqPublish subject raw none ∈ log) (delay : Int)
    (err : Option GoError) : .settle (.nak delay) err ∉ log := by
  cases hf with
  | acked log err' hq hh => simp [hq.publish_notMem] at hm
  | nakked log err' hq => simp [hq.publish_notMem] at hm
  | untouched _ hq => exact absurd hm (hq.publish_notMem _ _ _)
  | refused log err' hr =>
    obtain ⟨before, subject', raw', e, rfl, hq⟩ := hr
    simp [hq.publish_notMem] at hm
  | accepted _ ha =>
    obtain ⟨before, subject', raw', after, rfl, hq, hafter⟩ := ha
    intro hn
    rcases List.mem_append.mp hn with hn | hn
    · exact hq.settle_notMem _ _ hn
    · rcases List.mem_cons.mp hn with hn | hn
      · cases hn
      · rcases hafter _ hn with ⟨_, he⟩ | ⟨_, he⟩ <;> cases he

theorem Final.refused_nakked {log : List Event} (hf : Final log) (subject : String)
    (raw : RawPublish) (e : GoError) (hm : .dlqPublish subject raw (some e) ∈ log) :
    ∃ delay err, .settle (.nak delay) err ∈ log := by
  cases hf with
  | acked log err hq hh => simp [hq.publish_notMem] at hm
  | nakked log err hq => exact ⟨0, err, by simp⟩
  | untouched _ hq => exact absurd hm (hq.publish_notMem _ _ _)
  | refused log err hr => exact ⟨0, err, by simp⟩
  | accepted _ ha =>
    obtain ⟨before, subject', raw', after, rfl, hq, hafter⟩ := ha
    rcases List.mem_append.mp hm with hm | hm
    · exact absurd hm (hq.publish_notMem _ _ _)
    · rcases List.mem_cons.mp hm with hm | hm
      · cases hm
      · rcases hafter _ hm with ⟨_, he⟩ | ⟨_, he⟩ <;> cases he

theorem Final.term_after_publish {log : List Event} (hf : Final log) (before after : List Event)
    (err : Option GoError) (hsplit : log = before ++ .settle .term err :: after) :
    ∃ subject raw, .dlqPublish subject raw none ∈ before := by
  have hm : .settle .term err ∈ log := by simp [hsplit]
  cases hf with
  | acked log err' hq hh => simp [hq.settle_notMem] at hm
  | nakked log err' hq => simp [hq.settle_notMem] at hm
  | untouched _ hq => exact absurd hm (hq.settle_notMem _ _)
  | refused log err' hr =>
    obtain ⟨quiet, subject, raw, e, rfl, hq⟩ := hr
    simp [hq.settle_notMem] at hm
  | accepted _ ha =>
    obtain ⟨quiet, subject, raw, terms, rfl, hq, _⟩ := ha
    -- The split point lies behind the publish: what is before it settles nothing.
    rcases List.append_eq_append_iff.mp hsplit with ⟨mid, hb, ht⟩ | ⟨mid, hquiet, ht⟩
    · cases mid with
      | nil => cases ht
      | cons head rest =>
        cases ht
        exact ⟨subject, raw, by simp [hb]⟩
    · cases mid with
      | nil => cases ht
      | cons head rest =>
        cases ht
        exact absurd (by simp [hquiet]) (hq.settle_notMem .term err)

theorem Final.accepted_le_one {log : List Event} (hf : Final log) :
    log.countP isAccepted ≤ 1 := by
  cases hf with
  | acked log err hq hh => simp [List.countP_append, hq.countP_accepted, isAccepted]
  | nakked log err hq => simp [List.countP_append, hq.countP_accepted, isAccepted]
  | untouched _ hq => simp [hq.countP_accepted]
  | refused log err hr =>
    obtain ⟨before, subject, raw, e, rfl, hq⟩ := hr
    simp [List.countP_append, hq.countP_accepted, isAccepted]
  | accepted _ ha =>
    obtain ⟨before, subject, raw, after, rfl, hq, hafter⟩ := ha
    have hzero : after.countP isAccepted = 0 := by
      rw [List.countP_eq_zero]
      intro e he
      rcases hafter e he with ⟨_, rfl⟩ | ⟨_, rfl⟩ <;> simp [isAccepted]
    rw [List.countP_append, hq.countP_accepted, List.countP_cons, hzero]
    simp [isAccepted]

end NatsClient.Dlq
