import NatsClient.ConsumerManager.Theorems

namespace NatsClient.ConsumerManager

-- Where a consumer starts: a policy, with the sequence or the time that it may need.
structure StartPosition where
  policy : DeliverPolicy
  seq : Nat
  time : Option Int
  deriving DecidableEq, Repr

def ConsumerConfig.start (cc : ConsumerConfig) : StartPosition :=
  ⟨cc.deliverPolicy, cc.optStartSeq, cc.optStartTime⟩

-- A policy that starts at a position comes with this position, any other one with none.
def StartPosition.Coherent (s : StartPosition) : Prop :=
  match s.policy with
  | .byStartSequence => 0 < s.seq ∧ s.time = none
  | .byStartTime => s.time ≠ none ∧ s.seq = 0
  | .all | .last | .new | .lastPerSubject => s.seq = 0 ∧ s.time = none

instance : DecidablePred StartPosition.Coherent
  | ⟨.byStartSequence, seq, time⟩ => inferInstanceAs (Decidable (0 < seq ∧ time = none))
  | ⟨.byStartTime, seq, time⟩ => inferInstanceAs (Decidable (time ≠ none ∧ seq = 0))
  | ⟨.all, seq, time⟩ | ⟨.last, seq, time⟩ | ⟨.new, seq, time⟩ | ⟨.lastPerSubject, seq, time⟩ =>
    inferInstanceAs (Decidable (seq = 0 ∧ time = none))

def DeliverPolicy.atPosition : DeliverPolicy → Bool
  | .byStartSequence | .byStartTime => true
  | .all | .last | .new | .lastPerSubject => false

theorem StartPosition.coherent_of_plain {s : StartPosition} (h : s.policy.atPosition = false) :
    s.Coherent ↔ s.seq = 0 ∧ s.time = none := by
  unfold StartPosition.Coherent
  cases hp : s.policy <;> simp_all [DeliverPolicy.atPosition]

-- A coherent start has a position exactly if its policy is for one.
theorem StartPosition.Coherent.plain_iff {s : StartPosition} (h : s.Coherent) :
    (s.seq = 0 ∧ s.time = none) ↔ s.policy.atPosition = false := by
  cases hp : s.policy with
  | byStartSequence => simp_all [StartPosition.Coherent, DeliverPolicy.atPosition]; omega
  | _ => simp_all [StartPosition.Coherent, DeliverPolicy.atPosition]

variable {net : Net} {stream : String} {cfg : DurableConsumerConfig} {w : World}

theorem updatedConfig_start {existing : ConsumerConfig} (hpolicy : cfg.hasDeliverPolicy = false) :
    (updatedConfig cfg existing).start =
      ⟨existing.deliverPolicy, cfg.optStartSeq, cfg.optStartTime⟩ := by
  simp [updatedConfig, hpolicy, ConsumerConfig.start, toNatsConsumerConfig]

-- After a refused AddConsumer the existing consumer is read and updated.
theorem createOrUpdateConsumer_refused {existing : ConsumerConfig} {e : GoError}
    (hfirst : net.ctxErr w.clock = none) (hsecond : net.ctxErr (w.clock + 1) = none)
    (hchecks : (validateStreamName stream <|> validateDurableName cfg.durable <|>
      validateFilters cfg.filterSubject cfg.filterSubjects) = none)
    (hrefused : (Js.addConsumer net stream (toNatsConsumerConfig cfg) w.tick.tick).1 = .error e)
    (hread : net.fault (w.clock + 3) = none)
    (hexists : w.store (stream, cfg.durable) = some existing) :
    createOrUpdateConsumer net stream cfg w =
      updateExisting net stream cfg existing w.tick.tick.tick.tick := by
  have hadd : Js.addConsumer net stream (toNatsConsumerConfig cfg) w.tick.tick =
      (.error e, w.tick.tick.tick) := by
    unfold Js.addConsumer at hrefused ⊢
    have hstore : w.tick.tick.store (stream, (toNatsConsumerConfig cfg).durable) = some existing :=
      hexists
    simp only [hstore] at hrefused ⊢
    cases hfault : net.fault w.tick.tick.clock with
    | some other =>
      simp only [hfault] at hrefused ⊢
      cases hrefused
      rfl
    | none =>
      simp only [hfault] at hrefused ⊢
      split_ifs at hrefused ⊢
      cases hrefused
      rfl
  have hinfo : Js.consumerInfo net stream cfg.durable w.tick.tick.tick =
      (.ok existing, w.tick.tick.tick.tick) := by
    have hfault : net.fault w.tick.tick.tick.clock = none := hread
    have hstore : w.tick.tick.tick.store (stream, cfg.durable) = some existing := hexists
    simp only [Js.consumerInfo, hfault, hstore]
  have hsecond : net.ctxErr w.tick.clock = none := hsecond
  unfold createOrUpdateConsumer guarded
  simp only [hfirst, hchecks, hsecond, hadd, hinfo]

-- An update that leaves the policy out keeps it, so it gets to the UpdateConsumer call.
theorem updateExisting_of_omitted (net : Net) (stream : String) (existing : ConsumerConfig)
    (hpolicy : cfg.hasDeliverPolicy = false) (w : World) :
    (net.fault w.clock = none → updateExisting net stream cfg existing w =
      (.ok (updatedConfig cfg existing), w.tick.put stream (updatedConfig cfg existing))) ∧
    ∀ e, net.fault w.clock = some e → updateExisting net stream cfg existing w =
      (.error (.wrap ("update consumer" ++ placeOf stream cfg.durable) e ""), w.tick) := by
  have hkept : ¬ existing.deliverPolicy ≠ (updatedConfig cfg existing).deliverPolicy := by
    have hstart : (updatedConfig cfg existing).deliverPolicy = existing.deliverPolicy :=
      congrArg StartPosition.policy (updatedConfig_start hpolicy)
    exact fun h => h hstart.symm
  constructor
  · intro hfault
    simp only [updateExisting, hkept, if_false, Js.updateConsumer, hfault]
  · intro e hfault
    simp only [updateExisting, hkept, if_false, Js.updateConsumer, hfault]

-- A routine update hands UpdateConsumer the policy of the durable, and the start that goes
-- with it exactly if there is none. Where the durable is coherent, the configuration that
-- has lost its start is not.
theorem update_keeps_start_iff (net : Net) (stream : String) (cfg : DurableConsumerConfig)
    (hpolicy : cfg.hasDeliverPolicy = false) (hseq : cfg.optStartSeq = 0)
    (htime : cfg.optStartTime = none) (w : World) (existing : ConsumerConfig)
    (hexists : w.store (stream, cfg.durable) = some existing)
    (hfirst : net.ctxErr w.clock = none) (hsecond : net.ctxErr (w.clock + 1) = none)
    (hchecks : (validateStreamName stream <|> validateDurableName cfg.durable <|>
      validateFilters cfg.filterSubject cfg.filterSubjects) = none) (e : GoError)
    (hrefused : (Js.addConsumer net stream (toNatsConsumerConfig cfg) w.tick.tick).1 = .error e)
    (hread : net.fault (w.clock + 3) = none) :
    let submitted := updatedConfig cfg existing
    (net.fault (w.clock + 4) = none → createOrUpdateConsumer net stream cfg w =
      (.ok submitted, w.tick.tick.tick.tick.tick.put stream submitted)) ∧
    (∀ e, net.fault (w.clock + 4) = some e → createOrUpdateConsumer net stream cfg w =
      (.error (.wrap ("update consumer" ++ placeOf stream cfg.durable) e ""),
        w.tick.tick.tick.tick.tick)) ∧
    (submitted.start = existing.start ↔
      existing.optStartSeq = 0 ∧ existing.optStartTime = none) ∧
    (existing.start.Coherent → (submitted.start.Coherent ↔ submitted.start = existing.start)) := by
  intro submitted
  have hstart : submitted.start = ⟨existing.deliverPolicy, 0, none⟩ := by
    rw [updatedConfig_start hpolicy, hseq, htime]
  have hiff : submitted.start = existing.start ↔
      existing.optStartSeq = 0 ∧ existing.optStartTime = none := by
    rw [hstart, ConsumerConfig.start, StartPosition.mk.injEq]
    exact ⟨fun h => ⟨h.2.1.symm, h.2.2.symm⟩, fun h => ⟨rfl, h.1.symm, h.2.symm⟩⟩
  have hrun := createOrUpdateConsumer_refused hfirst hsecond hchecks hrefused hread hexists
  obtain ⟨hok, hfail⟩ := updateExisting_of_omitted net stream existing hpolicy
    w.tick.tick.tick.tick
  refine ⟨fun h => hrun.trans (hok h), fun e h => hrun.trans (hfail e h), hiff, fun hcoherent => ?_⟩
  rw [hiff]
  change _ ↔ existing.start.seq = 0 ∧ existing.start.time = none
  rw [hcoherent.plain_iff, hstart]
  change StartPosition.Coherent ⟨existing.start.policy, 0, none⟩ ↔ _
  cases hp : existing.start.policy <;> simp [StartPosition.Coherent, DeliverPolicy.atPosition]

-- A server where AddConsumer refuses a durable that exists, with one durable.
def strict : Net := ⟨fun _ => none, fun _ => none, fun _ _ => false⟩

def oneWorker (policy : DeliverPolicy) (seq : Nat) : World where
  store key := if key = ("ORDERS", "worker") then
      some { durable := "worker", deliverPolicy := policy, optStartSeq := seq, ackPolicy := .explicit }
    else none
  writes := []
  clock := 0

-- A deployment that sets neither a policy nor a start.
def deployed : DurableConsumerConfig := { durable := "worker", maxDeliver := 5 }

theorem deployed_valid : (validateStreamName "ORDERS" <|> validateDurableName deployed.durable <|>
    validateFilters deployed.filterSubject deployed.filterSubjects) = none := by
  decide +kernel

theorem update_keeps_start_iff_new :
    ∃ sent w, createOrUpdateConsumer strict "ORDERS" deployed (oneWorker .new 0) = (.ok sent, w) ∧
      sent.start = ⟨.new, 0, none⟩ := by
  obtain ⟨hrun, _, hiff, _⟩ := update_keeps_start_iff strict "ORDERS" deployed rfl rfl rfl
    (oneWorker .new 0) _ rfl rfl rfl deployed_valid _ rfl rfl
  exact ⟨_, _, hrun rfl, hiff.mpr ⟨rfl, rfl⟩⟩

-- A durable that a seek has left at sequence 100: the update asks for a start sequence and
-- names none.
theorem update_loses_start_sequence :
    ∃ sent w, createOrUpdateConsumer strict "ORDERS" deployed (oneWorker .byStartSequence 100) =
        (.ok sent, w) ∧
      sent.start = ⟨.byStartSequence, 0, none⟩ ∧ ¬ sent.start.Coherent := by
  have hrun : createOrUpdateConsumer strict "ORDERS" deployed (oneWorker .byStartSequence 100) =
      updateExisting strict "ORDERS" deployed _ (oneWorker .byStartSequence 100).tick.tick.tick.tick :=
    createOrUpdateConsumer_refused rfl rfl deployed_valid rfl rfl rfl
  exact ⟨_, _, hrun, rfl, by decide⟩

end NatsClient.ConsumerManager
