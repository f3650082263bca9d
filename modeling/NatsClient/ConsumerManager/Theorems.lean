import NatsClient.ConsumerManager

namespace NatsClient.ConsumerManager

variable {net : Net} {stream durable : String} {cfg : DurableConsumerConfig} {w w' : World}

-- Nothing was written in between.
def World.Same (w w' : World) : Prop := w'.store = w.store ∧ w'.writes = w.writes

theorem World.Same.trans {w₁ w₂ w₃ : World} (h : World.Same w₁ w₂) (h' : World.Same w₂ w₃) :
    World.Same w₁ w₃ :=
  ⟨h'.1.trans h.1, h'.2.trans h.2⟩

theorem World.same_tick (w : World) : World.Same w w.tick := ⟨rfl, rfl⟩

-- One write, from a world in which nothing else was written.
def World.Wrote (w w' : World) (key : String × String) (value : Option ConsumerConfig)
    (write : Write) : Prop :=
  w'.store = Function.update w.store key value ∧ w'.writes = w.writes ++ [write]

theorem World.Same.wrote {w₁ w₂ w₃ : World} {key : String × String}
    {value : Option ConsumerConfig} {write : Write} (h : World.Same w₁ w₂)
    (h' : World.Wrote w₂ w₃ key value write) : World.Wrote w₁ w₃ key value write := by
  unfold World.Wrote at h' ⊢
  rwa [h.1, h.2] at h'

theorem World.wrote_delete (w : World) (stream durable : String) :
    World.Wrote w (w.tick.delete stream durable) (stream, durable) none (.delete stream durable) :=
  ⟨rfl, rfl⟩

theorem World.wrote_put (w : World) (stream : String) (cc : ConsumerConfig) :
    World.Wrote w (w.tick.put stream cc) (stream, cc.durable) (some cc) (.put stream cc) :=
  ⟨rfl, rfl⟩

-- A method fails before its JetStream calls or makes them.
theorem guarded_cases {α : Type} (net : Net) (checks : Option GoError)
    (calls : World → Except GoError α × World) (w : World) :
    (∃ e w', guarded net checks calls w = (.error e, w') ∧ World.Same w w') ∨
      ∃ w', checks = none ∧ World.Same w w' ∧ guarded net checks calls w = calls w' := by
  unfold guarded
  have hw : World.Same w w.tick := w.same_tick
  cases net.ctxErr w.clock with
  | some e => exact .inl ⟨e, _, rfl, hw⟩
  | none =>
    cases checks with
    | some e => exact .inl ⟨e, _, rfl, hw⟩
    | none =>
      have hw₂ := hw.trans w.tick.same_tick
      cases net.ctxErr w.tick.clock with
      | some e => exact .inl ⟨e, _, rfl, hw₂⟩
      | none => exact .inr ⟨_, rfl, hw₂, rfl⟩

theorem Js.consumerInfo_spec {r : Except GoError ConsumerConfig}
    (h : Js.consumerInfo net stream durable w = (r, w')) :
    World.Same w w' ∧ ∀ cc, r = .ok cc → w.store (stream, durable) = some cc := by
  unfold Js.consumerInfo at h
  split at h
  · cases h
    exact ⟨w.same_tick, by simp⟩
  · split at h
    case h_1 cc hcc =>
      cases h
      exact ⟨w.same_tick, by simp [hcc]⟩
    case h_2 =>
      cases h
      exact ⟨w.same_tick, by simp⟩

theorem consumerInfo_spec {r : Except GoError ConsumerConfig}
    (h : consumerInfo net stream durable w = (r, w')) :
    World.Same w w' ∧ ∀ cc, r = .ok cc → w.store (stream, durable) = some cc := by
  unfold consumerInfo at h
  obtain ⟨e, w₁, heq, hw⟩ | ⟨w₁, -, hw, heq⟩ := guarded_cases net
    (validateStreamName stream <|> validateDurableName durable) _ w
  · rw [heq] at h
    cases h
    exact ⟨hw, by simp⟩
  · rw [heq] at h
    cases hinfo : Js.consumerInfo net stream durable w₁ with
    | mk answer w₂ =>
      obtain ⟨hsame, hfound⟩ := Js.consumerInfo_spec hinfo
      rw [hw.1] at hfound
      rw [hinfo] at h
      cases answer with
      | error e =>
        cases h
        exact ⟨hw.trans hsame, by simp⟩
      | ok cc =>
        cases h
        exact ⟨hw.trans hsame, hfound⟩

-- DeleteConsumer fails without effect or deletes.
theorem deleteConsumer_spec {r : Except GoError Unit}
    (h : deleteConsumer net stream durable w = (r, w')) :
    ((∃ e, r = .error e) ∧ World.Same w w') ∨
      (r = .ok () ∧ World.Wrote w w' (stream, durable) none (.delete stream durable)) := by
  unfold deleteConsumer at h
  obtain ⟨e, w₁, heq, hw⟩ | ⟨w₁, -, hw, heq⟩ := guarded_cases net
    (validateStreamName stream <|> validateDurableName durable) _ w
  · rw [heq] at h
    cases h
    exact .inl ⟨⟨e, rfl⟩, hw⟩
  · rw [heq] at h
    unfold Js.deleteConsumer at h
    split at h <;> cases h
    case h_1 hdel =>
      split at hdel
      · cases hdel
      · split at hdel <;> cases hdel
        exact .inr ⟨rfl, hw.wrote (World.wrote_delete _ _ _)⟩
    case h_2 hdel =>
      refine .inl ⟨⟨_, rfl⟩, hw.trans ?_⟩
      split at hdel
      · cases hdel
        exact w₁.same_tick
      · split at hdel <;> cases hdel
        exact w₁.same_tick

theorem Js.addConsumer_spec {cc : ConsumerConfig} {r : Except GoError ConsumerConfig}
    (h : Js.addConsumer net stream cc w = (r, w')) :
    World.Same w w' ∨
      (r = .ok cc ∧ World.Wrote w w' (stream, cc.durable) (some cc) (.put stream cc)) := by
  unfold Js.addConsumer at h
  split at h
  · cases h
    exact .inl w.same_tick
  · split at h
    · split_ifs at h <;> cases h <;> exact .inl w.same_tick
    · cases h
      exact .inr ⟨rfl, w.wrote_put stream cc⟩

theorem Js.updateConsumer_spec {cc : ConsumerConfig} {r : Except GoError ConsumerConfig}
    (h : Js.updateConsumer net stream cc w = (r, w')) :
    ((∃ e, r = .error e) ∧ World.Same w w') ∨
      (r = .ok cc ∧ World.Wrote w w' (stream, cc.durable) (some cc) (.put stream cc)) := by
  unfold Js.updateConsumer at h
  split at h <;> cases h
  · exact .inl ⟨⟨_, rfl⟩, w.same_tick⟩
  · exact .inr ⟨rfl, w.wrote_put stream cc⟩

-- UpdateConsumer fails without effect or puts its configuration.
theorem updateConsumer_spec {cc : ConsumerConfig} {r : Except GoError ConsumerConfig}
    (h : updateConsumer net stream cc w = (r, w')) :
    ((∃ e, r = .error e) ∧ World.Same w w') ∨
      (r = .ok cc ∧ World.Wrote w w' (stream, cc.durable) (some cc) (.put stream cc)) := by
  unfold updateConsumer at h
  obtain ⟨e, w₁, heq, hw⟩ | ⟨w₁, -, hw, heq⟩ := guarded_cases net
    (validateStreamName stream <|>
      if cc.durable = "" then none else validateDurableName cc.durable) _ w
  · rw [heq] at h
    cases h
    exact .inl ⟨⟨e, rfl⟩, hw⟩
  · rw [heq] at h
    cases hupdate : Js.updateConsumer net stream cc w₁ with
    | mk answer w₂ =>
      rw [hupdate] at h
      obtain ⟨⟨e, rfl⟩, hsame⟩ | ⟨rfl, hput⟩ := Js.updateConsumer_spec hupdate <;> cases h
      · exact .inl ⟨⟨_, rfl⟩, hw.trans hsame⟩
      · exact .inr ⟨rfl, hw.wrote hput⟩

-- What CreateOrUpdateConsumer puts: its configuration, where only an omitted deliver policy is
-- filled in.
structure Submitted (cfg : DurableConsumerConfig) (cc : ConsumerConfig) : Prop where
  rest : ∃ policy, cc = { toNatsConsumerConfig cfg with deliverPolicy := policy }
  exact : cfg.hasDeliverPolicy = true → cc = toNatsConsumerConfig cfg

theorem submitted_toNatsConsumerConfig (cfg : DurableConsumerConfig) :
    Submitted cfg (toNatsConsumerConfig cfg) := ⟨⟨_, rfl⟩, fun _ => rfl⟩

theorem submitted_updatedConfig (cfg : DurableConsumerConfig) (existing : ConsumerConfig) :
    Submitted cfg (updatedConfig cfg existing) := by
  unfold updatedConfig
  split_ifs with hset
  · exact submitted_toNatsConsumerConfig cfg
  · exact ⟨⟨_, rfl⟩, fun h => absurd h hset⟩

theorem Submitted.durable_eq {cc : ConsumerConfig} (h : Submitted cfg cc) :
    cc.durable = cfg.durable := by
  obtain ⟨policy, rfl⟩ := h.rest
  rfl

theorem Submitted.deliverSubject_eq {cc : ConsumerConfig} (h : Submitted cfg cc) :
    cc.deliverSubject = cfg.deliverSubject := by
  obtain ⟨policy, rfl⟩ := h.rest
  rfl

theorem Submitted.deliverGroup_eq {cc : ConsumerConfig} (h : Submitted cfg cc) :
    cc.deliverGroup = cfg.deliverGroup := by
  obtain ⟨policy, rfl⟩ := h.rest
  rfl

theorem Submitted.metadata_eq {cc : ConsumerConfig} (h : Submitted cfg cc) :
    cc.metadata = cfg.metadata := by
  obtain ⟨policy, rfl⟩ := h.rest
  rfl

theorem updateExisting_spec {existing : ConsumerConfig} {r : Except GoError ConsumerConfig}
    (h : updateExisting net stream cfg existing w = (r, w')) :
    World.Same w w' ∨ ∃ cc, r = .ok cc ∧ Submitted cfg cc ∧
      World.Wrote w w' (stream, cfg.durable) (some cc) (.put stream cc) := by
  have hcc := submitted_updatedConfig cfg existing
  simp only [updateExisting] at h
  split_ifs at h with hpolicy
  · cases h
    exact .inl ⟨rfl, rfl⟩
  · cases hupdate : Js.updateConsumer net stream (updatedConfig cfg existing) w with
    | mk answer w₁ =>
      rw [hupdate] at h
      obtain ⟨⟨e, rfl⟩, hsame⟩ | ⟨rfl, hput⟩ := Js.updateConsumer_spec hupdate <;> cases h
      · exact .inl hsame
      · rw [hcc.durable_eq] at hput
        exact .inr ⟨_, rfl, hcc, hput⟩

-- CreateOrUpdateConsumer writes nothing, or succeeds with the one configuration it puts.
theorem createOrUpdateConsumer_spec {r : Except GoError ConsumerConfig}
    (h : createOrUpdateConsumer net stream cfg w = (r, w')) :
    World.Same w w' ∨ ∃ cc, r = .ok cc ∧ Submitted cfg cc ∧
      validateFilters cfg.filterSubject cfg.filterSubjects = none ∧
      World.Wrote w w' (stream, cfg.durable) (some cc) (.put stream cc) := by
  unfold createOrUpdateConsumer at h
  obtain ⟨e, w₁, heq, hw⟩ | ⟨w₁, hchecks, hw, heq⟩ := guarded_cases net
    (validateStreamName stream <|> validateDurableName cfg.durable <|>
      validateFilters cfg.filterSubject cfg.filterSubjects) _ w
  · rw [heq] at h
    cases h
    exact .inl hw
  · simp only [Option.orElse_eq_none] at hchecks
    rw [heq] at h
    cases hadd : Js.addConsumer net stream (toNatsConsumerConfig cfg) w₁ with
    | mk answer w₂ =>
      rw [hadd] at h
      obtain hsame | ⟨hok, hput⟩ := Js.addConsumer_spec hadd
      · cases answer with
        | ok info =>
          cases h
          exact .inl (hw.trans hsame)
        | error e =>
          have hw₂ := hw.trans hsame
          cases hinfo : Js.consumerInfo net stream cfg.durable w₂ with
          | mk found w₃ =>
            have hw₃ := hw₂.trans (Js.consumerInfo_spec hinfo).1
            simp only [hinfo] at h
            cases found with
            | error _ =>
              cases h
              exact .inl hw₃
            | ok existing =>
              obtain hlast | ⟨cc, hok, hcc, hput⟩ := updateExisting_spec h
              · exact .inl (hw₃.trans hlast)
              · exact .inr ⟨cc, hok, hcc, hchecks.2.2, hw₃.wrote hput⟩
      · subst hok
        cases h
        exact .inr ⟨_, rfl, submitted_toNatsConsumerConfig cfg, hchecks.2.2, hw.wrote hput⟩

theorem createOrUpdateConsumer_error {e : GoError}
    (h : createOrUpdateConsumer net stream cfg w = (.error e, w')) : World.Same w w' := by
  obtain hsame | ⟨cc, hok, -⟩ := createOrUpdateConsumer_spec h
  · exact hsame
  · cases hok

-- What makes the creation of a consumer that does not exist fail.
def Refusing (net : Net) (stream : String) (cfg : DurableConsumerConfig) (w : World) : Prop :=
  net.ctxErr w.clock ≠ none ∨
    (validateStreamName stream <|> validateDurableName cfg.durable <|>
      validateFilters cfg.filterSubject cfg.filterSubjects) ≠ none ∨
    net.ctxErr (w.clock + 1) ≠ none ∨ net.fault (w.clock + 2) ≠ none

theorem createOrUpdateConsumer_of_absent (habsent : w.store (stream, cfg.durable) = none) :
    (Refusing net stream cfg w →
      ∃ e w', createOrUpdateConsumer net stream cfg w = (.error e, w')) ∧
    (¬ Refusing net stream cfg w →
      createOrUpdateConsumer net stream cfg w = (.ok (toNatsConsumerConfig cfg),
        w.tick.tick.tick.put stream (toNatsConsumerConfig cfg))) := by
  unfold Refusing createOrUpdateConsumer guarded
  cases net.ctxErr w.clock with
  | some e => simp
  | none =>
    cases (validateStreamName stream <|> validateDurableName cfg.durable <|>
        validateFilters cfg.filterSubject cfg.filterSubjects) with
    | some e => simp
    | none =>
      change (_ ∨ _ ∨ net.ctxErr w.tick.clock ≠ none ∨ net.fault w.tick.tick.clock ≠ none → _) ∧
        (¬ (_ ∨ _ ∨ net.ctxErr w.tick.clock ≠ none ∨ net.fault w.tick.tick.clock ≠ none) → _)
      cases net.ctxErr w.tick.clock with
      | some e => simp
      | none =>
        have hadd : w.tick.tick.store (stream, (toNatsConsumerConfig cfg).durable) = none :=
          habsent
        cases hfault : net.fault w.tick.tick.clock with
        | none => simp [Js.addConsumer, hfault, hadd]
        | some e =>
          have hinfo : w.tick.tick.tick.store (stream, cfg.durable) = none := habsent
          simp only [Js.addConsumer, hfault, Js.consumerInfo, hinfo]
          cases net.fault w.tick.tick.tick.clock <;> simp

section

variable (hctx : ∀ n, net.ctxErr n = none) (hstream : validateStreamName stream = none)
  (hdurable : validateDurableName durable = none) (hfault : net.fault (w.clock + 2) = none)

include hctx

-- Calls under a live ctx, with arguments that pass their checks.
theorem guarded_of_live {α : Type} (calls : World → Except GoError α × World) (w : World) :
    guarded net none calls w = calls w.tick.tick := by
  simp [guarded, hctx]

include hstream hdurable hfault

theorem consumerInfo_found {cc : ConsumerConfig} (hcc : w.store (stream, durable) = some cc) :
    consumerInfo net stream durable w = (.ok cc, w.tick.tick.tick) := by
  have hcc : w.tick.tick.store (stream, durable) = some cc := hcc
  have hfault : net.fault w.tick.tick.clock = none := hfault
  unfold consumerInfo
  rw [hstream, hdurable]
  refine (guarded_of_live hctx _ w).trans ?_
  simp only [Js.consumerInfo, hfault, hcc]

theorem consumerInfo_absent (hcc : w.store (stream, durable) = none) :
    consumerInfo net stream durable w =
      (.error (.wrap ("consumer info" ++ placeOf stream durable)
        (.sentinel .errConsumerNotFound) ""), w.tick.tick.tick) := by
  have hcc : w.tick.tick.store (stream, durable) = none := hcc
  have hfault : net.fault w.tick.tick.clock = none := hfault
  unfold consumerInfo
  rw [hstream, hdurable]
  refine (guarded_of_live hctx _ w).trans ?_
  simp only [Js.consumerInfo, hfault, hcc]

theorem deleteConsumer_found (hcc : w.store (stream, durable) ≠ none) :
    deleteConsumer net stream durable w = (.ok (), w.tick.tick.tick.delete stream durable) := by
  obtain ⟨cc, hcc⟩ := Option.ne_none_iff_exists'.mp hcc
  have hcc : w.tick.tick.store (stream, durable) = some cc := hcc
  have hfault : net.fault w.tick.tick.clock = none := hfault
  unfold deleteConsumer
  rw [hstream, hdurable]
  refine (guarded_of_live hctx _ w).trans ?_
  simp only [Js.deleteConsumer, hfault, hcc]

end

end NatsClient.ConsumerManager
