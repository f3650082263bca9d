import NatsClient.ConsumerManager.Theorems
import NatsClient.Replay.Seek

namespace NatsClient.Replay

open ConsumerManager

variable {net : Net} {find : Search} {stream durable : String} {cfg : DurableConsumerConfig}
  {w w' : World}

-- DeleteConsumer succeeds and the creation that follows fails.
def Severed (net : Net) (stream durable : String) (cfg : DurableConsumerConfig) (w : World) :
    Prop :=
  ∃ info w₁ w₂, consumerInfo net stream durable w = (.ok info, w₁) ∧
    deleteConsumer net stream durable w₁ = (.ok (), w₂) ∧ Refusing net stream cfg w₂

-- Nothing was written, or the durable was deleted.
def Cleared (stream durable : String) (w w' : World) : Prop :=
  World.Same w w' ∨ World.Wrote w w' (stream, durable) none (.delete stream durable)

-- What recreateDurable can do.
inductive Recreation (net : Net) (stream durable : String) (cfg : DurableConsumerConfig)
    (w : World) : Option GoError → World → Prop
  | failed {e : GoError} {w' : World} (whole : ¬ Severed net stream durable cfg w)
      (same : World.Same w w') : Recreation net stream durable cfg w (some e) w'
  | severed {e : GoError} {w' : World} (severed : Severed net stream durable cfg w)
      (gone : w'.store = Function.update w.store (stream, durable) none)
      (writes : w'.writes = w.writes ++ [.delete stream durable]) :
      Recreation net stream durable cfg w (some e) w'
  | kept {w' : World} (whole : ¬ Severed net stream durable cfg w)
      (cleared : Cleared stream durable w w') :
      Recreation net stream durable cfg w none w'
  | created {w₁ w' : World} {cc : ConsumerConfig} (whole : ¬ Severed net stream durable cfg w)
      (cleared : Cleared stream durable w w₁) (submitted : Submitted cfg cc)
      (filtered : validateFilters cfg.filterSubject cfg.filterSubjects = none)
      (put : World.Wrote w₁ w' (stream, durable) (some cc) (.put stream cc)) :
      Recreation net stream durable cfg w none w'

-- The creation at the end of recreateDurable.
theorem Recreation.of_created {w₁ : World} {info : ConsumerConfig} (hcfg : cfg.durable = durable)
    (hwhole : ¬ Severed net stream durable cfg w) (hw : Cleared stream durable w w₁)
    (h : createOrUpdateConsumer net stream cfg w₁ = (.ok info, w')) :
    Recreation net stream durable cfg w none w' := by
  obtain hsame | ⟨cc, -, hcc, hfilters, hput⟩ := createOrUpdateConsumer_spec h
  · refine .kept hwhole ?_
    obtain hw | hw := hw
    · exact .inl (hw.trans hsame)
    · exact .inr ⟨hsame.1.trans hw.1, hsame.2.trans hw.2⟩
  · exact .created hwhole hw hcc hfilters (hcfg ▸ hput)

theorem not_severed_of_info {e : GoError} {w₁ : World}
    (hinfo : consumerInfo net stream durable w = (.error e, w₁)) :
    ¬ Severed net stream durable cfg w := by
  rintro ⟨info, w₁, w₂, hok, -⟩
  rw [hinfo] at hok
  cases hok

theorem not_severed_of_delete {info : ConsumerConfig} {e : GoError} {w₁ w₂ : World}
    (hinfo : consumerInfo net stream durable w = (.ok info, w₁))
    (hdelete : deleteConsumer net stream durable w₁ = (.error e, w₂)) :
    ¬ Severed net stream durable cfg w := by
  rintro ⟨info, w₁, w₂, hok, hdone, -⟩
  rw [hinfo] at hok
  cases hok
  rw [hdelete] at hdone
  cases hdone

theorem not_severed_of_create {info cc : ConsumerConfig} {w₁ w₂ : World}
    (hinfo : consumerInfo net stream durable w = (.ok info, w₁))
    (hdelete : deleteConsumer net stream durable w₁ = (.ok (), w₂))
    (habsent : w₂.store (stream, cfg.durable) = none)
    (hcreate : createOrUpdateConsumer net stream cfg w₂ = (.ok cc, w')) :
    ¬ Severed net stream durable cfg w := by
  rintro ⟨info, w₁, w₂, hok, hdone, hrefusing⟩
  rw [hinfo] at hok
  cases hok
  rw [hdelete] at hdone
  cases hdone
  obtain ⟨e, w₃, hfail⟩ := (createOrUpdateConsumer_of_absent habsent).1 hrefusing
  rw [hcreate] at hfail
  cases hfail

theorem recreateDurable_cases (hcfg : cfg.durable = durable) {r : Option GoError}
    (h : recreateDurable net stream durable cfg w = (r, w')) :
    Recreation net stream durable cfg w r w' := by
  simp only [recreateDurable] at h
  cases hinfo : consumerInfo net stream durable w with
  | mk answer w₁ =>
    have hw := (consumerInfo_spec hinfo).1
    simp only [hinfo] at h
    cases answer with
    | error e =>
      simp only at h
      split_ifs at h
      · cases hcreate : createOrUpdateConsumer net stream cfg w₁ with
        | mk created w₂ =>
          rw [hcreate] at h
          cases created with
          | error e =>
            cases h
            exact .failed (not_severed_of_info hinfo)
              (hw.trans (createOrUpdateConsumer_error hcreate))
          | ok cc =>
            cases h
            exact .of_created hcfg (not_severed_of_info hinfo) (.inl hw) hcreate
      · cases h
        exact .failed (not_severed_of_info hinfo) hw
    | ok info =>
      cases hdelete : deleteConsumer net stream durable w₁ with
      | mk deleted w₂ =>
        simp only [hdelete] at h
        obtain ⟨⟨e, rfl⟩, hsame⟩ | ⟨rfl, hgone⟩ := deleteConsumer_spec hdelete
        · cases h
          exact .failed (not_severed_of_delete hinfo hdelete) (hw.trans hsame)
        · have habsent : w₂.store (stream, cfg.durable) = none := by
            rw [hgone.1, hcfg, Function.update_self]
          have hgone := hw.wrote hgone
          cases hcreate : createOrUpdateConsumer net stream cfg w₂ with
          | mk created w₃ =>
            simp only [hcreate] at h
            cases created with
            | ok cc =>
              cases h
              exact .of_created hcfg (not_severed_of_create hinfo hdelete habsent hcreate)
                (.inr hgone) hcreate
            | error e =>
              cases h
              have hsame := createOrUpdateConsumer_error hcreate
              refine .severed ⟨info, w₁, w₂, hinfo, hdelete, ?_⟩
                (hsame.1.trans hgone.1) (hsame.2.trans hgone.2)
              by_contra hnot
              rw [(createOrUpdateConsumer_of_absent habsent).2 hnot] at hcreate
              cases hcreate

theorem baseDurableConfig_spec {r : Except GoError DurableConsumerConfig}
    (h : baseDurableConfig net stream durable w = (r, w')) :
    World.Same w w' ∧ ∀ base, r = .ok base → base.deliverSubject = "" ∨
      ∃ cc, w.store (stream, durable) = some cc ∧ base = durableConfigFromNATS cc := by
  unfold baseDurableConfig at h
  cases hinfo : consumerInfo net stream durable w with
  | mk answer w₁ =>
    obtain ⟨hsame, hfound⟩ := consumerInfo_spec hinfo
    simp only [hinfo] at h
    cases answer with
    | error e =>
      simp only at h
      split_ifs at h <;> cases h
      · refine ⟨hsame, ?_⟩
        rintro base ⟨⟩
        exact .inl rfl
      · exact ⟨hsame, by simp⟩
    | ok cc =>
      cases h
      refine ⟨hsame, ?_⟩
      rintro base ⟨⟩
      exact .inr ⟨cc, hfound cc rfl, rfl⟩

theorem baseDurableConfig_found (hctx : ∀ n, net.ctxErr n = none)
    (hstream : validateStreamName stream = none) (hdurable : validateDurableName durable = none)
    (hfault : net.fault (w.clock + 2) = none) {cc : ConsumerConfig}
    (hcc : w.store (stream, durable) = some cc) :
    baseDurableConfig net stream durable w =
      (.ok (durableConfigFromNATS cc), w.tick.tick.tick) := by
  unfold baseDurableConfig
  rw [consumerInfo_found hctx hstream hdurable hfault hcc]

@[simp] theorem seekConfig_durable (base : DurableConsumerConfig) (durable : String)
    (resolved : ReplayConfig) : (seekConfig base durable resolved).durable = durable := by
  unfold seekConfig applyReplayBoundMetadata
  split_ifs <;> rfl

@[simp] theorem seekConfig_deliverSubject (base : DurableConsumerConfig) (durable : String)
    (resolved : ReplayConfig) :
    (seekConfig base durable resolved).deliverSubject = base.deliverSubject := by
  unfold seekConfig applyReplayBoundMetadata
  split_ifs <;> rfl

theorem Cleared.others (h : Cleared stream durable w w') {key : String × String}
    (hkey : key ≠ (stream, durable)) : w'.store key = w.store key := by
  obtain hsame | hgone := h
  · rw [hsame.1]
  · rw [hgone.1, Function.update_of_ne hkey]

theorem Cleared.puts (h : Cleared stream durable w w') {place : String} {cc : ConsumerConfig}
    (hput : .put place cc ∈ w'.writes) : .put place cc ∈ w.writes := by
  obtain hsame | hgone := h
  · rwa [hsame.2] at hput
  · rw [hgone.2] at hput
    simpa using hput

theorem Recreation.others {r : Option GoError} (h : Recreation net stream durable cfg w r w')
    {key : String × String} (hkey : key ≠ (stream, durable)) : w'.store key = w.store key := by
  cases h with
  | failed whole same => rw [same.1]
  | severed severed gone writes => rw [gone, Function.update_of_ne hkey]
  | kept whole cleared => exact cleared.others hkey
  | created whole cleared submitted filtered put =>
    rw [put.1, Function.update_of_ne hkey, cleared.others hkey]

theorem Recreation.puts {r : Option GoError} (h : Recreation net stream durable cfg w r w')
    {place : String} {cc : ConsumerConfig} (hput : .put place cc ∈ w'.writes) :
    .put place cc ∈ w.writes ∨
      (Submitted cfg cc ∧ validateFilters cfg.filterSubject cfg.filterSubjects = none) := by
  cases h with
  | failed whole same => exact .inl (same.2 ▸ hput)
  | severed severed gone writes =>
    rw [writes] at hput
    exact .inl (by simpa using hput)
  | kept whole cleared => exact .inl (cleared.puts hput)
  | created whole cleared submitted filtered put =>
    rw [put.2, List.mem_append, List.mem_singleton] at hput
    obtain hold | hnew := hput
    · exact .inl (cleared.puts hold)
    · cases hnew
      exact .inr ⟨submitted, filtered⟩

end NatsClient.Replay
