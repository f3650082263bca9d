import NatsClient.Replay.Seek.Recreate

namespace NatsClient.Replay

open ConsumerManager

variable {net : Net} {find : Search} {stream durable : String} {cfg : DurableConsumerConfig}
  {w w' : World}

theorem oneMessageBound_rest (out : ReplayConfig) :
    ∃ seq set, oneMessageBound out = { out with untilSeq := seq, untilSeqSet := set } := by
  unfold oneMessageBound
  split_ifs
  · exact ⟨_, _, rfl⟩
  · exact ⟨out.untilSeq, out.untilSeqSet, rfl⟩

-- The resolution of the bounds sets the end sequence and nothing else.
theorem resolveReplayBounds_rest {cfg resolved : ReplayConfig}
    (h : resolveReplayBounds find stream cfg = some (.ok resolved)) :
    ∃ seq set, resolved = { cfg with untilSeq := seq, untilSeqSet := set } := by
  unfold resolveReplayBounds at h
  split at h
  · split_ifs at h
    · split at h <;> cases h
      obtain ⟨seq, set, heq⟩ := oneMessageBound_rest { cfg with untilSeq := _, untilSeqSet := true }
      exact ⟨seq, set, heq⟩
    · cases h
      exact oneMessageBound_rest cfg
  · cases h
    exact oneMessageBound_rest cfg

theorem seekConfig_filters (base : DurableConsumerConfig) (durable : String)
    {cfg resolved : ReplayConfig}
    (h : resolveReplayBounds find stream cfg = some (.ok resolved)) :
    (seekConfig base durable resolved).filterSubject = (mergedFilters base cfg).1 ∧
      (seekConfig base durable resolved).filterSubjects = (mergedFilters base cfg).2 := by
  obtain ⟨seq, set, rfl⟩ := resolveReplayBounds_rest h
  unfold seekConfig applyReplayBoundMetadata
  split_ifs <;> exact ⟨rfl, rfl⟩

-- What the end of both operations can do: it touches one durable, and what it puts there is
-- the merged configuration.
theorem seek_spec {place : String} {base : DurableConsumerConfig} {cfg : ReplayConfig}
    {r : Option (Except GoError ReplayConsumerResult)}
    (h : seek net find place stream durable base cfg w = (r, w')) :
    (∀ key, key ≠ (stream, durable) → w'.store key = w.store key) ∧
      ∀ s cc, .put s cc ∈ w'.writes → .put s cc ∈ w.writes ∨
        (validateFilters (mergedFilters base cfg).1 (mergedFilters base cfg).2 = none ∧
          ∃ resolved, resolveReplayBounds find stream cfg = some (.ok resolved) ∧
            Submitted (seekConfig base durable resolved) cc) := by
  unfold seek at h
  cases hbounds : resolveReplayBounds find stream cfg with
  | none =>
    rw [hbounds] at h
    cases h
    exact ⟨fun _ _ => rfl, fun _ _ => .inl⟩
  | some outcome =>
    cases outcome with
    | error e =>
      rw [hbounds] at h
      cases h
      exact ⟨fun _ _ => rfl, fun _ _ => .inl⟩
    | ok resolved =>
      cases hrecreate : recreateDurable net stream durable (seekConfig base durable resolved) w
      with
      | mk err w₁ =>
        have hcases := recreateDurable_cases (seekConfig_durable base durable resolved) hrecreate
        have hw : w₁ = w' := by
          simp only [hbounds, hrecreate] at h
          cases err <;> cases h <;> rfl
        subst hw
        refine ⟨fun key => hcases.others, fun s cc hput => (hcases.puts hput).imp_right ?_⟩
        rintro ⟨hsubmitted, hfilters⟩
        obtain ⟨hone, hmany⟩ := seekConfig_filters base durable hbounds
        rw [hone, hmany] at hfilters
        exact ⟨hfilters, resolved, rfl, hsubmitted⟩

-- ResetConsumer touches one durable, and what it puts there comes from what it read.
theorem resetConsumer_spec {opts : List ReplayOpt}
    {r : Option (Except GoError ReplayConsumerResult)}
    (h : resetConsumer net find stream durable opts w = (r, w')) :
    (∀ key, key ≠ (stream, durable) → w'.store key = w.store key) ∧
      ∀ s cc, .put s cc ∈ w'.writes → .put s cc ∈ w.writes ∨
        ∃ base w₁ resolved, baseDurableConfig net stream durable w = (.ok base, w₁) ∧
          resolveReplayBounds find stream (applyReplayOpts opts) = some (.ok resolved) ∧
          Submitted (seekConfig base durable resolved) cc := by
  simp only [resetConsumer] at h
  cases hcheck : checkReplay stream durable (applyReplayOpts opts) with
  | some e =>
    simp only [hcheck] at h
    cases h
    exact ⟨fun _ _ => rfl, fun _ _ => .inl⟩
  | none =>
    cases hbase : baseDurableConfig net stream durable w with
    | mk answer w₁ =>
      obtain ⟨hstore, hwrites⟩ := (baseDurableConfig_spec hbase).1
      simp only [hcheck, hbase] at h
      cases answer with
      | error e =>
        cases h
        rw [hstore, hwrites]
        exact ⟨fun _ _ => rfl, fun _ _ => .inl⟩
      | ok base =>
        obtain ⟨hothers, hputs⟩ := seek_spec h
        rw [hstore] at hothers
        rw [hwrites] at hputs
        refine ⟨hothers, fun s cc hput => (hputs s cc hput).imp_right ?_⟩
        rintro ⟨-, resolved, hbounds, hcc⟩
        exact ⟨base, w₁, resolved, rfl, hbounds, hcc⟩

-- The configuration that a seek to a sequence submits, with the old position.
theorem fromSeq_submitted (cc : ConsumerConfig) (durable : String) (n : Nat) :
    { toNatsConsumerConfig
        (applyReplayConfig (durableConfigFromNATS cc) durable (applyReplayOpts [fromSeq n])) with
      deliverPolicy := cc.deliverPolicy
      optStartSeq := cc.optStartSeq
      optStartTime := cc.optStartTime } =
    { cc with
      durable := durable
      name := ""
      description := ""
      backOff := []
      sampleFrequency := ""
      headersOnly := false
      maxRequestBatch := 0
      maxRequestExpires := 0
      maxRequestMaxBytes := 0 } := by
  simp [toNatsConsumerConfig, applyReplayConfig, mergedFilters, durableConfigFromNATS,
    applyReplayOpts, fromSeq, seekTo]

-- Seeking keeps the other settings where the conversion has a field for each of them.
theorem seek_preserves_iff (cc : ConsumerConfig) (durable : String) (n : Nat) :
    let sent := toNatsConsumerConfig
      (applyReplayConfig (durableConfigFromNATS cc) durable (applyReplayOpts [fromSeq n]))
    { sent with
      deliverPolicy := cc.deliverPolicy
      optStartSeq := cc.optStartSeq
      optStartTime := cc.optStartTime } = cc ↔
      cc.durable = durable ∧ cc.name = "" ∧ cc.description = "" ∧ cc.backOff = [] ∧
        cc.sampleFrequency = "" ∧ cc.headersOnly = false ∧ cc.maxRequestBatch = 0 ∧
        cc.maxRequestExpires = 0 ∧ cc.maxRequestMaxBytes = 0 := by
  intro sent
  rw [fromSeq_submitted cc durable n]
  constructor
  · intro h
    rw [← h]
    exact ⟨rfl, rfl, rfl, rfl, rfl, rfl, rfl, rfl, rfl⟩
  · intro h
    cases cc
    simp_all

-- A consumer that backs off between its deliveries.
def backingOff : ConsumerConfig where
  durable := "worker"
  ackPolicy := .explicit
  maxDeliver := 5
  backOff := [1000000000, 5000000000]

theorem seek_drops_backOff :
    (toNatsConsumerConfig (applyReplayConfig (durableConfigFromNATS backingOff) "worker"
      (applyReplayOpts [fromSeq 100]))).backOff ≠ backingOff.backOff := by
  decide

end NatsClient.Replay
