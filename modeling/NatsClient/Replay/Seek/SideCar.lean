import NatsClient.Replay.Seek.Settings
import NatsClient.Replay.Seek.Theorems

namespace NatsClient.Replay

open ConsumerManager

variable {net : Net} {find : Search} {stream durable : String} {cfg : DurableConsumerConfig}
  {w w' : World}

-- A request that passes every check, with the configuration of the source as it is stored.
structure Accepted (nuid stream source : String) (opts : List ReplayOpt)
    (stored : ConsumerConfig) : Prop where
  checked : checkReplay stream source (applyReplayOpts opts) = none
  named : validateDurableName (replayTarget nuid source (applyReplayOpts opts)) = none
  distinct : replayTarget nuid source (applyReplayOpts opts) ≠ source
  filtered : validateFilters
    (mergedFilters (durableConfigFromNATS stored) (applyReplayOpts opts)).1
    (mergedFilters (durableConfigFromNATS stored) (applyReplayOpts opts)).2 = none

-- What CreateReplayConsumer leaves alone, and what it puts.
structure Aside (nuid stream source : String) (opts : List ReplayOpt) (w w' : World) : Prop where
  others : ∀ key, key ≠ (stream, replayTarget nuid source (applyReplayOpts opts)) ∨
    key = (stream, source) → w'.store key = w.store key
  puts : ∀ s cc, .put s cc ∈ w'.writes → .put s cc ∈ w.writes ∨ cc.deliverSubject = "" ∨
    ∃ live, w.store (stream, source) = some live ∧ Accepted nuid stream source opts live ∧
      cc.deliverSubject = live.deliverSubject

theorem Aside.of_same {nuid source : String} {opts : List ReplayOpt} (h : World.Same w w') :
    Aside nuid stream source opts w w' :=
  ⟨fun _ _ => by rw [h.1], fun _ _ hput => .inl (h.2 ▸ hput)⟩

theorem Aside.of_seek {nuid source place : String} {opts : List ReplayOpt} {w₁ : World}
    {base : DurableConsumerConfig} {r : Option (Except GoError ReplayConsumerResult)}
    (hcheck : checkReplay stream source (applyReplayOpts opts) = none)
    (hbase : baseDurableConfig net stream source w = (.ok base, w₁))
    (hname : validateDurableName (replayTarget nuid source (applyReplayOpts opts)) = none)
    (htarget : replayTarget nuid source (applyReplayOpts opts) ≠ source)
    (h : seek net find place stream (replayTarget nuid source (applyReplayOpts opts)) base
      (applyReplayOpts opts) w₁ = (r, w')) :
    Aside nuid stream source opts w w' := by
  obtain ⟨hsame, hread⟩ := baseDurableConfig_spec hbase
  obtain ⟨hothers, hputs⟩ := seek_spec h
  constructor
  · rintro key hkey
    rw [hothers key, hsame.1]
    obtain hkey | rfl := hkey
    · exact hkey
    · intro heq
      exact htarget (Prod.mk.inj heq).2.symm
  · intro s cc hput
    obtain hold | ⟨hfilters, resolved, -, hcc⟩ := hputs s cc hput
    · exact .inl (hsame.2 ▸ hold)
    · have hsubject := hcc.deliverSubject_eq
      rw [seekConfig_deliverSubject] at hsubject
      obtain hempty | ⟨live, hlive, rfl⟩ := hread base rfl
      · exact .inr (.inl (hsubject.trans hempty))
      · exact .inr (.inr ⟨live, hlive, ⟨hcheck, hname, htarget, hfilters⟩, hsubject⟩)

theorem createReplayConsumer_aside {nuid source : String} {opts : List ReplayOpt}
    {r : Option (Except GoError ReplayConsumerResult)}
    (h : createReplayConsumer net find nuid stream source opts w = (r, w')) :
    Aside nuid stream source opts w w' := by
  simp only [createReplayConsumer] at h
  cases hcheck : checkReplay stream source (applyReplayOpts opts) with
  | some e =>
    simp only [hcheck] at h
    cases h
    exact .of_same ⟨rfl, rfl⟩
  | none =>
    cases hbase : baseDurableConfig net stream source w with
    | mk answer w₁ =>
      have hsame := (baseDurableConfig_spec hbase).1
      simp only [hcheck, hbase] at h
      cases answer with
      | error e =>
        cases h
        exact .of_same hsame
      | ok base =>
        simp only at h
        cases hname : validateDurableName (replayTarget nuid source (applyReplayOpts opts)) with
        | some e =>
          simp only [hname] at h
          cases h
          exact .of_same hsame
        | none =>
          simp only [hname] at h
          split_ifs at h with htarget
          · cases h
            exact .of_same hsame
          · exact .of_seek hcheck hbase hname htarget h

-- No call fails, and the search finds a message.
def calm : Net := ⟨fun _ => none, fun _ => none, fun _ _ => false⟩

def firstFound : Search := fun _ _ => some (.ok 1)

theorem resolveReplayBounds_found (stream : String) (cfg : ReplayConfig) :
    ∃ resolved, resolveReplayBounds firstFound stream cfg = some (.ok resolved) := by
  unfold resolveReplayBounds
  cases cfg.untilTime with
  | none => exact ⟨_, rfl⟩
  | some t => split_ifs <;> exact ⟨_, rfl⟩

theorem createOrUpdateConsumer_calm (habsent : w.store (stream, cfg.durable) = none)
    (hstream : validateStreamName stream = none) (hname : validateDurableName cfg.durable = none)
    (hfilters : validateFilters cfg.filterSubject cfg.filterSubjects = none) :
    createOrUpdateConsumer calm stream cfg w = (.ok (toNatsConsumerConfig cfg),
      w.tick.tick.tick.put stream (toNatsConsumerConfig cfg)) := by
  refine (createOrUpdateConsumer_of_absent habsent).2 ?_
  simp [Refusing, calm, hstream, hname, hfilters]

theorem recreateDurable_calm (cfg : DurableConsumerConfig) (w : World)
    (hstream : validateStreamName stream = none)
    (hname : validateDurableName cfg.durable = none)
    (hfilters : validateFilters cfg.filterSubject cfg.filterSubjects = none) :
    .put stream (toNatsConsumerConfig cfg) ∈
      (recreateDurable calm stream cfg.durable cfg w).2.writes := by
  have hctx (n : Nat) : calm.ctxErr n = none := rfl
  cases hcc : w.store (stream, cfg.durable) with
  | none =>
    simp only [recreateDurable, consumerInfo_absent hctx hstream hname rfl hcc, GoError.wrap_is,
      GoError.sentinel_is, decide_true, if_true]
    rw [createOrUpdateConsumer_calm (w := w.tick.tick.tick) hcc hstream hname hfilters]
    simp [World.put]
  | some cc =>
    have hsome : w.tick.tick.tick.store (stream, cfg.durable) ≠ none := by
      rw [show w.tick.tick.tick.store = w.store from rfl, hcc]
      exact Option.some_ne_none _
    simp only [recreateDurable, consumerInfo_found hctx hstream hname rfl hcc,
      deleteConsumer_found hctx hstream hname rfl hsome]
    rw [createOrUpdateConsumer_calm (Function.update_self ..) hstream hname hfilters]
    simp [World.put]

theorem createReplayConsumer_calm {nuid source : String} {opts : List ReplayOpt}
    {live : ConsumerConfig} (hlive : w.store (stream, source) = some live)
    (haccepted : Accepted nuid stream source opts live) :
    ∃ cc, .put stream cc ∈
        (createReplayConsumer calm firstFound nuid stream source opts w).2.writes ∧
      cc.deliverSubject = live.deliverSubject := by
  have hctx (n : Nat) : calm.ctxErr n = none := rfl
  have hchecks := haccepted.checked
  simp only [checkReplay, Option.orElse_eq_none] at hchecks
  obtain ⟨resolved, hbounds⟩ := resolveReplayBounds_found stream (applyReplayOpts opts)
  have hbase := baseDurableConfig_found hctx hchecks.1 hchecks.2.1 rfl hlive
  obtain ⟨hone, hmany⟩ := seekConfig_filters (durableConfigFromNATS live)
    (replayTarget nuid source (applyReplayOpts opts)) hbounds
  have hput := recreateDurable_calm
    (seekConfig (durableConfigFromNATS live) (replayTarget nuid source (applyReplayOpts opts))
      resolved) w.tick.tick.tick hchecks.1 (by simpa using haccepted.named)
    (by rw [hone, hmany]; exact haccepted.filtered)
  rw [seekConfig_durable] at hput
  refine ⟨toNatsConsumerConfig (seekConfig (durableConfigFromNATS live)
    (replayTarget nuid source (applyReplayOpts opts)) resolved), ?_,
    seekConfig_deliverSubject _ _ _⟩
  simp only [createReplayConsumer, haccepted.checked, hbase, haccepted.named,
    if_neg haccepted.distinct, seek, hbounds]
  split <;> rename_i heq <;> rw [heq] at hput <;> exact hput

-- The other durables are left alone. The replay shares no subject with the source, unless the
-- source is a push consumer and the request is accepted.
theorem sidecar_isolated_iff (store : String × String → Option ConsumerConfig)
    (nuid stream source : String) (opts : List ReplayOpt) :
    (∀ net find key, key ≠ (stream, replayTarget nuid source (applyReplayOpts opts)) ∨
        key = (stream, source) →
      (createReplayConsumer net find nuid stream source opts ⟨store, [], 0⟩).2.store key =
        store key) ∧
    ((∀ net find s cc,
        .put s cc ∈ (createReplayConsumer net find nuid stream source opts
          ⟨store, [], 0⟩).2.writes →
        cc.deliverSubject = "" ∨
          ∀ live, store (stream, source) = some live → cc.deliverSubject ≠ live.deliverSubject) ↔
      ∀ live, store (stream, source) = some live →
        live.deliverSubject = "" ∨ ¬ Accepted nuid stream source opts live) := by
  constructor
  · intro net find key hkey
    exact (createReplayConsumer_aside rfl).others key hkey
  · constructor
    · intro hisolated live hlive
      by_contra hnot
      rw [not_or, not_not] at hnot
      obtain ⟨cc, hput, hsubject⟩ := createReplayConsumer_calm (w := ⟨store, [], 0⟩) hlive hnot.2
      obtain hempty | hother := hisolated calm firstFound stream cc hput
      · exact hnot.1 (hsubject.symm.trans hempty)
      · exact hother live hlive hsubject
    · intro hsource net find s cc hput
      obtain hold | hempty | ⟨live, hlive, haccepted, hsubject⟩ :=
        (createReplayConsumer_aside rfl).puts s cc hput
      · cases hold
      · exact .inl hempty
      · obtain hempty | hrefused := hsource live hlive
        · exact .inl (hsubject.trans hempty)
        · exact absurd haccepted hrefused

-- The source is a push consumer, and nothing fails.
theorem sidecar_shares_subject :
    live.store ("ORDERS", "worker") = some liveConsumer ∧ liveConsumer.deliverSubject ≠ "" ∧
      ∃ cc, .put "ORDERS" cc ∈ (createReplayConsumer calm firstFound "A1" "ORDERS" "worker"
          [withReplayDurable "worker-replay", fromSeq 50] live).2.writes ∧
        cc.deliverSubject = liveConsumer.deliverSubject := by
  refine ⟨live_worker, by decide, createReplayConsumer_calm live_worker ?_⟩
  constructor <;> decide +kernel

end NatsClient.Replay
