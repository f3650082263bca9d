import NatsClient.Setup

namespace NatsClient.Setup

open ConsumerManager Lib.Patching

variable {wanted m : Metadata} {key other : String}

theorem metadataDiffers_setMetadata_self :
    metadataDiffers wanted (setMetadata wanted m key) key = false := by
  unfold setMetadata
  split_ifs with hdiffers
  · simp [metadataDiffers]
  · simpa using hdiffers

theorem metadataDiffers_setMetadata (h : metadataDiffers wanted m key = false) :
    metadataDiffers wanted (setMetadata wanted m other) key = false := by
  by_cases heq : key = other
  · subst heq
    exact metadataDiffers_setMetadata_self
  · unfold setMetadata
    split_ifs
    · unfold metadataDiffers at h ⊢
      rwa [Finmap.lookup_insert_of_ne _ heq]
    · exact h

-- The loop over the metadata leaves no key that differs.
theorem metadataDiffers_foldl (keys : List String) (m : Metadata)
    (h : key ∈ keys ∨ metadataDiffers wanted m key = false) :
    metadataDiffers wanted (keys.foldl (setMetadata wanted) m) key = false := by
  induction keys generalizing m with
  | nil => simpa using h
  | cons first keys ih =>
    refine ih _ ?_
    rcases h with h | h
    · rcases List.mem_cons.mp h with rfl | h
      · exact .inr metadataDiffers_setMetadata_self
      · exact .inl h
    · exact .inr (metadataDiffers_setMetadata h)

variable {call : Call} {setup : WorkerSetup}

def allPatches (call : Call) (setup : WorkerSetup) : List (Patch ConsumerConfig) :=
  settingPatches call setup.consumer ++ [filterPatch setup]

theorem metadataPatch_settles (cc : ConsumerConfig) :
    (metadataPatch call wanted).needed ((metadataPatch call wanted).apply cc) = false := by
  simp only [metadataPatch, List.any_eq_false]
  intro key hkey
  simpa using metadataDiffers_foldl _ cc.metadata (.inl hkey)

theorem filterPatch_settles (cc : ConsumerConfig) :
    (filterPatch setup).needed ((filterPatch setup).apply cc) = false := by
  unfold filterPatch
  split_ifs <;> simp

theorem settingPatches_settles (c : DurableConsumerConfig) :
    ∀ p ∈ settingPatches call c, ∀ s, p.needed (p.apply s) = false := by
  simp [settingPatches, fieldPatch, metadataPatch_settles]

-- The filters are apart from the fields before them.
theorem settingPatches_filterPatch (c : DurableConsumerConfig) (cc : ConsumerConfig) :
    ∀ p ∈ settingPatches call c, p.needed ((filterPatch setup).apply cc) = p.needed cc := by
  unfold filterPatch
  split_ifs <;> simp [settingPatches, fieldPatch, metadataPatch]

theorem compatible_allPatches (call : Call) (setup : WorkerSetup) :
    Compatible (allPatches call setup) where
  settles p hp s _ := by
    rcases List.mem_append.mp hp with hp | hp
    · exact settingPatches_settles _ p hp s
    · cases List.mem_singleton.mp hp
      exact filterPatch_settles s
  apart := by
    refine List.pairwise_append.mpr ⟨?_, List.pairwise_singleton _ _, ?_⟩
    · simp [settingPatches, fieldPatch, metadataPatch]
    · intro p hp q hq cc hsettled
      cases List.mem_singleton.mp hq
      rwa [settingPatches_filterPatch _ cc p hp]

-- The order in which a call walks the metadata does not matter.
theorem settled_of_call {cc : ConsumerConfig} (call' : Call)
    (h : Settled (allPatches call setup) cc) : Settled (allPatches call' setup) cc := by
  have hneeded : (metadataPatch call' setup.consumer.metadata).needed =
      (metadataPatch call setup.consumer.metadata).needed := by
    funext cc
    rw [Bool.eq_iff_iff]
    simp only [metadataPatch, List.any_eq_true, Call.mem_range]
  simp only [Settled, allPatches, settingPatches, List.forall_mem_append,
    List.forall_mem_cons] at h ⊢
  rwa [hneeded]

-- The name of a durable, and where it delivers to.
def address (cc : ConsumerConfig) : String × String × String :=
  (cc.durable, cc.deliverSubject, cc.deliverGroup)

variable (call setup) (cc : ConsumerConfig)

-- What neither the fields nor the filters are.
theorem run_allPatches_frame {β : Type} (f : ConsumerConfig → β)
    (hfields : ∀ p ∈ settingPatches call setup.consumer, ∀ cc, p.needed cc = true →
      f (p.apply cc) = f cc)
    (hfilters : ∀ cc subjects subject,
      f { cc with filterSubjects := subjects, filterSubject := subject } = f cc) :
    f (run (allPatches call setup) (cc, false)).1 = f cc := by
  refine run_frame f (fun p hp cc hneeded => ?_) (cc, false)
  rcases List.mem_append.mp hp with hp | hp
  · exact hfields p hp cc hneeded
  · cases List.mem_singleton.mp hp
    unfold filterPatch
    split_ifs
    · exact hfilters cc _ _
    · exact hfilters cc cc.filterSubjects _

theorem run_allPatches_address :
    address (run (allPatches call setup) (cc, false)).1 = address cc :=
  run_allPatches_frame call setup cc address
    (by simp [settingPatches, fieldPatch, metadataPatch, address]) fun _ _ _ => rfl

-- A field that one patch sets where the setup has it, and that no patch touches where it has not.
theorem run_allPatches_field {β : Type} [DecidableEq β] {isSet : Bool} {value : β}
    (field : ConsumerConfig → β) {set : ConsumerConfig → ConsumerConfig}
    (hmem : fieldPatch isSet value field set ∈ settingPatches call setup.consumer)
    (hunset : isSet = false → ∀ p ∈ settingPatches call setup.consumer, ∀ cc,
      p.needed cc = true → field (p.apply cc) = field cc)
    (hfilters : ∀ cc subjects subject,
      field { cc with filterSubjects := subjects, filterSubject := subject } = field cc) :
    field (run (allPatches call setup) (cc, false)).1 = if isSet then value else field cc := by
  cases isSet with
  | true =>
    have hsettled := settled_run (compatible_allPatches call setup) (cc, false) _
      (List.mem_append_left _ hmem)
    simpa [fieldPatch] using hsettled
  | false => exact run_allPatches_frame call setup cc field (hunset rfl) hfilters

-- The two fields that a subscription can be explicit about.
theorem run_allPatches_ackWait :
    (run (allPatches call setup) (cc, false)).1.ackWait =
      if 0 < setup.consumer.ackWait then setup.consumer.ackWait else cc.ackWait := by
  have hmem : fieldPatch (decide (0 < setup.consumer.ackWait)) setup.consumer.ackWait
      ConsumerConfig.ackWait (fun cc => { cc with ackWait := setup.consumer.ackWait }) ∈
        settingPatches call setup.consumer := by simp [settingPatches]
  simpa only [decide_eq_true_eq] using run_allPatches_field call setup cc _ hmem
    (fun hunset => by simp [settingPatches, fieldPatch, metadataPatch, hunset]) fun _ _ _ => rfl

theorem run_allPatches_maxAckPending :
    (run (allPatches call setup) (cc, false)).1.maxAckPending =
      if 0 < setup.consumer.maxAckPending then setup.consumer.maxAckPending
      else cc.maxAckPending := by
  have hmem : fieldPatch (decide (0 < setup.consumer.maxAckPending)) setup.consumer.maxAckPending
      ConsumerConfig.maxAckPending
      (fun cc => { cc with maxAckPending := setup.consumer.maxAckPending }) ∈
        settingPatches call setup.consumer := by simp [settingPatches]
  simpa only [decide_eq_true_eq] using run_allPatches_field call setup cc _ hmem
    (fun hunset => by simp [settingPatches, fieldPatch, metadataPatch, hunset]) fun _ _ _ => rfl

end NatsClient.Setup
