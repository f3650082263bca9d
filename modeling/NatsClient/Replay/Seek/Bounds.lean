import NatsClient.Lib.Machine
import NatsClient.Replay.Seek.SideCar

namespace NatsClient.Replay

open ConsumerManager Lib.Machine

-- The two operations; CreateReplayConsumer with what nuid.Next returns.
inductive Operation
  | reset
  | create (nuid : String)

-- One call and what it meets. The durable is the one whose configuration it starts from.
structure Call where
  operation : Operation
  net : Net
  find : Search
  stream : String
  durable : String
  opts : List ReplayOpt

def Call.run (c : Call) : World → Option (Except GoError ReplayConsumerResult) × World :=
  match c.operation with
  | .reset => resetConsumer c.net c.find c.stream c.durable c.opts
  | .create nuid => createReplayConsumer c.net c.find nuid c.stream c.durable c.opts

def Call.target (c : Call) : String :=
  match c.operation with
  | .reset => c.durable
  | .create nuid => replayTarget nuid c.durable (applyReplayOpts c.opts)

def putConfig? : Write → Option ConsumerConfig
  | .put _ cc => some cc
  | .delete _ _ => none

-- The consumers that were put between two moments.
def created (w w' : World) : List ConsumerConfig :=
  (w'.writes.drop w.writes.length).filterMap putConfig?

-- The server, and what each call returned with the consumer that it created.
structure History where
  world : World
  made : List (ReplayConsumerResult × ConsumerConfig)

-- A call that succeeds.
def History.call (h : History) (c : Call) : Option History :=
  match c.run h.world with
  | (some (.ok result), w) => some ⟨w, h.made ++ (created h.world w).map (result, ·)⟩
  | _ => none

-- The bounds in the metadata are those of the result.
def Describes (metadata : Metadata) (result : ReplayConsumerResult) : Prop :=
  metadata.lookup metaReplayUntilSeq =
      (if 0 < result.untilSeq then some (toString result.untilSeq) else none) ∧
    metadata.lookup metaReplayLimit =
      if 0 < result.limit then some (toString result.limit) else none

instance (metadata : Metadata) (result : ReplayConsumerResult) :
    Decidable (Describes metadata result) :=
  inferInstanceAs (Decidable (_ ∧ _))

-- The configuration that a call starts from has no bound that the call does not set itself.
def Unbounded (base : DurableConsumerConfig) (resolved : ReplayConfig) : Prop :=
  (base.metadata.lookup metaReplayUntilSeq ≠ none →
      resolved.untilSeqSet = true ∧ 0 < resolved.untilSeq) ∧
    (base.metadata.lookup metaReplayLimit ≠ none → resolved.limitSet = true ∧ 0 < resolved.limit)

def Fresh (h : History) (c : Call) : Prop :=
  created h.world (c.run h.world).2 ≠ [] →
    ∀ base w resolved, baseDurableConfig c.net c.stream c.durable h.world = (.ok base, w) →
      resolveReplayBounds c.find c.stream (applyReplayOpts c.opts) = some (.ok resolved) →
      Unbounded base resolved

section Metadata

theorem lookup_ite_insert (p : Prop) [Decidable p] (m : Metadata) (key value : String) :
    (if p then m.insert key value else m).lookup key =
      if p then some value else m.lookup key := by
  split_ifs
  · exact Finmap.lookup_insert m
  · rfl

theorem lookup_ite_insert_of_ne {key other : String} (hne : key ≠ other) (p : Prop) [Decidable p]
    (m : Metadata) (value : String) :
    (if p then m.insert other value else m).lookup key = m.lookup key := by
  split_ifs
  · exact Finmap.lookup_insert_of_ne m hne
  · rfl

variable (base : DurableConsumerConfig) (durable : String) (resolved : ReplayConfig)

-- A bound that is not set leaves what was there.
theorem seekConfig_metadata :
    (seekConfig base durable resolved).metadata.lookup metaReplayUntilSeq =
        (if resolved.untilSeqSet && 0 < resolved.untilSeq then some (toString resolved.untilSeq)
          else base.metadata.lookup metaReplayUntilSeq) ∧
      (seekConfig base durable resolved).metadata.lookup metaReplayLimit =
        if resolved.limitSet && 0 < resolved.limit then some (toString resolved.limit)
          else base.metadata.lookup metaReplayLimit := by
  have hne : metaReplayUntilSeq ≠ metaReplayLimit := by decide
  simp only [seekConfig, applyReplayBoundMetadata, applyReplayConfig]
  by_cases hnone : (!resolved.untilSeqSet && !resolved.limitSet) = true
  · rw [if_pos hnone]
    rw [Bool.and_eq_true, Bool.not_eq_true', Bool.not_eq_true'] at hnone
    simp only [hnone.1, hnone.2, Bool.false_and, Bool.false_eq_true, if_false, and_self]
  · rw [if_neg hnone]
    simp only [lookup_ite_insert, lookup_ite_insert_of_ne hne, lookup_ite_insert_of_ne hne.symm,
      and_self]

theorem describes_iff {cc : ConsumerConfig} (h : Submitted (seekConfig base durable resolved) cc) :
    Describes cc.metadata (replayResult durable resolved) ↔ Unbounded base resolved := by
  obtain ⟨huntil, hlimit⟩ := seekConfig_metadata base durable resolved
  rw [Describes, h.metadata_eq, huntil, hlimit, Unbounded]
  refine and_congr ?_ ?_
  · cases hset : resolved.untilSeqSet <;> by_cases hpos : 0 < resolved.untilSeq <;>
      simp [replayResult, hset, hpos]
  · cases hset : resolved.limitSet <;> by_cases hpos : 0 < resolved.limit <;>
      simp [replayResult, hset, hpos]

end Metadata

section Created

variable {net : Net} {find : Search} {stream durable : String} {cfg : DurableConsumerConfig}
  {w w' : World}

theorem created_of_same (h : World.Same w w') : created w w' = [] := by
  simp [created, h.2]

theorem created_after_same {w₁ : World} (h : World.Same w w₁) : created w₁ w' = created w w' := by
  rw [created, created, h.2]

theorem created_append (h : w'.writes = w.writes ++ writes) :
    created w w' = writes.filterMap putConfig? := by
  simp [created, h]

theorem Cleared.writes (h : Cleared stream durable w w') :
    ∃ deleted, w'.writes = w.writes ++ deleted ∧ deleted.filterMap putConfig? = [] := by
  obtain hsame | hgone := h
  · exact ⟨[], by rw [hsame.2, List.append_nil], rfl⟩
  · exact ⟨_, hgone.2, rfl⟩

theorem created_of_recreation {r : Option GoError}
    (h : Recreation net stream durable cfg w r w') : ∀ cc ∈ created w w', Submitted cfg cc := by
  intro cc hcc
  cases h with
  | failed whole same =>
    rw [created_of_same same] at hcc
    cases hcc
  | severed severed gone writes =>
    rw [created_append writes] at hcc
    cases hcc
  | kept whole cleared =>
    obtain ⟨deleted, hwrites, hnone⟩ := cleared.writes
    rw [created_append hwrites, hnone] at hcc
    cases hcc
  | created whole cleared submitted filtered put =>
    obtain ⟨deleted, hwrites, hnone⟩ := cleared.writes
    rw [created_append (by rw [put.2, hwrites, List.append_assoc]), List.filterMap_append, hnone]
      at hcc
    obtain rfl : cc = _ := List.mem_singleton.mp hcc
    exact submitted

theorem seek_ok {place : String} {base : DurableConsumerConfig} {cfg : ReplayConfig}
    {result : ReplayConsumerResult}
    (h : seek net find place stream durable base cfg w = (some (.ok result), w')) :
    ∃ resolved, resolveReplayBounds find stream cfg = some (.ok resolved) ∧
      result = replayResult durable resolved ∧
      ∀ cc ∈ created w w', Submitted (seekConfig base durable resolved) cc := by
  unfold seek at h
  split at h
  · cases h
  · cases h
  · next resolved hbounds =>
    cases hrecreate : recreateDurable net stream durable (seekConfig base durable resolved) w with
    | mk err w₁ =>
      rw [hrecreate] at h
      cases err with
      | some e => cases h
      | none =>
        cases h
        have hcases :=
          recreateDurable_cases (seekConfig_durable base durable resolved) hrecreate
        exact ⟨resolved, hbounds, rfl, created_of_recreation hcases⟩

-- What a call that succeeds has read, resolved, returned and created.
theorem Call.run_ok {c : Call} {result : ReplayConsumerResult}
    (h : c.run w = (some (.ok result), w')) :
    ∃ base w₁ resolved, baseDurableConfig c.net c.stream c.durable w = (.ok base, w₁) ∧
      resolveReplayBounds c.find c.stream (applyReplayOpts c.opts) = some (.ok resolved) ∧
      result = replayResult c.target resolved ∧
      ∀ cc ∈ created w w', Submitted (seekConfig base c.target resolved) cc := by
  have hread {r : Except GoError DurableConsumerConfig} {w₁ : World}
      (hbase : baseDurableConfig c.net c.stream c.durable w = (r, w₁)) :
      created w₁ w' = created w w' := created_after_same (baseDurableConfig_spec hbase).1
  cases hop : c.operation with
  | reset =>
    simp only [Call.run, hop, resetConsumer] at h
    split at h
    · cases h
    · split at h
      · cases h
      · next base w₁ hbase =>
        obtain ⟨resolved, hbounds, hresult, hcreated⟩ := seek_ok h
        rw [hread hbase] at hcreated
        exact ⟨base, w₁, resolved, hbase, hbounds, by simpa only [Call.target, hop] using hresult,
          by simpa only [Call.target, hop] using hcreated⟩
  | create nuid =>
    simp only [Call.run, hop, createReplayConsumer] at h
    split at h
    · cases h
    · split at h
      · cases h
      · next base w₁ hbase =>
        split at h
        · cases h
        · split_ifs at h
          · cases h
          · obtain ⟨resolved, hbounds, hresult, hcreated⟩ := seek_ok h
            rw [hread hbase] at hcreated
            exact ⟨base, w₁, resolved, hbase, hbounds,
              by simpa only [Call.target, hop] using hresult,
              by simpa only [Call.target, hop] using hcreated⟩

end Created

theorem History.call_ok {h h' : History} {c : Call} (hcall : h.call c = some h') :
    ∃ result, c.run h.world = (some (.ok result), h'.world) ∧
      h'.made = h.made ++ (created h.world h'.world).map (result, ·) := by
  unfold History.call at hcall
  split at hcall
  · next result w hrun =>
    cases hcall
    exact ⟨result, hrun, rfl⟩
  · cases hcall

-- One call describes what it creates exactly where it starts fresh.
theorem call_describes_iff {h h' : History} {c : Call} (hcall : h.call c = some h') :
    (∀ entry ∈ h'.made, Describes entry.2.metadata entry.1) ↔
      (∀ entry ∈ h.made, Describes entry.2.metadata entry.1) ∧ Fresh h c := by
  obtain ⟨result, hrun, hmade⟩ := History.call_ok hcall
  obtain ⟨base, w₁, resolved, hbase, hbounds, rfl, hcreated⟩ := Call.run_ok hrun
  have hiff (cc : ConsumerConfig) (hcc : cc ∈ created h.world h'.world) :
      Describes cc.metadata (replayResult c.target resolved) ↔ Unbounded base resolved :=
    describes_iff base c.target resolved (hcreated cc hcc)
  rw [hmade]
  simp only [List.mem_append, List.mem_map]
  constructor
  · intro hall
    refine ⟨fun entry he => hall entry (.inl he), ?_⟩
    intro hsome base' w₁' resolved' hbase' hbounds'
    rw [hbase] at hbase'
    rw [hbounds] at hbounds'
    cases hbase'
    cases hbounds'
    rw [hrun] at hsome
    obtain ⟨cc, hcc⟩ := List.exists_mem_of_ne_nil _ hsome
    exact (hiff cc hcc).mp (hall _ (.inr ⟨cc, hcc, rfl⟩))
  · rintro ⟨hbefore, hfresh⟩ entry (hold | ⟨cc, hcc, rfl⟩)
    · exact hbefore entry hold
    · refine (hiff cc hcc).mpr (hfresh ?_ base w₁ resolved hbase hbounds)
      rw [hrun]
      exact List.ne_nil_of_mem hcc

theorem exec_describes_iff {start h : History} {calls : List Call}
    (hexec : exec History.call start calls = some h) :
    (∀ entry ∈ h.made, Describes entry.2.metadata entry.1) ↔
      (∀ entry ∈ start.made, Describes entry.2.metadata entry.1) ∧
        Along History.call Fresh start calls := by
  induction calls generalizing start with
  | nil =>
    cases hexec
    exact ⟨fun hall => ⟨hall, trivial⟩, fun hall => hall.1⟩
  | cons c rest ih =>
    obtain ⟨next, hnext, hrest⟩ := exec_cons_eq_some.mp hexec
    rw [ih hrest, call_describes_iff hnext, and_assoc, along_cons_iff hnext]

-- Along a sequence of calls that succeed, on any durables, the metadata of every consumer
-- describes the replay that created it exactly where every call starts fresh.
theorem replay_metadata_iff (w : World) (calls : List Call) {h : History}
    (hexec : exec History.call ⟨w, []⟩ calls = some h) :
    (∀ entry ∈ h.made, Describes entry.2.metadata entry.1) ↔
      Along History.call Fresh ⟨w, []⟩ calls := by
  rw [exec_describes_iff hexec]
  exact ⟨fun hall => hall.2, fun halong => ⟨fun entry he => (by cases he), halong⟩⟩

def calmReset (opts : List ReplayOpt) : Call :=
  ⟨.reset, calm, firstFound, "ORDERS", "worker", opts⟩

-- The second replay sets the bound that the first one has left.
theorem replay_metadata_iff_rebounded :
    ∃ h, exec History.call ⟨live, []⟩ [calmReset [fromBeginning, untilSeq 50],
        calmReset [fromSeq 1, untilSeq 60]] = some h ∧
      Along History.call Fresh ⟨live, []⟩ [calmReset [fromBeginning, untilSeq 50],
        calmReset [fromSeq 1, untilSeq 60]] ∧
      ∀ entry ∈ h.made, Describes entry.2.metadata entry.1 := by
  obtain ⟨h, hexec, hall⟩ := (Option.any_eq_true _ _).mp <|
    show ((exec History.call ⟨live, []⟩ [calmReset [fromBeginning, untilSeq 50],
      calmReset [fromSeq 1, untilSeq 60]]).any fun h =>
        h.made.all fun entry => Describes entry.2.metadata entry.1) = true by decide +kernel
  have hdescribes : ∀ entry ∈ h.made, Describes entry.2.metadata entry.1 := by simpa using hall
  exact ⟨h, hexec, (replay_metadata_iff live _ hexec).mp hdescribes, hdescribes⟩

-- A bounded replay, and then one without bounds on the same durable.
theorem replay_keeps_old_bound :
    ∃ h, exec History.call ⟨live, []⟩ [calmReset [fromBeginning, untilSeq 50],
        calmReset [fromSeq 1]] = some h ∧
      ∃ entry ∈ h.made, entry.1.untilSeq = 0 ∧
        entry.2.metadata.lookup metaReplayUntilSeq = some "50" := by
  obtain ⟨h, hexec, hany⟩ := (Option.any_eq_true _ _).mp <|
    show ((exec History.call ⟨live, []⟩ [calmReset [fromBeginning, untilSeq 50],
      calmReset [fromSeq 1]]).any fun h => h.made.any fun entry => entry.1.untilSeq = 0 ∧
        entry.2.metadata.lookup metaReplayUntilSeq = some "50") = true by decide +kernel
  exact ⟨h, hexec, by simpa using hany⟩

end NatsClient.Replay
