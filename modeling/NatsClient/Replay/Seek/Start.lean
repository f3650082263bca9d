import NatsClient.ConsumerManager.Start
import NatsClient.Replay.Seek.Bounds

namespace NatsClient.Replay

open ConsumerManager

inductive ReplayOption
  | fromSeq (seq : Nat)
  | fromTime (t : Int)
  | fromBeginning
  | fromNew
  | oneMessage (seq : Nat)
  | withDeliverPolicy (policy : DeliverPolicy)
  | untilSeq (seq : Nat)
  | untilTime (t : Int)
  | limit (n : Int)
  | withReplayPolicy (policy : ReplayPolicy)
  | withFilterSubject (subject : String)
  | withFilterSubjects (subjects : List String)

namespace ReplayOption

def opt : ReplayOption → ReplayOpt
  | fromSeq seq => Replay.fromSeq seq
  | fromTime t => Replay.fromTime t
  | fromBeginning => Replay.fromBeginning
  | fromNew => Replay.fromNew
  | oneMessage seq => Replay.oneMessage seq
  | withDeliverPolicy policy => Replay.withDeliverPolicy policy
  | untilSeq seq => Replay.untilSeq seq
  | untilTime t => Replay.untilTime t
  | limit n => Replay.limit n
  | withReplayPolicy policy => Replay.withReplayPolicy policy
  | withFilterSubject subject => Replay.withFilterSubject subject
  | withFilterSubjects subjects => Replay.withFilterSubjects subjects

-- A seek to a sequence names one, and an explicit policy is not for a position.
def Allowed : ReplayOption → Prop
  | fromSeq seq | oneMessage seq => 1 ≤ seq
  | withDeliverPolicy policy => policy.atPosition = false
  | _ => True

-- The start that a seek asks for.
def sought : ReplayOption → Option StartPosition
  | fromSeq seq | oneMessage seq => some ⟨.byStartSequence, seq, none⟩
  | fromTime t => some ⟨.byStartTime, 0, some t⟩
  | fromBeginning => some ⟨.all, 0, none⟩
  | fromNew => some ⟨.new, 0, none⟩
  | _ => none

-- What an option makes of the start so far. WithDeliverPolicy leaves the position alone.
def onStart (s : StartPosition) : ReplayOption → StartPosition
  | withDeliverPolicy policy => { s with policy := policy }
  | o => o.sought.getD s

-- An option is a seek, overrides the policy, or leaves the start alone.
inductive Kind (o : ReplayOption) : Prop
  | seek (s : StartPosition) (sought : o.sought = some s) (set : ∀ t, onStart t o = s)
  | override (policy : DeliverPolicy) (eq : o = withDeliverPolicy policy)
  | neutral (sought : o.sought = none) (other : ∀ policy, o ≠ withDeliverPolicy policy)
      (same : ∀ t, onStart t o = t)

theorem kind (o : ReplayOption) : Kind o := by
  cases o
  case withDeliverPolicy policy => exact .override policy rfl
  case fromSeq | fromTime | fromBeginning | fromNew | oneMessage =>
    exact .seek _ rfl fun _ => rfl
  all_goals exact .neutral rfl (fun _ h => by cases h) fun _ => rfl

theorem Allowed.coherent {o : ReplayOption} (h : o.Allowed) {s : StartPosition} (hs : o.sought = some s) :
    s.Coherent := by
  cases o <;> cases hs <;> simp_all [Allowed, StartPosition.Coherent] <;> omega

end ReplayOption

-- The start of the configuration merged with one that starts at `base`.
def ReplayConfig.startOn (cfg : ReplayConfig) (base : StartPosition) : StartPosition where
  policy := if cfg.deliverSet then cfg.deliverPolicy else base.policy
  seq := if cfg.optStartSeqSet then cfg.optStartSeq else base.seq
  time := if cfg.optStartTimeSet then cfg.optStartTime else base.time

section Merge

variable (base : StartPosition)

theorem startOn_opt (cfg : ReplayConfig) (o : ReplayOption) :
    (o.opt.elim cfg fun set => set cfg).startOn base = ReplayOption.onStart (cfg.startOn base) o := by
  cases o <;> rfl

theorem startOn_applyReplayOpts (opts : List ReplayOption) :
    (applyReplayOpts (opts.map ReplayOption.opt)).startOn base =
      opts.foldl ReplayOption.onStart base := by
  unfold applyReplayOpts
  rw [List.foldl_map]
  exact (List.foldl_hom (fun cfg : ReplayConfig => cfg.startOn base)
    fun cfg o => (startOn_opt base cfg o).symm).symm

theorem startOn_resolved {find : Search} {stream : String} {cfg resolved : ReplayConfig}
    (h : resolveReplayBounds find stream cfg = some (.ok resolved)) :
    resolved.startOn base = cfg.startOn base := by
  obtain ⟨seq, set, rfl⟩ := resolveReplayBounds_rest h
  rfl

end Merge

theorem seekConfig_start (cc : ConsumerConfig) (durable : String) (resolved : ReplayConfig) :
    (toNatsConsumerConfig (seekConfig (durableConfigFromNATS cc) durable resolved)).start =
      resolved.startOn cc.start := by
  have hmerged : (toNatsConsumerConfig
      (applyReplayConfig (durableConfigFromNATS cc) durable resolved)).start =
        resolved.startOn cc.start := by
    simp [toNatsConsumerConfig, applyReplayConfig, durableConfigFromNATS, ConsumerConfig.start,
      ReplayConfig.startOn]
  unfold seekConfig applyReplayBoundMetadata
  split_ifs <;> exact hmerged

-- The start that the last seek asks for, or else the one of the base.
def lastSought (base : StartPosition) (opts : List ReplayOption) : StartPosition :=
  (opts.filterMap ReplayOption.sought).getLast?.getD base

-- WithDeliverPolicy with no seek behind it.
def Overridden (opts : List ReplayOption) : Prop :=
  ∃ before policy after, opts = before ++ .withDeliverPolicy policy :: after ∧
    ∀ o ∈ after, o.sought = none

theorem overridden_concat {opts : List ReplayOption} {o : ReplayOption} :
    Overridden (opts ++ [o]) ↔
      (∃ policy, o = .withDeliverPolicy policy) ∨ (o.sought = none ∧ Overridden opts) := by
  constructor
  · rintro ⟨before, policy, after, hopts, hafter⟩
    rcases List.eq_nil_or_concat after with rfl | ⟨rest, last, rfl⟩
    · exact .inl ⟨policy, (List.append_inj' hopts rfl).2 |> List.singleton_inj.mp⟩
    · rw [List.concat_eq_append, ← List.cons_append, ← List.append_assoc] at hopts
      obtain ⟨hfront, hlast⟩ := List.append_inj' hopts rfl
      obtain rfl := List.singleton_inj.mp hlast
      simp only [List.concat_eq_append, List.mem_append, List.mem_singleton] at hafter
      exact .inr ⟨hafter o (.inr rfl), before, policy, rest, hfront,
        fun x hx => hafter x (.inl hx)⟩
  · rintro (⟨policy, rfl⟩ | ⟨ho, before, policy, after, rfl, hafter⟩)
    · exact ⟨opts, policy, [], rfl, fun x hx => by cases hx⟩
    · refine ⟨before, policy, after ++ [o], by simp, fun x hx => ?_⟩
      rcases List.mem_append.mp hx with hx | hx
      · exact hafter x hx
      · rwa [List.mem_singleton.mp hx]

-- The position is always the one of the last seek. The policy is too, unless it is overridden.
structure Traced (base : StartPosition) (opts : List ReplayOption) (s : StartPosition) : Prop where
  seq : s.seq = (lastSought base opts).seq
  time : s.time = (lastSought base opts).time
  kept : ¬ Overridden opts → s.policy = (lastSought base opts).policy
  plain : Overridden opts → s.policy.atPosition = false

theorem lastSought_concat (base : StartPosition) (opts : List ReplayOption) (o : ReplayOption) :
    lastSought base (opts ++ [o]) = o.sought.getD (lastSought base opts) := by
  cases ho : o.sought <;> simp [lastSought, List.filterMap_append, ho]

theorem foldl_traced (base : StartPosition) (opts : List ReplayOption) (hopts : ∀ o ∈ opts, o.Allowed) :
    Traced base opts (opts.foldl ReplayOption.onStart base) := by
  induction opts using List.reverseRecOn with
  | nil => exact ⟨rfl, rfl, fun _ => rfl, by rintro ⟨before, policy, after, h, _⟩; simp at h⟩
  | append_singleton opts o ih =>
    have hbefore := ih fun x hx => hopts x (List.mem_append_left _ hx)
    have ho : o.Allowed := hopts o (by simp)
    rw [List.foldl_append, List.foldl_cons, List.foldl_nil]
    have hlast := lastSought_concat base opts o
    cases o.kind with
    | seek s hs hset =>
      have hnot : ¬ Overridden (opts ++ [o]) := by
        rw [overridden_concat, hs]
        rintro (⟨policy, rfl⟩ | ⟨hnone, _⟩)
        · cases hs
        · cases hnone
      rw [hs, Option.getD_some] at hlast
      rw [hset, ← hlast]
      exact ⟨rfl, rfl, fun _ => rfl, fun h => absurd h hnot⟩
    | override policy hp =>
      subst hp
      have hover : Overridden (opts ++ [.withDeliverPolicy policy]) :=
        overridden_concat.mpr (.inl ⟨policy, rfl⟩)
      exact ⟨hlast ▸ hbefore.seq, hlast ▸ hbefore.time, fun h => absurd hover h, fun _ => ho⟩
    | neutral hs hother hsame =>
      have hover : Overridden (opts ++ [o]) ↔ Overridden opts := by
        rw [overridden_concat]
        exact ⟨fun h => (h.resolve_left fun ⟨policy, hp⟩ => hother policy hp).2,
          fun h => .inr ⟨hs, h⟩⟩
      rw [hs, Option.getD_none] at hlast
      rw [hsame]
      refine ⟨?_, ?_, ?_, ?_⟩ <;> simp only [hlast, hover]
      · exact hbefore.seq
      · exact hbefore.time
      · exact hbefore.kept
      · exact hbefore.plain

theorem lastSought_coherent {base : StartPosition} (hbase : base.Coherent) {opts : List ReplayOption}
    (hopts : ∀ o ∈ opts, o.Allowed) : (lastSought base opts).Coherent := by
  unfold lastSought
  cases hlast : (opts.filterMap ReplayOption.sought).getLast? with
  | none => exact hbase
  | some s =>
    obtain ⟨o, ho, hs⟩ := List.mem_filterMap.mp (List.mem_of_getLast? hlast)
    exact (hopts o ho).coherent hs

theorem Traced.coherent_iff {base s : StartPosition} {opts : List ReplayOption} (h : Traced base opts s)
    (hlast : (lastSought base opts).Coherent) :
    s.Coherent ↔ ¬ (Overridden opts ∧ (lastSought base opts).policy.atPosition = true) := by
  by_cases hover : Overridden opts
  · rw [StartPosition.coherent_of_plain (h.plain hover), h.seq, h.time, hlast.plain_iff]
    simp [hover]
  · have hs : s = lastSought base opts := by
      cases s
      exact StartPosition.mk.injEq .. |>.mpr ⟨h.kept hover, h.seq, h.time⟩
    rw [hs]
    simp [hover, hlast]

-- What ResetConsumer submits for a coherent durable is coherent, except where WithDeliverPolicy
-- comes without a seek behind it and the position of an earlier seek, or else of the durable,
-- stays.
theorem reset_coherent_iff (cc : ConsumerConfig) (hcc : cc.start.Coherent)
    (options : List ReplayOption) (hoptions : ∀ o ∈ options, o.Allowed) (find : Search)
    (stream durable : String) (resolved : ReplayConfig)
    (hresolved : resolveReplayBounds find stream
      (applyReplayOpts (options.map ReplayOption.opt)) = some (.ok resolved)) :
    let submitted :=
      toNatsConsumerConfig (seekConfig (durableConfigFromNATS cc) durable resolved)
    (submitted.start.Coherent ↔
      ¬ (Overridden options ∧ (lastSought cc.start options).policy.atPosition = true)) ∧
    ∀ net w w₁, baseDurableConfig net stream durable w = (.ok (durableConfigFromNATS cc), w₁) →
      ∀ s sent, .put s sent ∈ (resetConsumer net find stream durable
          (options.map ReplayOption.opt) w).2.writes →
        .put s sent ∉ w.writes → sent = submitted := by
  intro submitted
  constructor
  · rw [seekConfig_start, startOn_resolved cc.start hresolved, startOn_applyReplayOpts]
    exact (foldl_traced cc.start options hoptions).coherent_iff (lastSought_coherent hcc hoptions)
  · intro net w w₁ hread s sent hput hnew
    obtain hold | ⟨base, w₂, other, hbase, hbounds, hsent⟩ :=
      (resetConsumer_spec rfl).2 s sent hput
    · exact absurd hold hnew
    · rw [hread] at hbase
      cases hbase
      rw [hresolved] at hbounds
      cases hbounds
      refine hsent.exact ?_
      unfold seekConfig applyReplayBoundMetadata
      split_ifs <;> simp [applyReplayConfig, durableConfigFromNATS]

theorem reset_coherent_iff_seek_last :
    (toNatsConsumerConfig (seekConfig (durableConfigFromNATS liveConsumer) "worker"
      (applyReplayOpts [withDeliverPolicy .last, fromSeq 7, untilSeq 9]))).start.Coherent := by
  refine ((reset_coherent_iff liveConsumer (by decide)
    [.withDeliverPolicy .last, .fromSeq 7, .untilSeq 9] ?_ firstFound "ORDERS" "worker" _ rfl).1).mpr ?_
  · intro o ho
    simp only [List.mem_cons, List.not_mem_nil, or_false] at ho
    obtain rfl | rfl | rfl := ho
    · rfl
    · exact Nat.le_add_left 1 6
    · trivial
  · rintro ⟨⟨before, policy, after, hopts, hafter⟩, -⟩
    rcases before with - | ⟨first, - | ⟨second, - | ⟨third, rest⟩⟩⟩ <;> simp at hopts
    exact absurd (hafter (.fromSeq 7) (by simp [← hopts.2])) (by decide)

-- The policy is overridden after a seek, and the start sequence stays.
theorem reset_submits_all_at_sequence :
    liveConsumer.start.Coherent ∧
      ∃ sent, created live (resetConsumer calm firstFound "ORDERS" "worker"
          [fromSeq 100, withDeliverPolicy .all] live).2 = [sent] ∧
        sent.start = ⟨.all, 100, none⟩ ∧ ¬ sent.start.Coherent := by
  have hmap : (created live (resetConsumer calm firstFound "ORDERS" "worker"
      [fromSeq 100, withDeliverPolicy .all] live).2).map ConsumerConfig.start =
        [⟨.all, 100, none⟩] := by
    decide +kernel
  obtain ⟨sent, hsent, hstart⟩ := List.map_eq_singleton_iff.mp hmap
  exact ⟨by decide, sent, hsent, hstart, hstart ▸ by decide⟩

end NatsClient.Replay
