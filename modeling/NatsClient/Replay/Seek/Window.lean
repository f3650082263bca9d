import NatsClient.Replay.Range.ByTime
import NatsClient.Replay.Seek.Bounds

namespace NatsClient.Replay

open ConsumerManager

-- UntilSeq or UntilTime was among the options.
def EndGiven (cfg : ReplayConfig) : Prop :=
  cfg.untilSeqSet = true ∨ (cfg.untilTimeSet = true ∧ cfg.untilTime ≠ none)

-- The window of the result ends before it starts.
def ReplayConsumerResult.Inverted (result : ReplayConsumerResult) : Prop :=
  0 < result.startSeq ∧ result.untilSeq < result.startSeq

-- A request for nothing: its bounds come to an inverted window, or its times are inverted.
def EmptyWindow (find : Search) (stream : String) (cfg : ReplayConfig) : Prop :=
  (EndGiven cfg ∧ ∃ resolved, resolveReplayBounds find stream cfg = some (.ok resolved) ∧
    (replayResult "" resolved).Inverted) ∨
  (cfg.untilTimeSet = true ∧
    ∃ start last, cfg.optStartTime = some start ∧ cfg.untilTime = some last ∧ last < start)

-- The request fails one of the checks that do not depend on the network.
def Call.Refused (c : Call) : Prop :=
  checkReplay c.stream c.durable (applyReplayOpts c.opts) ≠ none ∨
    (c.operation ≠ .reset ∧ (validateDurableName c.target ≠ none ∨ c.target = c.durable))

-- The time bound is resolved to a sequence below the start.
def TimeBelowStart (find : Search) (stream : String) (cfg : ReplayConfig) : Prop :=
  cfg.untilTimeSet = true ∧ cfg.untilSeqSet = false ∧ cfg.optStartSeqSet = true ∧
    ∃ t seq, cfg.untilTime = some t ∧ find stream t = some (.ok seq) ∧ seq < cfg.optStartSeq

-- No window of a successful call is inverted, and a call for an empty window fails before it
-- writes.
structure Call.Proper (c : Call) (w : World) : Prop where
  window : ∀ result w', c.run w = (some (.ok result), w') → EndGiven (applyReplayOpts c.opts) →
    ¬ result.Inverted
  rejected : EmptyWindow c.find c.stream (applyReplayOpts c.opts) →
    (∃ e, (c.run w).1 = some (.error e)) ∧ World.Same w (c.run w).2

-- Where the end of the resolved window comes from.
inductive Resolution (find : Search) (stream : String) (cfg resolved : ReplayConfig) : Prop
  | given (asked : cfg.untilSeqSet = true) (set : resolved.untilSeqSet = true)
      (value : resolved.untilSeq = cfg.untilSeq)
  | searched (t : Int) (time : cfg.untilTime = some t) (timed : cfg.untilTimeSet = true)
      (unset : cfg.untilSeqSet = false) (found : find stream t = some (.ok resolved.untilSeq))
      (set : resolved.untilSeqSet = true)
  | absent (none : ¬ EndGiven cfg)

section Resolve

variable {find : Search} {stream : String} {cfg resolved : ReplayConfig}

theorem oneMessageBound_of_set {out : ReplayConfig} (h : out.untilSeqSet = true) :
    oneMessageBound out = out := by
  simp [oneMessageBound, h]

theorem resolution (h : resolveReplayBounds find stream cfg = some (.ok resolved)) :
    Resolution find stream cfg resolved := by
  cases hset : cfg.untilSeqSet with
  | true =>
    have hsame : resolved = cfg := by
      unfold resolveReplayBounds at h
      simp only [hset, Bool.not_true, Bool.and_false, Bool.false_eq_true, if_false,
        oneMessageBound_of_set hset] at h
      split at h <;> cases h <;> rfl
    subst hsame
    exact .given hset hset rfl
  | false =>
    unfold resolveReplayBounds at h
    split at h
    next t htime =>
      cases htimed : cfg.untilTimeSet with
      | false =>
        refine .absent ?_
        simp [EndGiven, hset, htimed]
      | true =>
        simp only [hset, htimed, Bool.not_false, Bool.and_self, if_true] at h
        split at h <;> cases h
        next seq hfound =>
          rw [oneMessageBound_of_set rfl]
          exact .searched t htime htimed hset hfound rfl
    next htime =>
      refine .absent ?_
      simp [EndGiven, hset, htime]

theorem validateReplayBounds_of_inverted (huntil : cfg.untilSeqSet = true)
    (hstart : cfg.optStartSeqSet = true) (hlt : cfg.untilSeq < cfg.optStartSeq) :
    validateReplayBounds cfg ≠ none := by
  simp only [validateReplayBounds, huntil, hstart, hlt, Bool.and_self, decide_true, if_true]
  split_ifs <;> simp

theorem validateReplayBounds_of_times (htimed : cfg.untilTimeSet = true) {start last : Int}
    (hstart : cfg.optStartTime = some start) (huntil : cfg.untilTime = some last)
    (hlt : last < start) : validateReplayBounds cfg ≠ none := by
  simp only [validateReplayBounds, htimed, hstart, huntil, hlt, Bool.true_and, decide_true, if_true]
  split_ifs <;> simp

theorem checkReplay_of_bounds {durable : String} (h : validateReplayBounds cfg ≠ none) :
    checkReplay stream durable cfg ≠ none := by
  intro hcheck
  simp only [checkReplay, Option.orElse_eq_none] at hcheck
  exact h hcheck.2.2.2

-- An inverted window either fails the check of the raw bounds, or the search has found it.
theorem inverted_cases {target : String} (hend : EndGiven cfg)
    (h : resolveReplayBounds find stream cfg = some (.ok resolved))
    (hinv : (replayResult target resolved).Inverted) :
    validateReplayBounds cfg ≠ none ∨ TimeBelowStart find stream cfg := by
  have hstart : resolved.optStartSeqSet = cfg.optStartSeqSet ∧
      resolved.optStartSeq = cfg.optStartSeq := by
    obtain ⟨seq, set, rfl⟩ := resolveReplayBounds_rest h
    exact ⟨rfl, rfl⟩
  obtain ⟨hpos, hlt⟩ := hinv
  simp only [replayResult, hstart.1, hstart.2] at hpos hlt
  have hset : cfg.optStartSeqSet = true := by
    by_contra hnot
    simp [hnot] at hpos
  simp only [hset, if_true] at hpos hlt
  cases resolution h with
  | given huntil hthen hvalue =>
    rw [hthen, if_pos rfl, hvalue] at hlt
    exact .inl (validateReplayBounds_of_inverted huntil hset hlt)
  | searched t htime htimed hunset hfound hthen =>
    rw [hthen, if_pos rfl] at hlt
    exact .inr ⟨htimed, hunset, hset, t, _, htime, hfound, hlt⟩
  | absent hnone => exact absurd hend hnone

end Resolve

-- A refused request ends with an error and without a write.
theorem Call.run_of_refused {c : Call} (h : c.Refused) (w : World) :
    (∃ e, (c.run w).1 = some (.error e)) ∧ World.Same w (c.run w).2 := by
  obtain ⟨operation, net, find, stream, durable, opts⟩ := c
  cases hcheck : checkReplay stream durable (applyReplayOpts opts) with
  | some e =>
    cases operation <;> simp only [Call.run, resetConsumer, createReplayConsumer, hcheck] <;>
      exact ⟨⟨e, rfl⟩, rfl, rfl⟩
  | none =>
    obtain hfail | ⟨hop, hname⟩ := h
    · exact absurd hcheck hfail
    · cases operation with
      | reset => exact absurd rfl hop
      | create nuid =>
        simp only [Call.target] at hname
        simp only [Call.run, createReplayConsumer, hcheck]
        cases hbase : baseDurableConfig net stream durable w with
        | mk answer w₁ =>
          have hsame := (baseDurableConfig_spec hbase).1
          cases answer with
          | error e => exact ⟨⟨e, rfl⟩, hsame⟩
          | ok base =>
            cases hvalid : validateDurableName
                (replayTarget nuid durable (applyReplayOpts opts)) with
            | some e => exact ⟨⟨e, rfl⟩, hsame⟩
            | none =>
              have htarget := hname.resolve_left fun hnot => hnot hvalid
              simp only [htarget, if_true]
              exact ⟨⟨_, rfl⟩, hsame⟩

-- On a server without consumers, where nothing fails.
def vacant : World := ⟨fun _ => none, [], 0⟩

theorem baseDurableConfig_vacant {stream durable : String}
    (hstream : validateStreamName stream = none) (hdurable : validateDurableName durable = none) :
    baseDurableConfig calm stream durable vacant =
      (.ok { durable := durable, ackPolicy := .explicit, hasAckPolicy := true },
        vacant.tick.tick.tick) := by
  unfold baseDurableConfig
  rw [consumerInfo_absent (fun _ => rfl) hstream hdurable rfl rfl]
  simp

theorem seek_vacant {find : Search} {place stream target : String} {base : DurableConsumerConfig}
    {cfg resolved : ReplayConfig} {w : World} (habsent : w.store (stream, target) = none)
    (hstream : validateStreamName stream = none) (htarget : validateDurableName target = none)
    (hfilters : validateFilters (mergedFilters base cfg).1 (mergedFilters base cfg).2 = none)
    (h : resolveReplayBounds find stream cfg = some (.ok resolved)) :
    (seek calm find place stream target base cfg w).1 =
      some (.ok (replayResult target resolved)) := by
  have habsent' : w.tick.tick.tick.store (stream, (seekConfig base target resolved).durable) =
      none := by
    rw [seekConfig_durable]
    exact habsent
  obtain ⟨hone, hmany⟩ := seekConfig_filters base target h
  have hcreate := createOrUpdateConsumer_calm habsent' hstream (by simpa using htarget)
    (by rw [hone, hmany]; exact hfilters)
  have hctx (n : Nat) : calm.ctxErr n = none := rfl
  have hrecreate : (recreateDurable calm stream target (seekConfig base target resolved) w).1 =
      none := by
    simp only [recreateDurable, consumerInfo_absent hctx hstream htarget rfl habsent,
      GoError.wrap_is, GoError.sentinel_is, decide_true, if_true, hcreate]
  cases hr : recreateDurable calm stream target (seekConfig base target resolved) w with
  | mk err w₁ =>
    rw [hr] at hrecreate
    cases hrecreate
    simp only [seek, h, hr]

-- The filters of the options are checked where the base has none.
theorem mergedFilters_valid (base : DurableConsumerConfig) (hone : base.filterSubject = "")
    (hmany : base.filterSubjects = []) {cfg : ReplayConfig}
    (h : validateReplayFilters cfg = none) :
    validateFilters (mergedFilters base cfg).1 (mergedFilters base cfg).2 = none := by
  simp only [validateReplayFilters, validateFilters, Option.orElse_eq_none] at h ⊢
  unfold mergedFilters
  split_ifs <;> simp_all [validateSubjects]

theorem Call.run_vacant {operation : Operation} {find : Search} {stream durable : String}
    {opts : List ReplayOpt} {resolved : ReplayConfig}
    (hnot : ¬ Call.Refused ⟨operation, calm, find, stream, durable, opts⟩)
    (h : resolveReplayBounds find stream (applyReplayOpts opts) = some (.ok resolved)) :
    (Call.run ⟨operation, calm, find, stream, durable, opts⟩ vacant).1 =
      some (.ok (replayResult
        (Call.target ⟨operation, calm, find, stream, durable, opts⟩) resolved)) := by
  simp only [Call.Refused, not_or, not_not, not_and] at hnot
  obtain ⟨hcheck, hname⟩ := hnot
  have hchecks := hcheck
  simp only [checkReplay, Option.orElse_eq_none] at hchecks
  have hbase := baseDurableConfig_vacant hchecks.1 hchecks.2.1
  have hfilters := mergedFilters_valid
    { durable := durable, ackPolicy := .explicit, hasAckPolicy := true } rfl rfl hchecks.2.2.1
  cases operation with
  | reset =>
    simp only [Call.run, Call.target, resetConsumer, hcheck, hbase]
    exact seek_vacant rfl hchecks.1 hchecks.2.1 hfilters h
  | create nuid =>
    obtain ⟨hvalid, hne⟩ := hname (by simp)
    simp only [Call.target] at hvalid hne
    simp only [Call.run, Call.target, createReplayConsumer, hcheck, hbase, hvalid, hne, if_false]
    exact seek_vacant rfl hchecks.1 hvalid hfilters h

theorem TimeBelowStart.inverted {find : Search} {stream : String} {cfg : ReplayConfig}
    (h : TimeBelowStart find stream cfg) :
    ∃ resolved, resolveReplayBounds find stream cfg = some (.ok resolved) ∧
      ∀ target, (replayResult target resolved).Inverted := by
  obtain ⟨htimed, hunset, hset, t, seq, htime, hfound, hlt⟩ := h
  refine ⟨{ cfg with untilSeq := seq, untilSeqSet := true }, ?_, fun target => ?_⟩
  · simp only [resolveReplayBounds, htime, htimed, hunset, hfound, Bool.not_false, Bool.and_self,
      if_true, oneMessageBound_of_set]
  · have hpos : 0 < cfg.optStartSeq := Nat.zero_lt_of_lt hlt
    simp only [ReplayConsumerResult.Inverted, replayResult, hset, if_true]
    exact ⟨hpos, hlt⟩

-- Unless its UntilTime comes to a sequence below the start, a request for an inverted window is
-- refused.
theorem Call.refused_of_inverted {c : Call} {target : String} {resolved : ReplayConfig}
    (hcond : c.Refused ∨ ¬ TimeBelowStart c.find c.stream (applyReplayOpts c.opts))
    (hend : EndGiven (applyReplayOpts c.opts))
    (hresolved : resolveReplayBounds c.find c.stream (applyReplayOpts c.opts) =
      some (.ok resolved))
    (hinv : (replayResult target resolved).Inverted) : c.Refused := by
  obtain hbad | hbelow := inverted_cases hend hresolved hinv
  · exact .inl (checkReplay_of_bounds hbad)
  · exact hcond.resolve_right fun hnot => hnot hbelow

theorem eq_ok_of_toOption {α : Type} {r : Option (Except GoError α)} {a : α}
    (h : r.bind Except.toOption = some a) : r = some (.ok a) := by
  cases r with
  | none => cases h
  | some answer =>
    cases answer with
    | error e => cases h
    | ok b =>
      cases h
      rfl

-- Two messages at times 10 and 20, and a replay from 2 until time 15.
def betweenTwo : Option (Except GoError ReplayConsumerResult) × World :=
  resetConsumer calm (fun name t => findLastSeqAtOrBefore pair.server name t 3) "ORDERS" "worker"
    [fromSeq 2, untilTime 15] live

end NatsClient.Replay
