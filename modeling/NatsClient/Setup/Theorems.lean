import NatsClient.ConsumerManager.Theorems
import NatsClient.Setup.Patches

namespace NatsClient.Setup

open ConsumerManager Lib.Patching

section Calls

variable {server : Server} {client : ClientConfig} {setup : WorkerSetup} {call : Call}
  {w w' : World}

def WorkerSetup.key (setup : WorkerSetup) : String × String :=
  (setup.stream, setup.consumer.durable)

-- What the durable is to be, given what it is.
def patched (server : Server) (call : Call) (setup : WorkerSetup) (info : ConsumerConfig) :
    ConsumerConfig × Bool :=
  run (allPatches call setup) (server.report info, false)

-- applySetupDurableConfig fails without effect, or the durable is as the setup wants it. It is
-- then as it was, or was updated.
theorem applySetupDurableConfig_spec {r : Option GoError}
    (h : applySetupDurableConfig server call setup w = (r, w')) :
    ((∃ e, r = some e) ∧ World.Same w w') ∨
      r = none ∧ ∃ info, w.store setup.key = some info ∧
        ((patched server call setup info).2 = false ∧ World.Same w w' ∨
          (patched server call setup info).2 = true ∧
            World.Wrote w w' (setup.stream, (patched server call setup info).1.durable)
              (some (patched server call setup info).1)
              (.put setup.stream (patched server call setup info).1)) := by
  unfold applySetupDurableConfig at h
  cases hinfo : consumerInfo call.net setup.stream setup.consumer.durable w with
  | mk answer w₁ =>
    obtain ⟨hsame, hfound⟩ := consumerInfo_spec hinfo
    rw [hinfo] at h
    cases answer with
    | error e =>
      cases h
      exact .inl ⟨⟨_, rfl⟩, hsame⟩
    | ok info =>
      have hpatched : run [filterPatch setup] (run (settingPatches call setup.consumer)
          (server.report info, false)) = patched server call setup info :=
        (run_append _ _ _).symm
      simp only [hpatched] at h
      split_ifs at h with hpolicy hupdated
      · cases h
        exact .inl ⟨⟨_, rfl⟩, hsame⟩
      · cases h
        exact .inr ⟨rfl, info, hfound info rfl, .inl ⟨by simpa using hupdated, hsame⟩⟩
      · cases hupdate : updateConsumer call.net setup.stream
            (patched server call setup info).1 w₁ with
        | mk answer w₂ =>
          rw [hupdate] at h
          obtain ⟨⟨e, rfl⟩, hlast⟩ | ⟨rfl, hput⟩ := updateConsumer_spec hupdate <;> cases h
          · exact .inl ⟨⟨_, rfl⟩, hsame.trans hlast⟩
          · exact .inr ⟨rfl, info, hfound info rfl,
              .inr ⟨by simpa using hupdated, hsame.wrote hput⟩⟩

-- The options as nats.go sees them.
def offered (client : ClientConfig) (setup : WorkerSetup) : SubOpts :=
  collect (appendConsumerOpts client.consumer (workerOpts client setup) true)

theorem consumer_ackWait_pos (client : ClientConfig) : 0 < client.consumer.ackWait := by
  simp only [ClientConfig.consumer]
  split_ifs with h
  · decide
  · omega

-- The setting of the setup where it is positive, and else that of the client.
def wantedMaxAckPending (client : ClientConfig) (setup : WorkerSetup) : Int :=
  if 0 < setup.consumer.maxAckPending then setup.consumer.maxAckPending else client.maxAckPending

-- The last AckWait option is that of the client's consumer.
theorem offered_eq (client : ClientConfig) (setup : WorkerSetup) :
    offered client setup =
      { ackWait := some client.consumer.ackWait
        maxAckPending :=
          if setup.multi = false ∧ 0 < wantedMaxAckPending client setup then
            some (wantedMaxAckPending client setup)
          else none
        stream := setup.stream
        durable := setup.consumer.durable
        bound := setup.multi } := by
  have hmax : (if setup.consumer.maxAckPending ≤ 0 then client.maxAckPending
      else setup.consumer.maxAckPending) = wantedMaxAckPending client setup := by
    unfold wantedMaxAckPending
    split_ifs <;> omega
  have happend : ∀ opts, appendConsumerOpts client.consumer opts true =
      opts ++ [.manualAck] ++ [.ackWait client.consumer.ackWait] := fun opts => by
    simp [appendConsumerOpts, consumer_ackWait_pos client]
  unfold offered workerOpts collect
  rw [happend]
  cases setup.multi with
  | true => rfl
  | false =>
    simp only [setupWorkerSubOpts, hmax]
    split_ifs <;> simp_all [SubOpts.add]

-- A subscription fails without effect, listens where the durable delivers to, or makes the
-- durable.
inductive Subscribed (server : Server) (call : Call) (queue subject : String) (o : SubOpts)
    (w w' : World) : Except Failure Subscription → Prop
  | failed (f : Failure) (hw : World.Same w w')
      (hf : f.mismatch = true → ∃ cc, w.store (o.stream, o.durable) = some cc ∧
        o.mismatch (server.report cc) = true) :
      Subscribed server call queue subject o w w' (.error f)
  | found (cc : ConsumerConfig) (hw : World.Same w w')
      (hcc : w.store (o.stream, o.durable) = some cc)
      (hfits : o.mismatch (server.report cc) = false) :
      Subscribed server call queue subject o w w' (.ok ⟨cc.deliverSubject, false⟩)
  | made (hbound : o.bound = false) (habsent : w.store (o.stream, o.durable) = none)
      (hput : World.Wrote w w' (o.stream, o.durable) (some (o.config queue subject call.inbox))
        (.put o.stream (o.config queue subject call.inbox))) :
      Subscribed server call queue subject o w w' (.ok ⟨call.inbox, true⟩)

theorem Js.queueSubscribe_spec {queue subject : String} {o : SubOpts}
    {r : Except Failure Subscription}
    (h : Js.queueSubscribe server call queue subject o w = (r, w')) :
    Subscribed server call queue subject o w w' r := by
  unfold Js.queueSubscribe at h
  cases hfault : call.net.fault w.clock with
  | some e =>
    rw [hfault] at h
    cases h
    exact .failed _ w.same_tick (by simp)
  | none =>
    rw [hfault] at h
    cases hcc : w.store (o.stream, o.durable) with
    | some cc =>
      simp only [hcc] at h
      split_ifs at h with hmismatch
      · cases h
        exact .failed _ w.same_tick fun _ => ⟨cc, hcc, hmismatch⟩
      · cases hunfit : call.unfit cc with
        | some e =>
          rw [hunfit] at h
          cases h
          exact .failed _ w.same_tick (by simp)
        | none =>
          rw [hunfit] at h
          cases h
          exact .found cc w.same_tick hcc (by simpa using hmismatch)
    | none =>
      simp only [hcc] at h
      split_ifs at h with hbound
      · cases h
        exact .failed _ w.same_tick (by simp)
      · cases h
        exact .made (by simpa using hbound) hcc (w.wrote_put _ _)

theorem queueSubscribe_spec {subject : String} {r : Except Failure Subscription}
    (h : queueSubscribe server client call setup.queue subject (workerOpts client setup) w =
      (r, w')) :
    Subscribed server call setup.queue subject (offered client setup) w w' r := by
  unfold queueSubscribe at h
  split at h
  · cases h
    exact .failed _ ⟨rfl, rfl⟩ (by simp)
  · cases hsub : Js.queueSubscribe server call setup.queue subject (offered client setup) w with
    | mk answer w₁ =>
      have hspec := Js.queueSubscribe_spec hsub
      simp only [← offered.eq_def, hsub] at h
      cases answer with
      | ok sub =>
        cases h
        exact hspec
      | error f =>
        cases h
        cases hspec with
        | failed _ hw hf => exact .failed _ hw hf

theorem mismatch_eq_false_iff (client : ClientConfig) (setup : WorkerSetup)
    (cc : ConsumerConfig) :
    (offered client setup).mismatch cc = false ↔
      cc.ackWait = client.consumer.ackWait ∧
        (setup.multi = false → 0 < wantedMaxAckPending client setup →
          cc.maxAckPending = wantedMaxAckPending client setup) := by
  rw [offered_eq]
  by_cases hmax : setup.multi = false ∧ 0 < wantedMaxAckPending client setup
  · simp only [SubOpts.mismatch, if_pos hmax, Option.any_some, Bool.or_eq_false_iff,
      decide_eq_false_iff_not, not_not]
    exact ⟨fun h => ⟨h.1.symm, fun _ _ => h.2.symm⟩,
      fun h => ⟨h.1.symm, (h.2 hmax.1 hmax.2).symm⟩⟩
  · have himp : setup.multi = false → ¬ 0 < wantedMaxAckPending client setup := not_and.mp hmax
    simp only [SubOpts.mismatch, if_neg hmax, Option.any_some, Option.any_none, Bool.or_false,
      decide_eq_false_iff_not, not_not]
    exact ⟨fun h => ⟨h.symm, fun hmulti hpos => absurd hpos (himp hmulti)⟩, fun h => h.1.symm⟩

-- A durable that a call of SetupWorker can leave as it is.
structure Ready (server : Server) (client : ClientConfig) (setup : WorkerSetup)
    (cc : ConsumerConfig) : Prop where
  settled : ∀ call, Settled (allPatches call setup) (server.report cc)
  fits : (offered client setup).mismatch (server.report cc) = false

-- The setup and the client agree on AckWait.
def Agrees (client : ClientConfig) (setup : WorkerSetup) : Prop :=
  setup.consumer.ackWait ≤ 0 ∨ setup.consumer.ackWait = client.consumer.ackWait

theorem report_patched (server : Server) (call : Call) (setup : WorkerSetup)
    (info : ConsumerConfig) :
    server.report (patched server call setup info).1 = (patched server call setup info).1 := by
  have hwait : server.ackWait (patched server call setup info).1.ackWait =
      (patched server call setup info).1.ackWait := by
    rw [patched, run_allPatches_ackWait]
    split_ifs with hset
    · exact server.ackWait_of_pos _ hset
    · exact server.ackWait_idem _
  have hmax : server.maxAckPending (patched server call setup info).1.maxAckPending =
      (patched server call setup info).1.maxAckPending := by
    rw [patched, run_allPatches_maxAckPending]
    split_ifs with hset
    · exact server.maxAckPending_of_pos _ hset
    · exact server.maxAckPending_idem _
  simp only [Server.report, hwait, hmax]

-- Where setup and client agree, the update keeps the durable fit for the subscription.
theorem patched_fits (ha : Agrees client setup) {info : ConsumerConfig}
    (hfits : (offered client setup).mismatch (server.report info) = false) (call : Call) :
    (offered client setup).mismatch (patched server call setup info).1 = false := by
  rw [mismatch_eq_false_iff] at hfits ⊢
  rw [patched, run_allPatches_ackWait, run_allPatches_maxAckPending]
  constructor
  · split_ifs with hset
    · exact ha.resolve_left (by omega)
    · exact hfits.1
  · intro hmulti hpos
    split_ifs with hset
    · simp [wantedMaxAckPending, hset]
    · exact hfits.2 hmulti hpos

theorem ready_patched (ha : Agrees client setup) {info : ConsumerConfig}
    (hfits : (offered client setup).mismatch (server.report info) = false) (call : Call) :
    Ready server client setup (patched server call setup info).1 := by
  refine ⟨fun call' => ?_, ?_⟩
  · rw [report_patched]
    exact settled_of_call call' (settled_run (compatible_allPatches call setup) _)
  · rw [report_patched]
    exact patched_fits ha hfits call

theorem finishSetup_ready (ha : Agrees client setup) {sub sub' : Subscription}
    {info : ConsumerConfig} (hinfo : w.store setup.key = some info)
    (hname : info.durable = setup.consumer.durable)
    (hfits : (offered client setup).mismatch (server.report info) = false)
    (h : finishSetup server call setup sub w = (.ok sub', w')) :
    ∃ cc, w'.store setup.key = some cc ∧ Ready server client setup cc := by
  unfold finishSetup at h
  cases happly : applySetupDurableConfig server call setup w with
  | mk r w₁ =>
    rw [happly] at h
    obtain ⟨⟨e, rfl⟩, -⟩ | ⟨rfl, found, hfound, hdone⟩ := applySetupDurableConfig_spec happly
    · cases h
    · cases h
      cases hinfo.symm.trans hfound
      obtain ⟨hunchanged, hsame⟩ | ⟨-, hput⟩ := hdone
      · refine ⟨info, hsame.1 ▸ hinfo, fun call' => ?_, hfits⟩
        have hrun : (patched server call setup info).1 = server.report info :=
          congrArg Prod.fst (run_eq_of_unchanged _ hunchanged)
        exact hrun ▸ settled_of_call call'
          (settled_run (compatible_allPatches call setup) (server.report info, false))
      · have hdurable : (patched server call setup info).1.durable = setup.consumer.durable :=
          (congrArg Prod.fst (run_allPatches_address call setup (server.report info))).trans hname
        refine ⟨_, ?_, ready_patched ha hfits call⟩
        rw [hput.1, hdurable]
        exact Function.update_self _ _ _

-- A ready durable stays as it is.
theorem finishSetup_of_ready {sub : Subscription} (hsub : sub.created = false)
    {cc : ConsumerConfig} (hcc : w.store setup.key = some cc)
    (hready : Ready server client setup cc) {r : Except Failure Subscription}
    (h : finishSetup server call setup sub w = (r, w')) :
    World.Same w w' ∧ ∀ f, r = .error f → f.mismatch = false := by
  have hpatched : patched server call setup cc = (server.report cc, false) :=
    run_of_settled (server.report cc, false) (hready.settled call)
  unfold finishSetup at h
  cases happly : applySetupDurableConfig server call setup w with
  | mk answer w₁ =>
    rw [happly] at h
    obtain ⟨⟨e, rfl⟩, hsame⟩ | ⟨rfl, found, hfound, hdone⟩ := applySetupDurableConfig_spec happly
    · cases h
      simp only [unsubscribe, hsub, Bool.false_eq_true, if_false]
      exact ⟨hsame, by rintro f ⟨⟩; rfl⟩
    · cases h
      cases hcc.symm.trans hfound
      obtain ⟨-, hsame⟩ | ⟨hchanged, -⟩ := hdone
      · exact ⟨hsame, by simp⟩
      · rw [hpatched] at hchanged
        cases hchanged

-- The durable that setupWorkerMultiFilter creates is as the setup wants it.
theorem settled_created (server : Server) (client : ClientConfig) (setup : WorkerSetup)
    (call : Call) (inbox : String) (hmulti : setup.multi = true) :
    Settled (allPatches call setup)
      (server.report (toNatsConsumerConfig (multiFilterConfig client setup inbox))) := by
  refine List.forall_mem_append.mpr ⟨?_, List.forall_mem_singleton.mpr ?_⟩
  · have hwait : 0 < setup.consumer.ackWait → server.ackWait (if setup.consumer.ackWait ≤ 0 then
        client.ackWait else setup.consumer.ackWait) = setup.consumer.ackWait := fun hpos => by
      rw [if_neg (by omega), server.ackWait_of_pos _ hpos]
    have hmax : 0 < setup.consumer.maxAckPending →
        server.maxAckPending (if setup.consumer.maxAckPending ≤ 0 then client.maxAckPending
          else setup.consumer.maxAckPending) = setup.consumer.maxAckPending := fun hpos => by
      rw [if_neg (by omega), server.maxAckPending_of_pos _ hpos]
    simp +contextual [settingPatches, fieldPatch, metadataPatch, metadataDiffers, Server.report,
      toNatsConsumerConfig, multiFilterConfig, hwait, hmax]
  · simp [filterPatch, hmulti, Server.report, toNatsConsumerConfig, multiFilterConfig]

theorem offered_key (client : ClientConfig) (setup : WorkerSetup) :
    ((offered client setup).stream, (offered client setup).durable) = setup.key := by
  rw [offered_eq]
  rfl

-- A durable that nats.go makes for the subscription fits it.
theorem mismatch_config (server : Server) (client : ClientConfig) (setup : WorkerSetup)
    (queue subject inbox : String) :
    (offered client setup).mismatch
      (server.report ((offered client setup).config queue subject inbox)) = false := by
  rw [mismatch_eq_false_iff, offered_eq]
  refine ⟨server.ackWait_of_pos _ (consumer_ackWait_pos client), fun hmulti hpos => ?_⟩
  simp only [Server.report, SubOpts.config, if_pos (And.intro hmulti hpos), Option.getD_some]
  exact server.maxAckPending_of_pos _ hpos

end Calls

section Twice

variable {server : Server} {client : ClientConfig} {setup : WorkerSetup} {call : Call}
  {w w' : World}

-- A consumer is stored under its own name.
def Named (w : World) : Prop :=
  ∀ stream name cc, w.store (stream, name) = some cc → cc.durable = name

-- The subscription and the rest of SetupWorker, which both variants end in.
inductive Finished (server : Server) (client : ClientConfig) (setup : WorkerSetup) (call : Call)
    (subject : String) (w : World) : Except Failure Subscription → World → Prop
  | refused {f : Failure} {w' : World} (err : GoError)
      (hsub : queueSubscribe server client call setup.queue subject (workerOpts client setup) w =
        (.error f, w')) :
      Finished server client setup call subject w (.error { f with err := err }) w'
  | subscribed {sub : Subscription} {w₁ w' : World} {r : Except Failure Subscription}
      (hsub : queueSubscribe server client call setup.queue subject (workerOpts client setup) w =
        (.ok sub, w₁))
      (hfinish : finishSetup server call setup sub w₁ = (r, w')) :
      Finished server client setup call subject w r w'

theorem setupWorkerSingle_finished {r : Except Failure Subscription}
    (h : setupWorkerSingle server client setup call w = (r, w')) :
    Finished server client setup call setup.subject w r w' := by
  unfold setupWorkerSingle at h
  split at h
  · next hsub =>
      cases h
      exact .refused _ hsub
  · next hsub => exact .subscribed hsub h

theorem setupWorkerMultiFilter_cases {r : Except Failure Subscription}
    (h : setupWorkerMultiFilter server client setup call w = (r, w')) :
    ∃ answer w₁, createOrUpdateConsumer call.net setup.stream
        (multiFilterConfig client setup call.inbox) w = (answer, w₁) ∧
      ((∃ f : Failure, r = .error f ∧ f.mismatch = false ∧ w' = w₁) ∨
        (∃ info, answer = .ok info) ∧
          Finished server client setup call (deliverOf setup call.inbox) w₁ r w') := by
  unfold setupWorkerMultiFilter at h
  simp only at h
  split at h
  · next hcreate =>
      cases h
      exact ⟨_, _, hcreate, .inl ⟨_, rfl, rfl, rfl⟩⟩
  · next info w₁ hcreate =>
      refine ⟨_, _, hcreate, .inr ⟨⟨info, rfl⟩, ?_⟩⟩
      split at h
      · next hsub =>
          cases h
          exact .refused _ hsub
      · next hsub => exact .subscribed hsub h

-- What a call of SetupWorker comes to, where its checks and the stream let it.
theorem setupWorker_cases {r : Except Failure Subscription}
    (h : setupWorker server client setup call w = (r, w')) :
    (∃ f : Failure, r = .error f ∧ f.mismatch = false ∧ w' = w) ∨
      validateSetup setup = none ∧
        (if setup.multi then setupWorkerMultiFilter server client setup call w
          else setupWorkerSingle server client setup call w) = (r, w') := by
  unfold setupWorker at h
  split at h
  · cases h
    exact .inl ⟨_, rfl, rfl, rfl⟩
  · next hvalid =>
      split at h
      · cases h
        exact .inl ⟨_, rfl, rfl, rfl⟩
      · exact .inr ⟨hvalid, h⟩

-- A call for one filter that returns a subscription leaves a durable for the next call.
theorem setupWorkerSingle_ready (ha : Agrees client setup) (hw : Named w) {sub : Subscription}
    (h : setupWorkerSingle server client setup call w = (.ok sub, w')) :
    ∃ cc, w'.store setup.key = some cc ∧ Ready server client setup cc := by
  cases setupWorkerSingle_finished h with
  | subscribed hsub hfinish =>
    cases queueSubscribe_spec hsub with
    | found cc hsame hcc hfits =>
      rw [offered_key] at hcc
      exact finishSetup_ready ha (hsame.1 ▸ hcc) (hw _ _ cc hcc) hfits hfinish
    | made hbound habsent hput =>
      have hmade := congrFun hput.1 setup.key
      rw [offered_key, Function.update_self] at hmade
      have hname : (offered client setup).durable = setup.consumer.durable := by rw [offered_eq]
      exact finishSetup_ready ha hmade hname (mismatch_config server client setup _ _ _) hfinish

-- A first call for several filters leaves the durable it has created.
theorem setupWorkerMultiFilter_created (hmulti : setup.multi = true)
    (habsent : w.store setup.key = none) {sub : Subscription}
    (h : setupWorkerMultiFilter server client setup call w = (.ok sub, w')) :
    w'.store setup.key =
        some (toNatsConsumerConfig (multiFilterConfig client setup call.inbox)) ∧
      Ready server client setup
        (toNatsConsumerConfig (multiFilterConfig client setup call.inbox)) := by
  obtain ⟨answer, w₁, hcreate, ⟨f, herror, -⟩ | ⟨⟨info, rfl⟩, hfinished⟩⟩ :=
    setupWorkerMultiFilter_cases h
  · cases herror
  have hput : w₁.store setup.key =
      some (toNatsConsumerConfig (multiFilterConfig client setup call.inbox)) := by
    obtain ⟨hrefused, hcreated⟩ := @createOrUpdateConsumer_of_absent call.net setup.stream
      (multiFilterConfig client setup call.inbox) w habsent
    by_cases hr : Refusing call.net setup.stream (multiFilterConfig client setup call.inbox) w
    · obtain ⟨e, w₂, heq⟩ := hrefused hr
      cases hcreate.symm.trans heq
    · cases hcreate.symm.trans (hcreated hr)
      exact Function.update_self _ _ _
  cases hfinished with
  | subscribed hsub hfinish =>
    cases queueSubscribe_spec hsub with
    | made hbound =>
      rw [offered_eq] at hbound
      exact absurd (hmulti.symm.trans hbound) (by decide)
    | found cc hsame hcc hfits =>
      rw [offered_key] at hcc
      cases hput.symm.trans hcc
      have hready : Ready server client setup
          (toNatsConsumerConfig (multiFilterConfig client setup call.inbox)) :=
        ⟨fun call' => settled_created server client setup call' call.inbox hmulti, hfits⟩
      have hlast := (finishSetup_of_ready rfl (hsame.1 ▸ hcc) hready hfinish).1
      exact ⟨(hlast.1.trans hsame.1) ▸ hcc, hready⟩

-- AddConsumer answers with a durable that differs from the configuration in the deliver subject
-- only.
def Lenient (net : Net) : Prop :=
  ∀ cc deliver, net.checkConfig cc { cc with deliverSubject := deliver } = true

theorem createOrUpdateConsumer_of_accepted {net : Net} {stream : String}
    {cfg : DurableConsumerConfig} {cc : ConsumerConfig} (hfault : ∀ n, net.fault n = none)
    (hcc : w.store (stream, cfg.durable) = some cc)
    (haccept : net.checkConfig cc (toNatsConsumerConfig cfg) = true)
    {r : Except GoError ConsumerConfig}
    (h : createOrUpdateConsumer net stream cfg w = (r, w')) : World.Same w w' := by
  unfold createOrUpdateConsumer at h
  obtain ⟨e, w₁, heq, hw⟩ | ⟨w₁, -, hw, heq⟩ := guarded_cases net
    (validateStreamName stream <|> validateDurableName cfg.durable <|>
      validateFilters cfg.filterSubject cfg.filterSubjects) _ w
  · rw [heq] at h
    cases h
    exact hw
  · have hfound : w₁.store (stream, (toNatsConsumerConfig cfg).durable) = some cc := hw.1 ▸ hcc
    rw [heq] at h
    simp only [Js.addConsumer, hfault, hfound, haccept, if_true] at h
    cases h
    exact hw.trans w₁.same_tick

theorem queueSubscribe_of_ready {cc : ConsumerConfig} (hcc : w.store setup.key = some cc)
    (hready : Ready server client setup cc) {subject : String}
    {r : Except Failure Subscription}
    (h : queueSubscribe server client call setup.queue subject (workerOpts client setup) w =
      (r, w')) :
    World.Same w w' ∧ (∀ f, r = .error f → f.mismatch = false) ∧
      ∀ sub, r = .ok sub → sub.created = false := by
  cases queueSubscribe_spec h with
  | failed f hsame hf =>
    refine ⟨hsame, ?_, by simp⟩
    rintro _ ⟨⟩
    by_contra hmismatch
    obtain ⟨found, hfound, hrefused⟩ := hf (by simpa using hmismatch)
    rw [offered_key] at hfound
    cases hcc.symm.trans hfound
    rw [hready.fits] at hrefused
    cases hrefused
  | found found hsame => exact ⟨hsame, by simp, by rintro _ ⟨⟩; rfl⟩
  | made _ habsent =>
    rw [offered_key, hcc] at habsent
    cases habsent

theorem Finished.of_ready {cc : ConsumerConfig} (hcc : w.store setup.key = some cc)
    (hready : Ready server client setup cc) {subject : String} {r : Except Failure Subscription}
    (h : Finished server client setup call subject w r w') :
    World.Same w w' ∧ ∀ f, r = .error f → f.mismatch = false := by
  cases h with
  | @refused f _ err hsub =>
    obtain ⟨hsame, herror, -⟩ := queueSubscribe_of_ready hcc hready hsub
    exact ⟨hsame, by rintro _ ⟨⟩; exact herror f rfl⟩
  | subscribed hsub hfinish =>
    obtain ⟨hsame, -, hok⟩ := queueSubscribe_of_ready hcc hready hsub
    obtain ⟨hlast, hfailure⟩ :=
      finishSetup_of_ready (hok _ rfl) (hsame.1 ▸ hcc) hready hfinish
    exact ⟨hsame.trans hlast, hfailure⟩

-- A call that finds a ready durable leaves it, and its options are not refused.
theorem setupWorker_of_ready {cc : ConsumerConfig} (hcc : w.store setup.key = some cc)
    (hready : Ready server client setup cc) (hfault : ∀ n, call.net.fault n = none)
    (haccept : setup.multi = true → call.net.checkConfig cc
      (toNatsConsumerConfig (multiFilterConfig client setup call.inbox)) = true)
    {r : Except Failure Subscription}
    (h : setupWorker server client setup call w = (r, w')) :
    World.Same w w' ∧ ∀ f, r = .error f → f.mismatch = false := by
  obtain ⟨f, rfl, hf, rfl⟩ | ⟨-, h⟩ := setupWorker_cases h
  · exact ⟨⟨rfl, rfl⟩, by rintro _ ⟨⟩; exact hf⟩
  · split_ifs at h with hmulti
    · obtain ⟨answer, w₁, hcreate, hrest⟩ := setupWorkerMultiFilter_cases h
      have hkey : w.store (setup.stream, (multiFilterConfig client setup call.inbox).durable) =
          some cc := hcc
      have hfirst := createOrUpdateConsumer_of_accepted hfault hkey (haccept hmulti) hcreate
      obtain ⟨f, rfl, hf, rfl⟩ | ⟨-, hfinished⟩ := hrest
      · exact ⟨hfirst, by rintro _ ⟨⟩; exact hf⟩
      · obtain ⟨hlast, hfailure⟩ := hfinished.of_ready (hfirst.1 ▸ hcc) hready
        exact ⟨hfirst.trans hlast, hfailure⟩
    · exact (setupWorkerSingle_finished h).of_ready hcc hready

def wantedAckWait (client : ClientConfig) (setup : WorkerSetup) : Int :=
  if 0 < setup.consumer.ackWait then setup.consumer.ackWait else client.consumer.ackWait

theorem offered_ackWait_iff (client : ClientConfig) (setup : WorkerSetup) :
    (offered client setup).ackWait = some (wantedAckWait client setup) ↔ Agrees client setup := by
  rw [offered_eq, Option.some_inj, wantedAckWait, Agrees]
  split_ifs <;> omega

-- The options of SetupWorker follow the setup, and a second call with it leaves the durable
-- alone, exactly if the setup has no AckWait of its own or that of the client's consumer.
theorem setup_worker_precedence_iff (server : Server) (client : ClientConfig)
    (setup : WorkerSetup) :
    ((offered client setup).ackWait = some (wantedAckWait client setup) ∧
      ((offered client setup).maxAckPending = none ∨
        (offered client setup).maxAckPending = some (wantedMaxAckPending client setup)) ∧
      ∀ (first : Call) (w : World) (sub : Subscription) (w₁ : World),
        Named w → (setup.multi = true → w.store setup.key = none) →
        setupWorker server client setup first w = (.ok sub, w₁) →
        ∀ (second : Call) (r : Except Failure Subscription) (w₂ : World),
          (∀ n, second.net.fault n = none) → Lenient second.net →
          setupWorker server client setup second w₁ = (r, w₂) →
          w₂.writes = w₁.writes ∧ ∀ f, r = .error f → f.mismatch = false) ↔
    setup.consumer.ackWait ≤ 0 ∨ setup.consumer.ackWait = client.consumer.ackWait := by
  constructor
  · rintro ⟨hwait, -⟩
    exact (offered_ackWait_iff client setup).mp hwait
  · intro ha
    refine ⟨(offered_ackWait_iff client setup).mpr ha, ?_, ?_⟩
    · rw [offered_eq]
      simp only
      split_ifs
      · exact .inr rfl
      · exact .inl rfl
    · intro first w sub w₁ hnamed habsent hfirst second r w₂ hfault hlenient hsecond
      obtain ⟨f, herror, -⟩ | ⟨-, hfirst⟩ := setupWorker_cases hfirst
      · cases herror
      · split_ifs at hfirst with hmulti
        · obtain ⟨hcc, hready⟩ :=
            setupWorkerMultiFilter_created hmulti (habsent hmulti) hfirst
          obtain ⟨hsame, hfailure⟩ := setupWorker_of_ready hcc hready hfault
            (fun _ => hlenient _ (deliverOf setup second.inbox)) hsecond
          exact ⟨hsame.2, hfailure⟩
        · obtain ⟨cc, hcc, hready⟩ := setupWorkerSingle_ready ha hnamed hfirst
          obtain ⟨hsame, hfailure⟩ := setupWorker_of_ready hcc hready hfault
            (fun h => absurd h hmulti) hsecond
          exact ⟨hsame.2, hfailure⟩

end Twice

-- A server with the defaults of nats-server.
def natsServer : Server where
  ackWait wait := if 0 < wait then wait else 30000000000
  maxAckPending n := if 0 < n then n else 1000
  ackWait_of_pos wait h := if_pos h
  ackWait_idem wait := by split_ifs <;> simp_all
  maxAckPending_of_pos n h := if_pos h
  maxAckPending_idem n := by split_ifs <;> simp_all

-- A call in which only the given requests fail.
noncomputable def callWith (inbox : String) (fault : Nat → Option GoError) : Call where
  net := ⟨fun _ => none, fault, fun _ _ => true⟩
  streamErr := none
  inbox := inbox
  unfit _ := none
  range m := if m = ∅ then [] else m.keys.toList
  mem_range m key := by
    by_cases h : m = ∅
    · simp [h, Finmap.notMem_empty]
    · simp [h, Finmap.mem_keys]

def emptyWorld : World := ⟨fun _ => none, [], 0⟩

def halfMinute : ClientConfig := ⟨30000000000, 0, false, 0⟩

def slowOrders : WorkerSetup :=
  ⟨"workers", "orders.new", "ORDERS", { durable := "orders", ackWait := 60000000000 }⟩

-- A worker with an AckWait of one minute is set up, and its restart is refused: the options ask
-- for the half minute of the client, and the durable has the minute of the setup by then.
theorem setup_worker_refuses_restart :
    (offered halfMinute slowOrders).ackWait = some 30000000000 ∧
      (setupWorker natsServer halfMinute slowOrders (callWith "_INBOX.1" fun _ => none)
        emptyWorld).1.toOption = some ⟨"_INBOX.1", true⟩ ∧
      ∃ f w, setupWorker natsServer halfMinute slowOrders (callWith "_INBOX.2" fun _ => none)
        (setupWorker natsServer halfMinute slowOrders (callWith "_INBOX.1" fun _ => none)
          emptyWorld).2 = (.error f, w) ∧ f.mismatch = true := by
  refine ⟨by decide +kernel, by decide +kernel, _, _, rfl, ?_⟩
  decide +kernel

end NatsClient.Setup
