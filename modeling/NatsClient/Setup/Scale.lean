import NatsClient.Lib.Machine
import NatsClient.Setup.Theorems

namespace NatsClient.Setup

open ConsumerManager Lib.Machine

variable {server : Server} {client : ClientConfig} {setup : WorkerSetup} {call : Call}
  {w w' : World} {key : String × String}

-- The deliver subject and the deliver group of a durable that is there.
def delivery (key : String × String) (w : World) : Option (String × String) :=
  (w.store key).map fun cc => (address cc).2

theorem delivery_of_same (h : World.Same w w') : delivery key w' = delivery key w := by
  rw [delivery, delivery, h.1]

def groupOf (setup : WorkerSetup) : String :=
  if setup.consumer.deliverGroup = "" then setup.queue else setup.consumer.deliverGroup

-- The durable is updated in place, so it goes on delivering to where it did.
theorem finishSetup_delivery {sub : Subscription} (hsub : sub.created = false)
    {r : Except Failure Subscription} (h : finishSetup server call setup sub w = (r, w')) :
    delivery setup.key w' = delivery setup.key w ∧ ∀ s, r = .ok s → s = sub := by
  unfold finishSetup at h
  split at h
  · next happly =>
      cases h
      obtain ⟨-, hsame⟩ | ⟨hnone, -⟩ := applySetupDurableConfig_spec happly
      · simp only [unsubscribe, hsub, Bool.false_eq_true, if_false]
        exact ⟨delivery_of_same hsame, by simp⟩
      · cases hnone
  · next happly =>
      cases h
      refine ⟨?_, by rintro _ ⟨⟩; rfl⟩
      obtain ⟨⟨e, herror⟩, -⟩ | ⟨-, info, hinfo, hdone⟩ := applySetupDurableConfig_spec happly
      · cases herror
      obtain ⟨-, hsame⟩ | ⟨-, hput⟩ := hdone
      · exact delivery_of_same hsame
      · have haddress : (address (patched server call setup info).1).2 = (address info).2 :=
          congrArg Prod.snd (run_allPatches_address call setup (server.report info))
        rw [delivery, delivery, hput.1, hinfo]
        by_cases hkey : setup.key = (setup.stream, (patched server call setup info).1.durable)
        · rw [hkey, Function.update_self, Option.map_some, Option.map_some, haddress]
        · rw [Function.update_of_ne hkey, hinfo]

theorem Finished.delivery_eq (hmulti : setup.multi = true) {subject : String}
    {r : Except Failure Subscription} (h : Finished server client setup call subject w r w') :
    delivery setup.key w' = delivery setup.key w ∧
      ∀ sub, r = .ok sub → ∃ group, delivery setup.key w' = some (sub.deliver, group) := by
  cases h with
  | refused err hsub =>
    cases queueSubscribe_spec hsub with
    | failed _ hsame => exact ⟨delivery_of_same hsame, by simp⟩
  | subscribed hsub hfinish =>
    cases queueSubscribe_spec hsub with
    | made hbound =>
      rw [offered_eq] at hbound
      exact absurd (hmulti.symm.trans hbound) (by decide)
    | found cc hsame hcc =>
      rw [offered_key] at hcc
      obtain ⟨hdelivery, hsub⟩ := finishSetup_delivery rfl hfinish
      have hkept := hdelivery.trans (delivery_of_same hsame)
      refine ⟨hkept, fun sub hok => ⟨cc.deliverGroup, ?_⟩⟩
      rw [hkept, hsub sub hok, delivery, hcc]
      rfl

-- A call for several filters leaves the durable where it delivers to or moves it to the
-- subject and the group that it submits. Its subscription listens there.
theorem setupWorkerMultiFilter_delivery (hmulti : setup.multi = true)
    {r : Except Failure Subscription}
    (h : setupWorkerMultiFilter server client setup call w = (r, w')) :
    (delivery setup.key w' = delivery setup.key w ∨
        delivery setup.key w' = some (deliverOf setup call.inbox, groupOf setup)) ∧
      ∀ sub, r = .ok sub → ∃ group, delivery setup.key w' = some (sub.deliver, group) := by
  obtain ⟨answer, w₁, hcreate, hrest⟩ := setupWorkerMultiFilter_cases h
  have hcreated : delivery setup.key w₁ = delivery setup.key w ∨
      delivery setup.key w₁ = some (deliverOf setup call.inbox, groupOf setup) := by
    obtain hsame | ⟨cc, -, hcc, -, hput⟩ := createOrUpdateConsumer_spec hcreate
    · exact .inl (delivery_of_same hsame)
    · right
      have hstore : w₁.store setup.key = some cc := by
        rw [hput.1]
        exact Function.update_self _ _ _
      rw [delivery, hstore, Option.map_some, address, hcc.deliverSubject_eq, hcc.deliverGroup_eq]
      rfl
  obtain ⟨f, rfl, -, rfl⟩ | ⟨-, hfinished⟩ := hrest
  · exact ⟨hcreated, by simp⟩
  · obtain ⟨hdelivery, hsub⟩ := hfinished.delivery_eq hmulti
    exact ⟨hdelivery ▸ hcreated, hsub⟩

-- The broker, and the subscriptions that the replicas have got so far.
structure Fleet where
  world : World
  subs : List Subscription

-- One replica calls SetupWorker.
def join (server : Server) (client : ClientConfig) (setup : WorkerSetup) (s : Fleet)
    (call : Call) : Option Fleet :=
  match setupWorker server client setup call s.world with
  | (.ok sub, w) => some ⟨w, s.subs ++ [sub]⟩
  | (.error _, w) => some ⟨w, s.subs⟩

-- The configuration that a call submits, once its checks and the stream let it.
def submitted? (client : ClientConfig) (setup : WorkerSetup) (call : Call) :
    Option ConsumerConfig :=
  if validateSetup setup = none ∧ call.streamErr = none then
    some (toNatsConsumerConfig (multiFilterConfig client setup call.inbox))
  else none

-- Every subscription listens on the subject that the durable delivers to.
def Listening (setup : WorkerSetup) (s : Fleet) : Prop :=
  ∀ sub ∈ s.subs, ∃ group, delivery setup.key s.world = some (sub.deliver, group)

-- A call that finds the durable submits what it delivers to, and leaves all listening.
def Scales (server : Server) (client : ClientConfig) (setup : WorkerSetup) (s : Fleet)
    (call : Call) : Prop :=
  (∀ existing cc, s.world.store setup.key = some existing →
      submitted? client setup call = some cc →
      cc.deliverSubject = existing.deliverSubject ∧ cc.deliverGroup = existing.deliverGroup) ∧
    ∀ next, join server client setup s call = some next → Listening setup next

theorem join_eq_some (server : Server) (client : ClientConfig) (setup : WorkerSetup) (s : Fleet)
    (call : Call) :
    ∃ r w', setupWorker server client setup call s.world = (r, w') ∧
      join server client setup s call = some ⟨w', s.subs ++ r.toOption.toList⟩ := by
  cases h : setupWorker server client setup call s.world with
  | mk r w' =>
    refine ⟨r, w', rfl, ?_⟩
    cases r <;> simp [join, h, Except.toOption]

section Given

-- The durable delivers to the subject of the setup, and every subscription listens there.
structure Steady (setup : WorkerSetup) (s : Fleet) : Prop where
  durable : ∀ p, delivery setup.key s.world = some p →
    p = (setup.consumer.deliverSubject, groupOf setup)
  listening : Listening setup s

variable {s next : Fleet}

theorem join_steady (hmulti : setup.multi = true) (hgiven : setup.consumer.deliverSubject ≠ "")
    (hs : Steady setup s) (h : join server client setup s call = some next) :
    Steady setup next := by
  obtain ⟨r, w', hcall, hnext⟩ := join_eq_some server client setup s call
  cases hnext.symm.trans h
  have hdeliver : deliverOf setup call.inbox = setup.consumer.deliverSubject := if_neg hgiven
  obtain ⟨f, rfl, -, rfl⟩ | ⟨-, hcall⟩ := setupWorker_cases hcall
  · exact ⟨hs.durable, by simpa [Listening, Except.toOption] using hs.listening⟩
  rw [if_pos hmulti] at hcall
  obtain ⟨hdelivery, hsub⟩ := setupWorkerMultiFilter_delivery hmulti hcall
  rw [hdeliver] at hdelivery
  constructor
  · intro p hp
    rcases hdelivery with hkept | hmoved
    · exact hs.durable p (hkept ▸ hp)
    · exact (Option.some.inj (hmoved.symm.trans hp)).symm
  · intro sub hmem
    rcases List.mem_append.mp hmem with hmem | hmem
    · obtain ⟨group, hgroup⟩ := hs.listening sub hmem
      rcases hdelivery with hkept | hmoved
      · exact ⟨group, hkept.trans hgroup⟩
      · have hsame : sub.deliver = setup.consumer.deliverSubject :=
          congrArg Prod.fst (hs.durable _ hgroup)
        exact ⟨groupOf setup, hsame ▸ hmoved⟩
    · cases r with
      | error f => simp [Except.toOption] at hmem
      | ok new =>
        obtain rfl : sub = new := by simpa [Except.toOption] using hmem
        exact hsub sub rfl

theorem scales_of_steady (hmulti : setup.multi = true)
    (hgiven : setup.consumer.deliverSubject ≠ "") (hs : Steady setup s) :
    Scales server client setup s call := by
  refine ⟨fun existing cc hexisting hcc => ?_,
    fun next h => (join_steady hmulti hgiven hs h).listening⟩
  have haddress := hs.durable (address existing).2 (by rw [delivery, hexisting]; rfl)
  unfold submitted? at hcc
  split_ifs at hcc
  cases hcc
  have hdeliver : deliverOf setup call.inbox = setup.consumer.deliverSubject := if_neg hgiven
  exact ⟨hdeliver.trans (congrArg Prod.fst haddress).symm, (congrArg Prod.snd haddress).symm⟩

end Given

def emptyFleet : Fleet := ⟨emptyWorld, []⟩

-- The checks of a setup for several filters that passes its own let CreateOrUpdateConsumer pass.
theorem checks_of_valid (hmulti : setup.multi = true) (hvalid : validateSetup setup = none) :
    validateStreamName setup.stream = none ∧
      validateDurableName setup.consumer.durable = none ∧
      validateFilters setup.consumer.filterSubject setup.consumer.filterSubjects = none := by
  simp only [validateSetup, validateFilter, hmulti, if_true, Option.orElse_eq_none,
    Option.map_eq_none_iff] at hvalid
  obtain ⟨hstream, hdurable, -, hsubjects, hfilter, -⟩ := hvalid
  refine ⟨hstream, hdurable, ?_⟩
  split_ifs at hfilter with hempty
  simp [validateFilters, hempty, hsubjects]

-- Without faults a first call creates the durable, whatever becomes of its subscription.
theorem setupWorker_creates (server : Server) (client : ClientConfig) (call : Call) (w : World)
    (hmulti : setup.multi = true) (hvalid : validateSetup setup = none)
    (hstream : call.streamErr = none)
    (hctx : ∀ n, call.net.ctxErr n = none) (hfault : ∀ n, call.net.fault n = none)
    (habsent : w.store setup.key = none) :
    delivery setup.key (setupWorker server client setup call w).2 =
      some (deliverOf setup call.inbox, groupOf setup) := by
  have hcall : setupWorker server client setup call w =
      setupWorkerMultiFilter server client setup call w := by
    simp [setupWorker, hvalid, hstream, hmulti]
  obtain ⟨hname, hdurable, hfilters⟩ := checks_of_valid hmulti hvalid
  have hrefusing : ¬ Refusing call.net setup.stream
      (multiFilterConfig client setup call.inbox) w := by
    simp [Refusing, hctx, hfault, hname, multiFilterConfig, hdurable, hfilters]
  have hcreated := (@createOrUpdateConsumer_of_absent call.net setup.stream
    (multiFilterConfig client setup call.inbox) w habsent).2 hrefusing
  obtain ⟨answer, w₁, hcreate, hrest⟩ := setupWorkerMultiFilter_cases
    (Prod.mk.eta (p := setupWorkerMultiFilter server client setup call w)).symm
  cases hcreate.symm.trans hcreated
  have hdelivery : delivery setup.key (w.tick.tick.tick.put setup.stream
      (toNatsConsumerConfig (multiFilterConfig client setup call.inbox))) =
      some (deliverOf setup call.inbox, groupOf setup) := by
    unfold delivery
    rw [show (w.tick.tick.tick.put setup.stream (toNatsConsumerConfig
      (multiFilterConfig client setup call.inbox))).store setup.key = some _ from
      Function.update_self _ _ _]
    rfl
  rw [hcall]
  obtain ⟨f, -, -, hw⟩ | ⟨-, hfinished⟩ := hrest
  · rw [hw, hdelivery]
  · rw [(hfinished.delivery_eq hmulti).1, hdelivery]

-- Without a deliver subject in the setup, the second of two calls without faults finds the durable
-- on the inbox of the first and submits its own.
theorem not_along_of_inbox (server : Server) (client : ClientConfig) {setup : WorkerSetup}
    (hmulti : setup.multi = true) (hempty : setup.consumer.deliverSubject = "")
    (hvalid : validateSetup setup = none) :
    ¬ Along (join server client setup) (Scales server client setup) emptyFleet
      [callWith "_INBOX.1" fun _ => none, callWith "_INBOX.2" fun _ => none] := by
  rintro ⟨-, hsecond⟩
  obtain ⟨r, w₁, hcall, hjoin⟩ :=
    join_eq_some server client setup emptyFleet (callWith "_INBOX.1" fun _ => none)
  obtain ⟨⟨hsubmits, -⟩, -⟩ := hsecond _ hjoin
  have hcreated : delivery setup.key w₁ = some ("_INBOX.1", groupOf setup) := by
    have hfirst := setupWorker_creates server client (callWith "_INBOX.1" fun _ => none)
      emptyFleet.world hmulti hvalid rfl (fun _ => rfl) (fun _ => rfl) rfl
    rwa [hcall, deliverOf, if_pos hempty] at hfirst
  obtain ⟨existing, hexisting, haddress⟩ := Option.map_eq_some_iff.mp hcreated
  have hsame := (hsubmits existing _ hexisting (if_pos ⟨hvalid, rfl⟩)).1
  have hinbox : deliverOf setup "_INBOX.2" = "_INBOX.1" :=
    hsame.trans (congrArg Prod.fst haddress)
  rw [deliverOf, if_pos hempty] at hinbox
  exact absurd hinbox (by decide)

-- A call that its checks refuse returns no subscription.
theorem join_subs_of_refused {s next : Fleet} {call : Call} (hrefused : validateSetup setup ≠ none)
    (h : join server client setup s call = some next) : next.subs = s.subs := by
  obtain ⟨r, w', hcall, hjoin⟩ := join_eq_some server client setup s call
  cases hjoin.symm.trans h
  obtain ⟨f, rfl, -⟩ | ⟨hvalid, -⟩ := setupWorker_cases hcall
  · simp [Except.toOption]
  · exact absurd hvalid hrefused

-- Replicas of a worker with several filters can be added without end exactly if the setup names
-- the deliver subject, or is refused from the start.
theorem workers_scale_out_iff (server : Server) (client : ClientConfig) (setup : WorkerSetup)
    (hfilters : setup.consumer.filterSubjects ≠ []) :
    (∀ calls : List Call, (calls.map Call.inbox).Nodup →
      Along (join server client setup) (Scales server client setup) emptyFleet calls) ↔
    setup.consumer.deliverSubject ≠ "" ∨ validateSetup setup ≠ none := by
  have hmulti : setup.multi = true := decide_eq_true hfilters
  constructor
  · intro h
    by_contra hneither
    rw [not_or, not_not, not_not] at hneither
    exact not_along_of_inbox server client hmulti hneither.1 hneither.2 (h _ (by decide))
  · rintro (hgiven | hrefused) calls -
    · refine along_of_invariant (P := Steady setup) ?_ ?_ ?_ calls
      · exact fun s call next hs h => join_steady hmulti hgiven hs h
      · exact fun s call hs => scales_of_steady hmulti hgiven hs
      · exact ⟨by simp [delivery, emptyFleet, emptyWorld], by simp [Listening, emptyFleet]⟩
    · refine along_of_invariant (P := fun s => s.subs = []) ?_ ?_ rfl calls
      · exact fun s call next hs h => (join_subs_of_refused hrefused h).trans hs
      · refine fun s call hs => ⟨fun existing cc _ hcc => ?_, fun next h sub hsub => ?_⟩
        · simp [submitted?, hrefused] at hcc
        · rw [join_subs_of_refused hrefused h, hs] at hsub
          cases hsub

def twoFilters (deliverSubject : String) : WorkerSetup where
  queue := "workers"
  subject := ""
  stream := "ORDERS"
  consumer :=
    { durable := "orders"
      filterSubjects := ["orders.new", "orders.paid"]
      deliverSubject := deliverSubject }

theorem workers_scale_out_iff_named :
    Along (join natsServer halfMinute (twoFilters "deliver.orders"))
      (Scales natsServer halfMinute (twoFilters "deliver.orders")) emptyFleet
      [callWith "_INBOX.1" fun _ => none, callWith "_INBOX.2" fun _ => none] :=
  (workers_scale_out_iff natsServer halfMinute (twoFilters "deliver.orders") (by decide)).mpr
    (.inl (by decide)) _ (by decide)

def timeoutAt (clock n : Nat) : Option GoError :=
  if n = clock then some (.sentinel .errTimeout) else none

-- The AddConsumer of a second replica times out and its update goes through. The durable then
-- delivers to the inbox of the second replica, and the first one listens on its own.
theorem scale_out_moves_durable :
    let first := callWith "_INBOX.1" fun _ => none
    let second := callWith "_INBOX.2" (timeoutAt 9)
    let seen := fun s : Fleet =>
      (s.subs.map Subscription.deliver, delivery (twoFilters "").key s.world)
    (exec (join natsServer halfMinute (twoFilters "")) emptyFleet [first]).map seen =
        some (["_INBOX.1"], some ("_INBOX.1", "workers")) ∧
      (submitted? halfMinute (twoFilters "") second).map ConsumerConfig.deliverSubject =
        some "_INBOX.2" ∧
      (exec (join natsServer halfMinute (twoFilters "")) emptyFleet [first, second]).map seen =
        some (["_INBOX.1", "_INBOX.2"], some ("_INBOX.2", "workers")) := by
  decide +kernel

end NatsClient.Setup
