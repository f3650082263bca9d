import NatsClient.Replay.Seek.Recreate

namespace NatsClient.Replay

open ConsumerManager

variable {net : Net} {find : Search} {stream durable : String} {cfg : DurableConsumerConfig}
  {w w' : World}

-- The search for the bounds ends, and the recreation is severed.
def Cut (net : Net) (find : Search) (stream durable : String) (base : DurableConsumerConfig)
    (cfg : ReplayConfig) (w : World) : Prop :=
  ∃ resolved, resolveReplayBounds find stream cfg = some (.ok resolved) ∧
    Severed net stream durable (seekConfig base durable resolved) w

theorem seek_of_cut {place : String} {base : DurableConsumerConfig} {cfg : ReplayConfig}
    (hcut : Cut net find stream durable base cfg w) :
    (∃ e, (seek net find place stream durable base cfg w).1 = some (.error e)) ∧
      (seek net find place stream durable base cfg w).2.store (stream, durable) = none := by
  obtain ⟨resolved, hbounds, hsevered⟩ := hcut
  cases hrecreate : recreateDurable net stream durable (seekConfig base durable resolved) w with
  | mk r w₁ =>
    simp only [seek, hbounds, hrecreate]
    cases recreateDurable_cases (seekConfig_durable base durable resolved) hrecreate with
    | failed whole same => exact absurd hsevered whole
    | severed severed gone writes => exact ⟨⟨_, rfl⟩, by rw [gone, Function.update_self]⟩
    | kept whole cleared => exact absurd hsevered whole
    | created whole cleared submitted filtered put => exact absurd hsevered whole

theorem seek_of_whole {place : String} {base : DurableConsumerConfig} {cfg : ReplayConfig}
    (hwhole : ¬ Cut net find stream durable base cfg w) {e : GoError}
    (he : (seek net find place stream durable base cfg w).1 = some (.error e)) :
    (seek net find place stream durable base cfg w).2.store = w.store := by
  unfold seek at he ⊢
  cases hbounds : resolveReplayBounds find stream cfg with
  | none => rfl
  | some outcome =>
    cases outcome with
    | error e => rfl
    | ok resolved =>
      cases hrecreate : recreateDurable net stream durable (seekConfig base durable resolved) w
      with
      | mk r w₁ =>
        simp only [hbounds, hrecreate] at he ⊢
        cases recreateDurable_cases (seekConfig_durable base durable resolved) hrecreate with
        | failed whole same => exact same.1
        | severed severed gone writes => exact absurd ⟨resolved, hbounds, severed⟩ hwhole
        | kept whole cleared => cases he
        | created whole cleared submitted filtered put => cases he

-- The loss of a durable: the checks pass, its configuration is read, and the rest is cut.
def Lost (net : Net) (find : Search) (stream durable : String) (opts : List ReplayOpt)
    (w : World) : Prop :=
  checkReplay stream durable (applyReplayOpts opts) = none ∧
    ∃ base w₁, baseDurableConfig net stream durable w = (.ok base, w₁) ∧
      Cut net find stream durable base (applyReplayOpts opts) w₁

theorem resetConsumer_of_lost {opts : List ReplayOpt}
    (hlost : Lost net find stream durable opts w) :
    (∃ e, (resetConsumer net find stream durable opts w).1 = some (.error e)) ∧
      (resetConsumer net find stream durable opts w).2.store (stream, durable) = none := by
  obtain ⟨hcheck, base, w₁, hbase, hcut⟩ := hlost
  simp only [resetConsumer, hcheck, hbase]
  exact seek_of_cut hcut

theorem resetConsumer_of_whole {opts : List ReplayOpt}
    (hwhole : ¬ Lost net find stream durable opts w) {e : GoError}
    (he : (resetConsumer net find stream durable opts w).1 = some (.error e)) :
    (resetConsumer net find stream durable opts w).2.store = w.store := by
  unfold resetConsumer at he ⊢
  cases hcheck : checkReplay stream durable (applyReplayOpts opts) with
  | some e => simp only [hcheck]
  | none =>
    cases hbase : baseDurableConfig net stream durable w with
    | mk answer w₁ =>
      have hsame := (baseDurableConfig_spec hbase).1.1
      simp only [hcheck, hbase] at he ⊢
      cases answer with
      | error e => exact hsame
      | ok base =>
        refine (seek_of_whole (fun hcut => hwhole ?_) he).trans hsame
        exact ⟨hcheck, base, w₁, hbase, hcut⟩

-- An error of ResetConsumer leaves the durable as it was, unless it is lost.
theorem reset_atomic_iff (net : Net) (find : Search) (stream durable : String)
    (opts : List ReplayOpt) (w : World) (cc : ConsumerConfig)
    (hcc : w.store (stream, durable) = some cc) :
    (∀ e, (resetConsumer net find stream durable opts w).1 = some (.error e) →
      (resetConsumer net find stream durable opts w).2.store (stream, durable) = some cc) ↔
      ¬ Lost net find stream durable opts w := by
  constructor
  · intro hatomic hlost
    obtain ⟨⟨e, he⟩, hgone⟩ := resetConsumer_of_lost hlost
    rw [hatomic e he] at hgone
    cases hgone
  · intro hwhole e he
    rw [resetConsumer_of_whole hwhole he, hcc]

-- A server with one durable.
def liveConsumer : ConsumerConfig where
  durable := "worker"
  filterSubject := "orders.>"
  ackPolicy := .explicit
  deliverSubject := "deliver.orders"

def live : World where
  store := Function.update (fun _ => none) ("ORDERS", "worker") (some liveConsumer)
  writes := []
  clock := 0

-- The JetStream call with this number times out, the others succeed.
def timeoutAt (n : Nat) : Net where
  ctxErr _ := none
  fault k := if k = n then some (.sentinel .errTimeout) else none
  checkConfig _ _ := false

-- The stream is empty.
def nothingFound : Search := fun _ _ => some (.error (.sentinel .errMsgNotFound))

theorem live_worker : live.store ("ORDERS", "worker") = some liveConsumer := by simp [live]

theorem orders_valid : validateStreamName "ORDERS" = none := by decide +kernel

theorem worker_valid : validateDurableName "worker" = none := by decide +kernel

-- The first ConsumerInfo call fails.
theorem reset_atomic_iff_info_fails :
    live.store ("ORDERS", "worker") = some liveConsumer ∧
      ∀ e, (resetConsumer (timeoutAt 2) nothingFound "ORDERS" "worker" [fromSeq 7] live).1 =
          some (.error e) →
        (resetConsumer (timeoutAt 2) nothingFound "ORDERS" "worker" [fromSeq 7] live).2.store
          ("ORDERS", "worker") = some liveConsumer := by
  refine ⟨live_worker, ?_⟩
  refine (reset_atomic_iff _ nothingFound _ _ _ live liveConsumer live_worker).mpr ?_
  rintro ⟨-, base, w₁, hbase, -⟩
  simp [baseDurableConfig, consumerInfo, guarded, Js.consumerInfo, timeoutAt, live, World.tick,
    orders_valid, worker_valid] at hbase

-- AddConsumer times out after the durable has been deleted.
theorem reset_loses_durable :
    live.store ("ORDERS", "worker") = some liveConsumer ∧
      (∃ e, (resetConsumer (timeoutAt 11) nothingFound "ORDERS" "worker" [fromSeq 7] live).1 =
        some (.error e)) ∧
      (resetConsumer (timeoutAt 11) nothingFound "ORDERS" "worker" [fromSeq 7] live).2.store
        ("ORDERS", "worker") = none := by
  have hctx (n : Nat) : (timeoutAt 11).ctxErr n = none := rfl
  have hfault {n : Nat} (hn : n ≠ 11) : (timeoutAt 11).fault n = none := if_neg hn
  have hbase := baseDurableConfig_found hctx orders_valid worker_valid (w := live)
    (hfault (by decide)) live_worker
  have hinfo := consumerInfo_found hctx orders_valid worker_valid (w := live.tick.tick.tick)
    (hfault (by decide)) live_worker
  have hdelete := deleteConsumer_found hctx orders_valid worker_valid
    (w := live.tick.tick.tick.tick.tick.tick) (hfault (by decide)) (by
      rw [show live.tick.tick.tick.tick.tick.tick.store = live.store from rfl, live_worker]
      exact Option.some_ne_none _)
  refine ⟨live_worker, resetConsumer_of_lost ⟨by decide +kernel, _, _, hbase, _, rfl, _, _, _,
    hinfo, hdelete, .inr (.inr (.inr ?_))⟩⟩
  decide

end NatsClient.Replay
