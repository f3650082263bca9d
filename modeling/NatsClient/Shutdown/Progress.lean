import NatsClient.Shutdown.Theorems

namespace NatsClient.Shutdown

open Lib.Machine

variable {C M F P I : Type} {workers : Nat} [DecidableEq P] [DecidableEq I] {u : Setup}
  {cfg : WorkerPool.Config C M F P} {early : Bool} {d : Client C M F P workers}
  {s t : State C M F P workers I}

-- There is no pool, or it has been stopped.
def Drained (c : Client C M F P workers) : Prop :=
  c.poolMade = true → c.pool.stop () = .returned

theorem Drained.advance {stage : Stage} {pc : Pc} {c : Client C M F P workers} (hc : Drained c)
    (h : Advance cfg c stage d pc) : Drained d := by
  cases h with
  | draining hmade hnot h => exact absurd (hc hmade) hnot
  | _ => exact hc

theorem reaches_call {i : I} (choice : Choice) {pc : Pc}
    (h : callStep u cfg s.client (s.calls i) choice = some (d, pc)) :
    Reaches (step u cfg) s ⟨d, Function.update s.calls i pc⟩ :=
  Reaches.single (a := .call i choice) (by simp only [step, h, Option.map_some])

theorem reaches_collect (choice : CollectChoice) {pc next : CollectPc}
    (hpc : s.client.collector = some pc) (h : collectStep s.client pc choice = some next) :
    Reaches (step u cfg) s { s with client := { s.client with collector := some next } } :=
  Reaches.single (a := .collect choice) (by simp [step, hpc, h])

-- A collector that is cancelled can leave.
theorem exists_collectorOver (cfg : WorkerPool.Config C M F P)
    (h : CollectorOver s.client ∨ s.client.collectorCancelled = true) :
    ∃ t, Reaches (step u cfg) s t ∧ t.calls = s.calls ∧ CollectorOver t.client ∧
      (Drained s.client → Drained t.client) := by
  have hleave (t : State C M F P workers I) (hpc : t.client.collector = some .select)
      (hc : t.client.collectorCancelled = true) :
      ∃ v, Reaches (step u cfg) t v ∧ v.calls = t.calls ∧ CollectorOver v.client ∧
        (Drained t.client → Drained v.client) :=
    ⟨_, reaches_collect .done hpc (by simp [collectStep, hc]), rfl, .inr rfl, id⟩
  rcases h with hover | hc
  · exact ⟨s, .refl s, rfl, hover, id⟩
  cases hpc : s.client.collector with
  | none => exact ⟨s, .refl s, rfl, .inl hpc, id⟩
  | some pc =>
    cases pc with
    | select => exact hleave s hpc hc
    | gone => exact ⟨s, .refl s, rfl, .inr hpc, id⟩
    | collecting =>
      have hback : Reaches (step u cfg) s _ := reaches_collect .go hpc rfl
      obtain ⟨t, ht, hcalls, hover, hdrained⟩ := hleave
        { s with client := { s.client with collector := some .select } } rfl hc
      exact ⟨t, hback.trans ht, hcalls, hover, hdrained⟩

def State.atHealth (s : State C M F P workers I) (pc : HealthPc) : State C M F P workers I :=
  { s with client := { s.client with health := some pc } }

theorem reaches_health (choice : HealthChoice) {pc next : HealthPc}
    (h : healthStep (s.atHealth pc).client pc choice = some ((s.atHealth pc).client, next)) :
    Reaches (step u cfg) (s.atHealth pc) (s.atHealth next) := by
  have hstep : step u cfg (s.atHealth pc) (.health choice) =
      some ((s.atHealth pc).atHealth next) := by
    have hpc : (s.atHealth pc).client.health = some pc := rfl
    simp only [step, hpc, Option.bind_some, h, Option.map_some]
    rfl
  exact Reaches.single hstep

-- The health check can leave once its context is done.
theorem exists_healthOver (cfg : WorkerPool.Config C M F P) (hc : s.client.cancelled = true) :
    ∃ t, Reaches (step u cfg) s t ∧ t.calls = s.calls ∧ HealthOver t.client ∧
      (Drained s.client → Drained t.client) := by
  have hdone (pc : HealthPc) : (s.atHealth pc).client.ctxDone = true := by
    simp [State.atHealth, Client.ctxDone, hc]
  have hleave : Reaches (step u cfg) (s.atHealth .select) (s.atHealth .gone) :=
    reaches_health .done (by simp [healthStep, hdone])
  have hcall : Reaches (step u cfg) (s.atHealth .calling) (s.atHealth .select) :=
    reaches_health .go rfl
  have hload : Reaches (step u cfg) (s.atHealth .loading) (s.atHealth .select) := by
    cases hjs : (s.atHealth .loading).client.js with
    | true => exact (reaches_health .go (by simp [healthStep, hjs])).trans hcall
    | false => exact reaches_health .go (by simp [healthStep, hjs])
  have hcheck : Reaches (step u cfg) (s.atHealth .checking) (s.atHealth .select) :=
    reaches_health (.connected false) (by simp [healthStep])
  cases hpc : s.client.health with
  | none => exact ⟨s, .refl s, rfl, .inl hpc, id⟩
  | some pc =>
    have hs : s.atHealth pc = s := by simp only [State.atHealth, ← hpc]
    have hgone : Reaches (step u cfg) (s.atHealth pc) (s.atHealth .gone) := by
      cases pc with
      | select => exact hleave
      | checking => exact hcheck.trans hleave
      | loading => exact hload.trans hleave
      | calling => exact hcall.trans hleave
      | gone => exact .refl _
    rw [hs] at hgone
    exact ⟨_, hgone, rfl, .inr rfl, id⟩

-- The call is past the stage, or it has returned. No pool has come meanwhile.
def Beyond (s : State C M F P workers I) (i : I) (stage : Stage) : Prop :=
  ((∃ next, s.calls i = .body next ∧ stage.rank < next.rank) ∨ ∃ err, s.calls i = .returned err) ∧
    Drained s.client

theorem beyond_of_call {i : I} {stage : Stage} (next : Stage) (choice : Choice)
    (hpc : s.calls i = .body stage) (hdrained : Drained s.client) (hrank : stage.rank < next.rank)
    (h : bodyStep u cfg s.client stage choice = some (d, .body next)) :
    ∃ t, Reaches (step u cfg) s t ∧ Beyond t i stage := by
  have hcall : callStep u cfg s.client (s.calls i) choice = some (d, .body next) := by
    rw [hpc]
    exact h
  exact ⟨_, reaches_call choice hcall, .inl ⟨next, Function.update_self i _ _, hrank⟩,
    hdrained.advance (bodyStep_advance h)⟩

-- A call whose wait is over gets past it.
theorem beyond_of_waited {i : I} {stage next : Stage} (hrank : stage.rank < next.rank)
    (hwait : ∃ t, Reaches (step u cfg) s t ∧ t.calls i = .body stage ∧ Drained t.client ∧
      bodyStep u cfg t.client stage .go = some (t.client, .body next)) :
    ∃ t, Reaches (step u cfg) s t ∧ Beyond t i stage := by
  obtain ⟨t, ht, hpc, hdrained, hstep⟩ := hwait
  obtain ⟨v, hv, hbeyond⟩ := beyond_of_call next .go hpc hdrained hrank hstep
  exact ⟨v, ht.trans hv, hbeyond⟩

theorem exists_beyond (cfg : WorkerPool.Config C M F P) {i : I} {stage : Stage}
    (hpc : s.calls i = .body stage)
    (hsettled : Settled early s.client stage.rank) (hdrained : Drained s.client) :
    ∃ t, Reaches (step u cfg) s t ∧ Beyond t i stage := by
  cases stage with
  | stopTicker => exact beyond_of_call .cancelCollector .go hpc hdrained (by decide) rfl
  | cancelCollector =>
    by_cases hnone : s.client.collector = none
    · exact beyond_of_call .gracefulStop .go hpc hdrained (by decide) (if_pos hnone)
    · exact beyond_of_call .waitCollector .go hpc hdrained (by decide) (if_neg hnone)
  | waitCollector =>
    obtain ⟨t, ht, hcalls, hover, hkept⟩ :=
      exists_collectorOver cfg (hsettled .cancelCollector (by decide))
    have hstep : bodyStep u cfg t.client .waitCollector .go =
        some (t.client, .body .gracefulStop) := if_pos hover
    exact beyond_of_waited (by decide) ⟨t, ht, by rw [hcalls, hpc], hkept hdrained, hstep⟩
  | gracefulStop =>
    exact beyond_of_call .cancelConsumer .go hpc hdrained (by decide)
      (if_neg fun h => h.2 (hdrained h.1))
  | cancelConsumer => exact beyond_of_call .completeAsync .go hpc hdrained (by decide) rfl
  | completeAsync => exact beyond_of_call .stopPublisher (.result none) hpc hdrained (by decide) rfl
  | stopPublisher => exact beyond_of_call .cancel .go hpc hdrained (by decide) rfl
  | cancel => exact beyond_of_call .waitHealth .go hpc hdrained (by decide) rfl
  | waitHealth =>
    obtain ⟨t, ht, hcalls, hover, hkept⟩ := exists_healthOver cfg (hsettled .cancel (by decide))
    have hstep : bodyStep u cfg t.client .waitHealth .go = some (t.client, .body .clear) :=
      if_pos hover
    exact beyond_of_waited (by decide) ⟨t, ht, by rw [hcalls, hpc], hkept hdrained, hstep⟩
  | clear => exact beyond_of_call .drain .go hpc hdrained (by decide) rfl
  | drain =>
    by_cases hclosed : s.client.link = .closed
    · exact beyond_of_call .close (.result (some (.foreign "nats: connection closed" []))) hpc
        hdrained
        (by decide) rfl
    · exact beyond_of_call .poll (.result none) hpc hdrained (by decide) (if_neg hclosed)
  | poll => exact beyond_of_call .close .timeout hpc hdrained (by decide) rfl
  | close => exact beyond_of_call .wipe .go hpc hdrained (by decide) rfl
  | wipe => exact beyond_of_call .leave .go hpc hdrained (by decide) rfl
  | leave =>
    have hcall : callStep u cfg s.client (s.calls i) .go =
        some ({ s.client with once := .done }, .returned (errorsJoin s.client.errs)) := by
      rw [hpc]
      rfl
    exact ⟨_, reaches_call .go hcall, .inr ⟨_, Function.update_self i _ _⟩, hdrained⟩

-- The teardown can be brought to its end.
theorem exists_returned (cfg : WorkerPool.Config C M F P) {i : I} {stage : Stage}
    (hinv : Inv early s) (hpc : s.calls i = .body stage) (hdrained : Drained s.client) :
    ∃ t, Reaches (step u cfg) s t ∧ ∃ err, t.calls i = .returned err := by
  -- by the number of stages that are left
  induction hn : 15 - stage.rank using Nat.strongRecOn generalizing s stage with
  | _ n ih =>
    obtain ⟨t, ht, hbeyond, hstill⟩ :=
      exists_beyond (u := u) cfg hpc (hinv.body i stage hpc) hdrained
    rcases hbeyond with ⟨next, hnext, hrank⟩ | hreturned
    · have hlast : next.rank ≤ 14 := by cases next <;> decide
      obtain ⟨v, hv, hreturned⟩ := ih (15 - next.rank) (by omega) (hinv.reaches ht) hnext
        hstill rfl
      exact ⟨v, ht.trans hv, hreturned⟩
    · exact ⟨t, ht, hreturned⟩

-- Nothing but the pool can hold Shutdown up: once it is drained, or where there is none, every
-- call can still return, whatever has happened before.
theorem shutdown_can_return (h : Reaches (step u cfg) (initial u workers) s)
    (hdrained : s.client.poolMade = true → s.client.pool.stop () = .returned) (i : I) :
    ∃ t, Reaches (step u cfg) s t ∧ ∃ err, t.calls i = .returned err := by
  have hinv := inv_of_reaches h
  -- a call that finds the once done is through at once
  have hlate (t : State C M F P workers I) (hdone : t.client.once = .done)
      (hidle : t.calls i = .idle) :
      ∃ v, Reaches (step u cfg) t v ∧ ∃ err, v.calls i = .returned err := by
    have hcall : callStep u cfg t.client (t.calls i) .go = some (t.client, .returned none) := by
      rw [hidle]
      simp only [callStep, hdone]
    exact ⟨_, reaches_call .go hcall, none, Function.update_self i _ _⟩
  cases hpc : s.calls i with
  | returned err => exact ⟨s, .refl s, err, hpc⟩
  | body stage => exact exists_returned cfg hinv hpc hdrained
  | idle =>
    cases honce : s.client.once with
    | done => exact hlate s honce hpc
    | fresh =>
      have hcall : callStep u cfg s.client (s.calls i) .go =
          some ({ s.client with once := .running }, .body .stopTicker) := by
        rw [hpc]
        simp only [callStep, honce]
      have henter := reaches_call .go hcall
      obtain ⟨t, ht, hreturned⟩ := exists_returned cfg
        (inv_of_reaches (h.trans henter)) (Function.update_self i _ _) hdrained
      exact ⟨t, henter.trans ht, hreturned⟩
    | running =>
      -- the call waits for the one that is in the body
      obtain ⟨j, stage, hj⟩ := hinv.owner honce
      obtain ⟨t, ht, err, hreturned⟩ := exists_returned cfg hinv hj hdrained
      have hinv' := inv_of_reaches (h.trans ht)
      have hdone := hinv'.returned j err hreturned
      cases hi : t.calls i with
      | idle =>
        obtain ⟨v, hv, hlast⟩ := hlate t hdone hi
        exact ⟨v, ht.trans hv, hlast⟩
      | body other =>
        have hrunning := hinv'.running i other hi
        rw [hdone] at hrunning
        cases hrunning
      | returned other => exact ⟨t, ht, other, hi⟩

theorem shutdown_can_return_teardown :
    ∃ s t : State Nat Nat Nat Bool 1 Bool,
      Reaches (step everything WorkerPool.twoCalls) (initial everything 1) s ∧
        s.calls true = .idle ∧ s.client.once = .running ∧
        Reaches (step everything WorkerPool.twoCalls) s t ∧
        ∃ err, t.calls true = .returned err := by
  obtain ⟨s, hs, hidle, honce, hpool⟩ : ∃ s : State Nat Nat Nat Bool 1 Bool,
      Reaches (step everything WorkerPool.twoCalls) (initial everything 1) s ∧
        s.calls true = .idle ∧ s.client.once = .running ∧ s.client.pool.stop () = .returned :=
    ⟨_, ⟨teardown.take 51, rfl⟩, rfl, rfl, rfl⟩
  obtain ⟨t, ht, hreturned⟩ := shutdown_can_return hs (fun _ => hpool) true
  exact ⟨s, t, hs, hidle, honce, ht, hreturned⟩

end NatsClient.Shutdown
