import NatsClient.Lib.Parties
import NatsClient.Shutdown
import NatsClient.WorkerPool.Liveness

namespace NatsClient.Shutdown

open Lib.Machine Lib.Parties

variable {C M F P I : Type} {workers : Nat} [DecidableEq P] [DecidableEq I] {u : Setup}
  {cfg : WorkerPool.Config C M F P} {early : Bool} {c d : Client C M F P workers}
  {s t : State C M F P workers I}

def Stage.rank : Stage → Nat
  | stopTicker => 0
  | cancelCollector => 1
  | waitCollector => 2
  | gracefulStop => 3
  | cancelConsumer => 4
  | completeAsync => 5
  | stopPublisher => 6
  | cancel => 7
  | waitHealth => 8
  | clear => 9
  | drain => 10
  | poll => 11
  | close => 12
  | wipe => 13
  | leave => 14

def CollectorOver (c : Client C M F P workers) : Prop :=
  c.collector = none ∨ c.collector = some .gone

def HealthOver (c : Client C M F P workers) : Prop := c.health = none ∨ c.health = some .gone

-- What holds for good once the stage is over. The pool is stopped if it is an early one, which
-- consumer.stop finds.
def Stage.Settles (early : Bool) (c : Client C M F P workers) : Stage → Prop
  | stopTicker => c.ticker = false
  | cancelCollector => CollectorOver c ∨ c.collectorCancelled = true
  | waitCollector => CollectorOver c
  | gracefulStop => early = true → c.pool.stop () = .returned
  | cancel => c.cancelled = true
  | waitHealth => HealthOver c
  | clear => c.conn = false ∧ c.js = false
  | close => c.link = .closed
  | wipe => c.key ≠ .live
  | _ => True

def Settled (early : Bool) (c : Client C M F P workers) (n : Nat) : Prop :=
  ∀ stage : Stage, stage.rank < n → stage.Settles early c

-- What nobody takes back.
structure Kept (c d : Client C M F P workers) : Prop where
  ticker : c.ticker = false → d.ticker = false
  collector : CollectorOver c → CollectorOver d
  collectorCancelled : c.collectorCancelled = true → d.collectorCancelled = true
  poolMade : c.poolMade = true → d.poolMade = true
  pool : c.pool.stop () = .returned → d.pool.stop () = .returned
  cancelled : c.cancelled = true → d.cancelled = true
  health : HealthOver c → HealthOver d
  conn : c.conn = false → d.conn = false
  js : c.js = false → d.js = false
  link : c.link = .closed → d.link = .closed
  key : c.key ≠ .live → d.key ≠ .live

omit [DecidableEq P] in
theorem Stage.Settles.kept (h : Kept c d) {stage : Stage} (hs : stage.Settles early c) :
    stage.Settles early d := by
  cases stage with
  | stopTicker => exact h.ticker hs
  | cancelCollector => exact hs.imp h.collector h.collectorCancelled
  | waitCollector => exact h.collector hs
  | gracefulStop => exact fun hp => h.pool (hs hp)
  | cancel => exact h.cancelled hs
  | waitHealth => exact h.health hs
  | clear => exact ⟨h.conn hs.1, h.js hs.2⟩
  | close => exact h.link hs
  | wipe => exact h.key hs
  | _ => trivial

omit [DecidableEq P] in
theorem Settled.kept {n : Nat} (hs : Settled early c n) (h : Kept c d) : Settled early d n :=
  fun stage hstage => (hs stage hstage).kept h

omit [DecidableEq P] in
-- The step over a stage adds what that stage settles.
theorem Settled.succ (stage : Stage) (hs : Settled early c stage.rank) (h : stage.Settles early c) :
    Settled early c (stage.rank + 1) := by
  intro other hother
  by_cases he : other.rank = stage.rank
  · obtain rfl : other = stage := by
      cases other <;> cases stage <;> first | rfl | cases he
    exact h
  · exact hs other (by omega)

-- What a step of shutdownGraceful can do.
inductive Advance (cfg : WorkerPool.Config C M F P) (c : Client C M F P workers) :
    Stage → Client C M F P workers → Pc → Prop
  | ticker : Advance cfg c .stopTicker { c with ticker := false } (.body .cancelCollector)
  | noCollector (h : c.collector = none) :
      Advance cfg c .cancelCollector c (.body .gracefulStop)
  | cancelCollector :
      Advance cfg c .cancelCollector { c with collectorCancelled := true } (.body .waitCollector)
  | collectorGone (h : CollectorOver c) :
      Advance cfg c .waitCollector c (.body .gracefulStop)
  | drained (h : c.poolMade = true → c.pool.stop () = .returned) :
      Advance cfg c .gracefulStop c (.body .cancelConsumer)
  | draining {pool : WorkerPool.State C M F P (Fin workers) Unit}
      (hmade : c.poolMade = true) (hnot : c.pool.stop () ≠ .returned)
      (h : WorkerPool.step cfg c.pool (.stop ()) = some pool) :
      Advance cfg c .gracefulStop { c with pool } (.body .gracefulStop)
  | cancelConsumer :
      Advance cfg c .cancelConsumer (c.cancelPool (.sentinel .canceled)) (.body .completeAsync)
  | completed (err : Option GoError) :
      Advance cfg c .completeAsync { c with errs := c.errs ++ asyncErrs err }
        (.body .stopPublisher)
  | stopPublisher :
      Advance cfg c .stopPublisher { c with publisherCancelled := true } (.body .cancel)
  | cancel : Advance cfg c .cancel { c with cancelled := true } (.body .waitHealth)
  | healthGone (h : HealthOver c) : Advance cfg c .waitHealth c (.body .clear)
  | clear : Advance cfg c .clear { c with conn := false, js := false } (.body .drain)
  | refused (errs : List GoError) : Advance cfg c .drain { c with errs } (.body .close)
  | drain (h : c.link ≠ .closed) :
      Advance cfg c .drain { c with link := .draining } (.body .poll)
  | closed (h : c.link = .closed) : Advance cfg c .poll c (.body .wipe)
  | late (errs : List GoError) : Advance cfg c .poll { c with errs } (.body .close)
  | close : Advance cfg c .close { c with link := .closed } (.body .wipe)
  | wipe : Advance cfg c .wipe { c with key := if c.key = .none then .none else .wiped }
      (.body .leave)
  | leave : Advance cfg c .leave { c with once := .done } (.returned (errorsJoin c.errs))

theorem bodyStep_advance {stage : Stage} {choice : Choice} {pc : Pc}
    (h : bodyStep u cfg c stage choice = some (d, pc)) : Advance cfg c stage d pc := by
  cases stage with
  | stopTicker => cases choice <;> cases h; exact .ticker
  | cancelCollector =>
    cases choice with
    | go =>
      simp only [bodyStep] at h
      split_ifs at h with hnone
      · cases h; exact .noCollector hnone
      · cases h; exact .cancelCollector
    | _ => cases h
  | waitCollector =>
    cases choice with
    | go =>
      simp only [bodyStep] at h
      split_ifs at h with hgone
      cases h; exact .collectorGone hgone
    | _ => cases h
  | gracefulStop =>
    cases choice with
    | go =>
      simp only [bodyStep] at h
      split_ifs at h with hlive
      · obtain ⟨pool, hpool, hnext⟩ := Option.map_eq_some_iff.mp h
        cases hnext; exact .draining hlive.1 hlive.2 hpool
      · cases h; exact .drained fun hp => by_contra fun hret => hlive ⟨hp, hret⟩
    | _ => cases h
  | cancelConsumer => cases choice <;> cases h; exact .cancelConsumer
  | completeAsync => cases choice <;> cases h; exact .completed _
  | stopPublisher => cases choice <;> cases h; exact .stopPublisher
  | cancel => cases choice <;> cases h; exact .cancel
  | waitHealth =>
    cases choice with
    | go =>
      simp only [bodyStep] at h
      split_ifs at h with hgone
      cases h; exact .healthGone hgone
    | _ => cases h
  | clear => cases choice <;> cases h; exact .clear
  | drain =>
    cases choice with
    | result err =>
      cases err with
      | some e => cases h; exact .refused _
      | none =>
        simp only [bodyStep] at h
        split_ifs at h with hclosed
        cases h; exact .drain hclosed
    | _ => cases h
  | poll =>
    cases choice with
    | go =>
      simp only [bodyStep] at h
      split_ifs at h with hclosed
      cases h; exact .closed hclosed
    | timeout => cases h; exact .late _
    | result err => cases h
  | close => cases choice <;> cases h; exact .close
  | wipe => cases choice <;> cases h; exact .wipe
  | leave => cases choice <;> cases h; exact .leave

theorem Advance.kept {stage : Stage} {pc : Pc} (h : Advance cfg c stage d pc) : Kept c d := by
  cases h with
  | draining _ hnot h =>
    exact ⟨id, id, id, id, fun hret => absurd hret hnot, id, id, id, id, id, id⟩
  | drain hlink =>
    exact ⟨id, id, id, id, id, id, id, id, id, fun hclosed => absurd hclosed hlink, id⟩
  | wipe =>
    refine ⟨id, id, id, id, id, id, id, id, id, id, fun _ => ?_⟩
    dsimp only
    split_ifs <;> simp
  | _ => constructor <;> first | exact id | exact fun _ => rfl

def Pc.rank : Pc → Nat
  | idle => 0
  | body stage => stage.rank
  | returned _ => 15

theorem Advance.settled {stage : Stage} {pc : Pc} (h : Advance cfg c stage d pc)
    (hs : Settled early c stage.rank) (hmade : early = true → c.poolMade = true) :
    Settled early d pc.rank := by
  have hd := hs.kept h.kept
  cases h with
  | ticker => exact hd.succ .stopTicker rfl
  | noCollector hnone =>
    have hcancel := hd.succ .cancelCollector (.inl (.inl hnone))
    exact hcancel.succ .waitCollector (.inl hnone)
  | cancelCollector => exact hd.succ .cancelCollector (.inr rfl)
  | collectorGone hgone => exact hd.succ .waitCollector hgone
  | drained hret => exact hd.succ .gracefulStop fun h => hret (hmade h)
  | draining => exact hd
  | cancelConsumer => exact hd.succ .cancelConsumer trivial
  | completed => exact hd.succ .completeAsync trivial
  | stopPublisher => exact hd.succ .stopPublisher trivial
  | cancel => exact hd.succ .cancel rfl
  | healthGone hgone => exact hd.succ .waitHealth hgone
  | clear => exact hd.succ .clear ⟨rfl, rfl⟩
  | refused =>
    have hdrain := hd.succ .drain trivial
    exact hdrain.succ .poll trivial
  | drain => exact hd.succ .drain trivial
  | closed hclosed =>
    have hpoll := hd.succ .poll trivial
    exact hpoll.succ .close hclosed
  | late => exact hd.succ .poll trivial
  | close => exact hd.succ .close rfl
  | wipe =>
    refine hd.succ .wipe ?_
    simp only [Stage.Settles]
    split_ifs <;> simp
  | leave => exact hd.succ .leave trivial

-- shutdownOnce is done when the body is left.
theorem Advance.leaves {stage : Stage} {pc : Pc} (h : Advance cfg c stage d pc) :
    (∃ next, pc = .body next ∧ d.once = c.once) ∨ ∃ err, pc = .returned err ∧ d.once = .done := by
  cases h with
  | leave => exact .inr ⟨_, rfl, rfl⟩
  | _ => exact .inl ⟨_, rfl, rfl⟩

-- Only drainAndClose takes the connection away.
theorem Advance.conn {stage : Stage} {pc : Pc} (h : Advance cfg c stage d pc) :
    d.conn = c.conn ∨ stage = .clear := by
  cases h with
  | clear => exact .inr rfl
  | _ => exact .inl rfl

-- What the rest of the client can do meanwhile.
structure Background (cfg : WorkerPool.Config C M F P) (c d : Client C M F P workers) : Prop where
  kept : Kept c d
  once : d.once = c.once
  conn : d.conn = c.conn
  parentErr : d.parentErr = none → c.parentErr = none
  pool : d.pool = c.pool ∨ (∃ a, WorkerPool.ownStep cfg c.pool a = some d.pool) ∨
    d.parentErr ≠ none ∧ ∃ err, d = { c.cancelPool err with parentErr := d.parentErr }

inductive Move (cfg : WorkerPool.Config C M F P) (s : State C M F P workers I) :
    State C M F P workers I → Prop
  | enter {i : I} (hpc : s.calls i = .idle) (hfresh : s.client.once = .fresh) :
      Move cfg s ⟨{ s.client with once := .running },
        Function.update s.calls i (.body .stopTicker)⟩
  | late {i : I} (hpc : s.calls i = .idle) (hdone : s.client.once = .done) :
      Move cfg s ⟨s.client, Function.update s.calls i (.returned none)⟩
  | body {i : I} {stage : Stage} {d : Client C M F P workers} {pc : Pc}
      (hpc : s.calls i = .body stage) (h : Advance cfg s.client stage d pc) :
      Move cfg s ⟨d, Function.update s.calls i pc⟩
  | background {d : Client C M F P workers} (h : Background cfg s.client d) :
      Move cfg s { s with client := d }

omit [DecidableEq P] in
theorem Kept.refl (c : Client C M F P workers) : Kept c c :=
  ⟨id, id, id, id, id, id, id, id, id, id, id⟩

omit [DecidableEq P] in
-- The health check takes nothing but the tick out of its channel.
theorem healthStep_tick {pc next : HealthPc} {choice : HealthChoice}
    (h : healthStep c pc choice = some (d, next)) : pc ≠ .gone ∧ ∃ tick, d = { c with tick } := by
  cases pc with
  | select =>
    cases choice with
    | tick =>
      simp only [healthStep] at h
      split_ifs at h
      cases h
      exact ⟨by simp, _, rfl⟩
    | done =>
      simp only [healthStep] at h
      split_ifs at h
      cases h
      exact ⟨by simp, _, rfl⟩
    | _ => cases h
  | checking => cases choice <;> cases h; exact ⟨by simp, _, rfl⟩
  | loading => cases choice <;> cases h; exact ⟨by simp, _, rfl⟩
  | calling => cases choice <;> cases h; exact ⟨by simp, _, rfl⟩
  | gone => cases choice <;> cases h

theorem health_background {pc next : HealthPc} {choice : HealthChoice}
    (hpc : c.health = some pc) (h : healthStep c pc choice = some (d, next)) :
    Background cfg c { d with health := some next } := by
  obtain ⟨hgone, tick, rfl⟩ := healthStep_tick h
  refine ⟨{ Kept.refl c with health := ?_ }, rfl, rfl, id, .inl rfl⟩
  rintro (hnone | hdone)
  · rw [hnone] at hpc; cases hpc
  · rw [hdone] at hpc; cases hpc; exact absurd rfl hgone

theorem collect_background {pc next : CollectPc} {choice : CollectChoice}
    (hpc : c.collector = some pc) (h : collectStep c pc choice = some next) :
    Background cfg c { c with collector := some next } := by
  refine ⟨{ Kept.refl c with collector := ?_ }, rfl, rfl, id, .inl rfl⟩
  rintro (hnone | hdone)
  · rw [hnone] at hpc; cases hpc
  · rw [hdone] at hpc
    cases hpc
    cases choice <;> cases h

theorem pool_background {a : WorkerPool.Act P (Fin workers) Unit} (ha : ofPool a = true)
    {pool : WorkerPool.State C M F P (Fin workers) Unit}
    (h : WorkerPool.step cfg c.pool a = some pool) : Background cfg c { c with pool } := by
  have hmoves : ¬ a.moves (.stopper ()) := by
    cases a <;> first | exact id | cases ha
  refine ⟨{ Kept.refl c with pool := fun hret => ?_ }, rfl, rfl, id, .inr (.inl ⟨a, ?_⟩)⟩
  · exact (WorkerPool.step_stop_of_not_moves h hmoves).trans hret
  · cases a <;> first | exact h | cases ha

theorem step_move {a : Act P workers I} (h : step u cfg s a = some t) : Move cfg s t := by
  cases a with
  | call i choice =>
    obtain ⟨⟨d, pc⟩, hnext, rfl⟩ := Option.map_eq_some_iff.mp h
    cases hpc : s.calls i with
    | idle =>
      rw [hpc] at hnext
      cases choice with
      | go =>
        simp only [callStep] at hnext
        cases honce : s.client.once with
        | fresh => rw [honce] at hnext; cases hnext; exact .enter hpc honce
        | running => rw [honce] at hnext; cases hnext
        | done => rw [honce] at hnext; cases hnext; exact .late hpc honce
      | _ => cases hnext
    | body stage =>
      rw [hpc] at hnext
      exact .body hpc (bodyStep_advance hnext)
    | returned err => rw [hpc] at hnext; cases hnext
  | health choice =>
    obtain ⟨pc, hpc, hstep⟩ := Option.bind_eq_some_iff.mp h
    obtain ⟨⟨d, next⟩, hnext, rfl⟩ := Option.map_eq_some_iff.mp hstep
    exact .background (health_background hpc hnext)
  | collect choice =>
    obtain ⟨pc, hpc, hstep⟩ := Option.bind_eq_some_iff.mp h
    obtain ⟨next, hnext, rfl⟩ := Option.map_eq_some_iff.mp hstep
    exact .background (collect_background hpc hnext)
  | initWorkerPool =>
    simp only [step] at h
    split_ifs at h
    cases h
    exact .background ⟨{ Kept.refl _ with poolMade := fun _ => rfl }, rfl, rfl, id, .inl rfl⟩
  | pool a =>
    simp only [step] at h
    split_ifs at h with hcond
    obtain ⟨pool, hpool, rfl⟩ := Option.map_eq_some_iff.mp h
    exact .background (pool_background hcond.2 hpool)
  | tick =>
    simp only [step] at h
    split_ifs at h
    cases h
    exact .background ⟨⟨id, id, id, id, id, id, id, id, id, id, id⟩, rfl, rfl, id, .inl rfl⟩
  | closed =>
    cases h
    exact .background ⟨{ Kept.refl _ with link := fun _ => rfl }, rfl, rfl, id,
      .inl rfl⟩
  | cancelParent err =>
    cases h
    have hsome : s.client.parentErr.or (some err) ≠ none := by simp
    exact .background ⟨⟨id, id, id, id, id, id, id, id, id, id, id⟩, rfl, rfl,
      fun hnone => absurd hnone hsome, .inr (.inr ⟨hsome, err, rfl⟩)⟩

structure Inv (early : Bool) (s : State C M F P workers I) : Prop where
  pool : early = true → s.client.poolMade = true
  fresh : s.client.once = .fresh → ∀ i, s.calls i = .idle
  untouched : s.client.once = .fresh → s.client.conn = true
  running : ∀ i stage, s.calls i = .body stage → s.client.once = .running
  owner : s.client.once = .running → ∃ i stage, s.calls i = .body stage
  unique : ∀ i j stage stage', s.calls i = .body stage → s.calls j = .body stage' → i = j
  returned : ∀ i err, s.calls i = .returned err → s.client.once = .done
  reporter : ∀ i j e e', s.calls i = .returned (some e) → s.calls j = .returned (some e') → i = j
  body : ∀ i stage, s.calls i = .body stage → Settled early s.client stage.rank
  done : s.client.once = .done → Settled early s.client 15
  cleared : s.client.conn = false → Settled early s.client Stage.clear.rank

omit [DecidableEq P] in
theorem Inv.enter {i : I} (hs : Inv early s) (hfresh : s.client.once = .fresh) :
    Inv early ⟨{ s.client with once := .running },
      Function.update s.calls i (.body .stopTicker)⟩ := by
  -- nobody has been here before
  have hidle := hs.fresh hfresh
  have hbody {j : I} {stage : Stage}
      (h : Function.update s.calls i (.body .stopTicker) j = .body stage) :
      j = i ∧ stage = .stopTicker := by
    obtain ⟨hj, hpc⟩ | ⟨-, hold⟩ := update_cases h
    · exact ⟨hj, (Pc.body.inj hpc).symm⟩
    · rw [hidle] at hold; cases hold
  have hreturned {j : I} {err : Option GoError} :
      Function.update s.calls i (.body .stopTicker) j ≠ .returned err := by
    intro h
    obtain ⟨-, h⟩ | ⟨-, h⟩ := update_cases h
    · cases h
    · rw [hidle] at h; cases h
  constructor
  · exact hs.pool
  · intro h; cases h
  · intro h; cases h
  · intro _ _ _; rfl
  · intro _; exact ⟨i, _, Function.update_self i _ _⟩
  · intro j k _ _ hj hk; exact (hbody hj).1.trans (hbody hk).1.symm
  · intro _ _ h; exact absurd h hreturned
  · intro _ _ _ _ h; exact absurd h hreturned
  · intro j stage h
    obtain ⟨-, rfl⟩ := hbody h
    intro other hother
    cases hother
  · intro h; cases h
  · exact fun h => (hs.cleared h).kept ⟨id, id, id, id, id, id, id, id, id, id, id⟩

omit [DecidableEq P] in
theorem Inv.late {i : I} (hs : Inv early s) (hdone : s.client.once = .done) :
    Inv early ⟨s.client, Function.update s.calls i (.returned none)⟩ := by
  have hold {j : I} {stage : Stage}
      (h : Function.update s.calls i (.returned none) j = .body stage) :
      s.calls j = .body stage := by
    obtain ⟨-, h⟩ | ⟨-, h⟩ := update_cases h
    · cases h
    · exact h
  have herr {j : I} {e : GoError}
      (h : Function.update s.calls i (.returned none) j = .returned (some e)) :
      s.calls j = .returned (some e) := by
    obtain ⟨-, h⟩ | ⟨-, h⟩ := update_cases h
    · cases h
    · exact h
  exact {
    pool := hs.pool
    fresh := fun h => by rw [hdone] at h; cases h
    untouched := hs.untouched
    running := fun j stage h => hs.running j stage (hold h)
    owner := fun h => by rw [hdone] at h; cases h
    unique := fun j k stage stage' hj hk => hs.unique j k stage stage' (hold hj) (hold hk)
    returned := fun _ _ _ => hdone
    reporter := fun j k e e' hj hk => hs.reporter j k e e' (herr hj) (herr hk)
    body := fun j stage h => hs.body j stage (hold h)
    done := hs.done
    cleared := hs.cleared }

theorem Inv.advance {i : I} {stage : Stage} {pc : Pc} (hs : Inv early s)
    (hpc : s.calls i = .body stage) (h : Advance cfg s.client stage d pc) :
    Inv early ⟨d, Function.update s.calls i pc⟩ := by
  have hrunning := hs.running i stage hpc
  have hsettled := h.settled (hs.body i stage hpc) hs.pool
  have hmade (he : early = true) : d.poolMade = true := h.kept.poolMade (hs.pool he)
  -- nobody else is in the body, and nobody has come out of it
  have hbody {j : I} {other : Stage} (h : Function.update s.calls i pc j = .body other) :
      j = i ∧ pc = .body other := by
    obtain ⟨hj, hnew⟩ | ⟨hne, hold⟩ := update_cases h
    · exact ⟨hj, hnew⟩
    · exact absurd (hs.unique j i other stage hold hpc) hne
  have hreturned {j : I} {err : Option GoError}
      (h : Function.update s.calls i pc j = .returned err) : j = i ∧ pc = .returned err := by
    obtain ⟨hj, hnew⟩ | ⟨-, hold⟩ := update_cases h
    · exact ⟨hj, hnew⟩
    · have hdone := hs.returned j err hold
      rw [hrunning] at hdone
      cases hdone
  have hunique (j k : I) (hj : j = i) (hk : k = i) : j = k := hj.trans hk.symm
  have hcleared (hconn : d.conn = false) : Settled early d Stage.clear.rank := by
    rcases h.conn with hsame | rfl
    · exact (hs.cleared (hsame ▸ hconn)).kept h.kept
    · exact (hs.body i _ hpc).kept h.kept
  rcases h.leaves with ⟨next, rfl, honce⟩ | ⟨err, rfl, honce⟩
  · rw [hrunning] at honce
    exact {
      pool := hmade
      fresh := fun h => by rw [honce] at h; cases h
      untouched := fun h => by rw [honce] at h; cases h
      running := fun _ _ _ => honce
      owner := fun _ => ⟨i, next, Function.update_self i _ _⟩
      unique := fun j k _ _ hj hk => hunique j k (hbody hj).1 (hbody hk).1
      returned := fun _ _ h => by cases (hreturned h).2
      reporter := fun _ _ _ _ h => by cases (hreturned h).2
      body := fun j other h => by
        cases (hbody h).2
        exact hsettled
      done := fun h => by rw [honce] at h; cases h
      cleared := hcleared }
  · exact {
      pool := hmade
      fresh := fun h => by rw [honce] at h; cases h
      untouched := fun h => by rw [honce] at h; cases h
      running := fun _ _ h => by cases (hbody h).2
      owner := fun h => by rw [honce] at h; cases h
      unique := fun j k _ _ hj hk => hunique j k (hbody hj).1 (hbody hk).1
      returned := fun _ _ _ => honce
      reporter := fun j k _ _ hj hk => hunique j k (hreturned hj).1 (hreturned hk).1
      body := fun _ _ h => by cases (hbody h).2
      done := fun _ => hsettled
      cleared := hcleared }

theorem Inv.move (hs : Inv early s) (h : Move cfg s t) : Inv early t := by
  cases h with
  | enter _ hfresh => exact hs.enter hfresh
  | late _ hdone => exact hs.late hdone
  | body hpc h => exact hs.advance hpc h
  | background h =>
    exact {
      pool := fun he => h.kept.poolMade (hs.pool he)
      fresh := fun hfresh => hs.fresh (h.once ▸ hfresh)
      untouched := fun hfresh => h.conn.trans (hs.untouched (h.once ▸ hfresh))
      running := fun i stage hi => h.once.trans (hs.running i stage hi)
      owner := fun hrunning => hs.owner (h.once ▸ hrunning)
      unique := hs.unique
      returned := fun i err hi => h.once.trans (hs.returned i err hi)
      reporter := hs.reporter
      body := fun i stage hi => (hs.body i stage hi).kept h.kept
      done := fun hdone => (hs.done (h.once ▸ hdone)).kept h.kept
      cleared := fun hconn => (hs.cleared (h.conn ▸ hconn)).kept h.kept }

omit [DecidableEq P] [DecidableEq I] in
theorem inv_initial : Inv false (initial u workers : State C M F P workers I) where
  pool h := by cases h
  fresh _ _ := rfl
  untouched _ := rfl
  running _ _ h := by cases h
  owner h := by cases h
  unique _ _ _ _ h := by cases h
  returned _ _ h := by cases h
  reporter _ _ _ _ h := by cases h
  body _ _ h := by cases h
  done h := by cases h
  cleared h := by cases h

theorem Inv.reaches (hs : Inv early s) (h : Reaches (step u cfg) s t) : Inv early t :=
  h.invariant (fun _ _ _ hs hstep => hs.move (step_move hstep)) hs

theorem inv_of_reaches (h : Reaches (step u cfg) (initial u workers) s) : Inv false s :=
  inv_initial.reaches h

omit [DecidableEq P] [DecidableEq I] in
-- A pool that is there before any call of Shutdown.
theorem Inv.of_fresh (hs : Inv false s) (hfresh : s.client.once = .fresh)
    (hmade : s.client.poolMade = true) : Inv true s :=
  { hs with
    pool := fun _ => hmade
    body := fun i stage h => by rw [hs.fresh hfresh i] at h; cases h
    done := fun h => by rw [hfresh] at h; cases h
    cleared := fun h => by rw [hs.untouched hfresh] at h; cases h }

-- At most one call of Shutdown tears the client down, no other call returns before it is
-- done, and only one reports an error. The health check and the collector are gone before the
-- connection is taken away, and a pool that was there before Shutdown is drained. A call that has
-- returned leaves nothing behind.
theorem shutdown_quiesces (h : Reaches (step u cfg) (initial u workers) s) :
    (∀ i j stage stage', s.calls i = .body stage → s.calls j = .body stage' → i = j) ∧
    (∀ i j e e', s.calls i = .returned (some e) → s.calls j = .returned (some e') → i = j) ∧
    (∀ i stage j err, s.calls i = .body stage → s.calls j ≠ .returned err) ∧
    (s.client.conn = false →
      CollectorOver s.client ∧ HealthOver s.client ∧ s.client.cancelled = true ∧
        ∀ s₀ : State C M F P workers I, Reaches (step u cfg) (initial u workers) s₀ →
          s₀.client.once = .fresh → s₀.client.poolMade = true → Reaches (step u cfg) s₀ s →
          s.client.pool.stop () = .returned) ∧
    ∀ i err, s.calls i = .returned err →
      s.client.conn = false ∧ s.client.js = false ∧ s.client.link = .closed ∧
        s.client.key ≠ .live := by
  have hinv := inv_of_reaches h
  refine ⟨hinv.unique, hinv.reporter, fun i stage j err hi hj => ?_, fun hconn => ?_,
    fun i err hi => ?_⟩
  · have honce := hinv.running i stage hi
    rw [hinv.returned j err hj] at honce
    cases honce
  · have hsettled := hinv.cleared hconn
    refine ⟨hsettled .waitCollector (by decide), hsettled .waitHealth (by decide),
      hsettled .cancel (by decide), fun s₀ hs₀ hfresh hmade hlater => ?_⟩
    have hearly := ((inv_of_reaches hs₀).of_fresh hfresh hmade).reaches hlater
    exact hearly.cleared hconn .gracefulStop (by decide) rfl
  · have hsettled := hinv.done (hinv.returned i err hi)
    have hclear := hsettled .clear (by decide)
    exact ⟨hclear.1, hclear.2, hsettled .close (by decide), hsettled .wipe (by decide)⟩

-- A client with all there is. A message is accepted, a health check is under way, and two
-- calls of Shutdown meet.
def everything : Setup := ⟨true, true, true, true, "30s"⟩

def teardown : List (Act Bool 1 Bool) :=
  [[Act.initWorkerPool],
    List.replicate 13 (Act.pool (.publish false .go)),
    [Act.tick, Act.health .tick],
    List.replicate 3 (Act.call false .go),
    [Act.collect .done],
    List.replicate 6 (Act.call false .go),
    List.replicate 13 (Act.pool (.work (Fin.last 0) .go)),
    [Act.pool (.work (Fin.last 0) .poolDone), Act.pool (.work (Fin.last 0) .giveUp)],
    List.replicate 4 (Act.pool (.work (Fin.last 0) .go)),
    List.replicate 5 (Act.call false .go),
    [Act.call false (.result none), Act.call false .go, Act.call false .go],
    [Act.health (.connected true), Act.health .go, Act.health .go, Act.health .done],
    [Act.call false .go, Act.call false .go, Act.call false (.result none)],
    [Act.call false .timeout, Act.call false .go, Act.call false .go, Act.call false .go],
    [Act.call true .go]].flatten

theorem shutdown_quiesces_teardown :
    ∃ s : State Nat Nat Nat Bool 1 Bool,
      Reaches (step everything WorkerPool.twoCalls) (initial everything 1) s ∧
        s.calls true = .returned none ∧ s.client.conn = false ∧ s.client.link = .closed ∧
        s.client.key ≠ .live ∧ s.client.pool.stop () = .returned := by
  obtain ⟨s₀, s, hs₀, hfresh, hmade, hlater, hpc⟩ : ∃ s₀ s : State Nat Nat Nat Bool 1 Bool,
      Reaches (step everything WorkerPool.twoCalls) (initial everything 1) s₀ ∧
        s₀.client.once = .fresh ∧ s₀.client.poolMade = true ∧
        Reaches (step everything WorkerPool.twoCalls) s₀ s ∧ s.calls true = .returned none :=
    ⟨_, _, ⟨[.initWorkerPool], rfl⟩, rfl, rfl, ⟨teardown.tail, rfl⟩, rfl⟩
  have hs := hs₀.trans hlater
  obtain ⟨-, -, -, hcleared, hreturned⟩ := shutdown_quiesces hs
  obtain ⟨hconn, -, hlink, hkey⟩ := hreturned true none hpc
  obtain ⟨-, -, -, hpool⟩ := hcleared hconn
  exact ⟨s, hs, hpc, hconn, hlink, hkey, hpool s₀ hs₀ hfresh hmade hlater⟩

end NatsClient.Shutdown
