import NatsClient.WorkerPool.Accounting
import NatsClient.Lib.Counting

namespace NatsClient.WorkerPool

open Lib.Machine Lib.Counting

section Worker

variable {C M F P : Type} {cfg : Config C M F P} {sh sh' : Shared C M F P}

-- The condition of the inner loop.
def WorkPc.testing : WorkPc P → Bool
  | .testPublishers | .testDepth | .testInFlight => true
  | _ => false

-- Everything a worker without a task can do inside drain before it sees a counter at zero
-- in the outer loop.
inductive DrainMove (sh : Shared C M F P) : WorkPc P → Shared C M F P → WorkPc P → Prop
  | foundNothing (h : sh.input = []) : DrainMove sh .tryRecv sh .loadPublishers
  | sawPublishers : DrainMove sh .loadPublishers sh .lock
  | locked (h : sh.locked = false) :
      DrainMove sh .lock { sh with locked := true } .testPublishers
  | again {pc} (hpc : pc.testing = true) : DrainMove sh pc sh .againRecv
  | testedPublishers : DrainMove sh .testPublishers sh .testDepth
  | testedDepth : DrainMove sh .testDepth sh .testInFlight
  | testedInFlight : DrainMove sh .testInFlight sh .unlock
  | stillNothing (h : sh.input = []) : DrainMove sh .againRecv sh .againPublishers
  | noPublishers : DrainMove sh .againPublishers sh .againDepth
  | publishers (h : sh.publishers ≠ 0) : DrainMove sh .againPublishers sh .wait
  | noDepth : DrainMove sh .againDepth sh .againInFlight
  | depth (h : sh.depth ≠ 0) : DrainMove sh .againDepth sh .wait
  | noInFlight : DrainMove sh .againInFlight sh .unlock
  | inFlight (h : sh.inFlight ≠ 0) : DrainMove sh .againInFlight sh .wait
  | parked : DrainMove sh .wait { sh with locked := false, waits := sh.waits + 1 }
      (.parked sh.waits)
  | woken {ticket} (h : ticket < sh.notified) : DrainMove sh (.parked ticket) sh .lock
  | unlocked : DrainMove sh .unlock { sh with locked := false } .tryRecv

variable {pc pc' : WorkPc P}

theorem workStep_drain {choice : Choice} (h : workStep cfg sh pc choice = some (sh', pc'))
    (hpc : pc.drains = true) (hpc' : pc'.drains = true) : DrainMove sh pc sh' pc' := by
  unfold workStep at h
  split at h
  -- runner and process
  iterate 9
    · cases hpc
  · split_ifs at h with hin
    cases h
    exact .foundNothing hin
  · cases h
    split_ifs at hpc' ⊢
    · cases hpc'
    · exact .sawPublishers
  iterate 2
    · cases hpc
  · split_ifs at h with hl
    cases h
    exact .locked (by simpa using hl)
  · cases h
    split_ifs
    · exact .again rfl
    · exact .testedPublishers
  · cases h
    split_ifs
    · exact .again rfl
    · exact .testedDepth
  · cases h
    split_ifs
    · exact .again rfl
    · exact .testedInFlight
  · split_ifs at h with hin
    cases h
    exact .stillNothing hin
  · cases hpc
  · cases h
    split_ifs with hzero
    · exact .noPublishers
    · exact .publishers hzero
  · cases h
    split_ifs with hzero
    · exact .noDepth
    · exact .depth hzero
  · cases h
    split_ifs with hzero
    · exact .noInFlight
    · exact .inFlight hzero
  · cases h
    exact .parked
  · split_ifs at h with hticket
    cases h
    exact .woken hticket
  · cases h
    exact .unlocked
  · cases hpc
  · split at h
    · cases h
    · -- a worker with a task is not one without
      obtain ⟨next, hnext, he⟩ := Option.map_eq_some_iff.mp h
      cases he
      have hone := (holding_of_received hnext).queued
      rw [(blank_of_drains hpc').queued] at hone
      cases hone
  · cases h

-- A step of a worker, with what it did inside drain.
structure WorkTurn (cfg : Config C M F P) (sh : Shared C M F P) (pc : WorkPc P)
    (sh' : Shared C M F P) (pc' : WorkPc P) : Prop where
  move : WorkMove cfg sh pc sh' pc'
  drain : pc.drains = true → pc'.drains = true → DrainMove sh pc sh' pc'

theorem workStep_turn {choice : Choice} (h : workStep cfg sh pc choice = some (sh', pc')) :
    WorkTurn cfg sh pc sh' pc' :=
  ⟨workStep_move h, workStep_drain h⟩

theorem turn_of_received {r : Nat} {p : P} {rest : List (Nat × P)} (hin : sh.input = (r, p) :: rest)
    (hpc : received pc r p = some pc') : WorkTurn cfg sh pc { sh with input := rest } pc' := by
  refine ⟨.received hin hpc, fun _ hdrains => ?_⟩
  have hone := (holding_of_received hpc).queued
  rw [(blank_of_drains hdrains).queued] at hone
  cases hone

theorem PubPc.counted_le (pc : PubPc) : pc.counted ≤ 1 := by
  cases pc <;> simp [counted]

theorem PubPc.queued_le (pc : PubPc) : pc.queued ≤ 1 := by
  cases pc <;> simp [queued]

theorem WorkPc.queued_le (pc : WorkPc P) : pc.queued ≤ 1 := by
  cases pc <;> simp [queued]

theorem WorkPc.running_le (pc : WorkPc P) : pc.running ≤ 1 := by
  cases pc <;> simp [running]

end Worker

variable {C M F P W S : Type} {cfg : Config C M F P}
  [DecidableEq P] [DecidableEq W] [DecidableEq S] {s t : State C M F P W S} {a : Act P W S}

-- A step of one thread or of a context, the one of the pool included.
inductive Event (cfg : Config C M F P) (s : State C M F P W S) : State C M F P W S → Prop
  | publish {p sh' pc'} (h : PubMove cfg s.shared p (s.pub p) sh' pc') :
      Event cfg s (s.setPub p (sh', pc'))
  | work {w sh' pc'} (h : WorkTurn cfg s.shared (s.work w) sh' pc') :
      Event cfg s (s.setWork w (sh', pc'))
  | stop {i sh' pc'} (h : StopMove s.shared (s.stop i) sh' pc') :
      Event cfg s (s.setStop i (sh', pc'))
  | caller {callerErr} : Event cfg s { s with shared := { s.shared with callerErr := callerErr } }
  | parent {ctxErr} : Event cfg s { s with shared := { s.shared with ctxErr := ctxErr } }

theorem step_event (h : step cfg s a = some t) :
    Event cfg s t ∨ ∃ mid, Event cfg s mid ∧ Event cfg mid t ∧ t.pub = mid.pub := by
  cases a with
  | publish p choice =>
    obtain ⟨next, hnext, rfl⟩ := Option.map_eq_some_iff.mp h
    exact .inl (.publish (pubStep_move hnext))
  | work w choice =>
    obtain ⟨next, hnext, rfl⟩ := Option.map_eq_some_iff.mp h
    exact .inl (.work (workStep_turn hnext))
  | stop i =>
    obtain ⟨next, hnext, rfl⟩ := Option.map_eq_some_iff.mp h
    exact .inl (.stop (stopStep_move hnext))
  | cancelCaller p err =>
    simp only [step] at h
    split_ifs at h
    cases h
    exact .inl .caller
  | cancelParent err =>
    cases h
    exact .inl .parent
  | handoff p w =>
    right
    simp only [step, handoffStep] at h
    split at h
    · next r hpub =>
      split_ifs at h with hcond
      obtain ⟨next, hnext, rfl⟩ := Option.map_eq_some_iff.mp h
      have hsh : { s.shared with input := [] } = s.shared := by rw [← hcond.2.1]
      let mid := s.setPub p ({ s.shared with input := s.shared.input ++ [(r, p)] }, .sent .lock)
      refine ⟨mid, .publish (hpub ▸ .sent), ?_, rfl⟩
      have hrecv : WorkTurn cfg mid.shared (mid.work w) { mid.shared with input := [] } next :=
        turn_of_received (by simp [mid, State.setPub, hcond.2.1]) hnext
      have hevent := Event.work hrecv
      rwa [show { mid.shared with input := [] } = s.shared from hsh] at hevent
    · cases h

-- A property that every event keeps is kept by every step.
theorem step_keeps {I : State C M F P W S → Prop}
    (hevent : ∀ s t, Event cfg s t → I s → I t) (h : step cfg s a = some t) (hs : I s) : I t := by
  rcases step_event h with he | ⟨mid, he, he', -⟩
  · exact hevent s t he hs
  · exact hevent mid t he' (hevent s mid he hs)

-- The counters, for any number of calls.
structure Tally (s : State C M F P W S) : Prop where
  publishers : Counts s.shared.publishers fun p => (s.pub p).counted = 1
  depth : ∃ sending taking : Int, Counts sending (fun p => (s.pub p).queued = 1) ∧
    Counts taking (fun w => (s.work w).queued = 1) ∧
    s.shared.depth = s.shared.input.length + sending + taking
  inFlight : Counts s.shared.inFlight fun w => (s.work w).running = 1

theorem Tally.event (hs : Tally s) (h : Event cfg s t) : Tally t := by
  obtain ⟨hpublishers, ⟨sending, taking, hsending, htaking, hdepth⟩, hinFlight⟩ := hs
  cases h with
  | @publish p sh' pc' h =>
    have hd := h.depth
    refine ⟨hpublishers.update PubPc.counted_le h.publishers, ?_, h.frame.inFlight ▸ hinFlight⟩
    refine ⟨sending + pc'.queued - (s.pub p).queued, taking,
      hsending.update (b := pc') PubPc.queued_le (by omega), htaking, ?_⟩
    simp only [State.setPub]
    omega
  | @work w sh' pc' h =>
    have hd := h.move.depth
    refine ⟨h.move.frame.publishers ▸ hpublishers, ?_,
      hinFlight.update WorkPc.running_le h.move.inFlight⟩
    refine ⟨sending, taking + pc'.queued - (s.work w).queued, hsending,
      htaking.update (b := pc') WorkPc.queued_le (by omega), ?_⟩
    simp only [State.setWork]
    omega
  | stop h =>
    refine ⟨h.frame.publishers ▸ hpublishers, ⟨sending, taking, hsending, htaking, ?_⟩,
      h.frame.inFlight ▸ hinFlight⟩
    simp only [State.setStop, h.frame.depth, h.frame.input]
    exact hdepth
  | caller => exact ⟨hpublishers, ⟨sending, taking, hsending, htaking, hdepth⟩, hinFlight⟩
  | parent => exact ⟨hpublishers, ⟨sending, taking, hsending, htaking, hdepth⟩, hinFlight⟩

omit [DecidableEq P] [DecidableEq S] in
theorem tally_initial {workers : Nat} :
    Tally (initial workers : State C M F P (Fin workers) S) where
  publishers := counts_zero fun p hp => by cases hp
  depth := ⟨0, 0, counts_zero fun p hp => (by cases hp), counts_zero fun w hw => (by cases hw),
    rfl⟩
  inFlight := counts_zero fun w hw => by cases hw

omit [DecidableEq P] [DecidableEq W] [DecidableEq S] in
theorem Tally.depth_nonneg (hs : Tally s) : 0 ≤ s.shared.depth := by
  obtain ⟨sending, taking, hsending, htaking, hdepth⟩ := hs.depth
  have hleft := hsending.nonneg
  have hright := htaking.nonneg
  omega

omit [DecidableEq P] [DecidableEq W] [DecidableEq S] in
theorem Tally.input_eq_nil (hs : Tally s) (hzero : s.shared.depth = 0) : s.shared.input = [] := by
  obtain ⟨sending, taking, hsending, htaking, hdepth⟩ := hs.depth
  have hleft := hsending.nonneg
  have hright := htaking.nonneg
  exact List.eq_nil_of_length_eq_zero (by omega)

omit [DecidableEq P] [DecidableEq W] [DecidableEq S] in
theorem Tally.taking_eq_zero (hs : Tally s) (hzero : s.shared.depth = 0) (w : W) :
    ¬ (s.work w).queued = 1 := by
  obtain ⟨sending, taking, hsending, htaking, hdepth⟩ := hs.depth
  have hleft := hsending.nonneg
  have hright := htaking.nonneg
  obtain rfl : taking = 0 := by omega
  exact htaking.eq_zero w

omit [DecidableEq P] [DecidableEq W] [DecidableEq S] in
theorem Tally.not_pastGate (hs : Tally s) (hzero : s.shared.publishers = 0) (p : P) :
    (s.pub p).pastGate = false := by
  have hnone := (hzero ▸ hs.publishers).eq_zero p
  cases hpc : s.pub p <;> first | rfl | exact absurd (by rw [hpc]; rfl) hnone

end NatsClient.WorkerPool
