import NatsClient.WorkerPool.Invariants
import NatsClient.WorkerPool.Tally
import NatsClient.Lib.Exclusion

namespace NatsClient.WorkerPool

open Lib.Machine Lib.Counting Lib.Exclusion

section Moves

variable {C M F P : Type} {cfg : Config C M F P} {sh sh' : Shared C M F P} {p : P}

theorem signal_turn {stage : Stage} {next : Option Stage}
    (h : signal sh stage = some (sh', next)) :
    Turn sh.locked stage.holdsLock sh'.locked (next.elim false Stage.holdsLock) := by
  cases stage with
  | lock =>
    unfold signal at h
    split_ifs at h with hl
    cases h
    rw [Bool.not_eq_true] at hl
    rw [hl]
    exact .took
  | broadcast => cases h; exact .kept
  | unlock => cases h; exact .gave

theorem PubMove.turn {pc pc' : PubPc} (h : PubMove cfg sh p pc sh' pc') :
    Turn sh.locked pc.holdsLock sh'.locked pc'.holdsLock := by
  cases h with
  | @signalled _ _ next h => cases next <;> exact signal_turn h
  | @finished _ _ next _ h => cases next <;> exact signal_turn h
  | @discarded r cause => cases cause <;> exact .kept
  | _ => exact .kept

theorem StopMove.turn {pc pc' : StopPc} (h : StopMove sh pc sh' pc') :
    Turn sh.locked pc.holdsLock sh'.locked pc'.holdsLock := by
  cases h with
  | @signalled _ _ next h => cases next <;> exact signal_turn h
  | _ => exact .kept

theorem DrainMove.turn {pc pc' : WorkPc P} (h : DrainMove sh pc sh' pc') :
    Turn sh.locked pc.holdsLock sh'.locked pc'.holdsLock := by
  cases h with
  | locked hl =>
    rw [hl]
    exact .took
  | again hpc =>
    have hholds : pc.holdsLock = true := by cases pc <;> first | rfl | cases hpc
    rw [hholds]
    exact .kept
  | parked => exact .gave
  | unlocked => exact .gave
  | _ => exact .kept

theorem WorkTurn.turn {pc pc' : WorkPc P} (h : WorkTurn cfg sh pc sh' pc') :
    Turn sh.locked pc.holdsLock sh'.locked pc'.holdsLock := by
  cases h.move with
  | received hin hpc => cases pc <;> cases hpc <;> exact .kept
  | @signalled _ _ next _ _ _ hs => cases next <;> exact signal_turn hs
  | @returned _ _ next back hs => cases next <;> cases back <;> exact signal_turn hs
  | unlocked => exact .gave
  | drained _ hpc hpc' _ => exact (h.drain hpc hpc').turn
  | _ => exact .kept

-- The notify list: its tickets are called up all together or not at all.
inductive Called (sh sh' : Shared C M F P) : Prop
  | none (hn : sh'.notified = sh.notified) (hw : sh.waits ≤ sh'.waits)
  | all (hn : sh'.notified = sh.waits) (hw : sh'.waits = sh.waits)

theorem Called.ticket {ticket : Nat} (h : Called sh sh') (hlt : ticket < sh.waits) :
    ticket < sh'.waits := by
  cases h with
  | none _ hw => omega
  | all _ hw => omega

-- A ticket that is not called up was not called up before, and nobody has broadcast.
theorem Called.unnotified {ticket : Nat} (h : Called sh sh') (hlt : ticket < sh.waits)
    (hle : sh'.notified ≤ ticket) : sh.notified ≤ ticket ∧ sh'.notified ≠ sh.waits := by
  cases h with
  | none hn _ => omega
  | all hn _ => omega

theorem signal_called {stage : Stage} {next : Option Stage}
    (h : signal sh stage = some (sh', next)) : Called sh sh' := by
  cases stage with
  | lock =>
    unfold signal at h
    split_ifs at h
    cases h
    exact .none rfl le_rfl
  | broadcast => cases h; exact .all rfl rfl
  | unlock => cases h; exact .none rfl le_rfl

theorem PubMove.called {pc pc' : PubPc} (h : PubMove cfg sh p pc sh' pc') : Called sh sh' := by
  cases h with
  | signalled h => exact signal_called h
  | finished h => exact signal_called h
  | _ => exact .none rfl le_rfl

theorem StopMove.called {pc pc' : StopPc} (h : StopMove sh pc sh' pc') : Called sh sh' := by
  cases h with
  | signalled h => exact signal_called h
  | _ => exact .none rfl le_rfl

theorem DrainMove.called {pc pc' : WorkPc P} (h : DrainMove sh pc sh' pc') : Called sh sh' := by
  cases h with
  | parked => exact .none rfl (Nat.le_succ _)
  | _ => exact .none rfl le_rfl

theorem WorkTurn.called {pc pc' : WorkPc P} (h : WorkTurn cfg sh pc sh' pc') : Called sh sh' := by
  cases h.move with
  | signalled hs => exact signal_called hs
  | returned hs => exact signal_called hs
  | drained _ hpc hpc' _ => exact (h.drain hpc hpc').called
  | _ => exact .none rfl le_rfl

-- The call of tryPublish still has a signalDrain to broadcast.
def PubPc.owes : PubPc → Bool
  | .idle | .left .unlock _ | .done _ => false
  | _ => true

-- The worker has one, for the task in its hands.
def WorkPc.owes : WorkPc P → Bool
  | .take _ _ _ | .unlockTo _ _ | .enter _ _ _ | .entered _ _ _ _ | .invoke _ _ _ | .handling _ _ _
  | .clear _ _ | .exit _ | .exited .lock _ | .exited .broadcast _ => true
  | _ => false

-- Only the broadcast settles it, and it is done under the mutex.
theorem PubMove.owes {pc pc' : PubPc} (h : PubMove cfg sh p pc sh' pc') (hpc : pc.owes = true) :
    pc'.owes = true ∨ (pc.holdsLock = true ∧ sh'.notified = sh.waits) := by
  cases h with
  | begun => cases hpc
  | @signalled _ _ next h => cases next <;> exact .inl rfl
  | @discarded r cause => cases cause <;> exact .inl rfl
  | @finished _ stage next _ h =>
    cases stage with
    | lock =>
      unfold signal at h
      split_ifs at h
      cases h
      exact .inl rfl
    | broadcast => cases h; exact .inr ⟨rfl, rfl⟩
    | unlock => cases hpc
  | _ => exact .inl rfl

theorem not_owes_of_drains {pc : WorkPc P} (h : pc.drains = true) : pc.owes = false := by
  cases pc <;> first | rfl | cases h

theorem WorkMove.owes {pc pc' : WorkPc P} (h : WorkMove cfg sh pc sh' pc')
    (hpc : pc.owes = true) :
    pc'.owes = true ∨ (pc.holdsLock = true ∧ sh'.notified = sh.waits) := by
  cases h with
  | received hin hr => cases pc <;> cases hr <;> cases hpc
  | @signalled _ _ next _ _ _ h => cases next <;> exact .inl rfl
  | @returned _ stage next back h =>
    cases stage with
    | lock =>
      unfold signal at h
      split_ifs at h
      cases h
      exact .inl rfl
    | broadcast => cases h; exact .inr ⟨rfl, rfl⟩
    | unlock => cases hpc
  | drained _ hd _ _ =>
    rw [not_owes_of_drains hd] at hpc
    cases hpc
  | _ => first | exact .inl rfl | cases hpc

theorem PubPc.owes_of_counted {pc : PubPc} (h : pc.counted = 1) : pc.owes = true := by
  cases pc <;> first | rfl | cases h

theorem PubPc.owes_of_queued {pc : PubPc} (h : pc.queued = 1) : pc.owes = true := by
  cases pc <;> first | rfl | cases h

theorem WorkPc.owes_of_queued {pc : WorkPc P} (h : pc.queued = 1) : pc.owes = true := by
  cases pc <;> first | rfl | cases h

theorem WorkPc.owes_of_running {pc : WorkPc P} (h : pc.running = 1) : pc.owes = true := by
  cases pc <;> first | rfl | cases h

-- The worker has found the channel empty under the mutex and reads the counters once more.
def WorkPc.checking : WorkPc P → Bool
  | .againPublishers | .againDepth | .againInFlight => true
  | _ => false

-- It does so, or is about to wait, or waits.
def WorkPc.inside : WorkPc P → Bool
  | .againPublishers | .againDepth | .againInFlight | .wait | .parked _ => true
  | _ => false

theorem holds_of_checking {pc : WorkPc P} (h : pc.checking = true) : pc.holdsLock = true := by
  cases pc <;> first | rfl | cases h

theorem drains_of_checking {pc : WorkPc P} (h : pc.checking = true) : pc.drains = true := by
  cases pc <;> first | rfl | cases h

theorem WorkTurn.drainMove {pc pc' : WorkPc P} (h : WorkTurn cfg sh pc sh' pc')
    (hpc' : pc'.inside = true) : DrainMove sh pc sh' pc' := by
  cases h.move with
  | received hin hr => cases pc <;> cases hr <;> cases hpc'
  | @signalled _ _ next _ _ _ hs => cases next <;> cases hpc'
  | @returned _ _ next back hs => cases next <;> cases back <;> cases hpc'
  | drained _ hd hd' _ => exact h.drain hd hd'
  | _ => cases hpc'

theorem DrainMove.checking {pc pc' : WorkPc P} (h : DrainMove sh pc sh' pc')
    (hpc' : pc'.checking = true) : sh' = sh ∧ (sh.input = [] ∨ pc.checking = true) := by
  cases h with
  | stillNothing hin => exact ⟨rfl, .inl hin⟩
  | noPublishers => exact ⟨rfl, .inr rfl⟩
  | noDepth => exact ⟨rfl, .inr rfl⟩
  | _ => cases hpc'

-- A worker waits because it has read a counter that is not zero.
theorem DrainMove.waiting {pc : WorkPc P} (h : DrainMove sh pc sh' .wait) :
    sh' = sh ∧ pc.checking = true ∧
      (sh.publishers ≠ 0 ∨ sh.depth ≠ 0 ∨ sh.inFlight ≠ 0) := by
  cases h with
  | publishers hne => exact ⟨rfl, rfl, .inl hne⟩
  | depth hne => exact ⟨rfl, rfl, .inr (.inl hne)⟩
  | inFlight hne => exact ⟨rfl, rfl, .inr (.inr hne)⟩

theorem DrainMove.parks {pc : WorkPc P} {ticket : Nat} (h : DrainMove sh pc sh' (.parked ticket)) :
    pc = .wait ∧ ticket < sh'.waits := by
  cases h with
  | parked => exact ⟨rfl, Nat.lt_succ_self _⟩

theorem PubMove.enqueued {pc pc' : PubPc} (h : PubMove cfg sh p pc sh' pc') :
    sh'.input = sh.input ∨ ∃ r, pc' = .sent .lock ∧ sh'.input = sh.input ++ [(r, p)] := by
  cases h with
  | signalled h => exact .inl (signal_quiet h).input
  | finished h => exact .inl (signal_quiet h).input
  | @sent r => exact .inr ⟨r, rfl, rfl⟩
  | _ => exact .inl rfl

-- signalDrain waits for the mutex.
theorem PubMove.locks {pc' : PubPc} (h : PubMove cfg sh p (.sent .lock) sh' pc') :
    sh.locked = false := by
  cases h with
  | signalled h =>
    unfold signal at h
    split_ifs at h with hl
    simpa using hl

end Moves

variable {C M F P W S : Type} {cfg : Config C M F P} {s t : State C M F P W S}

-- The threads of the pool and of its users.
inductive Thread (P W S : Type)
  | publisher (p : P)
  | worker (w : W)
  | stopper (i : S)
  deriving DecidableEq

def State.holds (s : State C M F P W S) : Thread P W S → Bool
  | .publisher p => (s.pub p).holdsLock
  | .worker w => (s.work w).holdsLock
  | .stopper i => (s.stop i).holdsLock

def Mutex (s : State C M F P W S) : Prop := Exclusive s.shared.locked s.holds

-- A publisher or a worker other than w still has a signalDrain to broadcast.
def Pending (s : State C M F P W S) (w : W) : Prop :=
  (∃ p, (s.pub p).owes = true) ∨ ∃ v, v ≠ w ∧ (s.work v).owes = true

structure Waking (s : State C M F P W S) : Prop where
  -- what has come into the channel since the worker looked is not signalled yet
  checking : ∀ w, (s.work w).checking = true → ∀ task ∈ s.shared.input, s.pub task.2 = .sent .lock
  waiting : ∀ w, s.work w = .wait → Pending s w
  parked : ∀ w ticket, s.work w = .parked ticket → s.shared.notified ≤ ticket → Pending s w
  ticket : ∀ w ticket, s.work w = .parked ticket → ticket < s.shared.waits

-- With a counter that is not zero some thread has a broadcast ahead of it.
theorem Tally.pending (hs : Tally s) (hw : Waking s) {w : W} (hc : (s.work w).checking = true)
    (hne : s.shared.publishers ≠ 0 ∨ s.shared.depth ≠ 0 ∨ s.shared.inFlight ≠ 0) :
    Pending s w := by
  have hother (v : W) (hv : (s.work v).owes = true) : v ≠ w := by
    rintro rfl
    rw [not_owes_of_drains (drains_of_checking hc)] at hv
    cases hv
  rcases hne with hpublishers | hdepth | hinFlight
  · obtain ⟨p, hp⟩ := hs.publishers.exists_of_ne_zero hpublishers
    exact .inl ⟨p, PubPc.owes_of_counted hp⟩
  · obtain ⟨sending, taking, hsending, htaking, heq⟩ := hs.depth
    by_cases hleft : sending = 0
    · by_cases hright : taking = 0
      · -- a task that is still in the channel
        have hlen : 0 < s.shared.input.length := by omega
        obtain ⟨task, htask⟩ := List.exists_mem_of_length_pos hlen
        refine .inl ⟨task.2, ?_⟩
        rw [hw.checking w hc task htask]
        rfl
      · obtain ⟨v, hv⟩ := htaking.exists_of_ne_zero hright
        have howes := WorkPc.owes_of_queued hv
        exact .inr ⟨v, hother v howes, howes⟩
    · obtain ⟨p, hp⟩ := hsending.exists_of_ne_zero hleft
      exact .inl ⟨p, PubPc.owes_of_queued hp⟩
  · obtain ⟨v, hv⟩ := hs.inFlight.exists_of_ne_zero hinFlight
    have howes := WorkPc.owes_of_running hv
    exact .inr ⟨v, hother v howes, howes⟩

variable [DecidableEq P] [DecidableEq W] [DecidableEq S]

theorem Mutex.event (hs : Mutex s) (h : Event cfg s t) : Mutex t := by
  cases h with
  | @publish p sh' pc' h =>
    refine Exclusive.turn (i := .publisher p) hs (fun j hj => ?_) ?_
    · cases j with
      | publisher q =>
        have hq : q ≠ p := fun he => hj (he ▸ rfl)
        simp only [State.holds, State.setPub, Function.update_of_ne hq]
      | _ => rfl
    · simpa [State.holds, State.setPub] using h.turn
  | @work w sh' pc' h =>
    refine Exclusive.turn (i := .worker w) hs (fun j hj => ?_) ?_
    · cases j with
      | worker v =>
        have hv : v ≠ w := fun he => hj (he ▸ rfl)
        simp only [State.holds, State.setWork, Function.update_of_ne hv]
      | _ => rfl
    · simpa [State.holds, State.setWork] using h.turn
  | @stop i sh' pc' h =>
    refine Exclusive.turn (i := .stopper i) hs (fun j hj => ?_) ?_
    · cases j with
      | stopper k =>
        have hk : k ≠ i := fun he => hj (he ▸ rfl)
        simp only [State.holds, State.setStop, Function.update_of_ne hk]
      | _ => rfl
    · simpa [State.holds, State.setStop] using h.turn
  | caller => exact hs
  | parent => exact hs

theorem Held.event (hs : Held s) (h : Event cfg s t) : Held t := by
  cases h with
  | publish h => exact hs.move (.publish h)
  | work h => exact hs.move (.work h.move)
  | stop h =>
    have hm : Move cfg s _ := .stop h
    exact hs.move hm
  | caller => exact hs
  | parent => exact hs

theorem Event.called (h : Event cfg s t) : Called s.shared t.shared := by
  cases h with
  | publish h => exact h.called
  | work h => exact h.called
  | stop h => exact h.called
  | caller => exact .none rfl le_rfl
  | parent => exact .none rfl le_rfl

omit [DecidableEq W] [DecidableEq S] in
-- A broadcast stays ahead of a call, unless the call has just made it.
theorem Pending.publish {w : W} {p : P} {sh' : Shared C M F P} {pc' : PubPc}
    (hpend : Pending s w) (h : PubMove cfg s.shared p (s.pub p) sh' pc')
    (hnot : (s.pub p).holdsLock = true → sh'.notified ≠ s.shared.waits) :
    Pending (s.setPub p (sh', pc')) w := by
  rcases hpend with ⟨q, hq⟩ | hworker
  · refine .inl ⟨q, ?_⟩
    by_cases hqp : q = p
    · subst hqp
      rcases h.owes hq with howes | ⟨hl, hn⟩
      · simpa [State.setPub] using howes
      · exact absurd hn (hnot hl)
    · simpa [State.setPub, Function.update_of_ne hqp] using hq
  · exact .inr hworker

omit [DecidableEq W] [DecidableEq S] in
theorem Waking.publish (hs : Waking s) (hm : Mutex s) {p : P} {sh' : Shared C M F P} {pc' : PubPc}
    (h : PubMove cfg s.shared p (s.pub p) sh' pc') : Waking (s.setPub p (sh', pc')) := by
  -- a broadcast of this call is not done while a worker holds the mutex
  have halone (w : W) (hw : (s.work w).holdsLock = true) : (s.pub p).holdsLock ≠ true := by
    intro hp
    cases hm.unique (.worker w) (.publisher p) hw hp
  constructor
  · intro w hw task htask
    have hl : s.shared.locked = true := hm.locked (.worker w) (holds_of_checking hw)
    have hold (task : Nat × P) (ht : task ∈ s.shared.input) :
        (s.setPub p (sh', pc')).pub task.2 = .sent .lock := by
      have hsent := hs.checking w hw task ht
      by_cases hq : task.2 = p
      · rw [← hq, hsent] at h
        rw [h.locks] at hl
        cases hl
      · simpa [State.setPub, Function.update_of_ne hq] using hsent
    rcases h.enqueued with hin | ⟨r, hpc', hin⟩
    · exact hold task (hin ▸ htask)
    · have hmem : task ∈ s.shared.input ++ [(r, p)] := hin ▸ htask
      rcases List.mem_append.mp hmem with hbefore | hnew
      · exact hold task hbefore
      · obtain rfl := List.mem_singleton.mp hnew
        simpa [State.setPub] using hpc'
  · intro w hw
    refine (hs.waiting w hw).publish h fun hp => absurd hp (halone w ?_)
    rw [show s.work w = .wait from hw]
    rfl
  · intro w ticket hw hn
    obtain ⟨hold, hnot⟩ := h.called.unnotified (hs.ticket w ticket hw) hn
    exact (hs.parked w ticket hw hold).publish h fun _ => hnot
  · intro w ticket hw
    exact h.called.ticket (hs.ticket w ticket hw)

omit [DecidableEq P] [DecidableEq S] in
-- It stays ahead of a worker in the same way; its own is not one that a worker waits for.
theorem Pending.work {v w : W} {sh' : Shared C M F P} {pc' : WorkPc P} (hpend : Pending s v)
    (h : WorkMove cfg s.shared (s.work w) sh' pc')
    (hnot : v ≠ w → (s.work w).holdsLock = true → sh'.notified ≠ s.shared.waits) :
    Pending (s.setWork w (sh', pc')) v := by
  rcases hpend with hpub | ⟨u, huv, hu⟩
  · exact .inl hpub
  · refine .inr ⟨u, huv, ?_⟩
    by_cases huw : u = w
    · subst huw
      rcases h.owes hu with howes | ⟨hl, hn⟩
      · simpa [State.setWork] using howes
      · exact absurd hn (hnot huv.symm hl)
    · simpa [State.setWork, Function.update_of_ne huw] using hu

omit [DecidableEq P] [DecidableEq S] in
theorem Waking.work (hs : Waking s) (hm : Mutex s) (hc : Tally s) {w : W} {sh' : Shared C M F P}
    {pc' : WorkPc P} (h : WorkTurn cfg s.shared (s.work w) sh' pc') :
    Waking (s.setWork w (sh', pc')) := by
  have hother (v : W) (hv : v ≠ w) : (s.setWork w (sh', pc')).work v = s.work v :=
    Function.update_of_ne hv _ _
  have hself : (s.setWork w (sh', pc')).work w = pc' := Function.update_self _ _ _
  have halone (v : W) (hvw : v ≠ w) (hv : (s.work v).holdsLock = true) :
      (s.work w).holdsLock ≠ true := by
    intro hw
    cases hm.unique (.worker v) (.worker w) hv hw
    exact hvw rfl
  constructor
  · intro v hv task htask
    by_cases hvw : v = w
    · subst hvw
      rw [hself] at hv
      have hd := h.drainMove (by cases pc' <;> first | rfl | cases hv)
      obtain ⟨hsame, hnil | hbefore⟩ := hd.checking hv
      · have hin : sh'.input = [] := by rw [hsame, hnil]
        have hmem : task ∈ sh'.input := htask
        rw [hin] at hmem
        cases hmem
      · exact hs.checking v hbefore task (by simpa [State.setWork, hsame] using htask)
    · rw [hother v hvw] at hv
      refine hs.checking v hv task ?_
      rcases h.move.input with hin | ⟨first, hin⟩
      · exact hin ▸ htask
      · rw [hin]
        exact List.mem_cons_of_mem _ htask
  · intro v hv
    by_cases hvw : v = w
    · subst hvw
      rw [hself] at hv
      subst hv
      obtain ⟨-, hbefore, hne⟩ := (h.drainMove rfl).waiting
      exact (hc.pending hs hbefore hne).work h.move fun hne => absurd rfl hne
    · rw [hother v hvw] at hv
      refine (hs.waiting v hv).work h.move fun hne hl => absurd hl (halone v hne ?_)
      rw [hv]
      rfl
  · intro v ticket hv hn
    by_cases hvw : v = w
    · subst hvw
      rw [hself] at hv
      subst hv
      obtain ⟨hwait, -⟩ := (h.drainMove rfl).parks
      exact (hs.waiting v hwait).work h.move fun hne => absurd rfl hne
    · rw [hother v hvw] at hv
      obtain ⟨hold, hnot⟩ := h.called.unnotified (hs.ticket v ticket hv) hn
      exact (hs.parked v ticket hv hold).work h.move fun _ _ => hnot
  · intro v ticket hv
    by_cases hvw : v = w
    · subst hvw
      rw [hself] at hv
      subst hv
      exact ((h.drainMove rfl).parks).2
    · rw [hother v hvw] at hv
      exact h.called.ticket (hs.ticket v ticket hv)

omit [DecidableEq P] [DecidableEq W] in
theorem Waking.stop (hs : Waking s) {i : S} {sh' : Shared C M F P} {pc' : StopPc}
    (h : StopMove s.shared (s.stop i) sh' pc') : Waking (s.setStop i (sh', pc')) := by
  refine ⟨fun w hw task htask => hs.checking w hw task (h.frame.input ▸ htask), hs.waiting, ?_, ?_⟩
  · intro w ticket hw hn
    exact hs.parked w ticket hw (h.called.unnotified (hs.ticket w ticket hw) hn).1
  · intro w ticket hw
    exact h.called.ticket (hs.ticket w ticket hw)

theorem Waking.event (hs : Waking s) (hm : Mutex s) (hc : Tally s) (h : Event cfg s t) :
    Waking t := by
  cases h with
  | publish h => exact hs.publish hm h
  | work h => exact hs.work hm hc h
  | stop h => exact hs.stop h
  | caller => exact ⟨hs.checking, hs.waiting, hs.parked, hs.ticket⟩
  | parent => exact ⟨hs.checking, hs.waiting, hs.parked, hs.ticket⟩

-- What holds in every reachable state, whoever cancels the context of the pool.
structure Live (s : State C M F P W S) : Prop where
  tally : Tally s
  mutex : Mutex s
  held : Held s
  waking : Waking s

theorem Live.event (hs : Live s) (h : Event cfg s t) : Live t where
  tally := hs.tally.event h
  mutex := hs.mutex.event h
  held := hs.held.event h
  waking := hs.waking.event hs.mutex hs.tally h

omit [DecidableEq P] [DecidableEq W] [DecidableEq S] in
theorem live_initial {workers : Nat} : Live (initial workers : State C M F P (Fin workers) S) where
  tally := tally_initial
  mutex := ⟨fun j hj => (by cases j <;> cases hj), fun j _ hj => (by cases j <;> cases hj)⟩
  held := fun hl => by cases hl
  waking := ⟨fun _ hw => (by cases hw), fun _ hw => (by cases hw), fun _ _ hw => (by cases hw),
    fun _ _ hw => (by cases hw)⟩

end NatsClient.WorkerPool
