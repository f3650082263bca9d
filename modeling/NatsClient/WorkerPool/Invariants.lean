import NatsClient.WorkerPool.Accounting

namespace NatsClient.WorkerPool

open Lib.Parties

variable {C M F P W S : Type} {cfg : Config C M F P} {s t : State C M F P W S}

theorem holds_self {ref? : Option Nat} {r : Nat} (h : ref? = some r) : holds ref? r = 1 := by
  simp [holds, h]

theorem places_pos {sh : Shared C M F P} {task : Nat × P} (h : task ∈ sh.input) :
    0 < sh.places task.1 := by
  have hpos := List.countP_pos_iff (p := fun other : Nat × P => other.1 == task.1).mpr
    ⟨task, h, by simp⟩
  unfold Shared.places
  omega

theorem ref_of_filled {pc : PubPc} {r : Nat} (h : pc.filled? = some r) : pc.ref? = some r := by
  cases pc <;> first | exact h | cases h

theorem ref_of_token {pc : WorkPc P} {task : Nat × P} (h : pc.token? = some task) :
    pc.ref? = some task.1 := by
  cases pc <;> cases h <;> rfl

section Counting

variable [Fintype P] [Fintype W]

-- The counters count what they are named after.
structure Counters (s : State C M F P W S) : Prop where
  publishers : s.shared.publishers = (∑ p, (s.pub p).counted : Nat)
  depth : s.shared.depth =
    (∑ p, (s.pub p).queued : Nat) + s.shared.input.length + (∑ w, (s.work w).queued : Nat)
  inFlight : s.shared.inFlight = (∑ w, (s.work w).running : Nat)
  wg : s.shared.wg = (∑ w, (s.work w).alive : Nat)

theorem Counters.input_eq_nil (hs : Counters s) (hd : s.shared.depth = 0) :
    s.shared.input = [] := by
  have h := hs.depth
  exact List.length_eq_zero_iff.mp (by omega)

theorem Counters.not_pastGate (hs : Counters s) (hp : s.shared.publishers = 0) (p : P) :
    (s.pub p).pastGate = false := by
  have hsum := hs.publishers
  have hle := le_sum (fun p => (s.pub p).counted) p
  have hzero : (s.pub p).counted = 0 := by omega
  cases hpc : s.pub p <;> first | rfl | (rw [hpc] at hzero; cases hzero)

theorem Counters.gone (hs : Counters s) (hw : s.shared.wg = 0) (w : W) : s.work w = .gone := by
  have hsum := hs.wg
  have hle := le_sum (fun w => (s.work w).alive) w
  have hzero : (s.work w).alive = 0 := by omega
  cases hpc : s.work w <;> first | rfl | (rw [hpc] at hzero; cases hzero)

-- Every task object is in exactly one place.
def Owned (s : State C M F P W S) : Prop :=
  ∀ r, (∑ p, holds (s.pub p).ref? r) + (∑ w, holds (s.work w).ref? r) + s.shared.places r = 1

theorem Owned.pub_ne_pub (hs : Owned s) {p q : P} {r : Nat} (hne : p ≠ q)
    (hq : (s.pub q).ref? = some r) : (s.pub p).ref? ≠ some r := by
  intro hp
  have hle := add_le_sum (fun p => holds (s.pub p).ref? r) hne
  have hr := hs r
  simp only [holds_self hp, holds_self hq] at hle
  omega

theorem Owned.pub_ne_work (hs : Owned s) {p : P} {w : W} {r : Nat}
    (hw : (s.work w).ref? = some r) : (s.pub p).ref? ≠ some r := by
  intro hp
  have hle := le_sum (fun p => holds (s.pub p).ref? r) p
  have hle' := le_sum (fun w => holds (s.work w).ref? r) w
  have hr := hs r
  simp only [holds_self hp, holds_self hw] at hle hle'
  omega

theorem Owned.pub_ne_input (hs : Owned s) {p : P} {task : Nat × P}
    (ht : task ∈ s.shared.input) : (s.pub p).ref? ≠ some task.1 := by
  intro hp
  have hle := le_sum (fun p => holds (s.pub p).ref? task.1) p
  have hr := hs task.1
  have hpos := places_pos ht
  simp only [holds_self hp] at hle
  omega

theorem Owned.work_ne_work (hs : Owned s) {v w : W} {r : Nat} (hne : v ≠ w)
    (hw : (s.work w).ref? = some r) : (s.work v).ref? ≠ some r := by
  intro hv
  have hle := add_le_sum (fun w => holds (s.work w).ref? r) hne
  have hr := hs r
  simp only [holds_self hv, holds_self hw] at hle
  omega

theorem Owned.work_ne_input (hs : Owned s) {w : W} {task : Nat × P}
    (ht : task ∈ s.shared.input) : (s.work w).ref? ≠ some task.1 := by
  intro hw
  have hle := le_sum (fun w => holds (s.work w).ref? task.1) w
  have hr := hs task.1
  have hpos := places_pos ht
  simp only [holds_self hw] at hle
  omega

end Counting

-- The task of an accepted call is in the channel, with a worker, or in the log; no
-- other call has one.
def Traced [DecidableEq P] [Fintype W] (s : State C M F P W S) : Prop :=
  ∀ q, s.shared.input.countP (fun task => task.2 = q) + (∑ w, carries (s.work w).token? q) +
    s.shared.log.countP (fun call => call.origin = q) = (s.pub q).accepted.toNat

-- What a call of a handler for the call p of tryPublish has to be.
def expected (cfg : Config C M F P) (p : P) : Invocation C M F P :=
  (cfg.request p).task.invocation cfg.registerFn p

-- A task object that is on its way to a handler holds what its call put in.
structure Faithful (cfg : Config C M F P) (s : State C M F P W S) : Prop where
  filled : ∀ p r, (s.pub p).filled? = some r → s.shared.heap r = (cfg.request p).task
  input : ∀ task ∈ s.shared.input, s.shared.heap task.1 = (cfg.request task.2).task
  token : ∀ w task, (s.work w).token? = some task →
    s.shared.heap task.1 = (cfg.request task.2).task
  log : ∀ call ∈ s.shared.log, call = expected cfg call.origin

-- The order in which a pool shuts down when only GracefulStop cancels its context.
structure Closing (s : State C M F P W S) : Prop where
  cancelled : s.shared.ctxErr.isSome = true → s.shared.flag ≠ .running
  inDrain : ∀ w, (s.work w).inDrain = true → s.shared.ctxErr.isSome = true
  sealed : ∀ w, (s.work w).sealed = true → ∀ p, (s.pub p).pastGate = false
  drained : ∀ w, (s.work w).drained = true → s.shared.input = []
  begun : ∀ i, s.stop i ≠ .start → s.shared.flag ≠ .running
  waited : ∀ i, (s.stop i).waited = true → ∀ w, s.work w = .gone
  closed : s.shared.closed = true → ∀ w, s.work w = .gone
  returned : ∀ i, s.stop i = .returned → s.shared.closed = true

theorem Closing.flag_of_sealed (hs : Closing s) {w : W} (hw : (s.work w).sealed = true) :
    s.shared.flag ≠ .running :=
  hs.cancelled (hs.inDrain w (inDrain_of_sealed hw))

-- The mutex is held by somebody.
def Held (s : State C M F P W S) : Prop :=
  s.shared.locked = true → (∃ p, (s.pub p).holdsLock = true) ∨
    (∃ w, (s.work w).holdsLock = true) ∨ ∃ i, (s.stop i).holdsLock = true

-- A party that moves holds the mutex afterwards or leaves it to the one that has it.
theorem exists_update_holds {ι β : Type} [DecidableEq ι] {holdsLock : β → Bool} {g : ι → β}
    {i : ι} {b : β} (hi : holdsLock (g i) = false) (h : ∃ j, holdsLock (g j) = true) :
    ∃ j, holdsLock (Function.update g i b j) = true := by
  obtain ⟨j, hj⟩ := h
  have hne : j ≠ i := by
    rintro rfl
    rw [hi] at hj
    cases hj
  exact ⟨j, by rwa [Function.update_of_ne hne]⟩

variable [DecidableEq P] [DecidableEq W] [DecidableEq S]

theorem Held.move (hs : Held s) (h : Move cfg s t) : Held t := by
  intro hl
  cases h with
  | @publish p sh' pc' h =>
    rcases h.lock hl with hnew | ⟨hl', hpc⟩
    · exact .inl ⟨p, by simpa [State.setPub] using hnew⟩
    · exact (hs hl').imp_left (exists_update_holds hpc)
  | @work w sh' pc' h =>
    rcases h.lock hl with hnew | ⟨hl', hpc⟩
    · exact .inr (.inl ⟨w, by simpa [State.setWork] using hnew⟩)
    · exact (hs hl').imp_right (.imp_left (exists_update_holds hpc))
  | @stop i sh' pc' h =>
    rcases h.lock hl with hnew | ⟨hl', hpc⟩
    · exact .inr (.inr ⟨i, by simpa [State.setStop] using hnew⟩)
    · exact (hs hl').imp_right (.imp_right (exists_update_holds hpc))
  | caller => exact hs hl

variable [Fintype W]

theorem Traced.move (hs : Traced s) (h : Move cfg s t) : Traced t := by
  intro q
  have hq := hs q
  cases h with
  | @publish p sh' pc' h =>
    have hm := h.tokens q
    simp only [State.setPub, h.frame.log]
    by_cases hp : p = q
    · subst hp
      simp only [if_true, Function.update_self] at *
      omega
    · simp only [if_neg hp, Function.update_of_ne (Ne.symm hp)] at *
      omega
  | @work w sh' pc' h =>
    have hu := sum_update (fun _ (pc : WorkPc P) => carries pc.token? q) s.work w pc'
    have hm := h.tokens q
    simp only [State.setWork] at *
    omega
  | stop h =>
    simp only [State.setStop, h.frame.input, h.frame.log]
    exact hq
  | caller => exact hq

theorem Traced.step (hs : Traced s) {a : Act P W S} (h : step cfg s a = some t) : Traced t := by
  cases ha : a.isParent with
  | true =>
    cases a with
    | cancelParent err =>
      cases h
      exact hs
    | _ => cases ha
  | false =>
    obtain hm | ⟨mid, hm, hm'⟩ := step_move ha h
    · exact hs.move hm
    · exact (hs.move hm).move hm'

omit [DecidableEq W] [DecidableEq S] in
-- A call whose handler is about to run has not had it run before.
theorem Traced.not_in_log (hs : Traced s) {w : W} {r : Nat} {p : P} {back : Back}
    (hw : s.work w = .invoke r p back) :
    s.shared.log.countP (fun call => call.origin = p) = 0 := by
  have hq := hs p
  have hle := le_sum (fun w => carries (s.work w).token? p) w
  have hone : carries (s.work w).token? p = 1 := by simp [hw, WorkPc.token?, carries]
  have hmax := Bool.toNat_le (s.pub p).accepted
  simp only [hone] at hle
  omega

variable [Fintype P]

theorem Counters.move (hs : Counters s) (h : Move cfg s t) : Counters t := by
  obtain ⟨hpublishers, hdepth, hinFlight, hwg⟩ := hs
  cases h with
  | @publish p sh' pc' h =>
    have hc := sum_update (fun _ (pc : PubPc) => pc.counted) s.pub p pc'
    have hq := sum_update (fun _ (pc : PubPc) => pc.queued) s.pub p pc'
    have hp := h.publishers
    have hd := h.depth
    refine ⟨?_, ?_, h.frame.inFlight.trans hinFlight, h.frame.wg.trans hwg⟩ <;>
      simp only [State.setPub] at * <;> omega
  | @work w sh' pc' h =>
    have hq := sum_update (fun _ (pc : WorkPc P) => pc.queued) s.work w pc'
    have hr := sum_update (fun _ (pc : WorkPc P) => pc.running) s.work w pc'
    have ha := sum_update (fun _ (pc : WorkPc P) => pc.alive) s.work w pc'
    have hd := h.depth
    have hi := h.inFlight
    have hw := h.wg
    refine ⟨h.frame.publishers.trans hpublishers, ?_, ?_, ?_⟩ <;>
      simp only [State.setWork] at * <;> omega
  | stop h =>
    refine ⟨h.frame.publishers.trans hpublishers, ?_, h.frame.inFlight.trans hinFlight,
      h.frame.wg.trans hwg⟩
    simp only [State.setStop, h.frame.depth, h.frame.input]
    exact hdepth
  | caller => exact ⟨hpublishers, hdepth, hinFlight, hwg⟩

theorem Owned.move (hs : Owned s) (h : Move cfg s t) : Owned t := by
  intro r
  have hr := hs r
  cases h with
  | @publish p sh' pc' h =>
    have hu := sum_update (fun _ (pc : PubPc) => holds pc.ref? r) s.pub p pc'
    have hm := h.refs r
    simp only [State.setPub] at *
    omega
  | @work w sh' pc' h =>
    have hu := sum_update (fun _ (pc : WorkPc P) => holds pc.ref? r) s.work w pc'
    have hm := h.refs r
    simp only [State.setWork] at *
    omega
  | stop h =>
    simp only [State.setStop, h.frame.places]
    exact hr
  | caller => exact hr

omit [DecidableEq W] [DecidableEq S] in
theorem Faithful.publish (hs : Faithful cfg s) (ho : Owned s) {p : P} {sh' : Shared C M F P}
    {pc' : PubPc} (h : PubMove cfg s.shared p (s.pub p) sh' pc') :
    Faithful cfg (s.setPub p (sh', pc')) := by
  refine ⟨?_, ?_, ?_, ?_⟩
  · intro q r hq
    simp only [State.setPub] at hq ⊢
    by_cases hp : q = p
    · subst hp
      rw [Function.update_self] at hq
      exact h.filled_task (hs.filled q) hq
    · rw [Function.update_of_ne hp] at hq
      rw [h.heap (ho.pub_ne_pub (Ne.symm hp) (ref_of_filled hq))]
      exact hs.filled q r hq
  · intro task ht
    rcases h.input with hin | ⟨r, hpc, hin, hheap⟩
    · have ht' : task ∈ s.shared.input := hin ▸ ht
      exact (h.heap (ho.pub_ne_input ht')).trans (hs.input task ht')
    · have ht' : task ∈ s.shared.input ++ [(r, p)] := hin ▸ ht
      refine (congrFun hheap task.1).trans ?_
      rcases List.mem_append.mp ht' with hold | hnew
      · exact hs.input task hold
      · obtain rfl := List.mem_singleton.mp hnew
        exact hs.filled p r (by rw [hpc]; rfl)
  · intro w task ht
    exact (h.heap (ho.pub_ne_work (ref_of_token ht))).trans (hs.token w task ht)
  · intro call hc
    exact hs.log call (h.frame.log ▸ hc)

omit [DecidableEq P] [DecidableEq S] in
theorem Faithful.work (hs : Faithful cfg s) (ho : Owned s) {w : W} {sh' : Shared C M F P}
    {pc' : WorkPc P} (h : WorkMove cfg s.shared (s.work w) sh' pc') :
    Faithful cfg (s.setWork w (sh', pc')) := by
  refine ⟨?_, ?_, ?_, ?_⟩
  · intro p r hr
    have hne : (s.work w).ref? ≠ some r := fun hw => ho.pub_ne_work hw (ref_of_filled hr)
    exact (h.heap hne).trans (hs.filled p r hr)
  · intro task ht
    have ht' : task ∈ s.shared.input := by
      rcases h.input with hin | ⟨first, hin⟩
      · exact hin ▸ ht
      · rw [hin]
        exact List.mem_cons_of_mem _ ht
    exact (h.heap (ho.work_ne_input ht')).trans (hs.input task ht')
  · intro v task ht
    simp only [State.setWork] at ht ⊢
    by_cases hv : v = w
    · subst hv
      rw [Function.update_self] at ht
      obtain ⟨hold | hin, hheap⟩ := h.token ht
      · rw [hheap]
        exact hs.token v task hold
      · rw [hheap]
        exact hs.input task hin
    · rw [Function.update_of_ne hv] at ht
      rw [h.heap (ho.work_ne_work (Ne.symm hv) (ref_of_token ht))]
      exact hs.token v task ht
  · intro call hc
    rcases h.log with hlog | ⟨r, p, ht, hlog⟩
    · exact hs.log call (hlog ▸ hc)
    · have hc' : call ∈ s.shared.log ++ [(s.shared.heap r).invocation cfg.registerFn p] :=
        hlog ▸ hc
      rcases List.mem_append.mp hc' with hold | hnew
      · exact hs.log call hold
      · obtain rfl := List.mem_singleton.mp hnew
        rw [hs.token w (r, p) ht]
        rfl

theorem Faithful.move (hs : Faithful cfg s) (ho : Owned s)
    (h : Move cfg s t) : Faithful cfg t := by
  cases h with
  | publish h => exact hs.publish ho h
  | work h => exact hs.work ho h
  | stop h =>
    have hf := h.frame
    refine ⟨fun p r hr => ?_, fun task ht => ?_, fun w task ht => ?_, fun call hc => ?_⟩
    · exact (congrFun hf.heap r).trans (hs.filled p r hr)
    · exact (congrFun hf.heap task.1).trans (hs.input task (hf.input ▸ ht))
    · exact (congrFun hf.heap task.1).trans (hs.token w task ht)
    · exact hs.log call (hf.log ▸ hc)
  | caller => exact ⟨hs.filled, hs.input, hs.token, hs.log⟩

omit [DecidableEq W] [DecidableEq S] [Fintype W] [Fintype P] in
theorem Closing.publish (hs : Closing s) {p : P} {sh' : Shared C M F P} {pc' : PubPc}
    (h : PubMove cfg s.shared p (s.pub p) sh' pc') : Closing (s.setPub p (sh', pc')) where
  cancelled := by
    simp only [State.setPub, h.frame.ctxErr, h.frame.flag]
    exact hs.cancelled
  inDrain := by
    simp only [State.setPub, h.frame.ctxErr]
    exact hs.inDrain
  sealed := by
    intro w hw q
    simp only [State.setPub] at hw ⊢
    by_cases hq : q = p
    · subst hq
      rw [Function.update_self]
      exact h.gate (hs.flag_of_sealed hw) (hs.sealed w hw q)
    · rw [Function.update_of_ne hq]
      exact hs.sealed w hw q
  drained := by
    intro w hw
    rcases h.input with hin | ⟨r, hpc, -, -⟩
    · exact hin.trans (hs.drained w hw)
    · have hgate := hs.sealed w (sealed_of_drained hw) p
      rw [hpc] at hgate
      cases hgate
  begun := by
    simp only [State.setPub, h.frame.flag]
    exact hs.begun
  waited := hs.waited
  closed := by
    simp only [State.setPub, h.frame.closed]
    exact hs.closed
  returned := by
    simp only [State.setPub, h.frame.closed]
    exact hs.returned

omit [DecidableEq P] [DecidableEq S] in
theorem Closing.work (hs : Closing s) (hc : Counters s) {w : W}
    {sh' : Shared C M F P} {pc' : WorkPc P} (h : WorkMove cfg s.shared (s.work w) sh' pc') :
    Closing (s.setWork w (sh', pc')) where
  cancelled := by
    simp only [State.setWork, h.frame.ctxErr, h.frame.flag]
    exact hs.cancelled
  inDrain := by
    intro v hv
    simp only [State.setWork, h.frame.ctxErr] at hv ⊢
    by_cases hvw : v = w
    · subst hvw
      rw [Function.update_self] at hv
      exact (h.inDrain hv).elim (hs.inDrain v) id
    · rw [Function.update_of_ne hvw] at hv
      exact hs.inDrain v hv
  sealed := by
    intro v hv
    simp only [State.setWork] at hv ⊢
    by_cases hvw : v = w
    · subst hvw
      rw [Function.update_self] at hv
      rcases h.sealed hv with hold | ⟨-, hzero⟩
      · exact hs.sealed v hold
      · exact hc.not_pastGate hzero
    · rw [Function.update_of_ne hvw] at hv
      exact hs.sealed v hv
  drained := by
    intro v hv
    -- an empty channel stays empty
    have hkeep (hnil : s.shared.input = []) : sh'.input = [] := by
      rcases h.input with hin | ⟨task, hin⟩
      · exact hin.trans hnil
      · rw [hnil] at hin
        cases hin
    simp only [State.setWork] at hv ⊢
    by_cases hvw : v = w
    · subst hvw
      rw [Function.update_self] at hv
      rcases h.sawNoTask hv with hold | ⟨-, hzero⟩
      · exact hkeep (hs.drained v hold)
      · exact hkeep (hc.input_eq_nil hzero)
    · rw [Function.update_of_ne hvw] at hv
      exact hkeep (hs.drained v hv)
  begun := by
    simp only [State.setWork, h.frame.flag]
    exact hs.begun
  waited := fun i hi => absurd (hs.waited i hi w) h.not_gone
  closed := fun hcl => absurd (hs.closed (h.frame.closed ▸ hcl) w) h.not_gone
  returned := by
    simp only [State.setWork, h.frame.closed]
    exact hs.returned

omit [DecidableEq P] [DecidableEq W] in
theorem Closing.stop (hs : Closing s) (hc : Counters s) {i : S}
    {sh' : Shared C M F P} {pc' : StopPc} (h : StopMove s.shared (s.stop i) sh' pc') :
    Closing (s.setStop i (sh', pc')) where
  cancelled := fun _ => h.flag (hs.begun i)
  inDrain := fun w hw => h.ctxErr (hs.inDrain w hw)
  sealed := hs.sealed
  drained := fun w hw => h.frame.input.trans (hs.drained w hw)
  begun := fun _ _ => h.flag (hs.begun i)
  waited := by
    intro j hj
    simp only [State.setStop] at hj ⊢
    by_cases hji : j = i
    · subst hji
      rw [Function.update_self] at hj
      rcases h.waited_cases hj with hold | hzero
      · exact hs.waited j hold
      · exact hc.gone hzero
    · rw [Function.update_of_ne hji] at hj
      exact hs.waited j hj
  closed := fun hcl => (h.closed_cases hcl).elim hs.closed (hs.waited i)
  returned := by
    intro j hj
    simp only [State.setStop] at hj ⊢
    by_cases hji : j = i
    · subst hji
      rw [Function.update_self] at hj
      exact h.returned_closed hj
    · rw [Function.update_of_ne hji] at hj
      exact h.closed_mono (hs.returned j hj)

theorem Closing.move (hs : Closing s) (hc : Counters s)
    (h : Move cfg s t) : Closing t := by
  cases h with
  | publish h => exact hs.publish h
  | work h => exact hs.work hc h
  | stop h => exact hs.stop hc h
  | caller =>
    exact ⟨hs.cancelled, hs.inDrain, hs.sealed, hs.drained, hs.begun, hs.waited, hs.closed,
      hs.returned⟩

-- Everything that holds along every run of the pool.
structure Inv (cfg : Config C M F P) (s : State C M F P W S) : Prop where
  counters : Counters s
  owned : Owned s
  traced : Traced s
  faithful : Faithful cfg s
  closing : Closing s
  held : Held s

theorem Inv.move (hs : Inv cfg s) (h : Move cfg s t) : Inv cfg t where
  counters := hs.counters.move h
  owned := hs.owned.move h
  traced := hs.traced.move h
  faithful := hs.faithful.move hs.owned h
  closing := hs.closing.move hs.counters h
  held := hs.held.move h

end NatsClient.WorkerPool
