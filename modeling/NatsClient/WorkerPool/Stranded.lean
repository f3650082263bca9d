import NatsClient.WorkerPool.Clients
import NatsClient.WorkerPool.Tally
import NatsClient.WorkerPool.Theorems

namespace NatsClient.WorkerPool

open Lib.Machine

variable {C M F P W S : Type} {cfg : Config C M F P} {s t : State C M F P W S} {a : Act P W S}

-- The worker has returned from drain.
def WorkPc.returned : WorkPc P → Bool
  | .exiting | .gone => true
  | _ => false

-- A task that tryPublish has reported as accepted and that no worker is left for.
def Stranded (s : State C M F P W S) : Prop :=
  (∀ w, (s.work w).returned = true) ∧
    ∃ task ∈ s.shared.input, s.pub task.2 = .done .accepted

-- The action lets a call past the check of the state.
def Admits (s : State C M F P W S) : Act P W S → Prop
  | .publish p choice => choice = .go ∧ s.pub p = .gate ∧ s.shared.flag = .running
  | _ => False

-- Where it does, some worker has not yet seen publishers at zero on its way out.
def Manned (s : State C M F P W S) (a : Act P W S) : Prop :=
  Admits s a → ∃ w, (s.work w).sealed = false

instance [DecidableEq P] : Decidable (Admits s a) := by
  cases a <;> unfold Admits <;> infer_instance

instance decidableManned [DecidableEq P] [Fintype W] : Decidable (Manned s a) :=
  inferInstanceAs (Decidable (_ → _))

theorem drained_of_returned {pc : WorkPc P} (h : pc.returned = true) : pc.drained = true := by
  cases pc <;> first | rfl | cases h

theorem PubMove.pastGate {sh sh' : Shared C M F P} {p : P} {pc pc' : PubPc}
    (h : PubMove cfg sh p pc sh' pc') (hpc' : pc'.pastGate = true) :
    pc.pastGate = true ∨ (pc = .gate ∧ pc' = .get) := by
  cases h with
  | passed h => exact .inr ⟨rfl, rfl⟩
  | @discarded r cause => cases cause <;> cases hpc'
  | @signalled _ _ next h => cases next <;> cases hpc'
  | @finished _ _ next _ h => cases next <;> cases hpc'
  | _ => first | exact .inl rfl | cases hpc'

-- While every worker is on its way out nobody is past the gate, and once all of them
-- have seen depth at zero the channel is empty.
structure Guarded (s : State C M F P W S) : Prop where
  sealed : (∀ w, (s.work w).sealed = true) → ∀ p, (s.pub p).pastGate = false
  drained : (∀ w, (s.work w).drained = true) → s.shared.input = []

theorem Guarded.not_stranded (hs : Guarded s) : ¬ Stranded s := by
  rintro ⟨hreturned, task, htask, -⟩
  rw [hs.drained fun w => drained_of_returned (hreturned w)] at htask
  cases htask

variable [DecidableEq P] [DecidableEq W] [DecidableEq S]

theorem step_admits (h : step cfg s a = some t) {p : P} (hp : s.pub p = .gate)
    (hp' : t.pub p = .get) : Admits s a := by
  by_cases ha : a.publisher? = some p
  · cases a with
    | publish q choice =>
      cases ha
      obtain ⟨next, hnext, rfl⟩ := Option.map_eq_some_iff.mp h
      have hget : next.2 = .get := by simpa [State.setPub] using hp'
      rw [hp] at hnext
      cases choice with
      | go =>
        refine ⟨rfl, hp, ?_⟩
        by_contra hflag
        simp only [pubStep, if_neg hflag, Option.some.injEq] at hnext
        rw [← hnext] at hget
        cases hget
      | _ => cases hnext
    | handoff q w =>
      cases ha
      simp only [step, handoffStep, hp] at h
      cases h
    | _ => cases ha
  · rw [step_pub_of_ne h ha, hp] at hp'
    cases hp'

omit [DecidableEq W] [DecidableEq S] in
theorem Guarded.publish (hs : Guarded s) {p : P} {sh' : Shared C M F P} {pc' : PubPc}
    (h : PubMove cfg s.shared p (s.pub p) sh' pc')
    (hgate : s.pub p = .gate → pc' = .get → ∃ w, (s.work w).sealed = false) :
    Guarded (s.setPub p (sh', pc')) where
  sealed := by
    intro hsealed q
    simp only [State.setPub] at hsealed ⊢
    by_cases hq : q = p
    · subst hq
      rw [Function.update_self]
      by_contra hpast
      rcases h.pastGate (by simpa using hpast) with hold | ⟨hpc, hpc'⟩
      · rw [hs.sealed hsealed q] at hold
        cases hold
      · obtain ⟨w, hw⟩ := hgate hpc hpc'
        rw [hsealed w] at hw
        cases hw
    · rw [Function.update_of_ne hq]
      exact hs.sealed hsealed q
  drained := by
    intro hdrained
    rcases h.input with hin | ⟨r, hpc, -, -⟩
    · exact hin.trans (hs.drained hdrained)
    · have hpast := hs.sealed (fun w => sealed_of_drained (hdrained w)) p
      rw [hpc] at hpast
      cases hpast

omit [DecidableEq P] [DecidableEq S] in
theorem Guarded.work (hs : Guarded s) (ht : Tally s) {w : W} {sh' : Shared C M F P}
    {pc' : WorkPc P} (h : WorkMove cfg s.shared (s.work w) sh' pc') :
    Guarded (s.setWork w (sh', pc')) := by
  -- all the others are where they were
  have hothers {f : WorkPc P → Bool} (hall : ∀ v, f (Function.update s.work w pc' v) = true)
      (hw : f (s.work w) = true) : ∀ v, f (s.work v) = true := by
    intro v
    by_cases hv : v = w
    · rw [hv]
      exact hw
    · have := hall v
      rwa [Function.update_of_ne hv] at this
  constructor
  · intro hsealed p
    have hself := hsealed w
    simp only [State.setWork, Function.update_self] at hself
    rcases h.sealed hself with hold | ⟨-, hzero⟩
    · exact hs.sealed (hothers hsealed hold) p
    · exact ht.not_pastGate hzero p
  · intro hdrained
    have hself := hdrained w
    simp only [State.setWork, Function.update_self] at hself
    have hnil : s.shared.input = [] := by
      rcases h.sawNoTask hself with hold | ⟨-, hzero⟩
      · exact hs.drained (hothers hdrained hold)
      · exact ht.input_eq_nil hzero
    rcases h.input with hin | ⟨task, hin⟩
    · exact hin.trans hnil
    · rw [hnil] at hin
      cases hin

theorem Guarded.event (hs : Guarded s) (ht : Tally s) (h : Event cfg s t)
    (hgate : ∀ p, s.pub p = .gate → t.pub p = .get → ∃ w, (s.work w).sealed = false) :
    Guarded t := by
  cases h with
  | @publish p sh' pc' h =>
    exact hs.publish h fun hpc hpc' => hgate p hpc (by simpa [State.setPub] using hpc')
  | work h => exact hs.work ht h.move
  | stop h => exact ⟨hs.sealed, fun hdrained => h.frame.input.trans (hs.drained hdrained)⟩
  | caller => exact ⟨hs.sealed, hs.drained⟩
  | parent => exact ⟨hs.sealed, hs.drained⟩

theorem guarded_step (hs : Guarded s ∧ Tally s) (hmanned : Manned s a)
    (h : step cfg s a = some t) : Guarded t ∧ Tally t := by
  have hgate (p : P) (hp : s.pub p = .gate) (hp' : t.pub p = .get) :
      ∃ w, (s.work w).sealed = false := hmanned (step_admits h hp hp')
  rcases step_event h with he | ⟨mid, he, he', hpub⟩
  · exact ⟨hs.1.event hs.2 he hgate, hs.2.event he⟩
  · have hmid : Guarded mid ∧ Tally mid :=
      ⟨hs.1.event hs.2 he fun p hp hp' => hgate p hp (by rwa [hpub]), hs.2.event he⟩
    refine ⟨hmid.1.event hmid.2 he' fun p hp hp' => ?_, hmid.2.event he'⟩
    rw [hpub, hp] at hp'
    cases hp'

section Own

-- What a pool of which only GracefulStop cancels the context keeps.
structure Stopping (s : State C M F P W S) : Prop where
  begun : ∀ i, s.stop i ≠ .start → s.shared.flag ≠ .running
  cancelled : s.shared.ctxErr.isSome = true → s.shared.flag ≠ .running
  inDrain : ∀ w, (s.work w).inDrain = true → s.shared.ctxErr.isSome = true

theorem Stopping.move (hs : Stopping s) (h : Move cfg s t) : Stopping t := by
  cases h with
  | publish h =>
    refine ⟨?_, ?_, ?_⟩ <;> simp only [State.setPub, h.frame.ctxErr, h.frame.flag]
    · exact hs.begun
    · exact hs.cancelled
    · exact hs.inDrain
  | @work w sh' pc' h =>
    refine ⟨?_, ?_, ?_⟩ <;> simp only [State.setWork, h.frame.ctxErr, h.frame.flag]
    · exact hs.begun
    · exact hs.cancelled
    · intro v hv
      by_cases hvw : v = w
      · subst hvw
        rw [Function.update_self] at hv
        exact (h.inDrain hv).elim (hs.inDrain v) id
      · rw [Function.update_of_ne hvw] at hv
        exact hs.inDrain v hv
  | @stop i sh' pc' h =>
    exact ⟨fun _ _ => h.flag (hs.begun i), fun _ => h.flag (hs.begun i),
      fun w hw => h.ctxErr (hs.inDrain w hw)⟩
  | caller => exact ⟨hs.begun, hs.cancelled, hs.inDrain⟩

theorem Stopping.step (hs : Stopping s) (ha : a.isParent = false)
    (h : step cfg s a = some t) : Stopping t := by
  rcases step_move ha h with hm | ⟨mid, hm, hm'⟩
  · exact hs.move hm
  · exact (hs.move hm).move hm'

omit [DecidableEq P] [DecidableEq W] [DecidableEq S] in
theorem Stopping.manned [Nonempty W] (hs : Stopping s) : Manned s a := by
  intro hadmits
  obtain ⟨w⟩ := ‹Nonempty W›
  refine ⟨w, ?_⟩
  by_contra hsealed
  have hflag := hs.cancelled (hs.inDrain w (inDrain_of_sealed (by simpa using hsealed)))
  cases a with
  | publish p choice => exact hflag hadmits.2.2
  | _ => exact hadmits

end Own

-- A run leaves no accepted task behind as long as no call gets past the check of the state
-- once every worker is on its way out; a run in which only GracefulStop cancels the context
-- is one.
theorem accepted_not_stranded (workerPoolLen : Int) {acts : List (Act P _ S)}
    {s : State C M F P (Fin (poolLen workerPoolLen)) S}
    (h : exec (step cfg) (initial (poolLen workerPoolLen)) acts = some s) :
    (Along (step cfg) Manned (initial (poolLen workerPoolLen)) acts → ¬ Stranded s) ∧
      ((∀ a ∈ acts, a.isParent = false) →
        Along (step cfg) Manned (initial (poolLen workerPoolLen)) acts) := by
  have hpos := poolLen_pos workerPoolLen
  constructor
  · intro hmanned
    have hstart : Guarded (initial (poolLen workerPoolLen) :
        State C M F P (Fin (poolLen workerPoolLen)) S) :=
      ⟨fun _ _ => rfl, fun _ => rfl⟩
    exact (hmanned.invariant (P := fun s => Guarded s ∧ Tally s)
      (fun _ _ _ hi hc hstep => guarded_step hi hc hstep) h ⟨hstart, tally_initial⟩).1.not_stranded
  · intro hown
    have : Nonempty (Fin (poolLen workerPoolLen)) := ⟨⟨0, hpos⟩⟩
    have hstart : Stopping (initial (poolLen workerPoolLen) :
        State C M F P (Fin (poolLen workerPoolLen)) S) :=
      ⟨fun _ hne => absurd rfl hne, fun he => (by cases he), fun _ hw => (by cases hw)⟩
    have hcalm : Along (step cfg) (fun _ a => a.isParent = false)
        (initial (poolLen workerPoolLen)) acts :=
      along_of_forall_mem _ (fun a ha _ => hown a ha) _
    exact hcalm.mono_invariant (P := Stopping) (fun _ _ _ hi hc hstep => hi.step hc hstep)
      (fun _ _ hi _ => hi.manned) hstart

-- A buffer of one and one worker; the call is a non-blocking one.
def oneCall : Config Unit Unit Unit Unit where
  capacity := 1
  registerFn := some ()
  request _ := ⟨(), (), false, none, true⟩

-- The parent context is cancelled and the worker finds nothing to do.
def lastLooks : List (Act Unit (Fin (poolLen 1)) Empty) :=
  [Act.cancelParent (.sentinel .canceled), Act.work onlyWorker .poolDone,
    Act.work onlyWorker .giveUp] ++ List.replicate 3 (Act.work onlyWorker .go)

-- The call comes first and is served.
def cancelThenWork : List (Act Unit (Fin (poolLen 1)) Empty) :=
  List.replicate 13 (Act.publish () .go) ++ List.replicate 13 (Act.work onlyWorker .go) ++
    lastLooks

theorem accepted_not_stranded_cancelThenWork :
    ∃ s : State Unit Unit Unit Unit (Fin (poolLen 1)) Empty,
      exec (step oneCall) (initial (poolLen 1)) cancelThenWork = some s ∧
        Along (step oneCall) Manned (initial (poolLen 1)) cancelThenWork ∧
        s.pub () = .done .accepted ∧ ¬ Stranded s := by
  obtain ⟨s, hs, hpub⟩ : ∃ s : State Unit Unit Unit Unit (Fin (poolLen 1)) Empty,
      exec (step oneCall) (initial (poolLen 1)) cancelThenWork = some s ∧
        s.pub () = .done .accepted := ⟨_, rfl, rfl⟩
  have hmanned : Along (step oneCall) Manned (initial (poolLen 1) :
      State Unit Unit Unit Unit (Fin (poolLen 1)) Empty) cancelThenWork := by decide
  exact ⟨s, hs, hmanned, hpub, (accepted_not_stranded 1 hs).1 hmanned⟩

-- The state still reads running after the worker has left, and the task stays in the buffer.
theorem accepted_stranded_after_cancel :
    ∃ s : State Unit Unit Unit Unit (Fin (poolLen 1)) Empty,
      exec (step oneCall) (initial (poolLen 1))
        (lastLooks ++ List.replicate 13 (Act.publish () .go)) = some s ∧ Stranded s :=
  ⟨_, rfl, by decide, (0, ()), by decide, rfl⟩

end NatsClient.WorkerPool
