import NatsClient.Idempotency.Moves

namespace NatsClient.Idempotency

open Lib.Machine

variable {ι : Type} [DecidableEq ι] {inv : Invocations ι} {s t : State ι} {a : Act ι}

-- The handler of the invocation is being executed.
def Running (pc : Pc) : Prop := ∃ guard, pc = .running guard

-- The invocation acquired the claim and has neither marked nor released it.
def Holds : Pc → Prop
  | .running .claimed => True
  | .marking .claimed => True
  | .releasing _ _ => True
  | _ => False

-- With a ClaimStore only an empty id goes without the claim.
def Guarded (inv : Invocations ι) (i : ι) : Pc → Prop
  | .running .bare => inv.id i = ""
  | .running .plain => False
  | .marking .plain => False
  | .marking .bare => False
  | pc => Holds pc → validateKVKey (inv.id i) = none

theorem validateKVKey_ne_empty {id : String} (h : validateKVKey id = none) : id ≠ "" := by
  rintro rfl
  simp [validateKVKey] at h

omit [DecidableEq ι] in
theorem Guarded.valid {i : ι} {pc : Pc} (hg : Guarded inv i pc) (hh : Holds pc) :
    validateKVKey (inv.id i) = none := by
  unfold Guarded at hg
  split at hg <;> first | exact absurd hh id | exact hg hh

omit [DecidableEq ι] in
theorem Guarded.marking {i : ι} {guard : Guard} (hg : Guarded inv i (.marking guard)) :
    guard = .claimed := by
  cases guard with
  | claimed => rfl
  | bare => exact hg.elim
  | plain => exact hg.elim

omit [DecidableEq ι] in
theorem Guarded.running {i : ι} {guard : Guard} (hg : Guarded inv i (.running guard))
    (hid : inv.id i ≠ "") : guard = .claimed := by
  cases guard with
  | claimed => rfl
  | bare => exact absurd hg hid
  | plain => exact hg.elim

theorem goto_forall {P : ι → Pc → Prop} {i : ι} {pc : Pc} (hs : ∀ j, P j (s.pc j))
    (hi : P i pc) (j : ι) : P j ((s.goto i pc).pc j) :=
  (Function.forall_update_iff s.pc fun j pc => P j pc).mpr ⟨hi, fun j _ => hs j⟩ j

theorem goto_imp {Q : Pc → Prop} {i j : ι} {pc : Pc} (hi : Q pc → Q (s.pc i))
    (hj : Q ((s.goto i pc).pc j)) : Q (s.pc j) :=
  goto_forall (P := fun j pc => Q pc → Q (s.pc j)) (fun _ h => h) hi j hj

theorem guarded_move (hc : inv.claims = true) (hg : ∀ j, Guarded inv j (s.pc j))
    (hm : Move inv s a t) : ∀ j, Guarded inv j (t.pc j) := by
  cases hm with
  | bare hpc hid => exact goto_forall hg hid
  | won hpc hid _ hv hb => exact goto_forall hg fun _ => hv
  | lost hpc hid _ hb hn hp => rcases hp with rfl | ⟨e, rfl⟩ <;> exact goto_forall hg False.elim
  | peeked hpc hid hf => rw [hc] at hf; cases hf
  | found hpc hb hd => exact goto_forall hg False.elim
  | refused hpc => exact goto_forall hg False.elim
  | marked hpc => exact goto_forall hg False.elim
  | @unmarked i _ _ _ _ hpc hb hf hp =>
    have hi := hg i
    rw [hpc] at hi
    rcases hp with ⟨rfl, e, context, rfl⟩ | ⟨_, e, rfl⟩
    · exact goto_forall hg fun _ => hi.valid trivial
    · exact goto_forall hg False.elim
  | released hpc => exact goto_forall hg False.elim
  | panicked hpc => exact goto_forall hg False.elim
  | @succeeded i guard _ hpc hp =>
    have hi := hg i
    rw [hpc] at hi
    rcases hp with ⟨_, rfl⟩ | ⟨hne, rfl⟩
    · exact goto_forall hg False.elim
    · cases guard with
      | bare => exact absurd rfl hne
      | plain => exact hi.elim
      | claimed => exact goto_forall hg fun _ => hi.valid trivial
  | @errored i _ _ _ hpc hp =>
    have hi := hg i
    rw [hpc] at hi
    rcases hp with ⟨rfl, context, rfl⟩ | ⟨_, rfl⟩
    · exact goto_forall hg fun _ => hi.valid trivial
    · exact goto_forall hg False.elim
  | expired => exact hg

-- How a step changes the bucket, and who changes it.
inductive Wrote (inv : Invocations ι) (s : State ι) (a : Act ι) (t : State ι) : Prop
  | same (hb : t.bucket = s.bucket)
  | created (i : ι) (hn : s.bucket (inv.id i) = none)
      (hb : t.bucket = Function.update s.bucket (inv.id i) (some pendingValue))
  | put (i : ι) (fault : Fault) (guard : Guard) (ha : a = .store i fault)
      (hpc : s.pc i = .marking guard) (hf : (∃ e, fault = .applied e) ∨ t.pc i = .returned none)
      (hb : t.bucket = Function.update s.bucket (inv.id i) (some doneValue))
  | purged (i : ι) (fault : Fault) (cause : GoError) (context : String) (ha : a = .store i fault)
      (hpc : s.pc i = .releasing cause context) (hf : fault.takesEffect = true)
      (ht : ∃ e, t.pc i = .returned (some e))
      (hb : t.bucket = Function.update s.bucket (inv.id i) none)
  | expired (key : String) (ha : a = .expire key) (hpc : t.pc = s.pc)
      (hb : t.bucket = Function.update s.bucket key none)

theorem Move.wrote (hm : Move inv s a t) : Wrote inv s a t := by
  cases hm with
  | won hpc hid _ hv hb => exact .created _ hb rfl
  | @lost _ _ b _ hpc hid _ hb hn hp =>
    by_cases hs : b = s.bucket
    · exact .same hs
    · exact .created _ (hn hs) (hb.resolve_left hs).2
  | marked hpc => exact .put _ _ _ rfl hpc (.inr (by simp [State.goto])) rfl
  | unmarked hpc hb hf hp =>
    rcases hb with rfl | ⟨he, rfl⟩
    · exact .same rfl
    · exact .put _ _ _ rfl hpc (.inl he) rfl
  | @released i fault cause context e hpc =>
    by_cases hv : validateKVKey (inv.id i) = none ∧ fault.takesEffect = true
    · exact .purged i fault cause context rfl hpc hv.2 ⟨e, by simp [State.goto]⟩
        (by simp [State.goto, State.write, release_fst, hv])
    · exact .same (by simp [State.goto, State.write, release_fst, hv])
  | expired => exact .expired _ rfl rfl rfl
  | bare | peeked | found | refused | panicked | succeeded | errored => exact .same rfl

-- A claim is held by whoever held it before, or was acquired by this step.
theorem Move.holds (hm : Move inv s a t) {j : ι}
    (hh : Holds (t.pc j)) :
    Holds (s.pc j) ∨ (a = .store j .none ∧ s.bucket (inv.id j) = none ∧
      t.bucket = Function.update s.bucket (inv.id j) (some pendingValue)) := by
  cases hm with
  | @won i hpc hid _ hv hb =>
    by_cases hj : j = i
    · subst hj
      exact .inr ⟨rfl, hb, rfl⟩
    · exact .inl (by simpa [State.goto, State.write, Function.update_of_ne hj] using hh)
  | bare hpc hid => exact .inl (goto_imp False.elim hh)
  | lost hpc hid _ hb hn hp =>
    rcases hp with rfl | ⟨e, rfl⟩ <;> exact .inl (goto_imp False.elim hh)
  | peeked hpc hid hf => exact .inl (goto_imp False.elim hh)
  | found hpc hb hd => exact .inl (goto_imp False.elim hh)
  | refused hpc => exact .inl (goto_imp False.elim hh)
  | marked hpc => exact .inl (goto_imp False.elim hh)
  | unmarked hpc hb hf hp =>
    rcases hp with ⟨rfl, e, context, rfl⟩ | ⟨_, e, rfl⟩
    · exact .inl (goto_imp (fun _ => by rw [hpc]; trivial) hh)
    · exact .inl (goto_imp False.elim hh)
  | released hpc => exact .inl (goto_imp False.elim hh)
  | panicked hpc => exact .inl (goto_imp False.elim hh)
  | @succeeded i guard _ hpc hp =>
    rcases hp with ⟨_, rfl⟩ | ⟨_, rfl⟩
    · exact .inl (goto_imp False.elim hh)
    · refine .inl (goto_imp (fun hm => ?_) hh)
      rw [hpc]
      cases guard <;> trivial
  | errored hpc hp =>
    rcases hp with ⟨rfl, context, rfl⟩ | ⟨_, rfl⟩
    · exact .inl (goto_imp (fun _ => by rw [hpc]; trivial) hh)
    · exact .inl (goto_imp False.elim hh)
  | expired => exact .inl hh

-- The key of a held claim holds the pending marker, and its holder is alone.
structure Exclusive (inv : Invocations ι) (s : State ι) : Prop where
  guarded : ∀ j, Guarded inv j (s.pc j)
  pending : ∀ j, Holds (s.pc j) → s.bucket (inv.id j) = some pendingValue
  unique : ∀ i j, inv.id i = inv.id j → Holds (s.pc i) → Holds (s.pc j) → i = j

-- No claim expires while it is held, and no Put of a holder fails after taking effect.
def Calm (inv : Invocations ι) (s : State ι) : Act ι → Prop
  | .store i fault => Holds (s.pc i) → ∀ e, s.pc i = .marking .claimed → fault ≠ .applied e
  | .finish _ _ => True
  | .expire key => ∀ i, Holds (s.pc i) → inv.id i ≠ key

omit [DecidableEq ι] in
theorem Exclusive.wrote_pending (hs : Exclusive inv s) (hw : Wrote inv s a t)
    (hc : Calm inv s a) {j : ι} (hj : Holds (s.pc j)) (ht : Holds (t.pc j)) :
    t.bucket (inv.id j) = some pendingValue := by
  have hp := hs.pending j hj
  cases hw with
  | same hb => rw [hb, hp]
  | created i hn hb =>
    have hne : inv.id j ≠ inv.id i := fun he => by rw [he, hn] at hp; cases hp
    rw [hb, Function.update_of_ne hne, hp]
  | put i fault guard ha hpc hf hb =>
    obtain rfl : guard = .claimed := (hpc ▸ hs.guarded i).marking
    have hi : Holds (s.pc i) := by rw [hpc]; trivial
    have hne : inv.id j ≠ inv.id i := by
      intro he
      obtain rfl := hs.unique j i he hj hi
      rcases hf with ⟨e, rfl⟩ | hr
      · subst ha
        exact hc hj e hpc rfl
      · rw [hr] at ht
        exact ht
    rw [hb, Function.update_of_ne hne, hp]
  | purged i fault cause context ha hpc hf hr hb =>
    have hi : Holds (s.pc i) := by rw [hpc]; trivial
    have hne : inv.id j ≠ inv.id i := by
      intro he
      obtain rfl := hs.unique j i he hj hi
      obtain ⟨e, hr⟩ := hr
      rw [hr] at ht
      exact ht
    rw [hb, Function.update_of_ne hne, hp]
  | expired key ha hpc hb =>
    subst ha
    rw [hb, Function.update_of_ne (hc j hj), hp]

theorem Exclusive.move (hcl : inv.claims = true) (hs : Exclusive inv s) (hm : Move inv s a t)
    (hc : Calm inv s a) : Exclusive inv t := by
  refine ⟨guarded_move hcl hs.guarded hm, fun j hj => ?_, fun i j he hi hj => ?_⟩
  · rcases hm.holds hj with hold | ⟨_, _, hb⟩
    · exact hs.wrote_pending hm.wrote hc hold hj
    · rw [hb, Function.update_self]
  · -- a claim is won only while the key is free, so nobody holds it already
    rcases hm.holds hi with hoi | ⟨hai, hni, _⟩ <;>
      rcases hm.holds hj with hoj | ⟨haj, hnj, _⟩
    · exact hs.unique i j he hoi hoj
    · have hp := hs.pending i hoi
      rw [he, hnj] at hp
      cases hp
    · have hp := hs.pending j hoj
      rw [← he, hni] at hp
      cases hp
    · rw [hai] at haj
      cases haj
      rfl

omit [DecidableEq ι] in
theorem exclusive_initial (b : Bucket) : Exclusive inv (initial b) :=
  ⟨fun _ => False.elim, fun _ => False.elim, fun _ _ _ => False.elim⟩

theorem Move.handled (hm : Move inv s a t) :
    t.handled = s.handled ∨ ∃ i guard, s.pc i = .running guard ∧
      t.handled = inv.id i :: s.handled ∧ (guard = .bare ∨ t.pc i = .marking guard) := by
  cases hm with
  | @succeeded i guard _ hpc hp =>
    refine .inr ⟨i, guard, hpc, rfl, ?_⟩
    rcases hp with ⟨rfl, _⟩ | ⟨_, rfl⟩
    · exact .inl rfl
    · exact .inr (by simp [State.goto])
  | _ => exact .inl rfl

-- A Mark under way stays, or stores the done value, or fails.
theorem Move.marking (hm : Move inv s a t) {j : ι} {guard : Guard}
    (hj : s.pc j = .marking guard) :
    t.pc j = .marking guard ∨ t.bucket (inv.id j) = some doneValue ∨
      ∃ fault, a = .store j fault ∧ (fault = .none → validateKVKey (inv.id j) ≠ none) := by
  have stay {i : ι} {pc : Pc} (hi : s.pc i ≠ .marking guard) :
      (s.goto i pc).pc j = .marking guard := by
    have hji : j ≠ i := fun he => hi (he ▸ hj)
    simpa [State.goto, Function.update_of_ne hji] using hj
  cases hm with
  | bare hpc hid => exact .inl (stay (by simp [hpc]))
  | won hpc hid _ hv hb => exact .inl (stay (by simp [hpc]))
  | lost hpc hid _ hb hn hp => exact .inl (stay (by simp [hpc]))
  | peeked hpc hid hf => exact .inl (stay (by simp [hpc]))
  | found hpc hb hd => exact .inl (stay (by rcases hpc with h | h <;> simp [h]))
  | refused hpc => exact .inl (stay (by rcases hpc with h | h <;> simp [h]))
  | @marked i _ hpc =>
    by_cases hji : j = i
    · subst hji
      exact .inr (.inl (by simp [State.goto, State.write]))
    · exact .inl (by simpa [State.goto, State.write, Function.update_of_ne hji] using hj)
  | @unmarked i fault _ _ _ hpc hb hf hp =>
    by_cases hji : j = i
    · subst hji
      exact .inr (.inr ⟨fault, rfl, hf⟩)
    · exact .inl (by simpa [State.goto, State.write, Function.update_of_ne hji] using hj)
  | released hpc => exact .inl (stay (by simp [hpc]))
  | panicked hpc => exact .inl (stay (by simp [hpc]))
  | succeeded hpc hp => exact .inl (stay (by simp [hpc]))
  | errored hpc hp => exact .inl (stay (by simp [hpc]))
  | expired => exact .inl hj

-- A Release that takes effect finds no done value.
def Safe (inv : Invocations ι) (s : State ι) : Act ι → Prop
  | .store i fault => ∀ cause context, s.pc i = .releasing cause context →
      fault.takesEffect = true → s.bucket (inv.id i) ≠ some doneValue
  | .finish _ _ => True
  | .expire _ => True

omit [DecidableEq ι] in
theorem Exclusive.safe (hs : Exclusive inv s) (a : Act ι) : Safe inv s a := by
  cases a with
  | store i fault =>
    intro cause context hpc _
    rw [hs.pending i (by rw [hpc]; trivial)]
    simp [pendingValue, doneValue]
  | finish i outcome => trivial
  | expire key => trivial

omit [DecidableEq ι] in
theorem Wrote.done (hw : Wrote inv s a t) (hs : Safe inv s a) {id : String}
    (hd : s.bucket id = some doneValue) (he : a ≠ .expire id) : t.bucket id = some doneValue := by
  cases hw with
  | same hb => rw [hb, hd]
  | created i hn hb =>
    have hne : id ≠ inv.id i := fun h => by rw [h, hn] at hd; cases hd
    rw [hb, Function.update_of_ne hne, hd]
  | put i fault guard ha hpc hf hb => rw [hb, Function.update_apply, hd, ite_self]
  | purged i fault cause context ha hpc hf hr hb =>
    subst ha
    have hne : id ≠ inv.id i := fun h => hs cause context hpc hf (h ▸ hd)
    rw [hb, Function.update_of_ne hne, hd]
  | expired key ha hpc hb =>
    have hne : id ≠ key := fun h => he (by rw [ha, h])
    rw [hb, Function.update_of_ne hne, hd]

-- The operations neither fail nor expire, and no handler panics.
def Reliable : Act ι → Prop
  | .store _ fault => fault = .none
  | .finish _ outcome => ∃ err, outcome = .returned err
  | .expire _ => False

omit [DecidableEq ι] in
theorem Reliable.calm (h : Reliable a) : Calm inv s a := by
  cases a with
  | store i fault =>
    intro _ e _ hf
    rw [show fault = .none from h] at hf
    cases hf
  | finish i outcome => trivial
  | expire key => exact h.elim

-- A handled id is about to be marked done or has been.
def Completed (inv : Invocations ι) (s : State ι) : Prop :=
  ∀ id ∈ s.handled, id ≠ "" →
    s.bucket id = some doneValue ∨ ∃ i, inv.id i = id ∧ s.pc i = .marking .claimed

theorem Completed.move (hs : Exclusive inv s) (hd : Completed inv s) (hr : Reliable a)
    (hm : Move inv s a t) : Completed inv t := by
  intro id hid hne
  by_cases hold : id ∈ s.handled
  · rcases hd id hold hne with hb | ⟨i, rfl, hpc⟩
    · refine .inl (hm.wrote.done (hs.safe a) hb ?_)
      rintro rfl
      exact hr
    · rcases hm.marking hpc with hst | hb | ⟨fault, rfl, hf⟩
      · exact .inr ⟨i, rfl, hst⟩
      · exact .inl hb
      · have hv := (hs.guarded i).valid (by rw [hpc]; trivial)
        exact absurd hv (hf hr)
  · rcases hm.handled with he | ⟨i, guard, hpc, he, hp⟩
    · exact absurd (he ▸ hid) hold
    · rw [he, List.mem_cons] at hid
      obtain rfl := hid.resolve_right hold
      have hg : guard = .claimed := (hpc ▸ hs.guarded i).running hne
      exact .inr ⟨i, rfl, hg ▸ hp.resolve_left (by simp [hg])⟩

omit [DecidableEq ι] in
theorem Exclusive.running_holds (hs : Exclusive inv s) {i : ι} (hid : inv.id i ≠ "")
    (hr : Running (s.pc i)) : Holds (s.pc i) := by
  obtain ⟨guard, hpc⟩ := hr
  have hg : guard = .claimed := (hpc ▸ hs.guarded i).running hid
  rw [hpc, hg]
  trivial

-- Over a reliable bucket the claims of non-empty ids exclude each other, and an
-- id that was handled once is never handled again.
theorem withHandler_exclusive (inv : Invocations ι) (hc : inv.claims = true) (b : Bucket)
    (acts : List (Act ι)) (hr : ∀ a ∈ acts, Reliable a) (s : State ι)
    (hexec : exec (step inv) (initial b) acts = some s) :
    (∀ i j, inv.id i ≠ "" → inv.id i = inv.id j → Running (s.pc i) → Running (s.pc j) → i = j) ∧
      ∀ i, inv.id i ≠ "" → inv.id i ∈ s.handled → ¬ Running (s.pc i) := by
  obtain ⟨hs, hd⟩ : Exclusive inv s ∧ Completed inv s := by
    refine (along_of_forall_mem (fun _ => Reliable) (fun a ha _ => hr a ha) (initial b)).invariant
      (P := fun s => Exclusive inv s ∧ Completed inv s) (fun s a t hi ha hst => ?_) hexec
      ⟨exclusive_initial b, fun id hid => by cases hid⟩
    have hm := step_move hst
    exact ⟨hi.1.move hc hm ha.calm, hi.2.move hi.1 ha hm⟩
  refine ⟨fun i j hid he hi hj => ?_, fun i hid hin hrun => ?_⟩
  · exact hs.unique i j he (hs.running_holds hid hi) (hs.running_holds (he ▸ hid) hj)
  · have hh := hs.running_holds hid hrun
    rcases hd _ hin hid with hb | ⟨j, hj, hpc⟩
    · rw [hs.pending i hh] at hb
      simp [pendingValue, doneValue] at hb
    · obtain rfl := hs.unique i j hj.symm hh (by rw [hpc]; trivial)
      obtain ⟨guard, hg⟩ := hrun
      rw [hpc] at hg
      cases hg

-- Deliveries of one id over a ClaimStore.
def redeliveries (ι : Type) (id : String) : Invocations ι := ⟨fun _ => id, true⟩

-- Two deliveries of one id: the first is handled and marked, the second looks in
-- between and after.
theorem withHandler_exclusive_two_deliveries :
    ∃ s, exec (step (redeliveries Bool "a")) (initial fun _ => none)
        [.store false .none, .store true .none, .finish false (.returned none),
          .store false .none, .store true .none] = some s ∧
      "a" ∈ s.handled ∧ s.pc true = .returned none ∧ ¬ Running (s.pc true) := by
  refine ⟨_, rfl, ?_, ?_, ?_⟩
  · exact .head _
  · rfl
  · refine (withHandler_exclusive (redeliveries Bool "a") rfl (fun _ => none)
      [.store false .none, .store true .none, .finish false (.returned none),
        .store false .none, .store true .none] ?_ _ rfl).2 true (by decide) (.head _)
    simp [Reliable]

-- Without an id there is no claim: both deliveries run their handler.
theorem withHandler_empty_id_both_running :
    ∃ s, exec (step (redeliveries Bool "")) (initial fun _ => none)
        [.store false .none, .store true .none] = some s ∧
      Running (s.pc false) ∧ Running (s.pc true) := by
  exact ⟨_, rfl, ⟨.bare, rfl⟩, ⟨.bare, rfl⟩⟩

section Earned

-- What entitles an invocation to return nil.
def Settling : Pc → Prop
  | .marking _ => True
  | .returned none => True
  | _ => False

-- A done marker of the id, a Mark of it or a nil return means that a handler for
-- it has returned nil.
structure Earned (inv : Invocations ι) (id : String) (s : State ι) : Prop where
  stored : ∀ value, s.bucket id = some value → isDoneValue value = true → id ∈ s.handled
  settling : ∀ j, inv.id j = id → Settling (s.pc j) → id ∈ s.handled

theorem Move.handled_mono (hm : Move inv s a t) {id : String} (hid : id ∈ s.handled) :
    id ∈ t.handled := by
  rcases hm.handled with he | ⟨i, guard, _, he, _⟩
  · rwa [he]
  · rw [he]
    exact List.mem_cons_of_mem _ hid

theorem Move.settling (hm : Move inv s a t) {j : ι} (hj : Settling (t.pc j)) :
    Settling (s.pc j) ∨ inv.id j ∈ t.handled ∨
      ∃ value, s.bucket (inv.id j) = some value ∧ isDoneValue value = true := by
  cases hm with
  | bare hpc hid => exact .inl (goto_imp False.elim hj)
  | won hpc hid _ hv hb => exact .inl (goto_imp False.elim hj)
  | lost hpc hid _ hb hn hp =>
    rcases hp with rfl | ⟨e, rfl⟩ <;> exact .inl (goto_imp False.elim hj)
  | peeked hpc hid hf => exact .inl (goto_imp False.elim hj)
  | @found i _ _ hpc hb hd =>
    by_cases hji : j = i
    · exact .inr (.inr ⟨_, hji ▸ hb, hd⟩)
    · exact .inl (by simpa [State.goto, Function.update_of_ne hji] using hj)
  | refused hpc => exact .inl (goto_imp False.elim hj)
  | marked hpc => exact .inl (goto_imp (fun _ => by rw [hpc]; trivial) hj)
  | unmarked hpc hb hf hp => exact .inl (goto_imp (fun _ => by rw [hpc]; trivial) hj)
  | released hpc => exact .inl (goto_imp False.elim hj)
  | panicked hpc => exact .inl (goto_imp False.elim hj)
  | @succeeded i _ _ hpc hp =>
    by_cases hji : j = i
    · exact .inr (.inl (by simp [State.goto, hji]))
    · exact .inl (by simpa [State.goto, Function.update_of_ne hji] using hj)
  | errored hpc hp =>
    rcases hp with ⟨rfl, context, rfl⟩ | ⟨_, rfl⟩ <;> exact .inl (goto_imp False.elim hj)
  | expired => exact .inl hj

theorem Earned.move {id : String} (hs : Earned inv id s) (hm : Move inv s a t) :
    Earned inv id t := by
  refine ⟨fun value hb hd => ?_, fun j hj hset => ?_⟩
  · refine hm.handled_mono ?_
    cases hm.wrote with
    | same he => exact hs.stored value (he ▸ hb) hd
    | created i hn he =>
      rw [he, Function.update_apply] at hb
      split_ifs at hb
      · cases hb
        exact absurd hd (by decide)
      · exact hs.stored value hb hd
    | put i fault guard ha hpc hf he =>
      by_cases hi : inv.id i = id
      · exact hs.settling i hi (by rw [hpc]; trivial)
      · rw [he, Function.update_of_ne (Ne.symm hi)] at hb
        exact hs.stored value hb hd
    | purged i fault cause context ha hpc hf hr he =>
      rw [he, Function.update_apply] at hb
      split_ifs at hb
      exact hs.stored value hb hd
    | expired key ha hpc he =>
      rw [he, Function.update_apply] at hb
      split_ifs at hb
      exact hs.stored value hb hd
  · subst hj
    rcases hm.settling hset with hold | hin | ⟨value, hb, hd⟩
    · exact hm.handled_mono (hs.settling j rfl hold)
    · exact hin
    · exact hm.handled_mono (hs.stored value hb hd)

-- No invocation returns nil for an id whose handler has not returned nil, whatever
-- fails or expires on the way.
theorem withHandler_nil_handled (inv : Invocations ι) (b : Bucket) (id : String)
    (hb : ∀ value, b id = some value → isDoneValue value = false)
    (s : State ι) (hr : Reaches (step inv) (initial b) s) (i : ι) (hi : inv.id i = id)
    (hret : s.pc i = .returned none) : id ∈ s.handled := by
  have hs : Earned inv id s := by
    refine hr.invariant (P := Earned inv id) (fun s a t hs hst => hs.move (step_move hst)) ?_
    refine ⟨fun value hv hd => ?_, fun _ _ => False.elim⟩
    rw [hb value hv] at hd
    cases hd
  exact hs.settling i hi (by rw [hret]; trivial)

-- The Put of the mark is applied but reported as failed and the Release is lost; a
-- later delivery looks.
def ambiguousMark : List (Act Bool) :=
  [.store false .none, .finish false (.returned none),
    .store false (.applied (.sentinel .errTimeout)), .store false (.failed (.sentinel .errTimeout)),
    .store true .none, .store true .none]

theorem withHandler_nil_handled_ambiguous_mark :
    ∃ s, exec (step (redeliveries Bool "a")) (initial fun _ => none) ambiguousMark = some s ∧
      s.pc true = .returned none ∧ "a" ∈ s.handled := by
  refine ⟨_, rfl, ?_, ?_⟩
  · rfl
  · exact withHandler_nil_handled (redeliveries Bool "a") (fun _ => none) "a" (by simp) _
      ⟨ambiguousMark, rfl⟩ true rfl rfl

end Earned

section Permanence

-- The step keeps every stored done value, its expiry apart, and starts no handler
-- for a done id.
def Permanent (inv : Invocations ι) (s : State ι) (a : Act ι) : Prop :=
  ∀ next id, id ≠ "" → step inv s a = some next → s.bucket id = some doneValue →
    a ≠ .expire id →
    next.bucket id = some doneValue ∧
      ∀ i, inv.id i = id → Running (next.pc i) → Running (s.pc i)

theorem running_goto {i j : ι} {pc : Pc} (hpc : ∀ guard, pc ≠ .running guard)
    (hj : Running ((s.goto i pc).pc j)) : Running (s.pc j) :=
  goto_imp (fun ⟨guard, h⟩ => absurd h (hpc guard)) hj

-- A handler starts only where the bucket has no value for its id.
theorem Move.started (hc : inv.claims = true) (hm : Move inv s a t) {j : ι}
    (hid : inv.id j ≠ "") (hj : Running (t.pc j)) :
    Running (s.pc j) ∨ s.bucket (inv.id j) = none := by
  cases hm with
  | @bare i _ hpc hie =>
    have hji : j ≠ i := fun h => hid (h ▸ hie)
    exact .inl (by simpa [State.goto, Function.update_of_ne hji] using hj)
  | @won i hpc _ _ hv hb =>
    by_cases hji : j = i
    · exact .inr (hji ▸ hb)
    · exact .inl (by simpa [State.goto, State.write, Function.update_of_ne hji] using hj)
  | lost hpc _ _ hb hn hp =>
    rcases hp with rfl | ⟨e, rfl⟩ <;> exact .inl (running_goto (by simp) hj)
  | peeked hpc _ hf =>
    rw [hc] at hf
    cases hf
  | found hpc hb hd => exact .inl (running_goto (by simp) hj)
  | refused hpc => exact .inl (running_goto (by simp) hj)
  | marked hpc => exact .inl (running_goto (by simp) hj)
  | unmarked hpc hb hf hp =>
    rcases hp with ⟨_, e, context, rfl⟩ | ⟨_, e, rfl⟩ <;> exact .inl (running_goto (by simp) hj)
  | released hpc => exact .inl (running_goto (by simp) hj)
  | panicked hpc => exact .inl (running_goto (by simp) hj)
  | succeeded hpc hp =>
    rcases hp with ⟨_, rfl⟩ | ⟨_, rfl⟩ <;> exact .inl (running_goto (by simp) hj)
  | errored hpc hp =>
    rcases hp with ⟨_, context, rfl⟩ | ⟨_, rfl⟩ <;> exact .inl (running_goto (by simp) hj)
  | expired => exact .inl hj

theorem Safe.permanent (hc : inv.claims = true) (hs : Safe inv s a) : Permanent inv s a := by
  intro next id hid hst hd he
  have hm := step_move hst
  refine ⟨hm.wrote.done hs hd he, fun i hi hrun => ?_⟩
  refine (hm.started hc (hi ▸ hid) hrun).resolve_right ?_
  rw [hi, hd]
  simp

-- A Release that takes effect on a done value removes it.
theorem Permanent.safe (hg : ∀ j, Guarded inv j (s.pc j)) (hp : Permanent inv s a) :
    Safe inv s a := by
  cases a with
  | finish i outcome => trivial
  | expire key => trivial
  | store i fault =>
    intro cause context hpc hf hd
    have hv := (hg i).valid (by rw [hpc]; trivial)
    have hb := release_fst s.bucket (inv.id i) fault
    rw [if_pos ⟨hv, hf⟩] at hb
    obtain ⟨e, hst⟩ : ∃ e, step inv s (.store i fault) = some
        ((s.write (release s.bucket (inv.id i) fault).1).goto i (.returned (some e))) := by
      simp only [step, storeStep, hpc]
      cases (release s.bucket (inv.id i) fault).2 <;> exact ⟨_, rfl⟩
    have hdone := (hp _ _ (validateKVKey_ne_empty hv) hst hd (by simp)).1
    rw [State.goto, State.write, hb] at hdone
    simp at hdone

theorem guarded_step (hc : inv.claims = true) (s : State ι) (a : Act ι) (t : State ι)
    (hg : ∀ j, Guarded inv j (s.pc j)) (hst : step inv s a = some t) :
    ∀ j, Guarded inv j (t.pc j) :=
  guarded_move hc hg (step_move hst)

-- Completion is permanent along a run exactly if no Release of the run takes effect
-- on a done value; it is if no claim expires while held and no Put of a holder fails
-- after taking effect.
theorem withHandler_permanent_iff (inv : Invocations ι) (hc : inv.claims = true) (b : Bucket)
    (acts : List (Act ι)) :
    (Along (step inv) (Permanent inv) (initial b) acts ↔
        Along (step inv) (Safe inv) (initial b) acts) ∧
      (Along (step inv) (Calm inv) (initial b) acts →
        Along (step inv) (Permanent inv) (initial b) acts) := by
  refine ⟨?_, fun hcalm => ?_⟩
  · have hg : ∀ j, Guarded inv j ((initial b).pc j) := (exclusive_initial b).guarded
    exact along_congr (guarded_step hc)
      (fun s a hg => ⟨fun hp => hp.safe hg, fun hs => hs.permanent hc⟩) hg acts
  · exact hcalm.mono_invariant (P := Exclusive inv)
      (fun s a t hs ha hst => hs.move hc (step_move hst) ha)
      (fun s a hs _ => (hs.safe a).permanent hc) (exclusive_initial b)

theorem withHandler_permanent_iff_two_deliveries :
    Along (step (redeliveries Bool "a")) (Permanent (redeliveries Bool "a")) (initial fun _ => none)
      [.store false .none, .finish false (.returned none), .store false .none,
        .store true .none, .store true .none] := by
  refine (withHandler_permanent_iff (redeliveries Bool "a") rfl (fun _ => none) _).2 ?_
  refine along_of_forall_mem _ (fun a ha s => Reliable.calm ?_) _
  revert a
  simp [Reliable]

-- A claim expires under its holder, whose Release then purges the done value of the
-- second delivery; or the Put of the mark is applied, reported as failed, and the
-- Release after it purges the done value. Either way a later delivery runs its handler.
theorem withHandler_release_purges_done :
    (∃ mid s, exec (step (redeliveries (Fin 3) "a")) (initial fun _ => none)
        [.store 0 .none, .expire "a", .store 1 .none, .finish 1 (.returned none),
          .store 1 .none, .finish 0 (.returned (some (.sentinel .errTimeout)))] = some mid ∧
      mid.bucket "a" = some doneValue ∧
      exec (step (redeliveries (Fin 3) "a")) mid [.store 0 .none, .store 2 .none] = some s ∧
      "a" ∈ s.handled ∧ Running (s.pc 2)) ∧
    (∃ mid s, exec (step (redeliveries (Fin 3) "a")) (initial fun _ => none)
        [.store 0 .none, .finish 0 (.returned none),
          .store 0 (.applied (.sentinel .errTimeout))] = some mid ∧
      mid.bucket "a" = some doneValue ∧
      exec (step (redeliveries (Fin 3) "a")) mid [.store 0 .none, .store 1 .none] = some s ∧
      "a" ∈ s.handled ∧ Running (s.pc 1)) := by
  constructor
  · refine ⟨_, _, rfl, ?_, rfl, ?_, .claimed, ?_⟩
    · rfl
    · exact .head _
    · rfl
  · refine ⟨_, _, rfl, ?_, rfl, ?_, .claimed, ?_⟩
    · rfl
    · exact .head _
    · rfl

end Permanence

end NatsClient.Idempotency
