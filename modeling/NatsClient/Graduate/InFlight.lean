import NatsClient.Graduate.Handler
import NatsClient.Graduate.Theorems
import NatsClient.Shadow.Theorems

namespace NatsClient.Graduate.Handler

open Lib.Machine

variable {C A P : Type} [DecidableEq C] [DecidableEq A] [DecidableEq P] {u : Setup C}
  {s t : State C A P}

-- A step of the handler is one of the Graduate, or leaves it alone and moves one call: up to
-- the handler that With returns, or by an operation of that handler.
inductive Move (u : Setup C) (s t : State C A P) : Prop
  | graduate (act : Graduate.Act C A P) (step : Graduate.step u.policy s.grad act = some t.grad)
      (handle : t.handle = s.handle)
  | outside (c : C) (pc : Pc) (rest : ∀ rate sem call, pc = .inside rate sem call → call = .idle)
      (grad : t.grad = s.grad) (handle : t.handle = Function.update s.handle c pc)
  | inside (c : C) (rate : Nat) {sem sem' : Nat} {call call' : Shadow.CallPc}
      (pc : s.handle c = .inside rate sem call)
      (move : Shadow.CallMove (u.call rate c) sem call sem' call') (grad : t.grad = s.grad)
      (handle : t.handle = Function.update s.handle c (.inside rate sem' call'))

theorem step_move {a : Act C A P} (h : step u s a = some t) : Move u s t := by
  cases a with
  | loadPhase c =>
    simp only [step] at h
    split at h <;> cases h
    refine .outside c _ ?_ rfl rfl
    intro rate sem call hpc
    split_ifs at hpc
  | loadRate c =>
    simp only [step] at h
    split at h <;> cases h
    refine .outside c _ ?_ rfl rfl
    intro rate sem call hpc
    cases hpc
    rfl
  | direct c =>
    simp only [step] at h
    split at h <;> cases h
    refine .outside c _ ?_ rfl rfl
    intro rate sem call hpc
    cases hpc
  | call c act =>
    simp only [step] at h
    split at h
    · next rate sem call hpc =>
        split_ifs at h
        obtain ⟨⟨sem', call'⟩, hcall, rfl⟩ := Option.map_eq_some_iff.mp h
        exact .inside c rate hpc (Shadow.callStep_move hcall) rfl rfl
    · cases h
  | observe c =>
    simp only [step] at h
    split at h
    · next primaryErr shadowErr _ =>
        obtain ⟨grad, hgrad, rfl⟩ := Option.map_eq_some_iff.mp h
        exact .graduate (.compare c (u.base primaryErr shadowErr)) hgrad rfl
    · cases h
  | abort call reason =>
    obtain ⟨grad, hgrad, rfl⟩ := Option.map_eq_some_iff.mp h
    exact .graduate (.abort call reason) hgrad rfl
  | promote call =>
    obtain ⟨grad, hgrad, rfl⟩ := Option.map_eq_some_iff.mp h
    exact .graduate (.promote call) hgrad rfl

-- What a call of the handler knows of its primary.
def Heard (u : Setup C) (c : C) : Pc → Prop
  | .inside rate _ call => Shadow.Heard (u.call rate c) call
  | _ => True

theorem heard_of_reaches (h : Reaches (step u) (initial u) s) (c : C) :
    Heard u c (s.handle c) := by
  have hall : ∀ c, Heard u c (s.handle c) := by
    refine h.invariant (P := fun s : State C A P => ∀ c, Heard u c (s.handle c)) ?_
      fun _ => trivial
    intro s a t hs hstep
    cases step_move hstep with
    | graduate act hgrad hhandle => exact hhandle ▸ hs
    | outside c pc hrest hgrad hhandle =>
      rw [hhandle, Function.forall_update_iff s.handle (Heard u)]
      refine ⟨?_, fun d _ => hs d⟩
      cases pc with
      | inside rate sem call =>
        rw [hrest rate sem call rfl]
        trivial
      | _ => trivial
    | inside c rate hpc hmove hgrad hhandle =>
      rw [hhandle, Function.forall_update_iff s.handle (Heard u)]
      refine ⟨?_, fun d _ => hs d⟩
      have hc := hs c
      rw [hpc] at hc
      exact Shadow.Heard.move hc hmove
  exact hall c

-- There is a shadow, and the primary does not panic on the message.
def Setup.Shadowed (u : Setup C) (c : C) : Prop :=
  u.shadowHandler ≠ none ∧ ∃ err, (u.primary c (u.message c)).2 = .returned err

omit [DecidableEq C] in
theorem Heard.shadowed {c : C} {pc : Pc} (h : Heard u c pc) (hpc : pc.inProgress = true) :
    u.Shadowed c := by
  cases pc with
  | inside rate sem call =>
    cases call with
    | running cloned subject err =>
      obtain ⟨msg, hprimary, hshadow, -⟩ := h
      refine ⟨?_, err, congrArg Prod.snd hprimary⟩
      intro hnone
      exact hshadow (congrArg (Option.map _) hnone)
    | _ => cases hpc
  | _ => cases hpc

-- The operations of With's handler are operations of this one, up to the comparison.
theorem exec_call {c : C} {rate sem sem' : Nat} {call call' : Shadow.CallPc}
    {acts : List Shadow.CallAct} (hacts : .compare ∉ acts)
    (hpc : s.handle c = .inside rate sem call)
    (h : exec (Shadow.callRun (u.call rate c)) (sem, call) acts = some (sem', call')) :
    ∃ t, exec (step u) s (acts.map (Act.call c)) = some t ∧ t.grad = s.grad ∧
      t.handle = Function.update s.handle c (.inside rate sem' call') := by
  induction acts generalizing s sem call with
  | nil =>
    cases h
    exact ⟨s, rfl, rfl, by rw [← hpc, Function.update_eq_self]⟩
  | cons act rest ih =>
    obtain ⟨hact, hrest⟩ := not_or.mp (mt List.mem_cons.mpr hacts)
    obtain ⟨⟨sem₁, call₁⟩, hcall, hrun⟩ := exec_cons_eq_some.mp h
    have hcall : Shadow.callStep (u.call rate c) sem call act = some (sem₁, call₁) := hcall
    have hguard : ¬ (act = .compare ∧ s.grad.compare c ≠ .returned) :=
      fun hand => hact hand.1.symm
    have hstep : step u s (.call c act) = some { s.goto c (.inside rate sem₁ call₁) with
        records := s.records ++ Shadow.callRecords (u.call rate c) call act } := by
      simp only [step, hpc, if_neg hguard, hcall, Option.map_some]
    obtain ⟨t, ht, hgrad, hhandle⟩ := ih
      (s := { s.goto c (.inside rate sem₁ call₁) with
        records := s.records ++ Shadow.callRecords (u.call rate c) call act })
      hrest (Function.update_self ..) hrun
    refine ⟨t, exec_cons_eq_some.mpr ⟨_, hstep, ht⟩, hgrad, ?_⟩
    rw [hhandle]
    exact Function.update_idem ..

-- A call starts its shadow whatever the other calls have in progress.
theorem reaches_inProgress {c : C} (hc : u.Shadowed c) (hidle : s.handle c = .idle)
    (hphase : s.grad.phase ≠ .aborted) :
    ∃ t pc, Reaches (step u) s t ∧ pc.inProgress = true ∧ t.grad = s.grad ∧
      t.handle = Function.update s.handle c pc := by
  obtain ⟨hshadow, err, hreturned⟩ := hc
  have hloaded : step u s (.loadPhase c) = some (s.goto c .loaded) := by
    simp only [step, hidle, if_neg hphase]
  have hinside : step u (s.goto c .loaded) (.loadRate c) =
      some ((s.goto c .loaded).goto c (.inside s.grad.rate 0 .idle)) := by
    simp only [step, State.goto, Function.update_self]
  have hopening : exec (Shadow.callRun (u.call s.grad.rate c)) (0, .idle) Shadow.opening = _ :=
    Shadow.exec_opening (by simpa [Setup.call] using hshadow) (Prod.ext rfl hreturned)
  obtain ⟨t, ht, hgrad, hhandle⟩ := exec_call (u := u) (by decide)
    (s := (s.goto c .loaded).goto c (.inside s.grad.rate 0 .idle)) (Function.update_self ..)
    hopening
  simp only [State.goto, Function.update_idem] at hhandle
  exact ⟨t, _, ((Reaches.single hloaded).trans (.single hinside)).trans ⟨_, ht⟩, rfl, hgrad,
    hhandle⟩

theorem reaches_all_inProgress (u : Setup C) (calls : Finset C)
    (hcalls : ∀ c ∈ calls, u.Shadowed c) :
    ∃ s : State C A P, Reaches (step u) (initial u) s ∧ s.grad = newGraduate u.policy ∧
      (∀ c ∈ calls, (s.handle c).inProgress = true) ∧ ∀ c ∉ calls, s.handle c = .idle := by
  induction calls using Finset.induction_on with
  | empty => exact ⟨initial u, .refl _, rfl, by simp, fun _ _ => rfl⟩
  | insert c calls hc ih =>
    obtain ⟨s, hs, hgrad, hin, hidle⟩ := ih fun d hd => hcalls d (Finset.mem_insert_of_mem hd)
    have hphase : s.grad.phase ≠ .aborted := by
      rw [hgrad]
      exact GraduatePhase.noConfusion
    obtain ⟨t, pc, ht, hpc, hgrad', hhandle⟩ :=
      reaches_inProgress (hcalls c (Finset.mem_insert_self c calls)) (hidle c hc) hphase
    refine ⟨t, hs.trans ht, hgrad'.trans hgrad, ?_, ?_⟩
    · intro d hd
      rw [hhandle]
      by_cases hdc : d = c
      · rw [hdc, Function.update_self]
        exact hpc
      · rw [Function.update_of_ne hdc]
        exact hin d (Finset.mem_of_mem_insert_of_ne hd hdc)
    · intro d hd
      obtain ⟨hdc, hd⟩ := not_or.mp (mt Finset.mem_insert.mpr hd)
      rw [hhandle, Function.update_of_ne hdc]
      exact hidle d hd

-- One semaphore serves all calls of a handler that With has returned. In a Graduate each call
-- has its own, and nothing but the number of messages bounds its shadows.
theorem in_flight_bounded_iff {K : Type} [DecidableEq K] (v : Shadow.Setup K C) (u : Setup C) :
    (∀ s, Reaches (Shadow.step v) Shadow.initial s → ∀ k (calls : Finset C),
      (∀ c ∈ calls, v.handler c = k ∧ (s.call c).inProgress = true) →
        calls.card ≤ (v.cfg k).withDefaults.maxInFlight) ∧
    ((∀ s : State C A P, Reaches (step u) (initial u) s → ∀ calls : Finset C,
      (∀ c ∈ calls, (s.handle c).inProgress = true) → calls.card ≤ 32) ↔
      ∀ calls : Finset C, (∀ c ∈ calls, u.Shadowed c) → calls.card ≤ 32) := by
  refine ⟨fun s hs k calls hcalls => Shadow.inProgress_card_le hs hcalls, ?_, ?_⟩
  · intro h calls hcalls
    obtain ⟨s, hs, -, hin, -⟩ := reaches_all_inProgress (A := A) (P := P) u calls hcalls
    exact h s hs calls hin
  · intro h s hs calls hin
    exact h calls fun c hc => (heard_of_reaches hs c).shadowed (hin c hc)

-- A canary whose shadows are slow.
def slowCanary : Setup (Fin 33) where
  policy := smallPolicy
  recorder := false
  compare := none
  message _ := ⟨"orders.new", "", ∅, [], true⟩
  primary _ msg := (msg, .returned none)
  shadowHandler := some fun _ _ => .returned none

theorem in_flight_unbounded :
    ∃ s : State (Fin 33) Unit Unit, Reaches (step slowCanary) (initial slowCanary) s ∧
      ∀ c, (s.handle c).inProgress = true := by
  have hall : ∀ c ∈ Finset.univ, slowCanary.Shadowed c :=
    fun _ _ => ⟨Option.some_ne_none _, none, rfl⟩
  obtain ⟨s, hs, -, hin, -⟩ :=
    reaches_all_inProgress (A := Unit) (P := Unit) slowCanary Finset.univ hall
  exact ⟨s, hs, fun c => hin c (Finset.mem_univ c)⟩

end NatsClient.Graduate.Handler
