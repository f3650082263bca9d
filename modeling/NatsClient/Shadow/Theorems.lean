import Mathlib.Tactic.NormNum
import NatsClient.Lib.Counting
import NatsClient.Shadow

namespace NatsClient.Shadow

open Lib.Machine Lib.Counting

theorem Config.withDefaults_sampleRate_pos (c : Config) : 0 < c.withDefaults.sampleRate := by
  simp only [withDefaults]
  split_ifs with h₁ h₂ h₂
  · norm_num at h₂
  · norm_num
  · norm_num
  · exact not_le.mp h₁

theorem Config.withDefaults_maxInFlight_pos (c : Config) : 0 < c.withDefaults.maxInFlight := by
  simp only [withDefaults, defaultShadowConcurrency]
  split_ifs with h <;> omega

-- What an operation of a call can do.
inductive CallMove (call : Call) (sem : Nat) : CallPc → Nat → CallPc → Prop
  | alone (shadow : call.shadow = none) :
      CallMove call sem .idle sem (.done (call.primary call.message).2)
  | handled {msg err} (shadow : call.shadow ≠ none)
      (primary : call.primary call.message = (msg, .returned err)) :
      CallMove call sem .idle sem (.handled msg err)
  | panicked {msg value} (primary : call.primary call.message = (msg, .panicked value)) :
      CallMove call sem .idle sem (.done (.panicked value))
  | skipped {msg err} : CallMove call sem (.handled msg err) sem (.done (.returned err))
  | sampled {msg err} : CallMove call sem (.handled msg err) sem (.sampled msg err)
  | acquired {msg err} (free : sem < call.cfg.withDefaults.maxInFlight) :
      CallMove call sem (.sampled msg err) (sem + 1) (.acquired msg err)
  | dropped {msg err} : CallMove call sem (.sampled msg err) sem (.done (.returned err))
  | started {msg err} :
      CallMove call sem (.acquired msg err) sem (.running (cloneMsg msg) msg.subject err)
  | ran {cloned subject err shadowErr} :
      CallMove call sem (.running cloned subject err) sem (.ran subject err shadowErr)
  | compared {subject err shadowErr} :
      CallMove call sem (.ran subject err shadowErr) sem (.releasing err)
  | released {err} (held : 0 < sem) :
      CallMove call sem (.releasing err) (sem - 1) (.done (.returned err))

theorem callStep_move {call : Call} {sem sem' : Nat} {pc pc' : CallPc} {act : CallAct}
    (h : callStep call sem pc act = some (sem', pc')) : CallMove call sem pc sem' pc' := by
  unfold callStep at h
  split at h
  · next hshadow =>
      cases h
      exact .alone hshadow
  · next hshadow =>
      split at h <;> next hprimary =>
        cases h
        first
        | exact .handled (by simp [hshadow]) hprimary
        | exact .panicked hprimary
  · dsimp only at h
    split_ifs at h <;> cases h
    · exact .skipped
    · exact .sampled
  · dsimp only at h
    split_ifs at h with hfree <;> cases h
    · exact .acquired hfree
    · exact .dropped
  · cases h
    exact .started
  · cases h
    exact .ran
  · cases h
    exact .compared
  · split_ifs at h with hheld
    cases h
    exact .released hheld
  · cases h

section Slots

-- The slots of the semaphore that a call holds.
def CallPc.slots : CallPc → Nat
  | .acquired _ _ | .running _ _ _ | .ran _ _ _ | .releasing _ => 1
  | _ => 0

theorem CallPc.slots_le (pc : CallPc) : pc.slots ≤ 1 := by
  cases pc <;> simp [slots]

theorem CallPc.slots_of_inProgress {pc : CallPc} (h : pc.inProgress = true) : pc.slots = 1 := by
  cases pc <;> simp_all [inProgress, slots]

theorem CallMove.slots {call : Call} {sem sem' : Nat} {pc pc' : CallPc}
    (h : CallMove call sem pc sem' pc') : sem' + pc.slots = sem + pc'.slots := by
  cases h with
  | released held =>
    simp only [CallPc.slots]
    omega
  | _ => simp [CallPc.slots]

theorem CallMove.within {call : Call} {sem sem' : Nat} {pc pc' : CallPc}
    (h : CallMove call sem pc sem' pc') (hsem : sem ≤ call.cfg.withDefaults.maxInFlight) :
    sem' ≤ call.cfg.withDefaults.maxInFlight := by
  cases h with
  | acquired free =>
    push_cast
    omega
  | released held => omega
  | _ => exact hsem

variable {K C : Type} [DecidableEq K] [DecidableEq C] {u : Setup K C} {s t : State K C}

theorem step_eq_some {c : C} {act : CallAct} (h : step u s (c, act) = some t) :
    ∃ sem pc, CallMove (u.call c) (s.sem (u.handler c)) (s.call c) sem pc ∧
      t.sem = Function.update s.sem (u.handler c) sem ∧ t.call = Function.update s.call c pc := by
  obtain ⟨⟨sem, pc⟩, hcall, rfl⟩ := Option.map_eq_some_iff.mp h
  exact ⟨sem, pc, callStep_move hcall, rfl, rfl⟩

-- The slots of handler k that a call holds.
def slotsOf (u : Setup K C) (k : K) (c : C) (pc : CallPc) : Nat :=
  if u.handler c = k then pc.slots else 0

-- Each semaphore counts the calls that hold a slot of it, and no more than it has room for.
def Slotted (u : Setup K C) (s : State K C) : Prop :=
  ∀ k, Counts (s.sem k) (fun c => slotsOf u k c (s.call c) = 1) ∧
    s.sem k ≤ (u.cfg k).withDefaults.maxInFlight

theorem Slotted.step {a : C × CallAct} (hs : Slotted u s) (h : step u s a = some t) :
    Slotted u t := by
  obtain ⟨c, act⟩ := a
  obtain ⟨sem, pc, hmove, hsem, hcall⟩ := step_eq_some h
  have hslots := hmove.slots
  intro k
  obtain ⟨hcounts, hle⟩ := hs k
  rw [hsem, hcall]
  by_cases hk : k = u.handler c
  · subst hk
    rw [Function.update_self]
    refine ⟨hcounts.update_at (f := slotsOf u (u.handler c)) ?_ ?_, hmove.within hle⟩
    · intro j b
      have hb := b.slots_le
      simp only [slotsOf]
      split_ifs <;> omega
    · simp only [slotsOf, if_true]
      omega
  · rw [Function.update_of_ne hk]
    refine ⟨hcounts.update_at (f := slotsOf u k) ?_ ?_, hle⟩
    · intro j b
      have hb := b.slots_le
      simp only [slotsOf]
      split_ifs <;> omega
    · simp only [slotsOf, if_neg (Ne.symm hk)]

omit [DecidableEq C] in
theorem slotted_initial : Slotted u initial := by
  intro k
  refine ⟨counts_zero fun c => ?_, (u.cfg k).withDefaults_maxInFlight_pos.le⟩
  simp [slotsOf, initial, CallPc.slots]

-- No more shadows of one handler are in progress than its semaphore has room for.
theorem inProgress_card_le (h : Reaches (step u) initial s) {k : K} {calls : Finset C}
    (hcalls : ∀ c ∈ calls, u.handler c = k ∧ (s.call c).inProgress = true) :
    calls.card ≤ (u.cfg k).withDefaults.maxInFlight := by
  have hslotted : Slotted u s := h.invariant (fun _ _ _ hs hstep => hs.step hstep) slotted_initial
  obtain ⟨hcounts, hle⟩ := hslotted k
  have hcard := hcounts.card_le calls fun c hc => by
    obtain ⟨hk, hin⟩ := hcalls c hc
    rw [slotsOf, if_pos hk]
    exact CallPc.slots_of_inProgress hin
  omega

end Slots

section Primary

-- What a call knows of its primary.
def Heard (call : Call) : CallPc → Prop
  | .idle => True
  | .handled msg err | .sampled msg err | .acquired msg err =>
    call.primary call.message = (msg, .returned err) ∧ call.shadow ≠ none
  | .running cloned _ err =>
    ∃ msg, call.primary call.message = (msg, .returned err) ∧ call.shadow ≠ none ∧
      cloned = cloneMsg msg
  | .ran _ err _ | .releasing err => (call.primary call.message).2 = .returned err
  | .done result => (call.primary call.message).2 = result

theorem Heard.move {call : Call} {sem sem' : Nat} {pc pc' : CallPc} (h : Heard call pc)
    (hmove : CallMove call sem pc sem' pc') : Heard call pc' := by
  cases hmove with
  | alone shadow => exact rfl
  | handled shadow primary => exact ⟨primary, shadow⟩
  | panicked primary => exact congrArg Prod.snd primary
  | skipped | dropped => exact congrArg Prod.snd h.1
  | sampled | acquired _ => exact h
  | started => exact ⟨_, h.1, h.2, rfl⟩
  | ran =>
    obtain ⟨msg, hprimary, -⟩ := h
    exact congrArg Prod.snd hprimary
  | compared | released _ => exact h

theorem Heard.result {call : Call} {pc : CallPc} {r : Outcome} (h : Heard call pc)
    (hr : pc.result = some r) : r = (call.primary call.message).2 := by
  cases pc with
  | idle | handled msg err | sampled msg err | acquired msg err => cases hr
  | running cloned subject err =>
    obtain ⟨msg, hprimary, -⟩ := h
    cases hr
    exact (congrArg Prod.snd hprimary).symm
  | ran subject err shadowErr =>
    cases hr
    exact Eq.symm h
  | releasing err =>
    cases hr
    exact Eq.symm h
  | done result =>
    cases hr
    exact Eq.symm h

-- One call and its semaphore.
def callRun (call : Call) (s : Nat × CallPc) (act : CallAct) : Option (Nat × CallPc) :=
  callStep call s.1 s.2 act

-- The operations up to the start of the shadow. A draw of zero is below every rate.
def opening : List CallAct := [.primary, .sample 0, .acquire, .start]

theorem exec_opening {call : Call} {msg : Msg} {err : Option GoError}
    (hshadow : call.shadow ≠ none) (hprimary : call.primary call.message = (msg, .returned err)) :
    exec (callRun call) (0, .idle) opening =
      some (1, .running (cloneMsg msg) msg.subject err) := by
  obtain ⟨shadow, hshadow⟩ := Option.ne_none_iff_exists'.mp hshadow
  have hhandled : callRun call (0, .idle) .primary = some (0, .handled msg err) := by
    simp [callRun, callStep, hshadow, hprimary]
  have hdraw : ¬ (call.cfg.withDefaults.sampleRate < 1 ∧ call.cfg.withDefaults.sampleRate ≤ 0) :=
    fun h => absurd call.cfg.withDefaults_sampleRate_pos (not_lt.mpr h.2)
  have hsampled : callRun call (0, .handled msg err) (.sample 0) = some (0, .sampled msg err) := by
    simp only [callRun, callStep, if_neg hdraw]
  have hacquired : callRun call (0, .sampled msg err) .acquire = some (1, .acquired msg err) := by
    simp [callRun, callStep, call.cfg.withDefaults_maxInFlight_pos]
  simp only [opening, exec, hhandled, hsampled, hacquired, Option.bind_some]
  simp [callRun, callStep]

variable {K C : Type} [DecidableEq K] [DecidableEq C] {u : Setup K C} {s t : State K C}

theorem heard_of_reaches (h : Reaches (step u) initial s) (c : C) :
    Heard (u.call c) (s.call c) := by
  have hall : ∀ c, Heard (u.call c) (s.call c) := by
    refine h.invariant (P := fun s : State K C => ∀ c, Heard (u.call c) (s.call c)) ?_
      fun _ => trivial
    rintro s ⟨c, act⟩ t hs hstep d
    obtain ⟨sem, pc, hmove, -, hcall⟩ := step_eq_some hstep
    rw [hcall]
    by_cases hd : d = c
    · subst hd
      rw [Function.update_self]
      exact (hs d).move hmove
    · rw [Function.update_of_ne hd]
      exact hs d
  exact hall c

-- The operations of one call are a run of the handlers.
theorem exec_call {c : C} {acts : List CallAct} {sem : Nat} {pc : CallPc}
    (h : exec (callRun (u.call c)) (s.sem (u.handler c), s.call c) acts = some (sem, pc)) :
    ∃ t, exec (step u) s (acts.map fun act => (c, act)) = some t ∧ t.call c = pc := by
  induction acts generalizing s with
  | nil =>
    cases h
    exact ⟨s, rfl, rfl⟩
  | cons act rest ih =>
    obtain ⟨⟨sem', pc'⟩, hcall, hrest⟩ := exec_cons_eq_some.mp h
    have hcall : callStep (u.call c) (s.sem (u.handler c)) (s.call c) act = some (sem', pc') :=
      hcall
    obtain ⟨next, hstep, hsem, hpc⟩ : ∃ next, step u s (c, act) = some next ∧
        next.sem (u.handler c) = sem' ∧ next.call c = pc' := by
      refine ⟨_, by rw [step, hcall]; rfl, ?_, ?_⟩
      · exact Function.update_self ..
      · exact Function.update_self ..
    rw [← hsem, ← hpc] at hrest
    obtain ⟨t, ht, htc⟩ := ih hrest
    exact ⟨t, exec_cons_eq_some.mpr ⟨next, hstep, ht⟩, htc⟩

-- The parts of a message that a copy of it keeps.
def Same (first second : Msg) : Prop :=
  first.subject = second.subject ∧ first.data = second.data ∧ first.header = second.header

-- The handler returns what its primary returns, whatever the shadows do. The copy is taken
-- after the primary has run: the shadows are called with what was delivered iff the primaries
-- that they follow leave it as it was.
theorem shadow_receives_iff (u : Setup K C) :
    (∀ (other : C → Option (Msg → Outcome)) (s t : State K C), Reaches (step u) initial s →
      Reaches (step { u with shadow := other }) initial t → ∀ c first second,
        (s.call c).result = some first → (t.call c).result = some second →
          first = second ∧ first = (u.primary c (u.message c)).2) ∧
    ((∀ s, Reaches (step u) initial s → ∀ c received, (s.call c).received = some received →
        Same received (u.message c)) ↔
      ∀ c err, u.shadow c ≠ none → (u.primary c (u.message c)).2 = .returned err →
        Same (u.primary c (u.message c)).1 (u.message c)) := by
  refine ⟨?_, ?_, ?_⟩
  · intro other s t hs ht c first second hfirst hsecond
    have hfirst := (heard_of_reaches hs c).result hfirst
    have hsecond := (heard_of_reaches ht c).result hsecond
    exact ⟨hfirst.trans hsecond.symm, hfirst⟩
  · intro h c err hshadow hreturned
    have hopening : exec (callRun (u.call c)) (0, .idle) opening = _ :=
      exec_opening hshadow (Prod.ext rfl hreturned)
    obtain ⟨s, hs, hrunning⟩ := exec_call (s := initial) hopening
    exact h s ⟨_, hs⟩ c (cloneMsg _) (by rw [hrunning]; rfl)
  · intro h s hs c received hreceived
    have hheard := heard_of_reaches hs c
    cases hpc : s.call c with
    | running cloned subject err =>
      rw [hpc] at hreceived hheard
      obtain ⟨msg, hprimary, hshadow, rfl⟩ := hheard
      cases hreceived
      have hsame := h c err hshadow (congrArg Prod.snd hprimary)
      rw [show u.primary c (u.message c) = (msg, .returned err) from hprimary] at hsame
      exact hsame
    | _ =>
      rw [hpc] at hreceived
      cases hreceived

-- A primary that redacts the payload: its shadow never sees what was delivered.
def redacting : Setup Unit Unit where
  cfg _ := ⟨false, none, 1, 0⟩
  handler _ := ()
  message _ := ⟨"orders.new", "", ∅, [1, 2, 3], true⟩
  primary _ msg := ({ msg with data := [] }, .returned none)
  shadow _ := some fun _ => .returned none

theorem redacted_received :
    ((exec (step redacting) initial [((), .primary), ((), .sample 0), ((), .acquire),
      ((), .start)]).bind fun s => (s.call ()).received.map Msg.data) = some [] ∧
    (redacting.message ()).data = [1, 2, 3] := by
  decide

end Primary

end NatsClient.Shadow
