import NatsClient.Listeners.Progress

namespace NatsClient.Listeners

open Lib.Machine

-- What a run has done to one list of listeners.
structure Linear {R N F A : Type} [DecidableEq R] [DecidableEq N] (u : Setup R N F A)
    (acts : List (Act R N)) (s : State R N F A) : Prop where
  -- The current list has the callbacks of the registrations that have returned, in that order.
  list_eq : s.list.map some = (completed u acts).map u.fn
  -- Each of them is there once.
  once : ∀ i, s.registrations i = .returned → (u.fn i).isSome → (completed u acts).count i = 1
  only : ∀ i, i ∈ completed u acts → s.registrations i = .returned ∧ (u.fn i).isSome
  -- What returned first is first, for every moment at which only one of two has returned.
  order : ∀ first second mid i j, acts = first ++ second →
    exec (step u) initial first = some mid →
    mid.registrations i = .returned → (u.fn i).isSome →
    mid.registrations j ≠ .returned → s.registrations j = .returned → (u.fn j).isSome →
    [i, j].Sublist (completed u acts)
  -- A notification calls the callbacks of a list that was the current one when it took the pointer.
  notified : ∀ n, (s.notifications n).pc ≠ .called → ∃ l, WasCurrent u acts n l ∧
    (s.notifications n).invoked <+: l.map (·, u.arg n) ∧
    ((s.notifications n).pc = .returned → (s.notifications n).invoked = l.map (·, u.arg n))
  -- No call gets stuck.
  enabled : (∀ i, s.registrations i ≠ .returned → (step u s (.register i)).isSome) ∧
    ∀ n, (s.notifications n).pc ≠ .returned → (step u s (.notify n)).isSome

theorem linear_of_exec {R N F A : Type} [DecidableEq R] [DecidableEq N] {u : Setup R N F A}
    {acts : List (Act R N)} {s : State R N F A} (h : exec (step u) initial acts = some s) :
    Linear u acts s where
  list_eq := list_of_exec h
  once i hpc hfn := by
    obtain ⟨hnodup, hmem⟩ := completed_of_exec h
    exact List.count_eq_one_of_mem hnodup ((hmem i).mpr ⟨hpc, hfn⟩)
  only i hi := (mem_completed_iff h i).mp hi
  order first second mid i j hacts hfirst hi hfni hj hlater hfnj := by
    subst hacts
    exact completed_order hfirst h ⟨hi, hfni⟩ (fun hmid => hj hmid.1) ⟨hlater, hfnj⟩
  notified n hpc := (informed_of_exec h n).exists_list hpc
  enabled := ⟨fun _ => register_enabled h, fun _ => notify_enabled h⟩

namespace Consumer

variable {C F G : Type} [DecidableEq C] {u : Setup C F G} {s t : State C F G}
  {acts : List (Act C)}

theorem onActivity_eq_some {a : Listeners.Act C C} (h : onActivity u s a = some t) :
    Listeners.step u.activity s.activityListeners a = some t.activityListeners ∧
      s.handledListeners = t.handledListeners := by
  obtain ⟨l, hl, rfl⟩ := Option.map_eq_some_iff.mp h
  exact ⟨hl, rfl⟩

theorem onHandled_eq_some {a : Listeners.Act C C} (h : onHandled u s a = some t) :
    Listeners.step u.handled s.handledListeners a = some t.handledListeners ∧
      s.activityListeners = t.activityListeners := by
  obtain ⟨l, hl, rfl⟩ := Option.map_eq_some_iff.mp h
  exact ⟨hl, rfl⟩

-- The two lists are independent: the calls on one of them are a run of that list.
theorem exec_activity (h : exec (step u) initial acts = some s) :
    exec (Listeners.step u.activity) Listeners.initial (acts.filterMap Act.activity?) =
      some s.activityListeners := by
  refine exec_filterMap State.activityListeners Act.activity? (fun s a t hstep => ?_) h
  cases a with
  | onProcessSuccess c => exact (onActivity_eq_some hstep).1
  | notifyProcessSuccess c => exact (onActivity_eq_some hstep).1
  | onMessageHandled c => exact congrArg some (onHandled_eq_some hstep).2
  | notifyMessageHandled c => exact congrArg some (onHandled_eq_some hstep).2

theorem exec_handled (h : exec (step u) initial acts = some s) :
    exec (Listeners.step u.handled) Listeners.initial (acts.filterMap Act.handled?) =
      some s.handledListeners := by
  refine exec_filterMap State.handledListeners Act.handled? (fun s a t hstep => ?_) h
  cases a with
  | onProcessSuccess c => exact congrArg some (onActivity_eq_some hstep).2
  | notifyProcessSuccess c => exact congrArg some (onActivity_eq_some hstep).2
  | onMessageHandled c => exact (onHandled_eq_some hstep).1
  | notifyMessageHandled c => exact (onHandled_eq_some hstep).1

theorem listeners_linear (u : Setup C F G) {acts : List (Act C)} {s : State C F G}
    (h : exec (step u) initial acts = some s) :
    Linear u.activity (acts.filterMap Act.activity?) s.activityListeners ∧
      Linear u.handled (acts.filterMap Act.handled?) s.handledListeners :=
  ⟨linear_of_exec (exec_activity h), linear_of_exec (exec_handled h)⟩

-- Two registrations that load the nil pointer. The slower one has to take a second pass, and a
-- notification that loads the pointer before the second swap calls the first callback only.
def twoPasses : List (Act Bool) :=
  [.replicate 4 (.onProcessSuccess false), .replicate 5 (.onProcessSuccess true),
    [.onProcessSuccess false, .notifyProcessSuccess false],
    .replicate 5 (.onProcessSuccess false), .replicate 3 (.notifyProcessSuccess false),
    .replicate 5 (.onMessageHandled true), .replicate 4 (.notifyMessageHandled true)].flatten

def callbacks : Setup Bool Nat Nat where
  onProcessSuccess c := some (if c then 1 else 2)
  onMessageHandled _ := some 3
  elapsed _ := 7

theorem listeners_linear_twoPasses :
    ∃ s, exec (step callbacks) initial twoPasses = some s ∧
      s.activityListeners.list = [1, 2] ∧
      s.activityListeners.notifications false = ⟨.returned, [(1, ())]⟩ ∧
      s.handledListeners.notifications true = ⟨.returned, [(3, 7)]⟩ ∧
      Linear callbacks.activity (twoPasses.filterMap Act.activity?) s.activityListeners ∧
      Linear callbacks.handled (twoPasses.filterMap Act.handled?) s.handledListeners := by
  have hsome : (exec (step callbacks) initial twoPasses).isSome := by decide
  refine ⟨_, (Option.some_get hsome).symm, rfl, rfl, rfl, ?_⟩
  exact listeners_linear callbacks (Option.some_get hsome).symm

end Consumer

end NatsClient.Listeners
