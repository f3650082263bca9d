import NatsClient.Listeners

namespace NatsClient.Listeners

open Lib.Machine Lib.Publication

section Calls

variable {F A : Type} {fn : Option F} {m next : Memory (List F)} {pc after : Pc}

-- What one step of a registration can do.
inductive Registers (fn : Option F) (m : Memory (List F)) : Pc → Memory (List F) → Pc → Prop
  | refuse (hfn : fn = none) : Registers fn m .called m .returned
  | enter (hfn : fn.isSome) : Registers fn m .called m .looping
  | load : Registers fn m .looping m (.loaded m.pointer)
  | makeFirst : Registers fn m (.loaded none) (m.alloc []) (.copied none m.fresh)
  | make (old : Ref) : Registers fn m (.loaded (some old)) (m.alloc []) (.made old m.fresh)
  | copy {old next : Ref} {listeners slice : List F} (hold : m.value old = some listeners)
      (hnext : m.value next = some slice) :
      Registers fn m (.made old next) (m.write next (slice ++ listeners)) (.copied (some old) next)
  | append {old : Option Ref} {next : Ref} {f : F} {slice : List F} (hfn : fn = some f)
      (hnext : m.value next = some slice) :
      Registers fn m (.copied old next) (m.write next (slice ++ [f])) (.appended old next)
  | swap {old : Option Ref} {next : Ref} (hold : m.pointer = old) :
      Registers fn m (.appended old next) (m.publish next) .returned
  | retry {old : Option Ref} {next : Ref} (hold : m.pointer ≠ old) :
      Registers fn m (.appended old next) m .looping

theorem register_registers (h : register fn m pc = some (next, after)) :
    Registers fn m pc next after := by
  cases pc with
  | called =>
    cases fn with
    | none => cases h; exact .refuse rfl
    | some f => cases h; exact .enter rfl
  | looping => cases h; exact .load
  | loaded old =>
    cases old with
    | none => cases h; exact .makeFirst
    | some old => cases h; exact .make old
  | made old own =>
    obtain ⟨listeners, hold, h⟩ := Option.bind_eq_some_iff.mp h
    obtain ⟨slice, hnext, h⟩ := Option.bind_eq_some_iff.mp h
    cases h
    exact .copy hold hnext
  | copied old own =>
    obtain ⟨f, hfn, h⟩ := Option.bind_eq_some_iff.mp h
    obtain ⟨slice, hnext, h⟩ := Option.bind_eq_some_iff.mp h
    cases h
    exact .append hfn hnext
  | appended old own =>
    simp only [register, Memory.compareAndSwap] at h
    split_ifs at h with hold
    · cases h; exact .swap hold
    · cases h; exact .retry hold
  | returned => cases h

-- The object of a registration that has not been published.
def Pc.own : Pc → Option Ref
  | made _ next | copied _ next | appended _ next => some next
  | called | looping | loaded _ | returned => none

-- The object that a registration has loaded.
def Pc.old : Pc → Option Ref
  | loaded old | copied old _ | appended old _ => old
  | made old _ => some old
  | called | looping | returned => none

theorem Registers.move (h : Registers fn m pc next after) : Move m pc.own next after.own := by
  cases h with
  | refuse | enter | load => exact .read _
  | makeFirst | make => exact .alloc _ _
  | copy | append => exact .write _ _
  | swap => exact .publish _
  | retry => exact .drop _

theorem Registers.old_cases (h : Registers fn m pc next after) {r : Ref}
    (hold : after.old = some r) : m.pointer = some r ∨ pc.old = some r := by
  cases h with
  | refuse | enter | swap | retry => cases hold
  | load => exact .inl hold
  | makeFirst | make | copy | append => exact .inr hold

-- A call without a callback never enters the loop.
theorem Registers.refused (h : Registers fn m pc next after) (hfn : fn = none)
    (hpc : pc = .called ∨ pc = .returned) : after = .called ∨ after = .returned := by
  cases h with
  | refuse | swap => exact .inr rfl
  | enter hsome => simp [hfn] at hsome
  | load | makeFirst | make | copy | append | retry => simp at hpc

-- The listeners of a loaded pointer, none for nil.
def contents (m : Memory (List F)) (old : Option Ref) : List F := (old.bind m.value).getD []

theorem contents_congr {old : Option Ref} (h : ∀ r, old = some r → next.value r = m.value r) :
    contents next old = contents m old := by
  cases old with
  | none => rfl
  | some r => simp only [contents, Option.bind_some, h r rfl]

theorem contents_of_value {r : Ref} {l : List F} (h : m.value r = some l) :
    contents m (some r) = l := by
  simp only [contents, Option.bind_some, h, Option.getD_some]

-- What the object of a registration holds.
def Pc.draft (fn : Option F) (m : Memory (List F)) : Pc → List F
  | copied old _ => contents m old
  | appended old _ => contents m old ++ fn.toList
  | called | looping | loaded _ | made _ _ | returned => []

def Drafted (fn : Option F) (m : Memory (List F)) (pc : Pc) : Prop :=
  ∀ r, pc.own = some r → m.value r = some (pc.draft fn m)

theorem Pc.draft_congr (h : ∀ r, pc.old = some r → next.value r = m.value r) :
    pc.draft fn next = pc.draft fn m := by
  cases pc with
  | called | looping | loaded | made | returned => rfl
  | copied old own => exact contents_congr h
  | appended old own => exact congrArg (· ++ fn.toList) (contents_congr h)

theorem Drafted.congr (h : Drafted fn m pc)
    (hown : ∀ r, pc.own = some r → next.value r = m.value r)
    (hold : ∀ r, pc.old = some r → next.value r = m.value r) : Drafted fn next pc := by
  intro r hr
  rw [hown r hr, Pc.draft_congr hold]
  exact h r hr

-- A step of the registration itself, which does not write the object that it has loaded.
theorem Drafted.step (h : Drafted fn m pc) (hmove : Registers fn m pc next after)
    (hlt : ∀ r, pc.own = some r → r < m.fresh)
    (hold : ∀ r, pc.old = some r → next.value r = m.value r) : Drafted fn next after := by
  intro r hr
  cases hmove with
  | refuse | enter | load | swap | retry => cases hr
  | makeFirst | make =>
    cases hr
    exact Memory.value_alloc_fresh m []
  | @copy old own listeners slice hlisteners hslice =>
    obtain rfl : own = r := Option.some.inj hr
    have hempty : slice = [] := Option.some.inj (hslice.symm.trans (h own rfl))
    have hcopied : contents (m.write own (slice ++ listeners)) (some old) = listeners :=
      contents_of_value ((hold old rfl).trans hlisteners)
    rw [Memory.value_write_self (hlt own rfl), Pc.draft, hcopied, hempty, List.nil_append]
  | @append old own f slice hfn hslice =>
    obtain rfl : own = r := Option.some.inj hr
    have hsame : contents (m.write own (slice ++ [f])) old = contents m old :=
      contents_congr hold
    have hcopied : slice = contents m old := Option.some.inj (hslice.symm.trans (h own rfl))
    rw [Memory.value_write_self (hlt own rfl), Pc.draft, hsame, hcopied, hfn]
    rfl

-- A swap adds the callback at the end of the current list. No other step changes the list.
theorem Registers.current (hmove : Registers fn m pc next after) (h : Drafted fn m pc)
    (hpointer : ∀ r, m.pointer = some r → next.value r = m.value r) :
    next.current.getD [] =
      m.current.getD [] ++ if after = .returned then fn.toList else [] := by
  have hkeep (hp : next.pointer = m.pointer) : next.current.getD [] = m.current.getD [] := by
    rw [Memory.current, hp]
    exact contents_congr hpointer
  cases hmove with
  | enter | load | makeFirst | make | copy | append | retry => simp [hkeep rfl]
  | refuse hfn => simp [hfn]
  | @swap old own hold =>
    have hown : m.value own = some (contents m old ++ fn.toList) := h own rfl
    subst hold
    exact contents_of_value hown

variable {arg : A} {n told : Notification F A}

-- What one step of a notification can do.
inductive Notifies (arg : A) (m : Memory (List F)) : Notification F A → Notification F A → Prop
  | none {invoked : List (F × A)} (hp : m.pointer = none) :
      Notifies arg m ⟨.called, invoked⟩ ⟨.returned, invoked⟩
  | load {invoked : List (F × A)} {r : Ref} (hp : m.pointer = some r) :
      Notifies arg m ⟨.called, invoked⟩ ⟨.loaded r, invoked⟩
  | range {invoked : List (F × A)} {r : Ref} {slice : List F} (hr : m.value r = some slice) :
      Notifies arg m ⟨.loaded r, invoked⟩ ⟨.ranging r slice.length 0, invoked⟩
  | call {invoked : List (F × A)} {r : Ref} {len index : Nat} {slice : List F} {f : F}
      (hlt : index < len) (hr : m.value r = some slice) (hf : slice[index]? = some f) :
      Notifies arg m ⟨.ranging r len index, invoked⟩
        ⟨.ranging r len (index + 1), invoked ++ [(f, arg)]⟩
  | leave {invoked : List (F × A)} {r : Ref} {len index : Nat} (hle : len ≤ index) :
      Notifies arg m ⟨.ranging r len index, invoked⟩ ⟨.returned, invoked⟩

theorem notify_notifies (h : notify arg m n = some told) : Notifies arg m n told := by
  obtain ⟨pc, invoked⟩ := n
  cases pc with
  | called =>
    simp only [notify] at h
    split at h
    next hp => cases h; exact .none hp
    next r hp => cases h; exact .load hp
  | loaded r =>
    obtain ⟨slice, hr, h⟩ := Option.bind_eq_some_iff.mp h
    cases h
    exact .range hr
  | ranging r len index =>
    simp only [notify] at h
    split_ifs at h with hlt
    · obtain ⟨slice, hr, h⟩ := Option.bind_eq_some_iff.mp h
      obtain ⟨f, hf, h⟩ := Option.bind_eq_some_iff.mp h
      cases h
      exact .call hlt hr hf
    · cases h
      exact .leave (Nat.le_of_not_lt hlt)
  | returned => cases h

def NotifyPc.listeners : NotifyPc → Option Ref
  | loaded r | ranging r _ _ => some r
  | called | returned => none

theorem Notifies.listeners_cases (h : Notifies arg m n told) {r : Ref}
    (hr : told.pc.listeners = some r) : m.pointer = some r ∨ n.pc.listeners = some r := by
  cases h with
  | none | leave => cases hr
  | load hp => exact .inl (hp.trans hr)
  | range | call => exact .inr hr

-- What a notification has called so far, of a list that it has seen.
def Informed (arg : A) (m : Memory (List F)) (seen : List F → Prop) (n : Notification F A) : Prop :=
  match n.pc with
  | .called => n.invoked = []
  | .loaded r => n.invoked = [] ∧ ∃ l, m.value r = some l ∧ seen l
  | .ranging r len index =>
    ∃ l, m.value r = some l ∧ seen l ∧ len = l.length ∧ index ≤ len ∧
      n.invoked = (l.take index).map (·, arg)
  | .returned => ∃ l, seen l ∧ n.invoked = l.map (·, arg)

variable {seen later : List F → Prop}

theorem Informed.congr (h : Informed arg m seen n) (hseen : ∀ l, seen l → later l)
    (hvalue : ∀ r, n.pc.listeners = some r → next.value r = m.value r) :
    Informed arg next later n := by
  obtain ⟨pc, invoked⟩ := n
  cases pc with
  | called => exact h
  | loaded r =>
    obtain ⟨hinvoked, l, hl, hs⟩ := h
    exact ⟨hinvoked, l, (hvalue r rfl).trans hl, hseen l hs⟩
  | ranging r len index =>
    obtain ⟨l, hl, hs, hrest⟩ := h
    exact ⟨l, (hvalue r rfl).trans hl, hseen l hs, hrest⟩
  | returned =>
    obtain ⟨l, hs, hinvoked⟩ := h
    exact ⟨l, hseen l hs, hinvoked⟩

theorem Informed.step (h : Informed arg m seen n) (hmove : Notifies arg m n told)
    (hpointer : ∀ r, m.pointer = some r → r < m.fresh)
    (hload : n.pc = .called → seen (m.current.getD [])) : Informed arg m seen told := by
  cases hmove with
  | none hp =>
    have hcurrent : m.current.getD [] = [] := by simp [Memory.current, hp]
    exact ⟨[], hcurrent ▸ hload rfl, h⟩
  | @load invoked r hp =>
    obtain ⟨l, hl⟩ := Memory.value_isSome (hpointer r hp)
    have hcurrent : m.current.getD [] = l := by simp [Memory.current, hp, hl]
    exact ⟨h, l, hl, hcurrent ▸ hload rfl⟩
  | @range invoked r slice hr =>
    obtain ⟨hinvoked, l, hl, hs⟩ := h
    obtain rfl : slice = l := Option.some.inj (hr.symm.trans hl)
    exact ⟨slice, hl, hs, rfl, Nat.zero_le _, hinvoked⟩
  | @call invoked r len index slice f hlt hr hf =>
    obtain ⟨l, hl, hs, hlen, -, hinvoked⟩ := h
    obtain rfl : slice = l := Option.some.inj (hr.symm.trans hl)
    refine ⟨slice, hl, hs, hlen, hlt, ?_⟩
    rw [List.take_add_one, hf, List.map_append, ← hinvoked]
    rfl
  | @leave invoked r len index hle =>
    obtain ⟨l, -, hs, hlen, -, hinvoked⟩ := h
    have hall : l.take index = l := List.take_of_length_le (hlen ▸ hle)
    exact ⟨l, hs, by rw [hinvoked, hall]⟩

theorem Informed.exists_list (h : Informed arg m seen n) (hpc : n.pc ≠ .called) :
    ∃ l, seen l ∧ n.invoked <+: l.map (·, arg) ∧
      (n.pc = .returned → n.invoked = l.map (·, arg)) := by
  obtain ⟨pc, invoked⟩ := n
  cases pc with
  | called => exact absurd rfl hpc
  | loaded r =>
    obtain ⟨hinvoked, l, -, hs⟩ := h
    exact ⟨l, hs, hinvoked ▸ List.nil_prefix, fun hret => by cases hret⟩
  | ranging r len index =>
    obtain ⟨l, -, hs, -, -, hinvoked⟩ := h
    exact ⟨l, hs, hinvoked ▸ (List.take_prefix index l).map _, fun hret => by cases hret⟩
  | returned =>
    obtain ⟨l, hs, hinvoked⟩ := h
    exact ⟨l, hs, hinvoked ▸ List.prefix_rfl, fun _ => hinvoked⟩

end Calls

section System

variable {R N F A : Type} {u : Setup R N F A} {s t : State R N F A}

def State.own (s : State R N F A) : R → Option Ref := Pc.own ∘ s.registrations

-- Objects that are published, loaded or read have no writer.
structure Inv (u : Setup R N F A) (s : State R N F A) : Prop where
  owned : Owned s.listeners s.own
  old_settled : ∀ i r, (s.registrations i).old = some r → Settled s.listeners s.own r
  read_settled : ∀ n r, (s.notifications n).pc.listeners = some r → Settled s.listeners s.own r
  drafted : ∀ i, Drafted (u.fn i) s.listeners (s.registrations i)
  entered : ∀ i, u.fn i = none → s.registrations i = .called ∨ s.registrations i = .returned

theorem inv_initial (u : Setup R N F A) : Inv u initial where
  owned := owned_empty
  old_settled _ _ h := by cases h
  read_settled _ _ h := by cases h
  drafted _ _ h := by cases h
  entered _ _ := .inl rfl

variable {i : R} {m : Memory (List F)} {pc : Pc}

theorem returning_register (h : register (u.fn i) s.listeners (s.registrations i) = some (m, pc)) :
    returning u s (.register i) = if pc = .returned ∧ (u.fn i).isSome then [i] else [] := by
  rw [returning, h]
  cases pc with
  | called | looping | loaded | made | copied | appended => rfl
  | returned => cases u.fn i <;> rfl

theorem returning_nodup (u : Setup R N F A) (s : State R N F A) (a : Act R N) :
    (returning u s a).Nodup := by
  cases a with
  | register i =>
    dsimp only [returning]
    split
    · exact List.nodup_singleton i
    · exact List.nodup_nil
  | notify n => exact List.nodup_nil

theorem mem_returning_register
    (h : register (u.fn i) s.listeners (s.registrations i) = some (m, pc)) {j : R} :
    j ∈ returning u s (.register i) ↔ j = i ∧ pc = .returned ∧ (u.fn i).isSome := by
  rw [returning_register h]
  split_ifs with hpc <;> simp [hpc]

-- The registrations that have returned with a callback.
def State.Registered (u : Setup R N F A) (s : State R N F A) (i : R) : Prop :=
  s.registrations i = .returned ∧ (u.fn i).isSome

variable [DecidableEq R]

def State.setRegistration (s : State R N F A) (i : R) (m : Memory (List F)) (pc : Pc) :
    State R N F A :=
  { s with listeners := m, registrations := Function.update s.registrations i pc }

theorem own_setRegistration (s : State R N F A) (i : R) (m : Memory (List F)) (pc : Pc) :
    (s.setRegistration i m pc).own = Function.update s.own i pc.own :=
  Function.comp_update _ _ _ _

theorem Inv.setRegistration (h : Inv u s)
    (hmove : Registers (u.fn i) s.listeners (s.registrations i) m pc) :
    Inv u (s.setRegistration i m pc) := by
  have hstep : Move s.listeners (s.own i) m pc.own := hmove.move
  have hsettled : ∀ r, Settled s.listeners s.own r →
      Settled m (s.setRegistration i m pc).own r := by
    intro r hr
    rw [own_setRegistration]
    exact hr.move hstep
  have hold : ∀ j r, (s.registrations j).old = some r → m.value r = s.listeners.value r :=
    fun j r hj => (h.old_settled j r hj).value_eq hstep
  refine ⟨?_, fun j r hr => hsettled r ?_, fun n r hr => hsettled r (h.read_settled n r hr),
    ?_, ?_⟩
  · rw [own_setRegistration]
    exact h.owned.move hstep
  · rcases Lib.Parties.of_update (P := (Pc.old · = some r)) hr with ⟨rfl, hnew⟩ | ⟨-, hsame⟩
    · rcases hmove.old_cases hnew with hp | hpc
      · exact h.owned.pointer_settled r hp
      · exact h.old_settled j r hpc
    · exact h.old_settled j r hsame
  · refine (Function.forall_update_iff s.registrations fun j pc => Drafted (u.fn j) m pc).mpr ?_
    refine ⟨(h.drafted i).step hmove (h.owned.own_lt i) (hold i), fun j hj => ?_⟩
    exact (h.drafted j).congr (fun r hr => h.owned.value_eq hstep hj hr) (hold j)
  · refine (Function.forall_update_iff s.registrations fun j pc =>
      u.fn j = none → pc = .called ∨ pc = .returned).mpr ?_
    exact ⟨fun hfn => hmove.refused hfn (h.entered i hfn), fun j _ => h.entered j⟩

theorem Inv.list_register (h : Inv u s)
    (hmove : Registers (u.fn i) s.listeners (s.registrations i) m pc) :
    (s.setRegistration i m pc).list = s.list ++ if pc = .returned then (u.fn i).toList else [] :=
  hmove.current (h.drafted i) fun r hr => (h.owned.pointer_settled r hr).value_eq hmove.move

variable [DecidableEq N] {n : N} {told : Notification F A}

def State.setNotification (s : State R N F A) (n : N) (told : Notification F A) : State R N F A :=
  { s with notifications := Function.update s.notifications n told }

omit [DecidableEq R] in
theorem Inv.setNotification (h : Inv u s)
    (hmove : Notifies (u.arg n) s.listeners (s.notifications n) told) :
    Inv u (s.setNotification n told) := by
  refine ⟨h.owned, h.old_settled, fun k r hr => ?_, h.drafted, h.entered⟩
  rcases Lib.Parties.of_update (P := fun k : Notification F A => k.pc.listeners = some r) hr with
    ⟨rfl, hnew⟩ | ⟨-, hsame⟩
  · rcases hmove.listeners_cases hnew with hp | hpc
    · exact h.owned.pointer_settled r hp
    · exact h.read_settled k r hpc
  · exact h.read_settled k r hsame

theorem step_register (h : step u s (.register i) = some t) :
    ∃ m pc, register (u.fn i) s.listeners (s.registrations i) = some (m, pc) ∧
      t = s.setRegistration i m pc := by
  obtain ⟨⟨m, pc⟩, hr, ht⟩ := Option.bind_eq_some_iff.mp h
  exact ⟨m, pc, hr, (Option.some.inj ht).symm⟩

theorem step_notify (h : step u s (.notify n) = some t) :
    ∃ told, notify (u.arg n) s.listeners (s.notifications n) = some told ∧
      t = s.setNotification n told := by
  obtain ⟨told, hn, ht⟩ := Option.bind_eq_some_iff.mp h
  exact ⟨told, hn, (Option.some.inj ht).symm⟩

theorem Inv.step {a : Act R N} (h : Inv u s) (hstep : step u s a = some t) : Inv u t := by
  cases a with
  | register i =>
    obtain ⟨m, pc, hr, rfl⟩ := step_register hstep
    exact h.setRegistration (register_registers hr)
  | notify n =>
    obtain ⟨told, hn, rfl⟩ := step_notify hstep
    exact h.setNotification (notify_notifies hn)

theorem inv_of_exec {acts : List (Act R N)} (h : exec (step u) initial acts = some s) : Inv u s :=
  Reaches.invariant (fun _ _ _ hs hstep => hs.step hstep) ⟨acts, h⟩ (inv_initial u)

theorem Inv.list_step {a : Act R N} (h : Inv u s) (hstep : Listeners.step u s a = some t) :
    t.list.map some = s.list.map some ++ (returning u s a).map u.fn := by
  cases a with
  | register i =>
    obtain ⟨m, pc, hr, rfl⟩ := step_register hstep
    rw [h.list_register (register_registers hr), returning_register hr, List.map_append]
    by_cases hpc : pc = .returned <;> cases hfn : u.fn i <;> simp [hpc, hfn]
  | notify n =>
    obtain ⟨told, -, rfl⟩ := step_notify hstep
    simp [returning, State.setNotification, State.list]

theorem not_registered_of_returning {a : Act R N} {j : R} (h : j ∈ returning u s a)
    (hstep : step u s a = some t) : ¬ s.Registered u j := by
  rintro ⟨hpc, -⟩
  cases a with
  | register i =>
    obtain ⟨m, pc, hr, rfl⟩ := step_register hstep
    obtain ⟨rfl, -⟩ := (mem_returning_register hr).mp h
    rw [hpc] at hr
    cases hr
  | notify n => cases h

theorem registered_step {a : Act R N} {j : R} (hstep : step u s a = some t) :
    t.Registered u j ↔ s.Registered u j ∨ j ∈ returning u s a := by
  cases a with
  | register i =>
    obtain ⟨m, pc, hr, rfl⟩ := step_register hstep
    rw [mem_returning_register hr]
    by_cases hj : j = i
    · subst hj
      have hrunning : s.registrations j ≠ .returned := by
        intro hpc
        rw [hpc] at hr
        cases hr
      simp [State.Registered, State.setRegistration, hrunning]
    · simp [State.Registered, State.setRegistration, hj]
  | notify n =>
    obtain ⟨told, -, rfl⟩ := step_notify hstep
    simp [State.Registered, State.setNotification, returning]

section Runs

variable {acts : List (Act R N)}

-- The current list has the callbacks of the registrations that have returned, in that order.
theorem list_of_exec (h : exec (step u) initial acts = some s) :
    s.list.map some = (completed u acts).map u.fn := by
  have hstart : Inv u initial ∧ (initial : State R N F A).list.map some = [].map u.fn :=
    ⟨inv_initial u, rfl⟩
  have hrun : Inv u s ∧ s.list.map some = (completed u acts).map u.fn := by
    refine outputs_invariant (P := fun s out => Inv u s ∧ s.list.map some = out.map u.fn) ?_ h
      hstart
    rintro s a t out ⟨hinv, hlist⟩ hstep
    exact ⟨hinv.step hstep, by rw [hinv.list_step hstep, hlist, List.map_append]⟩
  exact hrun.2

-- Each registration that has returned with a callback is there once.
theorem completed_of_exec (h : exec (step u) initial acts = some s) :
    (completed u acts).Nodup ∧ ∀ i, i ∈ completed u acts ↔ s.Registered u i := by
  have hstart : ([] : List R).Nodup ∧
      ∀ i, i ∈ [] ↔ (initial : State R N F A).Registered u i := by
    simp [State.Registered, initial]
  refine outputs_invariant
    (P := fun s out => out.Nodup ∧ ∀ i, i ∈ out ↔ s.Registered u i) ?_ h hstart
  rintro s a t out ⟨hnodup, hmem⟩ hstep
  refine ⟨List.nodup_append'.mpr ⟨hnodup, returning_nodup u s a, fun i hi hnew => ?_⟩, ?_⟩
  · exact not_registered_of_returning hnew hstep ((hmem i).mp hi)
  · intro i
    rw [List.mem_append, hmem i, registered_step hstep]

theorem mem_completed_iff (h : exec (step u) initial acts = some s) (i : R) :
    i ∈ completed u acts ↔ s.Registered u i :=
  (completed_of_exec h).2 i

-- A registration that returned when another had not is before it.
theorem completed_order {first second : List (Act R N)} {mid : State R N F A}
    (hfirst : exec (step u) initial first = some mid)
    (hsecond : exec (step u) initial (first ++ second) = some s) {i j : R}
    (hi : mid.Registered u i) (hj : ¬ mid.Registered u j) (hlater : s.Registered u j) :
    [i, j].Sublist (completed u (first ++ second)) := by
  have hsplit : completed u (first ++ second) =
      completed u first ++ outputs (step u) (returning u) mid second :=
    outputs_append _ _ hfirst
  have himem : i ∈ completed u first := (mem_completed_iff hfirst i).mpr hi
  have hjmem : j ∈ completed u (first ++ second) := (mem_completed_iff hsecond j).mpr hlater
  rw [hsplit] at hjmem ⊢
  have hrest := (List.mem_append.mp hjmem).resolve_left fun hin =>
    hj ((mem_completed_iff hfirst j).mp hin)
  exact (List.singleton_sublist.mpr himem).append (List.singleton_sublist.mpr hrest)

-- The list was the current one when the notification loaded the pointer.
def WasCurrent (u : Setup R N F A) (acts : List (Act R N)) (n : N) (l : List F) : Prop :=
  ∃ before after mid, acts = before ++ .notify n :: after ∧
    exec (step u) initial before = some mid ∧ (mid.notifications n).pc = .called ∧ mid.list = l

theorem WasCurrent.concat {l : List F} (h : WasCurrent u acts n l) (a : Act R N) :
    WasCurrent u (acts ++ [a]) n l := by
  obtain ⟨before, after, mid, rfl, hmid⟩ := h
  exact ⟨before, after ++ [a], mid, by simp, hmid⟩

-- A notification has called the callbacks of one list that was the current one, in order.
def State.Informed (u : Setup R N F A) (acts : List (Act R N)) (s : State R N F A) : Prop :=
  ∀ n, Listeners.Informed (u.arg n) s.listeners (WasCurrent u acts n) (s.notifications n)

theorem State.Informed.step {a : Act R N} (h : s.Informed u acts)
    (hexec : exec (step u) initial acts = some s) (hstep : Listeners.step u s a = some t) :
    t.Informed u (acts ++ [a]) := by
  intro n
  have hinv := inv_of_exec hexec
  have hmono : ∀ l, WasCurrent u acts n l → WasCurrent u (acts ++ [a]) n l :=
    fun l hl => hl.concat a
  cases a with
  | register i =>
    obtain ⟨m, pc, hr, rfl⟩ := step_register hstep
    have hmove := (register_registers hr).move
    exact (h n).congr hmono fun r hread => (hinv.read_settled n r hread).value_eq hmove
  | notify k =>
    obtain ⟨told, hn, rfl⟩ := step_notify hstep
    have hsame := (h n).congr hmono fun _ _ => rfl
    by_cases hk : n = k
    · subst hk
      simp only [State.setNotification, Function.update_self]
      refine hsame.step (notify_notifies hn) (fun r hp => ?_) fun hcalled => ?_
      · exact (hinv.owned.pointer_settled r hp).lt_fresh
      · exact ⟨acts, [], s, rfl, hexec, hcalled, rfl⟩
    · simp only [State.setNotification, Function.update_of_ne hk]
      exact hsame

theorem informed_of_exec (h : exec (step u) initial acts = some s) : s.Informed u acts :=
  exec_induction (P := fun s acts => s.Informed u acts) (fun _ => rfl)
    (fun _ _ _ _ hexec hs hstep => hs.step hexec hstep) h

end Runs

end System

end NatsClient.Listeners
