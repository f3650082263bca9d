import NatsClient.Lib.Machine
import NatsClient.Lib.Publication

namespace NatsClient.Listeners

open Lib.Machine Lib.Publication

-- A call of OnProcessSuccess or OnMessageHandled. Each pass of its loop has a variable next of
-- its own, and CompareAndSwap publishes the address of that variable.
inductive Pc
  | called
  -- at the top of the loop
  | looping
  | loaded (old : Option Ref)
  -- next is the empty slice of make, and old is not nil
  | made (old next : Ref)
  -- next has the listeners of old, if any
  | copied (old : Option Ref) (next : Ref)
  | appended (old : Option Ref) (next : Ref)
  | returned
  deriving DecidableEq, Repr

-- A call of notifyProcessSuccess or notifyMessageHandled. The length of the slice is read once,
-- before the first callback, and each element right before it is called.
inductive NotifyPc
  | called
  | loaded (listeners : Ref)
  | ranging (listeners : Ref) (len index : Nat)
  | returned
  deriving DecidableEq, Repr

-- The callbacks called so far stand next to the program counter, with what they were called with.
structure Notification (F A : Type) where
  pc : NotifyPc
  invoked : List (F × A)
  deriving DecidableEq, Repr

section Calls

variable {F A : Type}

-- One step of a registration of fn. A nil fn returns before the loop. (So does a call on a nil
-- consumer, which has no list.)
def register (fn : Option F) (m : Memory (List F)) : Pc → Option (Memory (List F) × Pc)
  | .called => some (m, if fn.isNone then .returned else .looping)
  | .looping => some (m, .loaded m.pointer)
  | .loaded none => some (m.alloc [], .copied none m.fresh)
  | .loaded (some old) => some (m.alloc [], .made old m.fresh)
  | .made old next => do
      let listeners ← m.value old
      let slice ← m.value next
      some (m.write next (slice ++ listeners), .copied (some old) next)
  | .copied old next => do
      let f ← fn
      let slice ← m.value next
      some (m.write next (slice ++ [f]), .appended old next)
  | .appended old next =>
    match m.compareAndSwap old next with
    | some swapped => some (swapped, .returned)
    | none => some (m, .looping)
  | .returned => none

-- One step of a notification.
def notify (arg : A) (m : Memory (List F)) (n : Notification F A) : Option (Notification F A) :=
  match n.pc with
  | .called =>
    match m.pointer with
    | none => some { n with pc := .returned }
    | some listeners => some { n with pc := .loaded listeners }
  | .loaded listeners => do
      let slice ← m.value listeners
      some { n with pc := .ranging listeners slice.length 0 }
  | .ranging listeners len index =>
    if index < len then do
      let slice ← m.value listeners
      let f ← slice[index]?
      some ⟨.ranging listeners len (index + 1), n.invoked ++ [(f, arg)]⟩
    else some { n with pc := .returned }
  | .returned => none

end Calls

-- The calls on one list of listeners: the callback of each registration, and the argument that
-- each notification hands to the callbacks.
structure Setup (R N F A : Type) where
  fn : R → Option F
  arg : N → A

structure State (R N F A : Type) where
  listeners : Memory (List F)
  registrations : R → Pc
  notifications : N → Notification F A

-- The next step of a call.
inductive Act (R N : Type)
  | register (i : R)
  | notify (n : N)
  deriving DecidableEq, Repr

section System

variable {R N F A : Type} [DecidableEq R] [DecidableEq N]

def initial : State R N F A where
  listeners := .empty
  registrations _ := .called
  notifications _ := ⟨.called, []⟩

def step (u : Setup R N F A) (s : State R N F A) : Act R N → Option (State R N F A)
  | .register i => do
      let (listeners, pc) ← register (u.fn i) s.listeners (s.registrations i)
      some { s with listeners, registrations := Function.update s.registrations i pc }
  | .notify n => do
      let next ← notify (u.arg n) s.listeners (s.notifications n)
      some { s with notifications := Function.update s.notifications n next }

-- The current list. It is empty as long as the pointer is nil.
def State.list (s : State R N F A) : List F := s.listeners.current.getD []

-- The registration that returns with a step and has a callback.
def returning (u : Setup R N F A) (s : State R N F A) : Act R N → List R
  | .register i =>
    match register (u.fn i) s.listeners (s.registrations i), u.fn i with
    | some (_, .returned), some _ => [i]
    | _, _ => []
  | .notify _ => []

-- The registrations that returned in a run, in that order, nil callbacks apart.
def completed (u : Setup R N F A) (acts : List (Act R N)) : List R :=
  outputs (step u) (returning u) initial acts

end System

-- The two lists of a consumer. Calls of each of the four methods are numbered by C.
namespace Consumer

-- elapsed is in nanoseconds.
structure Setup (C F G : Type) where
  onProcessSuccess : C → Option F
  onMessageHandled : C → Option G
  elapsed : C → Int64

structure State (C F G : Type) where
  activityListeners : Listeners.State C C F Unit
  handledListeners : Listeners.State C C G Int64

inductive Act (C : Type)
  | onProcessSuccess (c : C)
  | notifyProcessSuccess (c : C)
  | onMessageHandled (c : C)
  | notifyMessageHandled (c : C)
  deriving DecidableEq, Repr

variable {C F G : Type} [DecidableEq C]

def initial : State C F G := ⟨Listeners.initial, Listeners.initial⟩

def Setup.activity (u : Setup C F G) : Listeners.Setup C C F Unit where
  fn := u.onProcessSuccess
  arg _ := ()

def Setup.handled (u : Setup C F G) : Listeners.Setup C C G Int64 where
  fn := u.onMessageHandled
  arg := u.elapsed

def onActivity (u : Setup C F G) (s : State C F G) (a : Listeners.Act C C) : Option (State C F G) :=
  (Listeners.step u.activity s.activityListeners a).map fun l => { s with activityListeners := l }

def onHandled (u : Setup C F G) (s : State C F G) (a : Listeners.Act C C) : Option (State C F G) :=
  (Listeners.step u.handled s.handledListeners a).map fun l => { s with handledListeners := l }

def onProcessSuccess (u : Setup C F G) (s : State C F G) (c : C) : Option (State C F G) :=
  onActivity u s (.register c)

def notifyProcessSuccess (u : Setup C F G) (s : State C F G) (c : C) : Option (State C F G) :=
  onActivity u s (.notify c)

def onMessageHandled (u : Setup C F G) (s : State C F G) (c : C) : Option (State C F G) :=
  onHandled u s (.register c)

def notifyMessageHandled (u : Setup C F G) (s : State C F G) (c : C) : Option (State C F G) :=
  onHandled u s (.notify c)

def step (u : Setup C F G) (s : State C F G) : Act C → Option (State C F G)
  | .onProcessSuccess c => onProcessSuccess u s c
  | .notifyProcessSuccess c => notifyProcessSuccess u s c
  | .onMessageHandled c => onMessageHandled u s c
  | .notifyMessageHandled c => notifyMessageHandled u s c

-- The actions on each of the two lists.
def Act.activity? : Act C → Option (Listeners.Act C C)
  | onProcessSuccess c => some (.register c)
  | notifyProcessSuccess c => some (.notify c)
  | onMessageHandled _ | notifyMessageHandled _ => none

def Act.handled? : Act C → Option (Listeners.Act C C)
  | onProcessSuccess _ | notifyProcessSuccess _ => none
  | onMessageHandled c => some (.register c)
  | notifyMessageHandled c => some (.notify c)

end Consumer

end NatsClient.Listeners
