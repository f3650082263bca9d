import Mathlib.Logic.Function.Basic
import NatsClient.Lib.Parties

namespace Lib.Publication

-- The address of an object.
abbrev Ref := Nat

-- The objects in the order in which they were made, and one atomic pointer.
structure Memory (V : Type*) where
  objects : List V
  pointer : Option Ref
  deriving DecidableEq, Repr

variable {V ι : Type*}

namespace Memory

def empty : Memory V := ⟨[], none⟩

def value (m : Memory V) (r : Ref) : Option V := m.objects[r]?

def current (m : Memory V) : Option V := m.pointer.bind m.value

-- The address that the next object gets.
def fresh (m : Memory V) : Ref := m.objects.length

def alloc (m : Memory V) (v : V) : Memory V := { m with objects := m.objects ++ [v] }

def write (m : Memory V) (r : Ref) (v : V) : Memory V := { m with objects := m.objects.set r v }

def publish (m : Memory V) (r : Ref) : Memory V := { m with pointer := some r }

-- none: the pointer is not the old one any more.
def compareAndSwap (m : Memory V) (old : Option Ref) (next : Ref) : Option (Memory V) :=
  if m.pointer = old then some (m.publish next) else none

theorem value_isSome {m : Memory V} {r : Ref} (h : r < m.fresh) : ∃ v, m.value r = some v :=
  ⟨_, List.getElem?_eq_getElem h⟩

@[simp] theorem value_alloc_fresh (m : Memory V) (v : V) : (m.alloc v).value m.fresh = some v := by
  simp [value, alloc, fresh]

theorem value_write_self {m : Memory V} {r : Ref} (h : r < m.fresh) (v : V) :
    (m.write r v).value r = some v :=
  List.getElem?_set_self h

end Memory

-- What a party can do to the memory, with the object that only it can reach before and after.
inductive Move (m : Memory V) : Option Ref → Memory V → Option Ref → Prop
  | read (own : Option Ref) : Move m own m own
  | alloc (own : Option Ref) (v : V) : Move m own (m.alloc v) (some m.fresh)
  | write (r : Ref) (v : V) : Move m (some r) (m.write r v) (some r)
  | publish (r : Ref) : Move m (some r) (m.publish r) none
  | drop (own : Option Ref) : Move m own m none

-- An object that no party can write any more.
structure Settled (m : Memory V) (own : ι → Option Ref) (r : Ref) : Prop where
  lt_fresh : r < m.fresh
  not_own : ∀ i, own i ≠ some r

structure Owned (m : Memory V) (own : ι → Option Ref) : Prop where
  pointer_settled : ∀ r, m.pointer = some r → Settled m own r
  own_lt : ∀ i r, own i = some r → r < m.fresh
  own_unique : ∀ i j r, own i = some r → own j = some r → i = j

theorem owned_empty : Owned (Memory.empty : Memory V) fun _ : ι => none where
  pointer_settled _ h := by cases h
  own_lt _ _ h := by cases h
  own_unique _ _ _ h := by cases h

section Moves

variable {m next : Memory V} {mine kept : Option Ref} {r : Ref}

theorem Move.fresh_le (h : Move m mine next kept) : m.fresh ≤ next.fresh := by
  cases h with
  | read | publish | drop => exact Nat.le_refl _
  | alloc => simp [Memory.fresh, Memory.alloc]
  | write => simp [Memory.fresh, Memory.write]

-- The frame: only its own object can change under a move of a party.
theorem Move.value_eq (h : Move m mine next kept) (hlt : r < m.fresh) (hne : mine ≠ some r) :
    next.value r = m.value r := by
  cases h with
  | read | publish | drop => rfl
  | alloc _ v => exact List.getElem?_append_left hlt
  | write own v =>
    have hown : own ≠ r := fun hown => hne (congrArg some hown)
    exact List.getElem?_set_ne hown

theorem Move.kept_cases (h : Move m mine next kept) (hkept : kept = some r) :
    mine = some r ∨ (r = m.fresh ∧ r < next.fresh) := by
  cases h with
  | read | write => exact .inl hkept
  | publish | drop => cases hkept
  | alloc own v =>
    cases hkept
    exact .inr ⟨rfl, by simp [Memory.fresh, Memory.alloc]⟩

theorem Move.pointer_cases (h : Move m mine next kept) (hp : next.pointer = some r) :
    m.pointer = some r ∨ (mine = some r ∧ kept = none) := by
  cases h with
  | read | alloc | write | drop => exact .inl hp
  | publish own => exact .inr ⟨hp, rfl⟩

variable {own : ι → Option Ref} {i : ι}

theorem Settled.value_eq (hr : Settled m own r) (h : Move m (own i) next kept) :
    next.value r = m.value r :=
  h.value_eq hr.lt_fresh (hr.not_own i)

theorem Owned.value_eq (ho : Owned m own) (h : Move m (own i) next kept) {j : ι} (hj : j ≠ i)
    (hown : own j = some r) : next.value r = m.value r :=
  h.value_eq (ho.own_lt j r hown) fun hi => hj (ho.own_unique j i r hown hi)

-- What a party keeps is nobody else's: its own object, or a new one.
theorem Owned.kept_ne (ho : Owned m own) (h : Move m (own i) next kept) {j : ι} (hj : j ≠ i)
    (hown : own j = some r) : kept ≠ some r := by
  intro hkept
  rcases h.kept_cases hkept with hmine | ⟨hfresh, -⟩
  · exact hj (ho.own_unique j i r hown hmine)
  · exact (ho.own_lt j r hown).ne hfresh

theorem Owned.kept_lt (ho : Owned m own) (h : Move m (own i) next kept) (hkept : kept = some r) :
    r < next.fresh := by
  rcases h.kept_cases hkept with hmine | ⟨-, hnew⟩
  · exact (ho.own_lt i r hmine).trans_le h.fresh_le
  · exact hnew

variable [DecidableEq ι]

theorem Settled.move (hr : Settled m own r) (h : Move m (own i) next kept) :
    Settled next (Function.update own i kept) r := by
  have hkept : kept ≠ some r := by
    intro hkept
    rcases h.kept_cases hkept with hmine | ⟨hfresh, -⟩
    · exact hr.not_own i hmine
    · exact hr.lt_fresh.ne hfresh
  refine ⟨hr.lt_fresh.trans_le h.fresh_le, ?_⟩
  exact (Function.forall_update_iff own fun _ o => o ≠ some r).mpr
    ⟨hkept, fun j _ => hr.not_own j⟩

-- With its object in the pointer a party gives up the right to write it.
theorem Owned.settled_of_release (ho : Owned m own) (h : Move m (own i) next none)
    (hmine : own i = some r) : Settled next (Function.update own i none) r := by
  refine ⟨(ho.own_lt i r hmine).trans_le h.fresh_le, ?_⟩
  exact (Function.forall_update_iff own fun _ o => o ≠ some r).mpr
    ⟨(Option.some_ne_none r).symm, fun j hj hown => hj (ho.own_unique j i r hown hmine)⟩

theorem Owned.move (ho : Owned m own) (h : Move m (own i) next kept) :
    Owned next (Function.update own i kept) := by
  refine ⟨fun r hp => ?_, fun j r hj => ?_, fun j k r hj hk => ?_⟩
  · rcases h.pointer_cases hp with hold | ⟨hmine, rfl⟩
    · exact (ho.pointer_settled r hold).move h
    · exact ho.settled_of_release h hmine
  · rcases Parties.update_cases hj with ⟨-, hkept⟩ | ⟨-, hown⟩
    · exact ho.kept_lt h hkept
    · exact (ho.own_lt j r hown).trans_le h.fresh_le
  · rcases Parties.update_cases hj with ⟨hji, hj⟩ | ⟨hji, hj⟩ <;>
      rcases Parties.update_cases hk with ⟨hki, hk⟩ | ⟨hki, hk⟩
    · exact hji.trans hki.symm
    · exact absurd hj (ho.kept_ne h hki hk)
    · exact absurd hk (ho.kept_ne h hji hj)
    · exact ho.own_unique j k r hj hk

end Moves

end Lib.Publication
