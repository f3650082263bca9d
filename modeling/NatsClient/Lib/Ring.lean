import Mathlib.Data.List.DropRight

namespace Lib.Ring

variable {α : Type*}

-- Slots that are written round and round.
structure Buffer (α : Type*) where
  slots : List α
  -- the slot that is written next
  next : Nat
  -- the last slot was written
  full : Bool
  next_lt : next < slots.length

namespace Buffer

def size (r : Buffer α) : Nat := r.slots.length

def push (r : Buffer α) (x : α) : Buffer α where
  slots := r.slots.set r.next x
  next := (r.next + 1) % r.size
  full := r.full || (r.next + 1) % r.size == 0
  next_lt := by
    rw [List.length_set]
    exact Nat.mod_lt _ (Nat.zero_lt_of_lt r.next_lt)

-- What was written, oldest first.
def contents (r : Buffer α) : List α :=
  if r.full then r.slots.drop r.next ++ r.slots.take r.next else r.slots.take r.next

end Buffer

section Lists

variable {slots : List α} {n : Nat}

theorem take_set_succ (x : α) (h : n < slots.length) :
    (slots.set n x).take (n + 1) = slots.take n ++ [x] := by
  rw [List.take_succ_eq_append_getElem (by simpa using h), List.take_set_of_le (Nat.le_refl n)]
  simp

theorem rtake_of_length_le {entries : List α} (h : entries.length ≤ n) :
    entries.rtake n = entries := by
  unfold List.rtake
  rw [Nat.sub_eq_zero_of_le h, List.drop_zero]

-- What was forgotten before does not matter for what is remembered later.
theorem rtake_append_right (past entries : List α) (n : Nat) :
    (past.rtake n ++ entries).rtake n = (past ++ entries).rtake n := by
  unfold List.rtake
  rw [List.drop_append, List.drop_append, List.drop_drop]
  simp only [List.length_append, List.length_drop]
  congr 2 <;> omega

end Lists

namespace Buffer

variable (r : Buffer α) (x : α)

theorem size_push : (r.push x).size = r.size := List.length_set

-- The slots behind the one just written are older than all others. A write of the last slot
-- leaves none behind it, and the buffer is full.
theorem contents_push_eq :
    (r.push x).contents =
      (if r.full then (r.slots.set r.next x).drop (r.next + 1) else []) ++
        (r.slots.set r.next x).take (r.next + 1) := by
  have hlt := r.next_lt
  by_cases hlast : r.next + 1 = r.size
  · have hnext : (r.next + 1) % r.size = 0 := by rw [hlast, Nat.mod_self]
    have hall : (r.slots.set r.next x).length ≤ r.next + 1 := by
      rw [List.length_set, hlast, size]
    rw [List.drop_of_length_le hall, List.take_of_length_le hall, ite_self, List.nil_append]
    simp [contents, push, hnext]
  · have hnext : (r.next + 1) % r.size = r.next + 1 :=
      Nat.mod_eq_of_lt (by unfold size at hlast ⊢; omega)
    cases hfull : r.full <;> simp [contents, push, hnext, hfull]

theorem length_contents_lt (hfull : r.full = false) : r.contents.length < r.size := by
  have hlt := r.next_lt
  simp only [contents, hfull, Bool.false_eq_true, if_false, List.length_take, size]
  omega

theorem length_contents (hfull : r.full = true) : r.contents.length = r.size := by
  have hlt := r.next_lt
  simp only [contents, hfull, if_true, List.length_append, List.length_drop, List.length_take, size]
  omega

theorem contents_push : (r.push x).contents = (r.contents ++ [x]).rtake r.size := by
  have hlt := r.next_lt
  rw [contents_push_eq, take_set_succ x hlt]
  cases hfull : r.full with
  | false =>
    have hlen := length_contents_lt r hfull
    rw [rtake_of_length_le (by simpa [Nat.succ_le_iff] using hlen)]
    simp [contents, hfull]
  | true =>
    -- the entry written takes the slot of the oldest one
    have hlen : (r.contents ++ [x]).length - r.size = 1 := by
      rw [List.length_append, length_contents r hfull, List.length_singleton]
      omega
    rw [List.rtake, hlen]
    simp only [contents, hfull, if_true]
    rw [List.drop_set_of_lt (Nat.lt_succ_self _), List.append_assoc,
      List.drop_append_of_le_length (by rw [List.length_drop]; omega), List.drop_drop]

-- A buffer that was written n times has the last n entries, up to its size.
theorem contents_foldl_push (entries : List α) (r : Buffer α) :
    (entries.foldl push r).contents = (r.contents ++ entries).rtake r.size := by
  induction entries generalizing r with
  | nil =>
    rw [List.foldl_nil, List.append_nil, rtake_of_length_le]
    cases hfull : r.full with
    | false => exact (length_contents_lt r hfull).le
    | true => exact (length_contents r hfull).le
  | cons x entries ih =>
    rw [List.foldl_cons, ih, contents_push, size_push, rtake_append_right, List.append_assoc,
      List.singleton_append]

end Buffer

end Lib.Ring
