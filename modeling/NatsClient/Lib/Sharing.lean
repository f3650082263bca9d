import Mathlib.Data.List.Basic
import Mathlib.Logic.Function.Basic

namespace Lib.Sharing

variable {V Op X : Type}

-- The cells, with the address of one. It is made where there is no handle.
def ensure (zero : V) (cells : List V) : Option Nat → List V × Nat
  | some a => (cells, a)
  | none => (cells ++ [zero], cells.length)

-- Writes through the handle, and gives back the address written.
def write (zero : V) (set : V → V) (cells : List V) (handle : Option Nat) : List V × Nat :=
  let (cells, a) := ensure zero cells handle
  (cells.modify a set, a)

theorem write_none (zero : V) (set : V → V) (cells : List V) :
    write zero set cells none = (cells ++ [set zero], cells.length) := by
  simp [write, ensure, List.modify_eq_take_drop]

-- Values that are passed on by copying a handle. Beside its handle each holder has the value
-- that the writes of its own chain make of the first one.
structure Shared (V : Type) where
  cells : List V
  holders : List (Option Nat × Option V)

def Shared.read (s : Shared V) (handle : Option Nat) : Option V := handle.bind (s.cells[·]?)

-- A new holder, derived from an earlier one by a write or without.
def derive (zero : V) (apply : Op → V → V) (s : Shared V) (d : Nat × Option Op) :
    Option (Shared V) :=
  s.holders[d.1]?.map fun (handle, own) =>
    match d.2 with
    | none => { s with holders := s.holders ++ [(handle, own)] }
    | some op =>
      let (cells, a) := write zero (apply op) s.cells handle
      ⟨cells, s.holders ++ [(some a, some (apply op (own.getD zero)))]⟩

-- A write either sets what is observed to a value of its own or leaves it.
def Overwrites (apply : Op → V → V) (observe : V → X) : Prop :=
  ∀ op, (∀ v w, observe (apply op v) = observe (apply op w)) ∨
    ∀ v, observe (apply op v) = observe v

-- What is observed of a cell is what a derived holder has made it. Where none has, it is what
-- all of the cell's holders have from the first one.
structure Tracked (observe : V → X) (s : Shared V) : Prop where
  handle : ∀ handle own, (handle, own) ∈ s.holders →
    (handle = none ∧ own = none) ∨ ∃ a v, handle = some a ∧ own = some v ∧ a < s.cells.length
  writer : ∀ a cell, s.cells[a]? = some cell →
    (∃ own, (some a, some own) ∈ s.holders.tail ∧ observe cell = observe own) ∨
      ∀ own, (some a, some own) ∈ s.holders → observe cell = observe own

variable {zero : V} {apply : Op → V → V} {observe : V → X} {s t : Shared V}

-- A holder reads something iff it has a value of its own.
theorem Tracked.read_isSome (h : Tracked observe s) {p : Option Nat × Option V}
    (hmem : p ∈ s.holders) :
    p.1.isSome = p.2.isSome ∧ (s.read p.1).isSome = p.2.isSome := by
  obtain ⟨handle, own⟩ := p
  rcases h.handle handle own hmem with ⟨rfl, rfl⟩ | ⟨a, v, rfl, rfl, hlt⟩
  · exact ⟨rfl, rfl⟩
  · exact ⟨rfl, by simpa [Shared.read] using hlt⟩

-- One value, and one holder of it if there is any.
theorem tracked_single (observe : V → X) (v : Option V) :
    Tracked observe ⟨v.toList, [(v.map fun _ => 0, v)]⟩ := by
  cases v with
  | none => exact ⟨by simp, by simp⟩
  | some v =>
    refine ⟨by simp, ?_⟩
    intro a cell hcell
    obtain ⟨rfl, rfl⟩ : a = 0 ∧ v = cell := by
      simpa [List.getElem?_singleton] using hcell
    exact .inr (by simp)

section Derived

variable {parent holder : Option Nat × Option V} {holders : List (Option Nat × Option V)}

theorem mem_tail_append (hparent : parent ∈ holders) {p : Option Nat × Option V}
    (h : p ∈ holders.tail ∨ p = holder) : p ∈ (holders ++ [holder]).tail := by
  rw [List.tail_append_of_ne_nil (List.ne_nil_of_mem hparent), List.mem_append,
    List.mem_singleton]
  exact h

-- The writers of a cell stay its writers when a holder comes that agrees with its parent.
theorem Tracked.writer_append (h : Tracked observe s) (hparent : parent ∈ s.holders) {a : Nat}
    {cell : V} (hcell : s.cells[a]? = some cell)
    (hagree : ∀ own, holder = (some a, some own) →
      ∃ v, parent = (some a, some v) ∧ observe own = observe v) :
    (∃ own, (some a, some own) ∈ (s.holders ++ [holder]).tail ∧ observe cell = observe own) ∨
      ∀ own, (some a, some own) ∈ s.holders ++ [holder] → observe cell = observe own := by
  rcases h.writer a cell hcell with ⟨own, hown, heq⟩ | hall
  · exact .inl ⟨own, mem_tail_append hparent (.inl hown), heq⟩
  · refine .inr fun own hmem => ?_
    rcases List.mem_append.mp hmem with hold | hnew
    · exact hall own hold
    · obtain ⟨v, rfl, hv⟩ := hagree own (List.mem_singleton.mp hnew).symm
      exact (hall v hparent).trans hv.symm

-- Where a handle is copied nothing is written.
theorem Tracked.copy (h : Tracked observe s) (hparent : parent ∈ s.holders) :
    Tracked observe { s with holders := s.holders ++ [parent] } := by
  constructor
  · intro handle own hnew
    rcases List.mem_append.mp hnew with hold | hlast
    · exact h.handle handle own hold
    · exact h.handle handle own (List.mem_singleton.mp hlast ▸ hparent)
  · intro a cell hcell
    exact h.writer_append hparent hcell fun own heq => ⟨own, heq, rfl⟩

-- The first write without a handle makes a cell that only the new holder has.
theorem Tracked.make (h : Tracked observe s) (hparent : parent ∈ s.holders) (v : V) :
    Tracked observe ⟨s.cells ++ [v], s.holders ++ [(some s.cells.length, some v)]⟩ := by
  constructor
  · intro handle own hnew
    rcases List.mem_append.mp hnew with hold | hlast
    · refine (h.handle handle own hold).imp_right ?_
      rintro ⟨a, w, ha, hw, hlt⟩
      exact ⟨a, w, ha, hw, by simpa using Nat.lt_succ_of_lt hlt⟩
    · cases List.mem_singleton.mp hlast
      exact .inr ⟨_, v, rfl, rfl, by simp⟩
  · intro a cell hcell
    rcases Nat.lt_or_ge a s.cells.length with hlt | hge
    · rw [List.getElem?_append_left hlt] at hcell
      refine h.writer_append hparent hcell fun own heq => ?_
      cases heq
      exact absurd hlt (Nat.lt_irrefl _)
    · obtain ⟨rfl, rfl⟩ : a = s.cells.length ∧ v = cell := by
        have hlt := (List.getElem?_eq_some_iff.mp hcell).1
        have heq : a = s.cells.length := by simp at hlt; omega
        subst heq
        simpa using hcell
      exact .inl ⟨v, mem_tail_append hparent (.inr rfl), rfl⟩

-- A write to a cell is of the new holder, where it writes what is observed.
theorem Tracked.overwrite (hlaw : Overwrites apply observe) (h : Tracked observe s) {a : Nat}
    {own : V} (hparent : (some a, some own) ∈ s.holders) (op : Op) :
    Tracked observe
      ⟨s.cells.modify a (apply op), s.holders ++ [(some a, some (apply op own))]⟩ := by
  constructor
  · intro handle v hnew
    rw [List.length_modify]
    rcases List.mem_append.mp hnew with hold | hlast
    · exact h.handle handle v hold
    · cases List.mem_singleton.mp hlast
      rcases h.handle _ _ hparent with ⟨hnone, -⟩ | ⟨b, w, hb, -, hlt⟩
      · cases hnone
      · exact .inr ⟨a, _, rfl, rfl, Option.some.inj hb ▸ hlt⟩
  · intro b cell hcell
    rw [List.getElem?_modify] at hcell
    obtain ⟨old, hold, rfl⟩ := Option.map_eq_some_iff.mp hcell
    by_cases hab : a = b
    · subst hab
      rw [if_pos rfl]
      rcases hlaw op with hsets | hleaves
      · exact .inl ⟨apply op own, mem_tail_append hparent (.inr rfl), hsets old own⟩
      · rw [hleaves old]
        refine h.writer_append hparent hold fun v heq => ?_
        cases heq
        exact ⟨own, rfl, hleaves own⟩
    · rw [if_neg hab]
      refine h.writer_append hparent hold fun v heq => ?_
      cases heq
      exact absurd rfl hab

end Derived

theorem derive_tracked (hlaw : Overwrites apply observe) {d : Nat × Option Op}
    (h : Tracked observe s) (hd : derive zero apply s d = some t) : Tracked observe t := by
  obtain ⟨parent, change⟩ := d
  obtain ⟨⟨handle, own⟩, hget, rfl⟩ := Option.map_eq_some_iff.mp hd
  have hmem : (handle, own) ∈ s.holders := List.mem_of_getElem? hget
  cases change with
  | none => exact h.copy hmem
  | some op =>
    rcases h.handle _ _ hmem with ⟨rfl, rfl⟩ | ⟨a, v, rfl, rfl, -⟩
    · simp only [write_none, Option.getD_none]
      exact h.make hmem (apply op zero)
    · exact h.overwrite hlaw hmem op

-- The holder that made the cell of each one. Who is derived without a write, or from a holder
-- that has a cell, has that holder's cell.
def origin (origins : List (Option Nat)) (d : Nat × Option Op) : List (Option Nat) :=
  origins ++ (origins[d.1]?.map fun o =>
    if d.2.isSome then some (o.getD origins.length) else o).toList

-- The origins stand for the addresses.
def Originated (s : Shared V) (origins : List (Option Nat)) : Prop :=
  ∃ f : Nat → Nat, (∀ a < s.cells.length, ∀ b < s.cells.length, f a = f b → a = b) ∧
    (∀ a < s.cells.length, f a < s.holders.length) ∧
    origins = s.holders.map fun p => p.1.map f

theorem originated_single (v : Option V) :
    Originated ⟨v.toList, [(v.map fun _ => 0, v)]⟩ [v.map fun _ => 0] := by
  refine ⟨fun _ => 0, ?_, fun _ _ => Nat.zero_lt_one, by cases v <;> rfl⟩
  cases v <;> simp

-- A new cell is made by the new holder, which has made no other one.
theorem update_origins {f : Nat → Nat} {n k : Nat} (hinj : ∀ a < n, ∀ b < n, f a = f b → a = b)
    (hlt : ∀ a < n, f a < k) :
    (∀ a < n + 1, ∀ b < n + 1, Function.update f n k a = Function.update f n k b → a = b) ∧
      ∀ a < n + 1, Function.update f n k a < k + 1 := by
  have hold {a : Nat} (ha : a < n) : Function.update f n k a = f a :=
    Function.update_of_ne (Nat.ne_of_lt ha) _ _
  refine ⟨fun a ha b hb heq => ?_, fun a ha => ?_⟩
  · rcases Nat.lt_succ_iff_lt_or_eq.mp ha with ha | rfl <;>
      rcases Nat.lt_succ_iff_lt_or_eq.mp hb with hb | rfl
    · rw [hold ha, hold hb] at heq
      exact hinj a ha b hb heq
    · rw [hold ha, Function.update_self] at heq
      exact absurd heq (Nat.ne_of_lt (hlt a ha))
    · rw [hold hb, Function.update_self] at heq
      exact absurd heq.symm (Nat.ne_of_lt (hlt b hb))
    · rfl
  · rcases Nat.lt_succ_iff_lt_or_eq.mp ha with ha | rfl
    · rw [hold ha]
      exact Nat.lt_succ_of_lt (hlt a ha)
    · rw [Function.update_self]
      exact Nat.lt_succ_self _

theorem derive_originated {d : Nat × Option Op} {origins : List (Option Nat)}
    (htracked : Tracked observe s) (h : Originated s origins)
    (hd : derive zero apply s d = some t) : Originated t (origin origins d) := by
  obtain ⟨parent, change⟩ := d
  obtain ⟨⟨handle, own⟩, hget, rfl⟩ := Option.map_eq_some_iff.mp hd
  obtain ⟨f, hinj, hlt, rfl⟩ := h
  have hmem : (handle, own) ∈ s.holders := List.mem_of_getElem? hget
  have horigin : (s.holders.map fun p => p.1.map f)[parent]? = some (handle.map f) := by
    rw [List.getElem?_map, hget]
    rfl
  cases change with
  | none =>
    refine ⟨f, hinj, fun a ha => ?_, by simp [origin, horigin]⟩
    rw [List.length_append]
    exact Nat.lt_add_right _ (hlt a ha)
  | some op =>
    rcases htracked.handle _ _ hmem with ⟨rfl, rfl⟩ | ⟨a, v, rfl, rfl, -⟩
    · simp only [write_none]
      obtain ⟨hinj', hlt'⟩ := update_origins hinj hlt
      refine ⟨_, by simpa using hinj', by simpa using hlt', ?_⟩
      have hsame : ∀ p ∈ s.holders, p.1.map f =
          p.1.map (Function.update f s.cells.length s.holders.length) := by
        rintro ⟨handle, own⟩ hp
        rcases htracked.handle _ _ hp with ⟨rfl, rfl⟩ | ⟨a, v, rfl, rfl, ha⟩
        · rfl
        · rw [Option.map_some, Option.map_some, Function.update_of_ne (Nat.ne_of_lt ha)]
      rw [origin, horigin, List.map_append, ← List.map_congr_left hsame]
      simp
    · refine ⟨f, by simpa [write, ensure] using hinj, fun a ha => ?_, ?_⟩
      · rw [List.length_append]
        exact Nat.lt_add_right _ (hlt a (by simpa [write, ensure] using ha))
      · simp [origin, horigin, write, ensure]

-- Each derived holder observes its own value iff those of one cell agree on it.
theorem Tracked.reads_own_iff (h : Tracked observe s) :
    (∀ p ∈ s.holders.tail, (s.read p.1).map observe = p.2.map observe) ↔
      ∀ p ∈ s.holders.tail, ∀ q ∈ s.holders.tail, p.1 ≠ none → p.1 = q.1 →
        p.2.map observe = q.2.map observe := by
  constructor
  · intro hreads p hp q hq _ hpq
    rw [← hreads p hp, ← hreads q hq, hpq]
  · rintro hagree ⟨handle, own⟩ htail
    have hmem := List.mem_of_mem_tail htail
    rcases h.handle handle own hmem with ⟨rfl, rfl⟩ | ⟨a, v, rfl, rfl, hlt⟩
    · rfl
    · have hcell : s.read (some a) = some s.cells[a] := List.getElem?_eq_getElem hlt
      rw [hcell, Option.map_some]
      rcases h.writer a _ hcell with ⟨last, hlast, heq⟩ | hall
      · rw [heq]
        exact hagree _ hlast _ htail (Option.some_ne_none a) rfl
      · rw [hall v hmem, Option.map_some]

end Lib.Sharing
