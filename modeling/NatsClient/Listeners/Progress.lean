import NatsClient.Listeners.Theorems

namespace NatsClient.Listeners

open Lib.Machine Lib.Publication

section Calls

variable {F A : Type} {fn : Option F} {m : Memory (List F)} {pc : Pc}

theorem register_isSome (hown : ∀ r, pc.own = some r → r < m.fresh)
    (hold : ∀ r, pc.old = some r → r < m.fresh)
    (hfn : fn = none → pc = .called ∨ pc = .returned) (hpc : pc ≠ .returned) :
    (register fn m pc).isSome := by
  cases pc with
  | called | looping => rfl
  | loaded old => cases old <;> rfl
  | made old own =>
    obtain ⟨listeners, hlisteners⟩ := Memory.value_isSome (hold old rfl)
    obtain ⟨slice, hslice⟩ := Memory.value_isSome (hown own rfl)
    simp [register, hlisteners, hslice]
  | copied old own =>
    obtain ⟨slice, hslice⟩ := Memory.value_isSome (hown own rfl)
    cases fn with
    | none => simp at hfn
    | some f => simp [register, hslice]
  | appended old own =>
    by_cases hp : m.pointer = old <;> simp [register, Memory.compareAndSwap, hp]
  | returned => exact absurd rfl hpc

theorem Informed.notify_isSome {arg : A} {seen : List F → Prop} {n : Notification F A}
    (h : Informed arg m seen n) (hpc : n.pc ≠ .returned) : (notify arg m n).isSome := by
  obtain ⟨pc, invoked⟩ := n
  cases pc with
  | called => cases hp : m.pointer <;> simp [notify, hp]
  | loaded r =>
    obtain ⟨-, l, hl, -⟩ := h
    simp [notify, hl]
  | ranging r len index =>
    obtain ⟨l, hl, -, hlen, -⟩ := h
    by_cases hlt : index < len
    · obtain ⟨f, hf⟩ : ∃ f, l[index]? = some f := ⟨_, List.getElem?_eq_getElem (hlen ▸ hlt)⟩
      simp [notify, hlt, hl, hf]
    · simp [notify, hlt]
  | returned => exact absurd rfl hpc

end Calls

variable {R N F A : Type} [DecidableEq R] [DecidableEq N] {u : Setup R N F A}
  {s t : State R N F A} {acts : List (Act R N)}

-- No call gets stuck.
theorem register_enabled (h : exec (step u) initial acts = some s) {i : R}
    (hpc : s.registrations i ≠ .returned) : (step u s (.register i)).isSome := by
  have hinv := inv_of_exec h
  have hsome := register_isSome (hinv.owned.own_lt i)
    (fun r hr => (hinv.old_settled i r hr).lt_fresh) (hinv.entered i) hpc
  obtain ⟨next, hr⟩ := Option.isSome_iff_exists.mp hsome
  simp [step, hr]

theorem notify_enabled (h : exec (step u) initial acts = some s) {n : N}
    (hpc : (s.notifications n).pc ≠ .returned) : (step u s (.notify n)).isSome := by
  obtain ⟨told, hn⟩ := Option.isSome_iff_exists.mp ((informed_of_exec h n).notify_isSome hpc)
  simp [step, hn]

end NatsClient.Listeners
