import NatsClient.Idempotency

namespace NatsClient.Idempotency

variable {ι : Type} [DecidableEq ι] {inv : Invocations ι} {s t : State ι}

section Store

variable {b next : Bucket} {id : String} {fault : Fault}

-- The bucket after an operation that reported an error: as before, or with the
-- effect where the error came after it.
def Touched (b : Bucket) (id : String) (value : Option Bytes) (fault : Fault) (next : Bucket) :
    Prop :=
  next = b ∨ ((∃ e, fault = .applied e) ∧ next = Function.update b id value)

theorem seen_ok_true (h : seen b id fault = .ok true) :
    ∃ value, b id = some value ∧ isDoneValue value = true := by
  unfold seen at h
  split at h
  · cases h
  · split at h
    next value hget =>
      refine ⟨value, ?_, by simpa using h⟩
      unfold kvGet at hget
      split at hget
      · cases hget
      · cases hget
      · split at hget
        next found hb => rw [hb]; cases hget; rfl
        next => cases hget
    next e hget => split_ifs at h; cases h

theorem claim_ok_true (h : claim b id fault = (next, .ok true)) :
    validateKVKey id = none ∧ b id = none ∧ fault = .none ∧
      next = Function.update b id (some pendingValue) := by
  unfold claim at h
  split at h
  · cases h
  next hvalid =>
    refine ⟨hvalid, ?_⟩
    cases hb : b id with
    | some value => cases fault <;> simp [kvCreate, hb, Fault.after] at h <;> grind
    | none => cases fault <;> simp [kvCreate, hb, Fault.after] at h <;> grind

theorem claim_other {result : Except GoError Bool} (h : claim b id fault = (next, result))
    (hr : result ≠ .ok true) :
    Touched b id (some pendingValue) fault next ∧ (next ≠ b → b id = none) := by
  unfold claim at h
  split at h
  · cases h
    exact ⟨.inl rfl, by simp⟩
  · cases hb : b id with
    | some value =>
      refine ⟨.inl ?_, ?_⟩ <;>
      cases fault <;> simp [kvCreate, hb, Fault.after] at h <;> grind
    | none =>
      refine ⟨?_, fun _ => rfl⟩
      cases fault <;> simp [kvCreate, hb, Fault.after] at h <;> grind [Touched]

theorem mark_none (h : mark b id fault = (next, none)) :
    fault = .none ∧ next = Function.update b id (some doneValue) := by
  unfold mark at h
  split at h
  · cases h
  · cases fault <;> simp [kvPut, Fault.after] at h
    exact ⟨rfl, h.symm⟩

theorem mark_some {e : GoError} (h : mark b id fault = (next, some e)) :
    Touched b id (some doneValue) fault next ∧ (fault = .none → validateKVKey id ≠ none) := by
  unfold mark at h
  split at h
  next e hv =>
    cases h
    exact ⟨.inl rfl, fun _ => by rw [hv]; simp⟩
  · cases fault <;> simp [kvPut, Fault.after] at h
    · exact ⟨.inl h.1.symm, by simp⟩
    · exact ⟨.inr ⟨⟨_, rfl⟩, h.1.symm⟩, by simp⟩

-- A release that takes effect empties the key, whatever it holds.
theorem release_fst (b : Bucket) (id : String) (fault : Fault) :
    (release b id fault).1 =
      if validateKVKey id = none ∧ fault.takesEffect then Function.update b id none else b := by
  unfold release
  cases validateKVKey id with
  | some e => simp
  | none =>
    cases fault with
    | none => simp [kvPurge, Fault.after, Fault.takesEffect]
    | failed e => simp only [kvPurge, Fault.after]; split_ifs <;> simp_all [Fault.takesEffect]
    | applied e => simp only [kvPurge, Fault.after]; split_ifs <;> simp_all [Fault.takesEffect]

end Store

-- Everything one step can do.
inductive Move (inv : Invocations ι) (s : State ι) : Act ι → State ι → Prop
  | bare {i fault} (hpc : s.pc i = .start) (hid : inv.id i = "") :
      Move inv s (.store i fault) (s.goto i (.running .bare))
  | won {i} (hpc : s.pc i = .start) (hid : inv.id i ≠ "") (hc : inv.claims = true)
      (hv : validateKVKey (inv.id i) = none) (hb : s.bucket (inv.id i) = none) :
      Move inv s (.store i .none)
        ((s.write (Function.update s.bucket (inv.id i) (some pendingValue))).goto i
          (.running .claimed))
  | lost {i fault b pc} (hpc : s.pc i = .start) (hid : inv.id i ≠ "") (hc : inv.claims = true)
      (hb : Touched s.bucket (inv.id i) (some pendingValue) fault b)
      (hn : b ≠ s.bucket → s.bucket (inv.id i) = none)
      (hp : pc = .lookup ∨ ∃ e, pc = .returned (some e)) :
      Move inv s (.store i fault) ((s.write b).goto i pc)
  | peeked {i fault} (hpc : s.pc i = .start) (hid : inv.id i ≠ "") (hc : inv.claims = false) :
      Move inv s (.store i fault) (s.goto i (.running .plain))
  | found {i fault value} (hpc : s.pc i = .start ∨ s.pc i = .lookup)
      (hb : s.bucket (inv.id i) = some value) (hd : isDoneValue value = true) :
      Move inv s (.store i fault) (s.goto i (.returned none))
  | refused {i fault e} (hpc : s.pc i = .start ∨ s.pc i = .lookup) :
      Move inv s (.store i fault) (s.goto i (.returned (some e)))
  | marked {i guard} (hpc : s.pc i = .marking guard) :
      Move inv s (.store i .none)
        ((s.write (Function.update s.bucket (inv.id i) (some doneValue))).goto i (.returned none))
  | unmarked {i fault b guard pc} (hpc : s.pc i = .marking guard)
      (hb : Touched s.bucket (inv.id i) (some doneValue) fault b)
      (hf : fault = .none → validateKVKey (inv.id i) ≠ none)
      (hp : (guard = .claimed ∧ ∃ e context, pc = .releasing e context) ∨
        (guard ≠ .claimed ∧ ∃ e, pc = .returned (some e))) :
      Move inv s (.store i fault) ((s.write b).goto i pc)
  | released {i fault cause context e} (hpc : s.pc i = .releasing cause context) :
      Move inv s (.store i fault)
        ((s.write (release s.bucket (inv.id i) fault).1).goto i (.returned (some e)))
  | panicked {i guard value} (hpc : s.pc i = .running guard) :
      Move inv s (.finish i (.panicked value)) (s.goto i .panicked)
  | succeeded {i guard pc} (hpc : s.pc i = .running guard)
      (hp : (guard = .bare ∧ pc = .returned none) ∨ (guard ≠ .bare ∧ pc = .marking guard)) :
      Move inv s (.finish i (.returned none))
        ({ s with handled := inv.id i :: s.handled }.goto i pc)
  | errored {i guard e pc} (hpc : s.pc i = .running guard)
      (hp : (guard = .claimed ∧ ∃ context, pc = .releasing e context) ∨
        (guard ≠ .claimed ∧ pc = .returned (some e))) :
      Move inv s (.finish i (.returned (some e))) (s.goto i pc)
  | expired {key} : Move inv s (.expire key) (s.write (Function.update s.bucket key none))

theorem storeStep_move {i : ι} {fault : Fault} (h : storeStep inv s i fault = some t) :
    Move inv s (.store i fault) t := by
  unfold storeStep at h
  cases hpc : s.pc i with
  | start =>
    simp only [hpc] at h
    split_ifs at h with hid hc
    · cases h; exact .bare hpc hid
    · cases hcl : claim s.bucket (inv.id i) fault with
      | mk b result =>
        simp only [hcl] at h
        cases result with
        | error e =>
          cases h
          obtain ⟨hb, hn⟩ := claim_other hcl (by simp)
          exact .lost hpc hid hc hb hn (.inr ⟨e, rfl⟩)
        | ok acquired =>
          cases acquired with
          | true =>
            cases h
            obtain ⟨hv, hnone, rfl, rfl⟩ := claim_ok_true hcl
            exact .won hpc hid hc hv hnone
          | false =>
            cases h
            obtain ⟨hb, hn⟩ := claim_other hcl (by simp)
            exact .lost hpc hid hc hb hn (.inl rfl)
    · have hc : inv.claims = false := by simpa using hc
      cases hs : seen s.bucket (inv.id i) fault with
      | error e => simp only [hs] at h; cases h; exact .refused (.inl hpc)
      | ok done =>
        simp only [hs] at h
        cases done with
        | true =>
          cases h
          obtain ⟨value, hb, hd⟩ := seen_ok_true hs
          exact .found (.inl hpc) hb hd
        | false => cases h; exact .peeked hpc hid hc
  | lookup =>
    simp only [hpc] at h
    cases hs : seen s.bucket (inv.id i) fault with
    | error e => simp only [hs] at h; cases h; exact .refused (.inr hpc)
    | ok done =>
      simp only [hs] at h
      cases done with
      | true =>
        cases h
        obtain ⟨value, hb, hd⟩ := seen_ok_true hs
        exact .found (.inr hpc) hb hd
      | false => cases h; exact .refused (.inr hpc)
  | marking guard =>
    simp only [hpc] at h
    cases hm : mark s.bucket (inv.id i) fault with
    | mk b err =>
      simp only [hm] at h
      cases err with
      | none =>
        obtain ⟨rfl, rfl⟩ := mark_none hm
        cases guard <;> cases h <;> exact .marked hpc
      | some e =>
        obtain ⟨hb, hf⟩ := mark_some hm
        cases guard with
        | claimed => cases h; exact .unmarked hpc hb hf (.inl ⟨rfl, e, _, rfl⟩)
        | bare => cases h; exact .unmarked hpc hb hf (.inr ⟨by simp, e, rfl⟩)
        | plain => cases h; exact .unmarked hpc hb hf (.inr ⟨by simp, e, rfl⟩)
  | releasing cause context =>
    simp only [hpc] at h
    cases hr : release s.bucket (inv.id i) fault with
    | mk b err =>
      have hb : b = (release s.bucket (inv.id i) fault).1 := by rw [hr]
      simp only [hr] at h
      cases err with
      | none => cases h; rw [hb]; exact .released hpc
      | some e => cases h; rw [hb]; exact .released hpc
  | running guard => simp [hpc] at h
  | returned err => simp [hpc] at h
  | panicked => simp [hpc] at h

theorem finishStep_move {i : ι} {outcome : Outcome} (h : finishStep inv s i outcome = some t) :
    Move inv s (.finish i outcome) t := by
  unfold finishStep at h
  cases hpc : s.pc i with
  | running guard =>
    simp only [hpc] at h
    cases outcome with
    | panicked value => cases h; exact .panicked hpc
    | returned err =>
      cases err with
      | none => cases guard <;> cases h <;> exact .succeeded hpc (by simp)
      | some e =>
        cases guard with
        | claimed => cases h; exact .errored hpc (.inl ⟨rfl, _, rfl⟩)
        | bare => cases h; exact .errored hpc (.inr ⟨by simp, rfl⟩)
        | plain => cases h; exact .errored hpc (.inr ⟨by simp, rfl⟩)
  | _ => simp [hpc] at h

theorem step_move {a : Act ι} (h : step inv s a = some t) : Move inv s a t := by
  cases a with
  | store i fault => exact storeStep_move h
  | finish i outcome => exact finishStep_move h
  | expire key => cases h; exact .expired

end NatsClient.Idempotency
