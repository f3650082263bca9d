import NatsClient.Incident
import NatsClient.Lib.Machine
import Mathlib.Data.Fintype.Basic
import Mathlib.Tactic.SplitIfs

namespace NatsClient.Incident

open Lib.Machine

variable {ι R F K : Type} {calls : ι → Callback} {s t : State ι R F K}

-- The stream, the consumer and the sequence of a DLQ event.
structure DlqEvent where
  stream : String
  consumer : String
  seq : Nat

def Callback.dlq? : Callback → Option DlqEvent
  | recordDLQ _ stream consumer _ seq => some ⟨stream, consumer, seq⟩
  | recordDLQAutopsy _ stream consumer _ _ seq => some ⟨stream, consumer, seq⟩
  | _ => none

-- The names of the event stand in the fields.
def Named (event : DlqEvent) (stream consumer : String) : Prop :=
  (event.stream ≠ "" → stream = event.stream) ∧
    (event.consumer ≠ "" → consumer = event.consumer)

-- Every Capture for a DLQ event is about that event.
def Attributed (calls : ι → Callback) (s : State ι R F K) : Prop :=
  ∀ entry ∈ s.captured, ∀ event, (calls entry.1).dlq? = some event →
    Named event entry.2.stream entry.2.consumer ∧ entry.2.failingSeq = event.seq

-- A callback that parks its names does not overwrite those that a DLQ event has parked
-- and not yet read back.
def Undisturbed (calls : ι → Callback) (s : State ι R F K) : Act ι K → Prop
  | .run j => s.pc j = .start → ∀ i, s.pc i = .capture → ∀ event ∈ (calls i).dlq?,
      (event.stream ≠ "" → (calls j).names.1 = "" ∨ (calls j).names.1 = event.stream) ∧
        (event.consumer ≠ "" → (calls j).names.2 = "" ∨ (calls j).names.2 = event.consumer)
  | .answer _ _ => True

instance [Fintype ι] (a : Act ι K) : Decidable (Undisturbed calls s a) := by
  cases a <;> unfold Undisturbed <;> infer_instance

theorem Callback.names_of_dlq {c : Callback} {event : DlqEvent} (h : c.dlq? = some event) :
    c.names = (event.stream, event.consumer) ∧ c.request.seq = event.seq := by
  cases c <;> cases h <;> exact ⟨rfl, rfl⟩

-- What a DLQ event has parked is there until it reads it back.
structure Kept (calls : ι → Callback) (s : State ι R F K) : Prop where
  parked : ∀ i event, s.pc i = .capture → (calls i).dlq? = some event →
    Named event s.auto.stream s.auto.durable
  attributed : Attributed calls s

theorem kept_initial (a : CapsuleAuto R F) : Kept calls (initial a : State ι R F K) :=
  ⟨fun _ _ hpc => (by cases hpc), fun _ hentry => (by cases hentry)⟩

-- Parking keeps a name that it agrees with.
theorem named_park {a : CapsuleAuto R F} {event : DlqEvent} {names : String × String}
    (h : Named event a.stream a.durable)
    (hagree : (event.stream ≠ "" → names.1 = "" ∨ names.1 = event.stream) ∧
      (event.consumer ≠ "" → names.2 = "" ∨ names.2 = event.consumer)) :
    Named event (a.park names).stream (a.park names).durable := by
  constructor
  · intro hne
    simp only [CapsuleAuto.park]
    split_ifs with hempty
    · exact h.1 hne
    · exact (hagree.1 hne).resolve_left hempty
  · intro hne
    simp only [CapsuleAuto.park]
    split_ifs with hempty
    · exact h.2 hne
    · exact (hagree.2 hne).resolve_left hempty

theorem agrees_of_parked {old name own : String} (h : (if name = "" then old else name) = own) :
    name = "" ∨ name = own := by
  split_ifs at h with hempty
  · exact .inl hempty
  · exact .inr h

theorem named_own {a : CapsuleAuto R F} {event : DlqEvent} :
    Named event (a.park (event.stream, event.consumer)).stream
      (a.park (event.stream, event.consumer)).durable :=
  ⟨fun hne => if_neg hne, fun hne => if_neg hne⟩

variable [DecidableEq ι]

-- Everything a step can do.
inductive Move (calls : ι → Callback) (s : State ι R F K) : Act ι K → State ι R F K → Prop
  | parked {i} (h : s.pc i = .start) : Move calls s (.run i)
      { s with auto := s.auto.park (calls i).names, pc := Function.update s.pc i .capture }
  | captured {i} (h : s.pc i = .capture) (hcaptures : s.auto.captures = true) :
      Move calls s (.run i)
        { s with
          captured := s.captured ++ [(i, s.auto.incidentCapture (calls i).request)]
          pc := Function.update s.pc i .answer }
  | skipped {i} (h : s.pc i = .capture) : Move calls s (.run i)
      { s with pc := Function.update s.pc i .done }
  | answered {i capsule ready} (h : s.pc i = .answer) : Move calls s (.answer i capsule)
      { s with ready := ready, pc := Function.update s.pc i .done }

theorem step_move {a : Act ι K} (h : step calls s a = some t) : Move calls s a t := by
  cases a with
  | run i =>
    cases hpc : s.pc i with
    | start =>
      simp only [step, hpc] at h
      cases h
      exact .parked hpc
    | capture =>
      simp only [step, hpc] at h
      split_ifs at h with hcaptures <;> cases h
      · exact .captured hpc hcaptures
      · exact .skipped hpc
    | _ =>
      simp only [step, hpc] at h
      cases h
  | answer i capsule =>
    cases hpc : s.pc i with
    | answer =>
      simp only [step, hpc] at h
      cases h
      exact .answered hpc
    | _ =>
      simp only [step, hpc] at h
      cases h

-- Only the callback that moves can come to the point of reading.
theorem capture_of_update {i j : ι} {pc : Pc} (hpc : pc ≠ .capture)
    (h : Function.update s.pc j pc i = .capture) : s.pc i = .capture := by
  by_cases hij : i = j
  · subst hij
    rw [Function.update_self] at h
    exact absurd h hpc
  · rwa [Function.update_of_ne hij] at h

theorem Kept.step (hs : Kept calls s) {a : Act ι K} (hu : Undisturbed calls s a)
    (h : step calls s a = some t) : Kept calls t := by
  cases step_move h with
  | @parked j hj =>
    refine ⟨fun i event hpc hevent => ?_, hs.attributed⟩
    by_cases hij : i = j
    · subst hij
      simp only [(Callback.names_of_dlq hevent).1]
      exact named_own
    · have hpc' : s.pc i = .capture := by
        simpa only [Function.update_of_ne hij] using hpc
      exact named_park (hs.parked i event hpc' hevent) (hu hj i hpc' event hevent)
  | @captured j hj hcaptures =>
    refine ⟨fun i event hpc => hs.parked i event (capture_of_update (by decide) hpc), ?_⟩
    intro entry hentry event hevent
    rcases List.mem_append.mp hentry with hold | hnew
    · exact hs.attributed entry hold event hevent
    · obtain rfl := List.mem_singleton.mp hnew
      exact ⟨hs.parked j event hj hevent, (Callback.names_of_dlq hevent).2⟩
  | skipped hj =>
    exact ⟨fun i event hpc => hs.parked i event (capture_of_update (by decide) hpc),
      hs.attributed⟩
  | answered hj =>
    exact ⟨fun i event hpc => hs.parked i event (capture_of_update (by decide) hpc),
      hs.attributed⟩

theorem step_captures {a : Act ι K} (h : step calls s a = some t) :
    t.auto.captures = s.auto.captures := by
  cases step_move h <;> rfl

theorem misattributed_of_capture {i : ι} {event : DlqEvent} (hi : s.pc i = .capture)
    (hcaptures : s.auto.captures = true) (hevent : (calls i).dlq? = some event)
    (hnot : ¬ Named event s.auto.stream s.auto.durable) :
    ∃ u, Reaches (step calls) s u ∧ ¬ Attributed calls u := by
  have hstep : step calls s (.run i) = some { s with
      captured := s.captured ++ [(i, s.auto.incidentCapture (calls i).request)]
      pc := Function.update s.pc i .answer } := by
    simp only [step, hi, if_pos hcaptures]
  refine ⟨_, .single hstep, fun hattributed => hnot ?_⟩
  exact (hattributed _ (List.mem_append_right _ (List.mem_singleton_self _)) event hevent).1

-- A name that is overwritten while it is parked goes into the capsule of the wrong event.
theorem misattributed_of_disturbed {a : Act ι K} (hcaptures : s.auto.captures = true)
    (hu : ¬ Undisturbed calls s a) (h : step calls s a = some t) :
    ∃ u, Reaches (step calls) t u ∧ ¬ Attributed calls u := by
  cases a with
  | answer i capsule => exact absurd trivial hu
  | run j =>
    simp only [Undisturbed, Classical.not_forall] at hu
    obtain ⟨hj, i, hi, event, hevent, hnot⟩ := hu
    have hij : i ≠ j := by
      rintro rfl
      rw [hj] at hi
      cases hi
    simp only [step, hj, Option.some.injEq] at h
    subst h
    refine misattributed_of_capture (i := i) ?_ hcaptures hevent fun hnamed => hnot ?_
    · simpa only [Function.update_of_ne hij] using hi
    · exact ⟨fun hne => agrees_of_parked (hnamed.1 hne),
        fun hne => agrees_of_parked (hnamed.2 hne)⟩

-- Every capsule belongs to the event that triggered it as long as no callback overwrites
-- the names of a DLQ event between its two critical sections; where one does, the run can
-- go on to a capsule of the wrong stream or consumer.
theorem capture_attributed (calls : ι → Callback) (auto : CapsuleAuto R F) (acts : List (Act ι K))
    {s : State ι R F K} (h : exec (step calls) (initial auto) acts = some s) :
    (Along (step calls) (Undisturbed calls) (initial auto) acts → Attributed calls s) ∧
      (auto.captures = true → ∀ a t, ¬ Undisturbed calls s a → step calls s a = some t →
        ∃ u, Reaches (step calls) t u ∧ ¬ Attributed calls u) := by
  constructor
  · intro halong
    exact (halong.invariant (P := Kept calls) (fun _ _ _ hs hu hstep => hs.step hu hstep) h
      (kept_initial auto)).attributed
  · intro hcaptures a t
    have hsame : s.auto.captures = auto.captures :=
      Reaches.invariant (P := fun u => u.auto.captures = auto.captures)
        (fun _ _ _ hs hstep => (step_captures hstep).trans hs) ⟨acts, h⟩ rfl
    exact misattributed_of_disturbed (hsame.trans hcaptures)

-- Two handlers of different streams share one CapsuleAuto.
def twoHandlers : Bool → Callback
  | false => .recordDLQ "orders.new" "ORDERS" "worker" "max deliver" 5
  | true => .recordDLQ "users.new" "USERS" "mailer" "handler error" 9

def sharedAuto : CapsuleAuto Unit Unit :=
  newCapsuleAuto () true "ORDERS" "worker" ⟨"", "", 0, none, false, none, true⟩

theorem capture_attributed_one_by_one :
    ∃ s : State Bool Unit Unit Unit,
      exec (step twoHandlers) (initial sharedAuto)
        [.run false, .run false, .run true, .run true] = some s ∧
      s.captured.map (fun entry => (entry.2.stream, entry.2.failingSeq)) =
        [("ORDERS", 5), ("USERS", 9)] ∧ Attributed twoHandlers s := by
  have hexec := rfl (a := exec (step twoHandlers)
    (initial sharedAuto : State Bool Unit Unit Unit) [.run false, .run false, .run true, .run true])
  exact ⟨_, hexec, rfl, (capture_attributed twoHandlers sharedAuto _ hexec).1 (by decide)⟩

-- Both have parked their names before the first of them reads.
theorem capture_of_other_stream :
    ∃ s : State Bool Unit Unit Unit,
      exec (step twoHandlers) (initial sharedAuto) [.run false, .run true, .run false] = some s ∧
      s.captured.map (fun entry => (entry.1, entry.2.stream, entry.2.consumer, entry.2.failingSeq)) =
        [(false, "USERS", "mailer", 5)] ∧ ¬ Attributed twoHandlers s := by
  refine ⟨_, rfl, rfl, fun hattributed => ?_⟩
  have hnamed :=
    (hattributed _ (List.mem_singleton_self _) ⟨"ORDERS", "worker", 5⟩ rfl).1.1 (by decide)
  exact absurd hnamed (by decide)

end NatsClient.Incident
