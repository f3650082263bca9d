import Mathlib.Data.Fintype.Basic
import NatsClient.Lib.Machine
import NatsClient.Graduate.Moves

namespace NatsClient.Graduate

open Lib.Machine

variable {C A P : Type} {pol : Policy} {s t : State C A P}

-- The call has read the phase and may still store a phase other than Aborted.
def ComparePc.pending : ComparePc → Prop
  | phased | boundary _ | passed | ready | stepping _ | resuming => True
  | _ => False

instance : (pc : ComparePc) → Decidable pc.pending
  | .phased | .boundary _ | .passed | .ready | .stepping _ | .resuming => isTrue trivial
  | .idle | .added _ | .counted | .failing | .aborting | .returned => isFalse id

-- Nobody holds an old reading of the phase.
structure Quiescent (s : State C A P) : Prop where
  compare : ∀ call, ¬ (s.compare call).pending
  promoter : ∀ call, s.promoter call ≠ .loaded

instance [Fintype C] [Fintype P] (s : State C A P) : Decidable (Quiescent s) :=
  decidable_of_iff ((∀ call, ¬ (s.compare call).pending) ∧ ∀ call, s.promoter call ≠ .loaded)
    ⟨fun h => ⟨h.1, h.2⟩, fun h => ⟨h.compare, h.promoter⟩⟩

-- No store of PhaseAborted happens while a call holds an old reading of the phase.
def Undisturbed (s : State C A P) : Act C A P → Prop
  | .compare call _ => s.compare call = .aborting → Quiescent s
  | .abort call _ => s.aborter call = .reasoned → Quiescent s
  | .promote _ => True

instance [Fintype C] [Fintype P] (s : State C A P) :
    (act : Act C A P) → Decidable (Undisturbed s act)
  | .compare _ _ => inferInstanceAs (Decidable (_ → _))
  | .abort _ _ => inferInstanceAs (Decidable (_ → _))
  | .promote _ => isTrue trivial

-- In PhaseAborted nobody holds an old reading.
def Sealed (s : State C A P) : Prop := s.phase = .aborted → Quiescent s

theorem abortStep_sealed [DecidableEq A] {call : A} {reason : String}
    (h : abortStep s call reason = some t) (hs : Sealed s)
    (hu : s.aborter call = .reasoned → Quiescent s) :
    Sealed t ∧ (s.phase = .aborted → t.phase = .aborted) := by
  unfold abortStep at h
  split at h
  · cases h
    exact ⟨fun haborted => ⟨(hs haborted).compare, (hs haborted).promoter⟩, id⟩
  case h_2 hpc =>
    cases h
    exact ⟨fun _ => ⟨(hu hpc).compare, (hu hpc).promoter⟩, fun _ => rfl⟩
  · cases h

theorem promoteStep_sealed [DecidableEq P] {call : P} (h : promoteStep s call = some t)
    (hs : Sealed s) : Sealed t ∧ (s.phase = .aborted → t.phase = .aborted) := by
  unfold promoteStep at h
  split at h
  · cases h
    refine ⟨fun haborted => ⟨(hs haborted).compare, fun p => ?_⟩, id⟩
    have hphase : s.phase = .aborted := haborted
    by_cases hp : p = call
    · subst hp
      simp [hphase]
    · simpa [hp] using (hs haborted).promoter p
  case h_2 hpc =>
    cases h
    exact ⟨nofun, fun haborted => absurd hpc ((hs haborted).promoter call)⟩
  · cases h

variable [DecidableEq C]

theorem Quiescent.of_compare {call : C} {matched : Bool} (hq : Quiescent s)
    (h : CompareMove pol s call matched t) (hcall : ¬ (t.compare call).pending) :
    Quiescent t := by
  refine ⟨fun other => ?_, fun p => ?_⟩
  · by_cases hother : other = call
    · rwa [hother]
    · rw [h.others hother]
      exact hq.compare other
  · rw [h.promoter]
    exact hq.promoter p

-- What the operation of a comparison can do to the phase.
inductive PhaseMove (s : State C A P) (call : C) (t : State C A P) : Prop
  | kept (phase : t.phase = s.phase)
      (reading : s.phase = .aborted → (t.compare call).pending → (s.compare call).pending)
  | stored (old : (s.compare call).pending) (phase : t.phase ≠ .aborted)
  | aborted (pc : s.compare call = .aborting) (phase : t.phase = .aborted)
      (next : ¬ (t.compare call).pending)

theorem CompareMove.phaseMove {call : C} {matched : Bool} (h : CompareMove pol s call matched t) :
    PhaseMove s call t := by
  cases h with
  | phased pc phase => exact .kept rfl fun h => absurd (.inl h) phase
  | reached pc samples => exact .kept rfl fun _ _ => pc ▸ trivial
  | passed samples pc within => exact .kept rfl fun _ _ => pc ▸ trivial
  | aborted pc => exact .aborted pc rfl (by simp [ComparePc.pending])
  | topped pc rate => exact .kept rfl fun _ _ => pc ▸ trivial
  | stepped pc rate => exact .kept rfl fun _ _ => pc ▸ trivial
  | promoted pc =>
    exact .stored (pc ▸ trivial) (by simp [State.storePhase, State.finish, State.goto])
  | rated next pc => exact .kept rfl fun _ _ => pc ▸ trivial
  | resumed pc =>
    exact .stored (pc ▸ trivial) (by simp [State.storePhase, State.finish, State.goto])
  | _ => exact .kept rfl fun _ h => by simp [ComparePc.pending] at h

-- Once nobody holds an old reading, a comparison leaves the abort alone.
theorem CompareMove.sealed {call : C} {matched : Bool} (h : CompareMove pol s call matched t)
    (hs : Sealed s) (hu : s.compare call = .aborting → Quiescent s) :
    Sealed t ∧ (s.phase = .aborted → t.phase = .aborted) := by
  cases h.phaseMove with
  | kept phase reading =>
    refine ⟨fun haborted => ?_, fun haborted => phase.trans haborted⟩
    rw [phase] at haborted
    have hq := hs haborted
    exact hq.of_compare h fun hnext => hq.compare call (reading haborted hnext)
  | stored old phase =>
    exact ⟨fun haborted => absurd haborted phase, fun haborted =>
      absurd old ((hs haborted).compare call)⟩
  | aborted pc phase next =>
    exact ⟨fun _ => (hu pc).of_compare h next, fun _ => phase⟩

variable [DecidableEq A] [DecidableEq P]

theorem step_sealed {a : Act C A P} (h : step pol s a = some t) (hs : Sealed s)
    (hu : Undisturbed s a) : Sealed t ∧ (s.phase = .aborted → t.phase = .aborted) := by
  cases a with
  | compare call matched => exact (compareStep_move h).sealed hs hu
  | abort call reason => exact abortStep_sealed h hs hu
  | promote call => exact promoteStep_sealed h hs

-- An abort is final in every run in which no store of PhaseAborted is disturbed.
theorem abort_final (pol : Policy) (before after : List (Act C A P)) (s t : State C A P)
    (hbefore : exec (step pol) (newGraduate pol) before = some s)
    (hafter : exec (step pol) s after = some t)
    (halong : Along (step pol) Undisturbed (newGraduate pol) (before ++ after))
    (haborted : s.phase = .aborted) : t.phase = .aborted := by
  obtain ⟨hfirst, hsecond⟩ := halong.append hbefore
  have hs : Sealed s :=
    hfirst.invariant (fun s a t hs hu h => (step_sealed h hs hu).1) hbefore nofun
  have hlast : Sealed t ∧ t.phase = .aborted := by
    refine Along.invariant (P := fun u => Sealed u ∧ u.phase = .aborted) (fun s a t hi hu h => ?_)
      hsecond hafter ⟨hs, haborted⟩
    exact ⟨(step_sealed h hi.1 hu).1, (step_sealed h hi.1 hu).2 hi.2⟩
  exact hlast.2

-- Two comparisons a window and a mismatch rate of one in a hundred.
def smallPolicy : Policy where
  window := 2
  window_pos := by decide
  startRate := 50000
  exceeds mismatches samples := samples < 100 * mismatches
  atMax rate := 1000000 ≤ rate
  nextRate rate := rate + 200000

-- An operator aborts before a comparison runs.
theorem abort_final_operator :
    ∃ s t : State Bool Unit Unit, exec (step smallPolicy) (newGraduate smallPolicy)
        [.abort () "operator", .abort () "operator"] = some s ∧
      exec (step smallPolicy) s [.compare true true, .compare true true, .compare true true] =
        some t ∧ s.phase = .aborted ∧ t.phase = .aborted := by
  refine ⟨_, _, rfl, rfl, rfl, abort_final smallPolicy
    [.abort () "operator", .abort () "operator"]
    [.compare true true, .compare true true, .compare true true] _ _ rfl rfl ?_ rfl⟩
  decide

-- The evaluation of the second comparison has passed its checks when the operator aborts.
def overlappingAbort : List (Act Bool Unit Unit) :=
  List.replicate 4 (.compare false true) ++ List.replicate 7 (.compare true true) ++
    List.replicate 2 (.abort () "operator")

theorem abort_overwritten :
    (exec (step smallPolicy) (newGraduate smallPolicy) overlappingAbort).map State.phase =
        some .aborted ∧
      (exec (step smallPolicy) (newGraduate smallPolicy)
        (overlappingAbort ++ [.compare true true])).map State.phase = some .ramping := by
  decide

end NatsClient.Graduate
