import Mathlib.Data.Fintype.Basic
import NatsClient.Lib.Machine
import NatsClient.Graduate.Theorems
import NatsClient.Graduate.Track

namespace NatsClient.Graduate

open Lib.Machine

variable {C A P : Type} {pol : Policy} {s t : State C A P}

-- What holds while the comparison that brought result n + 1 is at a point of its call.
def At (pol : Policy) (s : State C A P) (n : Nat) : ComparePc → Prop
  | .added matched =>
    s.mismatches = mismatchesIn s.outcomes n ∧ s.outcomes[n]? = some matched ∧ Track pol s n n
  | .counted => s.mismatches = mismatchesIn s.outcomes (n + 1) ∧ Track pol s n n
  | .phased =>
    s.mismatches = mismatchesIn s.outcomes (n + 1) ∧ s.leftAt = none ∧ Track pol s n n
  | .boundary samples =>
    s.mismatches = mismatchesIn s.outcomes (n + 1) ∧ s.leftAt = none ∧ Track pol s n n ∧
      samples = n + 1 ∧ (n + 1) % pol.window = 0
  | .failing | .aborting =>
    s.mismatches = mismatchesIn s.outcomes (n + 1) ∧ s.leftAt = none ∧ Track pol s (n + 1) n
  | .passed | .ready | .stepping _ | .resuming =>
    s.mismatches = mismatchesIn s.outcomes (n + 1) ∧ s.leftAt = none ∧
      Track pol s (n + 1) (n + 1)
  | .idle | .returned => False

def ComparePc.resting : ComparePc → Bool
  | idle | returned => true
  | _ => false

-- One comparison at a time.
inductive Serial (pol : Policy) (s : State C A P) : Prop
  | resting (samples : s.samples = s.outcomes.length) (bound : s.outcomes.length < 2 ^ 64)
      (rest : ∀ call, (s.compare call).resting) (completed : s.completed = s.outcomes.length)
      (mismatches : s.mismatches = mismatchesIn s.outcomes s.outcomes.length)
      (track : Track pol s s.outcomes.length s.outcomes.length)
  | working (call : C) (n : Nat) (samples : s.samples = s.outcomes.length)
      (bound : s.outcomes.length < 2 ^ 64)
      (rest : ∀ other, other ≠ call → (s.compare other).resting) (completed : s.completed = n)
      (length : s.outcomes.length = n + 1) (here : At pol s n (s.compare call))

theorem Serial.eachWindowJudged (h : Serial pol s) : EachWindowJudged pol s := by
  cases h with
  | resting samples bound rest completed mismatches track =>
    exact track.eachWindowJudged completed.le
  | working call n samples bound rest completed length here =>
    cases hpc : s.compare call <;> rw [hpc] at here
    case idle | returned => exact here.elim
    case added => exact here.2.2.eachWindowJudged completed.le
    case counted => exact here.2.eachWindowJudged completed.le
    case phased => exact here.2.2.eachWindowJudged completed.le
    case boundary => exact here.2.2.1.eachWindowJudged completed.le
    case failing | aborting => exact here.2.2.eachWindowJudged completed.le
    case passed | ready | stepping | resuming =>
      exact here.2.2.eachWindowJudged (completed.le.trans (Nat.le_succ n))

-- The comparison that is under way.
structure Busy (s : State C A P) (call : C) (n : Nat) : Prop where
  samples : s.samples = n + 1
  bound : n + 1 < 2 ^ 64
  rest : ∀ other, other ≠ call → (s.compare other).resting
  completed : s.completed = n
  length : s.outcomes.length = n + 1

theorem Busy.congr {call : C} {n : Nat} (hb : Busy s call n) (hsamples : t.samples = s.samples)
    (hcompare : t.compare = s.compare) (hcompleted : t.completed = s.completed)
    (houtcomes : t.outcomes = s.outcomes) : Busy t call n where
  samples := hsamples.trans hb.samples
  bound := hb.bound
  rest := hcompare ▸ hb.rest
  completed := hcompleted.trans hb.completed
  length := houtcomes ▸ hb.length

theorem Serial.busy (hs : Serial pol s) {call : C} {pc : ComparePc} (hpc : s.compare call = pc)
    (hresting : pc.resting = false) : ∃ n, Busy s call n ∧ At pol s n pc := by
  subst hpc
  have hpc : ¬ (s.compare call).resting := Bool.not_eq_true _ ▸ hresting
  cases hs with
  | resting samples bound rest completed mismatches track => exact absurd (rest call) hpc
  | working other n samples bound rest completed length here =>
    obtain rfl : call = other := by
      by_contra hne
      exact hpc (rest call hne)
    exact ⟨n, ⟨by omega, by omega, rest, completed, length⟩, here⟩

theorem serial_newGraduate (pol : Policy) : Serial pol (newGraduate pol : State C A P) := by
  have hempty : (newGraduate pol : State C A P).outcomes.length = 0 := rfl
  refine .resting rfl (by rw [hempty]; decide) (fun call => rfl) rfl rfl ?_
  refine .going rfl rfl (Nat.le_refl _) rfl fun m hpos hle => ?_
  omega

variable [DecidableEq C] {call : C} {n : Nat}

theorem Serial.of_goto (hb : Busy s call n) {pc : ComparePc}
    (here : At pol (s.goto call pc) n pc) : Serial pol (s.goto call pc) := by
  refine .working call n ?_ ?_ (fun other hother => ?_) hb.completed hb.length ?_
  · exact hb.samples.trans hb.length.symm
  · exact hb.length ▸ hb.bound
  · rw [goto_of_ne _ _ hother]
    exact hb.rest other hother
  · rwa [goto_self]

theorem Serial.of_finish (hb : Busy s call n)
    (hmismatches : s.mismatches = mismatchesIn s.outcomes (n + 1))
    (htrack : Track pol s (n + 1) (n + 1)) : Serial pol (s.finish call) := by
  have hlength : (s.finish call).outcomes.length = n + 1 := hb.length
  refine .resting ?_ ?_ (fun other => ?_) ?_ ?_ ?_
  · exact hb.samples.trans hb.length.symm
  · exact hb.length ▸ hb.bound
  · by_cases hother : other = call
    · rw [hother, finish_self]
      rfl
    · have hrest := hb.rest other hother
      rwa [← goto_of_ne s .returned hother] at hrest
  · rw [hlength]
    exact congrArg (· + 1) hb.completed
  · rw [hlength]
    exact hmismatches
  · rw [hlength]
    exact htrack.congr rfl rfl rfl rfl

-- A comparison takes its sample while no other one is under way, and the counter does not wrap.
def Alone (s : State C A P) (act : C × Bool) : Prop :=
  s.compare act.1 = .idle → (∀ other, (s.compare other).resting) ∧ s.samples + 1 < 2 ^ 64

instance [Fintype C] (s : State C A P) (act : C × Bool) : Decidable (Alone s act) :=
  inferInstanceAs (Decidable (_ → _))

theorem Serial.sampled {matched : Bool} (hs : Serial pol s)
    (hrest : ∀ other, (s.compare other).resting) (hbound : s.samples + 1 < 2 ^ 64) :
    Serial pol ({ s with
      samples := (s.samples + 1) % 2 ^ 64
      outcomes := s.outcomes ++ [matched] }.goto call (.added matched)) := by
  cases hs with
  | working other n samples bound rest completed length here =>
    have hpc := hrest other
    cases hother : s.compare other <;> rw [hother] at here hpc
    case idle | returned => exact here.elim
    all_goals cases hpc
  | resting samples bound rest completed mismatches track =>
    have hb : Busy { s with
        samples := (s.samples + 1) % 2 ^ 64
        outcomes := s.outcomes ++ [matched] } call s.outcomes.length := by
      refine ⟨?_, samples ▸ hbound, fun other _ => rest other, completed, by simp⟩
      rw [Nat.mod_eq_of_lt hbound, samples]
    refine .of_goto hb ⟨?_, by simp [State.goto], ?_⟩
    · exact mismatches.trans (mismatchesIn_append (Nat.le_refl _) [matched]).symm
    · exact track.sampled rfl [matched] rfl rfl rfl rfl

theorem Serial.move {matched : Bool} (hs : Serial pol s) (ha : Alone s (call, matched))
    (h : CompareMove pol s call matched t) : Serial pol t := by
  cases h with
  | sampled pc => exact hs.sampled (ha pc).1 (ha pc).2
  | agreed pc =>
    obtain ⟨n, hb, hmismatches, hlast, htrack⟩ := hs.busy pc rfl
    have hsame := mismatchesIn_succ hlast
    apply Serial.of_goto (n := n)
    · exact hb.congr rfl rfl rfl rfl
    · exact ⟨hmismatches.trans hsame.symm, htrack.congr rfl rfl rfl rfl⟩
  | differed pc =>
    obtain ⟨n, hb, hmismatches, hlast, htrack⟩ := hs.busy pc rfl
    have hmore := mismatchesIn_succ hlast
    have hle := mismatchesIn_le s.outcomes n
    have hbound := hb.bound
    have hcount : (s.mismatches + 1) % 2 ^ 64 = mismatchesIn s.outcomes (n + 1) := by
      rw [hmismatches, hmore, Nat.mod_eq_of_lt (by omega)]
      rfl
    apply Serial.of_goto (n := n)
    · exact hb.congr rfl rfl rfl rfl
    · exact ⟨hcount, htrack.congr rfl rfl rfl rfl⟩
  | closed pc phase =>
    obtain ⟨n, hb, hmismatches, htrack⟩ := hs.busy pc rfl
    exact .of_finish hb hmismatches (htrack.closed phase)
  | phased pc phase =>
    obtain ⟨n, hb, hmismatches, htrack⟩ := hs.busy pc rfl
    refine .of_goto hb ?_
    exact ⟨hmismatches, htrack.open_of_phase phase, htrack.congr rfl rfl rfl rfl⟩
  | inside pc samples =>
    obtain ⟨n, hb, hmismatches, hopen, htrack⟩ := hs.busy pc rfl
    rw [hb.samples] at samples
    exact .of_finish hb hmismatches
      (htrack.inside hopen (samples.resolve_left (Nat.succ_ne_zero n)))
  | reached pc samples =>
    obtain ⟨n, hb, hmismatches, hopen, htrack⟩ := hs.busy pc rfl
    rw [hb.samples, not_or, not_not] at samples
    refine .of_goto hb ?_
    exact ⟨hmismatches, hopen, htrack.congr rfl rfl rfl rfl, hb.samples, samples.2⟩
  | failed samples pc exceeds =>
    obtain ⟨n, hb, hmismatches, hopen, htrack, rfl, hmod⟩ := hs.busy pc rfl
    have hchecked := htrack.checked hopen hmod hmismatches
    apply Serial.of_goto (n := n)
    · exact hb.congr rfl rfl rfl rfl
    · exact ⟨hmismatches, hopen, hchecked.congr rfl rfl rfl rfl⟩
  | passed samples pc within =>
    obtain ⟨n, hb, hmismatches, hopen, htrack, rfl, hmod⟩ := hs.busy pc rfl
    have hchecked := htrack.checked hopen hmod hmismatches
    have hpassed := hchecked.passed (hmismatches ▸ within)
    apply Serial.of_goto (n := n)
    · exact hb.congr rfl rfl rfl rfl
    · exact ⟨hmismatches, hopen, hpassed.congr rfl rfl rfl rfl⟩
  | reasoned pc =>
    obtain ⟨n, hb, hmismatches, hopen, htrack⟩ := hs.busy pc rfl
    apply Serial.of_goto (n := n)
    · exact hb.congr rfl rfl rfl rfl
    · exact ⟨hmismatches, hopen, htrack.congr rfl rfl rfl rfl⟩
  | aborted pc =>
    obtain ⟨n, hb, hmismatches, hopen, htrack⟩ := hs.busy pc rfl
    refine .of_finish (hb.congr rfl rfl rfl rfl) hmismatches ?_
    exact (htrack.aborted hopen hb.length).congr rfl rfl rfl rfl
  | topped pc rate =>
    obtain ⟨n, hb, hmismatches, hopen, htrack⟩ := hs.busy pc rfl
    refine .of_goto hb ?_
    exact ⟨hmismatches, hopen, htrack.congr rfl rfl rfl rfl⟩
  | stepped pc rate =>
    obtain ⟨n, hb, hmismatches, hopen, htrack⟩ := hs.busy pc rfl
    refine .of_goto hb ?_
    exact ⟨hmismatches, hopen, htrack.congr rfl rfl rfl rfl⟩
  | promoted pc =>
    obtain ⟨n, hb, hmismatches, hopen, htrack⟩ := hs.busy pc rfl
    refine .of_finish (hb.congr rfl rfl rfl rfl) hmismatches ?_
    exact (htrack.promoted hopen hb.length).congr rfl rfl rfl rfl
  | rated next pc =>
    obtain ⟨n, hb, hmismatches, hopen, htrack⟩ := hs.busy pc rfl
    apply Serial.of_goto (n := n)
    · exact hb.congr rfl rfl rfl rfl
    · exact ⟨hmismatches, hopen, htrack.congr rfl rfl rfl rfl⟩
  | resumed pc =>
    obtain ⟨n, hb, hmismatches, hopen, htrack⟩ := hs.busy pc rfl
    refine .of_finish (hb.congr rfl rfl rfl rfl) hmismatches ?_
    exact htrack.congr rfl (htrack.phase_of_open hopen).symm rfl rfl

-- Comparisons only, each with the result that base returns for it.
def compares (pol : Policy) (s : State C A P) (act : C × Bool) : Option (State C A P) :=
  compareStep pol s act.1 act.2

-- Every window is judged once in every run whose comparisons come one after the other.
theorem windows_judged_once (pol : Policy) (acts : List (C × Bool)) (s : State C A P)
    (hexec : exec (compares pol) (newGraduate pol) acts = some s)
    (halong : Along (compares pol) Alone (newGraduate pol : State C A P) acts) :
    EachWindowJudged pol s := by
  have hserial : Serial pol s :=
    halong.invariant (fun s act t hs ha h => hs.move ha (compareStep_move h)) hexec
      (serial_newGraduate pol)
  exact hserial.eachWindowJudged

-- Two comparisons one after the other reach the first boundary, the second with a mismatch.
def sequentialWindow : List (Bool × Bool) :=
  List.replicate 4 (false, true) ++ List.replicate 7 (true, false)

theorem windows_judged_once_sequential :
    ∃ s : State Bool Unit Unit,
      exec (compares smallPolicy) (newGraduate smallPolicy) sequentialWindow = some s ∧
        s.completed = 2 ∧ EachWindowJudged smallPolicy s := by
  refine ⟨_, rfl, rfl, windows_judged_once smallPolicy sequentialWindow _ rfl ?_⟩
  decide

-- The first comparison runs alone; the other two have both taken their sample when the first
-- of them looks at the counter, so that both of them see three samples and nobody sees two.
def skippedWindow : List (Fin 3 × Bool) :=
  List.replicate 4 (0, false) ++ [(1, false), (2, false)] ++ List.replicate 3 (1, false) ++
    List.replicate 3 (2, false)

theorem window_skipped :
    ∃ s : State (Fin 3) Unit Unit,
      exec (compares smallPolicy) (newGraduate smallPolicy) skippedWindow = some s ∧
        s.completed = 3 ∧ s.leftAt = none ∧ s.phase = .ramping ∧
          ¬ EachWindowJudged smallPolicy s := by
  refine ⟨_, rfl, rfl, rfl, rfl, fun hjudged => ?_⟩
  have hfirst := (hjudged 1 (Nat.le_refl 1) (by decide) (fun _ hleft => by cases hleft)).1
  cases hfirst

end NatsClient.Graduate
