import Mathlib.Data.List.Range
import NatsClient.Graduate

namespace NatsClient.Graduate

variable {C A P : Type} {pol : Policy} {s t : State C A P} {outcomes : List Bool}

-- The mismatches among the first n results.
def mismatchesIn (outcomes : List Bool) (n : Nat) : Nat := (outcomes.take n).count false

theorem mismatchesIn_succ {n : Nat} {matched : Bool} (h : outcomes[n]? = some matched) :
    mismatchesIn outcomes (n + 1) = mismatchesIn outcomes n + if matched then 0 else 1 := by
  unfold mismatchesIn
  rw [List.take_add_one, h, Option.toList_some, List.count_append]
  cases matched <;> simp

theorem mismatchesIn_append {n : Nat} (h : n ≤ outcomes.length) (more : List Bool) :
    mismatchesIn (outcomes ++ more) n = mismatchesIn outcomes n := by
  unfold mismatchesIn
  rw [List.take_append_of_le_length h]

theorem mismatchesIn_le (outcomes : List Bool) (n : Nat) : mismatchesIn outcomes n ≤ n :=
  List.count_le_length.trans (List.length_take_le n outcomes)

-- The checks that the first n results call for, with the mismatches up to each boundary.
def due (pol : Policy) (outcomes : List Bool) : Nat → List (Nat × Nat)
  | 0 => []
  | n + 1 =>
    if (n + 1) % pol.window = 0 then
      due pol outcomes n ++ [(n + 1, mismatchesIn outcomes (n + 1))]
    else due pol outcomes n

theorem due_append {n : Nat} (h : n ≤ outcomes.length) (more : List Bool) :
    due pol (outcomes ++ more) n = due pol outcomes n := by
  induction n with
  | zero => rfl
  | succ n ih => rw [due, due, ih (by omega), mismatchesIn_append h]

theorem le_of_mem_due {n : Nat} {check : Nat × Nat} (h : check ∈ due pol outcomes n) :
    check.1 ≤ n := by
  induction n with
  | zero => cases h
  | succ n ih =>
    unfold due at h
    split_ifs at h
    · rw [List.mem_append, List.mem_singleton] at h
      obtain h | rfl := h
      · exact (ih h).trans (Nat.le_succ n)
      · exact Nat.le_refl _
    · exact (ih h).trans (Nat.le_succ n)

-- Each boundary is in the list once.
theorem filter_due {n k : Nat} (hk : 1 ≤ k) (hle : k * pol.window ≤ n) :
    (due pol outcomes n).filter (fun check => check.1 = k * pol.window) =
      [(k * pol.window, mismatchesIn outcomes (k * pol.window))] := by
  induction n with
  | zero =>
    have hpos := Nat.mul_pos hk pol.window_pos
    omega
  | succ n ih =>
    by_cases hlast : k * pol.window = n + 1
    · have hnone : (due pol outcomes n).filter (fun check => check.1 = n + 1) = [] := by
        rw [List.filter_eq_nil_iff]
        intro check hmem heq
        have hcheck := le_of_mem_due hmem
        have heq : check.1 = n + 1 := of_decide_eq_true heq
        omega
      have hboundary : (n + 1) % pol.window = 0 := hlast ▸ Nat.mul_mod_left k pol.window
      rw [hlast, due, if_pos hboundary, List.filter_append, hnone]
      simp
    · have hrest := ih (by omega)
      unfold due
      split_ifs
      · rw [List.filter_append, hrest]
        simp [Ne.symm hlast]
      · exact hrest

-- Where the canary stands: the checks of the first `checked` results have been made, and those
-- of the first n have been acted on.
inductive Track (pol : Policy) (s : State C A P) (checked n : Nat) : Prop
  | going (leftAt : s.leftAt = none) (phase : s.phase = .ramping) (le : n ≤ checked)
      (judged : s.judged = due pol s.outcomes checked)
      (within : ∀ m, 0 < m → m ≤ n → m % pol.window = 0 →
        pol.exceeds (mismatchesIn s.outcomes m) m = false)
  | left (last : Nat) (leftAt : s.leftAt = some last) (le : last ≤ n)
      (phase : s.phase = .aborted ∨ s.phase = .promoteReady)
      (judged : s.judged = due pol s.outcomes last)
      (failed : ∀ m, 0 < m → m ≤ last → m % pol.window = 0 →
        pol.exceeds (mismatchesIn s.outcomes m) m = true → s.phase = .aborted)

-- Every boundary that the completed comparisons reach has been checked once, with the true
-- number of mismatches, unless the phase was left before; and where the rate is exceeded
-- there, the canary is aborted.
def EachWindowJudged (pol : Policy) (s : State C A P) : Prop :=
  ∀ k, 1 ≤ k → k * pol.window ≤ s.completed →
    (∀ last, s.leftAt = some last → k * pol.window ≤ last) →
    s.judged.filter (fun check => check.1 = k * pol.window) =
        [(k * pol.window, mismatchesIn s.outcomes (k * pol.window))] ∧
      (pol.exceeds (mismatchesIn s.outcomes (k * pol.window)) (k * pol.window) = true →
        s.phase = .aborted)

theorem Track.eachWindowJudged {checked n : Nat} (h : Track pol s checked n)
    (hn : s.completed ≤ n) : EachWindowJudged pol s := by
  intro k hk hle hleft
  have hpos : 0 < k * pol.window := Nat.mul_pos hk pol.window_pos
  have hmod : k * pol.window % pol.window = 0 := Nat.mul_mod_left k pol.window
  cases h with
  | going leftAt phase le judged within =>
    rw [judged, filter_due hk (by omega), within _ hpos (by omega) hmod]
    exact ⟨rfl, nofun⟩
  | left last leftAt le phase judged failed =>
    have hlast := hleft last leftAt
    rw [judged, filter_due hk hlast]
    exact ⟨rfl, failed _ hpos hlast hmod⟩

theorem Track.congr {checked n : Nat} (h : Track pol s checked n) (hleft : t.leftAt = s.leftAt)
    (hphase : t.phase = s.phase) (hjudged : t.judged = s.judged)
    (houtcomes : t.outcomes = s.outcomes) : Track pol t checked n := by
  cases h with
  | going leftAt phase le judged within =>
    refine .going (hleft.trans leftAt) (hphase.trans phase) le ?_ ?_
    · rw [hjudged, houtcomes, judged]
    · rwa [houtcomes]
  | left last leftAt le phase judged failed =>
    refine .left last (hleft.trans leftAt) le (hphase ▸ phase) ?_ ?_
    · rw [hjudged, houtcomes, judged]
    · rwa [houtcomes, hphase]

-- One more result changes nothing in what is due before it.
theorem Track.sampled {n : Nat} (h : Track pol s n n) (hn : n = s.outcomes.length)
    (more : List Bool) (hleft : t.leftAt = s.leftAt) (hphase : t.phase = s.phase)
    (hjudged : t.judged = s.judged) (houtcomes : t.outcomes = s.outcomes ++ more) :
    Track pol t n n := by
  cases h with
  | going leftAt phase le judged within =>
    refine .going (hleft.trans leftAt) (hphase.trans phase) le ?_ fun m hpos hle hmod => ?_
    · rw [hjudged, houtcomes, judged, due_append hn.le]
    · rw [houtcomes, mismatchesIn_append (hn ▸ hle)]
      exact within m hpos hle hmod
  | left last leftAt le phase judged failed =>
    refine .left last (hleft.trans leftAt) le (hphase ▸ phase) ?_ fun m hpos hle hmod => ?_
    · rw [hjudged, houtcomes, judged, due_append (hn ▸ le)]
    · rw [houtcomes, mismatchesIn_append (hn ▸ hle.trans le), hphase]
      exact failed m hpos hle hmod

theorem Track.open_of_phase {checked n : Nat} (h : Track pol s checked n)
    (hphase : ¬ (s.phase = .aborted ∨ s.phase = .promoteReady)) : s.leftAt = none := by
  cases h with
  | going leftAt phase le judged within => exact leftAt
  | left last leftAt le phase judged failed => exact absurd phase hphase

-- After the phase has been left nothing more is due.
theorem Track.closed {n : Nat} (h : Track pol s n n)
    (hphase : s.phase = .aborted ∨ s.phase = .promoteReady) : Track pol s (n + 1) (n + 1) := by
  cases h with
  | going leftAt phase le judged within =>
    rw [phase] at hphase
    obtain hphase | hphase := hphase <;> cases hphase
  | left last leftAt le phase judged failed =>
    exact .left last leftAt (le.trans (Nat.le_succ n)) phase judged failed

-- A result inside a window.
theorem Track.inside {n : Nat} (h : Track pol s n n) (hopen : s.leftAt = none)
    (hmod : (n + 1) % pol.window ≠ 0) : Track pol s (n + 1) (n + 1) := by
  cases h with
  | going leftAt phase le judged within =>
    refine .going leftAt phase (Nat.le_refl _) ?_ fun m hpos hle hboundary => ?_
    · rw [judged, due, if_neg hmod]
    · obtain hle | rfl := Nat.le_succ_iff.mp hle
      · exact within m hpos hle hboundary
      · exact absurd hboundary hmod
  | left last leftAt le phase judged failed =>
    rw [hopen] at leftAt
    cases leftAt

-- The check of a boundary.
theorem Track.checked {n : Nat} (h : Track pol s n n) (hopen : s.leftAt = none)
    (hmod : (n + 1) % pol.window = 0)
    (hmismatches : s.mismatches = mismatchesIn s.outcomes (n + 1)) :
    Track pol { s with judged := s.judged ++ [(n + 1, s.mismatches)] } (n + 1) n := by
  cases h with
  | going leftAt phase le judged within =>
    refine .going leftAt phase (Nat.le_succ n) ?_ within
    show s.judged ++ [(n + 1, s.mismatches)] = due pol s.outcomes (n + 1)
    rw [judged, hmismatches, due, if_pos hmod]
  | left last leftAt le phase judged failed =>
    rw [hopen] at leftAt
    cases leftAt

theorem Track.passed {n : Nat} (h : Track pol s (n + 1) n)
    (hwithin : pol.exceeds (mismatchesIn s.outcomes (n + 1)) (n + 1) = false) :
    Track pol s (n + 1) (n + 1) := by
  cases h with
  | going leftAt phase le judged within =>
    refine .going leftAt phase (Nat.le_refl _) judged fun m hpos hle hmod => ?_
    obtain hle | rfl := Nat.le_succ_iff.mp hle
    · exact within m hpos hle hmod
    · exact hwithin
  | left last leftAt le phase judged failed =>
    exact .left last leftAt (le.trans (Nat.le_succ n)) phase judged failed

-- The store of Aborted after a failed check.
theorem Track.aborted {n : Nat} (h : Track pol s (n + 1) n) (hopen : s.leftAt = none)
    (hlength : s.outcomes.length = n + 1) :
    Track pol (s.storePhase .aborted) (n + 1) (n + 1) := by
  cases h with
  | going leftAt phase le judged within =>
    refine .left (n + 1) ?_ (Nat.le_refl _) (.inl rfl) judged fun _ _ _ _ _ => rfl
    simp [State.storePhase, hopen, hlength]
  | left last leftAt le phase judged failed =>
    rw [hopen] at leftAt
    cases leftAt

-- The store of PromoteReady after a passed check.
theorem Track.promoted {n : Nat} (h : Track pol s (n + 1) (n + 1)) (hopen : s.leftAt = none)
    (hlength : s.outcomes.length = n + 1) :
    Track pol (s.storePhase .promoteReady) (n + 1) (n + 1) := by
  cases h with
  | going leftAt phase le judged within =>
    refine .left (n + 1) ?_ (Nat.le_refl _) (.inr rfl) judged fun m hpos hle hmod hfails => ?_
    · simp [State.storePhase, hopen, hlength]
    · replace hfails : pol.exceeds (mismatchesIn s.outcomes m) m = true := hfails
      rw [within m hpos hle hmod] at hfails
      cases hfails
  | left last leftAt le phase judged failed =>
    rw [hopen] at leftAt
    cases leftAt

theorem Track.phase_of_open {checked n : Nat} (h : Track pol s checked n)
    (hopen : s.leftAt = none) : s.phase = .ramping := by
  cases h with
  | going leftAt phase le judged within => exact phase
  | left last leftAt le phase judged failed =>
    rw [hopen] at leftAt
    cases leftAt

end NatsClient.Graduate
