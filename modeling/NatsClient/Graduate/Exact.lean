import Mathlib.Algebra.Order.Floor.Semiring
import Mathlib.Data.Rat.Floor
import Mathlib.Tactic.Linarith
import NatsClient.Graduate.Canary
import NatsClient.Graduate.Handler
import NatsClient.Lib.Signed

namespace NatsClient.Graduate.Exact

-- The configuration with exact rationals for its rates.
structure GraduateConfig where
  startRate : ℚ
  maxRate : ℚ
  step : ℚ
  maxMismatchRate : ℚ
  window : Int64
  deriving DecidableEq

def GraduateConfig.withDefaults (c : GraduateConfig) : GraduateConfig :=
  let startRate := if c.startRate ≤ 0 then 5 / 100 else c.startRate
  let maxRate := if c.maxRate ≤ 0 then 1 else c.maxRate
  let maxRate := if maxRate > 1 then 1 else maxRate
  { startRate := if startRate > maxRate then maxRate else startRate
    maxRate := maxRate
    step := if c.step ≤ 0 then 2 / 10 else c.step
    maxMismatchRate := if c.maxMismatchRate ≤ 0 then 1 / 100 else c.maxMismatchRate
    window := if c.window ≤ 0 then 500 else c.window }

-- What holds of the fields after withDefaults.
structure GraduateConfig.Valid (c : GraduateConfig) : Prop where
  startRate_pos : 0 < c.startRate
  startRate_le : c.startRate ≤ c.maxRate
  maxRate_le : c.maxRate ≤ 1
  step_pos : 0 < c.step
  maxMismatchRate_pos : 0 < c.maxMismatchRate
  window_pos : 0 < c.window.toInt

theorem default_pos {value default : ℚ} (h : 0 < default) :
    0 < if value ≤ 0 then default else value := by
  split_ifs with hvalue
  · exact h
  · exact not_le.mp hvalue

theorem cap_eq_min (value cap : ℚ) : (if value > cap then cap else value) = min value cap := by
  split_ifs with h
  · exact (min_eq_right h.le).symm
  · exact (min_eq_left (not_lt.mp h)).symm

theorem GraduateConfig.withDefaults_valid (c : GraduateConfig) : c.withDefaults.Valid := by
  have hmax : 0 < c.withDefaults.maxRate := by
    simp only [withDefaults, cap_eq_min]
    exact lt_min (default_pos one_pos) one_pos
  refine ⟨?_, ?_, ?_, default_pos (by norm_num), default_pos (by norm_num),
    Lib.Signed.toInt_default_pos _ (by decide)⟩
  · simp only [withDefaults, cap_eq_min] at hmax ⊢
    exact lt_min (default_pos (by norm_num)) hmax
  · simp only [withDefaults, cap_eq_min]
    exact min_le_right _ _
  · simp only [withDefaults, cap_eq_min]
    exact min_le_right _ _

-- A rate as it is stored.
def millionths (rate : ℚ) : Nat := ⌊rate * 10 ^ 6⌋₊

def GraduateConfig.policy (c : GraduateConfig) : Policy where
  window := c.withDefaults.window.toInt.toNat
  window_pos := by
    have h := c.withDefaults_valid.window_pos
    omega
  startRate := millionths c.withDefaults.startRate
  exceeds mismatches samples := c.withDefaults.maxMismatchRate < mismatches / samples
  atMax rate := c.withDefaults.maxRate ≤ rate / 10 ^ 6 + 1 / 10 ^ 9
  nextRate rate := millionths (min c.withDefaults.maxRate (rate / 10 ^ 6 + c.withDefaults.step))

-- The fraction of the messages that With samples for a stored rate.
def appliedRate (rate : Nat) : ℚ :=
  (Shadow.Config.mk false none (rate / 10 ^ 6) 0).withDefaults.sampleRate

-- A stored rate of zero is taken for a rate that is not set.
theorem appliedRate_eq_iff {rate : Nat} (hle : rate ≤ 10 ^ 6) :
    appliedRate rate = rate / 10 ^ 6 ↔ 0 < rate := by
  have hcap : appliedRate rate =
      min (if (rate : ℚ) / 10 ^ 6 ≤ 0 then 1 / 10 else (rate : ℚ) / 10 ^ 6) 1 := cap_eq_min _ _
  rw [hcap]
  by_cases hzero : rate = 0
  · subst hzero
    norm_num
  · have hpos : (0 : ℚ) < rate / 10 ^ 6 :=
      div_pos (by exact_mod_cast Nat.pos_of_ne_zero hzero) (by norm_num)
    have hone : (rate : ℚ) / 10 ^ 6 ≤ 1 := by
      rw [div_le_one (by norm_num)]
      exact_mod_cast hle
    rw [if_neg (not_le.mpr hpos), min_eq_left hone]
    exact iff_of_true rfl (Nat.pos_of_ne_zero hzero)

section Rates

variable {c : GraduateConfig} {rate : Nat}

theorem millionths_mono {first second : ℚ} (h : first ≤ second) :
    millionths first ≤ millionths second :=
  Nat.floor_mono (mul_le_mul_of_nonneg_right h (by norm_num))

theorem millionths_min (first second : ℚ) :
    millionths (min first second) = min (millionths first) (millionths second) := by
  rw [millionths, min_mul_of_nonneg _ _ (by norm_num)]
  exact Nat.floor_mono.map_min

theorem millionths_add (rate : Nat) {more : ℚ} (h : 0 ≤ more) :
    millionths (rate / 10 ^ 6 + more) = rate + millionths more := by
  have hsum : ((rate : ℚ) / 10 ^ 6 + more) * 10 ^ 6 = more * 10 ^ 6 + rate := by
    rw [add_mul, div_mul_cancel₀ _ (by norm_num), add_comm]
  rw [millionths, hsum, Nat.floor_add_natCast (by positivity), add_comm]
  rfl

theorem policy_nextRate (c : GraduateConfig) (rate : Nat) :
    c.policy.nextRate rate =
      min (millionths c.withDefaults.maxRate) (rate + millionths c.withDefaults.step) := by
  have h := millionths_add rate c.withDefaults_valid.step_pos.le
  rw [← h]
  exact millionths_min _ _

-- The tolerance of a billionth is a thousandth of what is stored.
theorem policy_atMax_iff (hle : rate ≤ millionths c.withDefaults.maxRate) :
    c.policy.atMax rate = true ↔ rate = millionths c.withDefaults.maxRate ∧
      c.withDefaults.maxRate * 10 ^ 6 ≤ millionths c.withDefaults.maxRate + 1 / 1000 := by
  have hmax := c.withDefaults_valid
  have hfloor : (millionths c.withDefaults.maxRate : ℚ) ≤ c.withDefaults.maxRate * 10 ^ 6 := by
    have hpos : 0 < c.withDefaults.maxRate := hmax.startRate_pos.trans_le hmax.startRate_le
    exact Nat.floor_le (by positivity)
  have hiff : c.policy.atMax rate = true ↔
      c.withDefaults.maxRate * 10 ^ 6 ≤ rate + 1 / 1000 := by
    refine decide_eq_true_iff.trans ⟨fun h => ?_, fun h => ?_⟩ <;> linarith
  rw [hiff]
  constructor
  · intro h
    have heq : rate = millionths c.withDefaults.maxRate := by
      by_contra hne
      have hlt : (rate : ℚ) + 1 ≤ millionths c.withDefaults.maxRate := by
        exact_mod_cast Nat.lt_of_le_of_ne hle hne
      linarith
    exact ⟨heq, heq ▸ h⟩
  · rintro ⟨heq, h⟩
    rwa [heq]

theorem policy_exceeds_zero (c : GraduateConfig) (samples : Nat) :
    c.policy.exceeds 0 samples = false := by
  have hpos := c.withDefaults_valid.maxMismatchRate_pos
  simp [GraduateConfig.policy, hpos.le]

end Rates

open Canary

-- The way up of a healthy Graduate.
structure Ramped (c : GraduateConfig) (g : Canary) : Prop where
  phase : g.phase = .ramping ∨ g.phase = .promoteReady
  low : c.policy.startRate ≤ g.rate
  high : g.rate ≤ millionths c.withDefaults.maxRate
  still : millionths c.withDefaults.step = 0 → g.rate = c.policy.startRate
  ready : g.phase = .promoteReady → c.policy.atMax g.rate = true

section Ramp

variable {c : GraduateConfig} {g h : Canary}

theorem ramped_start (c : GraduateConfig) : Ramped c (start c.policy) where
  phase := .inl rfl
  low := le_refl _
  high := millionths_mono c.withDefaults_valid.startRate_le
  still _ := rfl
  ready hready := by cases hready

theorem Ramped.step (hg : Ramped c g) (hpass : Passes c.policy g h) : Ramped c h := by
  cases hpass with
  | closed phase same rate callbacks | inside phase boundary same rate callbacks =>
    exact ⟨same ▸ hg.phase, rate ▸ hg.low, rate ▸ hg.high, rate ▸ hg.still,
      same ▸ rate ▸ hg.ready⟩
  | topped phase boundary atMax ready rate callbacks =>
    exact ⟨.inr ready, rate ▸ hg.low, rate ▸ hg.high, rate ▸ hg.still, fun _ => rate ▸ atMax⟩
  | stepped phase boundary atMax ramping rate callbacks =>
    rw [policy_nextRate] at rate
    have hlow := hg.low
    have hhigh := hg.high
    refine ⟨.inl ramping, by omega, by omega, fun hstill => ?_, fun hready => ?_⟩
    · have hrate := hg.still hstill
      omega
    · rw [ramping] at hready
      cases hready

theorem Ramped.rate_le (hg : Ramped c g) (hpass : Passes c.policy g h) : g.rate ≤ h.rate := by
  cases hpass with
  | closed phase same rate | inside phase boundary same rate => exact rate.ge
  | topped phase boundary atMax ready rate => exact rate.ge
  | stepped phase boundary atMax ramping rate =>
    have hhigh := hg.high
    rw [policy_nextRate] at rate
    omega

theorem ramped_observe {results : List Bool}
    (hhealthy : (start c.policy).Healthy c.policy results) :
    Ramped c ((start c.policy).observe c.policy results) := by
  induction results using List.reverseRecOn with
  | nil => exact ramped_start c
  | append_singleton results matched ih =>
    exact (ih (hhealthy.shorten (List.prefix_append _ _))).step hhealthy.passes

end Ramp

section Streams

-- The Graduate after the first n results.
def after (pol : Policy) (results : Nat → Bool) (n : Nat) : Canary :=
  (start pol).observe pol ((List.range n).map results)

-- No window boundary ever exceeds MaxMismatchRate.
def HealthyStream (pol : Policy) (results : Nat → Bool) : Prop :=
  ∀ n, (start pol).Healthy pol ((List.range n).map results)

variable {c : GraduateConfig} {results : Nat → Bool}

theorem after_succ_passes (hhealthy : HealthyStream c.policy results) (n : Nat) :
    Passes c.policy (after c.policy results n) (after c.policy results (n + 1)) := by
  have hnext := hhealthy (n + 1)
  simp only [after, List.range_succ, List.map_append, List.map_singleton] at hnext ⊢
  exact hnext.passes

theorem ramped_after (hhealthy : HealthyStream c.policy results) (n : Nat) :
    Ramped c (after c.policy results n) := ramped_observe (hhealthy n)

theorem rate_mono (hhealthy : HealthyStream c.policy results) :
    Monotone fun n => (after c.policy results n).rate :=
  monotone_nat_of_le_succ fun n => (ramped_after hhealthy n).rate_le (after_succ_passes hhealthy n)

-- Some later result is the last one of a window, also when the counter wraps.
theorem exists_boundary (c : GraduateConfig) (results : Nat → Bool) (n : Nat) :
    ∃ m, n ≤ m ∧ (after c.policy results (m + 1)).AtBoundary c.policy := by
  have hpos := c.policy.window_pos
  have hlt : c.policy.window < 2 ^ 64 := by
    have h := c.withDefaults.window.toInt_lt
    simp only [GraduateConfig.policy]
    omega
  refine ⟨2 ^ 64 * n + c.policy.window - 1, by omega, ?_⟩
  have hsamples : (after c.policy results (2 ^ 64 * n + c.policy.window - 1 + 1)).samples =
      c.policy.window := by
    rw [after, observe_samples _ (Nat.two_pow_pos 64), List.length_map, List.length_range]
    simp only [start]
    omega
  rw [AtBoundary, hsamples, Nat.mod_self]
  exact ⟨hpos.ne', rfl⟩

-- The rates of the configuration fit the millionths that are stored: the first one is not lost,
-- the last one is within the tolerance, and a step is at least one.
def GraduateConfig.Fits (c : GraduateConfig) : Prop :=
  1 ≤ c.startRate * 10 ^ 6 ∧ c.maxRate * 10 ^ 6 ≤ millionths c.maxRate + 1 / 1000 ∧
    (1 ≤ c.step * 10 ^ 6 ∨ millionths c.startRate = millionths c.maxRate)

theorem one_le_millionths {rate : ℚ} : 0 < millionths rate ↔ 1 ≤ rate * 10 ^ 6 := Nat.floor_pos

theorem exists_ready (hfits : c.withDefaults.Fits) (hhealthy : HealthyStream c.policy results)
    (n : Nat) : ∃ m, (after c.policy results m).phase = .promoteReady := by
  obtain ⟨-, hmax, hstep⟩ := hfits
  -- Each boundary that does not make the Graduate ready leaves less of the way.
  induction hleft : millionths c.withDefaults.maxRate - (after c.policy results n).rate
    using Nat.strong_induction_on generalizing n with
  | h left ih =>
    obtain ⟨m, hnm, hboundary⟩ := exists_boundary c results n
    have hramped := ramped_after hhealthy m
    have hmono := rate_mono hhealthy hnm
    cases after_succ_passes hhealthy m with
    | closed phase =>
      rcases hramped.phase with hphase | hphase
      · rw [hphase] at phase
        exact absurd phase (by decide)
      · exact ⟨m, hphase⟩
    | inside phase boundary => exact absurd hboundary boundary
    | topped phase boundary atMax ready => exact ⟨m + 1, ready⟩
    | stepped phase boundary atMax ramping rate =>
      have hlow := hramped.low
      have hhigh := hramped.high
      have hne : (after c.policy results m).rate ≠ millionths c.withDefaults.maxRate := by
        intro heq
        have htrue := (policy_atMax_iff hhigh).mpr ⟨heq, hmax⟩
        rw [atMax] at htrue
        cases htrue
      have hpos : 0 < millionths c.withDefaults.step := by
        refine hstep.elim one_le_millionths.mpr fun heq => ?_
        have hstart : c.policy.startRate = millionths c.withDefaults.maxRate := heq
        omega
      rw [policy_nextRate] at rate
      exact ih _ (by simp only at hmono; omega) (m + 1) rfl

theorem observe_mismatches_of_matches {pol : Policy} {results : List Bool}
    (h : ∀ matched ∈ results, matched = true) :
    ((start pol).observe pol results).mismatches = 0 := by
  induction results using List.reverseRecOn with
  | nil => rfl
  | append_singleton results matched ih =>
    have hmatched : matched = true := h matched (by simp)
    rw [observe_concat, observeCompare_mismatches, if_pos hmatched]
    exact ih fun other hother => h other (List.mem_append_left _ hother)

-- Without mismatches every window passes.
theorem healthyStream_matches (c : GraduateConfig) : HealthyStream c.policy fun _ => true := by
  intro n before hbefore hne hboundary
  have hnone : ((start c.policy).observe c.policy before).mismatches = 0 := by
    apply observe_mismatches_of_matches
    intro matched hmem
    obtain ⟨_, -, rfl⟩ := List.mem_map.mp (hbefore.subset hmem)
    rfl
  rw [hnone]
  exact policy_exceeds_zero c _

theorem Ramped.rate_le_million {g : Canary} (hg : Ramped c g) : g.rate ≤ 10 ^ 6 := by
  have hmillion : millionths 1 = 10 ^ 6 := by
    rw [millionths, one_mul]
    exact_mod_cast Nat.floor_natCast (10 ^ 6)
  exact hmillion ▸ hg.high.trans (millionths_mono c.withDefaults_valid.maxRate_le)

theorem Ramped.rate_le_maxRate {g : Canary} (hg : Ramped c g) :
    (g.rate : ℚ) / 10 ^ 6 ≤ c.withDefaults.maxRate := by
  have hvalid := c.withDefaults_valid
  have hpos : 0 < c.withDefaults.maxRate := hvalid.startRate_pos.trans_le hvalid.startRate_le
  have hfloor : (millionths c.withDefaults.maxRate : ℚ) ≤ c.withDefaults.maxRate * 10 ^ 6 :=
    Nat.floor_le (by positivity)
  have hrate : (g.rate : ℚ) ≤ millionths c.withDefaults.maxRate := by exact_mod_cast hg.high
  rw [div_le_iff₀ (by norm_num)]
  exact hrate.trans hfloor

-- What a ready Graduate says about its configuration.
theorem Ramped.fits_of_ready {g : Canary} (hg : Ramped c g) (hready : g.phase = .promoteReady) :
    c.withDefaults.maxRate * 10 ^ 6 ≤ millionths c.withDefaults.maxRate + 1 / 1000 ∧
      (1 ≤ c.withDefaults.step * 10 ^ 6 ∨
        millionths c.withDefaults.startRate = millionths c.withDefaults.maxRate) := by
  obtain ⟨hrate, hmax⟩ := (policy_atMax_iff hg.high).mp (hg.ready hready)
  refine ⟨hmax, ?_⟩
  by_cases hstep : 1 ≤ c.withDefaults.step * 10 ^ 6
  · exact .inl hstep
  · have hzero : millionths c.withDefaults.step = 0 :=
      Nat.eq_zero_of_not_pos fun hpos => hstep (one_le_millionths.mp hpos)
    exact .inr ((hg.still hzero).symm.trans hrate)

-- A healthy Graduate ramps up to its promotion iff its rates fit the way they are stored. What is
-- said of the results is what comparisons made one at a time, in atomic steps, come to.
theorem canary_ready_iff {A P : Type} (c : GraduateConfig) :
    ((∀ results, HealthyStream c.policy results →
      (∀ n, (after c.policy results n).rate ≤ (after c.policy results (n + 1)).rate) ∧
      (∀ n, ((after c.policy results n).rate : ℚ) / 10 ^ 6 ≤ c.withDefaults.maxRate) ∧
      (∀ n, appliedRate (after c.policy results n).rate =
        (after c.policy results n).rate / 10 ^ 6) ∧
      ∃ n, (after c.policy results n).phase = .promoteReady) ↔ c.withDefaults.Fits) ∧
    ∀ results n,
      (∃ (s : State Nat A P) (callbacks : List Callback),
        Sequential c.policy (newGraduate c.policy) ((List.range n).map results) s callbacks) ∧
      ∀ (s : State Nat A P) (callbacks : List Callback),
        Sequential c.policy (newGraduate c.policy) ((List.range n).map results) s callbacks →
          s.canary callbacks = after c.policy results n := by
  refine ⟨⟨?_, ?_⟩, fun results n => ⟨exists_sequential _ _, fun s callbacks h => ?_⟩⟩
  · intro h
    have hhealthy := healthyStream_matches c
    obtain ⟨-, -, happlied, n, hready⟩ := h _ hhealthy
    obtain ⟨hmax, hstep⟩ := (ramped_after hhealthy n).fits_of_ready hready
    have hpos := (appliedRate_eq_iff (ramped_start c).rate_le_million).mp (happlied 0)
    exact ⟨one_le_millionths.mp hpos, hmax, hstep⟩
  · intro hfits results hhealthy
    refine ⟨fun n => rate_mono hhealthy n.le_succ,
      fun n => (ramped_after hhealthy n).rate_le_maxRate, fun n => ?_,
      exists_ready hfits hhealthy 0⟩
    have hramped := ramped_after hhealthy n
    have hstart : 0 < c.policy.startRate := one_le_millionths.mpr hfits.1
    exact (appliedRate_eq_iff hramped.rate_le_million).mpr (hstart.trans_le hramped.low)
  · exact h.canary (fun _ => rfl) []

-- A third of the messages is not a whole number of millionths: the last step stays below it.
def thirdRate : GraduateConfig := ⟨1 / 20, 1 / 3, 1 / 5, 1 / 100, 2⟩

theorem canary_never_ready :
    HealthyStream thirdRate.policy (fun _ => true) ∧
      ∀ n, (after thirdRate.policy (fun _ => true) n).phase ≠ .promoteReady := by
  have hhealthy := healthyStream_matches thirdRate
  refine ⟨hhealthy, fun n hready => ?_⟩
  have hmax := ((ramped_after hhealthy n).fits_of_ready hready).1
  revert hmax
  decide +kernel

end Streams

end NatsClient.Graduate.Exact
