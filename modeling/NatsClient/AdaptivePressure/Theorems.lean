import Mathlib.Algebra.Order.Field.Basic
import Mathlib.Tactic.Linarith
import NatsClient.AdaptivePressure

namespace NatsClient.AdaptivePressure

open Lib.Signed

-- What holds of the fields after withDefaults.
structure AdaptivePressureConfig.Valid (c : AdaptivePressureConfig) : Prop where
  minFetchBatch_pos : 0 < c.minFetchBatch.toInt
  fetchBatch_le : c.minFetchBatch.toInt ≤ c.maxFetchBatch.toInt
  minAckPending_pos : 0 < c.minAckPending.toInt
  nakDelayMin_pos : 0 < c.nakDelayMin.toInt
  nakDelayMax_pos : 0 < c.nakDelayMax.toInt

theorem AdaptivePressureConfig.withDefaults_valid (c : AdaptivePressureConfig) :
    c.withDefaults.Valid where
  minFetchBatch_pos := toInt_default_pos _ (by decide)
  fetchBatch_le := by
    simp only [withDefaults, toInt_ite_lt]
    exact le_max_right _ _
  minAckPending_pos := toInt_default_pos _ (by decide)
  nakDelayMin_pos := toInt_default_pos _ (by decide)
  nakDelayMax_pos := toInt_default_pos _ (by decide)

section Levels

namespace AdaptivePressureInput

-- The inputs agree on everything but the load.
structure Agrees (x y : AdaptivePressureInput) : Prop where
  poolCapacity : y.poolCapacity = x.poolCapacity
  baselineLatency : y.baselineLatency = x.baselineLatency
  currentBatch : y.currentBatch = x.currentBatch
  currentAckPend : y.currentAckPend = x.currentAckPend
  maxAckPending : y.maxAckPending = x.maxAckPending

-- The load of the second is at least that of the first.
structure LoadLe (x y : AdaptivePressureInput) : Prop where
  poolDepth : x.poolDepth ≤ y.poolDepth
  handlerLatency : x.handlerLatency ≤ y.handlerLatency
  lag : x.lag ≤ y.lag
  pending : x.pending ≤ y.pending

variable {x y : AdaptivePressureInput}

theorem fill_le (hagrees : x.Agrees y) (hload : x.LoadLe y) : x.fill ≤ y.fill := by
  unfold fill
  rw [hagrees.poolCapacity]
  split_ifs with hpos
  · rw [Int64.lt_iff_toInt_lt] at hpos
    have hdepth := Int64.le_iff_toInt_le.mp hload.poolDepth
    have hcapacity : (0 : ℚ) < x.poolCapacity.toInt := by exact_mod_cast hpos
    exact div_le_div_of_nonneg_right (by exact_mod_cast hdepth) hcapacity.le
  · exact le_refl _

-- The factor itself may fall, from one to a quick handler's. No threshold is that low.
theorem latencyFactor_threshold {threshold : ℚ} (hone : 1 < threshold) (hagrees : x.Agrees y)
    (hload : x.LoadLe y) (h : threshold ≤ x.latencyFactor) : threshold ≤ y.latencyFactor := by
  unfold latencyFactor at h
  split_ifs at h with hx
  · obtain ⟨hbaseline, hhandler⟩ := hx
    have hlatency := hload.handlerLatency
    rw [Int64.lt_iff_toInt_lt] at hbaseline hhandler
    rw [Int64.le_iff_toInt_le] at hlatency
    have hy : 0 < y.baselineLatency ∧ 0 < y.handlerLatency := by
      rw [hagrees.baselineLatency, Int64.lt_iff_toInt_lt, Int64.lt_iff_toInt_lt]
      omega
    have hpos : (0 : ℚ) < x.baselineLatency.toInt := by exact_mod_cast hbaseline
    rw [latencyFactor, if_pos hy, hagrees.baselineLatency]
    refine h.trans (div_le_div_of_nonneg_right ?_ hpos.le)
    exact_mod_cast hlatency
  · exact absurd h (not_le.mpr hone)

-- One case of the switch, over the levels that the cases behind it may give.
theorem toNat_ite_le {p q : Prop} [Decidable p] [Decidable q]
    {top first second : AdaptivePressureLevel} (h : p → q) (htop : first.toNat ≤ top.toNat)
    (hle : first.toNat ≤ second.toNat) :
    (if p then top else first).toNat ≤ (if q then top else second).toNat := by
  split_ifs with hp hq
  · exact le_refl _
  · exact absurd (h hp) hq
  · exact htop
  · exact hle

theorem level_le (hagrees : x.Agrees y) (hload : x.LoadLe y) :
    x.level.toNat ≤ y.level.toNat := by
  have hfill (threshold : ℚ) (h : threshold ≤ x.fill) : threshold ≤ y.fill :=
    h.trans (fill_le hagrees hload)
  have hlatency (threshold : ℚ) (hone : 1 < threshold) (h : threshold ≤ x.latencyFactor) :
      threshold ≤ y.latencyFactor := latencyFactor_threshold hone hagrees hload h
  have hlag (threshold : UInt64) (h : threshold < x.lag) : threshold < y.lag :=
    UInt64.lt_of_lt_of_le h hload.lag
  have hpending (threshold : UInt64) (h : threshold < x.pending) : threshold < y.pending :=
    UInt64.lt_of_lt_of_le h hload.pending
  unfold level
  refine toNat_ite_le (Or.imp (hfill _) (Or.imp (hlatency _ (by norm_num)) (hlag _))) ?_ ?_
  · split_ifs <;> decide
  refine toNat_ite_le (Or.imp (hfill _) (Or.imp (hlatency _ (by norm_num)) (hpending _))) ?_ ?_
  · split_ifs <;> decide
  refine toNat_ite_le (Or.imp (hfill _) (Or.imp (hlatency _ (by norm_num)) (hlag _))) ?_ ?_
  · split_ifs <;> decide
  exact toNat_ite_le (Or.imp (hfill _) (hlag _)) (by decide) (le_refl _)

-- A load that brings about a level by the lag and the pending messages alone.
def lagFor : AdaptivePressureLevel → UInt64
  | .idle => 0
  | .warm => 51
  | .elevated | .hard => 501
  | .critical => 10001

def pendingFor : AdaptivePressureLevel → UInt64
  | .idle | .warm | .elevated => 0
  | .hard | .critical => 5001

def loaded (z : AdaptivePressureInput) (level : AdaptivePressureLevel) : AdaptivePressureInput :=
  { z with poolDepth := 0, handlerLatency := 0, lag := lagFor level, pending := pendingFor level }

theorem agrees_loaded (z : AdaptivePressureInput) (level : AdaptivePressureLevel) :
    z.Agrees (z.loaded level) := ⟨rfl, rfl, rfl, rfl, rfl⟩

theorem loaded_loadLe (z : AdaptivePressureInput) {first second : AdaptivePressureLevel}
    (h : first.toNat ≤ second.toNat) : (z.loaded first).LoadLe (z.loaded second) := by
  have hlag : lagFor first ≤ lagFor second := by
    revert h
    cases first <;> cases second <;> decide
  have hpending : pendingFor first ≤ pendingFor second := by
    revert h
    cases first <;> cases second <;> decide
  exact ⟨Int64.le_refl _, Int64.le_refl _, hlag, hpending⟩

theorem level_loaded (z : AdaptivePressureInput) (level : AdaptivePressureLevel) :
    (z.loaded level).level = level := by
  have hfill : (z.loaded level).fill = 0 := by
    unfold fill
    split_ifs
    · exact div_eq_zero_iff.mpr (.inl rfl)
    · rfl
  have hlatency : (z.loaded level).latencyFactor = 1 := by
    rw [latencyFactor, if_neg]
    rintro ⟨-, h⟩
    exact absurd h Int64.lt_irrefl
  have hlag : (z.loaded level).lag = lagFor level := rfl
  have hpending : (z.loaded level).pending = pendingFor level := rfl
  rw [AdaptivePressureInput.level, hfill, hlatency, hlag, hpending]
  cases level <;> decide +kernel

end AdaptivePressureInput

end Levels

section Actuators

open AdaptivePressureLevel

variable {cfg : AdaptivePressureConfig} {z : AdaptivePressureInput}

-- A quantity falls from level to level iff it does so from each to the next.
theorem antitone_iff (f : AdaptivePressureLevel → Int) :
    (∀ first second : AdaptivePressureLevel, first.toNat ≤ second.toNat → f second ≤ f first) ↔
      f warm ≤ f idle ∧ f elevated ≤ f warm ∧ f hard ≤ f elevated ∧ f critical ≤ f hard := by
  constructor
  · intro h
    exact ⟨h _ _ (by decide), h _ _ (by decide), h _ _ (by decide), h _ _ (by decide)⟩
  · rintro ⟨hwarm, helevated, hhard, hcritical⟩ first second hle
    cases first <;> cases second <;> simp only [AdaptivePressureLevel.toNat] at hle <;> omega

theorem toInt_clamp (cfg : AdaptivePressureConfig) (batch : Int64) :
    (clamp cfg batch).toInt =
      max (min batch.toInt cfg.maxFetchBatch.toInt) cfg.minFetchBatch.toInt := by
  rw [clamp, toInt_ite_lt, toInt_ite_gt]

-- The batch is within its limits at every level.
theorem clamp_within (hcfg : cfg.Valid) (batch : Int64) :
    cfg.minFetchBatch ≤ clamp cfg batch ∧ clamp cfg batch ≤ cfg.maxFetchBatch := by
  have hle := hcfg.fetchBatch_le
  rw [Int64.le_iff_toInt_le, Int64.le_iff_toInt_le, toInt_clamp]
  omega

-- The largest batch is too large for doubling, and not the only one.
def BatchWraps (cfg : AdaptivePressureConfig) (z : AdaptivePressureInput) : Prop :=
  0 < z.poolCapacity ∧ z.currentBatch ≤ 0 ∧ 2 ^ 62 ≤ cfg.maxFetchBatch.toInt ∧
    cfg.minFetchBatch.toInt < cfg.maxFetchBatch.toInt

theorem batch_antitone_iff (hcfg : cfg.Valid) (hbatch : z.currentBatch ≤ 2147483648) :
    (∀ first second : AdaptivePressureLevel, first.toNat ≤ second.toNat →
      clamp cfg (batchAt cfg z second) ≤ clamp cfg (batchAt cfg z first)) ↔ ¬ BatchWraps cfg z := by
  have hmin := hcfg.minFetchBatch_pos
  have hle := hcfg.fetchBatch_le
  have hpos : 0 < (startBatch cfg z).toInt := toInt_default_pos _ (by omega)
  have hhalf : (startBatch cfg z).toInt.tdiv 2 = (startBatch cfg z).toInt / 2 :=
    Int.tdiv_eq_ediv_of_nonneg hpos.le
  have hdouble := toInt_double (startBatch cfg z) hpos
  have hstart : (startBatch cfg z).toInt =
      if z.currentBatch ≤ 0 then cfg.maxFetchBatch.toInt else z.currentBatch.toInt := by
    unfold startBatch
    split_ifs <;> rfl
  have hmax := cfg.maxFetchBatch.toInt_lt
  rw [Int64.le_iff_toInt_le, show (2147483648 : Int64).toInt = 2147483648 from rfl] at hbatch
  simp only [Int64.le_iff_toInt_le]
  rw [antitone_iff fun level => (clamp cfg (batchAt cfg z level)).toInt]
  simp only [batchAt, toInt_clamp, toInt_ite_lt, toInt_greatest, toInt_half, hhalf, BatchWraps]
  by_cases hcapacity : 0 < z.poolCapacity
  · rw [if_pos hcapacity, toInt_least, hdouble]
    by_cases hcurrent : z.currentBatch ≤ 0
    · rw [if_pos hcurrent] at hstart
      simp only [hcapacity, hcurrent, true_and]
      split_ifs <;> omega
    · rw [if_neg hcurrent] at hstart
      simp only [hcurrent, false_and, and_false, not_false_eq_true, iff_true]
      split_ifs <;> omega
  · rw [if_neg hcapacity]
    simp only [hcapacity, false_and, not_false_eq_true, iff_true]
    omega

theorem startAck_le (hack : z.currentAckPend ≤ z.maxAckPending) (hmax : 0 < z.maxAckPending) :
    (startAck cfg z).toInt ≤ z.maxAckPending.toInt := by
  have hcurrent := Int64.le_iff_toInt_le.mp hack
  have hnot : ¬ z.maxAckPending ≤ 0 := Int64.not_le.mpr hmax
  by_cases hunset : z.currentAckPend ≤ 0
  · simp only [startAck, if_pos hunset, if_neg hnot, le_refl]
  · simp only [startAck, if_neg hunset]
    exact hcurrent

-- The number of messages in flight that the decision starts from is not below its floor.
theorem ack_antitone_iff (hcfg : cfg.Valid)
    (hack : 0 < z.maxAckPending → z.currentAckPend ≤ z.maxAckPending) :
    (∀ first second : AdaptivePressureLevel, first.toNat ≤ second.toNat →
      ackAt cfg z second ≤ ackAt cfg z first ∧
      (0 < z.maxAckPending → ackAt cfg z first ≤ z.maxAckPending)) ↔
      cfg.minAckPending ≤ startAck cfg z := by
  have hmin := hcfg.minAckPending_pos
  constructor
  · intro h
    obtain ⟨hhard, -⟩ := h elevated hard (by decide)
    rw [Int64.le_iff_toInt_le] at hhard ⊢
    simp only [ackAt, toInt_greatest] at hhard
    omega
  · intro hfloor
    rw [Int64.le_iff_toInt_le] at hfloor
    have hhalf : (startAck cfg z / 2).toInt = (startAck cfg z).toInt / 2 := by
      rw [toInt_half, Int.tdiv_eq_ediv_of_nonneg (by omega)]
    have hidle : (startAck cfg z).toInt ≤ (ackAt cfg z idle).toInt := by
      simp only [ackAt]
      split_ifs with hmax
      · exact startAck_le (hack hmax) hmax
      · exact le_refl _
    have hfalls := (antitone_iff fun level => (ackAt cfg z level).toInt).mpr (by
      refine ⟨hidle, le_refl _, ?_, ?_⟩
      · simp only [ackAt, toInt_greatest, hhalf]
        omega
      · simp only [ackAt, toInt_greatest]
        omega)
    intro first second hle
    refine ⟨Int64.le_iff_toInt_le.mpr (hfalls first second hle), fun hmax => ?_⟩
    -- The largest one is that of the idle level.
    have htop : (ackAt cfg z idle).toInt = z.maxAckPending.toInt := by
      rw [ackAt, if_pos hmax]
    rw [Int64.le_iff_toInt_le, ← htop]
    exact hfalls idle first (Nat.zero_le _)

theorem nak_monotone_iff (hcfg : cfg.Valid) :
    (∀ first second : AdaptivePressureLevel, first.toNat ≤ second.toNat →
      nakAt cfg first ≤ nakAt cfg second ∧ nakAt cfg first ≤ cfg.nakDelayMax) ↔
      cfg.nakDelayMin.toInt ≤ cfg.nakDelayMax.toInt ∧ cfg.nakDelayMin.toInt < 2 ^ 62 := by
  have hmin := hcfg.nakDelayMin_pos
  have hdouble := toInt_double cfg.nakDelayMin hmin
  have hhard : (nakAt cfg hard).toInt =
      min (cfg.nakDelayMin * 2).toInt cfg.nakDelayMax.toInt := toInt_ite_gt _ _
  have hzero : (0 : Int64).toInt = 0 := rfl
  constructor
  · intro h
    obtain ⟨hrise, hbound⟩ := h elevated hard (by decide)
    rw [Int64.le_iff_toInt_le] at hrise hbound
    rw [hhard, hdouble] at hrise
    simp only [nakAt] at hrise hbound
    have hlt := cfg.nakDelayMin.toInt_lt
    refine ⟨hbound, ?_⟩
    split_ifs at hrise <;> omega
  · rintro ⟨hle, hlt⟩
    rw [if_pos hlt] at hdouble
    have hrises := (antitone_iff fun level => -(nakAt cfg level).toInt).mpr (by
      simp only [hhard]
      simp only [nakAt, hdouble, hzero]
      omega)
    intro first second hlevel
    have hstep := hrises first second hlevel
    have htop := hrises first critical (by cases first <;> decide)
    have hcritical : nakAt cfg critical = cfg.nakDelayMax := rfl
    rw [hcritical] at htop
    simp only [Int64.le_iff_toInt_le]
    omega

-- A higher level fetches less, leaves less in flight and waits longer.
def Rises (first second : AdaptivePressureDecision) : Prop :=
  first.level.toNat ≤ second.level.toNat ∧ second.fetchBatch ≤ first.fetchBatch ∧
    second.ackPending ≤ first.ackPending ∧ first.nakDelay ≤ second.nakDelay

-- The limits of the configuration and of the input.
def Within (cfg : AdaptivePressureConfig) (x : AdaptivePressureInput)
    (d : AdaptivePressureDecision) : Prop :=
  cfg.minFetchBatch ≤ d.fetchBatch ∧ d.fetchBatch ≤ cfg.maxFetchBatch ∧
    d.nakDelay ≤ cfg.nakDelayMax ∧ (0 < x.maxAckPending → d.ackPending ≤ x.maxAckPending)

-- The floor of AckPending is not above what it starts from, and the two Nak delays are in order
-- and can be doubled.
def Ordered (cfg : AdaptivePressureConfig) (z : AdaptivePressureInput) : Prop :=
  cfg.minAckPending ≤ startAck cfg z ∧ cfg.nakDelayMin.toInt ≤ cfg.nakDelayMax.toInt ∧
    cfg.nakDelayMin.toInt < 2 ^ 62 ∧ ¬ BatchWraps cfg z

-- The decision for inputs that agree depends on the level alone.
theorem decide_of_agrees (cfg : AdaptivePressureConfig) {x : AdaptivePressureInput}
    (h : z.Agrees x) : decideAdaptivePressure cfg x =
      ⟨x.level, clamp cfg.withDefaults (batchAt cfg.withDefaults z x.level),
        ackAt cfg.withDefaults z x.level, nakAt cfg.withDefaults x.level⟩ := by
  obtain ⟨depth, capacity, handler, baseline, lag, pending, batch, current, most⟩ := x
  obtain ⟨rfl, rfl, rfl, rfl, rfl⟩ := h
  rfl

theorem AdaptivePressureInput.Agrees.symm_trans {x y : AdaptivePressureInput} (hx : z.Agrees x)
    (hy : z.Agrees y) : x.Agrees y where
  poolCapacity := hy.poolCapacity.trans hx.poolCapacity.symm
  baselineLatency := hy.baselineLatency.trans hx.baselineLatency.symm
  currentBatch := hy.currentBatch.trans hx.currentBatch.symm
  currentAckPend := hy.currentAckPend.trans hx.currentAckPend.symm
  maxAckPending := hy.maxAckPending.trans hx.maxAckPending.symm

-- The decisions are monotone in the load and within their limits iff the floors are in order.
theorem pressure_monotone_iff (cfg : AdaptivePressureConfig) (z : AdaptivePressureInput)
    (hbatch : 0 ≤ z.currentBatch ∧ z.currentBatch ≤ 2147483648)
    (hack : 0 < z.maxAckPending → z.currentAckPend ≤ z.maxAckPending) :
    (∀ x y, z.Agrees x → z.Agrees y → x.LoadLe y →
      Rises (decideAdaptivePressure cfg x) (decideAdaptivePressure cfg y) ∧
        Within cfg.withDefaults x (decideAdaptivePressure cfg x)) ↔
      Ordered cfg.withDefaults z := by
  have hcfg := cfg.withDefaults_valid
  have hbatches := batch_antitone_iff hcfg hbatch.2
  have hacks := ack_antitone_iff hcfg hack
  have hnaks := nak_monotone_iff hcfg
  constructor
  · intro h
    have hlevels (first second : AdaptivePressureLevel) (hle : first.toNat ≤ second.toNat) :=
      h _ _ (z.agrees_loaded first) (z.agrees_loaded second) (z.loaded_loadLe hle)
    simp only [decide_of_agrees cfg (z.agrees_loaded _), AdaptivePressureInput.level_loaded, Rises,
      Within] at hlevels
    have hnak := hnaks.mp fun first second hle => by
      obtain ⟨⟨-, -, -, hrises⟩, -, -, hbound, -⟩ := hlevels first second hle
      exact ⟨hrises, hbound⟩
    refine ⟨hacks.mp fun first second hle => ?_, hnak.1, hnak.2,
      hbatches.mp fun first second hle => ?_⟩
    · obtain ⟨⟨-, -, hfalls, -⟩, -, -, -, hbound⟩ := hlevels first second hle
      exact ⟨hfalls, hbound⟩
    · obtain ⟨⟨-, hfalls, -⟩, -⟩ := hlevels first second hle
      exact hfalls
  · rintro ⟨hfloor, hdelays, hdouble, hwraps⟩ x y hx hy hload
    have hle := AdaptivePressureInput.level_le (hx.symm_trans hy) hload
    rw [decide_of_agrees cfg hx, decide_of_agrees cfg hy]
    obtain ⟨hackFalls, hackBound⟩ := hacks.mpr hfloor _ _ hle
    obtain ⟨hnakRises, hnakBound⟩ := hnaks.mpr ⟨hdelays, hdouble⟩ _ _ hle
    obtain ⟨hmin, hmax⟩ := clamp_within hcfg (batchAt cfg.withDefaults z x.level)
    refine ⟨⟨hle, hbatches.mpr hwraps _ _ hle, hackFalls, hnakRises⟩, hmin, hmax, hnakBound, ?_⟩
    rwa [hx.maxAckPending]

-- Sixteen messages a fetch, and at most a thousand in flight.
def steady : AdaptivePressureInput :=
  { poolDepth := 0, poolCapacity := 64, handlerLatency := 0, baselineLatency := 1000000, lag := 0,
    pending := 0, currentBatch := 16, currentAckPend := 100, maxAckPending := 1000 }

theorem pressure_monotone_steady :
    Ordered (AdaptivePressureConfig.withDefaults ⟨true, 0, 0, 0, 0, 0⟩) steady ∧
      ∀ x y, steady.Agrees x → steady.Agrees y → x.LoadLe y →
        Rises (decideAdaptivePressure ⟨true, 0, 0, 0, 0, 0⟩ x)
          (decideAdaptivePressure ⟨true, 0, 0, 0, 0, 0⟩ y) ∧
        Within (AdaptivePressureConfig.withDefaults ⟨true, 0, 0, 0, 0, 0⟩) x
          (decideAdaptivePressure ⟨true, 0, 0, 0, 0, 0⟩ x) := by
  have hordered : Ordered (AdaptivePressureConfig.withDefaults ⟨true, 0, 0, 0, 0, 0⟩) steady := by
    refine ⟨by decide, by decide, by decide, ?_⟩
    rintro ⟨-, hunset, -⟩
    exact absurd hunset (by decide)
  exact ⟨hordered, (pressure_monotone_iff ⟨true, 0, 0, 0, 0, 0⟩ steady (by decide)
    (by decide)).mpr hordered⟩

-- A consumer that may have twenty messages in flight. The floor of fifty is above that.
def narrow : AdaptivePressureInput := { steady with currentAckPend := 0, maxAckPending := 20 }

theorem pressure_ack_exceeds :
    narrow.Agrees { narrow with lag := 10001 } ∧ narrow.LoadLe { narrow with lag := 10001 } ∧
      (decideAdaptivePressure ⟨true, 0, 0, 0, 0, 0⟩ narrow).ackPending = 20 ∧
      (decideAdaptivePressure ⟨true, 0, 0, 0, 0, 0⟩ { narrow with lag := 10001 }).ackPending =
        50 := by
  refine ⟨⟨rfl, rfl, rfl, rfl, rfl⟩, ⟨by decide, by decide, by decide, by decide⟩, ?_, ?_⟩
  · decide +kernel
  · decide +kernel

end Actuators

section Controllers

theorem AdaptivePressureConfig.Valid.withDefaults_eq {cfg : AdaptivePressureConfig}
    (h : cfg.Valid) : cfg.withDefaults = cfg := by
  have hset {x : Int64} (hx : 0 < x.toInt) : ¬ x ≤ 0 := by
    rw [Int64.le_iff_toInt_le]
    exact Int.not_le.mpr hx
  have hmax : ¬ cfg.maxFetchBatch < cfg.minFetchBatch := by
    rw [Int64.lt_iff_toInt_lt]
    exact Int.not_lt.mpr h.fetchBatch_le
  have hpos : 0 < cfg.maxFetchBatch.toInt := h.minFetchBatch_pos.trans_le h.fetchBatch_le
  simp only [withDefaults, if_neg (hset h.minFetchBatch_pos), if_neg (hset hpos), if_neg hmax,
    if_neg (hset h.minAckPending_pos), if_neg (hset h.nakDelayMin_pos),
    if_neg (hset h.nakDelayMax_pos)]

-- What the last decision of a controller may be.
def Controller.Bounded (a : Controller) : Prop :=
  a.cfg.Valid ∧ a.cfg.minFetchBatch ≤ a.decision.fetchBatch ∧
    a.decision.fetchBatch ≤ a.cfg.maxFetchBatch

theorem newAdaptivePressure_bounded (cfg : AdaptivePressureConfig) :
    (newAdaptivePressure cfg).Bounded :=
  ⟨cfg.withDefaults_valid, Int64.le_iff_toInt_le.mpr cfg.withDefaults_valid.fetchBatch_le,
    Int64.le_refl _⟩

theorem Controller.Bounded.observe {a : Controller} (h : a.Bounded) (x : AdaptivePressureInput) :
    (a.observe x).1.Bounded := by
  unfold Controller.observe
  split_ifs
  · exact h
  · obtain ⟨hcfg, -⟩ := h
    refine ⟨hcfg, ?_⟩
    simp only [decideAdaptivePressure, hcfg.withDefaults_eq]
    exact clamp_within hcfg _

theorem observe_cfg (a : Controller) (x : AdaptivePressureInput) : (a.observe x).1.cfg = a.cfg := by
  unfold Controller.observe
  split_ifs <;> rfl

-- A controller after some observations.
def observes (a : Controller) (inputs : List AdaptivePressureInput) : Controller :=
  inputs.foldl (fun a x => (a.observe x).1) a

theorem Controller.Bounded.observes {a : Controller} (h : a.Bounded)
    (inputs : List AdaptivePressureInput) :
    (observes a inputs).Bounded ∧ (observes a inputs).cfg = a.cfg := by
  induction inputs generalizing a with
  | nil => exact ⟨h, rfl⟩
  | cons x inputs ih =>
    obtain ⟨hbounded, hcfg⟩ := ih (h.observe x)
    exact ⟨hbounded, hcfg.trans (observe_cfg a x)⟩

-- Whatever a controller has observed, the next fetch is within the limits.
theorem fetchBatchOr_within (cfg : AdaptivePressureConfig) (henabled : cfg.enabled = true)
    (inputs : List AdaptivePressureInput) (defaultBatch : Int64) :
    let batch := fetchBatchOr (some (observes (newAdaptivePressure cfg) inputs)) defaultBatch
    cfg.withDefaults.minFetchBatch ≤ batch ∧ batch ≤ cfg.withDefaults.maxFetchBatch := by
  obtain ⟨⟨hvalid, hmin, hmax⟩, hcfg⟩ := (newAdaptivePressure_bounded cfg).observes inputs
  have hon : (observes (newAdaptivePressure cfg) inputs).cfg.enabled = true := by
    rw [hcfg]
    exact henabled
  have hpos : 0 < (observes (newAdaptivePressure cfg) inputs).decision.fetchBatch := by
    rw [Int64.lt_iff_toInt_lt]
    exact hvalid.minFetchBatch_pos.trans_le (Int64.le_iff_toInt_le.mp hmin)
  rw [hcfg] at hmin hmax
  simp only [fetchBatchOr, hon, Bool.not_true, if_pos hpos]
  exact ⟨hmin, hmax⟩

end Controllers

end NatsClient.AdaptivePressure
