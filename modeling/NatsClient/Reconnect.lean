import NatsClient.Lib.Backoff
import NatsClient.Lib.Loop
import NatsClient.Lib.Signed

namespace NatsClient.Reconnect

open Lib.Backoff Lib.Loop Lib.Signed

-- Durations are in nanoseconds.
def defaultReconnectWait : Int64 := 1000000000
def defaultMaxReconnectDelay : Int64 := 30000000000
def reconnectDelayMultiplier : Int64 := 2

-- One turn of the loop: it returns the cap, or goes on with the next delay.
def delayTurn (delay : Int64) : Int64 ⊕ Int64 :=
  if delay ≥ defaultMaxReconnectDelay / reconnectDelayMultiplier then
    .inr defaultMaxReconnectDelay
  else .inl (delay * reconnectDelayMultiplier)

def clamp (delay : Int64) : Int64 :=
  if delay > defaultMaxReconnectDelay then defaultMaxReconnectDelay else delay

def baseDelay (base : Int64) : Int64 := if base ≤ 0 then defaultReconnectWait else base

-- The variable i counts from 1 to attempts.
def turns (attempts : Int64) : Nat := ((if attempts < 1 then 1 else attempts).toInt - 1).toNat

def cappedExponentialReconnectDelay (base attempts : Int64) : Int64 :=
  (iterate delayTurn (turns attempts) (baseDelay base)).elim clamp id

section Turn

variable {delay next : Int64}

theorem toInt_cap : defaultMaxReconnectDelay.toInt = 30000000000 := rfl

-- A turn that goes on stays below the cap, so the product is the one of the integers.
theorem delayTurn_inl (hpos : 0 < delay.toInt) (h : delayTurn delay = .inl next) :
    next.toInt = delay.toInt * 2 ∧ delay.toInt * 2 < defaultMaxReconnectDelay.toInt := by
  unfold delayTurn at h
  split_ifs at h with hhalf
  obtain rfl := Sum.inl.inj h
  have hlt : delay.toInt < 15000000000 := Int64.lt_iff_toInt_lt.mp (Int64.not_le.mp hhalf)
  have hdouble : (delay * reconnectDelayMultiplier).toInt = delay.toInt * 2 := by
    rw [reconnectDelayMultiplier, toInt_double delay hpos, if_pos (by omega)]
  rw [hdouble, toInt_cap]
  omega

theorem delayTurn_inr {result : Int64} (h : delayTurn delay = .inr result) :
    result = defaultMaxReconnectDelay ∧ defaultMaxReconnectDelay.toInt ≤ delay.toInt * 2 := by
  unfold delayTurn at h
  split_ifs at h with hhalf
  have hle : 15000000000 ≤ delay.toInt := Int64.le_iff_toInt_le.mp hhalf
  rw [toInt_cap]
  exact ⟨(Sum.inr.inj h).symm, by omega⟩

theorem toInt_clamp (delay : Int64) :
    (clamp delay).toInt = min delay.toInt defaultMaxReconnectDelay.toInt :=
  toInt_ite_gt delay defaultMaxReconnectDelay

end Turn

theorem baseDelay_pos (base : Int64) : 0 < (baseDelay base).toInt :=
  toInt_default_pos base (by decide)

theorem turns_eq (attempts : Int64) : turns attempts = (max attempts.toInt 1 - 1).toNat := by
  have hone : (1 : Int64).toInt = 1 := rfl
  unfold turns
  rw [toInt_ite_lt, hone]

-- The induction is on the turns, from every delay: the doubling is done first or last alike.
theorem toInt_iterate (turns : Nat) (delay : Int64) (hpos : 0 < delay.toInt) :
    ((iterate delayTurn turns delay).elim clamp id).toInt =
      capped delay.toInt defaultMaxReconnectDelay.toInt turns := by
  induction turns generalizing delay with
  | zero =>
    rw [iterate, Sum.elim_inl, toInt_clamp, capped, Int.pow_zero, Int.mul_one]
  | succ turns ih =>
    cases h : delayTurn delay with
    | inl next =>
      obtain ⟨hnext, _⟩ := delayTurn_inl hpos h
      rw [iterate_succ_of_inl h, ih next (by omega), hnext, capped_double]
    | inr result =>
      obtain ⟨rfl, hcap⟩ := delayTurn_inr h
      rw [capped_eq_cap hpos.le hcap]
      simp [iterate, h]

theorem toInt_delay (base attempts : Int64) :
    (cappedExponentialReconnectDelay base attempts).toInt =
      capped (baseDelay base).toInt defaultMaxReconnectDelay.toInt
        (max attempts.toInt 1 - 1).toNat := by
  rw [← turns_eq]
  exact toInt_iterate _ _ (baseDelay_pos base)

theorem visits_pos {base delay : Int64} (h : Visits delayTurn (baseDelay base) delay) :
    0 < delay.toInt := by
  refine (h.invariant (P := fun d => 0 < d.toInt) (fun d next hd hnext => ?_)
    (baseDelay_pos base)).1
  have hdouble := (delayTurn_inl hd hnext).1
  omega

theorem cappedExponentialReconnectDelay_exact (base attempts : Int64) :
    let b := if base.toInt ≤ 0 then 1000000000 else base.toInt
    let delay := fun n => (cappedExponentialReconnectDelay base n).toInt
    delay attempts = min (b * 2 ^ (max attempts.toInt 1 - 1).toNat) 30000000000 ∧
      -- no multiplication of the loop overflows
      (∀ d, Visits delayTurn (baseDelay base) d → ∀ next, delayTurn d = .inl next →
        next.toInt = d.toInt * 2) ∧
      0 < delay attempts ∧ delay attempts ≤ 30000000000 ∧
      ∀ more : Int64, attempts.toInt ≤ more.toInt → delay attempts ≤ delay more := by
  intro b delay
  have hb : (baseDelay base).toInt = b := by
    have hzero : (0 : Int64).toInt = 0 := rfl
    simp only [baseDelay, Int64.le_iff_toInt_le, hzero, b]
    split_ifs <;> rfl
  have hdelay (n : Int64) : delay n = capped b 30000000000 (max n.toInt 1 - 1).toNat := by
    rw [← hb]
    exact toInt_delay base n
  have hpos : 0 < b := hb ▸ baseDelay_pos base
  refine ⟨hdelay attempts, fun d hd next hnext => (delayTurn_inl (visits_pos hd) hnext).1, ?_, ?_,
    fun more hle => ?_⟩
  · rw [hdelay]
    exact capped_pos hpos (by decide) _
  · rw [hdelay]
    exact capped_le _ _ _
  · rw [hdelay, hdelay]
    exact capped_mono hpos (by decide) (by omega)

end NatsClient.Reconnect
