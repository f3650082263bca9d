import Mathlib.Algebra.Group.Nat.Defs
import Mathlib.Data.List.Basic
import Mathlib.Logic.Function.Basic

namespace NatsClient.Graduate

inductive GraduatePhase
  | ramping
  | holding
  | promoteReady
  | aborted
  deriving DecidableEq, Repr

structure GraduateConfig where
  startRate : Float
  maxRate : Float
  step : Float
  maxMismatchRate : Float
  window : Int

def GraduateConfig.withDefaults (c : GraduateConfig) : GraduateConfig :=
  let startRate := if c.startRate ≤ 0 then 0.05 else c.startRate
  let maxRate := if c.maxRate ≤ 0 then 1 else c.maxRate
  let maxRate := if maxRate > 1 then 1 else maxRate
  { startRate := if startRate > maxRate then maxRate else startRate
    maxRate := maxRate
    step := if c.step ≤ 0 then 0.2 else c.step
    maxMismatchRate := if c.maxMismatchRate ≤ 0 then 0.01 else c.maxMismatchRate
    window := if c.window ≤ 0 then 500 else c.window }

theorem GraduateConfig.withDefaults_window_pos (c : GraduateConfig) :
    0 < c.withDefaults.window := by
  dsimp only [withDefaults]
  split_ifs with h <;> omega

-- What the steps below ask of a configuration. Rates are in millionths, as they are stored.
structure Policy where
  window : Nat
  window_pos : 0 < window
  startRate : Nat
  -- of the mismatches and the samples
  exceeds : Nat → Nat → Bool
  atMax : Nat → Bool
  nextRate : Nat → Nat

def GraduateConfig.policy (c : GraduateConfig) : Policy where
  window := c.withDefaults.window.toNat
  window_pos := by
    have h := c.withDefaults_window_pos
    omega
  startRate := (c.withDefaults.startRate * 1e6).toUInt64.toNat
  exceeds mismatches samples :=
    Float.ofNat mismatches / Float.ofNat samples > c.withDefaults.maxMismatchRate
  atMax rate := Float.ofNat rate / 1e6 + 1e-9 ≥ c.withDefaults.maxRate
  nextRate rate :=
    let rate := Float.ofNat rate / 1e6
    (min c.withDefaults.maxRate (rate + c.withDefaults.step) * 1e6).toUInt64.toNat

-- Where a call of the function that observeCompare returns is: what it does next.
inductive ComparePc
  -- samples.Add
  | idle
  -- matches.Add or mismatches.Add
  | added (matched : Bool)
  -- the loads of evaluateWindow: phase, samples, mismatches
  | counted
  | phased
  | boundary (samples : Nat)
  -- Abort: the reason, then the phase
  | failing
  | aborting
  -- rate.Load
  | passed
  -- the store of PhasePromoteReady
  | ready
  -- rate.Store, then the store of PhaseRamping
  | stepping (next : Nat)
  | resuming
  | returned
  deriving DecidableEq, Repr

inductive AbortPc
  | idle
  | reasoned
  | returned
  deriving DecidableEq, Repr

inductive PromotePc
  | idle
  | loaded
  | returned
  deriving DecidableEq, Repr

-- A Graduate, the calls on it, and what has happened: the results in the order of samples.Add,
-- the checks of evaluateWindow with the samples and mismatches they read, the number of
-- comparisons that have returned, and the number of results when the phase first became
-- PromoteReady or Aborted.
structure State (C A P : Type) where
  rate : Nat
  matchCount : Nat
  mismatches : Nat
  samples : Nat
  phase : GraduatePhase
  reason : String
  compare : C → ComparePc
  aborter : A → AbortPc
  promoter : P → PromotePc
  outcomes : List Bool
  judged : List (Nat × Nat)
  completed : Nat
  leftAt : Option Nat

inductive Act (C A P : Type)
  -- `matched` is what base returns
  | compare (call : C) (matched : Bool)
  | abort (call : A) (reason : String)
  | promote (call : P)

variable {C A P : Type}

-- phase.Store.
def State.storePhase (s : State C A P) (phase : GraduatePhase) : State C A P :=
  { s with
    phase := phase
    leftAt :=
      if phase = .aborted ∨ phase = .promoteReady then s.leftAt <|> some s.outcomes.length
      else s.leftAt }

section

variable [DecidableEq C]

def State.goto (s : State C A P) (call : C) (pc : ComparePc) : State C A P :=
  { s with compare := Function.update s.compare call pc }

def State.finish (s : State C A P) (call : C) : State C A P :=
  { s.goto call .returned with completed := s.completed + 1 }

-- The next atomic operation of a comparison.
def compareStep (pol : Policy) (s : State C A P) (call : C) (matched : Bool) :
    Option (State C A P) :=
  match s.compare call with
  | .idle =>
    some ({ s with
      samples := (s.samples + 1) % 2 ^ 64
      outcomes := s.outcomes ++ [matched] }.goto call (.added matched))
  | .added true => some ({ s with matchCount := (s.matchCount + 1) % 2 ^ 64 }.goto call .counted)
  | .added false => some ({ s with mismatches := (s.mismatches + 1) % 2 ^ 64 }.goto call .counted)
  | .counted =>
    if s.phase = .aborted ∨ s.phase = .promoteReady then some (s.finish call)
    else some (s.goto call .phased)
  | .phased =>
    if s.samples = 0 ∨ s.samples % pol.window ≠ 0 then some (s.finish call)
    else some (s.goto call (.boundary s.samples))
  | .boundary samples =>
    let s := { s with judged := s.judged ++ [(samples, s.mismatches)] }
    if pol.exceeds s.mismatches samples then some (s.goto call .failing)
    else some (s.goto call .passed)
  | .failing => some ({ s with reason := "mismatch_rate" }.goto call .aborting)
  | .aborting => some ((s.storePhase .aborted).finish call)
  | .passed =>
    if pol.atMax s.rate then some (s.goto call .ready)
    else some (s.goto call (.stepping (pol.nextRate s.rate)))
  | .ready => some ((s.storePhase .promoteReady).finish call)
  | .stepping next => some ({ s with rate := next }.goto call .resuming)
  | .resuming => some ((s.storePhase .ramping).finish call)
  | .returned => none

end

-- Abort.
def abortStep [DecidableEq A] (s : State C A P) (call : A) (reason : String) :
    Option (State C A P) :=
  match s.aborter call with
  | .idle => some { s with reason := reason, aborter := Function.update s.aborter call .reasoned }
  | .reasoned =>
    some { s.storePhase .aborted with aborter := Function.update s.aborter call .returned }
  | .returned => none

-- Promote.
def promoteStep [DecidableEq P] (s : State C A P) (call : P) : Option (State C A P) :=
  match s.promoter call with
  | .idle =>
    let next := if s.phase = .promoteReady then PromotePc.loaded else .returned
    some { s with promoter := Function.update s.promoter call next }
  | .loaded =>
    some { s.storePhase .holding with promoter := Function.update s.promoter call .returned }
  | .returned => none

def step [DecidableEq C] [DecidableEq A] [DecidableEq P] (pol : Policy) (s : State C A P) :
    Act C A P → Option (State C A P)
  | .compare call matched => compareStep pol s call matched
  | .abort call reason => abortStep s call reason
  | .promote call => promoteStep s call

def newGraduate (pol : Policy) : State C A P where
  rate := pol.startRate
  matchCount := 0
  mismatches := 0
  samples := 0
  phase := .ramping
  reason := ""
  compare _ := .idle
  aborter _ := .idle
  promoter _ := .idle
  outcomes := []
  judged := []
  completed := 0
  leftAt := none

end NatsClient.Graduate
