import Mathlib.Logic.Function.Basic
import NatsClient.Supervisor

namespace NatsClient.Supervise

open Supervisor (nextBackoff)

-- The fields of SupervisorConfig that SupervisePullProcess does not read come last.
structure SupervisorConfig extends Supervisor.SupervisorConfig where
  checkInterval : Int64
  healthyBackoffInterval : Int64
  healthyChecksBeforeBackoff : Int

def defaultSupervisorCheckInterval : Int64 := 1000000000

def SupervisorConfig.withDefaults (c : SupervisorConfig) : SupervisorConfig :=
  { c with
    toSupervisorConfig := c.toSupervisorConfig.withDefaults
    checkInterval :=
      if c.checkInterval ≤ 0 then defaultSupervisorCheckInterval else c.checkInterval }

inductive SupervisorEventKind
  | resubscribed
  | giveUp
  | invalid
  deriving DecidableEq, Repr

structure SupervisorEvent where
  err : Option GoError
  kind : SupervisorEventKind
  attempt : Int
  deriving DecidableEq, Repr

-- Where the goroutine of `loop` is. Subscriptions are numbered as subscribe returns them.
inductive LoopPc
  | select
  | waiting
  | subscribing
  | install (newSub : Nat)
  | drop (old : Option Nat)
  -- cleanupSub
  | cleanup
  | release (sub : Option Nat)
  | exited
  deriving DecidableEq, Repr

inductive StopPc
  | idle
  | calling
  | returned
  deriving DecidableEq, Repr

-- The progress of stopOnce.Do, with the caller that runs the function and what it read of
-- s.sub.
inductive Once (Q : Type)
  | fresh
  | closing (caller : Q)
  | loading (caller : Q)
  | releasing (caller : Q) (sub : Option Nat)
  | done (sub : Option Nat)
  deriving DecidableEq

-- stopCh is closed.
def Once.closed {Q : Type} : Once Q → Bool
  | fresh | closing _ => false
  | loading _ | releasing .. | done _ => true

def Once.read {Q : Type} : Once Q → Option (Option Nat)
  | fresh | closing _ | loading _ => none
  | releasing _ sub | done sub => some sub

structure State (Q : Type) where
  sub : Option Nat
  -- how many subscriptions subscribe has returned, and the Unsubscribe calls in their order
  made : Nat
  unsubscribed : List Nat
  valid : Nat → Bool
  pc : LoopPc
  attempts : Int
  backoff : Int64
  currentInterval : Int64
  healthyStreak : Int
  events : List SupervisorEvent
  ctxDone : Bool
  once : Once Q
  stopper : Q → StopPc

-- What the loop takes of its select, or how a call of it returns.
inductive Choice
  | ctx
  | stopCh
  | proceed
  | failed
  deriving DecidableEq, Repr

inductive Act (Q : Type)
  | cancel
  | validity (sub : Nat) (valid : Bool)
  | loop (choice : Choice)
  | stop (caller : Q)

variable {Q : Type}

def State.emit (s : State Q) (event : SupervisorEvent) : State Q :=
  { s with events := s.events ++ [event] }

def State.unsubscribe (s : State Q) (sub : Option Nat) : State Q :=
  { s with unsubscribed := s.unsubscribed ++ sub.toList }

-- The poll interval after one more healthy check.
def healthyInterval (cfg : SupervisorConfig) (streak : Int) (current : Int64) : Int64 :=
  if cfg.healthyChecksBeforeBackoff ≤ streak ∧ current < cfg.healthyBackoffInterval then
    let next := current * 2
    if cfg.healthyBackoffInterval < next then cfg.healthyBackoffInterval else next
  else current

-- A tick of the loop.
def tick (cfg : SupervisorConfig) (s : State Q) : State Q :=
  if s.sub.any s.valid then
    let s := { s with attempts := 0, backoff := cfg.initialBackoff }
    if 0 < cfg.healthyBackoffInterval ∧ 0 < cfg.healthyChecksBeforeBackoff then
      { s with
        healthyStreak := s.healthyStreak + 1
        currentInterval := healthyInterval cfg (s.healthyStreak + 1) s.currentInterval }
    else s
  else
    let s := { s with healthyStreak := 0, currentInterval := cfg.checkInterval }
    let s := s.emit ⟨none, .invalid, s.attempts⟩
    if 0 ≤ cfg.maxRetries ∧ cfg.maxRetries ≤ s.attempts then
      { s.emit ⟨some (.sentinel .errSupervisorGiveUp), .giveUp, s.attempts⟩ with pc := .cleanup }
    else { s with attempts := s.attempts + 1, pc := .waiting }

def loopStep (cfg : SupervisorConfig) (s : State Q) : Choice → Option (State Q)
  | .ctx =>
    if (s.pc = .select ∨ s.pc = .waiting) ∧ s.ctxDone then some { s with pc := .cleanup }
    else none
  | .stopCh =>
    if (s.pc = .select ∨ s.pc = .waiting) ∧ s.once.closed then some { s with pc := .exited }
    else none
  | .failed =>
    if s.pc = .subscribing then
      some { s with pc := .select, backoff := nextBackoff s.backoff cfg.maxBackoff }
    else none
  | .proceed =>
    match s.pc with
    | .select => some (tick cfg s)
    | .waiting => some { s with pc := .subscribing }
    | .subscribing =>
      some { s with
        pc := .install s.made
        made := s.made + 1
        valid := Function.update s.valid s.made true }
    | .install newSub => some { s with pc := .drop s.sub, sub := some newSub }
    | .drop old =>
      let s := s.unsubscribe old
      some { s.emit ⟨none, .resubscribed, s.attempts⟩ with
        pc := .select
        backoff := cfg.initialBackoff }
    | .cleanup => some { s with pc := .release s.sub, sub := none }
    | .release sub => some { s.unsubscribe sub with pc := .exited }
    | .exited => none

variable [DecidableEq Q]

-- Stop. A caller that finds the function running waits for its end.
def stopStep (s : State Q) (q : Q) : Option (State Q) :=
  match s.stopper q, s.once with
  | .idle, _ => some { s with stopper := Function.update s.stopper q .calling }
  | .calling, .fresh => some { s with once := .closing q }
  | .calling, .closing p => if p = q then some { s with once := .loading q } else none
  | .calling, .loading p => if p = q then some { s with once := .releasing q s.sub } else none
  | .calling, .releasing p sub =>
    if p = q then
      some { s.unsubscribe sub with
        once := .done sub
        stopper := Function.update s.stopper q .returned }
    else none
  | .calling, .done _ => some { s with stopper := Function.update s.stopper q .returned }
  | .returned, _ => none

def step (cfg : SupervisorConfig) (s : State Q) : Act Q → Option (State Q)
  | .cancel => some { s with ctxDone := true }
  | .validity sub valid => some { s with valid := Function.update s.valid sub valid }
  | .loop choice => loopStep cfg.withDefaults s choice
  | .stop q => stopStep s q

-- Supervise after its first call of subscribe.
def supervise (cfg : SupervisorConfig) : State Q where
  sub := some 0
  made := 1
  unsubscribed := []
  valid := Function.update (fun _ => false) 0 true
  pc := .select
  attempts := 0
  backoff := cfg.withDefaults.initialBackoff
  currentInterval := cfg.withDefaults.checkInterval
  healthyStreak := 0
  events := []
  ctxDone := false
  once := .fresh
  stopper _ := .idle

end NatsClient.Supervise
