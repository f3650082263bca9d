import NatsClient.Process

namespace NatsClient.Supervisor

structure SupervisorConfig where
  initialBackoff : Int64
  maxBackoff : Int64
  maxRetries : Int
  onEvent : Bool
  deriving DecidableEq

def defaultSupervisorMaxRetries : Int := 10

def defaultSupervisorInitialBackoff : Int64 := 1000000000

def defaultSupervisorMaxBackoff : Int64 := 30000000000

def SupervisorConfig.withDefaults (c : SupervisorConfig) : SupervisorConfig :=
  { c with
    maxRetries := if c.maxRetries = 0 then defaultSupervisorMaxRetries else c.maxRetries
    initialBackoff :=
      if c.initialBackoff ≤ 0 then defaultSupervisorInitialBackoff else c.initialBackoff
    maxBackoff := if c.maxBackoff ≤ 0 then defaultSupervisorMaxBackoff else c.maxBackoff }

def nextBackoff (current maxBackoff : Int64) : Int64 :=
  let next := current * 2
  if maxBackoff < next then maxBackoff else next

inductive SupervisorEventKind
  | resubscribed
  | giveUp
  deriving DecidableEq, Repr

structure SupervisorEvent where
  err : GoError
  kind : SupervisorEventKind
  attempt : Int
  deriving DecidableEq, Repr

inductive Pc
  -- the call of Pull, before Process
  | pull
  | process
  | backoff
  | returned (err : GoError)
  deriving DecidableEq, Repr

structure State (Q W S : Type) where
  pc : Pc
  attempts : Int
  backoff : Int64
  events : List SupervisorEvent
  proc : Process.State Q W S

inductive Act (Q W S : Type)
  | pull (err : Option GoError)
  | process (act : Process.Act Q W S)
  -- Process has returned
  | observe
  | timer
  | ctxDone

variable {Q W S : Type}

-- What SupervisePullProcess does with the error of a run.
def after (cfg : SupervisorConfig) (s : State Q W S) (err : GoError) : State Q W S :=
  if err.is .canceled || err.is .deadlineExceeded then { s with pc := .returned err }
  else if 0 ≤ cfg.maxRetries ∧ cfg.maxRetries ≤ s.attempts then
    { s with
      pc := .returned (.join "" (.sentinel .errSupervisorGiveUp) ": " err "")
      events := if cfg.onEvent then s.events ++ [⟨err, .giveUp, s.attempts⟩] else s.events }
  else
    { s with
      pc := .backoff
      attempts := s.attempts + 1
      events :=
        if cfg.onEvent then s.events ++ [⟨err, .resubscribed, s.attempts + 1⟩] else s.events }

-- The loop of Process moves only while it is called; the pool and the goroutines of its
-- batches move at any time.
def allowed (pc : Pc) : Process.Act Q W S → Bool
  | .loop | .pause => pc = .process
  | .batch _ => true

variable [DecidableEq Q] [DecidableEq W] [DecidableEq S]

-- SupervisePullProcess over Consumer().Pull(...).Process.
def step (cfg : SupervisorConfig) (u : Process.Setup Q) (s : State Q W S) :
    Act Q W S → Option (State Q W S)
  | .pull err =>
    match s.pc, err with
    | .pull, none => some { s with pc := .process, proc := { s.proc with pc := .top } }
    | .pull, some e => some (after cfg.withDefaults s e)
    | _, _ => none
  | .process act =>
    if allowed s.pc act then (Process.step u s.proc act).map fun proc => { s with proc := proc }
    else none
  | .observe =>
    match s.pc, s.proc.pc with
    | .process, .returned e => some (after cfg.withDefaults s e)
    | _, _ => none
  | .timer =>
    if s.pc = .backoff then
      some { s with
        pc := .pull
        backoff := nextBackoff s.backoff cfg.withDefaults.maxBackoff }
    else none
  | .ctxDone =>
    match s.pc, s.proc.batch.ctxErr with
    | .backoff, some e => some { s with pc := .returned e }
    | _, _ => none

def initial (cfg : SupervisorConfig) (u : Process.Setup Q) :
    State Q (Fin (WorkerPool.poolLen u.consumer.cfg.poolSize)) S where
  pc := .pull
  attempts := 0
  backoff := cfg.withDefaults.initialBackoff
  events := []
  proc := Process.initial u

end NatsClient.Supervisor
