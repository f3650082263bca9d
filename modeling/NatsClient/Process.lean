import NatsClient.Pull

namespace NatsClient.Process

-- A consumer with the batches that its calls of Fetch return, and their errors.
structure Setup (Q : Type) extends Pull.Setup Q where
  fetchErr : Nat → Option GoError

inductive Pc
  | top
  | fetch
  | batch
  | returned (err : GoError)
  deriving DecidableEq, Repr

structure State (Q W S : Type) where
  pc : Pc
  -- The number of the next Fetch.
  next : Nat
  batch : Pull.State Q W S

inductive Act (Q W S : Type)
  | loop
  -- the circuit pauses before a Fetch
  | pause
  | batch (act : Pull.Act Q W S)

def isFetchIdleErr (e : GoError) : Bool :=
  e.is .deadlineExceeded || containsText (toLower e.message) "timeout" ||
    containsText e.message "no messages" || containsText e.message "404" ||
    containsText e.message "408"

-- What Process does after a Fetch that failed.
inductive FetchVerdict
  | continue
  | nakAndReturn
  | return
  deriving DecidableEq, Repr

def fetchVerdict : Pull.Path → GoError → FetchVerdict
  | .legacy, e =>
    if e.is .errTimeout || e.is .errNoHeartbeat || e.is .deadlineExceeded then .continue
    else .return
  | .v2, e =>
    if e.is .canceled then .nakAndReturn
    else if e.is .deadlineExceeded || isFetchIdleErr e then .continue
    else .return

-- The errors of a batch that end Process.
def fatal (e : GoError) : Bool :=
  e.is .canceled || e.is .deadlineExceeded || e.is .errPoolStopped

variable {Q W S : Type}

def fetchStep (u : Setup Q) (s : State Q W S) : State Q W S :=
  let begun := s.batch.begin u.toSetup s.next
  match u.fetchErr s.next with
  | none => { pc := .batch, next := s.next + 1, batch := begun }
  | some e =>
    match fetchVerdict u.path e with
    | .continue => { s with pc := .top, next := s.next + 1 }
    | .return =>
      { s with pc := .returned (.wrap "pull process fetch: " e ""), next := s.next + 1 }
    -- the messages are Nak'd one after the other before Process returns
    | .nakAndReturn =>
      { pc := .batch, next := s.next + 1
        batch := begun.goto (.nak 0 (.ret (Pull.processErr e))) }

def loopStep (u : Setup Q) (s : State Q W S) : Option (State Q W S) :=
  match s.pc with
  | .top =>
    match s.batch.ctxErr with
    | some e => some { s with pc := .returned (Pull.processErr e) }
    | none => some { s with pc := .fetch }
  | .fetch => some (fetchStep u s)
  | .batch =>
    match s.batch.pc with
    | .returned none => some { s with pc := .top }
    | .returned (some e) =>
      if fatal e then some { s with pc := .returned e } else some { s with pc := .top }
    | _ => none
  | .returned _ => none

variable [DecidableEq Q] [DecidableEq W] [DecidableEq S]

def step (u : Setup Q) (s : State Q W S) : Act Q W S → Option (State Q W S)
  | .loop => loopStep u s
  | .pause => if s.pc = .fetch then some { s with pc := .top } else none
  | .batch act => (Pull.step u.toSetup s.batch act).map fun batch => { s with batch := batch }

def initial (u : Setup Q) :
    State Q (Fin (WorkerPool.poolLen u.consumer.cfg.poolSize)) S where
  pc := .top
  next := 0
  batch := Pull.idle u.toSetup

end NatsClient.Process
