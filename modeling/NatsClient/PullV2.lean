import NatsClient.Process

namespace NatsClient.PullV2

-- A pullConsumerV2 and what its calls of Fetch meet, by their number: the size they ask for,
-- the error of the request, and the error of the batch once its channel is closed. The channel
-- of call k brings the messages of batch k.
structure Setup (Q : Type) extends Pull.Setup Q where
  path_eq : path = .v2
  fetchBatch : Nat → Int
  requestErr : Nat → Option GoError
  batchErr : Nat → Option GoError

-- The next step of Process and of the Fetch that it calls.
inductive Pc
  | top
  -- the circuit's pause
  | pause
  -- ensureOpen, ctx.Err, cons.Fetch
  | fetch
  | opened
  | request
  -- range batchResult.Messages() with i messages in `out`, and the look at the context once
  -- message i has been taken
  | range (i : Nat)
  | check (i : Nat)
  -- batchResult.Error, with n messages in `out`
  | drained (n : Nat)
  -- Fetch has returned the first n messages and an error
  | fetched (n : Nat) (err : Option GoError)
  -- nakRemaining of the first n messages, from message i on
  | nak (i n : Nat) (err : GoError)
  | batch
  | returned (err : GoError)
  deriving DecidableEq, Repr

-- Messages are pairs of a batch and an index: those taken from a channel, those handed to
-- processBatch, and those that Process has called Nak on.
structure State (Q W S : Type) where
  pc : Pc
  -- The number of the Fetch that is under way, or of the next one.
  next : Nat
  closed : Bool
  batch : Pull.State Q W S
  taken : List (Nat × Nat)
  handed : List (Nat × Nat)
  nakked : List (Nat × Nat)

inductive Act (Q W S : Type)
  | loop
  -- the circuit pauses before a Fetch, and the pause ends
  | pause
  | resume
  -- another goroutine calls Close
  | close
  | batch (act : Pull.Act Q W S)

variable {Q W S : Type}

namespace Setup

def fetchFailed (u : Setup Q) (k : Nat) (e : GoError) : GoError :=
  if e.is .canceled || e.is .deadlineExceeded then e
  else .wrap ("pull v2 fetch batch=" ++ toString (u.fetchBatch k) ++ ": ") e ""

-- The error of Fetch when the channel has been closed with n messages in `out`.
def drainedErr (u : Setup Q) (k n : Nat) : Option GoError :=
  match u.batchErr k with
  | some e =>
    if n = 0 then
      if Process.isFetchIdleErr e then none else some (u.fetchFailed k e)
    else none
  | none => none

end Setup

def ensureOpenErr : GoError := .foreign "pull: subscription closed" []

namespace State

def goto (s : State Q W S) (pc : Pc) : State Q W S := { s with pc := pc }

-- The `continue` after a Fetch.
def again (s : State Q W S) : State Q W S := { s with pc := .top, next := s.next + 1 }

-- The first n messages go to processBatch.
def hand (s : State Q W S) (u : Setup Q) (n : Nat) : State Q W S :=
  { s with
    pc := .batch
    next := s.next + 1
    batch := s.batch.begin u.toSetup s.next
    handed := s.handed ++ (List.range n).map fun i => (s.next, i) }

def nak (s : State Q W S) (u : Setup Q) (i : Nat) : State Q W S :=
  { s with
    batch := s.batch.deliver s.next i
      ((s.batch.delivery s.next i).settle (u.wire s.next i) (.nak 0)).1
    nakked := s.nakked ++ [(s.next, i)] }

end State

def fetchedStep (u : Setup Q) (s : State Q W S) (n : Nat) : Option GoError → State Q W S
  | none => if n = 0 then s.again else s.hand u n
  | some e =>
    match Process.fetchVerdict .v2 e with
    | .nakAndReturn => s.goto (.nak 0 n e)
    | .continue => s.again
    | .return => s.goto (.returned (.wrap "pull process fetch: " e ""))

def loopStep (u : Setup Q) (s : State Q W S) : Option (State Q W S) :=
  match s.pc with
  | .top =>
    match s.batch.ctxErr with
    | some e => some (s.goto (.returned (Pull.processErr e)))
    | none => some (s.goto .fetch)
  | .pause =>
    match s.batch.ctxErr with
    | some e => some (s.goto (.returned (Pull.processErr e)))
    | none => none
  | .fetch => some (s.goto (if s.closed then .fetched 0 (some ensureOpenErr) else .opened))
  | .opened =>
    match s.batch.ctxErr with
    | some e => some (s.goto (.fetched 0 (some e)))
    | none => some (s.goto .request)
  | .request =>
    match u.requestErr s.next with
    | some e => some (s.goto (.fetched 0 (some (u.fetchFailed s.next e))))
    | none => some (s.goto (.range 0))
  | .range i =>
    if i < u.size s.next then
      some ({ s with taken := s.taken ++ [(s.next, i)] }.goto (.check i))
    else some (s.goto (.drained i))
  | .check i =>
    match s.batch.ctxErr with
    | some e => some (s.goto (.fetched i (some e)))
    | none => some (s.goto (.range (i + 1)))
  | .drained n => some (s.goto (.fetched n (u.drainedErr s.next n)))
  | .fetched n err => some (fetchedStep u s n err)
  | .nak i n e =>
    if i < n then some ((s.nak u i).goto (.nak (i + 1) n e))
    else some (s.goto (.returned (Pull.processErr e)))
  | .batch =>
    match s.batch.pc with
    | .returned none => some (s.goto .top)
    | .returned (some e) => some (s.goto (if Process.fatal e then .returned e else .top))
    | _ => none
  | .returned _ => none

variable [DecidableEq Q] [DecidableEq W] [DecidableEq S]

def step (u : Setup Q) (s : State Q W S) : Act Q W S → Option (State Q W S)
  | .loop => loopStep u s
  | .pause => if s.pc = .fetch then some (s.goto .pause) else none
  | .resume => if s.pc = .pause then some (s.goto .top) else none
  | .close => some { s with closed := true }
  | .batch act => (Pull.step u.toSetup s.batch act).map fun batch => { s with batch := batch }

def initial (u : Setup Q) :
    State Q (Fin (WorkerPool.poolLen u.consumer.cfg.poolSize)) S where
  pc := .top
  next := 0
  closed := false
  batch := Pull.idle u.toSetup
  taken := []
  handed := []
  nakked := []

end NatsClient.PullV2
