import NatsClient.Backpressure
import NatsClient.WorkerPool

namespace NatsClient.Pull

-- A message as the server has it.
structure JetMsg where
  subject : String
  reply : String
  header : Header
  data : Bytes

def jetstreamMsgToNATS (msg : JetMsg) : Msg :=
  { subject := msg.subject, reply := msg.reply, header := msg.header, data := msg.data,
    bound := false }

-- The message that Fetch of the legacy subscription returns for it.
def subscriptionMsg (msg : JetMsg) : Msg :=
  { subject := msg.subject, reply := msg.reply, header := msg.header, data := msg.data,
    bound := true }

inductive Path
  | legacy
  | v2
  deriving DecidableEq, Repr

def Path.msg : Path → JetMsg → Msg
  | .legacy => subscriptionMsg
  | .v2 => jetstreamMsgToNATS

-- One call to publish a message of a batch to the pool.
structure Call where
  round : Nat
  index : Nat
  blocking : Bool
  deriving DecidableEq, Repr

-- A consumer and the batches it fetches, by their number and the index in the batch:
-- the messages, what the handler does with each, and the network. Others publish to the
-- same pool.
structure Setup (Q : Type) where
  path : Path
  consumer : Consumer
  comp : Compressors
  concurrency : Int
  size : Nat → Nat
  jet : Nat → Nat → JetMsg
  outcome : Nat → Nat → Outcome
  wire : Nat → Nat → Wire
  others : Q → WorkerPool.Request Unit Msg Unit

-- What comes after nakRemaining.
inductive After
  | ret (err : GoError)
  | close
  deriving DecidableEq, Repr

-- The next step of processBatch.
inductive Pc
  -- the sequential loop
  | check (i : Nat)
  | handle (i : Nat)
  -- nakRemaining, from message i on
  | nak (i : Nat) (after : After)
  -- processBatchWithPool
  | poolCheck (i : Nat)
  | offer (i : Nat)
  | backpressure (i : Nat)
  | decide (i : Nat) (depth : Int)
  | publish (i : Nat)
  | wait
  | finish
  -- processBatchConcurrent
  | few (i : Nat)
  | produce (i : Nat)
  | produceCtx (i : Nat)
  | close
  | join
  | last
  | returned (err : Option GoError)
  deriving DecidableEq, Repr

-- The next step of a worker of processBatchConcurrent.
inductive WorkerPc
  | recv
  | check (i : Nat)
  | nak (i : Nat)
  | handle (i : Nat)
  | record (err : GoError)
  | exited
  deriving DecidableEq, Repr

-- The function that the pool runs for a message.
inductive JobPc
  | unborn
  | running
  | recording (err : Option GoError)
  | finished
  deriving DecidableEq, Repr

structure State (Q W S : Type) where
  round : Nat
  pc : Pc
  ctxErr : Option GoError
  -- firstErr and wg of each batch, which the functions in the pool keep hold of.
  firstErr : Nat → Option GoError
  wg : Nat → Int
  -- The channel of processBatchConcurrent and its workers.
  jobs : List Nat
  closed : Bool
  worker : Nat → WorkerPc
  job : Call → JobPc
  delivery : Nat → Nat → Delivery
  pool : WorkerPool.State Unit Msg Unit (Call ⊕ Q) W S

inductive Act (Q W S : Type)
  -- the goroutine of processBatch; where it waits, for the context or for the messages
  | drive (viaCtx : Bool)
  | worker (n : Nat)
  | job (call : Call)
  | pool (act : WorkerPool.Act (Call ⊕ Q) W S)
  | cancel (err : GoError)

variable {Q W S : Type}

namespace Setup

def msg (u : Setup Q) (k i : Nat) : Msg := u.path.msg (u.jet k i)

def handler (u : Setup Q) (k i : Nat) : Handler := fun d => (d, u.outcome k i)

def pool (u : Setup Q) : WorkerPool.Config Unit Msg Unit (Call ⊕ Q) where
  capacity := WorkerPool.bufLen u.consumer.cfg.workerBufferSize
  registerFn := none
  request
    | .inl call => ⟨(), u.msg call.round call.index, true, some (), !call.blocking⟩
    | .inr q => u.others q

-- The workers of processBatchConcurrent.
def workers (u : Setup Q) (k : Nat) : Nat :=
  if (u.size k : Int) < u.concurrency then u.size k else u.concurrency.toNat

-- Where processBatchConcurrent starts.
def concurrentPc (u : Setup Q) : Pc := if u.concurrency ≤ 1 then .few 0 else .produce 0

-- Where processBatch starts, of either consumer.
def startPc (u : Setup Q) (k : Nat) : Pc :=
  if u.size k = 0 then .returned none
  else if u.consumer.cfg.workerPoolEnabled then .poolCheck 0
  else if 1 < u.concurrency then u.concurrentPc
  else .check 0

-- processMessage on a message of a batch.
def processMessage (u : Setup Q) (k i : Nat) (d : Delivery) : Delivery × Option GoError :=
  NatsClient.processMessage u.comp u.consumer.cfg (u.wire k i) (u.handler k i) d

end Setup

def processErr (e : GoError) : GoError := .wrap "pull process: " e ""

namespace State

-- recordErr of the batch k.
def record (s : State Q W S) (k : Nat) (err : Option GoError) : State Q W S :=
  { s with firstErr := Function.update s.firstErr k ((s.firstErr k).or err) }

def addWg (s : State Q W S) (k : Nat) (n : Int) : State Q W S :=
  { s with wg := Function.update s.wg k (s.wg k + n) }

-- What happens to message i of batch k.
def deliver (s : State Q W S) (k i : Nat) (d : Delivery) : State Q W S :=
  { s with delivery := Function.update s.delivery k (Function.update (s.delivery k) i d) }

def goto (s : State Q W S) (pc : Pc) : State Q W S := { s with pc := pc }

-- The Nak of a message, whose error nobody looks at.
def nak (s : State Q W S) (u : Setup Q) (i : Nat) : State Q W S :=
  s.deliver s.round i ((s.delivery s.round i).settle (u.wire s.round i) (.nak 0)).1

-- The start of the batch k.
def begin (s : State Q W S) (u : Setup Q) (k : Nat) : State Q W S :=
  { s with
    round := k, pc := u.startPc k, jobs := [], closed := false, worker := fun _ => .recv }

-- The call of tryPublish in which processBatchWithPool is.
def publishing (s : State Q W S) : Option Call :=
  match s.pc with
  | .offer i => some ⟨s.round, i, false⟩
  | .publish i => some ⟨s.round, i, true⟩
  | _ => none

end State

def After.pc : After → Pc
  | .ret err => .returned (some err)
  | .close => .close

-- The end of a call of tryPublish for message i.
def published (s : State Q W S) (i : Nat) (blocking : Bool) : WorkerPool.Result → State Q W S
  | .failed e => ((s.addWg s.round (-1)).record s.round (some e)).goto .wait
  | .accepted => s.goto (.poolCheck (i + 1))
  | .rejected =>
    if blocking then s.goto (.poolCheck (i + 1))
    else (s.addWg s.round (-1)).goto (.backpressure i)

-- What enqueue makes of the error of handlePoolBackpressure.
def decided (s : State Q W S) (i : Nat) (err : Option GoError) : State Q W S :=
  if err = none ∨ errorsIs err .errPoolFull then (s.addWg s.round 1).goto (.publish i)
  else if errorsIs err .errBackpressureHandled then s.goto (.poolCheck (i + 1))
  else (s.record s.round err).goto .wait

def driveStep (u : Setup Q) (s : State Q W S) (viaCtx : Bool) : Option (State Q W S) :=
  match s.pc with
  | .check i =>
    if i < u.size s.round then
      match s.ctxErr with
      | some e => some (s.goto (.nak i (.ret (processErr e))))
      | none => some (s.goto (.handle i))
    else some (s.goto (.returned none))
  | .handle i =>
    let result := u.processMessage s.round i (s.delivery s.round i)
    some ((s.deliver s.round i result.1).goto (.check (i + 1)))
  | .nak i after =>
    if i < u.size s.round then some ((s.nak u i).goto (.nak (i + 1) after))
    else some (s.goto after.pc)
  | .poolCheck i =>
    if i < u.size s.round then
      match s.ctxErr with
      | some e => some ((s.record s.round (some (processErr e))).goto .wait)
      | none => some ((s.addWg s.round 1).goto (.offer i))
    else some (s.goto .wait)
  | .offer i =>
    match s.pool.pub (.inl ⟨s.round, i, false⟩) with
    | .done result => some (published s i false result)
    | _ => none
  | .backpressure i => some (s.goto (.decide i s.pool.shared.depth))
  | .decide i depth =>
    let result := handlePoolBackpressure u.consumer (u.wire s.round i) depth
      s.pool.shared.depth (s.delivery s.round i)
    some (decided (s.deliver s.round i result.1) i result.2)
  | .publish i =>
    match s.pool.pub (.inl ⟨s.round, i, true⟩) with
    | .done result => some (published s i true result)
    | _ => none
  | .wait =>
    match viaCtx, s.ctxErr with
    | true, some e => some ((s.record s.round (some (processErr e))).goto .finish)
    | false, _ => if s.wg s.round = 0 then some (s.goto .finish) else none
    | true, none => none
  | .finish =>
    match s.firstErr s.round with
    | some e => some (s.goto (.nak 0 (.ret e)))
    | none => some (s.goto (.returned none))
  | .few i =>
    if i < u.size s.round then
      let result := u.processMessage s.round i (s.delivery s.round i)
      let next := s.deliver s.round i result.1
      match result.2 with
      | none => some (next.goto (.few (i + 1)))
      | some e => some (next.goto (.returned (some (.wrap
          ("pull process subject=" ++ quoted (u.msg s.round i).subject ++ ": ") e ""))))
    else some (s.goto (.returned none))
  | .produce i =>
    if i < u.size s.round then
      if (s.firstErr s.round).isSome then some (s.goto (.nak i .close))
      else some (s.goto (.produceCtx i))
    else some (s.goto .close)
  | .produceCtx i =>
    if s.ctxErr.isSome then some (s.goto (.nak i .close))
    else some ({ s with jobs := s.jobs ++ [i] }.goto (.produce (i + 1)))
  | .close => some ({ s with closed := true }.goto .join)
  | .join =>
    if ∀ n < u.workers s.round, s.worker n = .exited then some (s.goto .last) else none
  | .last => some (s.goto (.returned (s.ctxErr.map processErr)))
  | .returned _ => none

def State.setWorker (s : State Q W S) (n : Nat) (pc : WorkerPc) : State Q W S :=
  { s with worker := Function.update s.worker n pc }

def workerStep (u : Setup Q) (s : State Q W S) (n : Nat) : Option (State Q W S) :=
  match s.worker n with
  | .recv =>
    match s.jobs with
    | i :: rest => some ({ s with jobs := rest }.setWorker n (.check i))
    | [] => if s.closed then some (s.setWorker n .exited) else none
  | .check i =>
    match s.ctxErr with
    | some e => some ((s.record s.round (some e)).setWorker n (.nak i))
    | none => some (s.setWorker n (.handle i))
  | .nak i => some ((s.nak u i).setWorker n .recv)
  | .handle i =>
    let result := u.processMessage s.round i (s.delivery s.round i)
    let next := s.deliver s.round i result.1
    match result.2 with
    | none => some (next.setWorker n .recv)
    | some e => some (next.setWorker n (.record (.wrap
        ("pull process subject=" ++ quoted (u.msg s.round i).subject ++ ": ") e "")))
  | .record e => some ((s.record s.round (some e)).setWorker n .recv)
  | .exited => none

def jobStep (u : Setup Q) (s : State Q W S) (call : Call) : Option (State Q W S) :=
  match s.job call with
  | .running =>
    let result := u.processMessage call.round call.index (s.delivery call.round call.index)
    some { s.deliver call.round call.index result.1 with
      job := Function.update s.job call (.recording result.2) }
  | .recording err =>
    some { (s.record call.round err).addWg call.round (-1) with
      job := Function.update s.job call .finished }
  | _ => none

variable [DecidableEq Q] [DecidableEq W] [DecidableEq S]

-- The pool runs on its own, but a call of tryPublish waits for processBatch to make it,
-- a worker waits for the function that it runs, and the calls have the context of Process.
def allowed (s : State Q W S) : WorkerPool.Act (Call ⊕ Q) W S → Bool
  | .publish (.inl call) _ | .handoff (.inl call) _ => s.publishing = some call
  | .work w _ =>
    match s.pool.work w with
    | .handling _ (.inl call) _ => s.job call = .finished
    | _ => true
  | .cancelCaller (.inl _) _ => false
  | _ => true

-- The function whose run an action of the pool starts.
def started (s : State Q W S) : WorkerPool.Act (Call ⊕ Q) W S → Option Call
  | .work w _ =>
    match s.pool.work w with
    | .invoke _ (.inl call) _ => some call
    | _ => none
  | _ => none

def poolStep (u : Setup Q) (s : State Q W S) (act : WorkerPool.Act (Call ⊕ Q) W S) :
    Option (State Q W S) :=
  if allowed s act then
    (WorkerPool.step u.pool s.pool act).map fun pool =>
      { s with
        pool := pool
        job := (started s act).elim s.job fun call => Function.update s.job call .running }
  else none

def cancelStep (s : State Q W S) (err : GoError) : Option (State Q W S) :=
  if s.ctxErr.isNone then
    some { s with
      ctxErr := some err
      pool.shared.callerErr
        | .inl _ => some err
        | .inr q => s.pool.shared.callerErr (.inr q) }
  else none

def step (u : Setup Q) (s : State Q W S) : Act Q W S → Option (State Q W S)
  | .drive viaCtx => driveStep u s viaCtx
  | .worker n => if n < u.workers s.round then workerStep u s n else none
  | .job call => jobStep u s call
  | .pool act => poolStep u s act
  | .cancel err => cancelStep s err

-- A consumer before its first batch.
def idle (u : Setup Q) : State Q (Fin (WorkerPool.poolLen u.consumer.cfg.poolSize)) S where
  round := 0
  pc := .returned none
  ctxErr := none
  firstErr _ := none
  wg _ := 0
  jobs := []
  closed := false
  worker _ := .recv
  job _ := .unborn
  delivery k i := ⟨u.msg k i, []⟩
  pool := WorkerPool.initial _

end NatsClient.Pull
