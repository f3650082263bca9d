import Mathlib.Algebra.Order.Ring.Rat
import NatsClient.Lib.Machine
import NatsClient.Msg

namespace NatsClient.Shadow

def defaultShadowConcurrency : Int := 32

-- The arguments of a call of RecordShadow.
structure ShadowRecord where
  detail : String
  subject : String
  err : String
  deriving DecidableEq, Repr

-- Rates are exact rationals. Whether there is a Recorder is a flag, a nil Compare is none.
structure Config where
  recorder : Bool
  compare : Option (Option GoError → Option GoError → Bool)
  sampleRate : ℚ
  maxInFlight : Int

def Config.withDefaults (c : Config) : Config :=
  let sampleRate := if c.sampleRate ≤ 0 then 1 / 10 else c.sampleRate
  { c with
    sampleRate := if sampleRate > 1 then 1 else sampleRate
    maxInFlight := if c.maxInFlight ≤ 0 then defaultShadowConcurrency else c.maxInFlight }

-- What a nil Compare stands for.
def sameNilness (primaryErr shadowErr : Option GoError) : Bool :=
  primaryErr.isNone == shadowErr.isNone

def Config.comparison (c : Config) : Option GoError → Option GoError → Bool :=
  c.compare.getD sameNilness

def cloneMsg (msg : Msg) : Msg where
  subject := msg.subject
  reply := ""
  header := msg.header
  data := msg.data
  bound := false

-- The verb %v for a recovered value and for an error.
def panicText : PanicValue → String
  | .error err => err.message
  | .other message => message

def errorText : Option GoError → String
  | none => "<nil>"
  | some err => err.message

def run (shadow : Msg → Outcome) (msg : Msg) : Option GoError :=
  match shadow msg with
  | .returned err => err
  | .panicked value => some (.foreign ("shadow panic: " ++ panicText value) [])

-- A call of the handler that With returns, and the goroutine it may start.
inductive CallPc
  | idle
  -- the primary has returned: rand.Float64, then the select on the semaphore
  | handled (msg : Msg) (primaryErr : Option GoError)
  | sampled (msg : Msg) (primaryErr : Option GoError)
  -- the copy and the go statement
  | acquired (msg : Msg) (primaryErr : Option GoError)
  -- The handler has returned. observeShadow runs the shadow, then compares.
  | running (cloned : Msg) (subject : String) (primaryErr : Option GoError)
  | ran (subject : String) (primaryErr shadowErr : Option GoError)
  -- the deferred receive
  | releasing (primaryErr : Option GoError)
  | done (result : Outcome)

inductive CallAct
  | primary
  | sample (draw : ℚ)
  | acquire
  | start
  | shadow
  | compare
  | release
  deriving DecidableEq, Repr

-- One call: its message, the handler it has from With, and the two handlers inside.
structure Call where
  cfg : Config
  message : Msg
  -- with the message as the primary leaves it
  primary : Msg → Msg × Outcome
  shadow : Option (Msg → Outcome)

-- The next operation of a call, on the number of slots taken in the semaphore.
def callStep (call : Call) (sem : Nat) (pc : CallPc) (act : CallAct) : Option (Nat × CallPc) :=
  let cfg := call.cfg.withDefaults
  match act, pc, call.shadow with
  -- With has returned the primary itself.
  | .primary, .idle, none => some (sem, .done (call.primary call.message).2)
  | .primary, .idle, some _ =>
    match call.primary call.message with
    | (msg, .returned err) => some (sem, .handled msg err)
    | (_, .panicked value) => some (sem, .done (.panicked value))
  | .sample draw, .handled msg err, _ =>
    if cfg.sampleRate < 1 ∧ cfg.sampleRate ≤ draw then some (sem, .done (.returned err))
    else some (sem, .sampled msg err)
  | .acquire, .sampled msg err, _ =>
    if sem < cfg.maxInFlight then some (sem + 1, .acquired msg err)
    else some (sem, .done (.returned err))
  | .start, .acquired msg err, _ => some (sem, .running (cloneMsg msg) msg.subject err)
  | .shadow, .running cloned subject err, some shadow =>
    some (sem, .ran subject err (run shadow cloned))
  | .compare, .ran _ err _, _ => some (sem, .releasing err)
  | .release, .releasing err, _ =>
    if 0 < sem then some (sem - 1, .done (.returned err)) else none
  | _, _, _ => none

-- What an operation tells the Recorder.
def callRecords (call : Call) (pc : CallPc) (act : CallAct) : List ShadowRecord :=
  match act, pc, call.shadow with
  | .shadow, .running cloned subject _, some shadow =>
    match run shadow cloned with
    | some err => if call.cfg.recorder then [⟨"shadow_error", subject, err.message⟩] else []
    | none => []
  | .compare, .ran subject err shadowErr, _ =>
    if call.cfg.recorder && !call.cfg.comparison err shadowErr then
      [⟨"shadow_mismatch", subject,
        "primary=" ++ errorText err ++ " shadow=" ++ errorText shadowErr⟩]
    else []
  | _, _, _ => []

-- The shadow handler is in progress.
def CallPc.inProgress : CallPc → Bool
  | .running _ _ _ => true
  | _ => false

-- The message that the shadow handler in progress was called with.
def CallPc.received : CallPc → Option Msg
  | .running cloned _ _ => some cloned
  | _ => none

-- What the handler has returned or panicked with.
def CallPc.result : CallPc → Option Outcome
  | .idle | .handled _ _ | .sampled _ _ | .acquired _ _ => none
  | .running _ _ err | .ran _ err _ | .releasing err => some (.returned err)
  | .done result => some result

-- Handlers that With has returned, and the calls on each of them.
structure Setup (K C : Type) where
  cfg : K → Config
  handler : C → K
  message : C → Msg
  primary : C → Msg → Msg × Outcome
  shadow : C → Option (Msg → Outcome)

structure State (K C : Type) where
  sem : K → Nat
  call : C → CallPc
  records : List ShadowRecord

variable {K C : Type}

def Setup.call (u : Setup K C) (c : C) : Call where
  cfg := u.cfg (u.handler c)
  message := u.message c
  primary := u.primary c
  shadow := u.shadow c

def step [DecidableEq K] [DecidableEq C] (u : Setup K C) (s : State K C) :
    C × CallAct → Option (State K C)
  | (c, act) =>
    (callStep (u.call c) (s.sem (u.handler c)) (s.call c) act).map fun (sem, pc) =>
      { sem := Function.update s.sem (u.handler c) sem
        call := Function.update s.call c pc
        records := s.records ++ callRecords (u.call c) (s.call c) act }

def initial : State K C where
  sem _ := 0
  call _ := .idle
  records := []

end NatsClient.Shadow
