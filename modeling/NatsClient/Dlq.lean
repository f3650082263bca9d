import NatsClient.Consumer
import NatsClient.Lib.Utf8

namespace NatsClient.Dlq

def headerOriginalSubject := "X-NATS-Original-Subject"
def headerStream := "X-NATS-Stream"
def headerSequence := "X-NATS-Stream-Sequence"
def headerNumDelivered := "X-NATS-Num-Delivered"
def headerReason := "X-NATS-DLQ-Reason"
def headerConsumer := "X-NATS-Consumer"
def headerAutopsyError := "X-NATS-Autopsy-Error"
def headerAutopsyHash := "X-NATS-Autopsy-Hash"
def headerAutopsyStack := "X-NATS-Autopsy-Stack"

def defaultAutopsyMaxErrorBytes : Int := 512
def defaultAutopsyMaxStackBytes : Int := 2048

structure AutopsyConfig where
  enabled : Bool
  includeStack : Bool
  maxErrorBytes : Int
  maxStackBytes : Int
  deriving DecidableEq, Repr

def AutopsyConfig.withDefaults (c : AutopsyConfig) : AutopsyConfig :=
  { c with
    maxErrorBytes := if c.maxErrorBytes ≤ 0 then defaultAutopsyMaxErrorBytes else c.maxErrorBytes
    maxStackBytes := if c.maxStackBytes ≤ 0 then defaultAutopsyMaxStackBytes else c.maxStackBytes }

-- `publisher` and `recorder` say that the interface value is non-nil.
structure Config where
  publisher : Bool
  recorder : Bool
  subject : String
  reason : String
  autopsy : AutopsyConfig
  maxDeliver : Nat
  deriving DecidableEq, Repr

structure MsgMetadata where
  stream : String
  consumer : String
  streamSeq : Nat
  numDelivered : Nat
  deriving DecidableEq, Repr

-- What route takes from outside the repository: the metadata nats.go reads off
-- a message (none for an error), the hex digest, and the stack of the goroutine.
structure Platform where
  metadata : Msg → Option MsgMetadata
  sha256Hex : Bytes → String
  stack : Bytes

structure AutopsyInfo where
  err : String
  stack : Bytes
  deriving DecidableEq, Repr

-- The cut may split a rune.
def truncateString (s : Bytes) (maxBytes : Int) : Bytes :=
  if maxBytes ≤ 0 ∨ (s.length : Int) ≤ maxBytes then s else s.take maxBytes.toNat

-- The values of a header are texts. Bytes that are no rune stand in them as U+FFFD.
def headerText (s : Bytes) : String := String.ofList (Lib.Utf8.runes s)

def fillAutopsyStack (platform : Platform) (info : AutopsyInfo) (cfg : AutopsyConfig) :
    AutopsyInfo :=
  if !cfg.includeStack then info
  else
    let maxBytes :=
      if cfg.maxStackBytes ≤ 0 then defaultAutopsyMaxStackBytes else cfg.maxStackBytes
    { info with stack := truncateString platform.stack maxBytes }

def applyAutopsyHeaders (platform : Platform) (h : Header) (cfg : AutopsyConfig) (data : Bytes)
    (info : AutopsyInfo) : Header :=
  let h := h.insert headerAutopsyHash [platform.sha256Hex data]
  let h := if info.err = "" then h
    else h.insert headerAutopsyError
      [headerText (truncateString (Lib.Utf8.encode info.err.toList) cfg.maxErrorBytes)]
  if cfg.includeStack ∧ info.stack ≠ [] then
    h.insert headerAutopsyStack [headerText (truncateString info.stack cfg.maxStackBytes)]
  else h

-- Copies a header of the message that is present and not empty.
def copyHeader (msg : Msg) (h : Header) (key : String) : Header :=
  let value := Header.get msg.header key
  if value = "" then h else h.insert key [value]

def metadataHeaders (h : Header) (md : MsgMetadata) : Header :=
  (((h.insert headerStream [md.stream]).insert
    headerSequence [toString md.streamSeq]).insert
    headerNumDelivered [toString md.numDelivered]).insert
    headerConsumer [md.consumer]

-- The headers route attaches to the DLQ copy.
def routeHeaders (platform : Platform) (cfg : Config) (msg : Msg) (reason : String)
    (info : AutopsyInfo) : Header :=
  let h : Header := ((∅ : Header).insert headerOriginalSubject [msg.subject]).insert
    headerReason [reason]
  let h := [headerTraceID, headerMsgID, headerContentType].foldl (copyHeader msg) h
  let h := match platform.metadata msg with
    | some md => metadataHeaders h md
    | none => h
  let h := if cfg.autopsy.enabled then applyAutopsyHeaders platform h cfg.autopsy msg.data info
    else h
  -- Dedupe DLQ copies if Term fails and the message is redelivered.
  if Header.get h headerMsgID = "" then
    match platform.metadata msg with
    | some md => h.insert headerMsgID ["dlq-" ++ md.stream ++ "-" ++ toString md.streamSeq]
    | none => h
  else h

-- The loop of at most three Term calls.
def termUpTo (wire : Wire) : Nat → Delivery → Option GoError → Delivery × Option GoError
  | 0, d, termErr => (d, termErr)
  | n + 1, d, _ =>
    match d.settle wire .term with
    | (next, none) => (next, none)
    | (next, some e) => termUpTo wire n next (some e)

def recordOf (platform : Platform) (cfg : Config) (msg : Msg) (reason : String)
    (info : AutopsyInfo) : DlqRecord :=
  let md := (platform.metadata msg).getD ⟨"", "", 0, 0⟩
  { subject := msg.subject, stream := md.stream, consumer := md.consumer, reason := reason,
    autopsyErr := if cfg.autopsy.enabled then some info.err else none, seq := md.streamSeq }

def route (platform : Platform) (wire : Wire) (cfg : Config) (d : Delivery) (reason : String)
    (info : AutopsyInfo) : Delivery × Option GoError :=
  let raw : RawPublish := ⟨routeHeaders platform cfg d.msg reason info, d.msg.data⟩
  let pubErr := wire.publishResult (d.log.countP Event.isPublish)
  let d := d.push (.dlqPublish cfg.subject raw pubErr)
  match pubErr with
  | some e => (d, some (.wrap ("publish to dlq subject=" ++ quoted cfg.subject ++ ": ") e ""))
  | none =>
    match termUpTo wire 3 d none with
    | (next, some e) =>
      (next, some (.join "" (.sentinel .errDLQRouted)
        (": term after dlq subject=" ++ quoted d.msg.subject ++ ": ") e ""))
    | (next, none) =>
      (if cfg.recorder then next.push (.dlqRecord (recordOf platform cfg d.msg reason info))
        else next, none)

def Config.withDefaults (cfg : Config) : Config :=
  { cfg with
    reason := if cfg.reason = "" then "max_deliver" else cfg.reason
    autopsy := cfg.autopsy.withDefaults }

-- The delivery count is beyond the limit of the wrapper.
def exhausted (platform : Platform) (cfg : Config) (msg : Msg) : Bool :=
  decide (0 < cfg.maxDeliver) &&
    (platform.metadata msg).any fun md => decide (cfg.maxDeliver < md.numDelivered)

-- The function With returns, once the publisher and the subject are set.
def wrapped (platform : Platform) (wire : Wire) (cfg : Config) (handler : Handler) : Handler :=
  fun d =>
    if exhausted platform cfg d.msg then
      let info := fillAutopsyStack platform ⟨cfg.reason, []⟩ cfg.autopsy
      match route platform wire cfg d cfg.reason info with
      | (next, some e) => (next, .returned (some e))
      | (next, none) => (next, .returned (some (.sentinel .errDLQRouted)))
    else match handler d with
      | (next, .returned (some e)) =>
        if !e.is .errSendToDLQ then (next, .returned (some e))
        else
          let info := fillAutopsyStack platform ⟨e.message, []⟩ cfg.autopsy
          match route platform wire cfg next "handler_requested" info with
          | (last, some r) => (last, .returned (some (.wrap "dlq after handler request: " r "")))
          | (last, none) => (last, .returned (some (.sentinel .errDLQRouted)))
      | result => result

-- The function With of the dlq package.
def dlqWith (platform : Platform) (wire : Wire) (cfg : Config) (handler : Handler) : Handler :=
  if !cfg.publisher then handler
  else if cfg.subject = "" then handler
  else wrapped platform wire cfg.withDefaults handler

-- Wrappers of any depth, the first of the list outermost.
def stacked (platform : Platform) (wire : Wire) (cfgs : List Config) (handler : Handler) :
    Handler :=
  cfgs.foldr (dlqWith platform wire) handler

-- An application handler that does not settle the message itself. It may change
-- the message, and the log notes how it ended.
def innermost (run : Msg → Msg × Outcome) : Handler :=
  fun d => (({ d with msg := (run d.msg).1 }).push (.handled (run d.msg).2), (run d.msg).2)

end NatsClient.Dlq
