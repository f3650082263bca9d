import NatsClient.Dlq
import NatsClient.Lib.Loop
import NatsClient.Publish

namespace NatsClient.Dlq

open Lib.Loop

structure ReplayConfig where
  sourceStream : String
  destSubject : String
  reasonFilter : String
  subjectFilter : String
  startSeq : Nat
  limit : Int
  rateLimit : Int
  dryRun : Bool
  stripDLQHeaders : Bool
  deriving DecidableEq, Repr

structure ReplayResult where
  considered : Nat
  matched : Nat
  published : Nat
  skipped : Nat
  lastSeq : Nat
  deriving DecidableEq, Repr

-- The parts of a *nats.RawStreamMsg that are read. A nil header is the empty one.
structure RawStreamMsg where
  sequence : Nat
  header : Header
  data : Bytes

-- What ReplayToStream takes from outside. The source, the publisher and the context answer
-- by the number of messages considered before. A map is walked in the order of `keys`.
structure Surroundings where
  -- src and pub are non-nil
  source : Bool
  publisher : Bool
  getMsg : String → Nat → Except GoError (Option RawStreamMsg)
  getNextMsgAfter : Nat → String → Nat → Except GoError (Option RawStreamMsg)
  publishResult : Nat → Option GoError
  ctxErr : Nat → Option GoError
  -- the error of a context that ends during the pause after a publish
  pauseErr : Nat → Option GoError
  equalFold : String → String → Bool
  keys : Header → List String

-- A message that went out again, with the stored message it was made from.
structure Resent where
  stored : RawStreamMsg
  subject : String
  raw : RawPublish

-- The variables of the loop, and what it has published.
structure Progress where
  seq : Nat
  out : ReplayResult
  sent : List Resent

def headerGet (s : Surroundings) (headers : Header) (key : String) : String :=
  match headers.lookup key with
  | some (value :: _) => value
  | _ =>
    -- Case-insensitive fallback.
    match (s.keys headers).find? fun k =>
        s.equalFold k key && decide ((headers.lookup k).getD [] ≠ []) with
    | some k => Header.get headers k
    | none => ""

def matchReplayFilters (s : Surroundings) (headers : Header) (cfg : ReplayConfig) : Bool :=
  let reason := headerGet s headers headerReason
  if cfg.reasonFilter ≠ "" ∧ !s.equalFold reason cfg.reasonFilter then false
  else if cfg.subjectFilter ≠ "" ∧
      headerGet s headers headerOriginalSubject ≠ cfg.subjectFilter then false
  else true

def dlqHeaders : List String :=
  [headerOriginalSubject, headerStream, headerSequence, headerNumDelivered, headerReason,
    headerConsumer, headerAutopsyError, headerAutopsyHash, headerAutopsyStack]

def stripDLQHeaders (headers : Header) : Header :=
  dlqHeaders.foldl (fun h key => h.erase key) headers

def fetch (s : Surroundings) (cfg : ReplayConfig) (seq considered : Nat) :
    Except GoError (Option RawStreamMsg) :=
  if considered = 0 then
    match s.getMsg cfg.sourceStream seq with
    | .ok raw => .ok raw
    | .error _ => s.getNextMsgAfter 0 cfg.sourceStream (seq - 1)
  else s.getNextMsgAfter considered cfg.sourceStream seq

-- The subject and the message of PublishRaw for a stored message.
def resent (s : Surroundings) (cfg : ReplayConfig) (raw : RawStreamMsg) : Resent where
  stored := raw
  subject :=
    let orig := headerGet s raw.header headerOriginalSubject
    if orig ≠ "" ∧ cfg.destSubject = "" then orig else cfg.destSubject
  raw := ⟨if cfg.stripDLQHeaders then stripDLQHeaders raw.header else raw.header, raw.data⟩

-- The select after a publish.
def pause (s : Surroundings) (cfg : ReplayConfig) (considered : Nat) : Option GoError :=
  if 0 < cfg.rateLimit then s.pauseErr considered else none

-- One turn of the loop. It goes on, or ends with the error that is returned.
def replayTurn (s : Surroundings) (cfg : ReplayConfig) (p : Progress) :
    Progress ⊕ Progress × Option GoError :=
  let n := p.out.considered
  match s.ctxErr n with
  | some e => .inr (p, some e)
  | none =>
    match fetch s cfg p.seq n with
    | .error _ | .ok none => .inr (p, none)
    | .ok (some raw) =>
      let out := { p.out with lastSeq := raw.sequence, considered := n + 1 }
      if !matchReplayFilters s raw.header cfg then
        .inl { p with seq := raw.sequence, out := { out with skipped := out.skipped + 1 } }
      else
        let out := { out with matched := out.matched + 1 }
        if cfg.dryRun then .inl { p with seq := raw.sequence, out := out }
        else match s.publishResult n with
          | some e =>
            .inr ({ p with seq := raw.sequence, out := out },
              some (.wrap ("dlq replay publish seq=" ++ toString raw.sequence ++ ": ") e ""))
          | none =>
            let next : Progress :=
              ⟨raw.sequence, { out with published := out.published + 1 },
                p.sent ++ [resent s cfg raw]⟩
            match pause s cfg n with
            | some e => .inr (next, some e)
            | none => .inl next

def ReplayConfig.withDefaults (cfg : ReplayConfig) : ReplayConfig :=
  { cfg with
    limit := if cfg.limit ≤ 0 then 100 else cfg.limit
    startSeq := if cfg.startSeq = 0 then 1 else cfg.startSeq }

-- Every turn that goes on counts one message, so the loop takes at most `limit` turns.
def replayLoop (s : Surroundings) (cfg : ReplayConfig) : Progress × Option GoError :=
  match iterate (replayTurn s cfg) cfg.limit.toNat ⟨cfg.startSeq, ⟨0, 0, 0, 0, 0⟩, []⟩ with
  | .inl p => (p, none)
  | .inr result => result

-- The result and the error of ReplayToStream, and what it has published.
structure Replayed where
  result : Option ReplayResult
  err : Option GoError
  sent : List Resent

def replayToStream (s : Surroundings) (cfg : ReplayConfig) : Replayed :=
  let refuse (text : String) : Replayed := ⟨none, some (.foreign text []), []⟩
  if !s.source ∨ !s.publisher then refuse "dlq replay: source and publisher are required"
  else if cfg.sourceStream = "" then refuse "dlq replay: SourceStream is required"
  else if cfg.destSubject = "" then refuse "dlq replay: DestSubject is required"
  else
    let (p, err) := replayLoop s cfg.withDefaults
    ⟨some p.out, err, p.sent⟩

variable {α : Type}

-- PublishRaw of dlqPublisherAdapter, with the message that goes out.
def publishRaw (p : Publish.Publisher α) (subject : String) (raw : RawPublish) :
    Except GoError Msg :=
  (Publish.publish p (some raw.header) (.publishMessage subject (.bytes raw.data) .raw)).1

end NatsClient.Dlq
