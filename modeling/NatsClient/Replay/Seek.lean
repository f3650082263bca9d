import NatsClient.Replay
import NatsClient.ConsumerManager

namespace NatsClient.Replay

open ConsumerManager

structure ReplayConfig where
  optStartTime : Option Int := none
  untilTime : Option Int := none
  durable : String := ""
  filterSubject : String := ""
  filterSubjects : List String := []
  deliverPolicy : DeliverPolicy := .all
  replayPolicy : ReplayPolicy := .instant
  optStartSeq : Nat := 0
  untilSeq : Nat := 0
  limit : Int := 0
  deliverSet : Bool := false
  replaySet : Bool := false
  optStartSeqSet : Bool := false
  optStartTimeSet : Bool := false
  untilSeqSet : Bool := false
  untilTimeSet : Bool := false
  limitSet : Bool := false

-- An option is any function on the configuration, or nil.
abbrev ReplayOpt := Option (ReplayConfig → ReplayConfig)

def withReplayDurable (name : String) : ReplayOpt := some fun c => { c with durable := name }

def withFilterSubject (subject : String) : ReplayOpt :=
  some fun c => { c with filterSubject := subject, filterSubjects := [] }

def withFilterSubjects (subjects : List String) : ReplayOpt :=
  some fun c => { c with filterSubjects := subjects, filterSubject := "" }

def withDeliverPolicy (policy : DeliverPolicy) : ReplayOpt :=
  some fun c => { c with deliverPolicy := policy, deliverSet := true }

def withReplayPolicy (policy : ReplayPolicy) : ReplayOpt :=
  some fun c => { c with replayPolicy := policy, replaySet := true }

def withStartSeq (seq : Nat) : ReplayOpt :=
  some fun c => { c with optStartSeq := seq, optStartSeqSet := true }

def withStartTime (t : Int) : ReplayOpt :=
  some fun c => { c with optStartTime := some t, optStartTimeSet := true }

-- The options that set policy and start position together.
def seekTo (policy : DeliverPolicy) (seq : Nat) (t : Option Int) (c : ReplayConfig) :
    ReplayConfig :=
  { c with
    deliverPolicy := policy
    deliverSet := true
    optStartSeq := seq
    optStartSeqSet := true
    optStartTime := t
    optStartTimeSet := true }

def fromSeq (seq : Nat) : ReplayOpt := some (seekTo .byStartSequence seq none)

def fromTime (t : Int) : ReplayOpt := some (seekTo .byStartTime 0 (some t))

def fromBeginning : ReplayOpt := some (seekTo .all 0 none)

def fromNew : ReplayOpt := some (seekTo .new 0 none)

def untilSeq (seq : Nat) : ReplayOpt := some fun c => { c with untilSeq := seq, untilSeqSet := true }

def untilTime (t : Int) : ReplayOpt :=
  some fun c => { c with untilTime := some t, untilTimeSet := true }

def limit (n : Int) : ReplayOpt := some fun c => { c with limit := n, limitSet := true }

def oneMessage (seq : Nat) : ReplayOpt :=
  some fun c =>
    { seekTo .byStartSequence seq none c with
      untilSeq := seq
      untilSeqSet := true
      limit := 1
      limitSet := true }

def applyReplayOpts (opts : List ReplayOpt) : ReplayConfig :=
  opts.foldl (fun cfg opt => opt.elim cfg fun set => set cfg) {}

def durableConfigFromNATS (cc : ConsumerConfig) : DurableConsumerConfig where
  durable := cc.durable
  filterSubject := cc.filterSubject
  filterSubjects := cc.filterSubjects
  deliverSubject := cc.deliverSubject
  deliverGroup := cc.deliverGroup
  deliverPolicy := cc.deliverPolicy
  replayPolicy := cc.replayPolicy
  ackPolicy := cc.ackPolicy
  maxDeliver := cc.maxDeliver
  ackWait := cc.ackWait
  maxAckPending := cc.maxAckPending
  rateLimit := cc.rateLimit
  heartbeat := cc.heartbeat
  inactiveThreshold := cc.inactiveThreshold
  flowControl := cc.flowControl
  replicas := cc.replicas
  memStorage := cc.memoryStorage
  maxWaiting := cc.maxWaiting
  optStartSeq := cc.optStartSeq
  hasAckPolicy := true
  hasDeliverPolicy := true
  hasReplayPolicy := true
  optStartTime := cc.optStartTime
  metadata := cc.metadata

-- The filters of applyReplayConfig: the list of the options wins over their single subject,
-- and either one over the filters of the base.
def mergedFilters (base : DurableConsumerConfig) (cfg : ReplayConfig) : String × List String :=
  if cfg.filterSubjects ≠ [] then ("", cfg.filterSubjects)
  else if cfg.filterSubject ≠ "" then (cfg.filterSubject, [])
  else (base.filterSubject, base.filterSubjects)

def applyReplayConfig (base : DurableConsumerConfig) (durable : String) (cfg : ReplayConfig) :
    DurableConsumerConfig :=
  { base with
    durable := durable
    filterSubject := (mergedFilters base cfg).1
    filterSubjects := (mergedFilters base cfg).2
    deliverPolicy := if cfg.deliverSet then cfg.deliverPolicy else base.deliverPolicy
    hasDeliverPolicy := cfg.deliverSet || base.hasDeliverPolicy
    replayPolicy := if cfg.replaySet then cfg.replayPolicy else base.replayPolicy
    hasReplayPolicy := cfg.replaySet || base.hasReplayPolicy
    optStartSeq := if cfg.optStartSeqSet then cfg.optStartSeq else base.optStartSeq
    optStartTime := if cfg.optStartTimeSet then cfg.optStartTime else base.optStartTime
    ackPolicy :=
      if !base.hasAckPolicy && base.ackPolicy = .none then .explicit else base.ackPolicy
    hasAckPolicy := base.hasAckPolicy || base.ackPolicy = .none }

def metaReplayUntilSeq := "replay_until_seq"
def metaReplayLimit := "replay_limit"

def applyReplayBoundMetadata (cfg : DurableConsumerConfig) (replayCfg : ReplayConfig) :
    DurableConsumerConfig :=
  if !replayCfg.untilSeqSet && !replayCfg.limitSet then cfg
  else
    let withUntil :=
      if replayCfg.untilSeqSet && 0 < replayCfg.untilSeq then
        cfg.metadata.insert metaReplayUntilSeq (toString replayCfg.untilSeq)
      else cfg.metadata
    let withLimit :=
      if replayCfg.limitSet && 0 < replayCfg.limit then
        withUntil.insert metaReplayLimit (toString replayCfg.limit)
      else withUntil
    { cfg with metadata := withLimit }

def validateReplayFilters (cfg : ReplayConfig) : Option GoError :=
  validateFilters cfg.filterSubject cfg.filterSubjects

def validateReplayBounds (cfg : ReplayConfig) : Option GoError :=
  let reject (detail : String) : Option GoError :=
    some (.wrap "" (.sentinel .errInvalidReplayBound) (": " ++ detail))
  if cfg.limitSet && cfg.limit < 1 then reject "limit must be >= 1"
  else if cfg.deliverSet && cfg.deliverPolicy = .new &&
      (cfg.untilSeqSet || cfg.untilTimeSet || cfg.limitSet) then
    reject "bounds are not valid with FromNew"
  else if cfg.untilSeqSet && cfg.optStartSeqSet && cfg.untilSeq < cfg.optStartSeq then
    reject ("untilSeq " ++ toString cfg.untilSeq ++ " < startSeq " ++ toString cfg.optStartSeq)
  else
    match cfg.optStartTime, cfg.untilTime with
    | some start, some last =>
      if cfg.untilTimeSet && last < start then reject "untilTime before start time" else none
    | _, _ => none

-- The end of FindLastSeqAtOrBefore, whatever its StreamInfo and GetMsg calls answered:
-- `none` where it never returns. For a server at rest it is `findLastSeqAtOrBefore`.
abbrev Search := String → Int → Option (Except GoError Nat)

-- A replay of one message from a known sequence ends there.
def oneMessageBound (out : ReplayConfig) : ReplayConfig :=
  if out.limitSet && out.limit = 1 && out.optStartSeqSet && 0 < out.optStartSeq &&
      !out.untilSeqSet then
    { out with untilSeq := out.optStartSeq, untilSeqSet := true }
  else out

def resolveReplayBounds (find : Search) (stream : String) (cfg : ReplayConfig) :
    Option (Except GoError ReplayConfig) :=
  match cfg.untilTime with
  | some t =>
    if cfg.untilTimeSet && !cfg.untilSeqSet then
      match find stream t with
      | none => none
      | some (.error e) => some (.error (.wrap "resolve untilTime: " e ""))
      | some (.ok seq) =>
        some (.ok (oneMessageBound { cfg with untilSeq := seq, untilSeqSet := true }))
    else some (.ok (oneMessageBound cfg))
  | none => some (.ok (oneMessageBound cfg))

structure ReplayConsumerResult where
  durable : String
  startSeq : Nat
  untilSeq : Nat
  limit : Int
  startTime : Option Int
  untilTime : Option Int
  deriving DecidableEq, Repr

def replayResult (durable : String) (cfg : ReplayConfig) : ReplayConsumerResult where
  durable := durable
  startSeq := if cfg.optStartSeqSet then cfg.optStartSeq else 0
  untilSeq := if cfg.untilSeqSet then cfg.untilSeq else 0
  limit := if cfg.limitSet then cfg.limit else 0
  startTime := cfg.optStartTime
  untilTime := cfg.untilTime

def baseDurableConfig (net : Net) (stream durable : String) (w : World) :
    Except GoError DurableConsumerConfig × World :=
  match consumerInfo net stream durable w with
  | (.error e, w) =>
    if e.is .errConsumerNotFound then
      (.ok { durable := durable, ackPolicy := .explicit, hasAckPolicy := true }, w)
    else (.error e, w)
  | (.ok info, w) => (.ok (durableConfigFromNATS info), w)

def recreateDurable (net : Net) (stream durable : String) (cfg : DurableConsumerConfig)
    (w : World) : Option GoError × World :=
  let create (w : World) : Option GoError × World :=
    match createOrUpdateConsumer net stream cfg w with
    | (.ok _, w) => (none, w)
    | (.error e, w) => (some e, w)
  match consumerInfo net stream durable w with
  | (.ok _, w) =>
    match deleteConsumer net stream durable w with
    | (.error e, w) => (some e, w)
    | (.ok (), w) => create w
  | (.error e, w) => if e.is .errConsumerNotFound then create w else (some e, w)

-- The checks that ResetConsumer and CreateReplayConsumer make first.
def checkReplay (stream durable : String) (cfg : ReplayConfig) : Option GoError :=
  validateStreamName stream <|> validateDurableName durable <|> validateReplayFilters cfg <|>
    validateReplayBounds cfg

-- The configuration of the consumer that is created in the end.
def seekConfig (base : DurableConsumerConfig) (durable : String) (resolved : ReplayConfig) :
    DurableConsumerConfig :=
  applyReplayBoundMetadata (applyReplayConfig base durable resolved) resolved

-- The end of both operations, from the resolution of the bounds on.
def seek (net : Net) (find : Search) (place stream durable : String)
    (base : DurableConsumerConfig) (cfg : ReplayConfig) (w : World) :
    Option (Except GoError ReplayConsumerResult) × World :=
  match resolveReplayBounds find stream cfg with
  | none => (none, w)
  | some (.error e) => (some (.error e), w)
  | some (.ok resolved) =>
    match recreateDurable net stream durable (seekConfig base durable resolved) w with
    | (some e, w) => (some (.error (.wrap place e "")), w)
    | (none, w) => (some (.ok (replayResult durable resolved)), w)

-- The result is `none` where the operation never returns.
def resetConsumer (net : Net) (find : Search) (stream durable : String) (opts : List ReplayOpt)
    (w : World) : Option (Except GoError ReplayConsumerResult) × World :=
  let cfg := applyReplayOpts opts
  let place := "reset consumer for replay stream=" ++ quoted stream ++ " durable=" ++
    quoted durable ++ ": "
  match checkReplay stream durable cfg with
  | some e => (some (.error e), w)
  | none =>
    match baseDurableConfig net stream durable w with
    | (.error e, w) => (some (.error e), w)
    | (.ok base, w) => seek net find place stream durable base cfg w

-- `nuid` is what nuid.Next returns.
def replayTarget (nuid sourceDurable : String) (cfg : ReplayConfig) : String :=
  if cfg.durable = "" then sourceDurable ++ "-replay-" ++ nuid else cfg.durable

def createReplayConsumer (net : Net) (find : Search) (nuid stream sourceDurable : String)
    (opts : List ReplayOpt) (w : World) :
    Option (Except GoError ReplayConsumerResult) × World :=
  let cfg := applyReplayOpts opts
  let target := replayTarget nuid sourceDurable cfg
  let place := "create replay consumer stream=" ++ quoted stream ++ " source=" ++
    quoted sourceDurable ++ " target=" ++ quoted target ++ ": "
  match checkReplay stream sourceDurable cfg with
  | some e => (some (.error e), w)
  | none =>
    match baseDurableConfig net stream sourceDurable w with
    | (.error e, w) => (some (.error e), w)
    | (.ok base, w) =>
      match validateDurableName target with
      | some e => (some (.error e), w)
      | none =>
        if target = sourceDurable then
          (some (.error (.foreign ("create replay consumer: target durable must differ " ++
            "from source " ++ quoted sourceDurable) [])), w)
        else seek net find place stream target base cfg w

end NatsClient.Replay
