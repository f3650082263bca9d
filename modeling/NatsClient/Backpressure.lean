import NatsClient.Consumer

namespace NatsClient

-- A BackpressureMode: its zero value, the named ones, and the rest of uint8.
inductive BackpressureMode
  | unset
  | block
  | nak
  | term
  | drop
  | other (value : UInt8)
  deriving DecidableEq, Repr

def BackpressureMode.orBlock : BackpressureMode → BackpressureMode
  | .unset => .block
  | mode => mode

-- The consumer as far as the hand-off to its worker pool depends on it.
structure Consumer where
  cfg : RuntimeConsumerConfig
  mode : BackpressureMode
  -- The NakDelay that the adaptive controller decides on, by the depth of the pool.
  adaptive : Option (Int → Int)

def defaultWorkerPoolSize : Int := 4

-- The number of workers that initWorkerPool asks for.
def RuntimeConsumerConfig.poolSize (cfg : RuntimeConsumerConfig) : Int :=
  if cfg.workerPoolSize ≤ 0 then defaultWorkerPoolSize else cfg.workerPoolSize

-- What handlePoolBackpressure does to a message that the pool has no room for.
inductive Policy
  | nak
  | term
  | drop
  deriving DecidableEq, Repr

def Policy.kind (delay : Int) : Policy → AckKind
  | .nak => .nak (if 0 < delay then delay else 0)
  | .term | .drop => .term

def Policy.text : Policy → String
  | .nak => "backpressure nak subject="
  | .term => "backpressure term subject="
  | .drop => "backpressure drop term subject="

inductive Verdict
  | room
  | full
  | apply (policy : Policy)
  deriving DecidableEq, Repr

def Consumer.verdict (c : Consumer) (depth : Int) : Verdict :=
  if c.cfg.workerBufferSize ≤ 0 ∨ depth < c.cfg.workerBufferSize then .room
  else match c.mode.orBlock with
    | .nak => .apply .nak
    | .term => .apply .term
    | .drop => .apply .drop
    | _ => .full

-- The two depths are those of the two calls of QueueDepth. The second one counts
-- only for the delay of a Nak.
def handlePoolBackpressure (c : Consumer) (wire : Wire) (depth again : Int) (d : Delivery) :
    Delivery × Option GoError :=
  match c.verdict depth with
  | .room => (d, none)
  | .full => (d, some (.sentinel .errPoolFull))
  | .apply policy =>
    match d.settle wire (policy.kind (c.adaptive.elim 0 (· again))) with
    | (next, none) => (next, some (.sentinel .errBackpressureHandled))
    | (next, some e) => (next, some (.wrap (policy.text ++ quoted d.msg.subject ++ ": ") e ""))

theorem verdict_eq_room_iff (c : Consumer) (depth : Int) :
    c.verdict depth = .room ↔ ¬ (0 < c.cfg.workerBufferSize ∧ c.cfg.workerBufferSize ≤ depth) := by
  unfold Consumer.verdict
  split_ifs with h
  · simp only [true_iff]
    omega
  · have hfull : 0 < c.cfg.workerBufferSize ∧ c.cfg.workerBufferSize ≤ depth := by omega
    split <;> simp [hfull]

theorem handlePoolBackpressure_snd_eq_none_iff (c : Consumer) (wire : Wire) (depth again : Int)
    (d : Delivery) :
    (handlePoolBackpressure c wire depth again d).2 = none ↔ c.verdict depth = .room := by
  unfold handlePoolBackpressure
  cases c.verdict depth with
  | room => simp
  | full => simp
  | apply policy =>
    simp only [Delivery.settle]
    cases d.ackError wire <;> simp

theorem handlePoolBackpressure_fst (c : Consumer) (wire : Wire) (depth again : Int)
    (d : Delivery) :
    (handlePoolBackpressure c wire depth again d).1 = d ∨
      ∃ kind, (handlePoolBackpressure c wire depth again d).1 = (d.settle wire kind).1 := by
  unfold handlePoolBackpressure
  cases c.verdict depth with
  | room => exact .inl rfl
  | full => exact .inl rfl
  | apply policy =>
    refine .inr ⟨policy.kind (c.adaptive.elim 0 (· again)), ?_⟩
    simp only [Delivery.settle]
    cases d.ackError wire <;> rfl

theorem handlePoolBackpressure_snd {c : Consumer} {wire : Wire} {depth again : Int}
    {d : Delivery} {e : GoError} (h : (handlePoolBackpressure c wire depth again d).2 = some e) :
    e = .sentinel .errPoolFull ∨ e = .sentinel .errBackpressureHandled ∨
      ∃ before cause, e = .wrap before cause "" ∧ d.ackError wire = some cause := by
  unfold handlePoolBackpressure at h
  cases hv : c.verdict depth with
  | room => simp [hv] at h
  | full =>
    simp only [hv] at h
    cases h
    exact .inl rfl
  | apply policy =>
    simp only [hv, Delivery.settle] at h
    cases ha : d.ackError wire with
    | none =>
      simp only [ha] at h
      cases h
      exact .inr (.inl rfl)
    | some cause =>
      simp only [ha] at h
      cases h
      exact .inr (.inr ⟨_, cause, rfl, rfl⟩)

-- Settlement errors come from nats.go and do not wrap the library's own signal.
def Wire.Foreign (wire : Wire) : Prop :=
  ∀ n e, wire.ackResult n = some e → e.is .errBackpressureHandled = false

theorem ackError_foreign {wire : Wire} (hw : wire.Foreign) {d : Delivery} {e : GoError}
    (he : d.ackError wire = some e) : e.is .errBackpressureHandled = false := by
  rcases Delivery.ackError_eq_some he with rfl | rfl | rfl | ⟨n, hn⟩
  · rfl
  · rfl
  · rfl
  · exact hw n e hn

-- The message counts as handled only when its Nak or Term went out.
theorem handlePoolBackpressure_settled {wire : Wire} (hw : wire.Foreign) {c : Consumer}
    {depth again : Int} {d : Delivery}
    (h : errorsIs (handlePoolBackpressure c wire depth again d).2 .errBackpressureHandled = true) :
    (handlePoolBackpressure c wire depth again d).1.settlement.isSome = true := by
  unfold handlePoolBackpressure at h ⊢
  cases hv : c.verdict depth with
  | room => simp [hv] at h
  | full => simp [hv] at h
  | apply policy =>
    simp only [hv, Delivery.settle] at h ⊢
    cases he : d.ackError wire with
    | none => simp [Event.sent?]
    | some e => simp [he, ackError_foreign hw he] at h

theorem handlePoolBackpressure_unsettled {wire : Wire} {c : Consumer} {depth again : Int}
    {d : Delivery} (hd : d.settlement = none) :
    (handlePoolBackpressure c wire depth again d).1.settlement = none ∨
      (handlePoolBackpressure c wire depth again d).2 =
        some (.sentinel .errBackpressureHandled) := by
  unfold handlePoolBackpressure
  cases c.verdict depth with
  | room => exact .inl hd
  | full => exact .inl hd
  | apply policy =>
    simp only [Delivery.settle]
    cases he : d.ackError wire with
    | none => exact .inr rfl
    | some e =>
      left
      simpa [Event.sent?] using hd

-- A message that goes on to the pool has not been settled.
theorem handlePoolBackpressure_unharmed {consumer : Consumer} {wire : Wire} {depth again : Int}
    {d d' : Delivery} {err : Option GoError}
    (h : handlePoolBackpressure consumer wire depth again d = (d', err))
    (herr : err = none ∨ errorsIs err .errPoolFull = true) (hunsent : d.settlement = none) :
    d'.settlement = none ∧ d'.msg = d.msg := by
  have hfst := handlePoolBackpressure_fst consumer wire depth again d
  have hsettled : (handlePoolBackpressure consumer wire depth again d).1.settlement = none ∨
      (handlePoolBackpressure consumer wire depth again d).2 =
        some (.sentinel .errBackpressureHandled) := handlePoolBackpressure_unsettled hunsent
  rw [h] at hfst hsettled
  constructor
  · refine hsettled.resolve_right fun hhandled => ?_
    have hhandled : err = some (.sentinel .errBackpressureHandled) := hhandled
    rw [hhandled] at herr
    exact herr.elim nofun (by decide)
  · obtain hsame | ⟨kind, hkind⟩ := hfst
    · exact congrArg Delivery.msg hsame
    · exact (congrArg Delivery.msg hkind).trans rfl

end NatsClient
