import NatsClient.Graduate
import NatsClient.Shadow

namespace NatsClient.Graduate.Handler

-- What NewGraduate is called with, and the messages that its handler is called with.
structure Setup (C : Type) where
  policy : Policy
  recorder : Bool
  compare : Option (Option GoError → Option GoError → Bool)
  message : C → Msg
  primary : C → Msg → Msg × Outcome
  shadowHandler : Option (C → Msg → Outcome)

variable {C A P : Type}

def Setup.base (u : Setup C) : Option GoError → Option GoError → Bool :=
  u.compare.getD Shadow.sameNilness

-- The handler asks With for a new handler in each call, with the rate as it is then.
def Setup.call (u : Setup C) (rate : Nat) (c : C) : Shadow.Call where
  cfg := { recorder := u.recorder, compare := some u.base, sampleRate := rate / 10 ^ 6,
           maxInFlight := 0 }
  message := u.message c
  primary := u.primary c
  shadow := u.shadowHandler.map fun shadow => shadow c

inductive Pc
  -- phase.Load
  | idle
  -- the phase is Aborted: the primary alone
  | direct
  -- rate.Load
  | loaded
  -- in the handler that With has returned for this call, which has a semaphore of its own
  | inside (rate sem : Nat) (call : Shadow.CallPc)
  | done (result : Outcome)

structure State (C A P : Type) where
  grad : Graduate.State C A P
  handle : C → Pc
  records : List Shadow.ShadowRecord

inductive Act (C A P : Type)
  | loadPhase (c : C)
  | loadRate (c : C)
  | direct (c : C)
  | call (c : C) (act : Shadow.CallAct)
  -- the next operation of the function that observeCompare has returned
  | observe (c : C)
  | abort (call : A) (reason : String)
  | promote (call : P)

variable [DecidableEq C]

def State.goto (s : State C A P) (c : C) (pc : Pc) : State C A P :=
  { s with handle := Function.update s.handle c pc }

def step [DecidableEq A] [DecidableEq P] (u : Setup C) (s : State C A P) :
    Act C A P → Option (State C A P)
  | .loadPhase c =>
    match s.handle c with
    | .idle => some (s.goto c (if s.grad.phase = .aborted then .direct else .loaded))
    | _ => none
  | .loadRate c =>
    match s.handle c with
    | .loaded => some (s.goto c (.inside s.grad.rate 0 .idle))
    | _ => none
  | .direct c =>
    match s.handle c with
    | .direct => some (s.goto c (.done (u.primary c (u.message c)).2))
    | _ => none
  | .call c act =>
    match s.handle c with
    | .inside rate sem pc =>
      -- Compare returns when the comparison is over.
      if act = .compare ∧ s.grad.compare c ≠ .returned then none
      else
        (Shadow.callStep (u.call rate c) sem pc act).map fun (sem, pc') =>
          { s.goto c (.inside rate sem pc') with
            records := s.records ++ Shadow.callRecords (u.call rate c) pc act }
    | _ => none
  | .observe c =>
    match s.handle c with
    | .inside _ _ (.ran _ primaryErr shadowErr) =>
      (compareStep u.policy s.grad c (u.base primaryErr shadowErr)).map fun grad =>
        { s with grad := grad }
    | _ => none
  | .abort call reason => (abortStep s.grad call reason).map fun grad => { s with grad := grad }
  | .promote call => (promoteStep s.grad call).map fun grad => { s with grad := grad }

def initial (u : Setup C) : State C A P where
  grad := newGraduate u.policy
  handle _ := .idle
  records := []

def Pc.inProgress : Pc → Bool
  | .inside _ _ pc => pc.inProgress
  | _ => false

end NatsClient.Graduate.Handler
