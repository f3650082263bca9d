import NatsClient.WorkerPool.Moves
import NatsClient.Lib.Parties

namespace NatsClient.WorkerPool

open Lib.Parties

variable {C M F P : Type} {cfg : Config C M F P} {sh sh' : Shared C M F P} {p : P}

namespace PubPc

-- The call is between the two updates of publishers.
def counted : PubPc → Nat
  | idle | left _ _ | done _ => 0
  | _ => 1

-- The call has raised depth for a task that is not in the channel.
def queued : PubPc → Nat
  | send _ | rollback _ _ => 1
  | _ => 0

def ref? : PubPc → Option Nat
  | fill r | count r | send r | rollback r _ | discard r _ => some r
  | _ => none

-- The task went into the channel.
def accepted : PubPc → Bool
  | sent _ | leave .accepted | left _ .accepted | done .accepted => true
  | _ => false

-- The call got past the gate and may still send.
def pastGate : PubPc → Bool
  | get | fill _ | count _ | send _ => true
  | _ => false

end PubPc

namespace WorkPc

-- The worker has a task for which it has not lowered depth.
def queued : WorkPc P → Nat
  | take _ _ _ | unlockTo _ _ => 1
  | _ => 0

def ref? : WorkPc P → Option Nat
  | take r _ _ | enter r _ _ | entered _ r _ _ | invoke r _ _ | handling r _ _
  | clear r _   | unlockTo r _ => some r
  | _ => none

-- A task whose handler is still to be called.
def token? : WorkPc P → Option (Nat × P)
  | take r p _ | enter r p _ | entered _ r p _ | invoke r p _ | unlockTo r p => some (r, p)
  | _ => none

def running : WorkPc P → Nat
  | entered _ _ _ _ | invoke _ _ _ | handling _ _ _ | clear _ _ | exit _ => 1
  | _ => 0

def alive : WorkPc P → Nat
  | gone => 0
  | _ => 1

-- The worker is on its way out and has seen publishers at zero.
def sealed : WorkPc P → Bool
  | loadDepth | loadInFlight | exiting | gone => true
  | _ => false

-- It has seen depth at zero as well.
def drained : WorkPc P → Bool
  | loadInFlight | exiting | gone => true
  | _ => false

-- The worker has left the select of runner for good.
def inDrain : WorkPc P → Bool
  | select => false
  | take _ _ back | enter _ _ back | entered _ _ _ back | invoke _ _ back | handling _ _ back
  | clear _ back | exit back | exited _ back => back ≠ .runner
  | _ => true

end WorkPc

section Publisher

variable {pc pc' : PubPc}

theorem PubMove.publishers (h : PubMove cfg sh p pc sh' pc') :
    sh'.publishers + pc.counted = sh.publishers + pc'.counted := by
  cases h with
  | @signalled _ _ next h => cases next <;> simp [PubPc.counted, (signal_quiet h).publishers]
  | @finished _ _ next _ h => cases next <;> simp [PubPc.counted, (signal_quiet h).publishers]
  | @discarded r cause => cases cause <;> simp [PubPc.counted, put, Cause.next]
  | _ => simp [PubPc.counted]

theorem PubMove.depth (h : PubMove cfg sh p pc sh' pc') :
    sh'.depth + pc.queued + sh.input.length = sh.depth + pc'.queued + sh'.input.length := by
  cases h with
  | @signalled _ _ next h =>
    cases next <;> simp [PubPc.queued, (signal_quiet h).depth, (signal_quiet h).input]
  | @finished _ _ next _ h =>
    cases next <;> simp [PubPc.queued, (signal_quiet h).depth, (signal_quiet h).input]
  | @discarded r cause => cases cause <;> simp [PubPc.queued, put, Cause.next]
  | sent => simp [PubPc.queued]; omega
  | _ => simp [PubPc.queued]

-- What tryPublish leaves alone.
structure PubFrame (sh sh' : Shared C M F P) : Prop where
  flag : sh'.flag = sh.flag
  ctxErr : sh'.ctxErr = sh.ctxErr
  closed : sh'.closed = sh.closed
  inFlight : sh'.inFlight = sh.inFlight
  wg : sh'.wg = sh.wg
  callerErr : sh'.callerErr = sh.callerErr
  log : sh'.log = sh.log

theorem Quiet.pubFrame (h : Quiet sh sh') : PubFrame sh sh' :=
  ⟨h.flag, h.ctxErr, h.closed, h.inFlight, h.wg, h.callerErr, h.log⟩

theorem PubMove.frame (h : PubMove cfg sh p pc sh' pc') : PubFrame sh sh' := by
  cases h with
  | signalled h => exact (signal_quiet h).pubFrame
  | finished h => exact (signal_quiet h).pubFrame
  | _ => exact ⟨rfl, rfl, rfl, rfl, rfl, rfl, rfl⟩

-- The places in the shared state where an object can be: the channel, the pool, or
-- not made yet.
def Shared.places (sh : Shared C M F P) (r : Nat) : Nat :=
  sh.input.countP (fun task => task.1 == r) + sh.free.count r + if sh.fresh ≤ r then 1 else 0

theorem Quiet.places (h : Quiet sh sh') (r : Nat) : sh'.places r = sh.places r := by
  simp [Shared.places, h.input, h.free, h.fresh]

def holds (ref? : Option Nat) (r : Nat) : Nat := if ref? = some r then 1 else 0

theorem places_put (sh : Shared C M F P) (r r' : Nat) :
    (put sh r).places r' = sh.places r' + holds (some r) r' := by
  by_cases hr : r = r' <;> by_cases hf : sh.fresh ≤ r' <;>
    simp [Shared.places, put, holds, hr, hf] <;> omega

-- Objects change hands and are never duplicated.
theorem PubMove.refs (h : PubMove cfg sh p pc sh' pc') (r : Nat) :
    sh'.places r + holds pc'.ref? r = sh.places r + holds pc.ref? r := by
  cases h with
  | @signalled _ _ next h => cases next <;> simp [PubPc.ref?, (signal_quiet h).places]
  | @finished _ _ next _ h => cases next <;> simp [PubPc.ref?, (signal_quiet h).places]
  | @discarded r' cause => cases cause <;> simp [PubPc.ref?, places_put, Cause.next, holds]
  | made =>
    simp only [PubPc.ref?, Shared.places, holds, Option.some.injEq, reduceCtorEq, if_false]
    split_ifs <;> omega
  | @reused r' hr =>
    simp only [PubPc.ref?, Shared.places, holds, Option.some.injEq, List.count_erase,
      reduceCtorEq, if_false, beq_iff_eq]
    have hpos := List.count_pos_iff.mpr hr
    split_ifs with h1 <;> (try subst h1) <;> omega
  | @sent r' =>
    simp only [PubPc.ref?, Shared.places, holds, Option.some.injEq, List.countP_append,
      List.countP_singleton, beq_iff_eq, reduceCtorEq, if_false]
    omega
  | _ => simp [PubPc.ref?, Shared.places]

theorem PubMove.gate (h : PubMove cfg sh p pc sh' pc') (hf : sh.flag ≠ .running)
    (hpc : pc.pastGate = false) : pc'.pastGate = false := by
  cases h with
  | passed h => exact absurd h hf
  | @discarded r cause => cases cause <;> rfl
  | @signalled _ _ next h => cases next <;> rfl
  | @finished _ _ next _ h => cases next <;> rfl
  | _ => first | rfl | cases hpc

theorem PubMove.input (h : PubMove cfg sh p pc sh' pc') :
    sh'.input = sh.input ∨
      ∃ r, pc = .send r ∧ sh'.input = sh.input ++ [(r, p)] ∧ sh'.heap = sh.heap := by
  cases h with
  | signalled h => exact .inl (signal_quiet h).input
  | finished h => exact .inl (signal_quiet h).input
  | @sent r => exact .inr ⟨r, rfl, rfl, rfl⟩
  | _ => exact .inl rfl

-- An object is written only by the call that holds it.
theorem PubMove.heap (h : PubMove cfg sh p pc sh' pc') {r : Nat} (hr : pc.ref? ≠ some r) :
    sh'.heap r = sh.heap r := by
  cases h with
  | signalled h => rw [(signal_quiet h).heap]
  | finished h => rw [(signal_quiet h).heap]
  | filled => exact Function.update_of_ne (fun he => hr (by rw [he]; rfl)) _ _
  | discarded => exact Function.update_of_ne (fun he => hr (by rw [he]; rfl)) _ _
  | _ => rfl

-- The object that the call has filled and still holds.
def PubPc.filled? : PubPc → Option Nat
  | .count r | .send r => some r
  | _ => none

theorem PubMove.filled_task (h : PubMove cfg sh p pc sh' pc')
    (hf : ∀ r, pc.filled? = some r → sh.heap r = (cfg.request p).task) {r : Nat}
    (hr : pc'.filled? = some r) : sh'.heap r = (cfg.request p).task := by
  cases h with
  | filled =>
    cases hr
    exact Function.update_self _ _ _
  | counted => exact hf r hr
  | @discarded r' cause => cases cause <;> cases hr
  | @signalled _ _ next h => cases next <;> cases hr
  | @finished _ _ next _ h => cases next <;> cases hr
  | _ => cases hr

-- A call whose task is in the channel is an accepted one.
theorem PubMove.tokens [DecidableEq P] (h : PubMove cfg sh p pc sh' pc') (q : P) :
    sh'.input.countP (fun task => task.2 = q) + (if p = q then pc.accepted.toNat else 0) =
      sh.input.countP (fun task => task.2 = q) + if p = q then pc'.accepted.toNat else 0 := by
  cases h with
  | @signalled _ _ next h => cases next <;> simp [PubPc.accepted, (signal_quiet h).input]
  | @finished _ _ next result h =>
    cases next <;> cases result <;> simp [PubPc.accepted, (signal_quiet h).input]
  | @discarded r' cause => cases cause <;> simp [PubPc.accepted, put, Cause.next]
  | @leaving result => cases result <;> simp [PubPc.accepted]
  | sent => simp [PubPc.accepted, List.countP_append, List.countP_singleton]
  | _ => simp [PubPc.accepted]

end Publisher

section Worker

variable {pc pc' : WorkPc P} {r : Nat}

-- A worker with nothing in hand and no reason to return yet.
structure Blank (pc : WorkPc P) : Prop where
  queued : pc.queued = 0
  ref : pc.ref? = none
  token : pc.token? = none
  running : pc.running = 0
  alive : pc.alive = 1
  noWay : pc.sealed = false

theorem blank_of_drains (h : pc.drains = true) : Blank pc := by
  cases pc <;> first | exact ⟨rfl, rfl, rfl, rfl, rfl, rfl⟩ | cases h

theorem blank_of_received (h : received pc r p = some pc') : Blank pc := by
  cases pc <;> first | exact ⟨rfl, rfl, rfl, rfl, rfl, rfl⟩ | cases h

-- What follows the last signal of process.
theorem blank_returned (next : Option Stage) (back : Back) :
    Blank (next.elim back.next (.exited · back) : WorkPc P) := by
  cases next <;> cases back <;> exact ⟨rfl, rfl, rfl, rfl, rfl, rfl⟩

-- The worker holds a task that it has just received.
structure Holding (pc : WorkPc P) (r : Nat) (p : P) : Prop where
  queued : pc.queued = 1
  ref : pc.ref? = some r
  token : pc.token? = some (r, p)
  running : pc.running = 0
  alive : pc.alive = 1
  noWay : pc.sealed = false

theorem holding_of_received (h : received pc r p = some pc') : Holding pc' r p := by
  cases pc <;> cases h <;> exact ⟨rfl, rfl, rfl, rfl, rfl, rfl⟩

theorem WorkMove.depth (h : WorkMove cfg sh pc sh' pc') :
    sh'.depth + pc.queued + sh.input.length = sh.depth + pc'.queued + sh'.input.length := by
  cases h with
  | received hin hpc =>
    simp only [(blank_of_received hpc).queued, (holding_of_received hpc).queued, hin,
      List.length_cons]
    omega
  | @signalled _ _ next _ _ _ h =>
    cases next <;> simp [WorkPc.queued, (signal_quiet h).depth, (signal_quiet h).input]
  | returned h =>
    rw [(blank_returned _ _).queued, (signal_quiet h).depth, (signal_quiet h).input]
    rfl
  | drained h hpc hpc' _ =>
    simp [h.depth, h.input, (blank_of_drains hpc).queued, (blank_of_drains hpc').queued]
  | _ => simp [WorkPc.queued, put]

theorem WorkMove.inFlight (h : WorkMove cfg sh pc sh' pc') :
    sh'.inFlight + pc.running = sh.inFlight + pc'.running := by
  cases h with
  | received hin hpc =>
    simp [(blank_of_received hpc).running, (holding_of_received hpc).running]
  | @signalled _ _ next _ _ _ h =>
    cases next <;> simp [WorkPc.running, (signal_quiet h).inFlight]
  | returned h =>
    rw [(blank_returned _ _).running, (signal_quiet h).inFlight]
    rfl
  | drained h hpc hpc' _ =>
    simp [h.inFlight, (blank_of_drains hpc).running, (blank_of_drains hpc').running]
  | _ => simp [WorkPc.running, put]

theorem WorkMove.wg (h : WorkMove cfg sh pc sh' pc') :
    sh'.wg + pc.alive = sh.wg + pc'.alive := by
  cases h with
  | received hin hpc => simp [(blank_of_received hpc).alive, (holding_of_received hpc).alive]
  | @signalled _ _ next _ _ _ h => cases next <;> simp [WorkPc.alive, (signal_quiet h).wg]
  | returned h =>
    rw [(blank_returned _ _).alive, (signal_quiet h).wg]
    rfl
  | drained h hpc hpc' _ =>
    simp [h.wg, (blank_of_drains hpc).alive, (blank_of_drains hpc').alive]
  | _ => simp [WorkPc.alive, put]

-- What a worker leaves alone.
structure WorkFrame (sh sh' : Shared C M F P) : Prop where
  flag : sh'.flag = sh.flag
  ctxErr : sh'.ctxErr = sh.ctxErr
  closed : sh'.closed = sh.closed
  publishers : sh'.publishers = sh.publishers
  callerErr : sh'.callerErr = sh.callerErr

theorem Quiet.workFrame (h : Quiet sh sh') : WorkFrame sh sh' :=
  ⟨h.flag, h.ctxErr, h.closed, h.publishers, h.callerErr⟩

theorem WorkMove.frame (h : WorkMove cfg sh pc sh' pc') : WorkFrame sh sh' := by
  cases h with
  | signalled h => exact (signal_quiet h).workFrame
  | returned h => exact (signal_quiet h).workFrame
  | drained h hpc hpc' _ => exact h.workFrame
  | _ => exact ⟨rfl, rfl, rfl, rfl, rfl⟩

theorem WorkMove.refs (h : WorkMove cfg sh pc sh' pc') (r : Nat) :
    sh'.places r + holds pc'.ref? r = sh.places r + holds pc.ref? r := by
  cases h with
  | @received _ r' _ _ _ hin hpc =>
    rw [(blank_of_received hpc).ref, (holding_of_received hpc).ref]
    simp only [Shared.places, hin, List.countP_cons, holds, Option.some.injEq, beq_iff_eq,
      reduceCtorEq, if_false]
    omega
  | @signalled _ _ next _ _ _ h => cases next <;> simp [WorkPc.ref?, (signal_quiet h).places]
  | returned h =>
    rw [(blank_returned _ _).ref, (signal_quiet h).places]
    rfl
  | drained h hpc hpc' _ =>
    simp [h.places, (blank_of_drains hpc).ref, (blank_of_drains hpc').ref]
  | cleared => simp [WorkPc.ref?, places_put, holds]
  | _ => simp [WorkPc.ref?, Shared.places]

-- An object is written only by the worker that holds it.
theorem WorkMove.heap (h : WorkMove cfg sh pc sh' pc') {r : Nat} (hr : pc.ref? ≠ some r) :
    sh'.heap r = sh.heap r := by
  cases h with
  | signalled h => rw [(signal_quiet h).heap]
  | returned h => rw [(signal_quiet h).heap]
  | drained h hpc hpc' _ => rw [h.heap]
  | cleared => exact Function.update_of_ne (fun he => hr (by rw [he]; rfl)) _ _
  | _ => rfl

-- The handler is called with what the task object holds.
theorem WorkMove.log (h : WorkMove cfg sh pc sh' pc') :
    sh'.log = sh.log ∨ ∃ r p, pc.token? = some (r, p) ∧
      sh'.log = sh.log ++ [(sh.heap r).invocation cfg.registerFn p] := by
  cases h with
  | signalled h => exact .inl (signal_quiet h).log
  | returned h => exact .inl (signal_quiet h).log
  | drained h hpc hpc' _ => exact .inl h.log
  | @invoked r p back => exact .inr ⟨r, p, rfl, rfl⟩
  | _ => exact .inl rfl

theorem WorkMove.input (h : WorkMove cfg sh pc sh' pc') :
    sh'.input = sh.input ∨ ∃ task, sh.input = task :: sh'.input := by
  cases h with
  | received hin hpc => exact .inr ⟨_, hin⟩
  | signalled h => exact .inl (signal_quiet h).input
  | returned h => exact .inl (signal_quiet h).input
  | drained h hpc hpc' _ => exact .inl h.input
  | _ => exact .inl rfl

def carries [DecidableEq P] (token? : Option (Nat × P)) (q : P) : Nat :=
  if token?.map Prod.snd = some q then 1 else 0

-- A task is in the channel, in the hands of a worker, or has had its handler called.
theorem WorkMove.tokens [DecidableEq P] (h : WorkMove cfg sh pc sh' pc') (q : P) :
    sh'.input.countP (fun task => task.2 = q) + carries pc'.token? q +
        sh'.log.countP (fun call => call.origin = q) =
      sh.input.countP (fun task => task.2 = q) + carries pc.token? q +
        sh.log.countP (fun call => call.origin = q) := by
  cases h with
  | @received _ r' p' _ _ hin hpc =>
    rw [(blank_of_received hpc).token, (holding_of_received hpc).token]
    simp only [hin, List.countP_cons, carries, Option.map_some, Option.map_none,
      Option.some.injEq, decide_eq_true_eq, reduceCtorEq, if_false]
    omega
  | @signalled _ _ next _ _ _ h =>
    cases next <;> simp [WorkPc.token?, (signal_quiet h).input, (signal_quiet h).log]
  | returned h =>
    rw [(blank_returned _ _).token, (signal_quiet h).input, (signal_quiet h).log]
    rfl
  | drained h hpc hpc' _ =>
    simp [h.input, h.log, (blank_of_drains hpc).token, (blank_of_drains hpc').token]
  | @invoked r' p' back =>
    simp only [WorkPc.token?, carries, List.countP_append, List.countP_singleton,
      Task.invocation, Option.map_some, Option.map_none, Option.some.injEq, decide_eq_true_eq,
      reduceCtorEq, if_false]
    omega
  | _ => simp [WorkPc.token?, put]

-- A worker has a task because it had it before or found it in the channel.
theorem WorkMove.token (h : WorkMove cfg sh pc sh' pc') {task : Nat × P}
    (ht : pc'.token? = some task) :
    (pc.token? = some task ∨ task ∈ sh.input) ∧ sh'.heap = sh.heap := by
  cases h with
  | received hin hpc =>
    rw [(holding_of_received hpc).token] at ht
    cases ht
    exact ⟨.inr (by rw [hin]; simp), rfl⟩
  | @signalled _ _ next _ _ _ h => cases next <;> exact ⟨.inl ht, (signal_quiet h).heap⟩
  | returned h =>
    rw [(blank_returned _ _).token] at ht
    cases ht
  | drained h hpc hpc' _ =>
    rw [(blank_of_drains hpc').token] at ht
    cases ht
  | _ => first | exact ⟨.inl ht, rfl⟩ | cases ht

theorem inDrain_of_drains (h : pc.drains = true) : pc.inDrain = true := by
  cases pc <;> first | rfl | cases h

theorem WorkMove.inDrain (h : WorkMove cfg sh pc sh' pc') (hpc : pc'.inDrain = true) :
    pc.inDrain = true ∨ sh.ctxErr.isSome = true := by
  cases h with
  | received hin hr => cases pc <;> cases hr <;> first | exact .inl rfl | cases hpc
  | cancelled h => exact .inr h
  | @signalled _ _ next _ _ _ h => cases next <;> exact .inl hpc
  | @returned _ _ next back h =>
    cases next <;> cases back <;> first | exact .inl rfl | cases hpc
  | drained h hd hd' _ => exact .inl (inDrain_of_drains hd)
  | _ => exact .inl hpc

theorem WorkMove.sealed (h : WorkMove cfg sh pc sh' pc') (hpc : pc'.sealed = true) :
    pc.sealed = true ∨ (pc.inDrain = true ∧ sh.publishers = 0) := by
  cases h with
  | received hin hr =>
    rw [(holding_of_received hr).noWay] at hpc
    cases hpc
  | @signalled _ _ next _ _ _ h => cases next <;> cases hpc
  | returned h =>
    rw [(blank_returned _ _).noWay] at hpc
    cases hpc
  | drained h hd hd' _ =>
    rw [(blank_of_drains hd').noWay] at hpc
    cases hpc
  | sawNoPublishers h => exact .inr ⟨rfl, h⟩
  | _ => first | exact .inl rfl | cases hpc

theorem sealed_of_drained (h : pc.drained = true) : pc.sealed = true := by
  cases pc <;> first | rfl | cases h

theorem inDrain_of_sealed (h : pc.sealed = true) : pc.inDrain = true := by
  cases pc <;> first | rfl | cases h

theorem WorkMove.sawNoTask (h : WorkMove cfg sh pc sh' pc') (hpc : pc'.drained = true) :
    pc.drained = true ∨ (pc.sealed = true ∧ sh.depth = 0) := by
  have hs := sealed_of_drained hpc
  cases h with
  | received hin hr =>
    rw [(holding_of_received hr).noWay] at hs
    cases hs
  | @signalled _ _ next _ _ _ h => cases next <;> cases hpc
  | returned h =>
    rw [(blank_returned _ _).noWay] at hs
    cases hs
  | drained h hd hd' _ =>
    rw [(blank_of_drains hd').noWay] at hs
    cases hs
  | sawNoDepth h => exact .inr ⟨rfl, h⟩
  | _ => first | exact .inl rfl | cases hpc

theorem WorkMove.not_gone (h : WorkMove cfg sh pc sh' pc') : pc ≠ .gone := by
  rintro rfl
  cases h with
  | received hin hr => cases hr
  | drained h hd hd' _ => cases hd

end Worker

section Stop

variable {pc pc' : StopPc}

-- What GracefulStop leaves alone.
structure StopFrame (sh sh' : Shared C M F P) : Prop where
  publishers : sh'.publishers = sh.publishers
  depth : sh'.depth = sh.depth
  inFlight : sh'.inFlight = sh.inFlight
  wg : sh'.wg = sh.wg
  input : sh'.input = sh.input
  heap : sh'.heap = sh.heap
  free : sh'.free = sh.free
  fresh : sh'.fresh = sh.fresh
  log : sh'.log = sh.log

theorem StopMove.frame (h : StopMove sh pc sh' pc') : StopFrame sh sh' := by
  cases h with
  | signalled h =>
    have hq := signal_quiet h
    exact ⟨hq.publishers, hq.depth, hq.inFlight, hq.wg, hq.input, hq.heap, hq.free, hq.fresh,
      hq.log⟩
  | _ => exact ⟨rfl, rfl, rfl, rfl, rfl, rfl, rfl, rfl, rfl⟩

theorem StopFrame.places (h : StopFrame sh sh') (r : Nat) : sh'.places r = sh.places r := by
  simp [Shared.places, h.input, h.free, h.fresh]

-- Once GracefulStop is under way the flag is never running again.
theorem StopMove.flag (h : StopMove sh pc sh' pc') (hpc : pc ≠ .start → sh.flag ≠ .running) :
    sh'.flag ≠ .running := by
  cases h with
  | won h => simp
  | lost h => exact h
  | stored => simp
  | signalled h => rw [(signal_quiet h).flag]; exact hpc (by simp)
  | _ => exact hpc (by simp)

theorem StopMove.ctxErr (h : StopMove sh pc sh' pc') (he : sh.ctxErr.isSome = true) :
    sh'.ctxErr.isSome = true := by
  cases h with
  | cancelled => simp
  | signalled h => rw [(signal_quiet h).ctxErr]; exact he
  | _ => exact he

-- The call has seen that no worker is left.
def StopPc.waited : StopPc → Bool
  | .store | .close => true
  | _ => false

theorem StopMove.waited_cases (h : StopMove sh pc sh' pc') (hpc : pc'.waited = true) :
    pc.waited = true ∨ sh.wg = 0 := by
  cases h with
  | @signalled _ _ next h => cases next <;> cases hpc
  | waited h => exact .inr h
  | stored => exact .inl rfl
  | _ => cases hpc

theorem StopMove.closed_cases (h : StopMove sh pc sh' pc') (hc : sh'.closed = true) :
    sh.closed = true ∨ pc.waited = true := by
  cases h with
  | signalled h => exact .inl ((signal_quiet h).closed ▸ hc)
  | closed => exact .inr rfl
  | _ => exact .inl hc

theorem StopMove.closed_mono (h : StopMove sh pc sh' pc') (hc : sh.closed = true) :
    sh'.closed = true := by
  cases h with
  | signalled h => rw [(signal_quiet h).closed]; exact hc
  | closed => rfl
  | _ => exact hc

theorem StopMove.returned_closed (h : StopMove sh pc sh' pc') (hpc : pc' = .returned) :
    sh'.closed = true := by
  cases h with
  | @signalled _ _ next h => cases next <;> cases hpc
  | closed => rfl
  | returned h => exact h
  | _ => cases hpc

end Stop

section Lock

def PubPc.holdsLock : PubPc → Bool
  | .sent stage | .left stage _ => stage.holdsLock
  | _ => false

def StopPc.holdsLock : StopPc → Bool
  | .cancelled stage => stage.holdsLock
  | _ => false

theorem signal_lock {stage : Stage} {next : Option Stage}
    (h : signal sh stage = some (sh', next)) (hl : sh'.locked = true) :
    ∃ stage', next = some stage' ∧ stage'.holdsLock = true := by
  cases stage with
  | lock =>
    unfold signal at h
    split_ifs at h
    cases h
    exact ⟨_, rfl, rfl⟩
  | broadcast => cases h; exact ⟨_, rfl, rfl⟩
  | unlock => cases h; cases hl

-- Whoever leaves the critical section has given the mutex back.
theorem PubMove.lock {pc pc' : PubPc} (h : PubMove cfg sh p pc sh' pc')
    (hl : sh'.locked = true) :
    pc'.holdsLock = true ∨ (sh.locked = true ∧ pc.holdsLock = false) := by
  cases h with
  | signalled h =>
    obtain ⟨stage', rfl, hs⟩ := signal_lock h hl
    exact .inl hs
  | finished h =>
    obtain ⟨stage', rfl, hs⟩ := signal_lock h hl
    exact .inl hs
  | _ => exact .inr ⟨hl, rfl⟩

theorem StopMove.lock {pc pc' : StopPc} (h : StopMove sh pc sh' pc')
    (hl : sh'.locked = true) :
    pc'.holdsLock = true ∨ (sh.locked = true ∧ pc.holdsLock = false) := by
  cases h with
  | signalled h =>
    obtain ⟨stage', rfl, hs⟩ := signal_lock h hl
    exact .inl hs
  | _ => exact .inr ⟨hl, rfl⟩

theorem WorkMove.lock {pc pc' : WorkPc P} (h : WorkMove cfg sh pc sh' pc')
    (hl : sh'.locked = true) :
    pc'.holdsLock = true ∨ (sh.locked = true ∧ pc.holdsLock = false) := by
  cases h with
  | received hin hr =>
    cases pc <;> cases hr <;> first | exact .inl rfl | exact .inr ⟨hl, rfl⟩
  | signalled h =>
    obtain ⟨stage', rfl, hs⟩ := signal_lock h hl
    exact .inl hs
  | returned h =>
    obtain ⟨stage', rfl, hs⟩ := signal_lock h hl
    exact .inl hs
  | unlocked => cases hl
  | drained _ _ _ h => exact h hl
  | _ => exact .inr ⟨hl, rfl⟩

end Lock

end NatsClient.WorkerPool
