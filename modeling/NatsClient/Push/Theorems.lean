import NatsClient.Push
import NatsClient.WorkerPool.Clients

namespace NatsClient.Push

open Lib.Machine WorkerPool

variable {C H Q W S : Type} [DecidableEq H] [DecidableEq Q] [DecidableEq W] [DecidableEq S]
  {u : Setup C H Q} {s t : State C H Q W S} {h : H}

-- Everything a step of a handler can do when the worker pool is enabled.
inductive HandlerMove (u : Setup C H Q) (pool : WorkerPool.State C Msg Handler (H ⊕ Q) W S)
    (h : H) (d : Delivery) : Pc → Pc → Delivery → Prop
  | offered (hn : u.nonBlocking = true) : HandlerMove u pool h d .start .publish d
  | checked (hn : u.nonBlocking = false) : HandlerMove u pool h d .start .backpressure d
  | read : HandlerMove u pool h d .backpressure (.decide pool.shared.depth) d
  | decided {depth result}
      (hr : handlePoolBackpressure u.consumer (u.wire h) depth pool.shared.depth d = result) :
      HandlerMove u pool h d (.decide depth) (u.afterBackpressure result.2) result.1
  | published {result} (hp : pool.pub (.inl h) = .done result) :
      HandlerMove u pool h d .publish (u.afterPublish result) d

omit [DecidableEq H] [DecidableEq Q] [DecidableEq W] [DecidableEq S] in
theorem handlerStep_move (he : u.consumer.cfg.workerPoolEnabled = true) {next : Pc × Delivery}
    (hs : handlerStep u s h = some next) :
    HandlerMove u s.pool h (s.delivery h) (s.pc h) next.1 next.2 := by
  unfold handlerStep at hs
  simp only [he, Bool.not_true, Bool.false_eq_true, if_false] at hs
  split at hs
  · next hpc =>
    split_ifs at hs with hn <;> cases hs <;> rw [hpc]
    · exact .offered hn
    · exact .checked (by simpa using hn)
  · next hpc => cases hs; rw [hpc]; exact .read
  · next hpc => cases hs; rw [hpc]; exact .decided rfl
  · next hpc =>
    split at hs
    · next result hp => cases hs; rw [hpc]; exact .published hp
    · cases hs
  · cases hs

theorem step_pool {act : WorkerPool.Act (H ⊕ Q) W S} (hs : step u s (.pool act) = some t) :
    (∃ pool, WorkerPool.step u.pool s.pool act = some pool ∧ t = { s with pool := pool }) ∧
      ∀ h, act.publisher? = some (.inl h) → s.pc h = .publish := by
  simp only [step] at hs
  split at hs
  · next h hpub =>
    split_ifs at hs with hpc
    obtain ⟨pool, hpool, rfl⟩ := Option.map_eq_some_iff.mp hs
    refine ⟨⟨pool, hpool, rfl⟩, fun h' hh => ?_⟩
    rw [hpub] at hh
    cases hh
    exact hpc
  · next hpub =>
    obtain ⟨pool, hpool, rfl⟩ := Option.map_eq_some_iff.mp hs
    exact ⟨⟨pool, hpool, rfl⟩, fun h' hh => absurd hh (hpub h')⟩

def Pc.isReturned : Pc → Bool
  | .returned _ => true
  | _ => false

-- A call has settled nothing before it returns, and it comes to the second look at
-- the depth only with a full buffer reported.
structure Inv (u : Setup C H Q) (s : State C H Q W S) : Prop where
  unsettled : ∀ h, (s.pc h).isReturned = false → (s.delivery h).settlement = none
  rejected : u.nonBlocking = true → ∀ h,
    (s.pc h = .backpressure ∨ ∃ depth, s.pc h = .decide depth) →
      s.pool.pub (.inl h) = .done .rejected
  blocking : u.nonBlocking = false → ∀ h, (s.pool.pub (.inl h)).rejecting = false

section Moves

variable {pool : WorkerPool.State C Msg Handler (H ⊕ Q) W S} {pc pc' : Pc} {d d' : Delivery}

omit [DecidableEq H] [DecidableEq Q] [DecidableEq W] [DecidableEq S]

theorem HandlerMove.not_returned (hm : HandlerMove u pool h d pc pc' d') :
    pc.isReturned = false := by
  cases hm <;> rfl

theorem HandlerMove.unsettled (hm : HandlerMove u pool h d pc pc' d')
    (hd : d.settlement = none) (hpc : pc'.isReturned = false) : d'.settlement = none := by
  cases hm with
  | decided hr =>
    subst hr
    refine (handlePoolBackpressure_unsettled hd).resolve_right fun he => ?_
    rw [he] at hpc
    simp only [Setup.afterBackpressure] at hpc
    split_ifs at hpc <;> simp_all [Pc.isReturned]
  | _ => exact hd

theorem HandlerMove.rejected (hm : HandlerMove u pool h d pc pc' d')
    (hn : u.nonBlocking = true)
    (hpc : pc = .backpressure → pool.pub (.inl h) = .done .rejected)
    (hpc' : pc' = .backpressure ∨ ∃ depth, pc' = .decide depth) :
    pool.pub (.inl h) = .done .rejected := by
  cases hm with
  | offered => simp at hpc'
  | checked hb => rw [hn] at hb; cases hb
  | read => exact hpc rfl
  | decided hr => simp [Setup.afterBackpressure, hn] at hpc'
  | @published result hp =>
    cases result with
    | rejected => exact hp
    | _ => simp [Setup.afterPublish] at hpc'

-- A nil result without a task in the pool or a settlement comes from a second look
-- that finds room.
theorem HandlerMove.kept (hm : HandlerMove u pool h d pc pc' d') (hw : (u.wire h).Foreign)
    (hb : u.nonBlocking = false → (pool.pub (.inl h)).rejecting = false)
    (hfull : ∀ depth, pc = .decide depth → u.nonBlocking = true →
      u.consumer.verdict depth ≠ .room)
    (hpc' : pc' = .returned none) :
    pool.pub (.inl h) = .done .accepted ∨ d'.settlement.isSome = true := by
  cases hm with
  | @decided depth result hr =>
    subst hr
    cases hn : u.nonBlocking with
    | true =>
      simp only [Setup.afterBackpressure, hn, if_true, Pc.returned.injEq] at hpc'
      exact absurd ((handlePoolBackpressure_snd_eq_none_iff _ _ _ _ _).mp hpc')
        (hfull depth rfl hn)
    | false =>
      right
      apply handlePoolBackpressure_settled hw
      revert hpc'
      cases (handlePoolBackpressure u.consumer (u.wire h) depth pool.shared.depth d).2 with
      | none => simp [Setup.afterBackpressure, hn]
      | some e =>
        simp only [Setup.afterBackpressure, hn, Bool.false_eq_true, if_false]
        split_ifs with hf he
        · simp
        · simp [he]
        · simp
  | @published result hp =>
    left
    cases result with
    | accepted => exact hp
    | rejected =>
      cases hn : u.nonBlocking with
      | true => simp [Setup.afterPublish, hn] at hpc'
      | false =>
        have hr := hb hn
        rw [hp] at hr
        cases hr
    | failed e => simp [Setup.afterPublish] at hpc'
  | _ => cases hpc'

end Moves

omit [DecidableEq H] [DecidableEq Q] [DecidableEq S] in
theorem inv_initial : Inv u (initial u : State C H Q _ S) where
  unsettled _ _ := rfl
  rejected _ h hpc := by simp [initial] at hpc
  blocking _ _ := rfl

theorem Inv.step (he : u.consumer.cfg.workerPoolEnabled = true) (hi : Inv u s) {a : Act H Q W S}
    (hs : step u s a = some t) : Inv u t := by
  cases a with
  | handler h =>
    obtain ⟨next, hnext, rfl⟩ := Option.map_eq_some_iff.mp hs
    have hm := handlerStep_move he hnext
    refine ⟨fun h' hpc => ?_, fun hn h' hpc => ?_, hi.blocking⟩
    · simp only [State.setHandler] at hpc ⊢
      by_cases hh : h' = h
      · subst hh
        rw [Function.update_self] at hpc ⊢
        exact hm.unsettled (hi.unsettled h' hm.not_returned) hpc
      · rw [Function.update_of_ne hh] at hpc ⊢
        exact hi.unsettled h' hpc
    · simp only [State.setHandler] at hpc ⊢
      by_cases hh : h' = h
      · subst hh
        rw [Function.update_self] at hpc
        exact hm.rejected hn (fun hb => hi.rejected hn h' (.inl hb)) hpc
      · rw [Function.update_of_ne hh] at hpc
        exact hi.rejected hn h' hpc
  | pool act =>
    obtain ⟨⟨pool, hpool, rfl⟩, -⟩ := step_pool hs
    refine ⟨hi.unsettled, fun hn h hpc => ?_, fun hn h => ?_⟩
    · exact step_pub_done hpool (hi.rejected hn h hpc)
    · exact step_pub_not_rejecting hpool hn (hi.blocking hn h)

-- The handler has returned nil for a message that is neither in the pool nor settled.
def Stranded (s : State C H Q W S) (h : H) : Prop :=
  s.pc h = .returned none ∧ s.pool.pub (.inl h) ≠ .done .accepted ∧
    (s.delivery h).settlement = none

-- The second look at the depth, after a full buffer, still finds the buffer full.
def StillFull (u : Setup C H Q) (s : State C H Q W S) : Act H Q W S → Prop
  | .handler h => ∀ depth, s.pc h = .decide depth → u.consumer.mode.orBlock = .nak →
      0 < u.consumer.cfg.workerBufferSize ∧ u.consumer.cfg.workerBufferSize ≤ depth
  | .pool _ => True

theorem not_stranded_step (he : u.consumer.cfg.workerPoolEnabled = true)
    (hw : ∀ h, (u.wire h).Foreign) {a : Act H Q W S} (hi : Inv u s)
    (hk : ∀ h, ¬ Stranded s h) (hf : StillFull u s a) (hs : step u s a = some t) (h : H) :
    ¬ Stranded t h := by
  rintro ⟨hpc, hacc, hset⟩
  cases a with
  | handler h' =>
    obtain ⟨next, hnext, rfl⟩ := Option.map_eq_some_iff.mp hs
    have hm := handlerStep_move he hnext
    simp only [State.setHandler] at hpc hacc hset
    by_cases hh : h = h'
    · subst hh
      rw [Function.update_self] at hpc hset
      have hroom (depth : Int) (hd : s.pc h = .decide depth) (hn : u.nonBlocking = true) :
          u.consumer.verdict depth ≠ .room := by
        rw [Ne, verdict_eq_room_iff, not_not]
        exact hf depth hd (of_decide_eq_true hn)
      rcases hm.kept (hw h) (fun hn => hi.blocking hn h) hroom hpc with hdone | hsome
      · exact hacc hdone
      · rw [hset] at hsome
        cases hsome
    · rw [Function.update_of_ne hh] at hpc hset
      exact hk h ⟨hpc, hacc, hset⟩
  | pool act =>
    obtain ⟨⟨pool, hpool, rfl⟩, -⟩ := step_pool hs
    exact hk h ⟨hpc, fun hdone => hacc (step_pub_done hpool hdone), hset⟩

-- A second look that finds room leaves its message stranded.
theorem stranded_of_room (hi : Inv u s) {a : Act H Q W S} (hf : ¬ StillFull u s a)
    (hs : step u s a = some t) : ∃ h, Stranded t h ∧ t.pool.pub (.inl h) = .done .rejected := by
  cases a with
  | pool act => exact absurd trivial hf
  | handler h =>
    simp only [StillFull, not_forall] at hf
    obtain ⟨depth, hpc, hn, hroom⟩ := hf
    have hn' : u.nonBlocking = true := by simp [Setup.nonBlocking, hn]
    have hrej := hi.rejected hn' h (.inr ⟨depth, hpc⟩)
    have hv := (verdict_eq_room_iff u.consumer depth).mpr hroom
    have hd := hi.unsettled h (by rw [hpc]; rfl)
    obtain ⟨next, hnext, rfl⟩ := Option.map_eq_some_iff.mp hs
    simp only [handlerStep, hpc, handlePoolBackpressure, hv, Setup.afterBackpressure, hn',
      if_true, Option.some.injEq] at hnext
    subst hnext
    refine ⟨h, ⟨?_, ?_, ?_⟩, hrej⟩
    · exact Function.update_self _ _ _
    · intro hacc
      exact absurd (hrej.symm.trans hacc) (by simp)
    · simpa [State.setHandler] using hd

theorem stranded_stays {a : Act H Q W S}
    (hk : Stranded s h ∧ s.pool.pub (.inl h) = .done .rejected) (hs : step u s a = some t) :
    Stranded t h ∧ t.pool.pub (.inl h) = .done .rejected := by
  obtain ⟨⟨hpc, -, hset⟩, hrej⟩ := hk
  suffices hkeep : t.pc h = s.pc h ∧ t.delivery h = s.delivery h ∧
      t.pool.pub (.inl h) = .done .rejected by
    obtain ⟨hpc', hd', hrej'⟩ := hkeep
    refine ⟨⟨hpc'.trans hpc, ?_, hd' ▸ hset⟩, hrej'⟩
    rw [hrej']
    simp
  cases a with
  | handler h' =>
    obtain ⟨next, hnext, rfl⟩ := Option.map_eq_some_iff.mp hs
    have hh : h ≠ h' := by
      rintro rfl
      simp [handlerStep, hpc] at hnext
    exact ⟨Function.update_of_ne hh _ _, Function.update_of_ne hh _ _, hrej⟩
  | pool act =>
    obtain ⟨⟨pool, hpool, rfl⟩, -⟩ := step_pool hs
    exact ⟨rfl, rfl, step_pub_done hpool hrej⟩

-- No message is stranded exactly in the runs in which every second look at the depth
-- still finds the buffer full.
theorem wrapHandler_not_stranded_iff (u : Setup C H Q)
    (he : u.consumer.cfg.workerPoolEnabled = true) (hw : ∀ h, (u.wire h).Foreign)
    {acts : List (Act H Q (Fin (poolLen u.consumer.cfg.poolSize)) S)}
    {s : State C H Q (Fin (poolLen u.consumer.cfg.poolSize)) S}
    (hexec : exec (step u) (initial u) acts = some s) :
    (∀ h, ¬ Stranded s h) ↔ Along (step u) (StillFull u) (initial u) acts := by
  constructor
  · intro hkept
    by_contra hnot
    obtain ⟨before, a, after, mid, next, -, hbefore, hviolated, hstep, hafter⟩ :=
      exists_violation hexec hnot
    have hinv : Inv u mid :=
      Reaches.invariant (fun _ _ _ hi hs => hi.step he hs) ⟨before, hbefore⟩ inv_initial
    obtain ⟨h, hstranded⟩ := stranded_of_room hinv hviolated hstep
    exact hkept h (Reaches.invariant (fun _ _ _ hi hs => stranded_stays hi hs) ⟨after, hafter⟩
      hstranded).1
  · intro halong
    refine (halong.invariant (P := fun s => Inv u s ∧ ∀ h, ¬ Stranded s h) ?_ hexec
      ⟨inv_initial, ?_⟩).2
    · intro s a t hi hf hs
      exact ⟨hi.1.step he hs, not_stranded_step he hw hi.1 hi.2 hf hs⟩
    · rintro h ⟨hpc, -⟩
      cases hpc

-- One worker, BackpressureNak, and two messages.
def twoMessages (workerBufferSize : Int) : Setup Unit Bool Empty where
  consumer := ⟨⟨1, workerBufferSize, true, false⟩, .nak, none⟩
  comp := ⟨⟨.ok, fun data => (data, none)⟩, ⟨.ok, fun data => (data, none)⟩⟩
  handler d := (d, .returned none)
  ctx _ := ()
  msg second := ⟨"orders.new", if second then "$JS.ACK.2" else "$JS.ACK.1", ∅, [], true⟩
  wire _ := ⟨fun _ => none, fun _ => none⟩
  others q := q.elim

-- The first message fills the buffer and the second one is turned away.
def secondRejected : List (Act Bool Empty (Fin 1) Unit) :=
  Act.handler false :: List.replicate 6 (Act.pool (.publish (.inl false) .go)) ++
    Act.handler true :: List.replicate 5 (Act.pool (.publish (.inl true) .go)) ++
    Act.pool (.publish (.inl true) .giveUp) ::
    List.replicate 6 (Act.pool (.publish (.inl true) .go)) ++ [Act.handler true]

theorem wrapHandler_not_stranded_iff_nakked :
    ∃ s : State Unit Bool Empty (Fin (poolLen 1)) Unit,
      exec (step (twoMessages 1)) (initial (twoMessages 1))
        (secondRejected ++ [.handler true, .handler true]) = some s ∧
      s.pc true = .returned (some (.sentinel .errBackpressureHandled)) ∧
      (s.delivery true).settlement = some (.nak 0) ∧
      Along (step (twoMessages 1)) (StillFull (twoMessages 1)) (initial (twoMessages 1))
        (secondRejected ++ [.handler true, .handler true]) := by
  obtain ⟨s, hexec, hfirst, hsecond, hset⟩ :
      ∃ s : State Unit Bool Empty (Fin (poolLen 1)) Unit,
        exec (step (twoMessages 1)) (initial (twoMessages 1))
          (secondRejected ++ [.handler true, .handler true]) = some s ∧
        s.pc false = .publish ∧
        s.pc true = .returned (some (.sentinel .errBackpressureHandled)) ∧
        (s.delivery true).settlement = some (.nak 0) :=
    ⟨_, rfl, rfl, rfl, rfl⟩
  refine ⟨s, hexec, hsecond, hset, ?_⟩
  refine (wrapHandler_not_stranded_iff (twoMessages 1) rfl (by rintro h n e ⟨⟩) hexec).mp ?_
  rintro (_ | _) ⟨hpc, -⟩
  · rw [hfirst] at hpc
    cases hpc
  · rw [hsecond] at hpc
    cases hpc

-- Without a buffer the first message keeps the worker busy.
def secondRejectedUnbuffered : List (Act Bool Empty (Fin 1) Unit) :=
  Act.handler false :: List.replicate 5 (Act.pool (.publish (.inl false) .go)) ++
    Act.pool (.handoff (.inl false) (Fin.last 0)) ::
    Act.handler true :: List.replicate 5 (Act.pool (.publish (.inl true) .go)) ++
    Act.pool (.publish (.inl true) .giveUp) ::
    List.replicate 6 (Act.pool (.publish (.inl true) .go)) ++ [Act.handler true]

-- The worker takes the first message between the two looks at the pool. Without a
-- buffer no race is needed.
theorem wrapHandler_strands :
    (∃ s : State Unit Bool Empty (Fin (poolLen 1)) Unit,
      exec (step (twoMessages 1)) (initial (twoMessages 1))
        (secondRejected ++ [.pool (.work (Fin.last 0) .go), .pool (.work (Fin.last 0) .go),
          .handler true, .handler true]) = some s ∧ Stranded s true) ∧
    ∃ s : State Unit Bool Empty (Fin (poolLen 1)) Unit,
      exec (step (twoMessages 0)) (initial (twoMessages 0))
        (secondRejectedUnbuffered ++ [.handler true, .handler true]) = some s ∧
      Stranded s true := by
  refine ⟨⟨_, rfl, rfl, ?_, rfl⟩, ⟨_, rfl, rfl, ?_, rfl⟩⟩
  · intro h
    cases h
  · intro h
    cases h

end NatsClient.Push
