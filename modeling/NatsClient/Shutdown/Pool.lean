import NatsClient.Shutdown.Theorems

namespace NatsClient.Shutdown

open Lib.Machine

variable {C M F P I : Type} [DecidableEq P] [DecidableEq I] {u : Setup}
  {cfg : WorkerPool.Config C M F P}

section Reached

variable {workers : Nat} {early : Bool} {c d : Client C M F P workers}
  {s t : State C M F P workers I}

-- The pool has run by itself so far. This says nothing of one that comes after Shutdown.
def Pooled (early : Bool) (cfg : WorkerPool.Config C M F P) (c : Client C M F P workers) : Prop :=
  early = true ∨ c.once = .fresh → c.parentErr = none →
    Reaches (WorkerPool.ownStep cfg) (WorkerPool.initial workers) c.pool

theorem Pooled.background (hs : Pooled early cfg c) (h : Background cfg c d) :
    Pooled early cfg d := by
  intro hp hnone
  rw [h.once] at hp
  have hc := hs hp (h.parentErr hnone)
  rcases h.pool with hsame | ⟨a, ha⟩ | ⟨hsome, -⟩
  · rwa [hsame]
  · exact hc.trans (Reaches.single ha)
  · exact absurd hnone hsome

-- Cancelling the context of a pool that has been drained changes nothing.
theorem cancelPool_of_returned [Fintype P] (w : Fin workers) {err : GoError}
    (hpool : Reaches (WorkerPool.ownStep cfg) (WorkerPool.initial workers) c.pool)
    (hret : c.pool.stop () = .returned) : c.cancelPool err = c := by
  have hclosing := (WorkerPool.inv_of_reaches hpool).closing
  have hgone := (hclosing.over hret).gone w
  have hsome : c.pool.shared.ctxErr.isSome = true := hclosing.inDrain w (by rw [hgone]; rfl)
  obtain ⟨e, he⟩ := Option.isSome_iff_exists.mp hsome
  have hor : c.pool.shared.ctxErr.or (some err) = c.pool.shared.ctxErr := by rw [he]; rfl
  unfold Client.cancelPool
  rw [hor]

theorem Pooled.advance [Fintype P] (w : Fin workers) {stage : Stage} {pc : Pc}
    (hs : Pooled early cfg c) (hrunning : c.once = .running)
    (hsettled : Settled early c stage.rank) (h : Advance cfg c stage d pc) :
    Pooled early cfg d := by
  intro hp hnone
  -- it is not before Shutdown
  have hearly : early = true := by
    refine hp.resolve_right fun hfresh => ?_
    rcases h.leaves with ⟨-, -, honce⟩ | ⟨-, -, honce⟩ <;> rw [hfresh] at honce
    · rw [hrunning] at honce; cases honce
    · cases honce
  have hp : early = true ∨ c.once = .fresh := .inl hearly
  cases h with
  | draining _ hnot h => exact (hs hp hnone).trans (Reaches.single (a := .stop ()) h)
  | cancelConsumer =>
    have hpool := hs hp hnone
    have hret : c.pool.stop () = .returned := hsettled .gracefulStop (by decide) hearly
    rw [cancelPool_of_returned w hpool hret]
    exact hpool
  | leave => exact hs (.inl hearly) hnone
  | _ => exact hs hp hnone

theorem pooled_reaches [Fintype P] (w : Fin workers) (hinv : Inv early s)
    (hs : Pooled early cfg s.client) (h : Reaches (step u cfg) s t) :
    Pooled early cfg t.client := by
  have hboth : Inv early t ∧ Pooled early cfg t.client := by
    refine h.invariant (P := fun s => Inv early s ∧ Pooled early cfg s.client) ?_ ⟨hinv, hs⟩
    rintro s a t ⟨hinv, hpooled⟩ hstep
    have hmove := step_move hstep
    refine ⟨hinv.move hmove, ?_⟩
    cases hmove with
    | enter => exact fun hp => hpooled (.inl (hp.resolve_right (by simp)))
    | late => exact hpooled
    | body hpc h => exact hpooled.advance w (hinv.running _ _ hpc) (hinv.body _ _ hpc) h
    | background h => exact hpooled.background h
  exact hboth.2

-- A pool that is over handles nothing more, whatever becomes of the client.
theorem over_move (hs : WorkerPool.Over s.client.pool) (h : Move cfg s t) :
    WorkerPool.Over t.client.pool ∧ t.client.pool.shared.log = s.client.pool.shared.log := by
  cases h with
  | enter => exact ⟨hs, rfl⟩
  | late => exact ⟨hs, rfl⟩
  | body hpc h =>
    cases h with
    | draining _ hnot h =>
      have hown : WorkerPool.ownStep cfg s.client.pool (.stop ()) = some _ := h
      exact hs.reaches (Reaches.single hown)
    | cancelConsumer => exact ⟨⟨hs.flag, hs.gone⟩, rfl⟩
    | _ => exact ⟨hs, rfl⟩
  | background h =>
    rcases h.pool with hsame | ⟨a, ha⟩ | ⟨-, err, hcancel⟩
    · dsimp only
      rw [hsame]
      exact ⟨hs, rfl⟩
    · exact hs.reaches (Reaches.single ha)
    · dsimp only
      rw [hcancel]
      exact ⟨⟨hs.flag, hs.gone⟩, rfl⟩

theorem over_reaches (hs : WorkerPool.Over s.client.pool) (h : Reaches (step u cfg) s t) :
    WorkerPool.Over t.client.pool ∧ t.client.pool.shared.log = s.client.pool.shared.log := by
  refine h.invariant (P := fun t => WorkerPool.Over t.client.pool ∧
    t.client.pool.shared.log = s.client.pool.shared.log) ?_ ⟨hs, rfl⟩
  rintro mid a next ⟨hmid, hlog⟩ hstep
  obtain ⟨hover, hsame⟩ := over_move hmid (step_move hstep)
  exact ⟨hover, hsame.trans hlog⟩

end Reached

end NatsClient.Shutdown
