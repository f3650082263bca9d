import NatsClient.Lib.Counting
import NatsClient.Pull.Moves
import NatsClient.WorkerPool.Clients
import NatsClient.WorkerPool.Invariants

namespace NatsClient.Pull

open Lib.Counting

variable {Q W S : Type} {u : Setup Q} {s t : State Q W S} {c : Call}

-- The task of the call went into the channel of the pool.
def Accepted (s : State Q W S) (c : Call) : Prop := (s.pool.pub (.inl c)).accepted = true

-- processMessage has returned.
def JobPc.processed : JobPc → Bool
  | recording _ | finished => true
  | _ => false

-- What every call of tryPublish has behind it, in any batch.
structure Calls [DecidableEq Q] [Fintype W] (s : State Q W S) : Prop where
  traced : WorkerPool.Traced s.pool
  -- the function runs when the pool has called it
  invoked : ∀ c, s.job c = .unborn ↔
    s.pool.shared.log.countP (fun call => call.origin = .inl c) = 0
  -- only processBatch makes such a call, and it waits for the result
  ended : ∀ c, s.publishing ≠ some c →
    s.pool.pub (.inl c) = .idle ∨ ∃ result, s.pool.pub (.inl c) = .done result
  unrefused : ∀ c, c.blocking = true → (s.pool.pub (.inl c)).rejecting = false

-- A call of tryPublish is over when processBatch goes on.
theorem DriveMove.done_of_publishing (h : DriveMove u s s.pc t) (hpub : s.publishing = some c) :
    ∃ result, s.pool.pub (.inl c) = .done result := by
  unfold State.publishing at hpub
  generalize hpc : s.pc = pc at h hpub
  cases h with
  | offered hp =>
    cases hpub
    exact ⟨_, hp⟩
  | published hp =>
    cases hpub
    exact ⟨_, hp⟩
  | _ => cases hpub

-- What a function that the pool runs can do.
inductive JobMove (u : Setup Q) (s : State Q W S) (c : Call) : State Q W S → Prop
  | processed {d err} (hjob : s.job c = .running)
      (hd : u.processMessage c.round c.index (s.delivery c.round c.index) = (d, err)) :
      JobMove u s c { s.deliver c.round c.index d with
        job := Function.update s.job c (.recording err) }
  | finished {err} (hjob : s.job c = .recording err) :
      JobMove u s c { (s.record c.round err).addWg c.round (-1) with
        job := Function.update s.job c .finished }

theorem jobStep_move (h : jobStep u s c = some t) : JobMove u s c t := by
  unfold jobStep at h
  split at h
  case h_1 hjob =>
    cases h
    exact .processed hjob rfl
  case h_2 err hjob =>
    cases h
    exact .finished hjob
  case h_3 => cases h

theorem JobMove.job_of_ne (h : JobMove u s c t) {other : Call} (hne : other ≠ c) :
    t.job other = s.job other := by
  cases h with
  | processed hjob hd => exact Function.update_of_ne hne _ _
  | finished hjob => exact Function.update_of_ne hne _ _

theorem JobMove.job_self (h : JobMove u s c t) :
    s.job c ≠ .unborn ∧ (t.job c).processed = true := by
  cases h with
  | processed hjob hd => simp [hjob, JobPc.processed]
  | finished hjob => simp [hjob, JobPc.processed]

theorem JobMove.unborn_iff (h : JobMove u s c t) (other : Call) :
    t.job other = .unborn ↔ s.job other = .unborn := by
  by_cases hother : other = c
  · subst hother
    obtain ⟨hbefore, hafter⟩ := h.job_self
    refine ⟨fun ht => ?_, fun hs => absurd hs hbefore⟩
    rw [ht] at hafter
    cases hafter
  · rw [h.job_of_ne hother]

theorem publishing_eq (hround : t.round = s.round) (hpc : t.pc = s.pc) :
    t.publishing = s.publishing := by
  unfold State.publishing
  rw [hround, hpc]

theorem started_eq_some_iff {act : WorkerPool.Act (Call ⊕ Q) W S} :
    started s act = some c ↔ s.pool.invoking act = some (.inl c) := by
  cases act with
  | work w choice =>
    cases hw : s.pool.work w with
    | invoke r p back =>
      cases p <;> simp [started, WorkerPool.State.invoking, WorkerPool.WorkPc.invoking?, hw]
    | _ => simp [started, WorkerPool.State.invoking, WorkerPool.WorkPc.invoking?, hw]
  | _ => simp [started, WorkerPool.State.invoking]

section Facts

variable [DecidableEq Q] [Fintype W]

theorem Calls.accepted_of_job (hs : Calls s) (hjob : s.job c ≠ .unborn) : Accepted s c := by
  have hlog := mt (hs.invoked c).mpr hjob
  have htraced := hs.traced (.inl c)
  unfold Accepted
  cases hacc : (s.pool.pub (.inl c)).accepted with
  | true => rfl
  | false =>
    rw [hacc, Bool.toNat_false] at htraced
    omega

-- The function of a call starts once.
theorem Calls.unborn_of_invoking {act : WorkerPool.Act (Call ⊕ Q) W S} (hs : Calls s)
    (h : s.pool.invoking act = some (.inl c)) : s.job c = .unborn := by
  obtain ⟨w, r, back, hw⟩ := WorkerPool.exists_of_invoking h
  exact (hs.invoked c).mpr (hs.traced.not_in_log hw)

theorem Calls.unborn_of_not_accepted (hs : Calls s) (hacc : ¬ Accepted s c) :
    s.job c = .unborn := by
  by_contra hjob
  exact hacc (hs.accepted_of_job hjob)

theorem Calls.not_rejected (hs : Calls s) (hblocking : c.blocking = true) :
    s.pool.pub (.inl c) ≠ .done .rejected := by
  intro hdone
  have hnot := hs.unrefused c hblocking
  rw [hdone] at hnot
  cases hnot

theorem Calls.drive {viaCtx : Bool} (hs : Calls s) (h : driveStep u s viaCtx = some t) :
    Calls t := by
  have hmove := driveStep_move h
  have hf := hmove.frame
  refine ⟨?_, ?_, fun c hout => ?_, ?_⟩
  · rw [hf.pool]
    exact hs.traced
  · rw [hf.pool, hf.job]
    exact hs.invoked
  · rw [hf.pool]
    by_cases hpub : s.publishing = some c
    · exact .inr (hmove.done_of_publishing hpub)
    · exact hs.ended c hpub
  · rw [hf.pool]
    exact hs.unrefused

end Facts

variable [DecidableEq Q] [DecidableEq W] [DecidableEq S]

-- The pool moves no call of a batch but the one that processBatch waits for.
theorem poolStep_pub_of_ne {act : WorkerPool.Act (Call ⊕ Q) W S} (h : poolStep u s act = some t)
    (hout : s.publishing ≠ some c) : t.pool.pub (.inl c) = s.pool.pub (.inl c) := by
  obtain ⟨ha, pool, hpool, rfl⟩ := poolStep_eq h
  refine WorkerPool.step_pub_of_ne hpool fun hp => hout ?_
  cases act with
  | publish p choice =>
    cases hp
    simpa [allowed] using ha
  | handoff p w =>
    cases hp
    simpa [allowed] using ha
  | _ => cases hp

theorem poolStep_accepted_iff {act : WorkerPool.Act (Call ⊕ Q) W S} (h : poolStep u s act = some t)
    (hout : s.publishing ≠ some c) : Accepted t c ↔ Accepted s c := by
  unfold Accepted
  rw [poolStep_pub_of_ne h hout]

theorem poolStep_pub_done {act : WorkerPool.Act (Call ⊕ Q) W S} (h : poolStep u s act = some t)
    {result : WorkerPool.Result} (hdone : s.pool.pub (.inl c) = .done result) :
    t.pool.pub (.inl c) = .done result := by
  obtain ⟨-, pool, hpool, rfl⟩ := poolStep_eq h
  exact WorkerPool.step_pub_done hpool hdone

theorem poolStep_job {act : WorkerPool.Act (Call ⊕ Q) W S} (h : poolStep u s act = some t)
    (c : Call) :
    t.job c = if s.pool.invoking act = some (.inl c) then .running else s.job c := by
  obtain ⟨-, pool, -, rfl⟩ := poolStep_eq h
  simp only [← started_eq_some_iff]
  cases started s act with
  | none => rfl
  | some call =>
    by_cases hc : call = c
    · subst hc
      simp
    · simp [hc, Function.update_of_ne (Ne.symm hc)]

variable [Fintype W]

theorem Calls.pool {act : WorkerPool.Act (Call ⊕ Q) W S} (hs : Calls s)
    (h : poolStep u s act = some t) : Calls t := by
  have hjob := poolStep_job h
  have hpub (c : Call) (hout : s.publishing ≠ some c) := poolStep_pub_of_ne h hout
  obtain ⟨-, pool, hpool, rfl⟩ := poolStep_eq h
  refine ⟨hs.traced.step hpool, fun c => ?_, fun c hout => ?_, fun c hblocking => ?_⟩
  · rw [hjob c, WorkerPool.step_log_count hpool (.inl c)]
    split_ifs with hc
    · simp
    · simpa using hs.invoked c
  · rw [hpub c hout]
    exact hs.ended c hout
  · refine WorkerPool.step_pub_not_rejecting hpool ?_ (hs.unrefused c hblocking)
    simp [Setup.pool, hblocking]

theorem Calls.step {a : Act Q W S} (hs : Calls s) (h : step u s a = some t) : Calls t := by
  cases a with
  | drive viaCtx => exact hs.drive h
  | worker n =>
    simp only [Pull.step] at h
    split_ifs at h
    have hf := (workerStep_move h).frame
    refine ⟨hf.pool ▸ hs.traced, ?_, ?_, ?_⟩
    · rw [hf.pool, hf.job]
      exact hs.invoked
    · rw [hf.pool, publishing_eq hf.round hf.pc]
      exact hs.ended
    · rw [hf.pool]
      exact hs.unrefused
  | job call =>
    have hf := jobStep_frame h
    have hjob := (jobStep_move h).unborn_iff
    refine ⟨hf.pool ▸ hs.traced, fun c => ?_, ?_, ?_⟩
    · rw [hf.pool, hjob c]
      exact hs.invoked c
    · rw [hf.pool, publishing_eq hf.round hf.pc]
      exact hs.ended
    · rw [hf.pool]
      exact hs.unrefused
  | pool act => exact hs.pool h
  | cancel err =>
    simp only [Pull.step, cancelStep] at h
    split_ifs at h
    cases h
    exact ⟨hs.traced, hs.invoked, hs.ended, hs.unrefused⟩

end NatsClient.Pull
