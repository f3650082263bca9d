import NatsClient.Pull.Calls

namespace NatsClient.Pull

open Lib.Counting

variable {Q W S : Type} {u : Setup Q} {s t : State Q W S} {c : Call}

-- Where processBatch is when it uses the worker pool.
def Pc.pooled : Pc → Prop
  | poolCheck _ | offer _ | backpressure _ | decide _ _ | publish _ | wait | finish
  | nak _ (.ret _) | returned _ => True
  | _ => False

-- What processBatch can do there.
inductive PoolMove (u : Setup Q) (s : State Q W S) : State Q W S → Prop
  | stopped {i e} (hpc : s.pc = .poolCheck i) :
      PoolMove u s ((s.record s.round (some e)).goto .wait)
  | offering {i} (hpc : s.pc = .poolCheck i) :
      PoolMove u s ((s.addWg s.round 1).goto (.offer i))
  | offeredAll {i} (hpc : s.pc = .poolCheck i) : PoolMove u s (s.goto .wait)
  | accepted {i blocking} (hpub : s.publishing = some ⟨s.round, i, blocking⟩)
      (hdone : s.pool.pub (.inl ⟨s.round, i, blocking⟩) = .done .accepted) :
      PoolMove u s (s.goto (.poolCheck (i + 1)))
  | refused {i blocking e} (hpub : s.publishing = some ⟨s.round, i, blocking⟩)
      (hdone : s.pool.pub (.inl ⟨s.round, i, blocking⟩) = .done (.failed e)) :
      PoolMove u s (((s.addWg s.round (-1)).record s.round (some e)).goto .wait)
  | rejected {i} (hpub : s.publishing = some ⟨s.round, i, false⟩)
      (hdone : s.pool.pub (.inl ⟨s.round, i, false⟩) = .done .rejected) :
      PoolMove u s ((s.addWg s.round (-1)).goto (.backpressure i))
  | looked {i} (hpc : s.pc = .backpressure i) :
      PoolMove u s (s.goto (.decide i s.pool.shared.depth))
  | retried {i depth d err} (hpc : s.pc = .decide i depth)
      (hd : handlePoolBackpressure u.consumer (u.wire s.round i) depth s.pool.shared.depth
        (s.delivery s.round i) = (d, err))
      (herr : err = none ∨ errorsIs err .errPoolFull = true) :
      PoolMove u s (((s.deliver s.round i d).addWg s.round 1).goto (.publish i))
  | skipped {i depth d} (hpc : s.pc = .decide i depth) :
      PoolMove u s ((s.deliver s.round i d).goto (.poolCheck (i + 1)))
  | turnedDown {i depth d err} (hpc : s.pc = .decide i depth) :
      PoolMove u s (((s.deliver s.round i d).record s.round err).goto .wait)
  | givenUp {e} (hpc : s.pc = .wait) :
      PoolMove u s ((s.record s.round (some e)).goto .finish)
  | waited (hpc : s.pc = .wait) : PoolMove u s (s.goto .finish)
  | failed {e} (hpc : s.pc = .finish) : PoolMove u s (s.goto (.nak 0 (.ret e)))
  | succeeded (hpc : s.pc = .finish) : PoolMove u s (s.goto (.returned none))
  | nakked {i e} (hpc : s.pc = .nak i (.ret e)) :
      PoolMove u s ((s.nak u i).goto (.nak (i + 1) (.ret e)))
  | nakkedAll {i e} (hpc : s.pc = .nak i (.ret e)) : PoolMove u s (s.goto (.returned (some e)))

theorem poolMove_of_offered {i : Nat} {result : WorkerPool.Result} (hpc : s.pc = .offer i)
    (hdone : s.pool.pub (.inl ⟨s.round, i, false⟩) = .done result) :
    PoolMove u s (published s i false result) := by
  have hpub : s.publishing = some ⟨s.round, i, false⟩ := by simp [State.publishing, hpc]
  cases result with
  | accepted => exact .accepted hpub hdone
  | rejected => exact .rejected hpub hdone
  | failed e => exact .refused hpub hdone

theorem poolMove_of_decided {i : Nat} {depth : Int} {result : Delivery × Option GoError}
    (hpc : s.pc = .decide i depth)
    (hr : result = handlePoolBackpressure u.consumer (u.wire s.round i) depth s.pool.shared.depth
      (s.delivery s.round i)) :
    PoolMove u s (decided (s.deliver s.round i result.1) i result.2) := by
  unfold decided
  split_ifs with hretry hhandled
  · exact .retried hpc hr.symm hretry
  · exact .skipped hpc
  · exact .turnedDown hpc

section

variable [DecidableEq Q] [Fintype W]

theorem poolMove_of_published (hs : Calls s) {i : Nat} {result : WorkerPool.Result}
    (hpc : s.pc = .publish i)
    (hdone : s.pool.pub (.inl ⟨s.round, i, true⟩) = .done result) :
    PoolMove u s (published s i true result) := by
  have hpub : s.publishing = some ⟨s.round, i, true⟩ := by simp [State.publishing, hpc]
  cases result with
  | accepted => exact .accepted hpub hdone
  | rejected => exact absurd hdone (hs.not_rejected rfl)
  | failed e => exact .refused hpub hdone

theorem DriveMove.poolMove (h : DriveMove u s s.pc t) (hs : Calls s) (hpooled : s.pc.pooled) :
    PoolMove u s t := by
  generalize hpc : s.pc = pc at h hpooled
  cases h with
  | poolStopped hc => exact .stopped hpc
  | offering hc => exact .offering hpc
  | offeredAll => exact .offeredAll hpc
  | offered hp => exact poolMove_of_offered hpc hp
  | looked => exact .looked hpc
  | decided hr => exact poolMove_of_decided hpc hr
  | published hp => exact poolMove_of_published hs hpc hp
  | givenUp hc => exact .givenUp hpc
  | waited hw => exact .waited hpc
  | failed he => exact .failed hpc
  | succeeded he => exact .succeeded hpc
  | @nakked i after hi =>
    cases after with
    | ret e => exact .nakked hpc
    | close => exact hpooled.elim
  | @nakkedAll i after =>
    cases after with
    | ret e => exact .nakkedAll hpc
    | close => exact hpooled.elim
  | _ => exact hpooled.elim

end

-- The calls that processBatch has not come to.
def Pc.ahead : Pc → Call → Prop
  | poolCheck i, c => i ≤ c.index
  | offer i, c | backpressure i, c | decide i _, c =>
    i < c.index ∨ c.index = i ∧ c.blocking = true
  | publish i, c => i < c.index
  | _, _ => False

def Ahead (s : State Q W S) (c : Call) : Prop := c.round ≠ s.round ∨ s.pc.ahead c

-- The message whose first call was rejected.
def Pc.retrying : Pc → Option Nat
  | backpressure i | decide i _ | publish i => some i
  | _ => none

-- The calls that the wait group counts: the one that processBatch is in and those that the
-- pool accepted, as long as the function has not returned.
def Pending (s : State Q W S) (c : Call) : Prop :=
  (s.publishing = some c ∨ Accepted s c) ∧ s.job c ≠ .finished

structure Queue (s : State Q W S) : Prop where
  pooled : s.pc.pooled
  jobs : s.jobs = []
  closed : s.closed = false
  workers : ∀ n, s.worker n = .recv
  ahead : ∀ c, Ahead s c → s.pool.pub (.inl c) = .idle
  retrying : ∀ i, s.pc.retrying = some i →
    s.pool.pub (.inl ⟨s.round, i, false⟩) = .done .rejected
  second : ∀ i, s.pool.pub (.inl ⟨s.round, i, true⟩) ≠ .idle →
    s.pool.pub (.inl ⟨s.round, i, false⟩) = .done .rejected
  wg : Counts (s.wg s.round) (Pending s)

theorem publishing_eq_some_iff {i : Nat} {blocking : Bool} :
    s.publishing = some ⟨s.round, i, blocking⟩ ↔
      s.pc = if blocking then .publish i else .offer i := by
  unfold State.publishing
  cases blocking <;> split <;> simp_all

theorem Ahead.not_publishing (h : Ahead s c) : s.publishing ≠ some c := by
  unfold State.publishing
  intro hpub
  obtain hround | hahead := h
  · split at hpub <;> cases hpub <;> exact hround rfl
  · split at hpub <;> cases hpub <;> rename_i hpc <;> rw [hpc] at hahead
    · exact hahead.elim (Nat.lt_irrefl _) fun h => absurd h.2 (by simp)
    · exact Nat.lt_irrefl _ hahead

theorem not_accepted_of_idle (h : s.pool.pub (.inl c) = .idle) : ¬ Accepted s c := by
  rw [Accepted, h]
  exact Bool.false_ne_true

theorem Queue.round_eq (hs : Queue s) (hacc : Accepted s c) : c.round = s.round := by
  by_contra hne
  exact not_accepted_of_idle (hs.ahead c (.inl hne)) hacc

-- A message is accepted once.
theorem Queue.accepted_once (hs : Queue s) {i : Nat} {b b' : Bool}
    (hacc : Accepted s ⟨s.round, i, b⟩) (hacc' : Accepted s ⟨s.round, i, b'⟩) : b = b' := by
  have hnot (hacc : Accepted s ⟨s.round, i, true⟩) : ¬ Accepted s ⟨s.round, i, false⟩ := by
    have hrejected := hs.second i fun hidle => not_accepted_of_idle hidle hacc
    rw [Accepted, hrejected]
    exact Bool.false_ne_true
  cases b <;> cases b'
  · rfl
  · exact absurd hacc (hnot hacc')
  · exact absurd hacc' (hnot hacc)
  · rfl

section Drive

-- What processBatch comes to later it has not come to now.
theorem PoolMove.ahead_of (h : PoolMove u s t) (hround : t.round = s.round) (hahead : Ahead t c) :
    Ahead s c := by
  refine hahead.imp (fun hne => hround ▸ hne) fun hnext => ?_
  cases h with
  | offering hpc =>
    rw [hpc]
    exact hnext.elim Nat.le_of_lt fun h => h.1.ge
  | @accepted i blocking hpub hdone =>
    rw [publishing_eq_some_iff] at hpub
    cases blocking <;> rw [hpub]
    · exact .inl hnext
    · exact hnext
  | rejected hpub hdone =>
    rw [publishing_eq_some_iff] at hpub
    rw [hpub]
    exact hnext
  | looked hpc =>
    rw [hpc]
    exact hnext
  | retried hpc hd herr =>
    rw [hpc]
    exact .inl hnext
  | skipped hpc =>
    rw [hpc]
    exact .inl hnext
  | _ => exact hnext.elim

theorem PoolMove.retrying_of (h : PoolMove u s t) {i : Nat} (hnext : t.pc.retrying = some i) :
    s.pc.retrying = some i ∨ s.pool.pub (.inl ⟨s.round, i, false⟩) = .done .rejected := by
  cases h with
  | rejected hpub hdone =>
    cases hnext
    exact .inr hdone
  | looked hpc =>
    cases hnext
    exact .inl (by rw [hpc]; rfl)
  | retried hpc hd herr =>
    cases hnext
    exact .inl (by rw [hpc]; rfl)
  | _ => cases hnext

theorem PoolMove.pooled (h : PoolMove u s t) : t.pc.pooled := by
  cases h <;> trivial

theorem PoolMove.idle (h : PoolMove u s t) : t.jobs = s.jobs ∧ t.closed = s.closed := by
  cases h <;> exact ⟨rfl, rfl⟩

-- What processBatch does to its calls and to the wait group.
inductive CallMove (s t : State Q W S) : Prop
  | none (hpub : s.publishing = none) (hnext : t.publishing = none)
      (hwg : t.wg s.round = s.wg s.round)
  | begun {c : Call} (hpub : s.publishing = none) (hahead : Ahead s c)
      (hnext : t.publishing = some c) (hwg : t.wg s.round = s.wg s.round + 1)
  | accepted {c : Call} (hpub : s.publishing = some c) (hacc : Accepted s c)
      (hnext : t.publishing = none) (hwg : t.wg s.round = s.wg s.round)
  | dropped {c : Call} (hpub : s.publishing = some c) (hacc : ¬ Accepted s c)
      (hnext : t.publishing = none) (hwg : t.wg s.round = s.wg s.round - 1)

theorem PoolMove.callMove (h : PoolMove u s t) : CallMove s t := by
  cases h with
  | @offering i hpc =>
    refine .begun (c := ⟨s.round, i, false⟩) ?_ (.inr ?_) rfl (Function.update_self _ _ _)
    · simp [State.publishing, hpc]
    · rw [hpc]
      exact Nat.le_refl i
  | @retried i depth d err hpc hd herr =>
    refine .begun (c := ⟨s.round, i, true⟩) ?_ (.inr ?_) rfl (Function.update_self _ _ _)
    · simp [State.publishing, hpc]
    · rw [hpc]
      exact .inr ⟨rfl, rfl⟩
  | accepted hpub hdone =>
    refine .accepted hpub ?_ rfl rfl
    rw [Accepted, hdone]
    rfl
  | refused hpub hdone =>
    refine .dropped hpub ?_ rfl (Function.update_self _ _ _)
    rw [Accepted, hdone]
    exact Bool.false_ne_true
  | rejected hpub hdone =>
    refine .dropped hpub ?_ rfl (Function.update_self _ _ _)
    rw [Accepted, hdone]
    exact Bool.false_ne_true
  | stopped hpc => exact .none (by simp [State.publishing, hpc]) rfl rfl
  | offeredAll hpc => exact .none (by simp [State.publishing, hpc]) rfl rfl
  | looked hpc => exact .none (by simp [State.publishing, hpc]) rfl rfl
  | skipped hpc => exact .none (by simp [State.publishing, hpc]) rfl rfl
  | turnedDown hpc => exact .none (by simp [State.publishing, hpc]) rfl rfl
  | givenUp hpc => exact .none (by simp [State.publishing, hpc]) rfl rfl
  | waited hpc => exact .none (by simp [State.publishing, hpc]) rfl rfl
  | failed hpc => exact .none (by simp [State.publishing, hpc]) rfl rfl
  | succeeded hpc => exact .none (by simp [State.publishing, hpc]) rfl rfl
  | nakked hpc => exact .none (by simp [State.publishing, hpc]) rfl rfl
  | nakkedAll hpc => exact .none (by simp [State.publishing, hpc]) rfl rfl

variable [DecidableEq Q] [Fintype W]

theorem Queue.wg_drive (hs : Queue s) (hc : Calls s) (h : CallMove s t) (hf : DriveFrame s t) :
    Counts (t.wg t.round) (Pending t) := by
  have hacc (b : Call) : Accepted t b ↔ Accepted s b := by
    unfold Accepted
    rw [hf.pool]
  have hwg := hs.wg
  rw [hf.round]
  cases h with
  | none hpub hnext hsame =>
    rw [hsame]
    refine hwg.congr fun b => ?_
    simp only [Pending, hpub, hnext, hacc, hf.job]
  | @begun c hpub hahead hnext hmore =>
    have hidle : ¬ Accepted s c := not_accepted_of_idle (hs.ahead c hahead)
    have hunborn := hc.unborn_of_not_accepted hidle
    rw [hmore]
    refine hwg.add (a := c) (fun hp => ?_) fun b => ?_
    · simp [Pending, hpub, hidle] at hp
    · simp only [Pending, hpub, hnext, hacc, hf.job, Option.some.injEq, reduceCtorEq, false_or]
      constructor
      · rintro ⟨rfl | hb, hjob⟩
        · exact .inr rfl
        · exact .inl ⟨hb, hjob⟩
      · rintro (⟨hb, hjob⟩ | rfl)
        · exact ⟨.inr hb, hjob⟩
        · exact ⟨.inl rfl, by rw [hunborn]; exact nofun⟩
  | @accepted c hpub hin hnext hsame =>
    rw [hsame]
    refine hwg.congr fun b => and_congr ?_ (by rw [hf.job])
    rw [hnext, hpub, hacc, Option.some.injEq]
    constructor
    · exact fun h => .inr (h.resolve_left nofun)
    · rintro (rfl | hb)
      · exact .inr hin
      · exact .inr hb
  | @dropped c hpub hout hnext hless =>
    have hunborn := hc.unborn_of_not_accepted hout
    rw [hless]
    refine hwg.remove (a := c) ⟨.inl hpub, by rw [hunborn]; exact nofun⟩ fun b => ?_
    simp only [Pending, hpub, hnext, hacc, hf.job, Option.some.injEq, reduceCtorEq, false_or]
    constructor
    · rintro ⟨hb, hjob⟩
      exact ⟨⟨.inr hb, hjob⟩, fun he => hout (he ▸ hb)⟩
    · rintro ⟨⟨he | hb, hjob⟩, hne⟩
      · exact absurd he.symm hne
      · exact ⟨hb, hjob⟩

theorem Queue.drive {viaCtx : Bool} (hs : Queue s) (hc : Calls s)
    (h : driveStep u s viaCtx = some t) : Queue t := by
  have hdrive := driveStep_move h
  have hf := hdrive.frame
  have hmove := hdrive.poolMove hc hs.pooled
  refine ⟨hmove.pooled, hmove.idle.1.trans hs.jobs, hmove.idle.2.trans hs.closed, ?_, ?_, ?_, ?_,
    hs.wg_drive hc hmove.callMove hf⟩
  · rw [hf.worker]
    exact hs.workers
  · rw [hf.pool]
    exact fun c hahead => hs.ahead c (hmove.ahead_of hf.round hahead)
  · rw [hf.pool, hf.round]
    exact fun i hi => (hmove.retrying_of hi).elim (hs.retrying i) id
  · rw [hf.pool, hf.round]
    exact hs.second

end Drive

theorem Queue.not_worker (hs : Queue s) (n : Nat) : workerStep u s n = none := by
  simp [workerStep, hs.workers n, hs.jobs, hs.closed]

variable [DecidableEq Q] [Fintype W]

theorem Queue.job (hs : Queue s) (hc : Calls s) (h : JobMove u s c t) : Queue t := by
  have hacc := hc.accepted_of_job h.job_self.1
  have hround := hs.round_eq hacc
  cases h with
  | processed hjob hd =>
    refine ⟨hs.pooled, hs.jobs, hs.closed, hs.workers, hs.ahead, hs.retrying, hs.second, ?_⟩
    refine hs.wg.congr fun b => and_congr Iff.rfl ?_
    by_cases hb : b = c
    · subst hb
      simp [hjob]
    · simp [Function.update_of_ne hb]
  | finished hjob =>
    refine ⟨hs.pooled, hs.jobs, hs.closed, hs.workers, hs.ahead, hs.retrying, hs.second, ?_⟩
    change Counts (((s.record c.round _).addWg c.round (-1)).wg s.round) _
    rw [hround]
    simp only [State.addWg, State.record, Function.update_self]
    refine hs.wg.remove (a := c) ⟨.inr hacc, by rw [hjob]; exact nofun⟩ fun b => ?_
    by_cases hb : b = c
    · subst hb
      simp [Pending]
    · rw [and_iff_left hb]
      refine and_congr Iff.rfl ?_
      simp [Function.update_of_ne hb]

variable [DecidableEq W] [DecidableEq S]

theorem Queue.wg_pool {act : WorkerPool.Act (Call ⊕ Q) W S} (hs : Queue s) (hc : Calls s)
    (h : poolStep u s act = some t) : Counts (t.wg t.round) (Pending t) := by
  have hjob := poolStep_job h
  have hacc (c : Call) (hout : s.publishing ≠ some c) := poolStep_accepted_iff h hout
  obtain ⟨-, pool, -, rfl⟩ := poolStep_eq h
  refine hs.wg.congr fun c => and_congr ?_ ?_
  · by_cases hpub : s.publishing = some c
    · exact iff_of_true (.inl hpub) (.inl hpub)
    · exact or_congr Iff.rfl (hacc c hpub)
  · rw [hjob c]
    split_ifs with hinvoking
    · simp [hc.unborn_of_invoking hinvoking]
    · exact Iff.rfl

theorem Queue.pool {act : WorkerPool.Act (Call ⊕ Q) W S} (hs : Queue s) (hc : Calls s)
    (h : poolStep u s act = some t) : Queue t := by
  have hwg := hs.wg_pool hc h
  have hsame (c : Call) (hout : s.publishing ≠ some c) := poolStep_pub_of_ne h hout
  have hkept (c : Call) (hdone : s.pool.pub (.inl c) = .done .rejected) := poolStep_pub_done h hdone
  obtain ⟨-, pool, -, rfl⟩ := poolStep_eq h
  refine ⟨hs.pooled, hs.jobs, hs.closed, hs.workers, fun c hahead => ?_, fun i hi => ?_,
    fun i hbusy => ?_, hwg⟩
  · have hbefore : Ahead s c := hahead
    rw [hsame c hbefore.not_publishing]
    exact hs.ahead c hbefore
  · exact hkept _ (hs.retrying i hi)
  · refine hkept ⟨s.round, i, false⟩ ?_
    by_cases hpub : s.publishing = some ⟨s.round, i, true⟩
    · rw [publishing_eq_some_iff] at hpub
      exact hs.retrying i (by rw [hpub]; rfl)
    · rw [hsame _ hpub] at hbusy
      exact hs.second i hbusy

theorem Queue.step {a : Act Q W S} (hs : Queue s) (hc : Calls s) (h : step u s a = some t) :
    Queue t := by
  cases a with
  | drive viaCtx => exact hs.drive hc h
  | worker n => simp [Pull.step, hs.not_worker] at h
  | job call => exact hs.job hc (jobStep_move h)
  | pool act => exact hs.pool hc h
  | cancel err =>
    simp only [Pull.step, cancelStep] at h
    split_ifs at h
    cases h
    exact ⟨hs.pooled, hs.jobs, hs.closed, hs.workers, hs.ahead, hs.retrying, hs.second, hs.wg⟩

end NatsClient.Pull
