import NatsClient.Pull.Theorems
import NatsClient.Pull.Waiting

namespace NatsClient.Pull

open Lib.Machine

section Acked

variable {Q : Type} {u : Setup Q} {k i : Nat} {d d' : Delivery}

-- The Ack has gone out, and no other settlement has.
def Acked (d : Delivery) : Prop :=
  ∃ before after, d.log = before ++ .settle .ack none :: after ∧
    (∀ e ∈ before, e.sent? = none) ∧ ∀ e ∈ after, e.sent? = none

theorem Acked.settle (h : Acked d) (wire : Wire) (kind : AckKind) :
    Acked (d.settle wire kind).1 := by
  obtain ⟨before, after, hlog, hbefore, hafter⟩ := h
  refine ⟨before, after ++ [.settle kind (d.ackError wire)], ?_, hbefore, fun e he => ?_⟩
  · rw [Delivery.settle_fst_log, hlog]
    simp
  · obtain he | he := List.mem_append.mp he
    · exact hafter e he
    · have hsent : d.settlement ≠ none := by
        intro hnone
        have hack := Delivery.settlement_eq_none_iff.mp hnone (.settle .ack none) (by simp [hlog])
        cases hack
      obtain ⟨cause, hcause⟩ := Delivery.ackError_of_settlement wire hsent
      rw [List.mem_singleton.mp he, hcause]
      rfl

theorem Acked.congr (h : Acked d) (hlog : d'.log = d.log) : Acked d' := by
  unfold Acked
  rwa [hlog]

theorem Acked.touched (h : Acked d) (ht : Touched u k i d d') : Acked d' := by
  cases ht with
  | same => exact h
  | settled kind => exact h.settle _ kind
  | processed =>
    obtain ⟨opened, -, -, hsame | ⟨kind, hsettled⟩⟩ := u.processMessage_fst k i d
    · rw [hsame]
      exact h.congr rfl
    · rw [hsettled]
      exact Acked.settle (d := ⟨opened, d.log⟩) (h.congr rfl) _ kind

-- The handler is called for the message and returns nil.
def Setup.succeeds (u : Setup Q) (k i : Nat) : Prop :=
  u.outcome k i = .returned none ∧ ∃ opened, (if u.consumer.cfg.payloadDecompression then
    maybeDecompressMsg u.comp (u.msg k i) else .ok (u.msg k i)) = .ok opened

-- The message can be settled: it has its subscription, which no message of pullConsumerV2 has,
-- and a reply subject, and the network takes what is sent there.
structure Setup.Settleable (u : Setup Q) (k i : Nat) : Prop where
  bound : (u.msg k i).bound = true
  reply : (u.msg k i).reply ≠ ""
  taken : ∀ n, (u.wire k i).ackResult n = none

theorem Setup.Settleable.ackError (h : u.Settleable k i) (hbound : d.msg.bound = (u.msg k i).bound)
    (hreply : d.msg.reply = (u.msg k i).reply) (hunsent : d.settlement = none) :
    d.ackError (u.wire k i) = none := by
  have hackd : d.ackd = false := by rw [Delivery.ackd, hunsent]; rfl
  simp [Delivery.ackError, hbound, hreply, hackd, h.bound, h.reply, h.taken]

theorem acked_processMessage (hmsg : d.msg = u.msg k i) (hunsent : d.settlement = none)
    (hok : u.succeeds k i) (hset : u.Settleable k i) : Acked (u.processMessage k i d).1 := by
  obtain ⟨houtcome, opened, hopened⟩ := hok
  have haddress : opened.bound = (u.msg k i).bound ∧ opened.reply = (u.msg k i).reply := by
    split_ifs at hopened
    · exact maybeDecompressMsg_address hopened
    · cases hopened
      exact ⟨rfl, rfl⟩
  have hack : Delivery.ackError (u.wire k i) ⟨opened, d.log⟩ = none :=
    hset.ackError haddress.1 haddress.2 hunsent
  refine ⟨d.log, [], ?_, Delivery.settlement_eq_none_iff.mp hunsent, nofun⟩
  simp [Setup.processMessage, processMessage, hmsg, hopened, invokeMsgHandler, Setup.handler,
    houtcome, Outcome.err, settleOutcome_none_fst, hack]

end Acked

variable {Q W S : Type} {u : Setup Q} {s t : State Q W S} {c : Call} {i : Nat}

-- processBatch no longer waits for the messages.
def Pc.past : Pc → Bool
  | finish | nak _ _ | returned _ => true
  | _ => false

-- The message that processBatch is at on its way through the batch.
def Pc.next? : Pc → Option Nat
  | poolCheck i | offer i | backpressure i | decide i _ | publish i => some i
  | _ => none

-- The message has not been processed, and the pool has it or may still get it.
structure Open (s : State Q W S) (i : Nat) : Prop where
  unprocessed : ∀ blocking, (s.job ⟨s.round, i, blocking⟩).processed = false
  coming : (∃ n, s.pc.next? = some n ∧ n ≤ i) ∨ ∃ blocking, Accepted s ⟨s.round, i, blocking⟩

structure Careful (u : Setup Q) (s : State Q W S) : Prop where
  past : s.pc.past = true → ∀ c, Accepted s c → (s.job c).processed = true
  unharmed : ∀ i, Open s i → (s.delivery s.round i).settlement = none ∧
    (s.delivery s.round i).msg = u.msg s.round i
  acked : ∀ c, (s.job c).processed = true → u.succeeds c.round c.index →
    u.Settleable c.round c.index → Acked (s.delivery c.round c.index)

section Drive

theorem PoolMove.next_of (h : PoolMove u s t) {n : Nat} (hnext : t.pc.next? = some n) :
    ∃ m, s.pc.next? = some m ∧ m ≤ n := by
  cases h with
  | offering hpc =>
    cases hnext
    exact ⟨n, by rw [hpc]; rfl, Nat.le_refl n⟩
  | @accepted i blocking hpub hdone =>
    cases hnext
    rw [publishing_eq_some_iff] at hpub
    exact ⟨i, by cases blocking <;> rw [hpub] <;> rfl, Nat.le_succ i⟩
  | rejected hpub hdone =>
    cases hnext
    rw [publishing_eq_some_iff] at hpub
    exact ⟨n, by rw [hpub]; rfl, Nat.le_refl n⟩
  | looked hpc =>
    cases hnext
    exact ⟨n, by rw [hpc]; rfl, Nat.le_refl n⟩
  | retried hpc hd herr =>
    cases hnext
    exact ⟨n, by rw [hpc]; rfl, Nat.le_refl n⟩
  | @skipped i depth d hpc =>
    cases hnext
    exact ⟨i, by rw [hpc]; rfl, Nat.le_succ i⟩
  | _ => cases hnext

theorem PoolMove.past_of (h : PoolMove u s t) (hpast : t.pc.past = true) :
    s.pc = .wait ∨ s.pc.past = true := by
  cases h with
  | givenUp hpc => exact .inl hpc
  | waited hpc => exact .inl hpc
  | failed hpc => exact .inr (by rw [hpc]; rfl)
  | succeeded hpc => exact .inr (by rw [hpc]; rfl)
  | nakked hpc => exact .inr (by rw [hpc]; rfl)
  | nakkedAll hpc => exact .inr (by rw [hpc]; rfl)
  | _ => cases hpast

theorem Open.of_drive (hopen : Open t i) (h : PoolMove u s t) (hf : DriveFrame s t) : Open s i := by
  obtain ⟨hunprocessed, hcoming⟩ := hopen
  rw [hf.job, hf.round] at hunprocessed
  refine ⟨hunprocessed, ?_⟩
  obtain ⟨n, hnext, hle⟩ | ⟨blocking, hacc⟩ := hcoming
  · obtain ⟨m, hm, hmn⟩ := h.next_of hnext
    exact .inl ⟨m, hm, hmn.trans hle⟩
  · rw [hf.round, Accepted, hf.pool] at hacc
    exact .inr ⟨blocking, hacc⟩

-- While processBatch decides about a message the pool does not have it.
theorem Queue.not_accepted_of_decide (hs : Queue s) {depth : Int} (hpc : s.pc = .decide i depth)
    (blocking : Bool) : ¬ Accepted s ⟨s.round, i, blocking⟩ := by
  cases blocking with
  | false =>
    have hrejected := hs.retrying i (by rw [hpc]; rfl)
    rw [Accepted, hrejected]
    exact Bool.false_ne_true
  | true =>
    refine not_accepted_of_idle (hs.ahead _ (.inr ?_))
    rw [hpc]
    exact .inr ⟨rfl, rfl⟩

-- A message that is still open after a step is either the one that processBatch has come to, or
-- the pool has it.
theorem Open.accepted_of_drive (hopen : Open t i) (hf : DriveFrame s t)
    (hnext : ∀ n, t.pc.next? = some n → i < n) : ∃ blocking, Accepted s ⟨s.round, i, blocking⟩ := by
  obtain ⟨n, hn, hle⟩ | ⟨blocking, hacc⟩ := hopen.coming
  · exact absurd hle (Nat.not_le.mpr (hnext n hn))
  · rw [hf.round, Accepted, hf.pool] at hacc
    exact ⟨blocking, hacc⟩

theorem Careful.unharmed_drive (hs : Careful u s) (hq : Queue s) (h : PoolMove u s t)
    (hf : DriveFrame s t) (hopen : Open t i) :
    (t.delivery s.round i).settlement = none ∧ (t.delivery s.round i).msg = u.msg s.round i := by
  have hbefore := hopen.of_drive h hf
  have hunharmed := hs.unharmed i hbefore
  have hgone := hopen.accepted_of_drive hf
  cases h with
  | @retried j depth d err hpc hd herr =>
    by_cases hij : i = j
    · subst hij
      have hkept := handlePoolBackpressure_unharmed hd herr hunharmed.1
      rw [← hunharmed.2, ← hkept.2]
      simpa [State.goto, State.addWg, deliver_self] using hkept.1
    · simpa [State.goto, State.addWg, deliver_of_ne s _ _ hij] using hunharmed
  | @skipped j depth d hpc =>
    by_cases hij : i = j
    · subst hij
      obtain ⟨blocking, hacc⟩ := hgone fun n hn => by cases hn; exact Nat.lt_succ_self i
      exact absurd hacc (hq.not_accepted_of_decide hpc blocking)
    · simpa [State.goto, deliver_of_ne s _ _ hij] using hunharmed
  | @turnedDown j depth d err hpc =>
    by_cases hij : i = j
    · subst hij
      obtain ⟨blocking, hacc⟩ := hgone (fun _ hnext => by cases hnext)
      exact absurd hacc (hq.not_accepted_of_decide hpc blocking)
    · simpa [State.goto, State.record, deliver_of_ne s _ _ hij] using hunharmed
  | @nakked j e hpc =>
    obtain ⟨blocking, hacc⟩ := hgone (fun _ hnext => by cases hnext)
    have hprocessed := hs.past (by rw [hpc]; rfl) _ hacc
    rw [hbefore.unprocessed blocking] at hprocessed
    cases hprocessed
  | _ => exact hunharmed

-- processBatch leaves its wait for the context only when every accepted message has been
-- processed.
def Settling (s : State Q W S) : Act Q W S → Prop
  | .drive true => s.pc = .wait → ∀ c, Accepted s c → (s.job c).processed = true
  | _ => True

-- The wait group has counted every accepted message.
theorem Queue.processed_of_waited (hs : Queue s) (hpc : s.pc = .wait)
    (h : driveStep u s false = some t) (hacc : Accepted s c) : (s.job c).processed = true := by
  have hzero : s.wg s.round = 0 := by
    by_contra hne
    simp [driveStep, hpc, hne] at h
  have hwg := hs.wg
  rw [hzero] at hwg
  have hfinished : s.job c = .finished := by
    by_contra hjob
    exact hwg.eq_zero c ⟨.inr hacc, hjob⟩
  rw [hfinished]
  rfl

variable [DecidableEq Q] [Fintype W]

theorem Careful.drive {viaCtx : Bool} (hs : Careful u s) (hc : Calls s) (hq : Queue s)
    (ha : Settling s (.drive viaCtx)) (h : driveStep u s viaCtx = some t) : Careful u t := by
  have hdrive := driveStep_move h
  have hf := hdrive.frame
  have hmove := hdrive.poolMove hc hq.pooled
  refine ⟨fun hpast c hacc => ?_, fun i hopen => ?_, fun c hjob hok hset => ?_⟩
  · rw [Accepted, hf.pool] at hacc
    rw [hf.job]
    obtain hpc | hpast := hmove.past_of hpast
    · cases viaCtx with
      | false => exact hq.processed_of_waited hpc h hacc
      | true => exact ha hpc c hacc
    · exact hs.past hpast c hacc
  · rw [hf.round]
    exact hs.unharmed_drive hq hmove hf hopen
  · rw [hf.job] at hjob
    exact (hs.acked c hjob hok hset).touched (hdrive.touched _ _)

end Drive

theorem JobMove.processed_of (h : JobMove u s c t) {other : Call}
    (hother : (s.job other).processed = true) : (t.job other).processed = true := by
  by_cases he : other = c
  · rw [he]
    exact h.job_self.2
  · rwa [h.job_of_ne he]

theorem JobMove.of_processed (h : JobMove u s c t) {other : Call} (he : other ≠ c)
    (hother : (t.job other).processed = true) : (s.job other).processed = true := by
  rwa [h.job_of_ne he] at hother

theorem JobMove.delivery_of_ne (h : JobMove u s c t) {k : Nat} (hne : k = c.round → i ≠ c.index) :
    t.delivery k i = s.delivery k i := by
  cases h with
  | processed hjob hd =>
    by_cases hk : k = c.round
    · subst hk
      exact deliver_of_ne s _ _ (hne rfl)
    · simp [State.deliver, hk]
  | finished hjob => rfl

variable [DecidableEq Q] [Fintype W]

-- The message of a function that runs is open: nobody else has the message.
theorem Queue.open_of_running (hq : Queue s) (hc : Calls s) (hjob : s.job c = .running) :
    Open s c.index := by
  have hacc : Accepted s c := hc.accepted_of_job (by rw [hjob]; exact nofun)
  have hround := hq.round_eq hacc
  have heq : c = ⟨s.round, c.index, c.blocking⟩ := by rw [← hround]
  rw [heq] at hacc hjob
  refine ⟨fun blocking => ?_, .inr ⟨c.blocking, hacc⟩⟩
  by_contra hprocessed
  have hother : Accepted s ⟨s.round, c.index, blocking⟩ := by
    refine hc.accepted_of_job fun hunborn => ?_
    rw [hunborn] at hprocessed
    exact hprocessed rfl
  rw [hq.accepted_once hother hacc, hjob] at hprocessed
  exact hprocessed rfl

theorem Careful.acked_job (hs : Careful u s) (hc : Calls s) (hq : Queue s) (h : JobMove u s c t)
    (hok : u.succeeds c.round c.index) (hset : u.Settleable c.round c.index) :
    Acked (t.delivery c.round c.index) := by
  have hround := hq.round_eq (hc.accepted_of_job h.job_self.1)
  cases h with
  | @processed d err hjob hd =>
    have hunharmed := hs.unharmed c.index (hq.open_of_running hc hjob)
    rw [← hround] at hunharmed
    have hacked := acked_processMessage hunharmed.2 hunharmed.1 hok hset
    rw [hd] at hacked
    simpa [deliver_self] using hacked
  | finished hjob => exact hs.acked c (by rw [hjob]; rfl) hok hset

theorem Careful.job (hs : Careful u s) (hc : Calls s) (hq : Queue s) (h : jobStep u s c = some t) :
    Careful u t := by
  have hf := jobStep_frame h
  have hmove := jobStep_move h
  have hround := hq.round_eq (hc.accepted_of_job hmove.job_self.1)
  refine ⟨fun hpast other hacc => ?_, fun i hopen => ?_, fun other hjob hok hset => ?_⟩
  · rw [Accepted, hf.pool] at hacc
    rw [hf.pc] at hpast
    exact hmove.processed_of (hs.past hpast other hacc)
  · obtain ⟨hunprocessed, hcoming⟩ := hopen
    rw [hf.round] at hunprocessed
    have hne : i ≠ c.index := by
      rintro rfl
      have hself := hunprocessed c.blocking
      rw [← hround, hmove.job_self.2] at hself
      cases hself
    rw [hf.round, hmove.delivery_of_ne fun _ => hne]
    refine hs.unharmed i ⟨fun blocking => ?_, ?_⟩
    · by_contra hprocessed
      have hafter := hmove.processed_of (Bool.eq_true_of_not_eq_false hprocessed)
      rw [hunprocessed blocking] at hafter
      cases hafter
    · unfold Accepted at hcoming ⊢
      rwa [hf.pc, hf.round, hf.pool] at hcoming
  · by_cases he : other = c
    · subst he
      exact hs.acked_job hc hq hmove hok hset
    · have hacked := hs.acked other (hmove.of_processed he hjob) hok hset
      exact hacked.touched (jobStep_touched h _ _)

variable [DecidableEq W] [DecidableEq S]

theorem poolStep_processed_iff {act : WorkerPool.Act (Call ⊕ Q) W S} (hc : Calls s)
    (h : poolStep u s act = some t) (c : Call) : (t.job c).processed = (s.job c).processed := by
  rw [poolStep_job h c]
  split_ifs with hinvoking
  · rw [hc.unborn_of_invoking hinvoking]
    rfl
  · rfl

theorem Careful.pool {act : WorkerPool.Act (Call ⊕ Q) W S} (hs : Careful u s) (hc : Calls s)
    (h : poolStep u s act = some t) : Careful u t := by
  have hprocessed := poolStep_processed_iff hc h
  have hacc (c : Call) (hout : s.publishing ≠ some c) := poolStep_accepted_iff h hout
  obtain ⟨-, pool, -, rfl⟩ := poolStep_eq h
  refine ⟨fun hpast c hin => ?_, fun i hopen => ?_, fun c hjob hok hset => ?_⟩
  · rw [hprocessed c]
    refine hs.past hpast c ((hacc c fun hpub => ?_).mp hin)
    unfold State.publishing at hpub
    split at hpub <;> rename_i hpc
    · rw [show s.pc = _ from hpc] at hpast
      cases hpast
    · rw [show s.pc = _ from hpc] at hpast
      cases hpast
    · cases hpub
  · refine hs.unharmed i ⟨fun blocking => ?_, ?_⟩
    · rw [← hprocessed]
      exact hopen.unprocessed blocking
    · obtain hnext | ⟨blocking, hin⟩ := hopen.coming
      · exact .inl hnext
      · by_cases hpub : s.publishing = some ⟨s.round, i, blocking⟩
        · rw [publishing_eq_some_iff] at hpub
          exact .inl ⟨i, by cases blocking <;> rw [hpub] <;> rfl, Nat.le_refl i⟩
        · exact .inr ⟨blocking, (hacc _ hpub).mp hin⟩
  · rw [hprocessed c] at hjob
    exact hs.acked c hjob hok hset

theorem Careful.step {a : Act Q W S} (hs : Careful u s) (hc : Calls s) (hq : Queue s)
    (ha : Settling s a) (h : step u s a = some t) : Careful u t := by
  cases a with
  | drive viaCtx => exact hs.drive hc hq ha h
  | worker n => simp [Pull.step, hq.not_worker] at h
  | job call => exact hs.job hc hq h
  | pool act => exact hs.pool hc h
  | cancel err =>
    simp only [Pull.step, cancelStep] at h
    split_ifs at h
    cases h
    exact ⟨hs.past, fun i hopen => hs.unharmed i ⟨hopen.unprocessed, hopen.coming⟩, hs.acked⟩

section Start

variable {Q S : Type} {u : Setup Q}

-- A batch that has just begun.
def start (u : Setup Q) : State Q (Fin (WorkerPool.poolLen u.consumer.cfg.poolSize)) S :=
  (idle u).begin u 0

theorem startPc_of_pool (hpool : u.consumer.cfg.workerPoolEnabled = true) (k : Nat) :
    u.startPc k = .returned none ∨ u.startPc k = .poolCheck 0 := by
  unfold Setup.startPc
  split_ifs
  · exact .inl rfl
  · exact .inr rfl

theorem start_publishing (hpool : u.consumer.cfg.workerPoolEnabled = true) :
    (start u : State Q _ S).publishing = none := by
  have hpc : (start u : State Q _ S).pc = u.startPc 0 := rfl
  unfold State.publishing
  obtain h | h := startPc_of_pool hpool 0 <;> rw [hpc, h]

theorem start_not_accepted (c : Call) : ¬ Accepted (start u : State Q _ S) c :=
  not_accepted_of_idle rfl

theorem calls_start [DecidableEq Q] : Calls (start u : State Q _ S) := by
  refine ⟨fun q => ?_, fun c => ?_, fun c _ => .inl rfl, fun c _ => rfl⟩
  · simp [start, idle, State.begin, WorkerPool.initial, WorkerPool.PubPc.accepted,
      WorkerPool.WorkPc.token?, WorkerPool.carries]
  · simp [start, idle, State.begin, WorkerPool.initial]

theorem queue_start (hpool : u.consumer.cfg.workerPoolEnabled = true) :
    Queue (start u : State Q _ S) := by
  have hpc : (start u : State Q _ S).pc = u.startPc 0 := rfl
  refine ⟨?_, rfl, rfl, fun n => rfl, fun c _ => rfl, fun i hi => ?_, fun i hbusy => ?_, ?_⟩
  · obtain h | h := startPc_of_pool hpool 0 <;> rw [hpc, h] <;> trivial
  · obtain h | h := startPc_of_pool hpool 0 <;> rw [hpc, h] at hi <;> cases hi
  · exact absurd rfl hbusy
  · refine Lib.Counting.counts_zero fun c hpending => ?_
    obtain hpub | hacc := hpending.1
    · rw [start_publishing hpool] at hpub
      cases hpub
    · exact start_not_accepted c hacc

theorem careful_start : Careful u (start u : State Q _ S) :=
  ⟨fun _ c hacc => absurd hacc (start_not_accepted c), fun _ _ => ⟨rfl, rfl⟩, nofun⟩

end Start

section Runs

variable {Q S : Type} [DecidableEq Q] [DecidableEq S]

-- In every run in which processBatch stops waiting only for messages that have been processed,
-- it Naks no accepted message before that, and a message whose handler returns nil is Acked, and
-- not Nak'd, if its Ack can go out.
theorem accepted_nakked_after (u : Setup Q) (hpool : u.consumer.cfg.workerPoolEnabled = true)
    (acts : List (Act Q (Fin (WorkerPool.poolLen u.consumer.cfg.poolSize)) S))
    (s : State Q (Fin (WorkerPool.poolLen u.consumer.cfg.poolSize)) S)
    (hexec : exec (step u) (start u) acts = some s)
    (halong : Along (step u) Settling (start u) acts) :
    (∀ i after, s.pc = .nak i after → ∀ blocking, Accepted s ⟨s.round, i, blocking⟩ →
        (s.job ⟨s.round, i, blocking⟩).processed = true) ∧
      ∀ c, (s.job c).processed = true → u.succeeds c.round c.index →
        u.Settleable c.round c.index → Acked (s.delivery c.round c.index) := by
  have hall : Calls s ∧ Queue s ∧ Careful u s := by
    refine halong.invariant (P := fun s => Calls s ∧ Queue s ∧ Careful u s) ?_ hexec
      ⟨calls_start, queue_start hpool, careful_start⟩
    rintro s a t ⟨hc, hq, hs⟩ ha hstep
    exact ⟨hc.step hstep, hq.step hc hstep, hs.step hc hq ha hstep⟩
  obtain ⟨-, -, hcareful⟩ := hall
  refine ⟨fun i after hpc blocking hacc => ?_, hcareful.acked⟩
  exact hcareful.past (by rw [hpc]; rfl) _ hacc

end Runs

-- One message for a pool with one worker.
def oneForPool : Setup Empty :=
  { oneMessage with consumer := ⟨⟨1, 1, true, false⟩, .block, none⟩ }

abbrev OneWorker : Type := Fin (WorkerPool.poolLen oneForPool.consumer.cfg.poolSize)

def firstCall : Call := ⟨0, 0, false⟩

-- The pool accepts the message and processBatch waits.
def acceptedRun : List (Act Empty OneWorker Empty) :=
  [Act.drive false] ++ List.replicate 13 (Act.pool (.publish (.inl firstCall) .go)) ++
    [Act.drive false, Act.drive false]

-- The worker takes the message and runs the function.
def workedRun : List (Act Empty OneWorker Empty) :=
  List.replicate 7 (Act.pool (.work ⟨0, by decide⟩ .go)) ++ [Act.job firstCall, Act.job firstCall]

theorem accepted_nakked_after_waiting :
    ∃ s : State Empty OneWorker Empty,
      exec (step oneForPool) (start oneForPool) (acceptedRun ++ workedRun ++ [.drive false]) =
        some s ∧ s.pc = .finish ∧ s.job firstCall = .finished ∧ Acked (s.delivery 0 0) := by
  refine ⟨_, rfl, rfl, rfl, ?_⟩
  refine (accepted_nakked_after oneForPool rfl (acceptedRun ++ workedRun ++ [.drive false]) _ rfl
    ?_).2 firstCall rfl ⟨rfl, _, rfl⟩ ⟨rfl, by decide, fun _ => rfl⟩
  refine along_of_forall_mem Settling (fun a ha s => ?_) _
  simp only [acceptedRun, workedRun, List.mem_append, List.mem_replicate, List.mem_cons,
    List.not_mem_nil, or_false] at ha
  obtain (((rfl | ⟨-, rfl⟩) | rfl | rfl) | ⟨-, rfl⟩ | rfl | rfl) | rfl := ha <;> trivial

-- The context is cancelled while processBatch waits and the message is in the channel.
def givenUpRun : List (Act Empty OneWorker Empty) :=
  acceptedRun ++ [.cancel (.sentinel .canceled), .drive true, .drive true]

-- The message is about to be Nak'd while nobody has processed it; its handler then returns nil,
-- and the Ack comes too late.
theorem accepted_nakked_before :
    (exec (step oneForPool) (start oneForPool : State Empty OneWorker Empty) givenUpRun).map
        (fun s => (s.pc, (s.pool.pub (.inl firstCall)).accepted, s.job firstCall)) =
      some (.nak 0 (.ret (processErr (.sentinel .canceled))), true, .unborn) ∧
    (exec (step oneForPool) (start oneForPool : State Empty OneWorker Empty)
        (givenUpRun ++ [.drive true] ++ workedRun)).map (fun s => (s.delivery 0 0).log) =
      some [.settle (.nak 0) none, .settle .ack (some (.sentinel .errMsgAlreadyAckd))] :=
  ⟨rfl, rfl⟩

end NatsClient.Pull
