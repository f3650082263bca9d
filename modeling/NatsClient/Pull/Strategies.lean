import NatsClient.Pull.Fates

namespace NatsClient.Pull

open Lib.Machine

variable {Q W S : Type} {u : Setup Q} {s t : State Q W S} {k : Nat}

-- processMessage returns no error for the message as it is fetched.
def Setup.processes (u : Setup Q) (k i : Nat) : Prop :=
  (u.processMessage k i ⟨u.msg k i, []⟩).2 = none

def Pc.nakking : Pc → Bool
  | nak _ _ => true
  | _ => false

-- A batch in which nothing has been Nak'd, and in which an error was recorded only after
-- all messages had been handed out.
structure Steady [DecidableEq Q] [Fintype W] (u : Setup Q) (k : Nat) (s : State Q W S)
    (out : List Decision) : Prop where
  part : Partition u k s out
  unpooled : Unpooled s
  ctx : s.ctxErr = none
  going : s.pc.nakking = false
  workers : ∀ n i, s.worker n ≠ .nak i
  unnakked : ∀ i, out.count ⟨.nakked, k, i⟩ = 0
  fresh : ∀ i, fates k out i = 0 → s.delivery k i = ⟨u.msg k i, []⟩
  late : (s.firstErr k).isSome = true ∨ (∃ n e, s.worker n = .record e) →
    s.pc.reached (u.size k) = some (u.size k)
  mode : s.pc.alone = true ∨ ∀ i, i + 1 < u.size k → u.processes k i

-- The steps of processBatch that lead to no Nak.
inductive PlainMove (u : Setup Q) (s : State Q W S) : Pc → State Q W S → Prop
  | checked {i} : PlainMove u s (.check i) (s.goto (.handle i))
  | checkedAll {i} : PlainMove u s (.check i) (s.goto (.returned none))
  | handled {i d} : PlainMove u s (.handle i) ((s.deliver s.round i d).goto (.check (i + 1)))
  | sawNoErr {i} : PlainMove u s (.produce i) (s.goto (.produceCtx i))
  | producedAll {i} : PlainMove u s (.produce i) (s.goto .close)
  | produced {i} :
      PlainMove u s (.produceCtx i) ({ s with jobs := s.jobs ++ [i] }.goto (.produce (i + 1)))
  | closed : PlainMove u s .close ({ s with closed := true }.goto .join)
  | joined : PlainMove u s .join (s.goto .last)
  | ended {err} : PlainMove u s .last (s.goto (.returned err))

section Plain

variable [DecidableEq Q] [Fintype W] {out : List Decision}

theorem Steady.plain (h : Steady u k s out) (hmove : DriveMove u s s.pc t) :
    PlainMove u s s.pc t := by
  obtain rfl := h.part.round
  have hgoing := h.going
  obtain ⟨r, hreached, -, -⟩ := h.part.balance
  have hlate := h.late
  generalize s.pc = pc at hmove hgoing hreached hlate
  cases hmove with
  | checked => exact .checked
  | stopped hc => cases h.ctx.symm.trans hc
  | checkedAll => exact .checkedAll
  | handled => exact .handled
  | nakked => cases hgoing
  | nakkedAll => cases hgoing
  | @sawErr i he hi =>
    -- an error was recorded, so no message is left to be handed out
    have heq := Option.some.inj (hlate (.inl he))
    exact absurd hi (by omega)
  | sawNoErr => exact .sawNoErr
  | producedAll => exact .producedAll
  | sawDone hc =>
    rw [h.ctx] at hc
    cases hc
  | produced => exact .produced
  | closed => exact .closed
  | joined => exact .joined
  | ended => exact .ended
  | _ => cases hreached

end Plain

variable {pc : Pc} {out : List Decision}

theorem PlainMove.going (h : PlainMove u s pc t) : t.pc.nakking = false := by
  cases h <;> rfl

theorem PlainMove.alone (h : PlainMove u s pc t) (hpc : pc.alone = true) : t.pc.alone = true := by
  cases h <;> first | rfl | cases hpc

theorem PlainMove.frame (h : PlainMove u s pc t) :
    t.worker = s.worker ∧ t.firstErr = s.firstErr := by
  cases h <;> exact ⟨rfl, rfl⟩

theorem PlainMove.reached_le (h : PlainMove u s pc t) {size r : Nat} (hle : r ≤ size)
    (hr : pc.reached size = some r) : ∃ r', t.pc.reached size = some r' ∧ r ≤ r' := by
  cases h with
  | checkedAll => exact ⟨size, rfl, hle⟩
  | producedAll => exact ⟨size, rfl, hle⟩
  | handled =>
    obtain rfl := Option.some.inj hr
    exact ⟨_, rfl, Nat.le_succ _⟩
  | produced =>
    obtain rfl := Option.some.inj hr
    exact ⟨_, rfl, Nat.le_succ _⟩
  | _ => exact ⟨r, hr, Nat.le_refl r⟩

theorem PlainMove.count_nakked (h : PlainMove u s pc t) (i : Nat) :
    (driveDecisions u k pc).count ⟨.nakked, k, i⟩ = 0 := by
  cases h <;> rfl

theorem PlainMove.delivery (h : PlainMove u s pc t) (hround : s.round = k) {j : Nat}
    (hj : fates k (driveDecisions u k pc) j = 0) : t.delivery k j = s.delivery k j := by
  subst hround
  cases h with
  | @handled i d =>
    rw [driveDecisions, fates_singleton] at hj
    refine deliver_of_ne s _ d (fun hji => ?_)
    rw [if_pos hji] at hj
    cases hj
  | _ => rfl

section Worker

variable {n : Nat}

theorem count_nakked_workerDecisions {pc : WorkerPc} (hpc : ∀ i, pc ≠ .nak i) (k i : Nat) :
    (workerDecisions k pc).count ⟨.nakked, k, i⟩ = 0 := by
  cases pc with
  | nak j => exact absurd rfl (hpc j)
  | _ => rfl

theorem WorkerMove.delivery {pc : WorkerPc} (h : WorkerMove u s n pc t) (hround : s.round = k)
    {j : Nat} (hj : fates k (workerDecisions k pc) j = 0) : t.delivery k j = s.delivery k j := by
  subst hround
  have hother {fate : Fate} {i : Nat} (hi : fates s.round [⟨fate, s.round, i⟩] j = 0) : j ≠ i := by
    rintro rfl
    rw [fates_singleton, if_pos rfl] at hi
    cases hi
  cases h with
  | nakked => exact deliver_of_ne s _ _ (hother hj)
  | handled hd => exact deliver_of_ne s _ _ (hother hj)
  | failed hd => exact deliver_of_ne s _ _ (hother hj)
  | _ => rfl

-- Only a canceled context sends a worker to a Nak.
theorem WorkerMove.nak_of_nak {pc : WorkerPc} (h : WorkerMove u s n pc t) (hc : s.ctxErr = none)
    {m i : Nat} (hm : t.worker m = .nak i) : s.worker m = .nak i := by
  cases h with
  | stopped hd => cases hc.symm.trans hd
  | _ =>
    obtain ⟨-, hself⟩ | ⟨-, hother⟩ := Lib.Parties.update_cases hm
    · cases hself
    · exact hother

-- An error is recorded, or a worker is about to record one.
def Erring (k : Nat) (s : State Q W S) : Prop :=
  (s.firstErr k).isSome = true ∨ ∃ n e, s.worker n = .record e

-- The first error comes from a message that fails.
theorem WorkerMove.erring (h : WorkerMove u s n (s.worker n) t) (hc : s.ctxErr = none)
    (hlate : Erring s.round t) :
    Erring s.round s ∨ ∃ i e, s.worker n = .handle i ∧
      (u.processMessage s.round i (s.delivery s.round i)).2 = some e := by
  generalize hpc : s.worker n = pc at h ⊢
  have hsame {next : WorkerPc} (hne : ∀ e, next ≠ .record e)
      (hlate : Erring s.round (s.setWorker n next)) : Erring s.round s := by
    obtain herr | ⟨m, e, hm⟩ := hlate
    · exact .inl herr
    · obtain ⟨-, hself⟩ | ⟨-, hother⟩ := Lib.Parties.update_cases hm
      · exact absurd hself (hne e)
      · exact .inr ⟨m, e, hother⟩
  cases h with
  | stopped hd => cases hc.symm.trans hd
  | @failed i d e hd => exact .inr ⟨i, e, rfl, congrArg Prod.snd hd⟩
  | @recorded e => exact .inl (.inr ⟨n, e, hpc⟩)
  | _ => exact .inl (hsame (fun e he => by cases he) hlate)

end Worker

section Steps

variable [DecidableEq Q] [Fintype W]

theorem Steady.drive (h : Steady u k s out) (hmove : DriveMove u s s.pc t)
    (hpart : Partition u k t (out ++ driveDecisions u k s.pc)) (hunpooled : Unpooled t) :
    Steady u k t (out ++ driveDecisions u k s.pc) := by
  have hplain := h.plain hmove
  obtain ⟨hworker, herr⟩ := hplain.frame
  refine ⟨hpart, hunpooled, hmove.frame.ctxErr.trans h.ctx, hplain.going, ?_, fun i => ?_,
    fun i hi => ?_, fun hlate => ?_, h.mode.imp_left hplain.alone⟩
  · rw [hworker]
    exact h.workers
  · rw [List.count_append, h.unnakked, hplain.count_nakked]
  · rw [fates_append, Nat.add_eq_zero_iff] at hi
    rw [hplain.delivery h.part.round hi.2]
    exact h.fresh i hi.1
  · rw [hworker, herr] at hlate
    obtain ⟨r, hr, hle⟩ := hplain.reached_le (Nat.le_refl _) (h.late hlate)
    obtain ⟨r', hr', hle', -⟩ := hpart.balance
    rw [hr] at hr'
    obtain rfl := Option.some.inj hr'
    rw [hr, Nat.le_antisymm hle' hle]

-- A message that fails on a worker is the last one, and no message is left to be handed out.
theorem Steady.reached_of_failed {n i : Nat} {e : GoError} (h : Steady u k s out)
    (hn : n < u.workers s.round) (hpc : s.worker n = .handle i)
    (hfails : (u.processMessage k i (s.delivery k i)).2 = some e) :
    s.pc.reached (u.size k) = some (u.size k) := by
  have hheld : (s.worker n).held = some i := by rw [hpc]; rfl
  obtain ⟨hzero, r, hr, hi⟩ := h.part.held hn hheld
  obtain ⟨r', hr', hle, -⟩ := h.part.balance
  obtain rfl := Option.some.inj (hr.symm.trans hr')
  rw [h.fresh i hzero] at hfails
  obtain ha | hprocesses := h.mode
  · have hnone := (h.part.alone ha).2 n (h.part.round ▸ hn)
    cases hheld.symm.trans hnone
  · have hlast : ¬ i + 1 < u.size k := by
      intro hlt
      cases (hprocesses i hlt).symm.trans hfails
    rw [hr, Option.some.injEq]
    omega

theorem Steady.worker {n : Nat} (h : Steady u k s out) (hn : n < u.workers s.round)
    (hmove : WorkerMove u s n (s.worker n) t)
    (hpart : Partition u k t (out ++ workerDecisions k (s.worker n))) (hunpooled : Unpooled t) :
    Steady u k t (out ++ workerDecisions k (s.worker n)) := by
  have hf := hmove.frame
  refine ⟨hpart, hunpooled, hf.ctxErr.trans h.ctx, hf.pc ▸ h.going, fun m i hm => ?_, fun i => ?_,
    fun i hi => ?_, fun hlate => ?_, hf.pc ▸ h.mode⟩
  · exact h.workers m i (hmove.nak_of_nak h.ctx hm)
  · rw [List.count_append, h.unnakked, count_nakked_workerDecisions (h.workers n)]
  · rw [fates_append, Nat.add_eq_zero_iff] at hi
    rw [hmove.delivery h.part.round hi.2]
    exact h.fresh i hi.1
  · obtain rfl := h.part.round
    rw [hf.pc]
    obtain hbefore | ⟨i, e, hpc, hfails⟩ := hmove.erring h.ctx hlate
    · exact h.late hbefore
    · exact h.reached_of_failed hn hpc hfails

end Steps

section Runs

variable [DecidableEq Q] [DecidableEq W] [DecidableEq S] [Fintype W]

theorem Steady.step {a : Act Q W S} (h : Steady u k s out) (ha : a.isCancel = false)
    (hstep : Pull.step u s a = some t) : Steady u k t (out ++ decisions u s a) := by
  obtain ⟨r, hreached, -, -⟩ := h.part.balance
  have hpart := h.part.step h.unpooled hstep
  have hunpooled := h.unpooled.step (publishing_of_reached hreached) hstep
  obtain rfl := h.part.round
  cases a with
  | drive viaCtx => exact h.drive (driveStep_move hstep) hpart hunpooled
  | worker n =>
    simp only [Pull.step] at hstep
    split_ifs at hstep with hn
    exact h.worker hn (workerStep_move hstep) hpart hunpooled
  | job call =>
    have hunborn := h.unpooled.calls.unborn_of_not_accepted (h.unpooled.unaccepted call)
    simp [Pull.step, jobStep, hunborn] at hstep
  | pool act =>
    obtain ⟨-, pool, -, rfl⟩ := poolStep_eq hstep
    rw [decisions, List.append_nil] at hpart ⊢
    exact ⟨hpart, hunpooled, h.ctx, h.going, h.workers, h.unnakked, h.fresh, h.late, h.mode⟩
  | cancel err => cases ha

-- Every message is passed to processMessage once, and none is Nak'd, as long as nobody
-- cancels the context.
def ProcessesAll (u : Setup Q) (k : Nat) (s : State Q W S) : Prop :=
  ∀ acts t, (∀ a ∈ acts, a.isCancel = false) → exec (Pull.step u) s acts = some t →
    (∀ i, (outputs (Pull.step u) (decisions u) s acts).count ⟨.nakked, k, i⟩ = 0) ∧
    ∀ err, t.pc = .returned err → ∀ i < u.size k,
      (outputs (Pull.step u) (decisions u) s acts).count ⟨.processed, k, i⟩ = 1

theorem Steady.processesAll (h : Steady u k s []) : ProcessesAll u k s := by
  intro acts t hacts hexec
  have halong : Along (Pull.step u) (fun _ a => a.isCancel = false) s acts :=
    along_of_forall_mem _ (fun a ha _ => hacts a ha) s
  have hlast : Steady u k t (outputs (Pull.step u) (decisions u) s acts) :=
    halong.outputs_invariant (P := Steady u k) (fun s a t out hs ha hstep => hs.step ha hstep)
      hexec h
  refine ⟨hlast.unnakked, fun err hret i hi => ?_⟩
  have hone := hlast.part.fates_of_returned hret hi
  rwa [fates, hlast.unnakked i] at hone

end Runs

-- The state before a batch: nothing is recorded for it, and its messages are as fetched.
structure Untouched [DecidableEq Q] [Fintype W] (u : Setup Q) (k : Nat) (s : State Q W S) :
    Prop where
  unpooled : Unpooled s
  quiet : s.publishing = none
  ctx : s.ctxErr = none
  unerred : s.firstErr k = none
  delivery : ∀ i, s.delivery k i = ⟨u.msg k i, []⟩

section Enter

variable [DecidableEq Q] [Fintype W]

theorem Untouched.steady (hs : Untouched u k s) (hpart : Partition u k (s.enter k pc) [])
    (hgoing : pc.nakking = false)
    (hmode : pc.alone = true ∨ ∀ i, i + 1 < u.size k → u.processes k i) :
    Steady u k (s.enter k pc) [] := by
  refine ⟨hpart, hs.unpooled.enter hs.quiet k pc, hs.ctx, hgoing, fun n i hn => ?_, fun _ => rfl,
    fun i _ => hs.delivery i, fun hlate => ?_, hmode⟩
  · cases hn
  · obtain herr | ⟨n, e, hn⟩ := hlate
    · rw [State.enter, hs.unerred] at herr
      cases herr
    · cases hn

theorem Untouched.sequential (hs : Untouched u k s) : Steady u k (s.enter k (.check 0)) [] :=
  hs.steady (partition_enter s rfl trivial (.inl rfl)) rfl (.inl rfl)

theorem Untouched.concurrent (hs : Untouched u k s) (hc : 1 < u.concurrency)
    (hprocesses : ∀ i, i + 1 < u.size k → u.processes k i) :
    Steady u k (s.enter k (.produce 0)) [] := by
  refine hs.steady (partition_enter s rfl trivial ?_) rfl (.inr hprocesses)
  by_cases hsize : u.size k = 0
  · exact .inr (.inr hsize)
  · exact .inr (.inl (workers_pos hsize hc))

end Enter

-- The first messages of the batch, each passed to processMessage.
def passed (k r : Nat) : List Decision := (List.range r).map fun i => ⟨.processed, k, i⟩

theorem passed_succ (k r : Nat) : passed k (r + 1) = passed k r ++ [⟨.processed, k, r⟩] := by
  rw [passed, List.range_succ, List.map_append]
  rfl

theorem mem_passed {k r : Nat} {fate : Fate} {i : Nat} :
    ⟨fate, k, i⟩ ∈ passed k r ↔ fate = .processed ∧ i < r := by
  simp only [passed, List.mem_map, List.mem_range, Decision.mk.injEq]
  constructor
  · rintro ⟨j, hj, rfl, -, rfl⟩
    exact ⟨rfl, hj⟩
  · rintro ⟨rfl, hi⟩
    exact ⟨i, hi, rfl, trivial, rfl⟩

theorem count_passed {k r i : Nat} (hi : i < r) :
    (passed k r).count ⟨.processed, k, i⟩ = 1 := by
  refine List.count_eq_one_of_mem ?_ (mem_passed.mpr ⟨rfl, hi⟩)
  exact List.nodup_range.map fun i j hij => by cases hij; rfl

theorem count_passed_nakked (k r i : Nat) : (passed k r).count ⟨.nakked, k, i⟩ = 0 := by
  refine List.count_eq_zero_of_not_mem fun hmem => ?_
  cases (mem_passed.mp hmem).1

-- processBatchConcurrent with one worker, in a batch in which only the last message may fail.
structure Few [DecidableEq Q] [Fintype W] (u : Setup Q) (k : Nat) (s : State Q W S)
    (out : List Decision) : Prop where
  round : s.round = k
  unpooled : Unpooled s
  jobs : s.jobs = []
  closed : s.closed = false
  worker : ∀ n, s.worker n = .recv
  place : (∃ r, s.pc = .few r ∧ r ≤ u.size k ∧ out = passed k r ∧
      ∀ i, r ≤ i → s.delivery k i = ⟨u.msg k i, []⟩) ∨
    ∃ err, s.pc = .returned err ∧ out = passed k (u.size k)

section Few

theorem Few.quiet [DecidableEq Q] [Fintype W] (h : Few u k s out) : s.publishing = none := by
  obtain ⟨r, hpc, -⟩ | ⟨err, hpc, -⟩ := h.place <;> simp [State.publishing, hpc]

theorem Few.drive [DecidableEq Q] [Fintype W] (h : Few u k s out)
    (hprocesses : ∀ i, i + 1 < u.size k → u.processes k i) (hmove : DriveMove u s s.pc t)
    (hunpooled : Unpooled t) : Few u k t (out ++ driveDecisions u k s.pc) := by
  obtain rfl := h.round
  obtain ⟨r, hpc, hle, rfl, hfresh⟩ | ⟨err, hpc, -⟩ := h.place
  · rw [hpc] at hmove ⊢
    cases hmove with
    | @fewHandled i d hd hi =>
      refine ⟨rfl, hunpooled, h.jobs, h.closed, h.worker, .inl ⟨r + 1, rfl, hi, ?_, ?_⟩⟩
      · rw [driveDecisions, if_pos hi, passed_succ]
      · exact fun j hj => (deliver_of_ne s _ d (by omega)).trans (hfresh j (by omega))
    | @fewFailed i d e hd hi =>
      have hlast : r + 1 = u.size s.round := by
        by_contra hne
        have hnone := hprocesses r (by omega)
        rw [Setup.processes, ← hfresh r (Nat.le_refl r), hd] at hnone
        cases hnone
      refine ⟨rfl, hunpooled, h.jobs, h.closed, h.worker, .inr ⟨_, rfl, ?_⟩⟩
      rw [driveDecisions, if_pos hi, ← hlast, passed_succ]
    | @fewAll i hi =>
      refine ⟨rfl, hunpooled, h.jobs, h.closed, h.worker, .inr ⟨_, rfl, ?_⟩⟩
      rw [driveDecisions, if_neg hi, List.append_nil, Nat.le_antisymm hle (Nat.not_lt.mp hi)]
  · rw [hpc] at hmove
    cases hmove

variable [DecidableEq Q] [DecidableEq W] [DecidableEq S] [Fintype W]

theorem Few.step {a : Act Q W S} (h : Few u k s out)
    (hprocesses : ∀ i, i + 1 < u.size k → u.processes k i)
    (hstep : Pull.step u s a = some t) : Few u k t (out ++ decisions u s a) := by
  have hunpooled := h.unpooled.step h.quiet hstep
  cases a with
  | drive viaCtx =>
    have hmoved := h.drive hprocesses (driveStep_move hstep) hunpooled
    rwa [← h.round] at hmoved ⊢
  | worker n => simp [Pull.step, workerStep, h.worker n, h.jobs, h.closed] at hstep
  | job call =>
    have hunborn := h.unpooled.calls.unborn_of_not_accepted (h.unpooled.unaccepted call)
    simp [Pull.step, jobStep, hunborn] at hstep
  | pool act =>
    obtain ⟨-, pool, -, rfl⟩ := poolStep_eq hstep
    rw [decisions, List.append_nil]
    exact ⟨h.round, hunpooled, h.jobs, h.closed, h.worker, h.place⟩
  | cancel err =>
    simp only [Pull.step, cancelStep] at hstep
    split_ifs at hstep
    cases hstep
    rw [decisions, List.append_nil]
    exact ⟨h.round, hunpooled, h.jobs, h.closed, h.worker, h.place⟩

theorem Untouched.few (hs : Untouched u k s)
    (hprocesses : ∀ i, i + 1 < u.size k → u.processes k i) :
    ProcessesAll u k (s.enter k (.few 0)) := by
  intro acts t _ hexec
  have hstart : Few u k (s.enter k (.few 0)) [] :=
    ⟨rfl, hs.unpooled.enter hs.quiet k _, rfl, rfl, fun _ => rfl,
      .inl ⟨0, rfl, Nat.zero_le _, rfl, fun i _ => hs.delivery i⟩⟩
  have hlast : Few u k t (outputs (Pull.step u) (decisions u) (s.enter k (.few 0)) acts) :=
    outputs_invariant (P := Few u k) (fun s a t out h hstep => h.step hprocesses hstep) hexec
      hstart
  generalize outputs (Pull.step u) (decisions u) (s.enter k (.few 0)) acts = out at hlast
  obtain ⟨r, hpc, -, rfl, -⟩ | ⟨err, hpc, rfl⟩ := hlast.place
  · refine ⟨count_passed_nakked k r, fun err hret => ?_⟩
    rw [hpc] at hret
    cases hret
  · exact ⟨count_passed_nakked k _, fun _ _ i hi => count_passed hi⟩

end Few

-- The concurrent strategy when the first worker has come to message j, which the producer has
-- handed out last.
structure Holding (u : Setup Q) (k j : Nat) (pc : WorkerPc) (s : State Q W S) : Prop where
  round : s.round = k
  ctx : s.ctxErr = none
  unerred : s.firstErr k = none
  jobs : s.jobs = []
  worker : s.worker 0 = pc
  fresh : ∀ i, j ≤ i → s.delivery k i = ⟨u.msg k i, []⟩

section Converse

variable [DecidableEq Q] [DecidableEq W] [DecidableEq S] {j : Nat}

-- A run in which nobody cancels the context.
def Undisturbed (u : Setup Q) (s t : State Q W S) : Prop :=
  ∃ acts, (∀ a ∈ acts, a.isCancel = false) ∧ exec (Pull.step u) s acts = some t

theorem Undisturbed.trans {next : State Q W S} (h : Undisturbed u s t)
    (hnext : Undisturbed u t next) : Undisturbed u s next := by
  obtain ⟨acts, hacts, hexec⟩ := h
  obtain ⟨more, hmore, hexec'⟩ := hnext
  refine ⟨acts ++ more, fun a ha => ?_, exec_append_eq_some.mpr ⟨t, hexec, hexec'⟩⟩
  exact (List.mem_append.mp ha).elim (hacts a) (hmore a)

-- The message goes through the channel to the first worker.
theorem Holding.handOver (h : Holding u k j .recv s) (hpc : s.pc = .produce j) (hj : j < u.size k)
    (hw : 0 < u.workers k) :
    ∃ t, Undisturbed u s t ∧ Holding u k j (.handle j) t ∧ t.pc = .produce (j + 1) := by
  obtain ⟨rfl, hctx, hunerred, hjobs, hworker, hfresh⟩ := h
  let t : State Q W S := (s.goto (.produce (j + 1))).setWorker 0 (.handle j)
  refine ⟨t, ⟨[.drive false, .drive false, .worker 0, .worker 0], by simp [Act.isCancel], ?_⟩,
    ⟨rfl, hctx, hunerred, hjobs, rfl, hfresh⟩, rfl⟩
  simp [exec, Pull.step, driveStep, workerStep, State.goto, State.setWorker, hpc, hj, hunerred,
    hctx, hjobs, hw, hworker, t]

theorem Holding.processed (h : Holding u k j (.handle j) s) (hw : 0 < u.workers k)
    (hprocesses : u.processes k j) :
    ∃ t, Undisturbed u s t ∧ Holding u k (j + 1) .recv t ∧ t.pc = s.pc := by
  obtain ⟨rfl, hctx, hunerred, hjobs, hworker, hfresh⟩ := h
  have hd := hfresh j (Nat.le_refl j)
  let d := (u.processMessage s.round j ⟨u.msg s.round j, []⟩).1
  refine ⟨(s.deliver s.round j d).setWorker 0 .recv, ⟨[.worker 0], by simp [Act.isCancel], ?_⟩,
    ⟨rfl, hctx, hunerred, hjobs, rfl, fun i hi => ?_⟩, rfl⟩
  · have hnone : (u.processMessage s.round j ⟨u.msg s.round j, []⟩).2 = none := hprocesses
    simp [exec, Pull.step, workerStep, hw, hworker, hd, hnone, d]
  · exact (deliver_of_ne s _ d (by omega)).trans (hfresh i (by omega))

-- Its error is recorded.
theorem Holding.failed (h : Holding u k j (.handle j) s) (hw : 0 < u.workers k)
    (hfails : ¬ u.processes k j) :
    ∃ t, Undisturbed u s t ∧ t.round = k ∧ t.pc = s.pc ∧ (t.firstErr k).isSome = true := by
  obtain ⟨rfl, hctx, hunerred, hjobs, hworker, hfresh⟩ := h
  have hd := hfresh j (Nat.le_refl j)
  obtain ⟨e, he⟩ := Option.ne_none_iff_exists'.mp hfails
  have hexec : ∃ t, exec (Pull.step u) s [.worker 0, .worker 0] = some t ∧ t.round = s.round ∧
      t.pc = s.pc ∧ (t.firstErr s.round).isSome = true := by
    simp [exec, Pull.step, workerStep, hw, hworker, hd, he, State.setWorker, State.deliver,
      State.record, hunerred]
  obtain ⟨t, ht, hrest⟩ := hexec
  exact ⟨t, ⟨[.worker 0, .worker 0], by simp [Act.isCancel], ht⟩, hrest⟩

theorem Holding.run (h : Holding u k 0 .recv s) (hpc : s.pc = .produce 0) (hw : 0 < u.workers k)
    (hj : j ≤ u.size k) (hprocesses : ∀ i < j, u.processes k i) :
    ∃ t, Undisturbed u s t ∧ Holding u k j .recv t ∧ t.pc = .produce j := by
  induction j with
  | zero => exact ⟨s, ⟨[], fun a ha => absurd ha List.not_mem_nil, rfl⟩, h, hpc⟩
  | succ j ih =>
    obtain ⟨t, hrun, ht, htpc⟩ := ih (by omega) fun i hi => hprocesses i (by omega)
    obtain ⟨mid, hmid, hhold, hmidpc⟩ := ht.handOver htpc hj hw
    obtain ⟨last, hlast, hready, hlastpc⟩ := hhold.processed hw (hprocesses j (by omega))
    exact ⟨last, (hrun.trans hmid).trans hlast, hready, hlastpc.trans hmidpc⟩

theorem ProcessesAll.unnakked (h : ProcessesAll u k s) (hrun : Undisturbed u s t)
    {next : State Q W S} {viaCtx : Bool} (hstep : Pull.step u t (.drive viaCtx) = some next)
    (i : Nat) : (driveDecisions u t.round t.pc).count ⟨.nakked, k, i⟩ = 0 := by
  obtain ⟨acts, hacts, hexec⟩ := hrun
  have hall := (h (acts ++ [.drive viaCtx]) next (fun a ha => ?_) ?_).1 i
  · rw [outputs_append _ _ hexec, List.count_append, Nat.add_eq_zero_iff] at hall
    simpa [outputs, hstep, decisions] using hall.2
  · obtain ha | ha := List.mem_append.mp ha
    · exact hacts a ha
    · rw [List.mem_singleton.mp ha]
      rfl
  · exact exec_concat hexec hstep

theorem few_run (hround : s.round = k) (hpc : s.pc = .few 0)
    (hfresh : ∀ i, s.delivery k i = ⟨u.msg k i, []⟩) (hj : j ≤ u.size k)
    (hprocesses : ∀ i < j, u.processes k i) :
    ∃ t, exec (Pull.step u) s (List.replicate j (.drive false)) = some t ∧
      outputs (Pull.step u) (decisions u) s (List.replicate j (.drive false)) = passed k j ∧
      t.round = k ∧ t.pc = .few j ∧ ∀ i, j ≤ i → t.delivery k i = ⟨u.msg k i, []⟩ := by
  induction j with
  | zero => exact ⟨s, rfl, rfl, hround, hpc, fun i _ => hfresh i⟩
  | succ j ih =>
    obtain ⟨t, hexec, hout, rfl, htpc, htfresh⟩ := ih (by omega) fun i hi =>
      hprocesses i (by omega)
    let d := (u.processMessage t.round j ⟨u.msg t.round j, []⟩).1
    have hnone : (u.processMessage t.round j ⟨u.msg t.round j, []⟩).2 = none :=
      hprocesses j (Nat.lt_succ_self j)
    have hstep : Pull.step u t (.drive false) =
        some ((t.deliver t.round j d).goto (.few (j + 1))) := by
      simp [Pull.step, driveStep, htpc, Nat.lt_of_succ_le hj, htfresh j (Nat.le_refl j), hnone, d]
    refine ⟨(t.deliver t.round j d).goto (.few (j + 1)), ?_, ?_, rfl, rfl, fun i hi => ?_⟩
    · rw [List.replicate_succ']
      exact exec_concat hexec hstep
    · rw [List.replicate_succ', outputs_append _ _ hexec, hout, passed_succ]
      simp [outputs, hstep, decisions, htpc, driveDecisions, Nat.lt_of_succ_le hj]
    · exact (deliver_of_ne t _ d (by omega)).trans (htfresh i (by omega))

variable [Fintype W]

-- A failed message makes the producer Nak the one after it.
theorem Untouched.nakked (hs : Untouched u k s) (hc : 1 < u.concurrency) (hj : j + 1 < u.size k)
    (hprocesses : ∀ i < j, u.processes k i) (hfails : ¬ u.processes k j) :
    ¬ ProcessesAll u k (s.enter k (.produce 0)) := by
  intro hall
  have hw : 0 < u.workers k := workers_pos (by omega) hc
  have hstart : Holding u k 0 .recv (s.enter k (.produce 0)) :=
    ⟨rfl, hs.ctx, hs.unerred, rfl, rfl, fun i _ => hs.delivery i⟩
  obtain ⟨t, hrun, ht, htpc⟩ := hstart.run rfl hw (Nat.le_of_succ_le hj.le) hprocesses
  obtain ⟨mid, hmid, hhold, hmidpc⟩ := ht.handOver htpc (by omega) hw
  obtain ⟨last, hlast, rfl, hlastpc, herr⟩ := hhold.failed hw hfails
  rw [hmidpc] at hlastpc
  have hsaw : Undisturbed u last (last.goto (.nak (j + 1) .close)) := by
    refine ⟨[.drive false], by simp [Act.isCancel], ?_⟩
    simp [exec, Pull.step, driveStep, hlastpc, hj, herr]
  have hnak : Pull.step u (last.goto (.nak (j + 1) .close)) (.drive false) =
      some (((last.goto (.nak (j + 1) .close)).nak u (j + 1)).goto (.nak (j + 2) .close)) := by
    simp [Pull.step, driveStep, State.goto, hj]
  have hcount := hall.unnakked (((hrun.trans hmid).trans hlast).trans hsaw) hnak (j + 1)
  simp [State.goto, driveDecisions, hj] at hcount

-- With one worker the messages after it are passed over.
theorem Untouched.skipped (hs : Untouched u k s) (hj : j + 1 < u.size k)
    (hprocesses : ∀ i < j, u.processes k i) (hfails : ¬ u.processes k j) :
    ¬ ProcessesAll u k (s.enter k (.few 0)) := by
  intro hall
  obtain ⟨t, hexec, hout, rfl, hpc, hfresh⟩ := few_run (s := s.enter k (.few 0)) (k := k) rfl
    rfl hs.delivery (Nat.le_of_succ_le hj.le) hprocesses
  obtain ⟨e, he⟩ := Option.ne_none_iff_exists'.mp hfails
  have hlast : ∃ next err, Pull.step u t (.drive false) = some next ∧ next.pc = .returned err := by
    simp [Pull.step, driveStep, hpc, Nat.lt_of_succ_lt hj, hfresh j (Nat.le_refl j), he,
      State.goto]
  obtain ⟨next, err, hstep, hret⟩ := hlast
  have hrun : exec (Pull.step u) (s.enter t.round (.few 0))
      (List.replicate j (.drive false) ++ [.drive false]) = some next := exec_concat hexec hstep
  have hone := (hall _ next (fun a ha => ?_) hrun).2 err hret (j + 1) hj
  · rw [outputs_append _ _ hexec, hout] at hone
    simp only [outputs, hstep, decisions, hpc, driveDecisions, if_pos (Nat.lt_of_succ_lt hj),
      Option.elim_some, List.append_nil, ← passed_succ] at hone
    have hmem := List.count_pos_iff.mp (hone ▸ Nat.one_pos)
    exact absurd (mem_passed.mp hmem).2 (Nat.lt_irrefl _)
  · rw [← List.replicate_succ', List.mem_replicate] at ha
    rw [ha.2]
    rfl

end Converse

-- The handler of the first of two messages fails.
def firstFails : Setup Empty :=
  { twoMessages with
    outcome := fun _ i => .returned (if i = 0 then some (.sentinel .errTimeout) else none) }

-- The first worker is done with the first message before the producer comes to the second.
def failedRun : List (Act Empty NoPool Empty) :=
  [.drive false, .drive false] ++ List.replicate 4 (.worker 0) ++ List.replicate 4 (.drive false) ++
    [.worker 0, .worker 1, .drive false, .drive false]

end NatsClient.Pull
