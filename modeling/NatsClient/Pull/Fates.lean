import NatsClient.Lib.Parties
import NatsClient.Pull.Calls
import NatsClient.Pull.Theorems

namespace NatsClient.Pull

open Lib.Machine

variable {Q W S : Type} {u : Setup Q} {s t : State Q W S} {k : Nat}

-- What becomes of a message: it is passed to processMessage, or the batch Naks it.
inductive Fate
  | processed
  | nakked
  deriving DecidableEq, Repr

structure Decision where
  fate : Fate
  round : Nat
  index : Nat
  deriving DecidableEq, Repr

def driveDecisions (u : Setup Q) (k : Nat) : Pc → List Decision
  | .handle i => [⟨.processed, k, i⟩]
  | .nak i _ => if i < u.size k then [⟨.nakked, k, i⟩] else []
  | .few i => if i < u.size k then [⟨.processed, k, i⟩] else []
  | _ => []

def workerDecisions (k : Nat) : WorkerPc → List Decision
  | .handle i => [⟨.processed, k, i⟩]
  | .nak i => [⟨.nakked, k, i⟩]
  | _ => []

def jobDecisions (c : Call) : JobPc → List Decision
  | .running => [⟨.processed, c.round, c.index⟩]
  | _ => []

-- The messages whose fate an action decides.
def decisions (u : Setup Q) (s : State Q W S) : Act Q W S → List Decision
  | .drive _ => driveDecisions u s.round s.pc
  | .worker n => workerDecisions s.round (s.worker n)
  | .job c => jobDecisions c (s.job c)
  | .pool _ => []
  | .cancel _ => []

-- How often the fate of a message was decided.
def fates (k : Nat) (out : List Decision) (i : Nat) : Nat :=
  out.count ⟨.processed, k, i⟩ + out.count ⟨.nakked, k, i⟩

@[simp] theorem fates_nil (k i : Nat) : fates k [] i = 0 := rfl

theorem fates_append (k : Nat) (out more : List Decision) (i : Nat) :
    fates k (out ++ more) i = fates k out i + fates k more i := by
  simp only [fates, List.count_append]
  omega

theorem fates_singleton (fate : Fate) (k i j : Nat) :
    fates k [⟨fate, k, j⟩] i = if i = j then 1 else 0 := by
  cases fate <;> by_cases h : i = j <;> simp [fates, h, eq_comm]

-- The message that a worker has received.
def WorkerPc.held : WorkerPc → Option Nat
  | check i | nak i | handle i => some i
  | _ => none

def WorkerPc.holds (pc : WorkerPc) (i : Nat) : Nat := if pc.held = some i then 1 else 0

-- How many workers have received message i.
def State.load (s : State Q W S) (u : Setup Q) (i : Nat) : Nat :=
  ∑ n ∈ Finset.range (u.workers s.round), (s.worker n).holds i

theorem load_setWorker {n : Nat} (hn : n < u.workers s.round) (pc : WorkerPc) (i : Nat) :
    (s.setWorker n pc).load u i + (s.worker n).holds i = s.load u i + pc.holds i :=
  Lib.Parties.sum_update_mem _ (fun _ pc => pc.holds i) s.worker (Finset.mem_range.mpr hn) pc

-- The messages that processBatch has come to, where it uses no pool.
def Pc.reached (size : Nat) : Pc → Option Nat
  | check i | handle i | nak i _ | produce i | produceCtx i => some i
  | close | join | last | returned _ => some size
  | _ => none

-- No message is on its way to a worker.
def Pc.alone : Pc → Bool
  | check _ | handle _ | nak _ (.ret _) | last | returned _ => true
  | _ => false

-- The channel is closed.
def Pc.closing : Pc → Bool
  | join | last | returned _ => true
  | _ => false

-- The message is there to be looked at.
def Pc.within (size : Nat) : Pc → Prop
  | handle i | produceCtx i => i < size
  | _ => True

-- Every message that processBatch has come to is in the channel, or with one worker, or its
-- fate was decided once.
structure Partition (u : Setup Q) (k : Nat) (s : State Q W S) (out : List Decision) : Prop where
  round : s.round = k
  balance : ∃ r, s.pc.reached (u.size k) = some r ∧ r ≤ u.size k ∧
    ∀ i, fates k out i + s.jobs.count i + s.load u i = if i < r then 1 else 0
  within : s.pc.within (u.size k)
  closing : s.closed = true → s.pc.closing = true
  exited : ∀ n, s.worker n = .exited → s.closed = true ∧ s.jobs = []
  alone : s.pc.alone = true → s.jobs = [] ∧ ∀ n < u.workers k, (s.worker n).held = none
  crew : s.pc.alone = true ∨ 0 < u.workers k ∨ u.size k = 0

section Drive

variable {out : List Decision} {pc : Pc}

theorem Partition.of_eq (h : Partition u k s out) (hround : t.round = s.round) (hpc : t.pc = s.pc)
    (hjobs : t.jobs = s.jobs) (hclosed : t.closed = s.closed) (hworker : t.worker = s.worker) :
    Partition u k t out := by
  obtain ⟨_, hbalance, hwithin, hclosing, hexited, halone, hcrew⟩ := h
  simp only [State.load] at hbalance
  exact ⟨by omega, by simpa only [State.load, hround, hpc, hjobs, hworker] using hbalance,
    by rwa [hpc], by rwa [hclosed, hpc], by rwa [hclosed, hjobs, hworker],
    by rwa [hpc, hjobs, hworker], by rwa [hpc]⟩

theorem Partition.goto {next : Pc} (h : Partition u k s out) (hpc : s.pc = pc)
    (hreached : next.reached (u.size k) = pc.reached (u.size k))
    (hwithin : next.within (u.size k)) (hclosing : pc.closing = true → next.closing = true)
    (halone : pc.alone = true → next.alone = true)
    (hquiet : next.alone = true → s.jobs = [] ∧ ∀ n < u.workers k, (s.worker n).held = none) :
    Partition u k (s.goto next) (out ++ []) := by
  subst hpc
  rw [List.append_nil]
  refine ⟨h.round, ?_, hwithin, fun hc => hclosing (h.closing hc), h.exited, hquiet,
    h.crew.imp_left halone⟩
  obtain ⟨r, hr, hle, hcount⟩ := h.balance
  exact ⟨r, hreached.trans hr, hle, hcount⟩

-- The next message meets its fate.
theorem Partition.decided {i : Nat} {next : Pc} (h : Partition u k s out) (fate : Fate)
    (hpc : s.pc = pc) (hreached : pc.reached (u.size k) = some i) (hi : i < u.size k)
    (hnext : next.reached (u.size k) = some (i + 1)) (hwithin : next.within (u.size k))
    (hclosing : pc.closing = true → next.closing = true) (halone : next.alone = pc.alone) :
    Partition u k (s.goto next) (out ++ [⟨fate, k, i⟩]) := by
  subst hpc
  refine ⟨h.round, ⟨i + 1, hnext, hi, fun j => ?_⟩, hwithin, fun hc => hclosing (h.closing hc),
    h.exited, fun ha => h.alone (halone.symm.trans ha), h.crew.imp_left halone.trans⟩
  obtain ⟨r, hr, -, hcount⟩ := h.balance
  obtain rfl := Option.some.inj (hreached.symm.trans hr)
  have hj := hcount j
  rw [fates_append, fates_singleton]
  simp only [State.goto, State.load] at hj ⊢
  split_ifs at hj ⊢ <;> omega

-- It goes into the channel.
theorem Partition.produced {i : Nat} (h : Partition u k s out) (hpc : s.pc = .produceCtx i) :
    Partition u k ({ s with jobs := s.jobs ++ [i] }.goto (.produce (i + 1))) (out ++ []) := by
  rw [List.append_nil]
  have hopen : s.closed = false := by
    rw [← Bool.not_eq_true]
    intro hc
    have hclosing := h.closing hc
    rw [hpc] at hclosing
    cases hclosing
  have hi : i < u.size k := by
    have hwithin := h.within
    rwa [hpc] at hwithin
  refine ⟨h.round, ⟨i + 1, rfl, hi, fun j => ?_⟩, trivial, fun hc => ?_, fun n hn => ?_,
    fun ha => absurd ha Bool.false_ne_true, ?_⟩
  · obtain ⟨r, hr, -, hcount⟩ := h.balance
    rw [hpc] at hr
    obtain rfl := Option.some.inj hr
    have hj := hcount j
    simp only [State.goto, State.load, List.count_append, List.count_singleton, beq_iff_eq]
      at hj ⊢
    split_ifs at hj ⊢ <;> omega
  · exact absurd (hopen.symm.trans hc) (by decide)
  · exact absurd (hopen.symm.trans (h.exited n hn).1) (by decide)
  · have hcrew := h.crew
    rw [hpc] at hcrew
    exact hcrew

theorem Partition.closed (h : Partition u k s out) (hpc : s.pc = .close) :
    Partition u k ({ s with closed := true }.goto .join) (out ++ []) := by
  rw [List.append_nil]
  refine ⟨h.round, ?_, trivial, fun _ => rfl, fun n hn => ⟨rfl, (h.exited n hn).2⟩,
    fun ha => absurd ha Bool.false_ne_true, ?_⟩
  · have hbalance := h.balance
    rw [hpc] at hbalance
    exact hbalance
  · have hcrew := h.crew
    rw [hpc] at hcrew
    exact hcrew

-- Nothing is left in the channel when all workers have returned.
theorem Partition.joined (h : Partition u k s out) (hpc : s.pc = .join)
    (hw : ∀ n < u.workers k, s.worker n = .exited) :
    s.jobs = [] ∧ ∀ n < u.workers k, (s.worker n).held = none := by
  refine ⟨?_, fun n hn => by rw [hw n hn]; rfl⟩
  have hcrew := h.crew
  rw [hpc] at hcrew
  obtain hcrew | hcrew | hsize := hcrew
  · cases hcrew
  · exact (h.exited 0 (hw 0 hcrew)).2
  · obtain ⟨r, -, hle, hcount⟩ := h.balance
    refine List.eq_nil_iff_forall_not_mem.mpr fun i hi => ?_
    have hpos := List.count_pos_iff.mpr hi
    have hbal := hcount i
    rw [if_neg (by omega)] at hbal
    omega

theorem Partition.drive (h : Partition u k s out) (hmove : DriveMove u s s.pc t) :
    Partition u k t (out ++ driveDecisions u k s.pc) := by
  obtain rfl := h.round
  obtain ⟨r, hreached, hle, -⟩ := h.balance
  generalize hpc : s.pc = pc at hmove hreached
  have hsize {i : Nat} (hr : some i = some r) (hi : ¬ i < u.size s.round) :
      some (u.size s.round) = some i := by
    obtain rfl := Option.some.inj hr
    exact congrArg some (Nat.le_antisymm (Nat.not_lt.mp hi) hle)
  have hquiet (ha : pc.alone = true) := h.alone (hpc ▸ ha)
  cases hmove with
  | checked hc hi => exact h.goto hpc rfl hi id id hquiet
  | stopped hc hi => exact h.goto hpc rfl trivial id id hquiet
  | checkedAll hi =>
    exact h.goto hpc (hsize hreached hi) trivial (fun _ => rfl) (fun _ => rfl) hquiet
  | @handled i d hd =>
    have hi : i < u.size s.round := by
      have hwithin := h.within
      rwa [hpc] at hwithin
    have hdelivered : Partition u s.round (s.deliver s.round i d) out :=
      h.of_eq rfl rfl rfl rfl rfl
    exact hdelivered.decided .processed hpc rfl hi rfl trivial id rfl
  | @nakked i after hi =>
    rw [driveDecisions, if_pos hi]
    have hdelivered : Partition u s.round (s.nak u i) out := h.of_eq rfl rfl rfl rfl rfl
    refine hdelivered.decided .nakked hpc rfl hi rfl trivial id ?_
    cases after <;> rfl
  | @nakkedAll i after hi =>
    rw [driveDecisions, if_neg hi]
    cases after with
    | ret e => exact h.goto hpc (hsize hreached hi) trivial (fun _ => rfl) (fun _ => rfl) hquiet
    | close => exact h.goto hpc (hsize hreached hi) trivial id id hquiet
  | sawErr he hi => exact h.goto hpc rfl trivial id id hquiet
  | sawNoErr he hi => exact h.goto hpc rfl hi id id hquiet
  | producedAll hi => exact h.goto hpc (hsize hreached hi) trivial id id hquiet
  | sawDone hc => exact h.goto hpc rfl trivial id id hquiet
  | produced hc => exact h.produced hpc
  | closed => exact h.closed hpc
  | joined hw =>
    exact h.goto hpc rfl trivial (fun _ => rfl) (fun _ => rfl) fun _ => h.joined hpc hw
  | ended => exact h.goto hpc rfl trivial (fun _ => rfl) (fun _ => rfl) hquiet
  | _ => cases hreached

end Drive

section Worker

variable {out : List Decision} {n : Nat}

-- A worker moves on with what it holds, the channel and the fates in balance.
theorem Partition.moved (h : Partition u k s out) (hn : n < u.workers s.round)
    {pc : WorkerPc} {more : List Decision} (hf : WorkerFrame s t)
    (hclosed : t.closed = s.closed) (hworker : t.worker = Function.update s.worker n pc)
    (hbalance : ∀ i, fates k more i + t.jobs.count i + pc.holds i =
      s.jobs.count i + (s.worker n).holds i)
    (hexited : pc = .exited → s.closed = true ∧ s.jobs = [])
    (hnil : s.jobs = [] → t.jobs = [] ∧ ((s.worker n).held = none → pc.held = none)) :
    Partition u k t (out ++ more) := by
  obtain ⟨r, hreached, hle, hcount⟩ := h.balance
  refine ⟨hf.round.trans h.round, ⟨r, by rwa [hf.pc], hle, fun i => ?_⟩,
    by rw [hf.pc]; exact h.within, by rw [hclosed, hf.pc]; exact h.closing, fun m hm => ?_,
    fun ha => ?_, by rw [hf.pc]; exact h.crew⟩
  · have hload := load_setWorker hn pc i
    have hi := hcount i
    have hmore := hbalance i
    rw [fates_append]
    simp only [State.setWorker, State.load, hf.round, hworker] at hload hi ⊢
    omega
  · rw [hworker] at hm
    rw [hclosed]
    obtain ⟨-, hself⟩ | ⟨-, hother⟩ := Lib.Parties.update_cases hm
    · exact ⟨(hexited hself).1, (hnil (hexited hself).2).1⟩
    · exact ⟨(h.exited m hother).1, (hnil (h.exited m hother).2).1⟩
  · obtain ⟨hjobs, hquiet⟩ := h.alone (hf.pc ▸ ha)
    refine ⟨(hnil hjobs).1, fun m hm => ?_⟩
    rw [hworker]
    by_cases hmn : m = n
    · subst hmn
      rw [Function.update_self]
      exact (hnil hjobs).2 (hquiet m hm)
    · rw [Function.update_of_ne hmn]
      exact hquiet m hm

section Same

variable {pc : WorkerPc} (h : Partition u k s out) (hn : n < u.workers s.round)
  (hf : WorkerFrame s t) (hclosed : t.closed = s.closed) (hjobs : t.jobs = s.jobs)
  (hworker : t.worker = Function.update s.worker n pc)
  (hexited : pc = .exited → s.closed = true ∧ s.jobs = [])

include h hn hf hclosed hjobs hworker hexited

-- It keeps its message.
theorem Partition.kept (hheld : pc.held = (s.worker n).held) : Partition u k t (out ++ []) := by
  refine h.moved hn hf hclosed hworker (fun i => ?_) hexited fun hnil =>
    ⟨hjobs.trans hnil, hheld.trans⟩
  rw [fates_nil, hjobs, Nat.zero_add, WorkerPc.holds, WorkerPc.holds, hheld]

-- It decides the fate of its message.
theorem Partition.disposed {fate : Fate} {i : Nat} (hheld : (s.worker n).held = some i)
    (hnone : pc.held = none) : Partition u k t (out ++ [⟨fate, k, i⟩]) := by
  refine h.moved hn hf hclosed hworker (fun j => ?_) hexited fun hnil =>
    ⟨hjobs.trans hnil, fun _ => hnone⟩
  simp only [fates_singleton, hjobs, WorkerPc.holds, hheld, hnone, Option.some.injEq,
    reduceCtorEq, if_false, eq_comm (a := i)]
  omega

end Same

theorem Partition.worker (h : Partition u k s out) (hn : n < u.workers s.round)
    (hmove : WorkerMove u s n (s.worker n) t) :
    Partition u k t (out ++ workerDecisions k (s.worker n)) := by
  have hf := hmove.frame
  generalize hpc : s.worker n = pc at hmove ⊢
  have hheld : (s.worker n).held = pc.held := congrArg WorkerPc.held hpc
  cases hmove with
  | @received i rest hj =>
    refine h.moved hn hf rfl rfl (fun j => ?_) nofun fun hnil => ?_
    · simp only [workerDecisions, fates_nil, hj, hpc, List.count_cons, WorkerPc.holds,
        WorkerPc.held, Option.some.injEq, beq_iff_eq, reduceCtorEq, if_false, State.setWorker]
      omega
    · rw [hj] at hnil
      cases hnil
  | exited hj hc => exact h.kept hn hf rfl rfl rfl (fun _ => ⟨hc, hj⟩) hheld.symm
  | stopped hc => exact h.kept hn hf rfl rfl rfl nofun hheld.symm
  | checked hc => exact h.kept hn hf rfl rfl rfl nofun hheld.symm
  | nakked => exact h.disposed hn hf rfl rfl rfl nofun hheld rfl
  | handled hd => exact h.disposed hn hf rfl rfl rfl nofun hheld rfl
  | failed hd => exact h.disposed hn hf rfl rfl rfl nofun hheld rfl
  | recorded => exact h.kept hn hf rfl rfl rfl nofun hheld.symm

-- processBatch leaves nothing undecided.
theorem Partition.fates_of_returned (h : Partition u k s out) {err : Option GoError}
    (hret : s.pc = .returned err) {i : Nat} (hi : i < u.size k) : fates k out i = 1 := by
  obtain ⟨r, hr, -, hcount⟩ := h.balance
  obtain ⟨hjobs, hheld⟩ := h.alone (by rw [hret]; rfl)
  have hload : s.load u i = 0 := by
    refine Finset.sum_eq_zero fun n hn => ?_
    rw [Finset.mem_range, h.round] at hn
    rw [WorkerPc.holds, hheld n hn, if_neg (Option.some_ne_none i).symm]
  rw [hret, Pc.reached, Option.some.injEq] at hr
  have htotal := hcount i
  rwa [hjobs, List.count_nil, hload, ← hr, if_pos hi] at htotal

-- A message that a worker holds is undecided.
theorem Partition.held (h : Partition u k s out) (hn : n < u.workers s.round) {i : Nat}
    (hheld : (s.worker n).held = some i) :
    fates k out i = 0 ∧ ∃ r, s.pc.reached (u.size k) = some r ∧ i < r := by
  obtain ⟨r, hr, -, hcount⟩ := h.balance
  have hone : (s.worker n).holds i ≤ s.load u i :=
    Finset.single_le_sum (f := fun n => (s.worker n).holds i) (fun _ _ => Nat.zero_le _)
      (Finset.mem_range.mpr hn)
  rw [WorkerPc.holds, if_pos hheld] at hone
  have htotal := hcount i
  split_ifs at htotal with hi
  · exact ⟨by omega, r, hr, hi⟩
  · omega

end Worker

-- The batches of a consumer that never calls the pool.
structure Unpooled [DecidableEq Q] [Fintype W] (s : State Q W S) : Prop where
  calls : Calls s
  unaccepted : ∀ c, ¬ Accepted s c

theorem publishing_of_reached {size r : Nat} (h : s.pc.reached size = some r) :
    s.publishing = none := by
  unfold State.publishing
  generalize s.pc = pc at h
  cases pc <;> first | rfl | cases h

section Steps

variable [DecidableEq Q] [DecidableEq W] [DecidableEq S] [Fintype W]

theorem Unpooled.step {a : Act Q W S} (hs : Unpooled s) (hquiet : s.publishing = none)
    (h : step u s a = some t) : Unpooled t := by
  refine ⟨hs.calls.step h, fun c => ?_⟩
  have hpub : s.publishing ≠ some c := by
    rw [hquiet]
    exact (Option.some_ne_none c).symm
  cases a with
  | drive viaCtx =>
    unfold Accepted
    rw [(driveStep_move h).frame.pool]
    exact hs.unaccepted c
  | worker n =>
    simp only [Pull.step] at h
    split_ifs at h
    unfold Accepted
    rw [(workerStep_move h).frame.pool]
    exact hs.unaccepted c
  | job call =>
    unfold Accepted
    rw [(jobStep_frame h).pool]
    exact hs.unaccepted c
  | pool act =>
    rw [poolStep_accepted_iff h hpub]
    exact hs.unaccepted c
  | cancel err =>
    simp only [Pull.step, cancelStep] at h
    split_ifs at h
    cases h
    exact hs.unaccepted c

theorem Partition.step {a : Act Q W S} {out : List Decision} (h : Partition u k s out)
    (hs : Unpooled s) (hstep : Pull.step u s a = some t) :
    Partition u k t (out ++ decisions u s a) := by
  cases a with
  | drive viaCtx =>
    have hmoved := h.drive (driveStep_move hstep)
    rwa [← h.round] at hmoved ⊢
  | worker n =>
    simp only [Pull.step] at hstep
    split_ifs at hstep with hn
    have hmoved := h.worker hn (workerStep_move hstep)
    rwa [← h.round] at hmoved ⊢
  | job call =>
    have hunborn := hs.calls.unborn_of_not_accepted (hs.unaccepted call)
    simp [Pull.step, jobStep, hunborn] at hstep
  | pool act =>
    obtain ⟨-, pool, -, rfl⟩ := poolStep_eq hstep
    rw [decisions, List.append_nil]
    exact h.of_eq rfl rfl rfl rfl rfl
  | cancel err =>
    simp only [Pull.step, cancelStep] at hstep
    split_ifs at hstep
    cases hstep
    rw [decisions, List.append_nil]
    exact h.of_eq rfl rfl rfl rfl rfl

theorem partition_run {out : List Decision} {acts : List (Act Q W S)} (h : Partition u k s out)
    (hs : Unpooled s) (hexec : exec (Pull.step u) s acts = some t) :
    Partition u k t (out ++ outputs (Pull.step u) (decisions u) s acts) ∧ Unpooled t := by
  refine outputs_invariant (P := fun s out => Partition u k s out ∧ Unpooled s) ?_ hexec ⟨h, hs⟩
  rintro s a t out ⟨hpart, hunpooled⟩ hstep
  obtain ⟨r, hreached, -, -⟩ := hpart.balance
  exact ⟨hpart.step hunpooled hstep, hunpooled.step (publishing_of_reached hreached) hstep⟩

end Steps

section Start

-- A batch that begins at a given step of processBatch.
def State.enter (s : State Q W S) (k : Nat) (pc : Pc) : State Q W S :=
  { s with round := k, pc := pc, jobs := [], closed := false, worker := fun _ => .recv }

theorem partition_enter (s : State Q W S) {pc : Pc} (hreached : pc.reached (u.size k) = some 0)
    (hwithin : pc.within (u.size k))
    (hcrew : pc.alone = true ∨ 0 < u.workers k ∨ u.size k = 0) :
    Partition u k (s.enter k pc) [] where
  round := rfl
  balance := ⟨0, hreached, Nat.zero_le _, fun i => by
    simp [State.load, State.enter, WorkerPc.holds, WorkerPc.held]⟩
  within := hwithin
  closing hc := by cases hc
  exited n hn := by cases hn
  alone _ := ⟨rfl, fun _ _ => rfl⟩
  crew := hcrew

theorem workers_pos (hsize : u.size k ≠ 0) (hc : 1 < u.concurrency) : 0 < u.workers k := by
  unfold Setup.workers
  split_ifs <;> omega

theorem partition_begin (hpool : u.consumer.cfg.workerPoolEnabled = false) (s : State Q W S)
    (k : Nat) : Partition u k (s.begin u k) [] := by
  have hbegin : s.begin u k = s.enter k (u.startPc k) := rfl
  rw [hbegin]
  unfold Setup.startPc Setup.concurrentPc
  simp only [hpool, Bool.false_eq_true, if_false]
  split_ifs with hsize hc hfew
  · exact partition_enter s (by rw [Pc.reached, hsize]) trivial (.inl rfl)
  · omega
  · exact partition_enter s rfl trivial (.inr (.inl (workers_pos hsize hc)))
  · exact partition_enter s rfl trivial (.inl rfl)

theorem Unpooled.enter [DecidableEq Q] [Fintype W] (hs : Unpooled s) (hquiet : s.publishing = none)
    (k : Nat) (pc : Pc) : Unpooled (s.enter k pc) := by
  refine ⟨⟨hs.calls.traced, hs.calls.invoked, fun c _ => hs.calls.ended c ?_, hs.calls.unrefused⟩,
    hs.unaccepted⟩
  rw [hquiet]
  exact (Option.some_ne_none c).symm

end Start

section Runs

variable {Q S : Type} [DecidableEq Q] {u : Setup Q}

theorem unpooled_idle : Unpooled (idle u : State Q _ S) := by
  refine ⟨⟨fun q => ?_, fun c => ?_, fun c _ => .inl rfl, fun c _ => rfl⟩, fun c => ?_⟩
  · simp [idle, WorkerPool.initial, WorkerPool.PubPc.accepted, WorkerPool.WorkPc.token?,
      WorkerPool.carries]
  · simp [idle, WorkerPool.initial]
  · simp [Accepted, idle, WorkerPool.initial, WorkerPool.PubPc.accepted]

variable [DecidableEq S]

-- The states between the batches of a consumer.
inductive Between (u : Setup Q) :
    State Q (Fin (WorkerPool.poolLen u.consumer.cfg.poolSize)) S → Prop
  | idle : Between u (idle u)
  | batch {s t k acts err} (h : Between u s)
      (hexec : exec (step u) (s.begin u k) acts = some t) (hret : t.pc = .returned err) :
      Between u t

theorem Between.unpooled (hpool : u.consumer.cfg.workerPoolEnabled = false)
    {s : State Q _ S} (h : Between u s) : Unpooled s ∧ s.publishing = none := by
  induction h with
  | idle => exact ⟨unpooled_idle, rfl⟩
  | @batch s t k acts err hs hexec hret ih =>
    have hstart : Unpooled (s.begin u k) := ih.1.enter ih.2 k (u.startPc k)
    refine ⟨(partition_run (partition_begin hpool s k) hstart hexec).2, ?_⟩
    simp [State.publishing, hret]

end Runs

-- Two messages for two workers.
def twoMessages : Setup Empty :=
  { oneMessage with concurrency := 2, size := fun _ => 2 }

abbrev NoPool : Type := Fin (WorkerPool.poolLen oneMessage.consumer.cfg.poolSize)

-- A worker is about to process the first message when the context is cancelled.
def cancelledRun : List (Act Empty NoPool Empty) :=
  [.drive false, .drive false, .worker 0, .worker 0, .cancel (.sentinel .canceled)] ++
    List.replicate 5 (.drive false) ++ [.worker 0, .worker 0, .worker 1, .drive false, .drive false]

end NatsClient.Pull
