import NatsClient.Process.Theorems
import NatsClient.Supervisor

namespace NatsClient.Supervisor

open Lib.Machine

variable {Q W S : Type} [DecidableEq Q] [DecidableEq W] [DecidableEq S] {cfg : SupervisorConfig}
  {u : Process.Setup Q} {s t : State Q W S} {a : Act Q W S}

-- The context is not done, nobody stops the pool, and Pull succeeds.
def Act.alive : Act Q W S → Bool
  | .pull err => err.isNone
  | .process act => act.alive
  | _ => true

def aliveStep (cfg : SupervisorConfig) (u : Process.Setup Q) (s : State Q W S)
    (a : Act Q W S) : Option (State Q W S) :=
  if a.alive then step cfg u s a else none

def Mild (s : State Q W S) : Act Q W S → Prop
  | .process act => Process.Mild s.proc act
  | _ => True

-- Process runs and the supervisor waits for it.
structure Supervising (s : State Q W S) : Prop where
  running : Process.Running s.proc
  waits : s.pc = .pull ∨ s.pc = .process

theorem Supervising.step (hfetch : Process.IdleFetches u) (hs : Supervising s) (hm : Mild s a)
    (h : aliveStep cfg u s a = some t) : Supervising t := by
  unfold aliveStep at h
  split_ifs at h with ha
  have hbackoff : s.pc ≠ .backoff := by rcases hs.waits with hpc | hpc <;> simp [hpc]
  cases a with
  | pull err =>
    simp only [Supervisor.step] at h
    split at h
    · cases h
      exact ⟨⟨hs.running.ctx, hs.running.fine, by simp⟩, .inr rfl⟩
    · cases ha
    · cases h
  | process act =>
    simp only [Supervisor.step] at h
    split_ifs at h
    obtain ⟨proc, hproc, rfl⟩ := Option.map_eq_some_iff.mp h
    have halive : Process.aliveStep u s.proc act = some proc := (if_pos ha).trans hproc
    exact ⟨hs.running.step hfetch hm halive, hs.waits⟩
  | observe =>
    simp only [Supervisor.step] at h
    split at h
    · next e _ he => exact absurd he (hs.running.stays e)
    · cases h
  | timer =>
    simp only [Supervisor.step] at h
    split_ifs at h with hpc
    exact absurd hpc hbackoff
  | ctxDone =>
    simp only [Supervisor.step] at h
    split at h
    · next hpc _ => exact absurd hpc hbackoff
    · cases h

-- With a live context, a pool that nobody stops and no Fetch that fails: Process does not
-- return as long as no pool batch ends with a fatal error, and fetches no more once one
-- has. Without a pool, or without fatal errors from the handlers, no batch ever ends so.
-- SupervisePullProcess goes on as Process does.
theorem process_keeps_fetching (cfg : SupervisorConfig) (u : Process.Setup Q)
    (hfetch : Process.IdleFetches u) :
    (∀ (acts : List (Process.Act Q (Fin (WorkerPool.poolLen u.consumer.cfg.poolSize)) S)) s,
      exec (Process.aliveStep u) (Process.initial u) acts = some s →
        (Along (Process.aliveStep u) Process.Mild (Process.initial u) acts →
          ∀ e, s.pc ≠ .returned e) ∧
        (¬ Along (Process.aliveStep u) Process.Mild (Process.initial u) acts →
          ∀ t, Reaches (Process.aliveStep u) s t → t.pc ≠ .top ∧ t.pc ≠ .fetch) ∧
        (u.consumer.cfg.workerPoolEnabled = false ∨ Process.Tame u.toSetup →
          Along (Process.aliveStep u) Process.Mild (Process.initial u) acts)) ∧
    ∀ (acts : List (Act Q (Fin (WorkerPool.poolLen u.consumer.cfg.poolSize)) S)) s,
      exec (aliveStep cfg u) (initial cfg u) acts = some s →
        Along (aliveStep cfg u) Mild (initial cfg u) acts → ∀ e, s.pc ≠ .returned e := by
  refine ⟨fun acts s hexec => ⟨?_, ?_, fun h => Process.along_mild h acts⟩, ?_⟩
  · intro halong
    exact (Process.running_of_along hfetch halong hexec).stays
  · intro hnot t ht
    have hdoomed : Process.Doomed t :=
      Reaches.invariant (fun _ _ _ hd hs => hd.step (Process.aliveStep_eq hs).2) ht
        (Process.doomed_of_not_along hexec hnot)
    rcases hdoomed with ⟨hpc, -⟩ | ⟨e, hpc⟩ <;> simp [hpc]
  · intro acts s hexec halong e hpc
    have hs : Supervising s :=
      halong.invariant (fun _ _ _ hs hm hstep => hs.step hfetch hm hstep) hexec
        ⟨Process.running_initial, .inl rfl⟩
    rcases hs.waits with hpc' | hpc' <;> simp [hpc'] at hpc

-- One message a batch, processed by a pool with one worker, and a handler that fails.
def failingHandler (err : GoError) : Process.Setup Empty where
  path := .v2
  consumer := ⟨⟨1, 1, true, false⟩, .block, none⟩
  comp := ⟨⟨.ok, fun data => (data, none)⟩, ⟨.ok, fun data => (data, none)⟩⟩
  concurrency := 1
  size _ := 1
  jet _ _ := ⟨"orders.new", "$JS.ACK.1", ∅, []⟩
  outcome _ _ := .returned (some err)
  wire _ _ := ⟨fun _ => none, fun _ => none⟩
  others q := q.elim
  fetchErr _ := none

-- One Fetch and the batch that it returns.
def oneBatch : List (Process.Act Empty (Fin 1) Empty) :=
  [.loop, .loop, Process.Act.batch (.drive false)] ++
    List.replicate 13 (Process.Act.batch (.pool (.publish (.inl ⟨0, 0, false⟩) .go))) ++
    [.batch (.drive false), Process.Act.batch (.drive false)] ++
    List.replicate 7 (Process.Act.batch (.pool (.work (Fin.last 0) .go))) ++
    [.batch (.job ⟨0, 0, false⟩), Process.Act.batch (.job ⟨0, 0, false⟩)] ++
    List.replicate 4 (Process.Act.batch (.drive false)) ++ [Process.Act.loop]

def plainErr : GoError := .foreign "connection refused" []

def canceledErr : GoError := .wrap "query orders: " (.sentinel .canceled) ""

theorem process_keeps_fetching_plain :
    ∃ s : Process.State Empty (Fin (WorkerPool.poolLen 1)) Empty,
      exec (Process.aliveStep (failingHandler plainErr))
        (Process.initial (failingHandler plainErr)) oneBatch = some s ∧ s.pc = .top ∧
      Along (Process.aliveStep (failingHandler plainErr)) Process.Mild
        (Process.initial (failingHandler plainErr)) oneBatch := by
  obtain ⟨s, hexec, htop⟩ : ∃ s : Process.State Empty (Fin (WorkerPool.poolLen 1)) Empty,
      exec (Process.aliveStep (failingHandler plainErr))
        (Process.initial (failingHandler plainErr)) oneBatch = some s ∧ s.pc = .top :=
    ⟨_, rfl, rfl⟩
  refine ⟨s, hexec, htop, ?_⟩
  by_contra hnot
  have hkeeps := process_keeps_fetching (S := Empty) ⟨0, 0, 0, false⟩ (failingHandler plainErr)
    (by rintro k e ⟨⟩)
  exact ((hkeeps.1 oneBatch s hexec).2.1 hnot s (.refl s)).1 htop

-- A handler that passes on the error of some canceled query of its own ends Process, and
-- the supervisor with it, under a live context and a running pool.
theorem process_ended_by_handler :
    ∃ (s : State Empty (Fin (WorkerPool.poolLen 1)) Empty) (e : GoError),
      exec (aliveStep ⟨0, 0, 0, false⟩ (failingHandler canceledErr))
        (initial ⟨0, 0, 0, false⟩ (failingHandler canceledErr))
        (.pull none :: oneBatch.map .process ++ [.observe]) = some s ∧
      s.pc = .returned e ∧ s.proc.pc = .returned e ∧ s.proc.batch.ctxErr = none ∧
      s.proc.batch.pool.shared.flag = .running :=
  ⟨_, _, rfl, rfl, rfl, rfl, rfl⟩

end NatsClient.Supervisor
