import NatsClient.Lib.Machine
import NatsClient.Pull.Theorems
import NatsClient.PullV2.Moves

namespace NatsClient.PullV2

open Lib.Machine

variable {Q W S : Type} {u : Setup Q} {s t : State Q W S}

-- The messages of the batch under way that Fetch is about to give to Process.
def Pc.out : Pc → Nat
  | range i => i
  | check i => i + 1
  | drained n | fetched n none => n
  | _ => 0

-- Every message taken so far has been handed on or is on its way.
def Kept (s : State Q W S) : Prop :=
  ∀ m ∈ s.taken, m ∈ s.handed ∨ m.1 = s.next ∧ m.2 < s.pc.out

theorem Kept.all_handed (h : Kept s) (hout : s.pc.out = 0) : ∀ m ∈ s.taken, m ∈ s.handed := by
  intro m hm
  obtain hm | ⟨-, hlt⟩ := h m hm
  · exact hm
  · rw [hout] at hlt
    exact absurd hlt (Nat.not_lt_zero _)

theorem Kept.goto {pc : Pc} (h : Kept s) (hle : s.pc.out ≤ pc.out) : Kept (s.goto pc) := by
  intro m hm
  obtain hm | ⟨hnext, hlt⟩ := h m hm
  · exact .inl hm
  · exact .inr ⟨hnext, hlt.trans_le hle⟩

theorem Kept.of_all_handed (htaken : ∀ m ∈ s.taken, m ∈ s.handed) : Kept s :=
  fun m hm => .inl (htaken m hm)

theorem Kept.took (h : Kept s) {i : Nat} (hpc : s.pc = .range i) :
    Kept ({ s with taken := s.taken ++ [(s.next, i)] }.goto (.check i)) := by
  intro m hm
  obtain hm | hm := List.mem_append.mp hm
  · obtain hm | ⟨hnext, hlt⟩ := h m hm
    · exact .inl hm
    · rw [hpc] at hlt
      exact .inr ⟨hnext, Nat.lt_succ_of_lt hlt⟩
  · rw [List.mem_singleton.mp hm]
    exact .inr ⟨rfl, Nat.lt_succ_self i⟩

theorem Kept.hand (h : Kept s) {n : Nat} (hpc : s.pc = .fetched n none) : Kept (s.hand u n) := by
  refine .of_all_handed fun m hm => ?_
  obtain hm | ⟨hnext, hlt⟩ := h m hm
  · exact List.mem_append_left _ hm
  · rw [hpc] at hlt
    exact List.mem_append_right _ (List.mem_map.mpr ⟨m.2, List.mem_range.mpr hlt, by rw [← hnext]⟩)

theorem drainedErr_eq_some {k n : Nat} {e : GoError} (h : u.drainedErr k n = some e) : n = 0 := by
  unfold Setup.drainedErr at h
  split at h
  · by_contra hn
    rw [if_neg hn] at h
    cases h
  · cases h

theorem out_drained (u : Setup Q) (k n : Nat) :
    (Pc.drained n).out ≤ (Pc.fetched n (u.drainedErr k n)).out := by
  cases h : u.drainedErr k n with
  | none => exact Nat.le_refl n
  | some e =>
    rw [drainedErr_eq_some h]
    exact Nat.zero_le _

-- Fetch has a message in its hand that is not in `out`.
def Pc.holding : Pc → Bool
  | check _ => true
  | _ => false

theorem Pc.eq_check_of_holding {pc : Pc} (h : pc.holding = true) : ∃ i, pc = .check i := by
  cases pc with
  | check i => exact ⟨i, rfl⟩
  | _ => cases h

-- The context is not done when Fetch looks at it with a message in its hand.
def Patient (s : State Q W S) : Act Q W S → Prop
  | .loop => s.pc.holding = true → s.batch.ctxErr = none
  | _ => True

instance (s : State Q W S) : (act : Act Q W S) → Decidable (Patient s act)
  | .loop => inferInstanceAs (Decidable (_ → _))
  | .pause | .resume | .close | .batch _ => isTrue trivial

theorem Kept.loop (h : Kept s) (hp : s.pc.holding = true → s.batch.ctxErr = none)
    (hstep : loopStep u s = some t) : Kept t := by
  have hmove := loopStep_move hstep
  have hall := h.all_handed
  generalize hpc : s.pc = pc at hmove
  cases hmove with
  | took lt => exact h.took hpc
  | drained ge => exact h.goto (by rw [hpc]; exact Nat.le_refl _)
  | interrupted ctx =>
    rw [hp (by rw [hpc]; rfl)] at ctx
    cases ctx
  | kept ctx => exact h.goto (by rw [hpc]; exact Nat.le_refl _)
  | fetched => exact h.goto (by rw [hpc]; exact out_drained u _ _)
  | handed pos => exact h.hand hpc
  | _ => exact .of_all_handed (hall (by rw [hpc]; rfl))

-- Process is on its way out.
def Pc.leaving : Pc → Prop
  | nak _ _ _ | returned _ => True
  | _ => False

-- What Process has done with the messages of the batch under way: nothing, as long as it is
-- not leaving.
structure Fresh (s : State Q W S) : Prop where
  handed : ∀ m ∈ s.handed, m.1 < s.next
  nakked : ¬ s.pc.leaving → s.nakked = []
  taken : ∀ i, s.pc = .check i → (s.next, i) ∈ s.taken

theorem Fresh.goto {pc : Pc} (h : Fresh s) (hleaving : s.pc.leaving → pc.leaving)
    (hcheck : ∀ i, pc ≠ .check i) : Fresh (s.goto pc) :=
  ⟨h.handed, fun hpc => h.nakked fun hs => hpc (hleaving hs), fun i hpc => absurd hpc (hcheck i)⟩

theorem Fresh.again (h : Fresh s) (hleaving : ¬ s.pc.leaving) : Fresh s.again :=
  ⟨fun m hm => Nat.lt_succ_of_lt (h.handed m hm), fun _ => h.nakked hleaving, nofun⟩

theorem Fresh.hand (h : Fresh s) (hleaving : ¬ s.pc.leaving) (n : Nat) : Fresh (s.hand u n) := by
  refine ⟨fun m hm => ?_, fun _ => h.nakked hleaving, nofun⟩
  obtain hm | hm := List.mem_append.mp hm
  · exact Nat.lt_succ_of_lt (h.handed m hm)
  · obtain ⟨i, -, rfl⟩ := List.mem_map.mp hm
    exact Nat.lt_succ_self s.next

theorem Fresh.loop (h : Fresh s) (hstep : loopStep u s = some t) : Fresh t := by
  have hmove := loopStep_move hstep
  generalize hpc : s.pc = pc at hmove
  cases hmove with
  | @took i lt =>
    refine ⟨h.handed, fun _ => h.nakked (by rw [hpc]; exact id), fun j hj => ?_⟩
    obtain rfl : i = j := Pc.check.inj hj
    exact List.mem_append_right _ (List.mem_singleton.mpr rfl)
  | empty => exact h.again (by rw [hpc]; exact id)
  | skipped verdict => exact h.again (by rw [hpc]; exact id)
  | @handed n pos => exact h.hand (by rw [hpc]; exact id) n
  | nakked lt => exact ⟨h.handed, fun hleaving => absurd trivial hleaving, nofun⟩
  | nakkedAll ge => exact h.goto (fun _ => trivial) nofun
  | _ => exact h.goto (by rw [hpc]; exact False.elim) nofun

-- The first messages that go along when Process leaves.
def Pc.spares (i : Nat) : Pc → Prop
  | fetched n (some _) | nak _ n _ => n ≤ i
  | returned _ => True
  | _ => False

-- A message that was taken and that nobody will see again.
structure Lost (s : State Q W S) (m : Nat × Nat) : Prop where
  taken : m ∈ s.taken
  handed : m ∉ s.handed
  nakked : m ∉ s.nakked
  past : m.1 < s.next ∨ m.1 = s.next ∧ s.pc.spares m.2

variable {m : Nat × Nat}

theorem Lost.goto {pc : Pc} (h : Lost s m) (hpc : s.pc.spares m.2 → pc.spares m.2) :
    Lost (s.goto pc) m :=
  ⟨h.taken, h.handed, h.nakked, h.past.imp_right fun ⟨hnext, hs⟩ => ⟨hnext, hpc hs⟩⟩

theorem Lost.again (h : Lost s m) : Lost s.again m := by
  refine ⟨h.taken, h.handed, h.nakked, .inl ?_⟩
  obtain hlt | ⟨heq, -⟩ := h.past
  · exact Nat.lt_succ_of_lt hlt
  · exact heq ▸ Nat.lt_succ_self s.next

theorem Lost.hand (h : Lost s m) {n : Nat} (hpc : s.pc = .fetched n none) :
    Lost (s.hand u n) m := by
  obtain hlt | ⟨-, hs⟩ := h.past
  · refine ⟨h.taken, fun hm => ?_, h.nakked, .inl (Nat.lt_succ_of_lt hlt)⟩
    obtain hm | hm := List.mem_append.mp hm
    · exact h.handed hm
    · obtain ⟨i, -, rfl⟩ := List.mem_map.mp hm
      exact Nat.lt_irrefl _ hlt
  · rw [hpc] at hs
    exact hs.elim

theorem Lost.nak (h : Lost s m) {i n : Nat} {e : GoError} (hpc : s.pc = .nak i n e) (hi : i < n) :
    Lost ((s.nak u i).goto (.nak (i + 1) n e)) m := by
  have hpast : m.1 < s.next ∨ m.1 = s.next ∧ n ≤ m.2 := by
    have hpast := h.past
    rwa [hpc] at hpast
  refine ⟨h.taken, h.handed, fun hm => ?_, hpast⟩
  obtain hm | hm := List.mem_append.mp hm
  · exact h.nakked hm
  · rw [List.mem_singleton.mp hm] at hpast
    obtain hlt | ⟨-, hle⟩ := hpast
    · exact Nat.lt_irrefl _ hlt
    · exact absurd hle (Nat.not_le.mpr hi)

theorem Lost.loop (h : Lost s m) (hstep : loopStep u s = some t) : Lost t m := by
  have hmove := loopStep_move hstep
  generalize hpc : s.pc = pc at hmove
  cases hmove with
  | took lt =>
    refine ⟨List.mem_append_left _ h.taken, h.handed, h.nakked, ?_⟩
    have hpast := h.past
    rw [hpc] at hpast
    exact hpast
  | empty => exact h.again
  | skipped verdict => exact h.again
  | handed pos => exact h.hand hpc
  | nakking verdict => exact h.goto (by rw [hpc]; exact id)
  | nakked lt => exact h.nak hpc lt
  | failed verdict => exact h.goto fun _ => trivial
  | nakkedAll ge => exact h.goto fun _ => trivial
  | _ => exact h.goto (by rw [hpc]; exact False.elim)

-- With the context done, the message that Fetch has in its hand is in nobody's.
theorem lost_of_interrupted (h : Fresh s) {i : Nat} {e : GoError} (hpc : s.pc = .check i)
    (hctx : s.batch.ctxErr = some e) (hstep : loopStep u s = some t) : Lost t (s.next, i) := by
  simp only [loopStep, hpc, hctx, Option.some.injEq] at hstep
  subst hstep
  refine ⟨h.taken i hpc, fun hm => ?_, fun hm => ?_, .inr ⟨rfl, Nat.le_refl i⟩⟩
  · exact Nat.lt_irrefl _ (h.handed _ hm)
  · have hnakked : s.nakked = [] := h.nakked (by rw [hpc]; exact id)
    have hm : (s.next, i) ∈ s.nakked := hm
    rw [hnakked] at hm
    cases hm

variable [DecidableEq Q] [DecidableEq W] [DecidableEq S] {act : Act Q W S}

theorem Kept.step (h : Kept s) (hp : Patient s act) (hstep : step u s act = some t) : Kept t := by
  obtain ⟨rfl, hloop⟩ | haside := step_move hstep
  · exact h.loop hp hloop
  · cases haside with
    | paused pc => exact h.goto (by rw [pc]; exact Nat.le_refl _)
    | resumed pc => exact h.goto (by rw [pc]; exact Nat.le_refl _)
    | other closed batch => exact h

theorem Fresh.step (h : Fresh s) (hstep : step u s act = some t) : Fresh t := by
  obtain ⟨-, hloop⟩ | haside := step_move hstep
  · exact h.loop hloop
  · cases haside with
    | paused pc => exact h.goto (by rw [pc]; exact False.elim) nofun
    | resumed pc => exact h.goto (by rw [pc]; exact False.elim) nofun
    | other closed batch => exact ⟨h.handed, h.nakked, h.taken⟩

theorem Lost.step (h : Lost s m) (hstep : step u s act = some t) : Lost t m := by
  obtain ⟨-, hloop⟩ | haside := step_move hstep
  · exact h.loop hloop
  · cases haside with
    | paused pc => exact h.goto (by rw [pc]; exact False.elim)
    | resumed pc => exact h.goto (by rw [pc]; exact False.elim)
    | other closed batch => exact ⟨h.taken, h.handed, h.nakked, h.past⟩

section Runs

variable {acts : List (Act Q (Fin (WorkerPool.poolLen u.consumer.cfg.poolSize)) S)}
  {s : State Q (Fin (WorkerPool.poolLen u.consumer.cfg.poolSize)) S}

theorem kept_of_along (hexec : exec (step u) (initial u) acts = some s)
    (halong : Along (step u) Patient (initial u) acts) : Kept s :=
  halong.invariant (fun _ _ _ h hp hstep => h.step hp hstep) hexec nofun

theorem lost_of_not_along (hexec : exec (step u) (initial u) acts = some s)
    (hnot : ¬ Along (step u) Patient (initial u) acts) : ∃ m, Lost s m := by
  obtain ⟨before, act, after, mid, next, -, hbefore, hhurried, hstep, hafter⟩ :=
    exists_violation hexec hnot
  have hfresh : Fresh mid :=
    Reaches.invariant (fun _ _ _ h hs => h.step hs) ⟨before, hbefore⟩ ⟨nofun, fun _ => rfl, nofun⟩
  cases act with
  | loop =>
    obtain ⟨hholding, hctx⟩ := Classical.not_imp.mp hhurried
    obtain ⟨i, hpc⟩ := Pc.eq_check_of_holding hholding
    obtain ⟨e, he⟩ := Option.ne_none_iff_exists'.mp hctx
    have hlost : Lost next (mid.next, i) := lost_of_interrupted hfresh hpc he hstep
    refine ⟨(mid.next, i), ?_⟩
    exact Reaches.invariant (P := fun s => Lost s (mid.next, i)) (fun _ _ _ h hs => h.step hs)
      ⟨after, hafter⟩ hlost
  | _ => exact absurd trivial hhurried

-- Process loses nothing exactly when its context is never done while Fetch has a message in its
-- hand.
theorem nothing_dropped_iff (u : Setup Q)
    (acts : List (Act Q (Fin (WorkerPool.poolLen u.consumer.cfg.poolSize)) S))
    (s : State Q (Fin (WorkerPool.poolLen u.consumer.cfg.poolSize)) S) (err : GoError)
    (hexec : exec (step u) (initial u) acts = some s) (hreturned : s.pc = .returned err) :
    (∀ m ∈ s.taken, m ∈ s.handed ∨ m ∈ s.nakked) ↔ Along (step u) Patient (initial u) acts := by
  constructor
  · intro hall
    by_contra hnot
    obtain ⟨m, hlost⟩ := lost_of_not_along hexec hnot
    obtain hm | hm := hall m hlost.taken
    · exact hlost.handed hm
    · exact hlost.nakked hm
  · intro halong m hm
    have hkept := kept_of_along hexec halong
    exact .inl (hkept.all_handed (by rw [hreturned]; rfl) m hm)

end Runs

-- The first Fetch brings two messages, the others none.
def twoFetched : Setup Empty where
  toSetup := { Pull.oneMessage with path := .v2, size := fun k => if k = 0 then 2 else 0 }
  path_eq := rfl
  fetchBatch _ := 2
  requestErr _ := none
  batchErr _ := none

abbrev Worker : Type := Fin (WorkerPool.poolLen twoFetched.consumer.cfg.poolSize)

-- The context is cancelled when both messages have been processed.
def patientRun : List (Act Empty Worker Empty) :=
  List.replicate 11 .loop ++ List.replicate 5 (.batch (.drive false)) ++
    [.loop, .batch (.cancel (.sentinel .canceled)), .loop]

theorem nothing_dropped_iff_patient :
    ∃ s : State Empty Worker Empty,
      exec (step twoFetched) (initial twoFetched) patientRun = some s ∧
        s.pc = .returned (Pull.processErr (.sentinel .canceled)) ∧ s.taken = [(0, 0), (0, 1)] ∧
        ∀ m ∈ s.taken, m ∈ s.handed ∨ m ∈ s.nakked := by
  refine ⟨_, rfl, rfl, rfl, ?_⟩
  refine (nothing_dropped_iff twoFetched patientRun _ _ rfl rfl).mpr ?_
  decide

-- The context is done once the second message has been taken.
def interruptedRun (err : GoError) (rest : Nat) : List (Act Empty Worker Empty) :=
  List.replicate 7 .loop ++ [.batch (.cancel err)] ++ List.replicate rest .loop

-- On a cancellation the second message is lost, on a deadline both are.
theorem messages_dropped :
    (exec (step twoFetched) (initial twoFetched) (interruptedRun (.sentinel .canceled) 4)).map
        (fun s => (s.pc, s.taken, s.handed, s.nakked)) =
      some (.returned (Pull.processErr (.sentinel .canceled)), [(0, 0), (0, 1)], [], [(0, 0)]) ∧
    (exec (step twoFetched) (initial twoFetched)
        (interruptedRun (.sentinel .deadlineExceeded) 3)).map
        (fun s => (s.pc, s.taken, s.handed, s.nakked)) =
      some (.returned (Pull.processErr (.sentinel .deadlineExceeded)), [(0, 0), (0, 1)], [], []) :=
  ⟨rfl, rfl⟩

end NatsClient.PullV2
