import NatsClient.WorkerPool.Clients
import NatsClient.WorkerPool.Invariants

namespace NatsClient.WorkerPool

open Lib.Machine

variable {C M F P W S : Type} {cfg : Config C M F P}
  [DecidableEq P] [DecidableEq W] [DecidableEq S] {s t : State C M F P W S}

-- The steps of a pool whose context only GracefulStop cancels.
def ownStep (cfg : Config C M F P) (s : State C M F P W S) (a : Act P W S) :
    Option (State C M F P W S) :=
  if a.isParent then none else step cfg s a

-- A property that every move keeps holds along every run.
theorem reaches_invariant {I : State C M F P W S → Prop}
    (hmove : ∀ s t, I s → Move cfg s t → I t) (h : Reaches (ownStep cfg) s t) (hs : I s) :
    I t := by
  refine h.invariant ?_ hs
  intro s a t hi ha
  unfold ownStep at ha
  split_ifs at ha with hp
  rcases step_move (by simpa using hp) ha with hm | ⟨mid, hm, hm'⟩
  · exact hmove s t hi hm
  · exact hmove mid t (hmove s mid hi hm) hm'

section Initial

variable [Fintype P] {workers : Nat}

omit [DecidableEq S] in
theorem inv_initial : Inv cfg (initial workers : State C M F P (Fin workers) S) where
  counters := by constructor <;> simp [initial, PubPc.counted, PubPc.queued, WorkPc.queued,
    WorkPc.running, WorkPc.alive]
  owned := by intro r; simp [initial, PubPc.ref?, WorkPc.ref?, holds, Shared.places]
  traced := by intro q; simp [initial, PubPc.accepted, WorkPc.token?, carries]
  faithful := by constructor <;> simp [initial, PubPc.filled?, WorkPc.token?]
  closing := by constructor <;> simp [initial, WorkPc.inDrain, WorkPc.sealed, WorkPc.drained,
    StopPc.waited]
  held := by simp [Held, initial]

theorem inv_of_reaches {s : State C M F P (Fin workers) S}
    (h : Reaches (ownStep cfg) (initial workers) s) : Inv cfg s :=
  reaches_invariant (fun _ _ hi hm => hi.move hm) h inv_initial

end Initial

-- The calls of a handler that the call p of tryPublish has led to.
def calls (s : State C M F P W S) (p : P) : List (Invocation C M F P) :=
  s.shared.log.filter fun call => call.origin = p

section Calls

omit [DecidableEq W] [DecidableEq S] in
theorem calls_eq_replicate (hf : Faithful cfg s) (p : P) :
    calls s p =
      List.replicate (s.shared.log.countP fun call => call.origin = p) (expected cfg p) := by
  rw [List.countP_eq_length_filter]
  refine List.eq_replicate_of_mem fun call hc => ?_
  obtain ⟨hmem, ho⟩ := List.mem_filter.mp hc
  rw [hf.log call hmem, of_decide_eq_true ho]

variable [Fintype W]

omit [DecidableEq W] [DecidableEq S] in
theorem calls_of_not_accepted (hf : Faithful cfg s) (ht : Traced s) {p : P}
    (hp : (s.pub p).accepted = false) : calls s p = [] := by
  have hq := ht p
  have hzero : (s.shared.log.countP fun call => call.origin = p) = 0 := by
    rw [hp] at hq
    simp only [Bool.toNat_false] at hq
    omega
  rw [calls_eq_replicate hf, hzero]
  rfl

omit [DecidableEq W] [DecidableEq S] in
theorem calls_at_most_once (hf : Faithful cfg s) (ht : Traced s) (p : P) :
    calls s p = [] ∨ calls s p = [expected cfg p] := by
  have hq := ht p
  have hle := Bool.toNat_le (s.pub p).accepted
  rw [calls_eq_replicate hf]
  generalize (s.shared.log.countP fun call => call.origin = p) = n at hq ⊢
  obtain rfl | rfl : n = 0 ∨ n = 1 := by omega
  · exact .inl rfl
  · exact .inr rfl

omit [DecidableEq W] [DecidableEq S] in
-- With all workers gone nothing is in the channel or in their hands.
theorem calls_of_accepted (hf : Faithful cfg s) (ht : Traced s) (hin : s.shared.input = [])
    (hgone : ∀ w, s.work w = .gone) {p : P} (hp : (s.pub p).accepted = true) :
    calls s p = [expected cfg p] := by
  have hq := ht p
  have hone : (s.shared.log.countP fun call => call.origin = p) = 1 := by
    simpa [hin, hgone, WorkPc.token?, carries, hp] using hq
  rw [calls_eq_replicate hf, hone]
  rfl

end Calls

section Stopped

-- GracefulStop is over.
structure Over (s : State C M F P W S) : Prop where
  flag : s.shared.flag ≠ .running
  gone : ∀ w, s.work w = .gone

omit [DecidableEq P] [DecidableEq W] [DecidableEq S] in
theorem Closing.over (hs : Closing s) {i : S} (hi : s.stop i = .returned) : Over s :=
  ⟨hs.begun i (by rw [hi]; simp), hs.closed (hs.returned i hi)⟩

theorem Over.move (hs : Over s) (h : Move cfg s t) : Over t ∧ t.shared.log = s.shared.log := by
  cases h with
  | publish h => exact ⟨⟨h.frame.flag ▸ hs.flag, hs.gone⟩, h.frame.log⟩
  | @work w _ _ h => exact absurd (hs.gone w) h.not_gone
  | stop h => exact ⟨⟨h.flag fun _ => hs.flag, hs.gone⟩, h.frame.log⟩
  | caller => exact ⟨⟨hs.flag, hs.gone⟩, rfl⟩

theorem Over.reaches (hs : Over s) (h : Reaches (ownStep cfg) s t) :
    Over t ∧ t.shared.log = s.shared.log :=
  reaches_invariant (I := fun u => Over u ∧ u.shared.log = s.shared.log)
    (fun _ _ hi hm => ⟨(hi.1.move hm).1, (hi.1.move hm).2.trans hi.2⟩) h ⟨hs, rfl⟩

-- A call of tryPublish that does not get past the gate.
def PubPc.turnedAway : PubPc → Bool
  | .idle | .gate => true
  | .leave result | .left _ result | .done result => result = .failed (.sentinel .errPoolStopped)
  | _ => false

omit [DecidableEq P] in
theorem PubMove.turnedAway {sh sh' : Shared C M F P} {p : P} {pc pc' : PubPc}
    (h : PubMove cfg sh p pc sh' pc') (hf : sh.flag ≠ .running) (hpc : pc.turnedAway = true) :
    pc'.turnedAway = true := by
  cases h with
  | passed h => exact absurd h hf
  | @finished _ _ next _ h => cases next <;> exact hpc
  | leaving => exact hpc
  | _ => first | rfl | cases hpc

theorem Over.turnedAway (hs : Over s) (h : Reaches (ownStep cfg) s t) {p : P}
    (hp : (s.pub p).turnedAway = true) : (t.pub p).turnedAway = true := by
  refine (reaches_invariant (I := fun u => Over u ∧ (u.pub p).turnedAway = true) ?_ h
    ⟨hs, hp⟩).2
  intro s t hi hm
  refine ⟨(hi.1.move hm).1, ?_⟩
  cases hm with
  | @publish q sh' pc' h =>
    simp only [State.setPub]
    by_cases hq : p = q
    · subst hq
      rw [Function.update_self]
      exact h.turnedAway hi.1.flag hi.2
    · rw [Function.update_of_ne hq]
      exact hi.2
  | work h => exact hi.2
  | stop h => exact hi.2
  | caller => exact hi.2

theorem reaches_held (hs : Held s) (h : Reaches (ownStep cfg) s t) : Held t :=
  reaches_invariant (fun _ _ hi hm => hi.move hm) h hs

theorem reaches_publish {p : P} {next : Shared C M F P × PubPc}
    (h : pubStep cfg s.shared p (s.pub p) .go = some next) :
    Reaches (ownStep cfg) s (s.setPub p next) :=
  Reaches.single (a := .publish p .go) (by simp [ownStep, Act.isParent, step, h])

theorem reaches_stop {i : S} {next : Shared C M F P × StopPc}
    (h : stopStep s.shared (s.stop i) = some next) :
    Reaches (ownStep cfg) s (s.setStop i next) :=
  Reaches.single (a := .stop i) (by simp [ownStep, Act.isParent, step, h])

-- Whoever holds the mutex can give it back, by two steps at most.
theorem exists_release_pub {q : P} (hq : (s.pub q).holdsLock = true) :
    ∃ t, Reaches (ownStep cfg) s t ∧ t.shared.locked = false ∧ ∀ p ≠ q, t.pub p = s.pub p := by
  have hunlock (u : State C M F P W S)
      (hu : u.pub q = .sent .unlock ∨ ∃ result, u.pub q = .left .unlock result) :
      ∃ t, Reaches (ownStep cfg) u t ∧ t.shared.locked = false ∧
        ∀ p ≠ q, t.pub p = u.pub p := by
    rcases hu with hpc | ⟨result, hpc⟩ <;>
      exact ⟨_, reaches_publish (by rw [hpc]; rfl), rfl,
        fun p hp => Function.update_of_ne hp _ _⟩
  have hbroadcast (pc' : PubPc)
      (hpc' : pc' = .sent .unlock ∨ ∃ result, pc' = .left .unlock result)
      (hstep : pubStep cfg s.shared q (s.pub q) .go =
        some ({ s.shared with notified := s.shared.waits }, pc')) :
      ∃ t, Reaches (ownStep cfg) s t ∧ t.shared.locked = false ∧
        ∀ p ≠ q, t.pub p = s.pub p := by
    have hnext : (s.setPub q ({ s.shared with notified := s.shared.waits }, pc')).pub q = pc' :=
      Function.update_self _ _ _
    obtain ⟨t, ht, hl, hother⟩ := hunlock _ (by rw [hnext]; exact hpc')
    exact ⟨t, (reaches_publish hstep).trans ht, hl, fun p hp =>
      (hother p hp).trans (Function.update_of_ne hp _ _)⟩
  cases hpc : s.pub q with
  | sent stage =>
    cases stage with
    | lock => rw [hpc] at hq; cases hq
    | broadcast => exact hbroadcast (.sent .unlock) (.inl rfl) (by rw [hpc]; rfl)
    | unlock => exact hunlock s (.inl hpc)
  | left stage result =>
    cases stage with
    | lock => rw [hpc] at hq; cases hq
    | broadcast => exact hbroadcast (.left .unlock result) (.inr ⟨_, rfl⟩) (by rw [hpc]; rfl)
    | unlock => exact hunlock s (.inr ⟨result, hpc⟩)
  | _ => rw [hpc] at hq; cases hq

theorem exists_release_stop {i : S} (hi : (s.stop i).holdsLock = true) :
    ∃ t, Reaches (ownStep cfg) s t ∧ t.shared.locked = false ∧ t.pub = s.pub := by
  have hunlock (u : State C M F P W S) (hu : u.stop i = .cancelled .unlock) :
      ∃ t, Reaches (ownStep cfg) u t ∧ t.shared.locked = false ∧ t.pub = u.pub :=
    ⟨_, reaches_stop (by rw [hu]; rfl), rfl, rfl⟩
  cases hpc : s.stop i with
  | cancelled stage =>
    cases stage with
    | lock => rw [hpc] at hi; cases hi
    | broadcast =>
      have hstep : stopStep s.shared (s.stop i) =
          some ({ s.shared with notified := s.shared.waits }, .cancelled .unlock) := by
        rw [hpc]; rfl
      have hnext (sh : Shared C M F P) :
          (s.setStop i (sh, .cancelled .unlock)).stop i = .cancelled .unlock :=
        Function.update_self _ _ _
      obtain ⟨t, ht, hl, hpub⟩ := hunlock _ (hnext _)
      exact ⟨t, (reaches_stop hstep).trans ht, hl, hpub⟩
    | unlock => exact hunlock s hpc
  | _ => rw [hpc] at hi; cases hi

theorem exists_unlocked (hs : Over s) (hh : Held s) {p : P}
    (hp : (s.pub p).holdsLock = false) :
    ∃ t, Reaches (ownStep cfg) s t ∧ t.shared.locked = false ∧ t.pub p = s.pub p := by
  cases hl : s.shared.locked with
  | false => exact ⟨s, .refl s, hl, rfl⟩
  | true =>
    rcases hh hl with ⟨q, hq⟩ | ⟨w, hw⟩ | ⟨i, hi⟩
    · have hne : p ≠ q := by
        rintro rfl
        rw [hp] at hq
        cases hq
      obtain ⟨t, ht, hfree, hother⟩ := exists_release_pub hq
      exact ⟨t, ht, hfree, hother p hne⟩
    · rw [hs.gone w] at hw
      cases hw
    · obtain ⟨t, ht, hfree, hpub⟩ := exists_release_stop hi
      exact ⟨t, ht, hfree, congrFun hpub p⟩

-- The steps that a call which is turned away has left.
def PubPc.remaining : PubPc → Nat
  | .idle => 6
  | .gate => 5
  | .leave _ => 4
  | .left .lock _ => 3
  | .left .broadcast _ => 2
  | .left .unlock _ => 1
  | _ => 0

theorem exists_progress (hs : Over s) (hh : Held s) {p : P} {n : Nat}
    (hn : (s.pub p).remaining = n + 1) :
    ∃ t, Reaches (ownStep cfg) s t ∧ (t.pub p).remaining = n := by
  -- the next step of the call is enabled once the mutex is free
  obtain ⟨u, hu, hstep⟩ : ∃ u, Reaches (ownStep cfg) s u ∧ ∃ next,
      pubStep cfg u.shared p (u.pub p) .go = some next ∧ next.2.remaining = n := by
    cases hpc : s.pub p with
    | gate =>
      rw [hpc] at hn
      cases hn
      exact ⟨s, .refl s, by simp [hpc, pubStep, hs.flag, PubPc.remaining]⟩
    | left stage result =>
      cases stage with
      | lock =>
        rw [hpc] at hn
        cases hn
        obtain ⟨u, hu, hl, hsame⟩ := exists_unlocked hs hh (p := p) (by rw [hpc]; rfl)
        exact ⟨u, hu, by simp [hsame, hpc, pubStep, signal, hl, PubPc.remaining]⟩
      | _ =>
        rw [hpc] at hn
        cases hn
        exact ⟨s, .refl s, by simp [hpc, pubStep, signal, PubPc.remaining]⟩
    | _ =>
      rw [hpc] at hn
      cases hn <;> exact ⟨s, .refl s, by simp [hpc, pubStep, PubPc.remaining]⟩
  obtain ⟨next, hnext, hrem⟩ := hstep
  refine ⟨_, hu.trans (reaches_publish hnext), ?_⟩
  simpa [State.setPub] using hrem

-- A call that is turned away comes to its end.
theorem exists_done (hs : Over s) (hh : Held s) {p : P} (hp : (s.pub p).turnedAway = true) :
    ∃ t, Reaches (ownStep cfg) s t ∧ t.pub p = .done (.failed (.sentinel .errPoolStopped)) := by
  generalize hn : (s.pub p).remaining = n
  induction n generalizing s with
  | zero =>
    refine ⟨s, .refl s, ?_⟩
    cases hpc : s.pub p with
    | done result =>
      rw [hpc] at hp
      rw [of_decide_eq_true hp]
    | left stage result => rw [hpc] at hn; cases stage <;> cases hn
    | _ => simp [hpc, PubPc.turnedAway, PubPc.remaining] at hp hn
  | succ n ih =>
    obtain ⟨u, hu, hrem⟩ := exists_progress hs hh hn
    obtain ⟨t, ht, hdone⟩ := ih (hs.reaches hu).1 (reaches_held hh hu)
      (hs.turnedAway hu hp) hrem
    exact ⟨t, hu.trans ht, hdone⟩

end Stopped

theorem done_of_reaches {p : P} {result : Result} (hp : s.pub p = .done result)
    (h : Reaches (ownStep cfg) s t) : t.pub p = .done result := by
  refine reaches_invariant (I := fun u => u.pub p = .done result) ?_ h hp
  intro s t hs hm
  cases hm with
  | @publish q sh' pc' h =>
    by_cases hq : p = q
    · subst hq
      rw [hs] at h
      exact absurd h PubMove.not_done
    · exact (Function.update_of_ne hq _ _).trans hs
  | work h => exact hs
  | stop h => exact hs
  | caller => exact hs

theorem poolLen_pos (workerPoolLen : Int) : 0 < poolLen workerPoolLen := by
  unfold poolLen
  split_ifs <;> omega

def onlyWorker : Fin (poolLen 1) := ⟨0, poolLen_pos 1⟩

-- One worker and a buffer of one: a call is accepted, GracefulStop drains the pool, and
-- a second call comes too late.
def twoCalls : Config Nat Nat Nat Bool where
  capacity := 1
  registerFn := some 7
  request late := ⟨if late then 20 else 10, if late then 21 else 11, false, none, true⟩

def stopAfterAccept : List (Act Bool (Fin 1) Unit) :=
  List.replicate 13 (Act.publish false .go) ++
    [Act.stop (), Act.stop (), Act.stop (), Act.stop (), Act.stop ()] ++
    List.replicate 13 (Act.work (Fin.last 0) .go) ++
    [Act.work (Fin.last 0) .poolDone, Act.work (Fin.last 0) .giveUp] ++
    List.replicate 4 (Act.work (Fin.last 0) .go) ++ [Act.stop (), Act.stop (), Act.stop ()]

end NatsClient.WorkerPool
