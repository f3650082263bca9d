import NatsClient.Lib.Machine
import NatsClient.Supervise.Moves

namespace NatsClient.Supervise

open Lib.Machine

variable {Q : Type} {s t : State Q}

theorem mem_unsubscribe {sub : Option Nat} {i : Nat} :
    i ∈ (s.unsubscribe sub).unsubscribed ↔ i ∈ s.unsubscribed ∨ sub = some i := by
  simp [State.unsubscribe]

-- The caller that runs the function of stopOnce.
def Once.runner : Once Q → Option Q
  | fresh | done _ => none
  | closing q | loading q | releasing q _ => some q

-- Every subscription is in one place: unsubscribed, in s.sub or with the loop. Only Stop
-- unsubscribes what is still in s.sub.
structure Inv (s : State Q) : Prop where
  below : ∀ i, s.sub = some i ∨ s.pc.held = some i ∨ i ∈ s.unsubscribed ∨
    s.once.read = some (some i) → i < s.made
  accounted : ∀ i < s.made, i ∈ s.unsubscribed ∨ s.sub = some i ∨ s.pc.held = some i
  current : ∀ i, s.sub = some i → i ∈ s.unsubscribed → s.once.read = some (some i)
  apart : ∀ i, s.pc.held = some i → s.sub ≠ some i
  new : ∀ i, s.pc = .install i → i ∉ s.unsubscribed ∧ s.once.read ≠ some (some i)
  live : s.sub = none → s.pc.over
  empty : ∀ sub, s.pc = .release sub → s.sub = none
  kept : s.pc = .exited → s.sub ≠ none → s.once.closed = true
  runner : ∀ q, s.once.runner = some q → s.stopper q = .calling
  done : ∀ i, s.once = .done (some i) → i ∈ s.unsubscribed

theorem Inv.congr (hi : Inv s) (h : Agrees s t) (hpc : t.pc = s.pc) : Inv t := by
  cases s
  cases t
  obtain ⟨rfl, rfl, rfl, rfl, rfl⟩ := h
  obtain rfl := hpc
  exact ⟨hi.below, hi.accounted, hi.current, hi.apart, hi.new, hi.live, hi.empty, hi.kept,
    hi.runner, hi.done⟩

-- The loop goes on with nothing in its hands.
theorem Inv.turned (hi : Inv s) (hcalm : s.pc.calm) {pc : LoopPc}
    (hpc : pc.calm ∨ pc = .cleanup) : Inv { s with pc := pc } where
  below := by simpa [hcalm.held_eq, LoopPc.held_eq_none hpc] using hi.below
  accounted := by simpa [hcalm.held_eq, LoopPc.held_eq_none hpc] using hi.accounted
  current := hi.current
  apart := by simp [LoopPc.held_eq_none hpc]
  new := by
    rintro i rfl
    cases LoopPc.held_eq_none hpc
  live hsub := (hcalm.not_over (hi.live hsub)).elim
  empty := by
    rintro sub rfl
    obtain hpc | hpc := hpc
    · exact hpc.elim
    · cases hpc
  kept := by
    rintro rfl
    obtain hpc | hpc := hpc
    · exact hpc.elim
    · cases hpc
  runner := hi.runner
  done := hi.done

theorem Inv.left (hi : Inv s) (hcalm : s.pc.calm) (hclosed : s.once.closed = true) :
    Inv { s with pc := .exited } where
  below := by simpa [hcalm.held_eq] using hi.below
  accounted := by simpa [hcalm.held_eq] using hi.accounted
  current := hi.current
  apart := by simp
  new := by simp
  live _ := trivial
  empty := by simp
  kept _ _ := hclosed
  runner := hi.runner
  done := hi.done

theorem Inv.subscribed (hi : Inv s) (hcalm : s.pc.calm) (valid : Nat → Bool) :
    Inv { s with pc := .install s.made, made := s.made + 1, valid := valid } where
  below := by
    rintro i (h | h | h)
    · exact Nat.lt_succ_of_lt (hi.below i (.inl h))
    · cases h
      exact Nat.lt_succ_self _
    · exact Nat.lt_succ_of_lt (hi.below i (.inr (.inr h)))
  accounted := by
    intro i hlt
    obtain hlt | rfl := Nat.lt_succ_iff_lt_or_eq.mp hlt
    · have h := hi.accounted i hlt
      rw [hcalm.held_eq] at h
      exact h.imp_right fun h => .inl (h.resolve_right (by simp))
    · exact .inr (.inr rfl)
  current := hi.current
  apart := by
    rintro i ⟨⟩ hsub
    exact Nat.lt_irrefl _ (hi.below _ (.inl hsub))
  new := by
    rintro i ⟨⟩
    exact ⟨fun h => Nat.lt_irrefl _ (hi.below _ (.inr (.inr (.inl h)))),
      fun h => Nat.lt_irrefl _ (hi.below _ (.inr (.inr (.inr h))))⟩
  live hsub := (hcalm.not_over (hi.live hsub)).elim
  empty := by simp
  kept := by simp
  runner := hi.runner
  done := hi.done

theorem Inv.installed (hi : Inv s) {newSub : Nat} (hpc : s.pc = .install newSub) :
    Inv { s with pc := .drop s.sub, sub := some newSub } where
  below := by
    rintro i (h | h | h)
    · exact hi.below i (.inr (.inl (hpc ▸ h)))
    · exact hi.below i (.inl h)
    · exact hi.below i (.inr (.inr h))
  accounted := by
    intro i hlt
    obtain h | h | h := hi.accounted i hlt
    · exact .inl h
    · exact .inr (.inr h)
    · rw [hpc] at h
      exact .inr (.inl h)
  current := by
    rintro i ⟨⟩ hmem
    exact absurd hmem (hi.new _ hpc).1
  apart := by
    rintro i hsub ⟨⟩
    exact hi.apart _ (hpc ▸ rfl) hsub
  new := by simp
  live := by simp
  empty := by simp
  kept := by simp
  runner := hi.runner
  done := hi.done

-- What the loop held is unsubscribed.
theorem Inv.handed (hi : Inv s) {pc : LoopPc} (hpc : pc.held = none) :
    (∀ i, s.sub = some i ∨ pc.held = some i ∨ i ∈ (s.unsubscribe s.pc.held).unsubscribed ∨
      s.once.read = some (some i) → i < s.made) ∧
    ∀ i < s.made, i ∈ (s.unsubscribe s.pc.held).unsubscribed ∨ s.sub = some i ∨
      pc.held = some i := by
  constructor
  · rintro i (h | h | h | h)
    · exact hi.below i (.inl h)
    · rw [hpc] at h
      cases h
    · obtain h | h := mem_unsubscribe.mp h
      · exact hi.below i (.inr (.inr (.inl h)))
      · exact hi.below i (.inr (.inl h))
    · exact hi.below i (.inr (.inr (.inr h)))
  · intro i hlt
    obtain h | h | h := hi.accounted i hlt
    · exact .inl (mem_unsubscribe.mpr (.inl h))
    · exact .inr (.inl h)
    · exact .inl (mem_unsubscribe.mpr (.inr h))

theorem Inv.dropped (hi : Inv s) {old : Option Nat} (hpc : s.pc = .drop old) :
    Inv { s.unsubscribe old with pc := .select } := by
  have hheld : old = s.pc.held := by rw [hpc]; rfl
  subst hheld
  exact
    { below := (hi.handed LoopPc.held_select).1
      accounted := (hi.handed LoopPc.held_select).2
      current := by
        intro i hsub hmem
        obtain h | h := mem_unsubscribe.mp hmem
        · exact hi.current i hsub h
        · exact absurd hsub (hi.apart i h)
      apart := by simp
      new := by simp
      live := by
        intro hsub
        have hover := hi.live hsub
        rw [hpc] at hover
        exact hover.elim
      empty := by simp
      kept := by simp
      runner := hi.runner
      done := fun i h => mem_unsubscribe.mpr (.inl (hi.done i h)) }

theorem Inv.cleared (hi : Inv s) (hpc : s.pc = .cleanup) :
    Inv { s with pc := .release s.sub, sub := none } where
  below := by
    rintro i (h | h | h)
    · cases h
    · exact hi.below i (.inl h)
    · exact hi.below i (.inr (.inr h))
  accounted := by
    intro i hlt
    obtain h | h | h := hi.accounted i hlt
    · exact .inl h
    · exact .inr (.inr h)
    · rw [hpc] at h
      cases h
  current := by simp
  apart := by simp
  new := by simp
  live _ := trivial
  empty := by simp
  kept := by simp
  runner := hi.runner
  done := hi.done

theorem Inv.released (hi : Inv s) {sub : Option Nat} (hpc : s.pc = .release sub) :
    Inv { s.unsubscribe sub with pc := .exited } := by
  have hnone := hi.empty sub hpc
  have hheld : sub = s.pc.held := by rw [hpc]; rfl
  subst hheld
  exact
    { below := (hi.handed LoopPc.held_exited).1
      accounted := (hi.handed LoopPc.held_exited).2
      current := by
        intro i hsub
        cases hnone.symm.trans hsub
      apart := by simp
      new := by simp
      live := fun _ => trivial
      empty := by simp
      kept := fun _ hsub => absurd hnone hsub
      runner := hi.runner
      done := fun i h => mem_unsubscribe.mpr (.inl (hi.done i h)) }

-- A step of Stop before it has read s.sub.
theorem Inv.unread (hi : Inv s) {once : Once Q} (hs : s.once.read = none) (ht : once.read = none)
    (hclosed : s.once.closed = true → once.closed = true)
    (hrunner : ∀ q, once.runner = some q → s.stopper q = .calling) :
    Inv { s with once := once } where
  below := by simpa [hs, ht] using hi.below
  accounted := hi.accounted
  current i hsub hmem := by
    have hread := hi.current i hsub hmem
    rw [hs] at hread
    cases hread
  apart := hi.apart
  new := by simpa [hs, ht] using hi.new
  live := hi.live
  empty := hi.empty
  kept hexit hsub := hclosed (hi.kept hexit hsub)
  runner := hrunner
  done := by
    rintro i rfl
    cases ht

theorem Inv.loaded (hi : Inv s) {q : Q} (hq : s.stopper q = .calling) :
    Inv { s with once := .releasing q s.sub } where
  below := by
    rintro i (h | h | h | h)
    · exact hi.below i (.inl h)
    · exact hi.below i (.inr (.inl h))
    · exact hi.below i (.inr (.inr (.inl h)))
    · exact hi.below i (.inl (Option.some.inj h))
  accounted := hi.accounted
  current _ hsub _ := congrArg some hsub
  apart := hi.apart
  new i hpc := ⟨(hi.new i hpc).1, fun h => hi.apart i (hpc ▸ rfl) (Option.some.inj h)⟩
  live := hi.live
  empty := hi.empty
  kept _ _ := rfl
  runner := by
    rintro p ⟨⟩
    exact hq
  done := by simp

-- A caller enters or leaves.
theorem Inv.restopped (hi : Inv s) {stopper : Q → StopPc}
    (h : ∀ q, s.once.runner = some q → stopper q = .calling) :
    Inv { s with stopper := stopper } :=
  ⟨hi.below, hi.accounted, hi.current, hi.apart, hi.new, hi.live, hi.empty, hi.kept, h, hi.done⟩

theorem Inv.stopped (hi : Inv s) {q : Q} {sub : Option Nat} (hs : s.once = .releasing q sub)
    (stopper : Q → StopPc) :
    Inv { s.unsubscribe sub with once := .done sub, stopper := stopper } := by
  have hread : s.once.read = some sub := by rw [hs]; rfl
  have hclosed : s.once.closed = true := by rw [hs]; rfl
  exact
    { below := by
        rintro i (h | h | h | h)
        · exact hi.below i (.inl h)
        · exact hi.below i (.inr (.inl h))
        · obtain h | h := mem_unsubscribe.mp h
          · exact hi.below i (.inr (.inr (.inl h)))
          · exact hi.below i (.inr (.inr (.inr (h ▸ hread))))
        · exact hi.below i (.inr (.inr (.inr (hread.trans h))))
      accounted := fun i hlt =>
        (hi.accounted i hlt).imp_left fun h => mem_unsubscribe.mpr (.inl h)
      current := by
        intro i hsub hmem
        obtain h | h := mem_unsubscribe.mp hmem
        · exact hread.symm.trans (hi.current i hsub h)
        · exact congrArg some h
      apart := hi.apart
      new := by
        intro i hpc
        obtain ⟨hmem, hne⟩ := hi.new i hpc
        rw [hread] at hne
        refine ⟨fun h => ?_, hne⟩
        obtain h | h := mem_unsubscribe.mp h
        · exact hmem h
        · exact hne (congrArg some h)
      live := hi.live
      empty := hi.empty
      kept := fun _ _ => rfl
      runner := by simp [Once.runner]
      done := by
        rintro i ⟨⟩
        exact mem_unsubscribe.mpr (.inr rfl) }

theorem supervise_inv (cfg : SupervisorConfig) : Inv (supervise cfg : State Q) where
  below := by simp [supervise, LoopPc.held, Once.read]
  accounted := by simp [supervise]
  current := by simp [supervise]
  apart := by simp [supervise]
  new := by simp [supervise]
  live := by simp [supervise]
  empty := by simp [supervise]
  kept := by simp [supervise]
  runner := by simp [supervise, Once.runner]
  done := by simp [supervise]

-- The loop does not leave by stopCh with a subscription that Stop has missed: Stop has not
-- read s.sub yet, or s.sub is still what Stop read.
def Fresh (s : State Q) (a : Act Q) : Prop :=
  a = .loop .stopCh → s.once.read = none ∨ s.once.read = some s.sub

-- What Fresh exits leave behind.
def Reachable (s : State Q) : Prop :=
  s.pc = .exited → s.sub = none ∨ s.once.read = none ∨ s.once.read = some s.sub

-- The loop has exited and every Stop call has returned.
structure Ended (s : State Q) : Prop where
  exited : s.pc = .exited
  stopped : ∀ q, s.stopper q ≠ .calling

theorem all_unsubscribed (hi : Inv s) (hs : Reachable s) (hend : Ended s) :
    ∀ i < s.made, i ∈ s.unsubscribed := by
  intro i hlt
  obtain h | hsub | h := hi.accounted i hlt
  · exact h
  · have hclosed := hi.kept hend.exited (by simp [hsub])
    have hrunner : s.once.runner = none := by
      cases hq : s.once.runner with
      | none => rfl
      | some q => exact absurd (hi.runner q hq) (hend.stopped q)
    have hreach := hs hend.exited
    cases honce : s.once with
    | fresh => simp [honce, Once.closed] at hclosed
    | done sub =>
      rw [hsub, honce] at hreach
      obtain hnone | hnone | hread := hreach
      · cases hnone
      · cases hnone
      · exact hi.done i (honce.trans (congrArg _ (Option.some.inj hread)))
    | _ => simp [honce, Once.runner] at hrunner
  · rw [hend.exited] at h
    cases h

variable [DecidableEq Q]

theorem Inv.move {a : Act Q} (hi : Inv s) (h : Move s a t) : Inv t := by
  cases h with
  | outside agrees pc act => exact hi.congr agrees pc
  | turned agrees calm pc act =>
    refine (hi.turned calm pc).congr ?_ rfl
    exact ⟨agrees.sub, agrees.made, agrees.unsubscribed, agrees.once, agrees.stopper⟩
  | left pc closed => exact hi.left (calm_of_select pc) closed
  | subscribed pc => exact hi.subscribed (pc ▸ trivial) _
  | installed newSub pc => exact hi.installed pc
  | dropped old t pc agrees next =>
    refine (hi.dropped pc).congr ?_ next
    exact ⟨agrees.sub, agrees.made, agrees.unsubscribed, agrees.once, agrees.stopper⟩
  | cleared pc => exact hi.cleared pc
  | released sub pc => exact hi.released pc
  | called q at_ =>
    refine hi.restopped fun p hp => ?_
    by_cases hpq : p = q
    · rw [hpq, Function.update_self]
    · rw [Function.update_of_ne hpq]
      exact hi.runner p hp
  | entered q at_ once =>
    refine hi.unread (by rw [once]; rfl) rfl (by simp [once, Once.closed]) ?_
    rintro p ⟨⟩
    exact at_
  | closed q at_ once =>
    refine hi.unread (by rw [once]; rfl) rfl (fun _ => rfl) ?_
    rintro p ⟨⟩
    exact at_
  | loaded q at_ once => exact hi.loaded at_
  | stopped q sub at_ once => exact hi.stopped once _
  | joined q sub at_ once =>
    refine hi.restopped fun p hp => ?_
    rw [once] at hp
    cases hp

theorem Reachable.move {a : Act Q} (hi : Inv s) (hs : Reachable s) (hf : Fresh s a)
    (h : Move s a t) : Reachable t := by
  unfold Reachable at hs ⊢
  cases h with
  | outside agrees pc act => rwa [pc, agrees.sub, agrees.once]
  | turned agrees calm pc act =>
    intro hexit
    rw [hexit] at pc
    obtain pc | pc := pc
    · exact pc.elim
    · cases pc
  | left pc closed => exact fun _ => .inr (hf rfl)
  | subscribed pc => simp
  | installed newSub pc => simp
  | dropped old t pc agrees next => simp [next]
  | cleared pc => simp
  | released sub pc => exact fun _ => .inl (hi.empty sub pc)
  | called q at_ => exact hs
  | entered q at_ once => exact fun _ => .inr (.inl rfl)
  | closed q at_ once => exact fun _ => .inr (.inl rfl)
  | loaded q at_ once => exact fun _ => .inr (.inr rfl)
  | stopped q sub at_ once =>
    rw [once] at hs
    exact hs
  | joined q sub at_ once => exact hs

-- A subscription that nobody will unsubscribe.
def Stranded (i : Nat) (s : State Q) : Prop :=
  s.pc = .exited ∧ i < s.made ∧ i ∉ s.unsubscribed ∧
    ∃ sub, s.once.read = some sub ∧ sub ≠ some i

theorem Stranded.move {a : Act Q} {i : Nat} (hs : Stranded i s) (h : Move s a t) :
    Stranded i t := by
  obtain ⟨hexit, hlt, hmem, sub, hread, hne⟩ := hs
  cases h with
  | outside agrees pc act =>
    exact ⟨pc.trans hexit, agrees.made ▸ hlt, agrees.unsubscribed ▸ hmem, sub,
      agrees.once ▸ hread, hne⟩
  | turned agrees calm pc act =>
    rw [hexit] at calm
    exact calm.elim
  | left pc closed => exact ⟨rfl, hlt, hmem, sub, hread, hne⟩
  | subscribed pc => cases hexit.symm.trans pc
  | installed newSub pc => cases hexit.symm.trans pc
  | dropped old t pc agrees next => cases hexit.symm.trans pc
  | cleared pc => cases hexit.symm.trans pc
  | released sub pc => cases hexit.symm.trans pc
  | called q at_ => exact ⟨hexit, hlt, hmem, sub, hread, hne⟩
  | entered q at_ once =>
    rw [once] at hread
    cases hread
  | closed q at_ once =>
    rw [once] at hread
    cases hread
  | loaded q at_ once =>
    rw [once] at hread
    cases hread
  | stopped q read at_ once =>
    rw [once] at hread
    cases hread
    refine ⟨hexit, hlt, fun h => ?_, sub, rfl, hne⟩
    exact (mem_unsubscribe.mp h).elim hmem hne
  | joined q sub at_ once => exact ⟨hexit, hlt, hmem, _, hread, hne⟩

-- An exit that is not Fresh strands the current subscription.
theorem stranded_of_stale {a : Act Q} (hi : Inv s) (hf : ¬ Fresh s a) (h : Move s a t) :
    ∃ i, Stranded i t := by
  unfold Fresh at hf
  rw [Classical.not_imp, not_or] at hf
  obtain ⟨rfl, hread, hstale⟩ := hf
  obtain ⟨sub, hsub⟩ := Option.ne_none_iff_exists'.mp hread
  cases h with
  | outside agrees pc act => exact absurd rfl act
  | turned agrees calm pc act => exact absurd rfl act
  | left pc closed =>
    cases hcurrent : s.sub with
    | none => exact absurd (hi.live hcurrent) (calm_of_select pc).not_over
    | some i =>
      rw [hsub, hcurrent] at hstale
      have hne : sub ≠ some i := fun h => hstale (congrArg some h)
      refine ⟨i, rfl, hi.below i (.inl hcurrent), fun hmem => hne ?_, sub, hsub, hne⟩
      exact Option.some.inj (hsub.symm.trans (hi.current i hcurrent hmem))

-- Once the loop has exited and every Stop call has returned, every subscription has been
-- unsubscribed, exactly where the loop did not leave by stopCh after Stop had missed the
-- current one.
theorem supervise_leaks_nothing_iff (cfg : SupervisorConfig) (acts : List (Act Q)) (s : State Q)
    (hexec : exec (step cfg) (supervise cfg) acts = some s) (hend : Ended s) :
    (∀ i < s.made, i ∈ s.unsubscribed) ↔ Along (step cfg) Fresh (supervise cfg) acts := by
  have hinv : ∀ s a t, Inv s → step cfg s a = some t → Inv (t : State Q) :=
    fun s a t hi h => hi.move (step_move h)
  constructor
  · intro hall
    by_contra hnot
    obtain ⟨before, a, after, mid, next, rfl, hbefore, hstale, hstep, hafter⟩ :=
      exists_violation hexec hnot
    have hmid : Inv mid := Reaches.invariant hinv ⟨before, hbefore⟩ (supervise_inv cfg)
    obtain ⟨i, hi⟩ := stranded_of_stale hmid hstale (step_move hstep)
    have hlast : Stranded i s :=
      Reaches.invariant (fun s a t hs h => hs.move (step_move h)) ⟨after, hafter⟩ hi
    exact hlast.2.2.1 (hall i hlast.2.1)
  · intro halong
    have hlast : Inv s ∧ Reachable s := by
      refine Along.invariant (P := fun s => Inv s ∧ Reachable s) (fun s a t hs hf h => ?_) halong
        hexec ⟨supervise_inv cfg, nofun⟩
      exact ⟨hs.1.move (step_move h), hs.2.move hs.1 hf (step_move h)⟩
    exact all_unsubscribed hlast.1 hlast.2 hend

def plainConfig : SupervisorConfig := ⟨⟨0, 0, 0, false⟩, 0, 0, 0⟩

-- Stop returns, then the loop sees that ctx is done.
def cancelledRun : List (Act Unit) :=
  [.stop (), .stop (), .stop (), .stop (), .stop (), .cancel, .loop .ctx, .loop .proceed,
    .loop .proceed]

theorem supervise_leaks_nothing_iff_cancelled :
    ∃ s, exec (step plainConfig) (supervise plainConfig) cancelledRun = some s ∧ Ended s ∧
      ∀ i < s.made, i ∈ s.unsubscribed := by
  have hrun : (exec (step plainConfig) (supervise plainConfig) cancelledRun).map
      (fun s => (s.pc, s.stopper ())) = some (.exited, .returned) := by decide
  obtain ⟨s, hs, hend⟩ := Option.map_eq_some_iff.mp hrun
  obtain ⟨hpc, hstop⟩ := Prod.mk.inj hend
  have hended : Ended s := ⟨hpc, fun _ hcalling => nomatch hstop.symm.trans hcalling⟩
  refine ⟨s, hs, hended, (supervise_leaks_nothing_iff plainConfig _ s hs hended).mpr ?_⟩
  refine along_of_forall_mem Fresh ?_ _
  rintro a ha - rfl
  simp [cancelledRun] at ha

-- Stop runs while subscribe is under way, and the loop takes stopCh afterwards.
def lateRun : List (Act Unit) :=
  [.validity 0 false, .loop .proceed, .loop .proceed, .stop (), .stop (), .stop (), .stop (),
    .stop (), .loop .proceed, .loop .proceed, .loop .proceed, .loop .stopCh]

theorem supervise_leaks_new_subscription :
    (exec (step plainConfig) (supervise plainConfig) lateRun).map
      (fun s => (s.pc, s.stopper (), s.made, s.unsubscribed)) =
        some (.exited, .returned, 2, [0, 0]) := by
  decide

end NatsClient.Supervise
