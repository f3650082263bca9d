import NatsClient.Graduate.Windows

namespace NatsClient.Graduate

open Lib.Machine

inductive Callback
  | onAbort (reason : String)
  | onPromoteReady
  deriving DecidableEq, Repr

-- A Graduate between two comparisons, and the calls of its callbacks so far.
structure Canary where
  rate : Nat
  matchCount : Nat
  mismatches : Nat
  samples : Nat
  phase : GraduatePhase
  reason : String
  callbacks : List Callback
  deriving DecidableEq, Repr

namespace Canary

variable (pol : Policy) (g : Canary)

def start : Canary where
  rate := pol.startRate
  matchCount := 0
  mismatches := 0
  samples := 0
  phase := .ramping
  reason := ""
  callbacks := []

def abort (reason : String) : Canary :=
  { g with reason := reason, phase := .aborted, callbacks := g.callbacks ++ [.onAbort reason] }

def promote : Canary :=
  if g.phase ≠ .promoteReady then g else { g with phase := .holding }

-- The end of evaluateWindow, for a window that has passed.
def advance : Canary :=
  if pol.atMax g.rate then
    { g with phase := .promoteReady, callbacks := g.callbacks ++ [.onPromoteReady] }
  else { g with rate := pol.nextRate g.rate, phase := .ramping }

def judge (samples : Nat) : Canary :=
  if pol.exceeds g.mismatches samples then g.abort "mismatch_rate" else g.advance pol

def evaluateSamples : Canary :=
  if g.samples = 0 ∨ g.samples % pol.window ≠ 0 then g else g.judge pol g.samples

def evaluateWindow : Canary :=
  if g.phase = .aborted ∨ g.phase = .promoteReady then g else g.evaluateSamples pol

def count (matched : Bool) : Canary :=
  if matched then { g with matchCount := (g.matchCount + 1) % 2 ^ 64 }
  else { g with mismatches := (g.mismatches + 1) % 2 ^ 64 }

def sample : Canary := { g with samples := (g.samples + 1) % 2 ^ 64 }

-- The function that observeCompare returns, for what base returns.
def observeCompare (matched : Bool) : Canary := (g.sample.count matched).evaluateWindow pol

-- One comparison after the other.
def observe (results : List Bool) : Canary := results.foldl (observeCompare pol) g

theorem observe_append (first second : List Bool) :
    g.observe pol (first ++ second) = (g.observe pol first).observe pol second :=
  List.foldl_append

theorem observe_concat (results : List Bool) (matched : Bool) :
    g.observe pol (results ++ [matched]) = (g.observe pol results).observeCompare pol matched := by
  rw [observe_append]
  rfl

def AtBoundary : Prop := g.samples ≠ 0 ∧ g.samples % pol.window = 0

instance : Decidable (g.AtBoundary pol) := inferInstanceAs (Decidable (_ ∧ _))

-- None of the boundaries that the results reach exceeds MaxMismatchRate.
def Healthy (results : List Bool) : Prop :=
  ∀ before, before <+: results → before ≠ [] → (g.observe pol before).AtBoundary pol →
    pol.exceeds (g.observe pol before).mismatches (g.observe pol before).samples = false

-- What remains of a comparison.
def finish : ComparePc → Canary
  | .added matched => (g.count matched).evaluateWindow pol
  | .counted => g.evaluateWindow pol
  | .phased => g.evaluateSamples pol
  | .boundary samples => g.judge pol samples
  | .failing => g.abort "mismatch_rate"
  | .aborting =>
    { g with phase := .aborted, callbacks := g.callbacks ++ [.onAbort "mismatch_rate"] }
  | .passed => g.advance pol
  | .ready => { g with phase := .promoteReady, callbacks := g.callbacks ++ [.onPromoteReady] }
  | .stepping next => { g with rate := next, phase := .ramping }
  | .resuming => { g with phase := .ramping }
  | .idle | .returned => g

variable {pol g}

theorem evaluateWindow_counts (g : Canary) : (g.evaluateWindow pol).samples = g.samples ∧
    (g.evaluateWindow pol).mismatches = g.mismatches := by
  unfold evaluateWindow evaluateSamples judge advance
  split_ifs <;> exact ⟨rfl, rfl⟩

theorem observeCompare_samples (matched : Bool) :
    (g.observeCompare pol matched).samples = (g.samples + 1) % 2 ^ 64 := by
  rw [observeCompare, (evaluateWindow_counts _).1]
  cases matched <;> rfl

theorem observeCompare_mismatches (matched : Bool) :
    (g.observeCompare pol matched).mismatches =
      if matched then g.mismatches else (g.mismatches + 1) % 2 ^ 64 := by
  rw [observeCompare, (evaluateWindow_counts _).2]
  cases matched <;> rfl

-- What a comparison does to the rate, the phase and the callbacks, unless it aborts.
inductive Passes (pol : Policy) (g h : Canary) : Prop
  | closed (phase : g.phase = .aborted ∨ g.phase = .promoteReady) (same : h.phase = g.phase)
      (rate : h.rate = g.rate) (callbacks : h.callbacks = g.callbacks)
  | inside (phase : ¬ (g.phase = .aborted ∨ g.phase = .promoteReady))
      (boundary : ¬ h.AtBoundary pol) (same : h.phase = g.phase) (rate : h.rate = g.rate)
      (callbacks : h.callbacks = g.callbacks)
  | topped (phase : ¬ (g.phase = .aborted ∨ g.phase = .promoteReady))
      (boundary : h.AtBoundary pol) (atMax : pol.atMax g.rate = true)
      (ready : h.phase = .promoteReady) (rate : h.rate = g.rate)
      (callbacks : h.callbacks = g.callbacks ++ [.onPromoteReady])
  | stepped (phase : ¬ (g.phase = .aborted ∨ g.phase = .promoteReady))
      (boundary : h.AtBoundary pol) (atMax : pol.atMax g.rate = false)
      (ramping : h.phase = .ramping) (rate : h.rate = pol.nextRate g.rate)
      (callbacks : h.callbacks = g.callbacks)

theorem Passes.of_counted {h : Canary} {matched : Bool}
    (hp : Passes pol (g.sample.count matched) h) : Passes pol g h := by
  cases matched with
  | true | false =>
    cases hp with
    | closed phase same rate callbacks => exact .closed phase same rate callbacks
    | inside phase boundary same rate callbacks =>
      exact .inside phase boundary same rate callbacks
    | topped phase boundary atMax ready rate callbacks =>
      exact .topped phase boundary atMax ready rate callbacks
    | stepped phase boundary atMax ramping rate callbacks =>
      exact .stepped phase boundary atMax ramping rate callbacks

theorem advance_passes (hphase : ¬ (g.phase = .aborted ∨ g.phase = .promoteReady))
    (hboundary : g.AtBoundary pol) : Passes pol g (g.advance pol) := by
  unfold advance
  split_ifs with hmax
  · exact .topped hphase hboundary hmax rfl rfl rfl
  · exact .stepped hphase hboundary (Bool.eq_false_iff.mpr hmax) rfl rfl rfl

theorem evaluateWindow_passes
    (h : g.AtBoundary pol → pol.exceeds g.mismatches g.samples = false) :
    Passes pol g (g.evaluateWindow pol) := by
  unfold evaluateWindow evaluateSamples
  split_ifs with hphase hsamples
  · exact .closed hphase rfl rfl rfl
  · refine .inside hphase (fun hboundary => ?_) rfl rfl rfl
    exact hsamples.elim hboundary.1 fun hmod => hmod hboundary.2
  · rw [not_or, not_not] at hsamples
    rw [judge, if_neg (Bool.eq_false_iff.mp (h hsamples))]
    exact advance_passes hphase hsamples

theorem observeCompare_passes {matched : Bool}
    (h : (g.observeCompare pol matched).AtBoundary pol →
      pol.exceeds (g.observeCompare pol matched).mismatches
        (g.observeCompare pol matched).samples = false) :
    Passes pol g (g.observeCompare pol matched) := by
  refine .of_counted (evaluateWindow_passes ?_)
  obtain ⟨hsamples, hmismatches⟩ :
      (g.observeCompare pol matched).samples = (g.sample.count matched).samples ∧
        (g.observeCompare pol matched).mismatches = (g.sample.count matched).mismatches :=
    evaluateWindow_counts _
  rwa [AtBoundary, hsamples, hmismatches] at h

-- The comparisons of a healthy sequence, one after the other.
theorem Healthy.passes {results : List Bool} {matched : Bool}
    (h : g.Healthy pol (results ++ [matched])) :
    Passes pol (g.observe pol results) (g.observe pol (results ++ [matched])) := by
  have hlast := h (results ++ [matched]) (List.prefix_refl _) (by simp)
  rw [observe_concat] at hlast ⊢
  exact observeCompare_passes hlast

theorem Healthy.shorten {first second : List Bool} (h : g.Healthy pol second)
    (hle : first <+: second) : g.Healthy pol first :=
  fun before hbefore => h before (hbefore.trans hle)

theorem observe_samples (results : List Bool) (hlt : g.samples < 2 ^ 64) :
    (g.observe pol results).samples = (g.samples + results.length) % 2 ^ 64 := by
  induction results using List.reverseRecOn with
  | nil => exact (Nat.mod_eq_of_lt hlt).symm
  | append_singleton results matched ih =>
    rw [observe_concat, observeCompare_samples, ih, Nat.mod_add_mod, List.length_append,
      List.length_singleton, Nat.add_assoc]

end Canary

variable {C A P : Type} {pol : Policy} {s t : State C A P}

def State.canary (s : State C A P) (callbacks : List Callback) : Canary where
  rate := s.rate
  matchCount := s.matchCount
  mismatches := s.mismatches
  samples := s.samples
  phase := s.phase
  reason := s.reason
  callbacks := callbacks

-- The callback that comes with an operation of a comparison.
def callback (s : State C A P) (act : C × Bool) : List Callback :=
  match s.compare act.1 with
  | .aborting => [.onAbort "mismatch_rate"]
  | .ready => [.onPromoteReady]
  | _ => []

variable [DecidableEq C] {call : C} {matched : Bool}

-- An operation of a comparison leaves what its end will be as it was.
theorem CompareMove.finish (h : CompareMove pol s call matched t) (hpc : s.compare call ≠ .idle)
    (callbacks : List Callback) :
    (t.canary (callbacks ++ callback s (call, matched))).finish pol (t.compare call) =
      (s.canary callbacks).finish pol (s.compare call) := by
  cases h with
  | sampled pc => exact absurd pc hpc
  | agreed pc | differed pc =>
    simp only [callback, pc, List.append_nil, goto_self]
    rfl
  | closed pc phase =>
    simp only [callback, pc, List.append_nil, finish_self]
    exact (if_pos phase).symm
  | phased pc phase =>
    simp only [callback, pc, List.append_nil, goto_self]
    exact (if_neg phase).symm
  | inside pc samples =>
    simp only [callback, pc, List.append_nil, finish_self]
    exact (if_pos samples).symm
  | reached pc samples =>
    simp only [callback, pc, List.append_nil, goto_self]
    exact (if_neg samples).symm
  | failed samples pc exceeds =>
    simp only [callback, pc, List.append_nil, goto_self]
    exact (if_pos exceeds).symm
  | passed samples pc within =>
    simp only [callback, pc, List.append_nil, goto_self]
    exact (if_neg (Bool.eq_false_iff.mp within)).symm
  | topped pc rate =>
    simp only [callback, pc, List.append_nil, goto_self]
    exact (if_pos rate).symm
  | stepped pc rate =>
    simp only [callback, pc, List.append_nil, goto_self]
    exact (if_neg (Bool.eq_false_iff.mp rate)).symm
  | reasoned pc | rated _ pc =>
    simp only [callback, pc, List.append_nil, goto_self]
    rfl
  | aborted pc | promoted pc | resumed pc =>
    simp only [callback, pc, List.append_nil, finish_self]
    rfl

theorem CompareMove.outcomes (h : CompareMove pol s call matched t)
    (hpc : s.compare call ≠ .idle) : t.outcomes = s.outcomes := by
  cases h with
  | sampled pc => exact absurd pc hpc
  | _ => rfl

theorem CompareMove.not_returned (h : CompareMove pol s call matched t) :
    s.compare call ≠ .returned := by
  cases h <;> simp_all

theorem CompareMove.not_idle (h : CompareMove pol s call matched t) : t.compare call ≠ .idle := by
  cases h <;> simp

theorem resting_iff {pc : ComparePc} : pc.resting = true ↔ pc = .idle ∨ pc = .returned := by
  cases pc <;> simp [ComparePc.resting]

-- A comparison begins while no other one is under way.
def Sole (s : State C A P) (act : C × Bool) : Prop :=
  s.compare act.1 = .idle → ∀ other, (s.compare other).resting

-- The results since s₀, of which the last comparison may still be under way.
inductive OneByOne (pol : Policy) (s₀ : State C A P) (before : List Callback) (s : State C A P)
    (callbacks : List Callback) (results : List Bool) : Prop
  | resting (rest : ∀ call, (s.compare call).resting)
      (canary : s.canary callbacks = (s₀.canary before).observe pol results)
  | working (call : C) (rest : ∀ other, other ≠ call → (s.compare other).resting)
      (busy : (s.compare call).resting = false)
      (canary : (s.canary callbacks).finish pol (s.compare call) =
        (s₀.canary before).observe pol results)

section

variable {s₀ : State C A P} {before callbacks : List Callback} {results : List Bool}

theorem OneByOne.sampled (h : OneByOne pol s₀ before s callbacks results)
    (hrest : ∀ other, (s.compare other).resting) (hpc : s.compare call = .idle)
    (hmove : CompareMove pol s call matched t) :
    OneByOne pol s₀ before t (callbacks ++ callback s (call, matched)) (results ++ [matched]) ∧
      t.outcomes = s.outcomes ++ [matched] := by
  have hcanary : s.canary callbacks = (s₀.canary before).observe pol results := by
    cases h with
    | resting rest canary => exact canary
    | working other rest busy canary => exact absurd (hrest other) (Bool.eq_false_iff.mp busy)
  cases hmove with
  | sampled pc =>
    refine ⟨.working call ?_ ?_ ?_, rfl⟩
    · intro other hother
      rw [goto_of_ne _ _ hother]
      exact hrest other
    · rw [goto_self]
      rfl
    · rw [Canary.observe_concat, ← hcanary, goto_self]
      simp only [callback, hpc, List.append_nil]
      rfl
  | _ =>
    exfalso
    simp_all

theorem OneByOne.continued (h : OneByOne pol s₀ before s callbacks results)
    (hpc : s.compare call ≠ .idle) (hmove : CompareMove pol s call matched t) :
    OneByOne pol s₀ before t (callbacks ++ callback s (call, matched)) results := by
  have hbusy : ¬ (s.compare call).resting :=
    fun hrest => (resting_iff.mp hrest).elim hpc hmove.not_returned
  cases h with
  | resting rest canary => exact absurd (rest call) hbusy
  | working other rest busy canary =>
    obtain rfl : call = other := by
      by_contra hne
      exact hbusy (rest call hne)
    have hrest : ∀ other, other ≠ call → (t.compare other).resting := by
      intro other hother
      rw [hmove.others hother]
      exact rest other hother
    have hcanary := (hmove.finish hpc callbacks).trans canary
    by_cases hreturned : (t.compare call).resting
    · have hpc' : t.compare call = .returned :=
        (resting_iff.mp hreturned).resolve_left hmove.not_idle
      rw [hpc'] at hcanary
      refine .resting (fun other => ?_) hcanary
      by_cases hother : other = call
      · rwa [hother]
      · exact hrest other hother
    · exact .working call hrest (Bool.eq_false_iff.mpr hreturned) hcanary

end

-- Comparisons made one at a time do to a Graduate what observeCompare does for their results.
theorem canary_of_sole {s₀ : State C A P} (hrest : ∀ call, (s₀.compare call).resting)
    {acts : List (C × Bool)} (hexec : exec (compares pol) s₀ acts = some s)
    (halong : Along (compares pol) Sole s₀ acts) (hend : ∀ call, (s.compare call).resting)
    (before : List Callback) :
    ∃ results, s.outcomes = s₀.outcomes ++ results ∧
      s.canary (before ++ outputs (compares pol) callback s₀ acts) =
        (s₀.canary before).observe pol results := by
  have hstart : ∃ results, s₀.outcomes = s₀.outcomes ++ results ∧
      OneByOne pol s₀ before s₀ before results :=
    ⟨[], (List.append_nil _).symm, .resting hrest rfl⟩
  have hall : ∃ results, s.outcomes = s₀.outcomes ++ results ∧
      OneByOne pol s₀ before s (before ++ outputs (compares pol) callback s₀ acts) results := by
    refine halong.outputs_invariant (P := fun s callbacks => ∃ results,
      s.outcomes = s₀.outcomes ++ results ∧ OneByOne pol s₀ before s callbacks results)
      ?_ hexec hstart
    rintro s ⟨call, matched⟩ t callbacks ⟨results, houtcomes, h⟩ hsole hstep
    have hmove := compareStep_move hstep
    by_cases hpc : s.compare call = .idle
    · obtain ⟨hnext, hmore⟩ := h.sampled (hsole hpc) hpc hmove
      exact ⟨results ++ [matched], by rw [hmore, houtcomes, List.append_assoc], hnext⟩
    · exact ⟨results, (hmove.outcomes hpc).trans houtcomes, h.continued hpc hmove⟩
  obtain ⟨results, houtcomes, h⟩ := hall
  refine ⟨results, houtcomes, ?_⟩
  cases h with
  | resting rest canary => exact canary
  | working call rest busy canary => exact absurd (hend call) (Bool.eq_false_iff.mp busy)

-- A call of Promote that nothing comes between.
omit [DecidableEq C] in
theorem promote_alone [DecidableEq P] {s : State C A P} {call : P}
    (hidle : s.promoter call = .idle) :
    ∃ acts t, exec promoteStep s acts = some t ∧ t.promoter call = .returned ∧
      t.compare = s.compare ∧ t.outcomes = s.outcomes ∧
      ∀ callbacks, t.canary callbacks = (s.canary callbacks).promote := by
  by_cases hready : s.phase = .promoteReady
  · refine ⟨[call, call], { s.storePhase .holding with
      promoter := Function.update s.promoter call .returned }, ?_, Function.update_self .., rfl,
      rfl, fun callbacks => ?_⟩
    · simp [exec, promoteStep, hidle, hready, State.storePhase]
    · exact (if_neg (not_not.mpr hready)).symm
  · refine ⟨[call], { s with promoter := Function.update s.promoter call .returned }, ?_,
      Function.update_self .., rfl, rfl, fun callbacks => ?_⟩
    · simp [exec, promoteStep, hidle, hready]
    · exact (if_pos hready).symm

-- The operations that a comparison has left at most.
def ComparePc.left : ComparePc → Nat
  | .idle => 8
  | .added _ => 7
  | .counted => 6
  | .phased => 5
  | .boundary _ => 4
  | .passed => 3
  | .failing | .stepping _ => 2
  | .aborting | .ready | .resuming => 1
  | .returned => 0

theorem CompareMove.left_lt (h : CompareMove pol s call matched t) :
    (t.compare call).left < (s.compare call).left := by
  cases h <;> simp [ComparePc.left, *]

theorem exists_compareStep (pol : Policy) (h : s.compare call ≠ .returned) (matched : Bool) :
    ∃ t, compareStep pol s call matched = some t := by
  unfold compareStep
  cases hpc : s.compare call with
  | returned => exact absurd hpc h
  | added m => cases m <;> exact ⟨_, rfl⟩
  | counted | phased | boundary _ | passed =>
    dsimp only
    split_ifs <;> exact ⟨_, rfl⟩
  | _ => exact ⟨_, rfl⟩

-- A comparison that is left alone comes to its end.
theorem compare_returns (pol : Policy) (call : C) (matched : Bool)
    (hsole : Sole s (call, matched)) :
    ∃ acts t, exec (compares pol) s acts = some t ∧ Along (compares pol) Sole s acts ∧
      t.compare = Function.update s.compare call .returned ∧
      t.outcomes = s.outcomes ++ if s.compare call = .idle then [matched] else [] := by
  induction hleft : (s.compare call).left using Nat.strong_induction_on generalizing s with
  | h n ih =>
    by_cases hreturned : s.compare call = .returned
    · refine ⟨[], s, rfl, trivial, ?_, ?_⟩
      · rw [← hreturned, Function.update_eq_self]
      · simp [hreturned]
    · obtain ⟨next, hnext⟩ := exists_compareStep pol hreturned matched
      have hmove := compareStep_move hnext
      have hidle : Sole next (call, matched) := fun h => absurd h hmove.not_idle
      obtain ⟨acts, t, hexec, halong, hcompare, houtcomes⟩ :=
        ih _ (hleft ▸ hmove.left_lt) hidle rfl
      refine ⟨(call, matched) :: acts, t, exec_cons_eq_some.mpr ⟨next, hnext, hexec⟩,
        (along_cons_iff hnext).mpr ⟨hsole, halong⟩, ?_, ?_⟩
      · rw [hcompare]
        funext other
        by_cases hother : other = call
        · rw [hother, Function.update_self, Function.update_self]
        · rw [Function.update_of_ne hother, Function.update_of_ne hother, hmove.others hother]
      · rw [houtcomes, if_neg hmove.not_idle, List.append_nil]
        split_ifs with hpc
        · cases hmove with
          | sampled _ => rfl
          | _ =>
            exfalso
            simp_all
        · rw [hmove.outcomes hpc, List.append_nil]

-- Every sequence of results is that of comparisons made one at a time.
theorem exists_sole (pol : Policy) {calls : List (C × Bool)}
    (hrest : ∀ call, (s.compare call).resting) (hidle : ∀ act ∈ calls, s.compare act.1 = .idle)
    (hnodup : (calls.map Prod.fst).Nodup) :
    ∃ acts t, exec (compares pol) s acts = some t ∧ Along (compares pol) Sole s acts ∧
      (∀ call, (t.compare call).resting) ∧ t.outcomes = s.outcomes ++ calls.map Prod.snd := by
  induction calls generalizing s with
  | nil => exact ⟨[], s, rfl, trivial, hrest, (List.append_nil _).symm⟩
  | cons act calls ih =>
    obtain ⟨hfresh, hnodup⟩ := List.nodup_cons.mp hnodup
    obtain ⟨first, mid, hfirst, hsole, hcompare, houtcomes⟩ :=
      compare_returns (s := s) pol act.1 act.2 fun _ => hrest
    have hrest' : ∀ call, (mid.compare call).resting := by
      rw [hcompare, Function.forall_update_iff s.compare fun _ pc => pc.resting]
      exact ⟨rfl, fun call _ => hrest call⟩
    have hidle' : ∀ other ∈ calls, mid.compare other.1 = .idle := by
      intro other hother
      have hne : other.1 ≠ act.1 :=
        fun heq => hfresh (heq ▸ List.mem_map_of_mem hother)
      rw [hcompare, Function.update_of_ne hne]
      exact hidle other (List.mem_cons_of_mem _ hother)
    obtain ⟨second, t, hsecond, hsole', hrest, hmore⟩ := ih hrest' hidle' hnodup
    refine ⟨first ++ second, t, exec_append_eq_some.mpr ⟨mid, hfirst, hsecond⟩,
      hsole.concat hfirst hsole', hrest, ?_⟩
    rw [hmore, houtcomes, if_pos (hidle act List.mem_cons_self), List.append_assoc]
    rfl

-- From rest to rest with comparisons made one at a time, their results and their callbacks.
def Sequential (pol : Policy) (s₀ : State C A P) (results : List Bool) (s : State C A P)
    (callbacks : List Callback) : Prop :=
  ∃ acts, exec (compares pol) s₀ acts = some s ∧ Along (compares pol) Sole s₀ acts ∧
    (∀ call, (s.compare call).resting) ∧ s.outcomes = s₀.outcomes ++ results ∧
    callbacks = outputs (compares pol) callback s₀ acts

theorem Sequential.canary {s₀ : State C A P} {results : List Bool} {callbacks : List Callback}
    (h : Sequential pol s₀ results s callbacks) (hrest : ∀ call, (s₀.compare call).resting)
    (before : List Callback) :
    s.canary (before ++ callbacks) = (s₀.canary before).observe pol results := by
  obtain ⟨acts, hexec, halong, hend, houtcomes, rfl⟩ := h
  obtain ⟨seen, hseen, hcanary⟩ := canary_of_sole hrest hexec halong hend before
  rwa [List.append_cancel_left (hseen.symm.trans houtcomes)] at hcanary

-- The n-th result is that of the n-th call.
theorem exists_sequential (pol : Policy) (results : List Bool) :
    ∃ (s : State Nat A P) (callbacks : List Callback),
      Sequential pol (newGraduate pol) results s callbacks := by
  have hnodup : ((results.zipIdx.map Prod.swap).map Prod.fst).Nodup := by
    rw [List.map_map, show Prod.fst ∘ Prod.swap = (Prod.snd : Bool × Nat → Nat) from rfl,
      List.zipIdx_map_snd]
    exact List.nodup_range'
  obtain ⟨acts, s, hexec, halong, hend, houtcomes⟩ :=
    exists_sole (s := (newGraduate pol : State Nat A P)) pol (fun _ => rfl) (fun _ _ => rfl) hnodup
  refine ⟨s, _, acts, hexec, halong, hend, ?_, rfl⟩
  rw [houtcomes, List.map_map, show Prod.snd ∘ Prod.swap = (Prod.fst : Bool × Nat → Bool) from rfl,
    List.zipIdx_map_fst]

end NatsClient.Graduate
