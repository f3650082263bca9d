import NatsClient.Graduate

namespace NatsClient.Graduate

variable {C A P : Type} [DecidableEq C] {pol : Policy} {s t : State C A P} {call other : C}
  {matched : Bool}

@[simp] theorem goto_self (s : State C A P) (call : C) (pc : ComparePc) :
    (s.goto call pc).compare call = pc := Function.update_self ..

@[simp] theorem finish_self (s : State C A P) (call : C) :
    (s.finish call).compare call = .returned := Function.update_self ..

theorem goto_of_ne (s : State C A P) (pc : ComparePc) (h : other ≠ call) :
    (s.goto call pc).compare other = s.compare other := Function.update_of_ne h ..

-- What the next operation of a comparison can do.
inductive CompareMove (pol : Policy) (s : State C A P) (call : C) (matched : Bool) :
    State C A P → Prop
  | sampled (pc : s.compare call = .idle) :
      CompareMove pol s call matched ({ s with
        samples := (s.samples + 1) % 2 ^ 64
        outcomes := s.outcomes ++ [matched] }.goto call (.added matched))
  | agreed (pc : s.compare call = .added true) :
      CompareMove pol s call matched
        ({ s with matchCount := (s.matchCount + 1) % 2 ^ 64 }.goto call .counted)
  | differed (pc : s.compare call = .added false) :
      CompareMove pol s call matched
        ({ s with mismatches := (s.mismatches + 1) % 2 ^ 64 }.goto call .counted)
  | closed (pc : s.compare call = .counted)
      (phase : s.phase = .aborted ∨ s.phase = .promoteReady) :
      CompareMove pol s call matched (s.finish call)
  | phased (pc : s.compare call = .counted)
      (phase : ¬ (s.phase = .aborted ∨ s.phase = .promoteReady)) :
      CompareMove pol s call matched (s.goto call .phased)
  | inside (pc : s.compare call = .phased) (samples : s.samples = 0 ∨ s.samples % pol.window ≠ 0) :
      CompareMove pol s call matched (s.finish call)
  | reached (pc : s.compare call = .phased)
      (samples : ¬ (s.samples = 0 ∨ s.samples % pol.window ≠ 0)) :
      CompareMove pol s call matched (s.goto call (.boundary s.samples))
  | failed (samples : Nat) (pc : s.compare call = .boundary samples)
      (exceeds : pol.exceeds s.mismatches samples = true) :
      CompareMove pol s call matched
        ({ s with judged := s.judged ++ [(samples, s.mismatches)] }.goto call .failing)
  | passed (samples : Nat) (pc : s.compare call = .boundary samples)
      (within : pol.exceeds s.mismatches samples = false) :
      CompareMove pol s call matched
        ({ s with judged := s.judged ++ [(samples, s.mismatches)] }.goto call .passed)
  | reasoned (pc : s.compare call = .failing) :
      CompareMove pol s call matched ({ s with reason := "mismatch_rate" }.goto call .aborting)
  | aborted (pc : s.compare call = .aborting) :
      CompareMove pol s call matched ((s.storePhase .aborted).finish call)
  | topped (pc : s.compare call = .passed) (rate : pol.atMax s.rate = true) :
      CompareMove pol s call matched (s.goto call .ready)
  | stepped (pc : s.compare call = .passed) (rate : pol.atMax s.rate = false) :
      CompareMove pol s call matched (s.goto call (.stepping (pol.nextRate s.rate)))
  | promoted (pc : s.compare call = .ready) :
      CompareMove pol s call matched ((s.storePhase .promoteReady).finish call)
  | rated (next : Nat) (pc : s.compare call = .stepping next) :
      CompareMove pol s call matched ({ s with rate := next }.goto call .resuming)
  | resumed (pc : s.compare call = .resuming) :
      CompareMove pol s call matched ((s.storePhase .ramping).finish call)

theorem compareStep_move (h : compareStep pol s call matched = some t) :
    CompareMove pol s call matched t := by
  unfold compareStep at h
  cases hpc : s.compare call with
  | idle =>
    rw [hpc] at h
    cases h
    exact .sampled hpc
  | added m =>
    rw [hpc] at h
    cases m with
    | true =>
      cases h
      exact .agreed hpc
    | false =>
      cases h
      exact .differed hpc
  | counted =>
    simp only [hpc] at h
    split_ifs at h with hphase <;> cases h
    · exact .closed hpc hphase
    · exact .phased hpc hphase
  | phased =>
    simp only [hpc] at h
    split_ifs at h with hsamples <;> cases h
    · exact .inside hpc hsamples
    · exact .reached hpc hsamples
  | boundary samples =>
    simp only [hpc] at h
    split_ifs at h with hexceeds <;> cases h
    · exact .failed samples hpc hexceeds
    · exact .passed samples hpc (Bool.eq_false_iff.mpr hexceeds)
  | failing =>
    rw [hpc] at h
    cases h
    exact .reasoned hpc
  | aborting =>
    rw [hpc] at h
    cases h
    exact .aborted hpc
  | passed =>
    simp only [hpc] at h
    split_ifs at h with hrate <;> cases h
    · exact .topped hpc hrate
    · exact .stepped hpc (Bool.eq_false_iff.mpr hrate)
  | ready =>
    rw [hpc] at h
    cases h
    exact .promoted hpc
  | stepping next =>
    rw [hpc] at h
    cases h
    exact .rated next hpc
  | resuming =>
    rw [hpc] at h
    cases h
    exact .resumed hpc
  | returned =>
    rw [hpc] at h
    cases h

theorem CompareMove.others (h : CompareMove pol s call matched t) (hother : other ≠ call) :
    t.compare other = s.compare other := by
  cases h <;> exact goto_of_ne _ _ hother

theorem CompareMove.promoter (h : CompareMove pol s call matched t) :
    t.promoter = s.promoter := by
  cases h <;> rfl

end NatsClient.Graduate
