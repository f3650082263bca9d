import NatsClient.Graduate.Exact

namespace NatsClient.Graduate

namespace Canary

variable {pol : Policy} {g : Canary}

theorem promote_of_ready (hready : g.phase = .promoteReady) :
    g.promote = { g with phase := .holding } := if_neg (not_not.mpr hready)

-- The calls of OnPromoteReady.
def readied (g : Canary) : Nat := g.callbacks.count .onPromoteReady

-- What a promotion has set up: nothing but Holding, and no more calls of OnPromoteReady.
def Promoted (g h : Canary) : Prop :=
  h.phase ≠ .ramping ∧ h.phase ≠ .promoteReady ∧ h.readied = g.readied

-- Inside a window nothing changes.
theorem observe_inside {h : Canary} {results : List Bool} (hholding : h.phase = .holding)
    (hhealthy : h.Healthy pol results)
    (hinside : ∀ before, before <+: results → before ≠ [] →
      ¬ (h.observe pol before).AtBoundary pol) :
    (h.observe pol results).phase = .holding ∧
      (h.observe pol results).callbacks = h.callbacks := by
  induction results using List.reverseRecOn with
  | nil => exact ⟨hholding, rfl⟩
  | append_singleton results matched ih =>
    have hle : results <+: results ++ [matched] := List.prefix_append _ _
    obtain ⟨hphase, hcallbacks⟩ := ih (hhealthy.shorten hle)
      fun before hbefore => hinside before (hbefore.trans hle)
    have hboundary := hinside (results ++ [matched]) List.prefix_rfl (by simp)
    cases hhealthy.passes with
    | closed phase same rate callbacks =>
      rw [hphase] at phase
      exact absurd phase (by decide)
    | inside phase boundary same rate callbacks =>
      exact ⟨same.trans hphase, callbacks.trans hcallbacks⟩
    | topped phase boundary => exact absurd boundary hboundary
    | stepped phase boundary => exact absurd boundary hboundary

-- At a boundary a Graduate that holds is ready again, or ramps on.
theorem observe_boundary {h : Canary} {results : List Bool} {matched : Bool}
    (hholding : (h.observe pol results).phase = .holding)
    (hhealthy : h.Healthy pol (results ++ [matched]))
    (hboundary : (h.observe pol (results ++ [matched])).AtBoundary pol) :
    (h.observe pol (results ++ [matched])).phase = .ramping ∨
      (h.observe pol (results ++ [matched])).phase = .promoteReady := by
  cases hhealthy.passes with
  | closed phase =>
    rw [hholding] at phase
    exact absurd phase (by decide)
  | inside phase boundary => exact absurd hboundary boundary
  | topped phase boundary atMax ready => exact .inr ready
  | stepped phase boundary atMax ramping => exact .inl ramping

theorem inside_of_promoted {h : Canary} {results : List Bool} (hholding : h.phase = .holding)
    (hhealthy : h.Healthy pol results)
    (hkept : ∀ before, before <+: results →
      (h.observe pol before).phase ≠ .ramping ∧ (h.observe pol before).phase ≠ .promoteReady) :
    ∀ before, before <+: results → before ≠ [] → ¬ (h.observe pol before).AtBoundary pol := by
  induction results using List.reverseRecOn with
  | nil =>
    intro before hbefore hne
    exact absurd (List.prefix_nil.mp hbefore) hne
  | append_singleton results matched ih =>
    have hle : results <+: results ++ [matched] := List.prefix_append _ _
    have hinside := ih (hhealthy.shorten hle) fun before hbefore =>
      hkept before (hbefore.trans hle)
    obtain ⟨hphase, -⟩ := observe_inside hholding (hhealthy.shorten hle) hinside
    intro before hbefore hne
    rcases List.prefix_concat_iff.mp hbefore with rfl | hshorter
    · intro hboundary
      obtain ⟨hramping, hready⟩ := hkept (results ++ [matched]) hbefore
      exact (observe_boundary hphase hhealthy hboundary).elim hramping hready
    · exact hinside before hshorter hne

end Canary

open Canary Lib.Machine

-- Holding is not among the phases that evaluateWindow leaves alone: a promotion lasts up to the
-- next window boundary, which makes the Graduate ready again. Promote and comparisons made one at
-- a time, in atomic steps, do to a Graduate what is said here.
theorem promotion_kept_iff {C A P : Type} [DecidableEq C] [DecidableEq P] (pol : Policy)
    (g : Canary) (results : List Bool)
    (hready : g.phase = .promoteReady) (hhealthy : g.promote.Healthy pol results) :
    ((∀ before, before <+: results → Promoted g (g.promote.observe pol before)) ↔
      ∀ before, before <+: results → before ≠ [] →
        ¬ (g.promote.observe pol before).AtBoundary pol) ∧
    ∀ (s : State C A P) (call : P) (callbacks : List Callback), s.canary callbacks = g →
      (∀ c, (s.compare c).resting) → s.promoter call = .idle →
      ∃ acts t, exec promoteStep s acts = some t ∧ t.promoter call = .returned ∧
        ∀ before s' later, Sequential pol t before s' later →
          s'.canary (callbacks ++ later) = g.promote.observe pol before := by
  have hpromote := promote_of_ready hready
  have hholding : g.promote.phase = .holding := by rw [hpromote]
  have hcallbacks : g.promote.callbacks = g.callbacks := by rw [hpromote]
  refine ⟨⟨?_, ?_⟩, ?_⟩
  · intro hkept
    refine inside_of_promoted hholding hhealthy fun before hbefore => ?_
    obtain ⟨hramping, hpromoteReady, -⟩ := hkept before hbefore
    exact ⟨hramping, hpromoteReady⟩
  · intro hinside before hbefore
    obtain ⟨hphase, hsame⟩ := observe_inside hholding (hhealthy.shorten hbefore)
      fun shorter hshorter => hinside shorter (hshorter.trans hbefore)
    refine ⟨?_, ?_, ?_⟩
    · rw [hphase]
      decide
    · rw [hphase]
      decide
    · rw [readied, hsame, hcallbacks]
      rfl
  · rintro s call callbacks rfl hrest hidle
    obtain ⟨acts, t, hexec, hreturned, hcompare, -, hcanary⟩ := promote_alone hidle
    refine ⟨acts, t, hexec, hreturned, fun before s' later h => ?_⟩
    rw [h.canary (by rwa [hcompare]) callbacks, hcanary]

-- The default rates with a window of two: six windows make the Graduate ready.
def pairs : Policy := (Exact.GraduateConfig.mk 0 0 0 0 2).policy

def rampedUp : Canary := (start pairs).observe pairs (List.replicate 12 true)

theorem promotion_kept_once :
    rampedUp.phase = .promoteReady ∧
      ∀ before, before <+: [true] → Promoted rampedUp (rampedUp.promote.observe pairs before) := by
  have hready : rampedUp.phase = .promoteReady := by decide +kernel
  have hinside : ∀ before, before <+: [true] → before ≠ [] →
      ¬ (rampedUp.promote.observe pairs before).AtBoundary pairs := by
    intro before hbefore hne
    have hconcat : before <+: [] ++ [true] := hbefore
    rcases List.prefix_concat_iff.mp hconcat with rfl | hnil
    · decide +kernel
    · exact absurd (List.prefix_nil.mp hnil) hne
  have hhealthy : rampedUp.promote.Healthy pairs [true] :=
    fun before hbefore hne hboundary => absurd hboundary (hinside before hbefore hne)
  exact ⟨hready, (promotion_kept_iff (C := Empty) (A := Empty) (P := Empty) pairs rampedUp [true]
    hready hhealthy).1.mpr hinside⟩

-- The window after the promotion undoes it, and OnPromoteReady is called a second time.
theorem promotion_undone :
    rampedUp.phase = .promoteReady ∧ rampedUp.promote.phase = .holding ∧
      (rampedUp.promote.observe pairs [true, true]).phase = .promoteReady ∧
      rampedUp.callbacks = [.onPromoteReady] ∧
      (rampedUp.promote.observe pairs [true, true]).callbacks =
        [.onPromoteReady, .onPromoteReady] := by
  decide +kernel

end NatsClient.Graduate
