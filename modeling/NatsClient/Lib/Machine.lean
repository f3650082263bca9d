import Mathlib.Logic.Relation

namespace Lib.Machine

variable {σ α : Type*}

-- Runs a list of actions. A disabled action stops the run.
def exec (step : σ → α → Option σ) : σ → List α → Option σ
  | s, [] => some s
  | s, a :: rest => (step s a).bind fun next => exec step next rest

def Reaches (step : σ → α → Option σ) (s t : σ) : Prop :=
  ∃ acts, exec step s acts = some t

-- Every action of the run is taken in a state that meets the condition.
def Along (step : σ → α → Option σ) (cond : σ → α → Prop) : σ → List α → Prop
  | _, [] => True
  | s, a :: rest => cond s a ∧ ∀ next, step s a = some next → Along step cond next rest

-- Follows a schedule. A disabled action is passed over.
def follow (step : σ → α → Option σ) (s : σ) (acts : List α) : σ :=
  acts.foldl (fun s a => (step s a).getD s) s

-- What the actions of a run put out.
def outputs {ε : Type*} (step : σ → α → Option σ) (emit : σ → α → List ε) : σ → List α → List ε
  | _, [] => []
  | s, a :: rest => emit s a ++ (step s a).elim [] fun next => outputs step emit next rest

variable {step : σ → α → Option σ} {s t u : σ}

theorem exec_cons_eq_some {a : α} {rest : List α} :
    exec step s (a :: rest) = some t ↔
      ∃ next, step s a = some next ∧ exec step next rest = some t := by
  simp [exec, Option.bind_eq_some_iff]

theorem exec_append (s : σ) (first second : List α) :
    exec step s (first ++ second) = (exec step s first).bind fun mid => exec step mid second := by
  induction first generalizing s with
  | nil => simp [exec]
  | cons a rest ih =>
    simp only [List.cons_append, exec]
    cases step s a with
    | none => rfl
    | some next => simpa using ih next

theorem exec_append_eq_some {first second : List α} :
    exec step s (first ++ second) = some u ↔
      ∃ t, exec step s first = some t ∧ exec step t second = some u := by
  rw [exec_append, Option.bind_eq_some_iff]

theorem exec_concat {acts : List α} {a : α} (hexec : exec step s acts = some t)
    (hstep : step t a = some u) : exec step s (acts ++ [a]) = some u :=
  exec_append_eq_some.mpr ⟨t, hexec, by simp [exec, hstep]⟩

theorem Reaches.refl (s : σ) : Reaches step s s := ⟨[], rfl⟩

theorem Reaches.trans (h : Reaches step s t) (h' : Reaches step t u) : Reaches step s u := by
  obtain ⟨first, hf⟩ := h
  obtain ⟨second, hs⟩ := h'
  exact ⟨first ++ second, exec_append_eq_some.mpr ⟨t, hf, hs⟩⟩

theorem Reaches.single {a : α} (h : step s a = some t) : Reaches step s t :=
  ⟨[a], by simp [exec, h]⟩

theorem along_cons_iff {cond : σ → α → Prop} {a : α} {rest : List α} (h : step s a = some t) :
    Along step cond s (a :: rest) ↔ cond s a ∧ Along step cond t rest := by
  refine and_congr_right fun _ => ⟨fun hrest => hrest t h, fun hrest other hother => ?_⟩
  obtain rfl : t = other := Option.some.inj (h.symm.trans hother)
  exact hrest

-- The invariant rule for conditional runs: a step that meets the condition
-- keeps the invariant.
theorem Along.invariant {cond : σ → α → Prop} {P : σ → Prop}
    (hstep : ∀ s a t, P s → cond s a → step s a = some t → P t)
    {acts : List α} (halong : Along step cond s acts) (hexec : exec step s acts = some t)
    (hs : P s) : P t := by
  induction acts generalizing s with
  | nil =>
    obtain rfl : s = t := by simpa [exec] using hexec
    exact hs
  | cons a rest ih =>
    obtain ⟨next, hnext, hrest⟩ := exec_cons_eq_some.mp hexec
    exact ih (halong.2 next hnext) hrest (hstep s a next hs halong.1 hnext)

theorem outputs_append {ε : Type*} (emit : σ → α → List ε) {first : List α} (second : List α)
    (hexec : exec step s first = some t) :
    outputs step emit s (first ++ second) =
      outputs step emit s first ++ outputs step emit t second := by
  induction first generalizing s with
  | nil =>
    obtain rfl : s = t := by simpa [exec] using hexec
    rfl
  | cons a rest ih =>
    obtain ⟨next, hnext, hrest⟩ := exec_cons_eq_some.mp hexec
    simp only [List.cons_append, outputs, hnext, Option.elim_some, ih hrest, List.append_assoc]

theorem outputs_single {ε : Type*} (emit : σ → α → List ε) (s : σ) (a : α) :
    outputs step emit s [a] = emit s a := by
  cases h : step s a <;> simp [outputs, h]

-- The same for what holds of the state together with what the run has put out.
theorem Along.outputs_invariant {ε : Type*} {emit : σ → α → List ε} {cond : σ → α → Prop}
    {P : σ → List ε → Prop}
    (hstep : ∀ s a t out, P s out → cond s a → step s a = some t → P t (out ++ emit s a))
    {acts : List α} (halong : Along step cond s acts) (hexec : exec step s acts = some t)
    {out : List ε} (hs : P s out) : P t (out ++ outputs step emit s acts) := by
  induction acts generalizing s out with
  | nil =>
    obtain rfl : s = t := by simpa [exec] using hexec
    simpa [outputs] using hs
  | cons a rest ih =>
    obtain ⟨next, hnext, hrest⟩ := exec_cons_eq_some.mp hexec
    have hlast := ih (halong.2 next hnext) hrest (hstep s a next out hs halong.1 hnext)
    simpa [outputs, hnext] using hlast

theorem outputs_self {acts : List α} (hexec : exec step s acts = some t) :
    outputs step (fun _ a => [a]) s acts = acts := by
  induction acts generalizing s with
  | nil => rfl
  | cons a rest ih =>
    obtain ⟨next, hnext, hrest⟩ := exec_cons_eq_some.mp hexec
    simp [outputs, hnext, ih hrest]

-- The same for what holds of the state together with the actions taken so far.
theorem Along.trace_invariant {cond : σ → α → Prop} {P : σ → List α → Prop}
    (hstep : ∀ s a t done, P s done → cond s a → step s a = some t → P t (done ++ [a]))
    {acts : List α} (halong : Along step cond s acts) (hexec : exec step s acts = some t)
    (hs : P s []) : P t acts := by
  simpa [outputs_self hexec] using halong.outputs_invariant hstep hexec hs

theorem Along.append {cond : σ → α → Prop} {first second : List α}
    (h : Along step cond s (first ++ second)) (hexec : exec step s first = some t) :
    Along step cond s first ∧ Along step cond t second := by
  induction first generalizing s with
  | nil =>
    obtain rfl : s = t := by simpa [exec] using hexec
    exact ⟨trivial, h⟩
  | cons a rest ih =>
    obtain ⟨next, hnext, hrest⟩ := exec_cons_eq_some.mp hexec
    obtain ⟨hfirst, hsecond⟩ := ih (h.2 next hnext) hrest
    exact ⟨(along_cons_iff hnext).mpr ⟨h.1, hfirst⟩, hsecond⟩

theorem Along.concat {cond : σ → α → Prop} {first second : List α}
    (hfirst : Along step cond s first) (hexec : exec step s first = some t)
    (hsecond : Along step cond t second) : Along step cond s (first ++ second) := by
  induction first generalizing s with
  | nil =>
    obtain rfl : s = t := by simpa [exec] using hexec
    exact hsecond
  | cons a rest ih =>
    obtain ⟨next, hnext, hrest⟩ := exec_cons_eq_some.mp hexec
    exact (along_cons_iff hnext).mpr ⟨hfirst.1, ih (hfirst.2 next hnext) hrest⟩

theorem along_of_forall (cond : σ → α → Prop) (h : ∀ s a, cond s a) (s : σ) (acts : List α) :
    Along step cond s acts := by
  induction acts generalizing s with
  | nil => trivial
  | cons a rest ih => exact ⟨h s a, fun next _ => ih next⟩

instance decidableAlong {cond : σ → α → Prop} [∀ s a, Decidable (cond s a)] :
    (s : σ) → (acts : List α) → Decidable (Along step cond s acts)
  | _, [] => isTrue trivial
  | s, a :: rest =>
    match h : step s a with
    | none => decidable_of_iff (cond s a) ⟨fun hc => ⟨hc, fun next hnext => by simp [h] at hnext⟩,
        fun halong => halong.1⟩
    | some next =>
      have : Decidable (Along step cond next rest) := decidableAlong next rest
      decidable_of_iff (cond s a ∧ Along step cond next rest) <| by
        refine and_congr_right fun _ => ⟨fun hrest other hother => ?_, fun hrest => hrest next h⟩
        obtain rfl : next = other := Option.some.inj (h.symm.trans hother)
        exact hrest

theorem along_of_forall_mem (cond : σ → α → Prop) {acts : List α}
    (h : ∀ a ∈ acts, ∀ s, cond s a) (s : σ) : Along step cond s acts := by
  induction acts generalizing s with
  | nil => trivial
  | cons a rest ih =>
    exact ⟨h a (by simp) s, fun next _ => ih (fun b hb => h b (by simp [hb])) next⟩

-- The unconditional invariant rule.
theorem Reaches.invariant {P : σ → Prop}
    (hstep : ∀ s a t, P s → step s a = some t → P t)
    (h : Reaches step s t) (hs : P s) : P t := by
  obtain ⟨acts, hexec⟩ := h
  exact (along_of_forall (fun _ _ => True) (fun _ _ => trivial) s acts).invariant
    (fun s a t hi _ => hstep s a t hi) hexec hs

theorem outputs_invariant {ε : Type*} {emit : σ → α → List ε} {P : σ → List ε → Prop}
    (hstep : ∀ s a t out, P s out → step s a = some t → P t (out ++ emit s a))
    {acts : List α} (hexec : exec step s acts = some t) {out : List ε} (hs : P s out) :
    P t (out ++ outputs step emit s acts) :=
  (along_of_forall (fun _ _ => True) (fun _ _ => trivial) s acts).outputs_invariant
    (fun s a t out hi _ => hstep s a t out hi) hexec hs

-- Induction over the runs from a state, by the last step.
theorem exec_induction {P : σ → List α → Prop} (hs : P s [])
    (hstep : ∀ acts mid a next, exec step s acts = some mid → P mid acts →
      step mid a = some next → P next (acts ++ [a]))
    {acts : List α} (hexec : exec step s acts = some t) : P t acts := by
  have hrun : exec step s acts = some t ∧ P t acts := by
    refine (along_of_forall (fun _ _ => True) (fun _ _ => trivial) s acts).trace_invariant
      (P := fun mid acts => exec step s acts = some mid ∧ P mid acts) ?_ hexec ⟨rfl, hs⟩
    rintro mid a next acts ⟨hacts, hmid⟩ - ha
    exact ⟨exec_concat hacts ha, hstep acts mid a next hacts hmid ha⟩
  exact hrun.2

-- A run seen through a part of the state: the actions that concern the part are a run of it, and
-- the others leave it unchanged.
theorem exec_filterMap {τ β : Type*} {part : τ → β → Option τ} (view : σ → τ)
    (concerns : α → Option β)
    (hstep : ∀ s a t, step s a = some t →
      (concerns a).elim (some (view s)) (part (view s)) = some (view t))
    {acts : List α} (hexec : exec step s acts = some t) :
    exec part (view s) (acts.filterMap concerns) = some (view t) := by
  induction acts generalizing s with
  | nil =>
    obtain rfl : s = t := by simpa [exec] using hexec
    rfl
  | cons a rest ih =>
    obtain ⟨next, hnext, hrest⟩ := exec_cons_eq_some.mp hexec
    have hpart := hstep s a next hnext
    cases hc : concerns a with
    | none =>
      have hview : view s = view next := by simpa [hc] using hpart
      rw [List.filterMap_cons_none hc, hview]
      exact ih hrest
    | some b =>
      rw [List.filterMap_cons_some hc]
      exact exec_cons_eq_some.mpr ⟨view next, by simpa [hc] using hpart, ih hrest⟩

-- Conditions that agree in every state with the invariant agree along runs.
theorem along_congr {first second : σ → α → Prop} {P : σ → Prop}
    (hstep : ∀ s a t, P s → step s a = some t → P t)
    (hiff : ∀ s a, P s → (first s a ↔ second s a)) (hs : P s) (acts : List α) :
    Along step first s acts ↔ Along step second s acts := by
  induction acts generalizing s with
  | nil => exact Iff.rfl
  | cons a rest ih =>
    refine and_congr (hiff s a hs) (forall_congr' fun next => ?_)
    exact forall_congr' fun hnext => ih (hstep s a next hs hnext)

-- A condition that the invariant guarantees holds along every run.
theorem along_of_invariant {cond : σ → α → Prop} {P : σ → Prop}
    (hstep : ∀ s a t, P s → step s a = some t → P t)
    (hcond : ∀ s a, P s → cond s a) (hs : P s) (acts : List α) :
    Along step cond s acts := by
  induction acts generalizing s with
  | nil => trivial
  | cons a rest ih => exact ⟨hcond s a hs, fun next hnext => ih (hstep s a next hs hnext)⟩

-- The same where only steps that meet a second condition keep the invariant.
theorem Along.mono_invariant {first second : σ → α → Prop} {P : σ → Prop}
    (hstep : ∀ s a t, P s → first s a → step s a = some t → P t)
    (hcond : ∀ s a, P s → first s a → second s a) (hs : P s) {acts : List α}
    (halong : Along step first s acts) : Along step second s acts := by
  induction acts generalizing s with
  | nil => trivial
  | cons a rest ih =>
    exact ⟨hcond s a hs halong.1, fun next hnext =>
      ih (hstep s a next hs halong.1 hnext) (halong.2 next hnext)⟩

-- A condition that fails somewhere on an executed run fails at a state the run
-- visits, before an action that the run takes from there.
theorem exists_violation {cond : σ → α → Prop} {acts : List α}
    (hexec : exec step s acts = some t) (h : ¬ Along step cond s acts) :
    ∃ before a after mid next, acts = before ++ a :: after ∧
      exec step s before = some mid ∧ ¬ cond mid a ∧ step mid a = some next ∧
      exec step next after = some t := by
  induction acts generalizing s with
  | nil => exact absurd trivial h
  | cons a rest ih =>
    obtain ⟨next, hnext, hrest⟩ := exec_cons_eq_some.mp hexec
    by_cases hc : cond s a
    · have hn : ¬ Along step cond next rest :=
        fun hl => h ((along_cons_iff hnext).mpr ⟨hc, hl⟩)
      obtain ⟨before, b, after, mid, follow, rfl, hb, hcb, hs, ha⟩ := ih hrest hn
      exact ⟨a :: before, b, after, mid, follow, rfl,
        exec_cons_eq_some.mpr ⟨next, hnext, hb⟩, hcb, hs, ha⟩
    · exact ⟨[], a, rest, s, next, rfl, rfl, hc, hnext, hrest⟩

theorem follow_append (s : σ) (first second : List α) :
    follow step s (first ++ second) = follow step (follow step s first) second := by
  simp [follow, List.foldl_append]

theorem follow_cons_of_some {a : α} {rest : List α} (h : step s a = some t) :
    follow step s (a :: rest) = follow step t rest := by
  simp [follow, h]

theorem follow_invariant {P : σ → Prop} (hstep : ∀ s a t, P s → step s a = some t → P t)
    (hs : P s) (acts : List α) : P (follow step s acts) := by
  induction acts generalizing s with
  | nil => exact hs
  | cons a rest ih =>
    refine ih (s := (step s a).getD s) ?_
    cases ha : step s a with
    | none => exact hs
    | some next => exact hstep s a next hs ha

end Lib.Machine
