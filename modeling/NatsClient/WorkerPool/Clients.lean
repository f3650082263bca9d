import NatsClient.WorkerPool.Accounting

namespace NatsClient.WorkerPool

variable {C M F P W S : Type} {cfg : Config C M F P} {sh sh' : Shared C M F P} {p : P}
  {pc pc' : PubPc}

-- The call is on its way to report a full buffer.
def PubPc.rejecting : PubPc → Bool
  | .rollback _ .full | .discard _ .full | .leave .rejected | .left _ .rejected
  | .done .rejected => true
  | _ => false

-- Only a non-blocking call reports a full buffer.
theorem PubMove.not_rejecting (h : PubMove cfg sh p pc sh' pc')
    (hb : (cfg.request p).nonBlocking = false) (hpc : pc.rejecting = false) :
    pc'.rejecting = false := by
  cases h with
  | @gaveUp r cause h =>
    cases cause with
    | full => rw [Cause.due, hb] at h; cases h
    | _ => rfl
  | @rolledBack r cause => cases cause <;> first | rfl | cases hpc
  | @discarded r cause => cases cause <;> first | rfl | cases hpc
  | @leaving result => cases result <;> first | rfl | cases hpc
  | @signalled _ _ next h => cases next <;> rfl
  | @finished _ _ next result h => cases next <;> cases result <;> first | rfl | cases hpc
  | _ => rfl

-- The call has met no context that is done and no pool that stops.
def PubPc.calm : PubPc → Bool
  | .rollback _ (.caller _) | .rollback _ .pool | .discard _ (.caller _) | .discard _ .pool
  | .recheck | .leave (.failed _) | .left _ (.failed _) | .done (.failed _) => false
  | _ => true

theorem PubMove.calm (h : PubMove cfg sh p pc sh' pc') (hf : sh.flag = .running)
    (hc : sh.ctxErr = none) (hp : sh.callerErr p = none) (hpc : pc.calm = true) :
    pc'.calm = true := by
  cases h with
  | refused h => exact absurd hf h
  | @gaveUp r cause h =>
    cases cause with
    | full => rfl
    | caller e => rw [Cause.due, hp] at h; cases h
    | pool => rw [Cause.due, hc] at h; cases h
  | @rolledBack r cause => cases cause <;> first | rfl | cases hpc
  | @discarded r cause => cases cause <;> first | rfl | cases hpc
  | @leaving result => cases result <;> first | rfl | cases hpc
  | @signalled _ _ next h => cases next <;> rfl
  | @finished _ _ next result h => cases next <;> cases result <;> first | rfl | cases hpc
  | _ => first | rfl | cases hpc

theorem PubMove.not_done {result : Result} : ¬ PubMove cfg sh p (.done result) sh' pc' := by
  intro h
  cases h

variable {s t : State C M F P W S} {a : Act P W S}

-- The call whose handler a worker is about to call.
def WorkPc.invoking? : WorkPc P → Option P
  | .invoke _ p _ => some p
  | _ => none

-- The call whose handler an action calls.
def State.invoking (s : State C M F P W S) : Act P W S → Option P
  | .work w _ => (s.work w).invoking?
  | _ => none

theorem exists_of_invoking (h : s.invoking a = some p) :
    ∃ w r back, s.work w = .invoke r p back := by
  cases a with
  | work w choice =>
    have hw : (s.work w).invoking? = some p := h
    cases hpc : s.work w with
    | invoke r q back =>
      rw [hpc] at hw
      cases hw
      exact ⟨w, r, back, hpc⟩
    | _ =>
      rw [hpc] at hw
      cases hw
  | _ => cases h

variable [DecidableEq P] [DecidableEq W] [DecidableEq S]

theorem step_pub_of_ne (h : step cfg s a = some t) (hp : a.publisher? ≠ some p) :
    t.pub p = s.pub p := by
  cases a with
  | publish q choice =>
    obtain ⟨next, -, rfl⟩ := Option.map_eq_some_iff.mp h
    exact Function.update_of_ne (fun he => hp (congrArg some he.symm)) _ _
  | handoff q w =>
    simp only [step, handoffStep] at h
    split at h
    · split_ifs at h
      obtain ⟨next, -, rfl⟩ := Option.map_eq_some_iff.mp h
      exact Function.update_of_ne (fun he => hp (congrArg some he.symm)) _ _
    · cases h
  | work w choice =>
    obtain ⟨next, -, rfl⟩ := Option.map_eq_some_iff.mp h
    rfl
  | stop i =>
    obtain ⟨next, -, rfl⟩ := Option.map_eq_some_iff.mp h
    rfl
  | cancelCaller q err =>
    simp only [step] at h
    split_ifs at h
    cases h
    rfl
  | cancelParent err =>
    cases h
    rfl

-- What a call of tryPublish sees of a step of the pool.
theorem step_pub (h : step cfg s a = some t) (p : P) :
    t.pub p = s.pub p ∨ ∃ sh', PubMove cfg s.shared p (s.pub p) sh' (t.pub p) := by
  by_cases hp : a.publisher? = some p
  · right
    cases a with
    | publish q choice =>
      cases hp
      obtain ⟨next, hnext, rfl⟩ := Option.map_eq_some_iff.mp h
      exact ⟨next.1, by simpa [State.setPub] using pubStep_move hnext⟩
    | handoff q w =>
      cases hp
      simp only [step, handoffStep] at h
      split at h
      · next r hpub =>
        split_ifs at h
        obtain ⟨next, -, rfl⟩ := Option.map_eq_some_iff.mp h
        refine ⟨{ s.shared with input := s.shared.input ++ [(r, p)] }, ?_⟩
        simp only [State.setWork, State.setPub, Function.update_self, hpub]
        exact .sent
      · cases h
    | _ => cases hp
  · exact .inl (step_pub_of_ne h hp)

def Act.isStop : Act P W S → Bool
  | .stop _ => true
  | _ => false

-- Only GracefulStop and the parent context end the pool, and only its own context a call.
theorem step_shared (h : step cfg s a = some t) (hs : a.isStop = false)
    (hp : a.isParent = false) :
    t.shared.flag = s.shared.flag ∧ t.shared.ctxErr = s.shared.ctxErr ∧
      ∀ p, (∀ err, a ≠ .cancelCaller p err) → t.shared.callerErr p = s.shared.callerErr p := by
  cases a with
  | publish q choice =>
    obtain ⟨next, hnext, rfl⟩ := Option.map_eq_some_iff.mp h
    have hf := (pubStep_move hnext).frame
    exact ⟨hf.flag, hf.ctxErr, fun p _ => congrFun hf.callerErr p⟩
  | work w choice =>
    obtain ⟨next, hnext, rfl⟩ := Option.map_eq_some_iff.mp h
    have hf := (workStep_move hnext).frame
    exact ⟨hf.flag, hf.ctxErr, fun p _ => congrFun hf.callerErr p⟩
  | handoff q w =>
    simp only [step, handoffStep] at h
    split at h
    · split_ifs at h
      obtain ⟨next, -, rfl⟩ := Option.map_eq_some_iff.mp h
      exact ⟨rfl, rfl, fun _ _ => rfl⟩
    · cases h
  | stop i => cases hs
  | cancelCaller q err =>
    simp only [step] at h
    split_ifs at h
    cases h
    refine ⟨rfl, rfl, fun p hne => Function.update_of_ne ?_ _ _⟩
    rintro rfl
    exact hne err rfl
  | cancelParent err => cases hp

theorem step_pub_done (h : step cfg s a = some t) {result : Result}
    (hp : s.pub p = .done result) : t.pub p = .done result := by
  rcases step_pub h p with hsame | ⟨sh', hm⟩
  · exact hsame.trans hp
  · rw [hp] at hm
    exact absurd hm PubMove.not_done

theorem step_pub_not_rejecting (h : step cfg s a = some t)
    (hb : (cfg.request p).nonBlocking = false) (hp : (s.pub p).rejecting = false) :
    (t.pub p).rejecting = false := by
  rcases step_pub h p with hsame | ⟨sh', hm⟩
  · rwa [hsame]
  · exact hm.not_rejecting hb hp

theorem WorkMove.log_count {pc pc' : WorkPc P} (h : WorkMove cfg sh pc sh' pc') (q : P) :
    sh'.log.countP (fun call => call.origin = q) =
      sh.log.countP (fun call => call.origin = q) +
        if pc.invoking? = some q then 1 else 0 := by
  cases h with
  | received hin hpc => cases pc <;> first | rfl | cases hpc
  | signalled h => simp [WorkPc.invoking?, (signal_quiet h).log]
  | returned h => simp [WorkPc.invoking?, (signal_quiet h).log]
  | drained h hpc hpc' _ =>
    rw [h.log]
    cases pc <;> first | rfl | cases hpc
  | invoked =>
    simp [WorkPc.invoking?, List.countP_append, List.countP_singleton, Task.invocation]
  | _ => simp [WorkPc.invoking?, put]

theorem step_log_count (h : step cfg s a = some t) (q : P) :
    t.shared.log.countP (fun call => call.origin = q) =
      s.shared.log.countP (fun call => call.origin = q) +
        if s.invoking a = some q then 1 else 0 := by
  cases a with
  | publish p choice =>
    obtain ⟨next, hnext, rfl⟩ := Option.map_eq_some_iff.mp h
    simp [State.invoking, State.setPub, (pubStep_move hnext).frame.log]
  | work w choice =>
    obtain ⟨next, hnext, rfl⟩ := Option.map_eq_some_iff.mp h
    exact (workStep_move hnext).log_count q
  | handoff p w =>
    simp only [step, handoffStep] at h
    split at h
    · split_ifs at h
      obtain ⟨next, -, rfl⟩ := Option.map_eq_some_iff.mp h
      rfl
    · cases h
  | stop i =>
    obtain ⟨next, hnext, rfl⟩ := Option.map_eq_some_iff.mp h
    simp [State.invoking, State.setStop, (stopStep_move hnext).frame.log]
  | cancelCaller p err =>
    simp only [step] at h
    split_ifs at h
    cases h
    rfl
  | cancelParent err =>
    cases h
    rfl

end NatsClient.WorkerPool
