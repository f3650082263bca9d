import NatsClient.Idempotency.Theorems

namespace NatsClient.Idempotency

open Lib.Machine

variable {ι : Type} [DecidableEq ι] {inv : Invocations ι} {s t : State ι} {a : Act ι} {i : ι}

-- The invocation has returned, or its panic is on the way to the recover of invokeMsgHandler.
def Over : Pc → Prop
  | .returned _ => True
  | .panicked => True
  | _ => False

-- The bucket serves the invocation without a failure, and no other invocation for its id acts.
def Alone (inv : Invocations ι) (i : ι) : Act ι → Prop
  | .store j fault => (j = i ∧ fault = .none) ∨ inv.id j ≠ inv.id i
  | .finish j _ => j = i ∨ inv.id j ≠ inv.id i
  | .expire _ => True

-- What the key of the id is to hold after the handler has come back.
def stored : Outcome → Option Bytes
  | .returned none => some doneValue
  | _ => none

-- What the next delivery is to come to: a nil return, or its handler.
def redelivered : Outcome → Pc
  | .returned none => .returned none
  | _ => .running .claimed

-- No claim is left behind, and a redelivery does not have to wait.
structure Settled (inv : Invocations ι) (i : ι) (o : Outcome) (s : State ι) : Prop where
  value : s.bucket (inv.id i) = stored o
  redelivery : ∀ j, inv.id j = inv.id i → s.pc j = .start → ∃ n t,
    exec (step inv) s (List.replicate n (.store j .none)) = some t ∧ t.pc j = redelivered o

theorem goto_pc_self (s : State ι) (i : ι) (pc : Pc) : (s.goto i pc).pc i = pc :=
  Function.update_self ..

-- The invocation that takes the step.
def Act.actor : Act ι → Option ι
  | .store i _ => some i
  | .finish i _ => some i
  | .expire _ => none

theorem Move.pc_of_ne (hm : Move inv s a t) (hi : a.actor ≠ some i) : t.pc i = s.pc i := by
  have hgoto : t.pc = s.pc ∨ ∃ j pc, a.actor = some j ∧ t.pc = Function.update s.pc j pc := by
    cases hm with
    | expired => exact .inl rfl
    | _ => exact .inr ⟨_, _, rfl, rfl⟩
  obtain heq | ⟨j, pc, hj, heq⟩ := hgoto
  · rw [heq]
  · rw [heq, Function.update_of_ne]
    rintro rfl
    exact hi hj

theorem Move.bucket_of_ne (hm : Move inv s a t) {key : String}
    (hstore : ∀ j fault, a = .store j fault → inv.id j ≠ key) (hexpire : a ≠ .expire key) :
    t.bucket key = s.bucket key := by
  have htouched {j : ι} {fault : Fault} {value : Option Bytes} {b : Bucket}
      (hj : inv.id j ≠ key) (hb : Touched s.bucket (inv.id j) value fault b) :
      b key = s.bucket key := by
    obtain rfl | ⟨_, rfl⟩ := hb
    · rfl
    · exact Function.update_of_ne hj.symm _ _
  cases hm with
  | won => exact Function.update_of_ne (hstore _ _ rfl).symm _ _
  | marked => exact Function.update_of_ne (hstore _ _ rfl).symm _ _
  | lost _ _ _ hb _ _ => exact htouched (hstore _ _ rfl) hb
  | unmarked _ hb _ _ => exact htouched (hstore _ _ rfl) hb
  | @released j fault cause context e hpc =>
    change (release s.bucket (inv.id j) fault).1 key = s.bucket key
    rw [release_fst]
    split_ifs
    · exact Function.update_of_ne (hstore _ _ rfl).symm _ _
    · rfl
  | @expired other =>
    refine Function.update_of_ne (fun h => hexpire ?_) _ _
    rw [h]
  | bare | peeked | found | refused | panicked | succeeded | errored => rfl

-- The claim while its invocation is under way, after the given actions.
structure Held (inv : Invocations ι) (i : ι) (s : State ι) (acts : List (Act ι)) : Prop where
  valid : validateKVKey (inv.id i) = none
  claims : inv.claims = true
  pending : .expire (inv.id i) ∉ acts → s.bucket (inv.id i) = some pendingValue
  expired : .expire (inv.id i) ∈ acts → s.bucket (inv.id i) = none
  pc : (s.pc i = .running .claimed ∧ ∀ o, .finish i o ∉ acts) ∨
    (s.pc i = .marking .claimed ∧ ∀ o, .finish i o ∈ acts → o = .returned none) ∨
    ∃ e context, s.pc i = .releasing e context ∧
      ∀ o, .finish i o ∈ acts → o = .returned (some e)

-- What is left when the invocation has ended.
inductive Left (inv : Invocations ι) (i : ι) (s : State ι) (acts : List (Act ι)) : Prop
  | clean {err} (ho : ∀ o, .finish i o ∈ acts → o = .returned err)
      (hb : s.bucket (inv.id i) = stored (.returned err))
  | panicked (ho : ∀ o, .finish i o ∈ acts → ∃ value, o = .panicked value)
      (hpending : .expire (inv.id i) ∉ acts → s.bucket (inv.id i) = some pendingValue)
      (hexpired : .expire (inv.id i) ∈ acts → s.bucket (inv.id i) = none)

variable {acts : List (Act ι)}

theorem Held.of_won {fault : Fault} (hm : Move inv s (.store i fault) t)
    (ht : t.pc i = .running .claimed) : Held inv i t [] := by
  have hgoto {r : State ι} {pc : Pc} (h : (r.goto i pc).pc i = .running .claimed) :
      pc = .running .claimed := by
    rwa [goto_pc_self] at h
  cases hm with
  | won hpc hid hc hv hb =>
    exact ⟨hv, hc, fun _ => Function.update_self .., fun h => absurd h List.not_mem_nil,
      .inl ⟨ht, fun _ => List.not_mem_nil⟩⟩
  | lost _ _ _ _ _ hp => obtain rfl | ⟨e, rfl⟩ := hp <;> cases hgoto ht
  | unmarked _ _ _ hp => obtain ⟨_, e, context, rfl⟩ | ⟨_, e, rfl⟩ := hp <;> cases hgoto ht
  | _ => cases hgoto ht

-- The other invocations and the expiry of keys do not move the invocation.
theorem Held.others (hs : Held inv i s acts) (ha : Alone inv i a) (hi : a.actor ≠ some i)
    (hm : Move inv s a t) : Held inv i t (acts ++ [a]) := by
  have hfinish (o : Outcome) : .finish i o ∈ acts ++ [a] ↔ .finish i o ∈ acts := by
    rw [List.mem_append, List.mem_singleton]
    refine or_iff_left ?_
    rintro rfl
    exact hi rfl
  have hstore (j : ι) (fault : Fault) (heq : a = .store j fault) : inv.id j ≠ inv.id i := by
    subst heq
    exact ha.resolve_left fun h => hi (by rw [h.1]; rfl)
  have hpc := hs.pc
  rw [← hm.pc_of_ne hi] at hpc
  simp only [← hfinish] at hpc
  by_cases hexpire : a = .expire (inv.id i)
  · subst hexpire
    have hmem : .expire (inv.id i) ∈ acts ++ [.expire (inv.id i)] := by simp
    cases hm
    exact ⟨hs.valid, hs.claims, fun h => absurd hmem h, fun _ => Function.update_self .., hpc⟩
  · have hmem : .expire (inv.id i) ∈ acts ++ [a] ↔ .expire (inv.id i) ∈ acts := by
      rw [List.mem_append, List.mem_singleton]
      exact or_iff_left (Ne.symm hexpire)
    have hbucket := hm.bucket_of_ne hstore hexpire
    refine ⟨hs.valid, hs.claims, ?_, ?_, hpc⟩
    · rw [hmem, hbucket]
      exact hs.pending
    · rw [hmem, hbucket]
      exact hs.expired

-- A Mark or a Release ends the invocation.
theorem Held.store (hs : Held inv i s acts) (hm : Move inv s (.store i .none) t) :
    Over (t.pc i) ∧ Left inv i t (acts ++ [.store i .none]) := by
  have hfinish (o : Outcome) : .finish i o ∈ acts ++ [.store i .none] ↔ .finish i o ∈ acts := by
    simp
  have hpc := hs.pc
  simp only [← hfinish] at hpc
  cases hm with
  | @marked _ guard hmarking =>
    obtain ⟨h, -⟩ | ⟨h, ho⟩ | ⟨e, context, h, -⟩ := hpc
    · cases hmarking.symm.trans h
    · refine ⟨?_, .clean ho (Function.update_self ..)⟩
      rw [goto_pc_self]
      trivial
    · cases hmarking.symm.trans h
  | unmarked _ _ hf _ => exact absurd hs.valid (hf rfl)
  | @released _ _ cause context e hreleasing =>
    obtain ⟨h, -⟩ | ⟨h, -⟩ | ⟨err, context, h, ho⟩ := hpc
    · cases hreleasing.symm.trans h
    · cases hreleasing.symm.trans h
    · refine ⟨?_, .clean ho ?_⟩
      · rw [goto_pc_self]
        trivial
      · change (release s.bucket (inv.id i) .none).1 (inv.id i) = none
        rw [release_fst, if_pos ⟨hs.valid, rfl⟩, Function.update_self]
  | bare h _ | won h _ _ _ _ | lost h _ _ _ _ _ | peeked h _ _ =>
    obtain ⟨h', -⟩ | ⟨h', -⟩ | ⟨_, _, h', -⟩ := hpc <;> cases h.symm.trans h'
  | found h _ _ | refused h =>
    obtain h | h := h <;>
      obtain ⟨h', -⟩ | ⟨h', -⟩ | ⟨_, _, h', -⟩ := hpc <;> cases h.symm.trans h'

theorem Move.running_of_finish {o : Outcome} (hm : Move inv s (.finish i o) t) :
    Running (s.pc i) := by
  cases hm with
  | panicked hpc => exact ⟨_, hpc⟩
  | succeeded hpc _ => exact ⟨_, hpc⟩
  | errored hpc _ => exact ⟨_, hpc⟩

omit [DecidableEq ι] in
theorem Held.of_running (hs : Held inv i s acts) (h : Running (s.pc i)) :
    s.pc i = .running .claimed ∧ ∀ o, .finish i o ∉ acts := by
  obtain ⟨guard, hguard⟩ := h
  obtain h | ⟨h, -⟩ | ⟨e, context, h, -⟩ := hs.pc
  · exact h
  · cases hguard.symm.trans h
  · cases hguard.symm.trans h

theorem Held.finish {o : Outcome} (hs : Held inv i s acts) (hm : Move inv s (.finish i o) t) :
    Held inv i t (acts ++ [.finish i o]) ∨
      (Over (t.pc i) ∧ Left inv i t (acts ++ [.finish i o])) := by
  have hexpire : .expire (inv.id i) ∈ acts ++ [.finish i o] ↔ .expire (inv.id i) ∈ acts := by
    simp
  have hbucket : t.bucket = s.bucket := by cases hm <;> rfl
  have hpending := hs.pending
  have hexpired := hs.expired
  rw [← hexpire, ← hbucket] at hpending hexpired
  obtain ⟨hclaimed, hfirst⟩ := hs.of_running hm.running_of_finish
  have honly (other : Outcome) (hother : .finish i other ∈ acts ++ [.finish i o]) : other = o := by
    obtain h | h := List.mem_append.mp hother
    · exact absurd h (hfirst other)
    · cases List.mem_singleton.mp h
      rfl
  cases hm with
  | @panicked _ _ value hpc =>
    refine .inr ⟨?_, .panicked (fun other h => ⟨value, honly other h⟩) hpending hexpired⟩
    rw [goto_pc_self]
    trivial
  | succeeded hpc hp =>
    cases hpc.symm.trans hclaimed
    obtain ⟨h, -⟩ | ⟨-, rfl⟩ := hp
    · cases h
    · exact .inl ⟨hs.valid, hs.claims, hpending, hexpired, .inr (.inl ⟨goto_pc_self .., honly⟩)⟩
  | errored hpc hp =>
    cases hpc.symm.trans hclaimed
    obtain ⟨-, context, rfl⟩ | ⟨h, -⟩ := hp
    · exact .inl ⟨hs.valid, hs.claims, hpending, hexpired,
        .inr (.inr ⟨_, context, goto_pc_self .., honly⟩)⟩
    · exact absurd rfl h

theorem Held.move (hs : Held inv i s acts) (ha : Alone inv i a) (hm : Move inv s a t) :
    Held inv i t (acts ++ [a]) ∨ (Over (t.pc i) ∧ Left inv i t (acts ++ [a])) := by
  by_cases hi : a.actor = some i
  · cases a with
    | store j fault =>
      obtain rfl : j = i := Option.some.inj hi
      obtain ⟨-, rfl⟩ | h := ha
      · exact .inr (hs.store hm)
      · exact absurd rfl h
    | finish j o =>
      obtain rfl : j = i := Option.some.inj hi
      exact hs.finish hm
    | expire key => cases hi
  · exact .inl (hs.others ha hi hm)

omit [DecidableEq ι] in
theorem Held.not_over (hs : Held inv i s acts) : ¬Over (s.pc i) := by
  obtain ⟨h, -⟩ | ⟨h, -⟩ | ⟨e, context, h, -⟩ := hs.pc <;> rw [h] <;> exact id

theorem Over.step (hs : Over (s.pc i)) (hst : step inv s a = some t) : Over (t.pc i) := by
  by_cases hi : a.actor = some i
  · -- neither a store operation nor a handler is left to it
    cases a with
    | store j fault =>
      obtain rfl : j = i := Option.some.inj hi
      cases hpc : s.pc j <;> simp [hpc, Over] at hs <;>
        simp [Idempotency.step, storeStep, hpc] at hst
    | finish j o =>
      obtain rfl : j = i := Option.some.inj hi
      cases hpc : s.pc j <;> simp [hpc, Over] at hs <;>
        simp [Idempotency.step, finishStep, hpc] at hst
    | expire key => cases hi
  · rwa [(step_move hst).pc_of_ne hi]

theorem held_or_over (hs : Held inv i s []) (halone : ∀ a ∈ acts, Alone inv i a)
    (hexec : exec (step inv) s acts = some t) : Held inv i t acts ∨ Over (t.pc i) := by
  refine (along_of_forall_mem (fun _ => Alone inv i) (fun a ha _ => halone a ha) s).trace_invariant
    (P := fun s acts => Held inv i s acts ∨ Over (s.pc i)) (fun s a t done h ha hst => ?_) hexec
    (.inl hs)
  obtain h | h := h
  · exact (h.move ha (step_move hst)).imp_right And.left
  · exact .inr (h.step hst)

-- A key without a value is claimed by the next delivery.
theorem redelivery_claims (hc : inv.claims = true) (hv : validateKVKey (inv.id i) = none)
    (hb : s.bucket (inv.id i) = none) (hpc : s.pc i = .start) :
    ∃ t, exec (step inv) s [.store i .none] = some t ∧ t.pc i = .running .claimed := by
  have hclaim : claim s.bucket (inv.id i) .none =
      (Function.update s.bucket (inv.id i) (some pendingValue), .ok true) := by
    simp only [claim, hv, kvCreate, hb, Fault.after]
  refine ⟨(s.write (Function.update s.bucket (inv.id i) (some pendingValue))).goto i
    (.running .claimed), ?_, goto_pc_self ..⟩
  simp only [exec, step, storeStep, hpc, if_neg (validateKVKey_ne_empty hv), hc, if_true, hclaim,
    Option.bind_some]

-- A done value makes it return nil.
theorem redelivery_returns (hc : inv.claims = true) (hv : validateKVKey (inv.id i) = none)
    (hb : s.bucket (inv.id i) = some doneValue) (hpc : s.pc i = .start) :
    ∃ t, exec (step inv) s [.store i .none, .store i .none] = some t ∧
      t.pc i = .returned none := by
  have hclaim : claim s.bucket (inv.id i) .none = (s.bucket, .ok false) := by
    simp [claim, hv, kvCreate, hb, Fault.after]
  have hseen : seen s.bucket (inv.id i) .none = .ok true := by
    simp [seen, hv, kvGet, hb, isDoneValue]
  have hlookup : step inv s (.store i .none) = some (s.goto i .lookup) := by
    simp only [step, storeStep, hpc, if_neg (validateKVKey_ne_empty hv), hc, if_true, hclaim]
    rfl
  have hreturn : step inv (s.goto i .lookup) (.store i .none) =
      some ((s.goto i .lookup).goto i (.returned none)) := by
    have hseen : seen (s.goto i .lookup).bucket (inv.id i) .none = .ok true := hseen
    simp only [step, storeStep, goto_pc_self, hseen]
  refine ⟨(s.goto i .lookup).goto i (.returned none), ?_, goto_pc_self ..⟩
  simp only [exec, hlookup, hreturn, Option.bind_some]

theorem settled_of_value {o : Outcome} (hc : inv.claims = true)
    (hv : validateKVKey (inv.id i) = none) (hb : s.bucket (inv.id i) = stored o) :
    Settled inv i o s := by
  refine ⟨hb, fun j hj hpc => ?_⟩
  rw [← hj] at hv hb
  have hclaims (h : s.bucket (inv.id j) = none) := redelivery_claims hc hv h hpc
  match o with
  | .returned none => exact ⟨2, redelivery_returns hc hv hb hpc⟩
  | .returned (some e) => exact ⟨1, hclaims hb⟩
  | .panicked value => exact ⟨1, hclaims hb⟩

-- An invocation that acquired the claim leaves nothing pending, and does not hold up a
-- redelivery, unless its handler panics: then the claim stays until it expires.
theorem no_orphan_iff (inv : Invocations ι) (i : ι) (before : State ι) (fault : Fault)
    {s t after : State ι} (hclaim : step inv before (.store i fault) = some s)
    (hacquired : s.pc i = .running .claimed)
    (acts : List (Act ι)) (last : Act ι) (halone : ∀ a ∈ acts ++ [last], Alone inv i a)
    (hexec : exec (step inv) s acts = some t) (hrunning : ¬Over (t.pc i))
    (hlast : step inv t last = some after) (hover : Over (after.pc i)) (o : Outcome)
    (ho : .finish i o ∈ acts ++ [last]) :
    Settled inv i o after ↔
      (∃ err, o = .returned err) ∨ .expire (inv.id i) ∈ acts ++ [last] := by
  have hstart : Held inv i s [] := .of_won (step_move hclaim) hacquired
  have hheld : Held inv i t acts :=
    (held_or_over hstart (fun a ha => halone a (List.mem_append_left _ ha)) hexec).resolve_right
      hrunning
  have hleft : Left inv i after (acts ++ [last]) := by
    obtain h | h := hheld.move (halone last (by simp)) (step_move hlast)
    · exact absurd hover h.not_over
    · exact h.2
  cases hleft with
  | clean hfinish hb =>
    obtain rfl := hfinish o ho
    exact iff_of_true (settled_of_value hheld.claims hheld.valid hb) (.inl ⟨_, rfl⟩)
  | panicked hfinish hpending hexpired =>
    obtain ⟨value, rfl⟩ := hfinish o ho
    by_cases hexpire : .expire (inv.id i) ∈ acts ++ [last]
    · exact iff_of_true (settled_of_value hheld.claims hheld.valid (hexpired hexpire))
        (.inr hexpire)
    · refine iff_of_false (fun h => ?_) (by simp [hexpire])
      cases (hpending hexpire).symm.trans h.value

-- The handler of the first delivery returns an error.
theorem no_orphan_iff_failed_delivery :
    ∃ s : State Bool, exec (step (redeliveries Bool "a")) (initial fun _ => none)
        [.store false .none, .finish false (.returned (some (.sentinel .errTimeout))),
          .store false .none] = some s ∧
      Settled (redeliveries Bool "a") false (.returned (some (.sentinel .errTimeout))) s := by
  refine ⟨_, rfl, ?_⟩
  refine (no_orphan_iff (redeliveries Bool "a") false (initial fun _ => none) .none rfl rfl
    [.finish false (.returned (some (.sentinel .errTimeout)))] (.store false .none) ?_ rfl id rfl
    trivial _ (.head _)).mpr (.inl ⟨_, rfl⟩)
  simp [Alone]

-- The handler panics: the claim stays, and the second delivery is told that it is in flight.
theorem panic_orphans_claim :
    ∃ s : State Bool, exec (step (redeliveries Bool "a")) (initial fun _ => none)
        [.store false .none, .finish false (.panicked (.other "boom")),
          .store true .none, .store true .none] = some s ∧
      s.pc false = .panicked ∧ s.bucket "a" = some pendingValue ∧
      s.pc true =
        .returned (some (.wrap "" (.sentinel .errClaimInFlight) (": id=" ++ quoted "a"))) := by
  refine ⟨_, rfl, ?_, ?_, ?_⟩
  · rfl
  · rfl
  · rfl

end NatsClient.Idempotency
