import NatsClient.Lib.Counting
import NatsClient.Lib.Machine
import NatsClient.Lib.Parties
import NatsClient.Publish

namespace NatsClient.Publish.Async

open Lib.Counting Lib.Machine Lib.Parties

def defaultMaxAsyncPending : Int := 1024

-- maxAsyncPending as newPublisher sets it from MaxAsyncPending.
def newMaxAsyncPending (configured : Int) : Int :=
  if configured = 0 then defaultMaxAsyncPending else configured

def guardAsyncPending (maxAsyncPending publishAsyncPending : Int) : Option GoError :=
  if maxAsyncPending < 0 then none
  else if publishAsyncPending ≥ maxAsyncPending then some (.sentinel .errAsyncPublishPendingLimit)
  else none

-- The calls of publishAsync, with the arguments of each.
structure Setup (C α : Type) where
  publisher : Publisher α
  maxAsyncPending : Int
  subject : C → String
  message : C → Message α

inductive Pc
  | start
  | guarded
  -- what publishAsyncMsg hands to nats.go
  | prepared (msg : Msg)
  -- the future is returned, and not resolved
  | accepted
  | resolved
  | failed (err : GoError)

-- `pending` is what PublishAsyncPending answers.
structure State (C : Type) where
  pending : Int
  calls : C → Pc

-- The connection can be lost and come back before each preparePublish.
inductive Act (C : Type)
  | guard (c : C)
  | prepare (c : C) (connected : Bool)
  | handOver (c : C) (err : Option GoError)
  | ack (c : C)

variable {C α : Type}

def Setup.prepare (u : Setup C α) (c : C) (connected : Bool) : Except GoError Msg :=
  let (msg, data) := preparePublish { u.publisher with connected } (u.subject c) (u.message c)
  data.map (publishMsg (u.subject c) msg)

def initial : State C := ⟨0, fun _ => .start⟩

section Step

variable [DecidableEq C]

def State.goto (s : State C) (c : C) (pc : Pc) : State C :=
  { s with calls := Function.update s.calls c pc }

def step (u : Setup C α) (s : State C) : Act C → Option (State C)
  | .guard c =>
    match s.calls c with
    | .start =>
      match guardAsyncPending u.maxAsyncPending s.pending with
      | some e => some (s.goto c (.failed e))
      | none => some (s.goto c .guarded)
    | _ => none
  | .prepare c connected =>
    match s.calls c with
    | .guarded =>
      match u.prepare c connected with
      | .error e => some (s.goto c (.failed e))
      | .ok msg => some (s.goto c (.prepared msg))
    | _ => none
  | .handOver c err =>
    match s.calls c with
    | .prepared _ =>
      match err with
      | some e =>
        let place := "publish async subject=" ++ quoted (u.subject c) ++ ": "
        some (s.goto c (.failed (.wrap place e "")))
      | none => some ({ s with pending := s.pending + 1 }.goto c .accepted)
    | _ => none
  | .ack c =>
    match s.calls c with
    | .accepted => some ({ s with pending := s.pending - 1 }.goto c .resolved)
    | _ => none

end Step

-- The call gets as far as nats.go, if the limit and the connection let it.
def Setup.Sends (u : Setup C α) (c : C) : Prop := ∃ connected msg, u.prepare c connected = .ok msg

def Setup.limited (u : Setup C α) (limit : Nat) : Setup C α := { u with maxAsyncPending := limit }

-- How much the call adds to the pending ones.
def Pc.share : Pc → Nat
  | accepted => 1
  | _ => 0

-- What a call at this point has found out about its message.
def Heard (u : Setup C α) (c : C) : Pc → Prop
  | .prepared _ | .accepted => u.Sends c
  | _ => True

variable [DecidableEq C] {u : Setup C α} {s t : State C} {a : Act C}

-- A step moves one call, and the counter follows it.
structure Move (u : Setup C α) (s t : State C) (c : C) (pc : Pc) : Prop where
  calls : t.calls = Function.update s.calls c pc
  pending : t.pending + (s.calls c).share = s.pending + pc.share
  heard : Heard u c (s.calls c) → Heard u c pc
  -- behind the guard there are only calls that it let pass
  guarded : pc = .guarded → guardAsyncPending u.maxAsyncPending s.pending = none
  passed : pc = .guarded ∨ (∃ e, pc = .failed e) ∨ (s.calls c ≠ .start ∧ ∀ e, s.calls c ≠ .failed e)

theorem step_move (h : step u s a = some t) : ∃ c pc, Move u s t c pc := by
  cases a with
  | guard c =>
    simp only [step] at h
    split at h
    · next hpc =>
        split at h
        · next e _ =>
            cases h
            exact ⟨c, .failed e, rfl, by rw [hpc]; rfl, fun _ => trivial, Pc.noConfusion,
              .inr (.inl ⟨e, rfl⟩)⟩
        · next hguard =>
            cases h
            exact ⟨c, .guarded, rfl, by rw [hpc]; rfl, fun _ => trivial, fun _ => hguard,
              .inl rfl⟩
    · cases h
  | prepare c connected =>
    simp only [step] at h
    split at h
    · next hpc =>
        split at h
        · next e _ =>
            cases h
            exact ⟨c, .failed e, rfl, by rw [hpc]; rfl, fun _ => trivial, Pc.noConfusion,
              .inr (.inl ⟨e, rfl⟩)⟩
        · next msg hmsg =>
            cases h
            exact ⟨c, .prepared msg, rfl, by rw [hpc]; rfl, fun _ => ⟨connected, msg, hmsg⟩,
              Pc.noConfusion, .inr (.inr (by simp [hpc]))⟩
    · cases h
  | handOver c err =>
    simp only [step] at h
    split at h
    · next msg hpc =>
        split at h
        · next e =>
            cases h
            exact ⟨c, _, rfl, by rw [hpc]; rfl, fun _ => trivial, Pc.noConfusion,
              .inr (.inl ⟨_, rfl⟩)⟩
        · cases h
          exact ⟨c, .accepted, rfl, by rw [hpc]; exact Int.add_zero _,
            fun hheard => by rw [hpc] at hheard; exact hheard, Pc.noConfusion,
            .inr (.inr (by simp [hpc]))⟩
    · cases h
  | ack c =>
    simp only [step] at h
    split at h
    · next hpc =>
        cases h
        exact ⟨c, .resolved, rfl, by rw [hpc]; simp [State.goto, Pc.share], fun _ => trivial,
          Pc.noConfusion, .inr (.inr (by simp [hpc]))⟩
    · cases h

-- The counter is the number of the calls whose future is not resolved, and all of them send.
structure Inv (u : Setup C α) (s : State C) : Prop where
  counts : Counts s.pending fun c => (s.calls c).share = 1
  heard : ∀ c, Heard u c (s.calls c)

theorem Pc.share_le_one (pc : Pc) : pc.share ≤ 1 := by cases pc <;> simp [share]

omit [DecidableEq C] in
theorem Heard.sends {c : C} {pc : Pc} (h : Heard u c pc) (hshare : pc.share = 1) : u.Sends c := by
  cases pc with
  | accepted => exact h
  | _ => cases hshare

theorem inv_of_reaches (h : Reaches (step u) initial s) : Inv u s := by
  refine h.invariant (fun s a t hs hstep => ?_)
    ⟨counts_zero fun c => by simp [initial, Pc.share], fun c => trivial⟩
  obtain ⟨c, pc, hmove⟩ := step_move hstep
  refine ⟨?_, ?_⟩
  · rw [hmove.calls]
    exact hs.counts.update Pc.share_le_one hmove.pending
  · rw [hmove.calls, Function.forall_update_iff s.calls (Heard u)]
    exact ⟨hmove.heard (hs.heard c), fun d _ => hs.heard d⟩

-- A limit of zero lets no call pass the guard.
theorem pending_zero (h : Reaches (step (u.limited 0)) initial s) : s.pending = 0 := by
  have hinv : s.pending = 0 ∧ ∀ c, s.calls c = .start ∨ ∃ e, s.calls c = .failed e := by
    refine h.invariant (P := fun s : State C => s.pending = 0 ∧
      ∀ c, s.calls c = .start ∨ ∃ e, s.calls c = .failed e) (fun s a t hs hstep => ?_)
      ⟨rfl, fun _ => .inl rfl⟩
    obtain ⟨hpending, hcalls⟩ := hs
    obtain ⟨c, pc, hmove⟩ := step_move hstep
    have hfailed : ∃ e, pc = .failed e := by
      rcases hmove.passed with hguarded | hfailed | ⟨hstart, hnot⟩
      · have hguard := hmove.guarded hguarded
        rw [hpending] at hguard
        cases hguard
      · exact hfailed
      · rcases hcalls c with hc | ⟨e, hc⟩
        · exact absurd hc hstart
        · exact absurd hc (hnot e)
    obtain ⟨e, rfl⟩ := hfailed
    have hshare : (s.calls c).share = 0 := by
      rcases hcalls c with hc | ⟨e', hc⟩ <;> rw [hc] <;> rfl
    refine ⟨?_, ?_⟩
    · have hsum := hmove.pending
      rw [hshare, hpending] at hsum
      simpa [Pc.share] using hsum
    · rw [hmove.calls,
        Function.forall_update_iff s.calls fun _ pc => pc = .start ∨ ∃ e, pc = .failed e]
      exact ⟨.inr ⟨e, rfl⟩, fun d _ => hcalls d⟩
  exact hinv.1

theorem guardAsyncPending_zero {limit : Nat} (hlimit : limit ≠ 0) :
    guardAsyncPending limit 0 = none := by
  have hpos : ¬ (limit : Int) < 0 := by omega
  have hroom : ¬ (0 : Int) ≥ limit := by omega
  rw [guardAsyncPending, if_neg hpos, if_neg hroom]

-- All calls pass the guard before the first one is handed over.
theorem reaches_prepared {limit : Nat} (hlimit : limit ≠ 0) (calls : Finset C)
    (hcalls : ∀ c ∈ calls, u.Sends c) :
    ∃ s, Reaches (step (u.limited limit)) initial s ∧ s.pending = 0 ∧
      (∀ c ∈ calls, ∃ msg, s.calls c = .prepared msg) ∧ ∀ c ∉ calls, s.calls c = .start := by
  induction calls using Finset.induction_on with
  | empty => exact ⟨initial, .refl _, rfl, by simp, fun _ _ => rfl⟩
  | insert c calls hc ih =>
    obtain ⟨s, hs, hpending, hin, hstart⟩ := ih fun d hd => hcalls d (Finset.mem_insert_of_mem hd)
    obtain ⟨connected, msg, hmsg⟩ := hcalls c (Finset.mem_insert_self c calls)
    have hguard : guardAsyncPending (u.limited limit).maxAsyncPending s.pending = none := by
      rw [hpending]
      exact guardAsyncPending_zero hlimit
    have hfirst : step (u.limited limit) s (.guard c) = some (s.goto c .guarded) := by
      simp only [step, hstart c hc, hguard]
    have hsecond : step (u.limited limit) (s.goto c .guarded) (.prepare c connected) =
        some ((s.goto c .guarded).goto c (.prepared msg)) := by
      have hprepare : (u.limited limit).prepare c connected = .ok msg := hmsg
      simp only [step, State.goto, Function.update_self, hprepare]
    have hat : ((s.goto c .guarded).goto c (.prepared msg)).calls =
        Function.update s.calls c (.prepared msg) := Function.update_idem ..
    refine ⟨_, hs.trans ((Reaches.single hfirst).trans (.single hsecond)), hpending, ?_, ?_⟩
    · intro d hd
      rw [hat]
      by_cases hdc : d = c
      · rw [hdc, Function.update_self]
        exact ⟨msg, rfl⟩
      · rw [Function.update_of_ne hdc]
        exact hin d (Finset.mem_of_mem_insert_of_ne hd hdc)
    · intro d hd
      obtain ⟨hdc, hd⟩ := not_or.mp (mt Finset.mem_insert.mpr hd)
      rw [hat, Function.update_of_ne hdc]
      exact hstart d hd

theorem reaches_handedOver (calls : Finset C) (s : State C)
    (hs : ∀ c ∈ calls, ∃ msg, s.calls c = .prepared msg) :
    ∃ t, Reaches (step u) s t ∧ t.pending = s.pending + calls.card := by
  induction calls using Finset.induction_on generalizing s with
  | empty => exact ⟨s, .refl _, by simp⟩
  | insert c calls hc ih =>
    obtain ⟨msg, hmsg⟩ := hs c (Finset.mem_insert_self c calls)
    have hstep : step u s (.handOver c none) =
        some ({ s with pending := s.pending + 1 }.goto c .accepted) := by
      simp only [step, hmsg]
    obtain ⟨t, ht, hpending⟩ := ih ({ s with pending := s.pending + 1 }.goto c .accepted)
      fun d hd => by
        have hdc : d ≠ c := fun heq => hc (heq ▸ hd)
        obtain ⟨msg', hmsg'⟩ := hs d (Finset.mem_insert_of_mem hd)
        exact ⟨msg', (Function.update_of_ne hdc _ _).trans hmsg'⟩
    refine ⟨t, (Reaches.single hstep).trans ht, ?_⟩
    rw [hpending, Finset.card_insert_of_notMem hc]
    simp only [State.goto]
    omega

-- Nothing but the number of the calls keeps the pending ones within a limit that is not zero.
theorem pending_le_limit_iff (u : Setup C α) (limit : Nat) :
    (∀ s, Reaches (step (u.limited limit)) initial s → s.pending ≤ limit) ↔
      limit = 0 ∨ ∀ calls : Finset C, (∀ c ∈ calls, u.Sends c) → calls.card ≤ limit := by
  constructor
  · intro hle
    refine or_iff_not_imp_left.mpr fun hlimit calls hcalls => ?_
    obtain ⟨s, hs, hpending, hin, -⟩ := reaches_prepared hlimit calls hcalls
    obtain ⟨t, ht, hcard⟩ := reaches_handedOver (u := u.limited limit) calls s hin
    have hbound := hle t (hs.trans ht)
    omega
  · rintro (rfl | hcalls) s hs
    · exact (pending_zero hs).le
    · have hinv := inv_of_reaches hs
      obtain ⟨members, hmembers, hcard⟩ := hinv.counts
      have hbound := hcalls members fun c hc => (hinv.heard c).sends ((hmembers c).mp hc)
      omega

-- Two calls with a payload that needs no encoding.
def pair : Setup Bool Unit where
  publisher :=
    let plain : Algorithm := ⟨.ok, fun data => (data, none)⟩
    ⟨⟨fun _ => .ok [], fun _ => none, fun _ => .ok []⟩, ⟨plain, plain⟩, .off, true, false, true,
      .off⟩
  maxAsyncPending := 1
  subject _ := "orders"
  message _ := ⟨.bytes [], none, .raw⟩

theorem pending_exceeds_limit :
    (exec (step (pair.limited 1)) initial [.guard true, .guard false, .prepare true true,
      .prepare false true, .handOver true none, .handOver false none]).map State.pending =
        some 2 := by
  rfl

end NatsClient.Publish.Async
