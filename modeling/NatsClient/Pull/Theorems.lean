import NatsClient.Pull.Moves

namespace NatsClient.Pull

open Lib.Machine

section Mute

variable {Q : Type} {u : Setup Q} {k i : Nat} {d d' : Delivery}

-- Nothing has been sent for the message and nothing can be.
structure Mute (d : Delivery) : Prop where
  silent : d.msg.bound = false ∨ d.msg.reply = ""
  unsent : d.settlement = none

theorem Mute.ackError (hd : Mute d) (wire : Wire) : ∃ e, d.ackError wire = some e := by
  unfold Delivery.ackError
  rcases hd.silent with h | h
  · exact ⟨_, by simp [h]; rfl⟩
  · split_ifs <;> exact ⟨_, rfl⟩

theorem Mute.settle (hd : Mute d) (wire : Wire) (kind : AckKind) : Mute (d.settle wire kind).1 := by
  obtain ⟨e, he⟩ := hd.ackError wire
  refine ⟨hd.silent, ?_⟩
  simpa [Delivery.settle, he, Event.sent?] using hd.unsent

theorem Mute.processMessage (hd : Mute d) (u : Setup Q) (k i : Nat) :
    Mute (u.processMessage k i d).1 := by
  obtain ⟨opened, hbound, hreply, hsame | ⟨kind, hsettled⟩⟩ := u.processMessage_fst k i d
  all_goals have hopened : Mute ⟨opened, d.log⟩ :=
    ⟨by simpa only [hbound, hreply] using hd.silent, hd.unsent⟩
  · rwa [hsame]
  · rw [hsettled]
    exact hopened.settle _ kind

theorem Mute.touched (hd : Mute d) (h : Touched u k i d d') : Mute d' := by
  cases h with
  | same => exact hd
  | settled kind => exact hd.settle _ kind
  | processed => exact hd.processMessage u k i

end Mute

variable {Q S : Type} [DecidableEq Q] [DecidableEq S]

-- The settlement of message i when the first batch is processed along a schedule.
def settled (u : Setup Q)
    (schedule : List (Act Q (Fin (WorkerPool.poolLen u.consumer.cfg.poolSize)) S)) (i : Nat) :
    Option AckKind :=
  ((follow (step u) ((idle u).begin u 0) schedule).delivery 0 i).settlement

theorem settled_eq_none (u : Setup Q)
    (schedule : List (Act Q (Fin (WorkerPool.poolLen u.consumer.cfg.poolSize)) S)) {i : Nat}
    (h : (u.msg 0 i).bound = false ∨ (u.msg 0 i).reply = "") : settled u schedule i = none := by
  have hstep : ∀ s (a : Act Q (Fin (WorkerPool.poolLen u.consumer.cfg.poolSize)) S) t,
      Mute (s.delivery 0 i) → step u s a = some t → Mute (t.delivery 0 i) :=
    fun _ _ _ hs ha => hs.touched (step_touched ha 0 i)
  have hinit : Mute (((idle u).begin u 0 : State Q _ S).delivery 0 i) := ⟨h, rfl⟩
  exact (follow_invariant hstep hinit schedule).unsent

section Nakked

variable {W : Type} [DecidableEq W] {u : Setup Q} {s : State Q W S} {after : After}

-- nakRemaining comes to every message of the rest of the batch.
theorem follow_nak (n : Nat) {i : Nat} (hpc : s.pc = .nak i after) (hn : i + n ≤ u.size s.round) :
    let t := follow (step u) s (List.replicate n (.drive true))
    t.pc = .nak (i + n) after ∧ t.round = s.round ∧
      ∀ j, i + n ≤ j → t.delivery s.round j = s.delivery s.round j := by
  induction n generalizing s i with
  | zero => exact ⟨hpc, rfl, fun _ _ => rfl⟩
  | succ n ih =>
    have hstep : step u s (.drive true) = some ((s.nak u i).goto (.nak (i + 1) after)) := by
      simp [step, driveStep, hpc, show i < u.size s.round by omega]
    rw [List.replicate_succ, follow_cons_of_some hstep]
    obtain ⟨hpc', hround, hsame⟩ := ih (s := (s.nak u i).goto (.nak (i + 1) after)) rfl
      (by change i + 1 + n ≤ u.size s.round; omega)
    refine ⟨by rw [hpc']; congr 1; omega, hround, fun j hj => ?_⟩
    refine (hsame j (by omega)).trans ?_
    simp only [State.goto, State.nak, State.deliver, Function.update_self]
    exact Function.update_of_ne (by omega) _ _

theorem follow_nak_delivery {i : Nat} (hpc : s.pc = .nak 0 after) (hi : i < u.size s.round) :
    (follow (step u) s (List.replicate (i + 1) (.drive true))).delivery s.round i =
      ((s.delivery s.round i).settle (u.wire s.round i) (.nak 0)).1 := by
  obtain ⟨hpc', hround, hsame⟩ := follow_nak (u := u) i hpc (by omega)
  rw [List.replicate_succ', follow_append]
  generalize follow (step u) s (List.replicate i (.drive true)) = t at hpc' hround hsame
  have hstep : step u t (.drive true) = some ((t.nak u i).goto (.nak (i + 1) after)) := by
    simp [step, driveStep, hpc', hround, hi]
  rw [follow_cons_of_some hstep]
  simp [follow, State.goto, State.nak, State.deliver, hround, hsame i (by omega)]

-- Every strategy gives up before its first message when the context is done.
theorem exists_follow_nak (u : Setup Q) (hsize : 0 < u.size 0) :
    ∃ (schedule : List (Act Q (Fin (WorkerPool.poolLen u.consumer.cfg.poolSize)) S))
        (after : After),
      let t := follow (step u) ((idle u).begin u 0) schedule
      t.pc = .nak 0 after ∧ t.round = 0 ∧ t.delivery = (idle u : State Q _ S).delivery := by
  have hne : u.size 0 ≠ 0 := by omega
  by_cases hp : u.consumer.cfg.workerPoolEnabled = true
  · refine ⟨[.cancel (.sentinel .canceled), .drive true, .drive true, .drive true],
      .ret (processErr (.sentinel .canceled)), ?_⟩
    simp [follow, step, cancelStep, driveStep, idle, State.begin, Setup.startPc, hne, hp, hsize,
      State.record, State.goto]
  · by_cases hc : 1 < u.concurrency
    · refine ⟨[.cancel (.sentinel .canceled), .drive true, .drive true], .close, ?_⟩
      simp [follow, step, cancelStep, driveStep, idle, State.begin, Setup.startPc, hne, hp, hc,
        Setup.concurrentPc, show ¬ u.concurrency ≤ 1 by omega, hsize, State.goto]
    · refine ⟨[.cancel (.sentinel .canceled), .drive true],
        .ret (processErr (.sentinel .canceled)), ?_⟩
      simp [follow, step, cancelStep, driveStep, idle, State.begin, Setup.startPc, hne, hp, hc,
        hsize, State.goto]

end Nakked

-- A schedule that Naks a message, if the message can be Nak'd at all.
theorem exists_settled (u : Setup Q) {i : Nat} (hi : i < u.size 0)
    (hbound : (u.msg 0 i).bound = true) (hreply : (u.msg 0 i).reply ≠ "")
    (hwire : (u.wire 0 i).ackResult 0 = none) :
    ∃ schedule : List (Act Q (Fin (WorkerPool.poolLen u.consumer.cfg.poolSize)) S),
      settled u schedule i = some (.nak 0) := by
  obtain ⟨schedule, after, hpc, hround, hdelivery⟩ :=
    exists_follow_nak (S := S) u (Nat.zero_lt_of_lt hi)
  refine ⟨schedule ++ List.replicate (i + 1) (.drive true), ?_⟩
  unfold settled
  rw [follow_append]
  generalize follow (step u) ((idle u).begin u 0) schedule = t at hpc hround hdelivery
  have hnak := follow_nak_delivery (u := u) hpc (hround ▸ hi)
  rw [hround] at hnak
  rw [hnak, hdelivery]
  simp [idle, Delivery.settlement, Delivery.ackError, Delivery.ackd, hbound, hreply, hwire,
    Event.sent?]

-- The settlement on one of the two paths, over some network.
def settledOn (u : Setup Q) (path : Path) (wire : Nat → Nat → Wire)
    (schedule : List (Act Q (Fin (WorkerPool.poolLen u.consumer.cfg.poolSize)) S)) (i : Nat) :
    Option AckKind :=
  settled { u with path := path, wire := wire } schedule i

theorem settledOn_v2 (u : Setup Q) (wire : Nat → Nat → Wire)
    (schedule : List (Act Q (Fin (WorkerPool.poolLen u.consumer.cfg.poolSize)) S)) (i : Nat) :
    settledOn u .v2 wire schedule i = none :=
  settled_eq_none { u with path := .v2, wire := wire } schedule (.inl rfl)

theorem settledOn_of_no_reply (u : Setup Q) (path : Path) (wire : Nat → Nat → Wire)
    (schedule : List (Act Q (Fin (WorkerPool.poolLen u.consumer.cfg.poolSize)) S)) {i : Nat}
    (hreply : (u.jet 0 i).reply = "") : settledOn u path wire schedule i = none := by
  refine settled_eq_none { u with path := path, wire := wire } schedule (.inr ?_)
  cases path <;> exact hreply

-- The two paths settle a batch in the same way, on every network and along every
-- schedule, exactly when no message has a reply subject. Along one schedule they do so
-- exactly when the legacy path settles nothing.
theorem processBatch_settlement_iff (u : Setup Q) :
    ((∀ wire (schedule : List (Act Q (Fin (WorkerPool.poolLen u.consumer.cfg.poolSize)) S)),
        ∀ i < u.size 0, settledOn u .v2 wire schedule i = settledOn u .legacy wire schedule i) ↔
      ∀ i < u.size 0, (u.jet 0 i).reply = "") ∧
    ∀ wire (schedule : List (Act Q (Fin (WorkerPool.poolLen u.consumer.cfg.poolSize)) S)),
      (∀ i < u.size 0, settledOn u .v2 wire schedule i = settledOn u .legacy wire schedule i) ↔
        ∀ i < u.size 0, settledOn u .legacy wire schedule i = none := by
  refine ⟨⟨?_, ?_⟩, ?_⟩
  · intro hsame i hi
    by_contra hreply
    let wire : Nat → Nat → Wire := fun _ _ => ⟨fun _ => none, fun _ => none⟩
    obtain ⟨schedule, hsettled⟩ := exists_settled (S := S)
      { u with path := .legacy, wire := wire } hi rfl hreply rfl
    have heq := hsame wire schedule i hi
    rw [settledOn_v2] at heq
    exact absurd (heq.trans hsettled) (by simp)
  · intro hreply wire schedule i hi
    rw [settledOn_v2, settledOn_of_no_reply u .legacy wire schedule (hreply i hi)]
  · intro wire schedule
    simp only [settledOn_v2]
    exact forall_congr' fun i => imp_congr_right fun _ => eq_comm

-- One message, whose handler returns nil, in the sequential loop.
def oneMessage : Setup Empty where
  path := .legacy
  consumer := ⟨⟨1, 1, false, false⟩, .block, none⟩
  comp := ⟨⟨.ok, fun data => (data, none)⟩, ⟨.ok, fun data => (data, none)⟩⟩
  concurrency := 1
  size _ := 1
  jet _ _ := ⟨"orders.new", "$JS.ACK.1", ∅, []⟩
  outcome _ _ := .returned none
  wire _ _ := ⟨fun _ => none, fun _ => none⟩
  others q := q.elim

theorem processBatch_v2_never_acked :
    settledOn (S := Empty) oneMessage .legacy oneMessage.wire [.drive false, .drive false] 0 =
        some .ack ∧
      settledOn (S := Empty) oneMessage .v2 oneMessage.wire [.drive false, .drive false] 0 =
        none :=
  ⟨rfl, rfl⟩

end NatsClient.Pull
