import NatsClient.FlightRecorder

namespace NatsClient.FlightRecorder

open Lib.Ring

-- buf, next and full, apart from the channel.
def ring (r : FlightRecorder) : Buffer IncidentEvent where
  slots := r.buf
  next := r.next
  full := r.full
  next_lt := by
    rw [r.length_buf]
    exact r.next_lt

variable (r : FlightRecorder)

theorem snapshot_eq_contents : r.snapshot = r.ring.contents := by
  unfold snapshot Buffer.contents ring
  cases r.full with
  | true => simp
  | false =>
    by_cases hnext : r.next = 0
    · simp [hnext]
    · simp [hnext]

theorem ring_record (now : Nat) (ev : IncidentEvent) :
    (r.record now ev).ring = r.ring.push (stamp now ev) := by
  simp only [ring, record, Buffer.push, Buffer.size, r.length_buf, Buffer.mk.injEq, true_and]
  by_cases hnext : (r.next + 1) % r.cap = 0
  · simp [hnext]
  · simp [hnext]

theorem ring_step (act : Action) : (step r act).ring = act.recorded.foldl Buffer.push r.ring := by
  cases act with
  | record caller now => exact ring_record r now caller.event
  | receive => rfl

theorem ring_run (acts : List Action) :
    (run r acts).ring = (recorded acts).foldl Buffer.push r.ring := by
  unfold run recorded
  induction acts generalizing r with
  | nil => rfl
  | cons act acts ih =>
    rw [List.foldl_cons, ih, ring_step, List.flatMap_cons, List.foldl_append]

theorem size_new {capacity : Int} (h : 1 ≤ capacity) :
    (newFlightRecorder capacity).ring.size = capacity.toNat := by
  have hpos : ¬ capacity ≤ 0 := by omega
  exact (newFlightRecorder capacity).length_buf.trans (if_neg hpos)

-- The ring keeps the last events recorded, whoever recorded them and whatever was received
-- in between.
theorem snapshot_eq_last (capacity : Int) (h : 1 ≤ capacity) (acts : List Action) :
    ∀ done, done <+: acts →
      (run (newFlightRecorder capacity) done).snapshot =
        (recorded done).rtake capacity.toNat ∧
      (run (newFlightRecorder capacity) done).snapshot.length =
        min (recorded done).length capacity.toNat := by
  intro done _
  have hsnapshot : (run (newFlightRecorder capacity) done).snapshot =
      (recorded done).rtake capacity.toNat := by
    rw [snapshot_eq_contents, ring_run, Buffer.contents_foldl_push, size_new h]
    rfl
  refine ⟨hsnapshot, ?_⟩
  rw [hsnapshot, List.rtake, List.length_drop]
  omega

theorem snapshot_eq_last_one :
    (run (newFlightRecorder 1) [.record (.recordReconnect "a") 1, .receive,
      .record (.recordReconnect "b") 2]).snapshot =
        [{ time := 2, detail := "b", kind := .reconnect }] :=
  (snapshot_eq_last 1 (by decide) [.record (.recordReconnect "a") 1, .receive,
    .record (.recordReconnect "b") 2] _ (List.prefix_refl _)).1

-- A receiver that falls behind loses events, but sees none twice and none out of order.
theorem received_step (act : Action) :
    (act.received r ++ (step r act).events).Sublist (r.events ++ act.recorded) := by
  cases act with
  | record caller now =>
    simp only [Action.received, Action.recorded, List.nil_append, step, record, send]
    split_ifs
    · exact List.Sublist.refl _
    · exact List.sublist_append_left _ _
  | receive =>
    have hall : r.events.take 1 ++ r.events.tail = r.events := by
      rw [← List.drop_one, List.take_append_drop]
    simp [Action.received, Action.recorded, step, receive, hall]

theorem received_sublist (acts : List Action) :
    (received r acts ++ (run r acts).events).Sublist (r.events ++ recorded acts) := by
  unfold run recorded
  induction acts generalizing r with
  | nil => simp [received]
  | cons act acts ih =>
    have hrest := List.Sublist.append_left (ih (step r act)) (act.received r)
    have hstep := (received_step r act).append_right (acts.flatMap Action.recorded)
    rw [List.append_assoc, List.append_assoc] at hstep
    rw [received, List.foldl_cons, List.flatMap_cons, List.append_assoc]
    exact hrest.trans hstep

end NatsClient.FlightRecorder
