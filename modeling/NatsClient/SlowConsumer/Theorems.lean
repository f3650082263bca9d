import Mathlib.Data.List.Basic
import Mathlib.Data.List.TakeDrop
import NatsClient.SlowConsumer

namespace NatsClient.SlowConsumer

open Lib.Machine

variable {w : Watcher} {s t : State} {q : Poll} {polls : List Poll}

-- A successful poll at which a threshold is breached.
def Watcher.breaches (w : Watcher) (q : Poll) : Bool := q.info.any fun info => (w.evaluate q info).1

-- The maximal runs of such polls.
def Watcher.episodes (w : Watcher) (polls : List Poll) : List (List Poll) :=
  (polls.splitOnP fun q => !w.breaches q).filter fun run => run ≠ []

def Watcher.sustains (w : Watcher) (first q : Poll) : Bool :=
  w.cfg.sustainFor.toInt ≤ q.now - first.now

-- The event at a poll of an episode.
def Watcher.eventAt (w : Watcher) (first q : Poll) : Option (Poll × SlowConsumerEvent) :=
  q.info.map fun info => (q, w.event q info (timeSub q.now first.now))

-- What an episode calls for: where its last poll is long enough after its first, an event at the
-- first poll that is.
def Watcher.due (w : Watcher) : List Poll → Option (Poll × SlowConsumerEvent)
  | [] => none
  | first :: rest =>
    if w.sustains first ((first :: rest).getLast (List.cons_ne_nil first rest)) then
      ((first :: rest).find? (w.sustains first)).bind (w.eventAt first)
    else none

-- One event for each sustained episode, in their order.
def Watcher.dueEvents (w : Watcher) (polls : List Poll) : List (Poll × SlowConsumerEvent) :=
  (w.episodes polls).filterMap w.due

-- The events of a trace of the loop.
def emitted (trace : List (Poll × Option SlowConsumerEvent)) : List (Poll × SlowConsumerEvent) :=
  trace.filterMap fun (q, event) => event.map (q, ·)

section Observe

-- The time from which a breach at the poll is counted.
def State.since (s : State) (q : Poll) : Int := if s.haveBreach then s.breachStart else q.now

theorem timeSub_lt {d : Int64} (hpos : 0 < d.toInt) (later earlier : Int) :
    timeSub later earlier < d.toInt ↔ later - earlier < d.toInt := by
  have hlt := d.toInt_lt
  unfold timeSub
  omega

theorem observe_clear (hclear : w.breaches q = false) :
    w.observe s q = (some { s with haveBreach := false }, none) := by
  unfold Watcher.observe
  cases hinfo : q.info with
  | none => rfl
  | some info =>
    have hslow : (w.evaluate q info).1 = false := by simpa [Watcher.breaches, hinfo] using hclear
    simp [hslow]

-- A breach, with the state in which it is weighed.
theorem observe_breach (hbreach : w.breaches q = true) :
    ∃ info, q.info = some info ∧ w.observe s q =
      (let begun : State := ⟨s.since q, true, s.slow⟩
      if timeSub q.now (s.since q) < w.cfg.sustainFor.toInt then (some begun, none)
      else if s.slow && !w.cfg.circuitStop then (some begun, none)
      else
        let event := w.event q info (timeSub q.now (s.since q))
        if w.cfg.circuitStop then (none, some event) else (some ⟨0, false, true⟩, some event)) := by
  cases hinfo : q.info with
  | none => simp [Watcher.breaches, hinfo] at hbreach
  | some info =>
    have heval : (w.evaluate q info).1 = true := by simpa [Watcher.breaches, hinfo] using hbreach
    refine ⟨info, rfl, ?_⟩
    obtain ⟨breachStart, haveBreach, slow⟩ := s
    cases haveBreach <;> simp [Watcher.observe, hinfo, heval, State.since]

variable (hpos : 0 < w.cfg.sustainFor.toInt)
include hpos

theorem observe_begun (hbreach : w.breaches q = true)
    (hshort : q.now - s.since q < w.cfg.sustainFor.toInt) :
    w.observe s q = (some ⟨s.since q, true, s.slow⟩, none) := by
  obtain ⟨info, -, hobserve⟩ := observe_breach (s := s) hbreach
  rw [hobserve]
  exact if_pos ((timeSub_lt hpos _ _).mpr hshort)

variable (hcircuit : w.cfg.circuitStop = false)
include hcircuit

theorem observe_sustained (hbreach : w.breaches q = true)
    (hlong : w.cfg.sustainFor.toInt ≤ q.now - s.since q) (hslow : s.slow = false) :
    ∃ info, q.info = some info ∧
      w.observe s q =
        (some ⟨0, false, true⟩, some (w.event q info (timeSub q.now (s.since q)))) := by
  obtain ⟨info, hinfo, hobserve⟩ := observe_breach (s := s) hbreach
  refine ⟨info, hinfo, ?_⟩
  rw [← Int.not_lt, ← timeSub_lt hpos] at hlong
  simp [hobserve, hlong, hslow, hcircuit]

omit hpos in
-- Once the flag is set there are no more events.
theorem observe_of_slow (hslow : s.slow = true) :
    ∃ next, w.observe s q = (some next, none) ∧ next.slow = true := by
  cases hbreach : w.breaches q with
  | false => exact ⟨_, observe_clear hbreach, hslow⟩
  | true =>
    obtain ⟨info, -, hobserve⟩ := observe_breach (s := s) hbreach
    refine ⟨⟨s.since q, true, s.slow⟩, ?_, hslow⟩
    simp [hobserve, hslow, hcircuit]

end Observe

-- What the first run between separators starts with.
theorem exists_splitOnP_append {α : Type*} {p : α → Bool} {cur : List α}
    (hcur : ∀ a ∈ cur, p a = false) (rest : List α) :
    ∃ more runs, (cur ++ rest).splitOnP p = (cur ++ more) :: runs ∧ more <+: rest := by
  induction rest generalizing cur with
  | nil => exact ⟨[], [], by simpa using List.splitOnP_eq_singleton hcur, ⟨_, rfl⟩⟩
  | cons b rest ih =>
    cases hb : p b with
    | true =>
      refine ⟨[], rest.splitOnP p, ?_, List.nil_prefix⟩
      rw [List.append_nil]
      exact List.splitOnP_append_cons_of_forall_mem hcur b hb rest
    | false =>
      have hnext : ∀ a ∈ cur ++ [b], p a = false := by
        intro a ha
        rcases List.mem_append.mp ha with ha | ha
        · exact hcur a ha
        · rwa [List.mem_singleton.mp ha]
      obtain ⟨more, runs, hsplit, hmore⟩ := ih hnext
      refine ⟨b :: more, runs, ?_, List.cons_prefix_cons.mpr ⟨rfl, hmore⟩⟩
      simpa using hsplit

section Loop

variable {first : Poll} {cur rest : List Poll}

-- The loop is in an episode with these polls so far, none of them long enough after the first.
structure During (w : Watcher) (s : State) (cur : List Poll) : Prop where
  slow : s.slow = false
  breaches : ∀ q ∈ cur, w.breaches q = true
  since : ∀ q, s.since q = (cur.head?.getD q).now
  short : ∀ q ∈ cur, w.sustains (cur.head?.getD q) q = false

theorem during_nil (hslow : s.slow = false) (hhave : s.haveBreach = false) : During w s [] :=
  ⟨hslow, by simp, fun q => by simp [State.since, hhave], by simp⟩

theorem due_eq_none (h : ∀ q ∈ first :: rest, w.sustains first q = false) :
    w.due (first :: rest) = none :=
  if_neg (by simp only [h _ (List.getLast_mem _), Bool.false_eq_true, not_false_eq_true])

theorem During.due (h : During w s cur) : w.due cur = none := by
  cases cur with
  | nil => rfl
  | cons first rest => exact due_eq_none h.short

-- The first poll that is long enough after the first of its episode.
theorem due_of_found (hshort : ∀ p ∈ first :: rest, w.sustains first p = false)
    (hlong : w.sustains first q = true) {more : List Poll}
    (hmore : ∀ p ∈ more, q.now ≤ p.now) :
    w.due (first :: rest ++ q :: more) = w.eventAt first q := by
  have hlast : w.sustains first ((first :: rest ++ q :: more).getLast (by simp)) = true := by
    have hmem : (first :: rest ++ q :: more).getLast (by simp) ∈ q :: more := by
      rw [List.getLast_append_of_ne_nil _ (List.cons_ne_nil q more)]
      exact List.getLast_mem _
    simp only [Watcher.sustains, decide_eq_true_eq] at hlong ⊢
    rcases List.mem_cons.mp hmem with heq | hmem
    · rwa [heq]
    · have hle := hmore _ hmem
      omega
  have hfind : (first :: rest ++ q :: more).find? (w.sustains first) = some q := by
    rw [List.find?_append, List.find?_eq_none.mpr (by simpa using hshort)]
    simp [hlong]
  exact (if_pos hlast).trans (congrArg (Option.bind · (w.eventAt first)) hfind)

theorem During.continues (h : During w s cur) (hbreach : w.breaches q = true)
    (hshort : q.now - s.since q < w.cfg.sustainFor.toInt) :
    During w ⟨s.since q, true, s.slow⟩ (cur ++ [q]) := by
  have hfirst (p : Poll) : ((cur ++ [q]).head?.getD p) = cur.head?.getD q := by
    cases cur <;> rfl
  refine ⟨h.slow, ?_, ?_, ?_⟩
  · intro p hp
    rcases List.mem_append.mp hp with hp | hp
    · exact h.breaches p hp
    · rwa [List.mem_singleton.mp hp]
  · intro p
    rw [hfirst]
    exact h.since q
  · intro p hp
    rw [hfirst]
    rcases List.mem_append.mp hp with hp | hp
    · have hold := h.short p hp
      cases cur with
      | nil => cases hp
      | cons first rest => exact hold
    · rw [h.since q] at hshort
      simpa [Watcher.sustains, List.mem_singleton.mp hp] using hshort

theorem During.found (h : During w s cur) (hpos : 0 < w.cfg.sustainFor.toInt)
    (hlong : w.cfg.sustainFor.toInt ≤ q.now - s.since q) {more : List Poll}
    (hmore : ∀ p ∈ more, q.now ≤ p.now) {info : ConsumerInfo} (hinfo : q.info = some info) :
    w.due (cur ++ q :: more) = some (q, w.event q info (timeSub q.now (s.since q))) := by
  rw [h.since q] at hlong ⊢
  cases cur with
  | nil => simp at hlong; omega
  | cons first rest =>
    rw [due_of_found h.short (by simpa [Watcher.sustains] using hlong) hmore]
    simp [Watcher.eventAt, hinfo]

theorem emitted_cons {next : State} {event : Option SlowConsumerEvent}
    (h : w.observe s q = (some next, event)) :
    emitted (w.loop s (q :: rest)) = (event.map (q, ·)).toList ++ emitted (w.loop next rest) := by
  cases event <;> simp [Watcher.loop, outputs, h, emitted]

variable (hcircuit : w.cfg.circuitStop = false)
include hcircuit

theorem emitted_of_slow (hslow : s.slow = true) : emitted (w.loop s polls) = [] := by
  induction polls generalizing s with
  | nil => rfl
  | cons q polls ih =>
    obtain ⟨next, hobserve, hnext⟩ := observe_of_slow hcircuit (q := q) hslow
    rw [emitted_cons hobserve, ih hnext]
    rfl

variable (hpos : 0 < w.cfg.sustainFor.toInt)
include hpos

-- The first event of the loop is the first that is due, and there is no other. The induction is
-- over the polls to come, with those of the episode under way.
theorem During.emitted (h : During w s cur) (htimes : (cur ++ rest).Pairwise (·.now < ·.now)) :
    emitted (w.loop s rest) =
      (((cur ++ rest).splitOnP fun q => !w.breaches q).filterMap w.due).take 1 := by
  induction rest generalizing s cur with
  | nil =>
    rw [List.append_nil, List.splitOnP_eq_singleton (by simpa using h.breaches)]
    simp [Watcher.loop, outputs, SlowConsumer.emitted, h.due]
  | cons q rest ih =>
    cases hbreach : w.breaches q with
    | false =>
      rw [emitted_cons (observe_clear hbreach), List.splitOnP_append_cons_of_forall_mem
        (by simpa using h.breaches) q (by simp [hbreach]) rest]
      have hrest : rest.Pairwise (·.now < ·.now) := by
        rw [List.pairwise_append, List.pairwise_cons] at htimes
        exact htimes.2.1.2
      have hnext :=
        ih (during_nil (w := w) (s := { s with haveBreach := false }) h.slow rfl) hrest
      simpa [h.due] using hnext
    | true =>
      by_cases hshort : q.now - s.since q < w.cfg.sustainFor.toInt
      · rw [emitted_cons (observe_begun hpos hbreach hshort)]
        simpa using ih (h.continues hbreach hshort) (by simpa using htimes)
      · obtain ⟨info, hinfo, hobserve⟩ :=
          observe_sustained hpos hcircuit hbreach (Int.not_lt.mp hshort) h.slow
        have hall : ∀ p ∈ cur ++ [q], (!w.breaches p) = false := by
          simpa [or_imp, forall_and, hbreach] using h.breaches
        obtain ⟨more, runs, hsplit, hmore⟩ := exists_splitOnP_append hall rest
        have hlater : ∀ p ∈ more, q.now ≤ p.now := by
          intro p hp
          rw [List.pairwise_append, List.pairwise_cons] at htimes
          exact Int.le_of_lt (htimes.2.1.1 p (hmore.mem hp))
        have hdue := h.found hpos (Int.not_lt.mp hshort) hlater hinfo
        rw [List.append_assoc, List.singleton_append] at hsplit
        rw [emitted_cons hobserve, emitted_of_slow hcircuit rfl, hsplit]
        simp [hdue]

end Loop

theorem withDefaults_sustainFor (cfg : SlowConsumerConfig) :
    0 < cfg.withDefaults.sustainFor.toInt := by
  simp only [SlowConsumerConfig.withDefaults, Int64.le_iff_toInt_le]
  split_ifs with h
  · decide
  · exact Int.not_le.mp h

theorem dueEvents_eq (w : Watcher) (polls : List Poll) :
    w.dueEvents polls = (polls.splitOnP fun q => !w.breaches q).filterMap w.due := by
  rw [Watcher.dueEvents, Watcher.episodes, List.filterMap_filter]
  refine List.filterMap_congr fun run _ => ?_
  cases run <;> simp [Watcher.due]

-- The loop emits the first event that is due, and never another one.
theorem events_eq_take (cfg : SlowConsumerConfig) (streamLastSeq : Bool)
    (hcircuit : cfg.circuitStop = false) (htimes : polls.Pairwise (·.now < ·.now)) :
    (watchSlowConsumer cfg streamLastSeq).events polls =
      ((watchSlowConsumer cfg streamLastSeq).dueEvents polls).take 1 := by
  have hoff : (watchSlowConsumer cfg streamLastSeq).cfg.circuitStop = false := hcircuit
  have hstart : During (watchSlowConsumer cfg streamLastSeq) start [] := during_nil rfl rfl
  rw [dueEvents_eq]
  exact hstart.emitted hoff (withDefaults_sustainFor cfg) htimes

-- So each sustained episode has its event iff there is at most one of them.
theorem slow_consumer_events_iff (cfg : SlowConsumerConfig) (streamLastSeq : Bool)
    (polls : List Poll) (hcircuit : cfg.circuitStop = false)
    (htimes : polls.Pairwise (·.now < ·.now)) :
    (watchSlowConsumer cfg streamLastSeq).events polls =
        (watchSlowConsumer cfg streamLastSeq).dueEvents polls ↔
      ((watchSlowConsumer cfg streamLastSeq).dueEvents polls).length ≤ 1 := by
  rw [events_eq_take cfg streamLastSeq hcircuit htimes]
  exact List.take_eq_self_iff _

-- Thresholds of ten messages, and three nanoseconds.
def briefly : SlowConsumerConfig := ⟨0, 3, 10, 10, 1, false⟩

def poll (now : Int) (numPending : UInt64) : Poll :=
  ⟨now, some ⟨"ORDERS", "worker", numPending, 0, 0, 0⟩, none⟩

-- A breach that lasts, with a failed poll behind it.
def oneEpisode : List Poll := [poll 0 20, poll 2 20, poll 4 20, poll 6 20, ⟨8, none, none⟩]

theorem slow_consumer_events_once :
    ((watchSlowConsumer briefly false).events oneEpisode).length = 1 ∧
      (watchSlowConsumer briefly false).events oneEpisode =
        (watchSlowConsumer briefly false).dueEvents oneEpisode :=
  ⟨by decide, (slow_consumer_events_iff briefly false oneEpisode rfl (by decide)).mpr (by decide)⟩

-- After a clear the same breach lasts as long, and there is no event.
def twoEpisodes : List Poll := oneEpisode ++ [poll 10 20, poll 12 20, poll 14 20]

theorem slow_consumer_silent :
    twoEpisodes.Pairwise (·.now < ·.now) ∧
      ((watchSlowConsumer briefly false).events twoEpisodes).map (·.1) = [poll 4 20] ∧
      ((watchSlowConsumer briefly false).dueEvents twoEpisodes).map (·.1) =
        [poll 4 20, poll 14 20] := by
  decide

end NatsClient.SlowConsumer
