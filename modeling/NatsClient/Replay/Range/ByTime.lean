import NatsClient.Replay.Complete
import NatsClient.Replay.Range.Theorems

namespace NatsClient.Replay

open Lib.Loop

variable {s : Stream} {text : Nat → String × Option Header × Bytes} {name : String}
  {left : RawStreamMsg → Bool} {keepLeft : Bool} {start stop : Int}

theorem server_archive (s : Stream) (text : Nat → String × Option Header × Bytes) :
    (s.archive text).source.server = s.server := by
  simp only [Source.server, Stream.server, Archive.source, Stream.archive, Archive.raw?,
    Server.mk.injEq, true_and]
  funext _ seq
  cases s.time seq <;> rfl

section Segment

variable {a : Archive} {low len lo hi : Nat} {p : RawMsg → Bool}

theorem mem_range'_raw {msg : RawMsg} (h : msg ∈ (List.range' low len).filterMap a.raw?) :
    a.raw? msg.sequence = some msg ∧ low ≤ msg.sequence ∧ msg.sequence < low + len := by
  obtain ⟨seq, hseq, hmsg⟩ := List.mem_filterMap.mp h
  obtain rfl := raw_sequence hmsg
  exact ⟨hmsg, List.mem_range'_1.mp hseq⟩

-- The messages that a filter keeps form a segment, if it keeps those of an interval.
theorem segment_filter (hlo : a.first ≤ lo) (hhi : hi ≤ a.last)
    (hp : ∀ seq msg, a.raw? seq = some msg → (p msg = true ↔ lo ≤ seq ∧ seq ≤ hi)) :
    (a.segment a.first a.last).filter p = a.segment lo hi := by
  have hout (low len : Nat) (hout : low + len ≤ lo ∨ hi < low) :
      ((List.range' low len).filterMap a.raw?).filter p = [] := by
    refine List.filter_eq_nil_iff.mpr fun msg hmsg => ?_
    obtain ⟨hraw, hge, hlt⟩ := mem_range'_raw hmsg
    rw [hp _ _ hraw]
    omega
  have hin : (a.segment lo hi).filter p = a.segment lo hi := by
    refine List.filter_eq_self.mpr fun msg hmsg => ?_
    obtain ⟨hraw, hge, hlt⟩ := mem_range'_raw hmsg
    rw [hp _ _ hraw]
    omega
  by_cases hle : lo ≤ hi
  · have hsplit : List.range' a.first (a.last + 1 - a.first) = List.range' a.first (lo - a.first) ++
        (List.range' lo (hi + 1 - lo) ++ List.range' (hi + 1) (a.last - hi)) := by
      have hmid := List.range'_append_1 (s := lo) (m := hi + 1 - lo) (n := a.last - hi)
      have hall := List.range'_append_1 (s := a.first) (m := lo - a.first) (n := a.last + 1 - lo)
      rw [show lo + (hi + 1 - lo) = hi + 1 by omega] at hmid
      rw [show a.first + (lo - a.first) = lo by omega] at hall
      rw [hmid, show hi + 1 - lo + (a.last - hi) = a.last + 1 - lo by omega, hall]
      congr 1
      omega
    rw [Archive.segment, hsplit, List.filterMap_append, List.filterMap_append,
      List.filter_append, List.filter_append, hout a.first _ (by omega),
      hout (hi + 1) _ (by omega), List.nil_append, List.append_nil]
    exact hin
  · rw [segment_of_lt (show hi < lo by omega)]
    refine List.filter_eq_nil_iff.mpr fun msg hmsg => ?_
    rw [hp _ _ (mem_range'_raw hmsg).1]
    omega

end Segment

theorem raw_time {seq : Nat} {msg : RawMsg} (h : (s.archive text).raw? seq = some msg) :
    s.time seq = some msg.time := by
  simp only [Archive.raw?, Stream.archive] at h
  cases ht : s.time seq with
  | none =>
    rw [ht] at h
    cases h
  | some t =>
    rw [ht] at h
    cases h
    rfl

-- The messages of the window stand between the two sequences that the searches return.
theorem between_eq_segment {lo hi : Nat} (hlo : Nearest s (atOrAfter start) true lo)
    (hhi : Nearest s (after stop) false hi) :
    (s.archive text).between start stop = (s.archive text).segment lo hi := by
  obtain ⟨⟨tlo, hlotime, hstart⟩, hleast⟩ := hlo.isLeast
  obtain ⟨⟨thi, hhitime, hstop⟩, hgreatest⟩ := hhi.isGreatest
  refine segment_filter (s.retained lo tlo hlotime).1 (s.retained hi thi hhitime).2 ?_
  intro seq msg hraw
  have htime := raw_time hraw
  rw [decide_eq_true_iff]
  constructor
  · rintro ⟨hge, hle⟩
    exact ⟨hleast ⟨_, htime, hge⟩, hgreatest ⟨_, htime, hle⟩⟩
  · rintro ⟨hge, hle⟩
    exact ⟨hstart.trans (s.monotone lo seq _ _ hge hlotime htime),
      (s.monotone seq hi _ _ hle htime hhitime).trans hstop⟩

section Contiguous

variable (hname : validateStreamName name = none)
  (hall : ∀ seq, s.first ≤ seq → seq ≤ s.last → ∃ t, s.time seq = some t)

include hname hall

-- What a search comes to, for every large enough number of turns.
theorem bisect_eventually (left : RawStreamMsg → Bool) (keepLeft : Bool)
    (hsplits : Splits s left) :
    ∃ result few, (∀ turns, few ≤ turns → bisect s.server name left keepLeft turns = some result) ∧
      ((∃ e, result = .error e) ∧ Vacant s left keepLeft ∨
        ∃ seq, result = .ok seq ∧ Nearest s left keepLeft seq) := by
  obtain ⟨few, result, hfew⟩ := (bisect_returns_iff s name left keepLeft).mpr
    fun hname => contained_of_contiguous s hname left keepLeft hall
  have hmany (turns : Nat) (hle : few ≤ turns) :
      bisect s.server name left keepLeft turns = some result := by
    rw [bisect_server s hname, Sum.getRight?_eq_some_iff] at hfew ⊢
    exact iterate_mono hfew hle
  refine ⟨result, few, hmany, ?_⟩
  cases result with
  | ok seq => exact .inr ⟨seq, rfl, bisect_nearest hsplits hfew⟩
  | error e =>
    obtain ⟨t, ht⟩ := hall s.last s.first_le_last (Nat.le_refl _)
    have hnear : Near s s.last := ⟨s.last, t, ht, Nat.lt_add_of_pos_right (by decide)⟩
    have hcomplete := (bisect_complete_iff name keepLeft hsplits).mpr
      (.inr ⟨hname, answered_of_near hname left keepLeft hnear⟩)
    exact .inl ⟨⟨e, rfl⟩, hcomplete few e hfew⟩

-- Both searches find a message.
theorem getMsgRangeByTime_of_found {opts : List MsgRangeOpt} {cap : Nat} (hle : start ≤ stop)
    (hcap : (applyMsgRangeOpts opts).max = cap) (hfirst : ¬ Vacant s (atOrAfter start) true)
    (hlast : ¬ Vacant s (after stop) false) :
    ∃ few, ∀ turns, few ≤ turns →
      getMsgRangeByTime (s.archive text).source name start stop opts turns =
        some (.window cap ((s.archive text).between start stop)) := by
  obtain ⟨_, few, hfew, ⟨-, hvacant⟩ | ⟨lo, rfl, hlo⟩⟩ :=
    bisect_eventually hname hall (atOrAfter start) true (splits_atOrAfter s start)
  · exact absurd hvacant hfirst
  obtain ⟨_, few', hfew', ⟨-, hvacant⟩ | ⟨hi, rfl, hhi⟩⟩ :=
    bisect_eventually hname hall (after stop) false (splits_after s stop)
  · exact absurd hvacant hlast
  refine ⟨few + few' + s.last + 1, fun turns hturns => ?_⟩
  rw [between_eq_segment hlo hhi]
  simp only [getMsgRangeByTime, not_lt.mpr hle, if_false, server_archive, findFirstSeqAtOrAfter,
    findLastSeqAtOrBefore, hfew turns (by omega), hfew' turns (by omega)]
  by_cases hlt : hi < lo
  · rw [if_pos hlt, segment_of_lt hlt, window_nil]
  · obtain ⟨tlo, hlotime, -⟩ := hlo.retained
    obtain ⟨thi, hhitime, -⟩ := hhi.retained
    have hone := s.one_le_first
    have hlo' := (s.retained lo tlo hlotime).1
    have hhi' := (s.retained hi thi hhitime).2
    obtain ⟨⟨r, clock⟩, hr, houtcome⟩ := getMsgRange_outcome (s.archive text) quiet 0 hname
      (show 1 ≤ lo by omega) (show lo ≤ hi by omega) hcap (show s.last + 1 ≤ turns by omega)
    have hcalls : (fun _ => (s.archive text).source) = (s.archive text).calls quiet := rfl
    have hmin : min hi (s.archive text).last = hi := Nat.min_eq_left hhi'
    rw [if_neg hlt, hcalls, hr]
    cases houtcome with
    | exact => rw [hmin]; rfl
    | failed _ _ h => cases h

-- One of them does not.
theorem getMsgRangeByTime_of_vacant {opts : List MsgRangeOpt} (hle : start ≤ stop)
    (hvacant : Vacant s (atOrAfter start) true ∨ Vacant s (after stop) false) :
    ∃ e few, ∀ turns, few ≤ turns →
      getMsgRangeByTime (s.archive text).source name start stop opts turns =
        some (.failed e) := by
  have hfound {left : RawStreamMsg → Bool} {keepLeft : Bool} {seq : Nat}
      (hv : Vacant s left keepLeft) (hn : Nearest s left keepLeft seq) : False := by
    obtain ⟨t, ht, hkept⟩ := hn.retained
    exact hv seq t ht hkept
  obtain ⟨first, few, hfew, hfirst⟩ :=
    bisect_eventually hname hall (atOrAfter start) true (splits_atOrAfter s start)
  obtain ⟨last, few', hfew', hlast⟩ :=
    bisect_eventually hname hall (after stop) false (splits_after s stop)
  obtain ⟨⟨e, rfl⟩, -⟩ | ⟨lo, rfl, hlo⟩ := hfirst
  · refine ⟨e, few, fun turns hturns => ?_⟩
    simp only [getMsgRangeByTime, not_lt.mpr hle, if_false, server_archive,
      findFirstSeqAtOrAfter, hfew turns hturns]
  · obtain ⟨⟨e, rfl⟩, -⟩ | ⟨hi, rfl, hhi⟩ := hlast
    · refine ⟨e, few + few', fun turns hturns => ?_⟩
      simp only [getMsgRangeByTime, not_lt.mpr hle, if_false, server_archive,
        findFirstSeqAtOrAfter, findLastSeqAtOrBefore, hfew turns (by omega),
        hfew' turns (by omega)]
    · exact (hvacant.elim (hfound · hlo) (hfound · hhi)).elim

end Contiguous

theorem not_vacant_atOrAfter_iff (s : Stream) (t : Int) :
    ¬ Vacant s (atOrAfter t) true ↔ ∃ k tk, s.time k = some tk ∧ t ≤ tk := by
  simp [vacant_atOrAfter_iff]

theorem not_vacant_after_iff (s : Stream) (t : Int) :
    ¬ Vacant s (after t) false ↔ ∃ k tk, s.time k = some tk ∧ tk ≤ t := by
  simp [vacant_after_iff]

-- Two messages, at the times 10 and 20.
def pair : Stream where
  first := 1
  last := 2
  time seq := if seq = 1 then some 10 else if seq = 2 then some 20 else none
  one_le_first := Nat.one_pos
  first_le_last := by decide
  last_lt := by decide
  retained := by grind
  monotone := by grind

end NatsClient.Replay
