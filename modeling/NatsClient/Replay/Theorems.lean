import NatsClient.Replay.Successor

namespace NatsClient.Replay

open Lib.Loop

variable {s : Stream} {name : String} {seq : Nat}

-- The broker calls answer from the stream.
theorem getMsg_server (s : Stream) (seq : Nat) (hname : validateStreamName name = none) :
    (∃ t, s.time seq = some t ∧ getMsg s.server name seq = .ok ⟨seq, t⟩) ∨
      (s.time seq = none ∧ ∃ e, getMsg s.server name seq = .error e ∧
        e.is .errMsgNotFound = true) := by
  cases ht : s.time seq with
  | some t => exact .inl ⟨t, rfl, by simp [getMsg, hname, Stream.server, ht]⟩
  | none => exact .inr ⟨rfl, _, by simp [getMsg, hname, Stream.server, ht]; rfl, rfl⟩

theorem streamInfo_server (hname : validateStreamName name = none) :
    streamInfo s.server name = .ok ⟨s.first, s.last⟩ := by
  simp [streamInfo, hname, Stream.server]

-- No message is retained from `low` up to before `high`.
def Gap (s : Stream) (low high : Nat) : Prop := ∀ k, low ≤ k → k < high → s.time k = none

theorem Gap.refl (low : Nat) : Gap s low low := fun _ hk hlt => absurd hk (Nat.not_le.mpr hlt)

theorem Gap.cons {low high : Nat} (hg : Gap s (low + 1) high) (hl : s.time low = none) :
    Gap s low high := by
  intro k hk hlt
  rcases Nat.eq_or_lt_of_le hk with rfl | hk
  · exact hl
  · exact hg k hk hlt

theorem Gap.snoc {low high : Nat} (hg : Gap s low high) (hh : s.time high = none) :
    Gap s low (high + 1) := by
  intro k hk hlt
  rcases Nat.eq_or_lt_of_le (Nat.le_of_lt_succ hlt) with rfl | hlt
  · exact hh
  · exact hg k hk hlt

theorem holds_server (s : Stream) (name : String) : Holds s.server name s.time s.last where
  found k t ht := by simp [Stream.server, ht]
  missing k ht := ⟨.sentinel .errMsgNotFound, by simp [Stream.server, ht], rfl⟩
  le_last k t ht := (s.retained k t ht).2
  last_lt := Nat.lt_of_lt_of_le s.last_lt (Nat.sub_le _ _)

-- The walk forward ends at the next retained message, or behind the last one.
theorem nextMsg_iterate (s : Stream) (name : String) (seq turns next : Nat) (hn : next ≤ s.last + 1)
    (ht : s.last + 1 < next + turns) :
    (∃ msg, iterate (nextMsgStep s.server name seq s.last) turns next = .inr (.ok msg) ∧
        s.time msg.sequence = some msg.time ∧ next ≤ msg.sequence ∧ Gap s next msg.sequence) ∨
      ∃ e, iterate (nextMsgStep s.server name seq s.last) turns next = .inr (.error e) ∧
        e.is .errMsgNotFound = true ∧ Gap s next (s.last + 1) := by
  obtain ⟨result, hresult, hwalked⟩ := (holds_server s name).walk seq turns next (by omega)
    (.inl s.last_lt)
  cases hwalked with
  | found hmsg hlow hgap => exact .inl ⟨_, hresult, hmsg, hlow, hgap⟩
  | missing he hgap => exact .inr ⟨_, hresult, he, fun k hk _ => hgap k hk⟩

-- One step of the walk back: it leaves the stream, finds a message, or goes on.
inductive PrevStep (s : Stream) (name : String) (steps prev : Nat) :
    Except GoError RawStreamMsg → Prop
  | left (h : prev < s.first) : PrevStep s name steps prev (.error (.sentinel .errMsgNotFound))
  | found {t} (h : s.time prev = some t) : PrevStep s name steps prev (.ok ⟨prev, t⟩)
  | missing (hfirst : s.first ≤ prev) (h : s.time prev = none) :
      PrevStep s name steps prev (prevWalk s.server name s.first steps (prev - 1))

theorem prevWalk_step (hname : validateStreamName name = none) (steps prev : Nat) :
    PrevStep s name steps prev (prevWalk s.server name s.first (steps + 1) prev) := by
  have hone := s.one_le_first
  rw [prevWalk]
  split_ifs with hfirst hzero
  · omega
  · rcases getMsg_server s prev hname with ⟨t, ht, hget⟩ | ⟨ht, e, hget, he⟩
    · rw [hget]
      exact .found ht
    · simp only [hget, he, Bool.not_true, Bool.false_eq_true, if_false]
      exact .missing hfirst ht
  · exact .left (Nat.not_le.mp hfirst)

-- The walk back ends at a retained message with a gap behind it, or in an error.
theorem prevWalk_server (hname : validateStreamName name = none) (steps prev : Nat)
    (msg : RawStreamMsg) (h : prevWalk s.server name s.first steps prev = .ok msg) :
    s.time msg.sequence = some msg.time ∧ msg.sequence ≤ prev ∧
      Gap s (msg.sequence + 1) (prev + 1) := by
  induction steps generalizing prev with
  | zero => cases h
  | succ steps ih =>
    have hstep := prevWalk_step (s := s) hname steps prev
    rw [h] at hstep
    generalize hresult : Except.ok msg = result at hstep
    cases hstep with
    | left => cases hresult
    | found ht =>
      cases hresult
      exact ⟨ht, Nat.le_refl _, .refl _⟩
    | missing hfirst ht =>
      obtain ⟨hm, hle, hg⟩ := ih _ hresult.symm
      have hone := s.one_le_first
      have hp : prev - 1 + 1 = prev := by omega
      rw [hp] at hg
      exact ⟨hm, by omega, hg.snoc ht⟩

-- The probe finds the message of the sequence or the next one, or it walks back behind the last.
inductive Probed (s : Stream) (name : String) (seq : Nat) :
    Option (Except GoError RawStreamMsg) → Prop
  | here {t} (h : s.time seq = some t) : Probed s name seq (some (.ok ⟨seq, t⟩))
  | next {msg} (h : s.time seq = none) (hmsg : s.time msg.sequence = some msg.time)
      (hlt : seq < msg.sequence) (hgap : Gap s (seq + 1) msg.sequence) :
      Probed s name seq (some (.ok msg))
  | back (h : s.time seq = none) (hgap : Gap s (seq + 1) (s.last + 1)) :
      Probed s name seq (some (prevWalk s.server name s.first maxPrevWalk seq))

theorem getExistingAtOrNear_probed (hname : validateStreamName name = none)
    (hlo : s.first ≤ seq) (hhi : seq ≤ s.last) :
    Probed s name seq (getExistingAtOrNear s.server name seq s.first s.last) := by
  unfold getExistingAtOrNear
  simp only [Nat.not_lt.mpr hlo, if_false, Nat.not_lt.mpr hhi]
  rcases getMsg_server s seq hname with ⟨t, ht, hget⟩ | ⟨ht, e, hget, he⟩
  · rw [hget]
    exact .here ht
  · have hl := s.last_lt
    have hmod : (seq + 1) % 2 ^ 64 = seq + 1 := Nat.mod_eq_of_lt (by omega)
    simp only [hget, he, Bool.not_true, Bool.false_eq_true, if_false, getNextMsgAfter, hname,
      streamInfo_server hname, getNextMsgAfterKnownLast, hmod]
    have hnext := nextMsg_iterate s name seq (2 ^ 64 + 1) (seq + 1) (by omega) (by omega)
    rcases hnext with ⟨msg, hi, hm, hge, hg⟩ | ⟨e', hi, he', hg⟩
    · rw [hi]
      exact .next ht hm hge hg
    · simp only [hi, Sum.getRight?_inr, he', Bool.not_true, Bool.false_eq_true, if_false]
      exact .back ht hg

-- The probe returns, and a message it returns is the next one at or after the
-- sequence, or else the last one of the stream.
theorem getExistingAtOrNear_server (hname : validateStreamName name = none)
    (hlo : s.first ≤ seq) (hhi : seq ≤ s.last) :
    ∃ result, getExistingAtOrNear s.server name seq s.first s.last = some result ∧
      ∀ msg, result = .ok msg → s.time msg.sequence = some msg.time ∧
        ((seq ≤ msg.sequence ∧ Gap s seq msg.sequence) ∨
          (msg.sequence < seq ∧ Gap s (msg.sequence + 1) (s.last + 1))) := by
  have hprobed := getExistingAtOrNear_probed hname hlo hhi
  generalize getExistingAtOrNear s.server name seq s.first s.last = probed at hprobed
  cases hprobed with
  | here ht =>
    refine ⟨_, rfl, ?_⟩
    rintro msg ⟨⟩
    exact ⟨ht, .inl ⟨Nat.le_refl _, .refl _⟩⟩
  | next ht hm hlt hg =>
    refine ⟨_, rfl, ?_⟩
    rintro msg ⟨⟩
    exact ⟨hm, .inl ⟨hlt.le, hg.cons ht⟩⟩
  | back ht hg =>
    refine ⟨_, rfl, fun msg hmsg => ?_⟩
    obtain ⟨hm, hle, hg'⟩ := prevWalk_server hname _ _ _ hmsg
    refine ⟨hm, .inr ⟨?_, fun k hk hlt => ?_⟩⟩
    · refine Nat.lt_of_le_of_ne hle fun heq => ?_
      rw [heq, ht] at hm
      cases hm
    · by_cases hks : k < seq + 1
      · exact hg' k hk hks
      · exact hg k (by omega) hlt

section Bisection

variable {left : RawStreamMsg → Bool} {keepLeft : Bool} {w : Window} {msg : RawStreamMsg}

def probe (s : Stream) (name : String) (seq : Nat) : Option (Except GoError RawStreamMsg) :=
  getExistingAtOrNear s.server name seq s.first s.last

def start (s : Stream) : Window := ⟨s.first, s.last, 0⟩

-- The bounds lie in the stream, and each that has moved has a message of its side
-- right behind it.
structure Bracket (s : Stream) (left : RawStreamMsg → Bool) (w : Window) : Prop where
  first_le : s.first ≤ w.lo
  le_last : w.hi ≤ s.last
  above : w.hi = s.last ∨ ∃ t, s.time (w.hi + 1) = some t ∧ left ⟨w.hi + 1, t⟩ = true
  below : w.lo = s.first ∨ ∃ t, s.time (w.lo - 1) = some t ∧ left ⟨w.lo - 1, t⟩ = false

theorem bracket_start (s : Stream) (left : RawStreamMsg → Bool) : Bracket s left (start s) :=
  ⟨Nat.le_refl _, Nat.le_refl _, .inl rfl, .inl rfl⟩

theorem Bracket.mid_bounds (hb : Bracket s left w) (hle : w.lo ≤ w.hi) :
    s.first ≤ w.mid ∧ w.mid ≤ s.last ∧ w.lo ≤ w.mid ∧ w.mid ≤ w.hi := by
  have h1 := hb.first_le
  have h2 := hb.le_last
  unfold Window.mid
  omega

-- The two ways a turn can go on, and when.
theorem bisectStep_inl {next : Window} (hname : validateStreamName name = none)
    (hb : Bracket s left w)
    (h : bisectStep (probe s name) s.first left keepLeft w = .inl next) :
    ∃ msg, w.lo ≤ w.hi ∧ probe s name w.mid = some (.ok msg) ∧
      s.time msg.sequence = some msg.time ∧
      ((left msg = true ∧ next.lo = w.lo ∧ next.hi + 1 = msg.sequence ∧ s.first ≤ next.hi) ∨
        (left msg = false ∧ next.lo = msg.sequence + 1 ∧ next.hi = w.hi)) := by
  unfold bisectStep at h
  split_ifs at h with hle
  obtain ⟨hf, hl, _, _⟩ := hb.mid_bounds hle
  obtain ⟨result, hr, hspec⟩ := getExistingAtOrNear_server hname hf hl
  rw [show probe s name w.mid = some result from hr] at h ⊢
  cases result with
  | error e => cases h
  | ok msg =>
    obtain ⟨hm, _⟩ := hspec msg rfl
    have hbound := s.retained _ _ hm
    have hlast := s.last_lt
    refine ⟨msg, hle, rfl, hm, ?_⟩
    cases hleft : left msg with
    | true =>
      simp only [hleft, if_true] at h
      split_ifs at h with hstop
      all_goals
        cases h
        exact .inl ⟨rfl, rfl, by dsimp only; omega, by dsimp only; omega⟩
    | false =>
      have hmod : (msg.sequence + 1) % 2 ^ 64 = msg.sequence + 1 :=
        Nat.mod_eq_of_lt (by omega)
      simp only [hleft, Bool.false_eq_true, if_false, hmod] at h
      cases h
      exact .inr ⟨rfl, rfl, rfl⟩

theorem Bracket.step {next : Window} (hname : validateStreamName name = none)
    (hb : Bracket s left w)
    (h : bisectStep (probe s name) s.first left keepLeft w = .inl next) : Bracket s left next := by
  obtain ⟨msg, hle, _, hm, hcase⟩ := bisectStep_inl hname hb h
  have hbound := s.retained _ _ hm
  rcases hcase with ⟨hl, hlo, hhi, hfirst⟩ | ⟨hl, hlo, hhi⟩
  · refine ⟨hlo ▸ hb.first_le, by omega, .inr ⟨msg.time, ?_, ?_⟩, hlo ▸ hb.below⟩
    · rw [hhi, hm]
    · rw [hhi, hl]
  · refine ⟨by omega, hhi ▸ hb.le_last, hhi ▸ hb.above, .inr ⟨msg.time, ?_, ?_⟩⟩
    · rw [hlo, Nat.add_sub_cancel, hm]
    · rw [hlo, Nat.add_sub_cancel, hl]

-- The probe answers with a message outside the window.
def Escapes (s : Stream) (name : String) (w : Window) : Prop :=
  w.lo ≤ w.hi ∧ ∃ msg, probe s name w.mid = some (.ok msg) ∧
    ¬ (w.lo ≤ msg.sequence ∧ msg.sequence ≤ w.hi)

-- Such a message is the one right behind a bound.
theorem Bracket.escaping (hname : validateStreamName name = none) (hb : Bracket s left w)
    (hle : w.lo ≤ w.hi) (hp : probe s name w.mid = some (.ok msg))
    (hout : ¬ (w.lo ≤ msg.sequence ∧ msg.sequence ≤ w.hi)) :
    (msg.sequence = w.hi + 1 ∧ left msg = true) ∨
      (msg.sequence + 1 = w.lo ∧ left msg = false) := by
  obtain ⟨hf, hl, hlm, hmh⟩ := hb.mid_bounds hle
  obtain ⟨result, hr, hspec⟩ := getExistingAtOrNear_server hname hf hl
  obtain rfl : result = .ok msg := by
    rw [show probe s name w.mid = some result from hr] at hp
    exact Option.some.inj hp
  obtain ⟨hm, hcase⟩ := hspec msg rfl
  have hbound := s.retained _ _ hm
  rcases hcase with ⟨hge, hg⟩ | ⟨hlt, hg⟩
  · left
    rcases hb.above with heq | ⟨t, ht, hleft⟩
    · omega
    have hseq : msg.sequence = w.hi + 1 := by
      by_contra hne
      rw [hg (w.hi + 1) (by omega) (by omega)] at ht
      cases ht
    refine ⟨hseq, ?_⟩
    rw [hseq, ht] at hm
    cases hm
    rw [← hleft, ← hseq]
  · right
    rcases hb.below with heq | ⟨t, ht, hright⟩
    · omega
    have hlo := s.retained _ _ ht
    have hone := s.one_le_first
    have hseq : msg.sequence = w.lo - 1 := by
      by_contra hne
      rw [hg (w.lo - 1) (by omega) (by omega)] at ht
      cases ht
    refine ⟨by omega, ?_⟩
    rw [hseq, ht] at hm
    cases hm
    rw [← hright, ← hseq]

-- So the bounds stay as they are, and the next turn probes the same sequence.
theorem Escapes.stays (hname : validateStreamName name = none) (hb : Bracket s left w)
    (he : Escapes s name w) :
    ∃ next, bisectStep (probe s name) s.first left keepLeft w = .inl next ∧
      Escapes s name next := by
  obtain ⟨hle, msg, hp, hout⟩ := he
  have hbound := hb.mid_bounds hle
  have hlast := s.last_lt
  rcases hb.escaping hname hle hp hout with ⟨hseq, hl⟩ | ⟨hseq, hl⟩
  · refine ⟨⟨w.lo, w.hi, if true = keepLeft then msg.sequence else w.found⟩, ?_, hle, msg, hp,
      hout⟩
    have hfirst : ¬ w.hi < s.first := by omega
    simp [bisectStep, hle, hp, hl, hseq, hfirst]
  · refine ⟨⟨w.lo, w.hi, if false = keepLeft then msg.sequence else w.found⟩, ?_, hle, msg, hp,
      hout⟩
    have hmod : w.lo % 2 ^ 64 = w.lo := Nat.mod_eq_of_lt (by omega)
    simp only [bisectStep, if_pos hle, hp, hl, hseq, hmod, Bool.false_eq_true, if_false]

theorem bisectStep_narrows {next : Window} (hname : validateStreamName name = none)
    (hb : Bracket s left w) (hin : ¬ Escapes s name w)
    (h : bisectStep (probe s name) s.first left keepLeft w = .inl next) :
    next.hi + 1 - next.lo < w.hi + 1 - w.lo := by
  obtain ⟨msg, hle, hp, _, hcase⟩ := bisectStep_inl hname hb h
  have hmsg : w.lo ≤ msg.sequence ∧ msg.sequence ≤ w.hi := by
    by_contra hout
    exact hin ⟨hle, msg, hp, hout⟩
  rcases hcase with ⟨_, hlo, hhi, _⟩ | ⟨_, hlo, hhi⟩ <;> omega

theorem bisect_halts_iff (hname : validateStreamName name = none) :
    Halts (bisectStep (probe s name) s.first left keepLeft) (start s) ↔
      ∀ w, Visits (bisectStep (probe s name) s.first left keepLeft) (start s) w →
        ¬ Escapes s name w :=
  halts_iff_not_stuck (P := Bracket s left) (m := fun w => w.hi + 1 - w.lo)
    (fun _ _ hb h => hb.step hname h) (fun _ _ hb hin h => bisectStep_narrows hname hb hin h)
    (fun _ hb he => he.stays hname hb) (bracket_start s left)

theorem bisect_server (s : Stream) (hname : validateStreamName name = none) (turns : Nat) :
    bisect s.server name left keepLeft turns =
      (iterate (bisectStep (probe s name) s.first left keepLeft) turns (start s)).getRight? := by
  have hone := s.one_le_first
  have hle := s.first_le_last
  have hne : ¬ (s.last = 0 ∨ s.first = 0) := by omega
  simp only [bisect, hname, streamInfo_server hname, hne, if_false]
  rfl

-- Every window that the loop reaches holds the message probed for it.
def Contained (s : Stream) (name : String) (left : RawStreamMsg → Bool) (keepLeft : Bool) : Prop :=
  ∀ w, Visits (bisectStep (probe s name) s.first left keepLeft) (start s) w → ¬ Escapes s name w

theorem bisect_returns_iff (s : Stream) (name : String) (left : RawStreamMsg → Bool)
    (keepLeft : Bool) :
    (∃ turns result, bisect s.server name left keepLeft turns = some result) ↔
      (validateStreamName name = none → Contained s name left keepLeft) := by
  cases hname : validateStreamName name with
  | some e =>
    refine iff_of_true ⟨0, .error e, by simp [bisect, hname]⟩ fun h => ?_
    cases h
  | none =>
    simp only [bisect_server s hname, Sum.getRight?_eq_some_iff]
    exact (bisect_halts_iff hname).trans ⟨fun h _ => h, fun h => h trivial⟩

-- Without deleted messages the probe answers with the sequence it is asked for.
theorem contained_of_contiguous (s : Stream) (hname : validateStreamName name = none)
    (left : RawStreamMsg → Bool) (keepLeft : Bool)
    (hall : ∀ seq, s.first ≤ seq → seq ≤ s.last → ∃ t, s.time seq = some t) :
    Contained s name left keepLeft := by
  rintro w hv ⟨hle, msg, hp, hout⟩
  obtain ⟨hb, _⟩ := hv.invariant (P := Bracket s left) (fun _ _ hb h => hb.step hname h)
    (bracket_start s left)
  obtain ⟨hf, hl, hlm, hmh⟩ := hb.mid_bounds hle
  obtain ⟨t, ht⟩ := hall _ hf hl
  have hget : getMsg s.server name w.mid = .ok ⟨w.mid, t⟩ := by
    simp [getMsg, hname, Stream.server, ht]
  have hmsg : probe s name w.mid = some (.ok ⟨w.mid, t⟩) := by
    simp [probe, getExistingAtOrNear, Nat.not_lt.mpr hf, Nat.not_lt.mpr hl, hget]
  rw [hmsg] at hp
  cases hp
  exact hout ⟨hlm, hmh⟩

end Bisection

-- The searches return exactly if no probe leaves the window, so always on a stream of which
-- nothing has been deleted.
theorem find_returns_iff (s : Stream) (name : String) (t : Int) :
    ((∃ turns result, findFirstSeqAtOrAfter s.server name t turns = some result) ↔
        (validateStreamName name = none → Contained s name (atOrAfter t) true)) ∧
      ((∃ turns result, findLastSeqAtOrBefore s.server name t turns = some result) ↔
        (validateStreamName name = none → Contained s name (after t) false)) ∧
      ((∀ seq, s.first ≤ seq → seq ≤ s.last → ∃ time, s.time seq = some time) →
        (∃ turns result, findFirstSeqAtOrAfter s.server name t turns = some result) ∧
          ∃ turns result, findLastSeqAtOrBefore s.server name t turns = some result) := by
  have hfirst := bisect_returns_iff s name (atOrAfter t) true
  have hlast := bisect_returns_iff s name (after t) false
  refine ⟨hfirst, hlast, fun hall => ⟨hfirst.mpr fun hname => ?_, hlast.mpr fun hname => ?_⟩⟩
  · exact contained_of_contiguous s hname _ _ hall
  · exact contained_of_contiguous s hname _ _ hall

-- Sequences 2 to 9 are deleted.
def gapped : Stream where
  first := 1
  last := 10
  time seq := if seq = 1 ∨ seq = 10 then some 0 else none
  one_le_first := by decide
  first_le_last := by decide
  last_lt := by decide
  retained := by grind
  monotone := by grind

-- Sequences 2 and 3 are deleted.
def tailless : Stream where
  first := 1
  last := 3
  time seq := if seq = 1 then some 0 else none
  one_le_first := by decide
  first_le_last := by decide
  last_lt := by decide
  retained := by grind
  monotone := by grind

theorem find_loops_on_gaps :
    (∀ turns, findFirstSeqAtOrAfter gapped.server "S" 0 turns = none) ∧
      ∀ turns, findLastSeqAtOrBefore tailless.server "S" 0 turns = none := by
  have hname : validateStreamName "S" = none := by decide
  constructor
  · intro turns
    rw [findFirstSeqAtOrAfter, bisect_server gapped hname]
    apply getRight?_iterate_of_fixed (Window.mk 1 9 10) <;> rfl
  · intro turns
    rw [findLastSeqAtOrBefore, bisect_server tailless hname]
    apply getRight?_iterate_of_fixed (Window.mk 2 3 1) <;> rfl

end NatsClient.Replay
