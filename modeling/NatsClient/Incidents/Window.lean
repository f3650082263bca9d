import NatsClient.Incidents
import NatsClient.Replay.Range.Top

namespace NatsClient.Incidents

open Replay

variable {P : Type} {m : Managers P} {h : Holding} {cfg : IncidentCapture P} {name : String}
  {f turns : Nat}

-- The managers over a stream at rest.
def Managers.over (m : Managers P) (h : Holding) (name : String) (turns : Nat) : Managers P :=
  { m with
    streamInfo := some fun _ => .ok (some ⟨h.first, h.last⟩)
    getMsgRange := fun stream startSeq endSeq opts =>
      if stream = Validate.utf8 name then
        (Replay.getMsgRange h.calls name startSeq endSeq opts 0 turns).map Prod.fst
      else some (.failed (.sentinel .errStreamNotFound)) }

-- The failing sequence of a configuration.
def failing (h : Holding) (cfg : IncidentCapture P) : Nat :=
  if cfg.failingSeq = 0 then h.last else cfg.failingSeq

theorem applyMsgRangeOpts_withMaxMessages {n : Int} (hn : 1 ≤ n) :
    (applyMsgRangeOpts [withMaxMessages n]).max = n := by
  have hpos : 0 < n := hn
  simp [applyMsgRangeOpts, withMaxMessages, hpos, Int.not_le.mpr hpos]

theorem windowOrDefault_eq (hwindow : 1 ≤ cfg.window) : cfg.windowOrDefault = cfg.window :=
  if_neg (by omega)

theorem half_eq (hwindow : 1 ≤ cfg.window) : cfg.half = (cfg.window / 2).toNat := by
  rw [IncidentCapture.half, windowOrDefault_eq hwindow]

theorem windowStart_bounds (cfg : IncidentCapture P) (hpos : 1 ≤ f) :
    1 ≤ windowStart cfg f ∧ windowStart cfg f ≤ f ∧ f ≤ windowStart cfg f + cfg.half := by
  rw [windowStart]
  split_ifs with hhalf <;> omega

-- The messages of a capsule are the right ones for the failing sequence.
structure Centred (h : Holding) (f : Nat) (window : Int) (msgs : List StoredMessage) : Prop where
  failing : ∃ msg, h.archive.raw? f = some msg ∧ storedMessageFromRaw msg ∈ msgs
  increasing : Increasing msgs
  length_le : msgs.length ≤ window
  near : ∀ msg ∈ msgs, (f : Int) - window / 2 ≤ msg.sequence ∧ msg.sequence ≤ f + window / 2

theorem window_over (hname : validateStreamName name = none)
    (hstream : cfg.stream = Validate.utf8 name) (hwindow : 1 ≤ cfg.window) (hpos : 1 ≤ f)
    (hlast : f ≤ h.last) (hfit : f + cfg.half < 2 ^ 64) :
    window (m.over h name turns) cfg f =
      (rangeWalk (h.archive.calls quiet) name cfg.window (windowStart cfg f)
        (min (f + cfg.half) h.last) 1 turns).map Prod.fst := by
  obtain ⟨hlow, hle, -⟩ := windowStart_bounds cfg hpos
  have hrange := h.getMsgRange_eq hname [withMaxMessages cfg.windowOrDefault] turns hlow
    (show windowStart cfg f ≤ f + cfg.half by omega) (by omega)
  rw [window, if_pos (show 0 < f from hpos), Nat.mod_eq_of_lt hfit]
  simp only [Managers.over, hstream, if_true]
  rw [hrange, windowOrDefault_eq hwindow, applyMsgRangeOpts_withMaxMessages hwindow]

theorem raw_of_retained (hretained : (h.content f).isSome) :
    ∃ msg, h.archive.raw? f = some msg ∧ msg.sequence = f := by
  obtain ⟨content, hcontent⟩ := Option.isSome_iff_exists.mp hretained
  have hmsg : h.archive.raw? f = some ⟨⟨f, content.time⟩, content.subject, content.header,
      content.data⟩ := by
    simp only [Archive.raw?, Holding.archive, hcontent, Option.map_some]
  exact ⟨_, hmsg, rfl⟩

theorem segment_ne_nil (cfg : IncidentCapture P) (hretained : (h.content f).isSome) :
    h.archive.segment (windowStart cfg f) (2 ^ 64 - 1) ≠ [] := by
  obtain ⟨hpos, hlast⟩ := h.retained f hretained
  obtain ⟨-, hle, -⟩ := windowStart_bounds cfg hpos
  have hlt := h.last_lt
  obtain ⟨msg, hmsg, rfl⟩ := raw_of_retained hretained
  exact List.ne_nil_of_mem (mem_segment_iff.mpr ⟨hle, by omega, hmsg⟩)

-- The first messages from the start of the window on.
theorem centred_window {cap : Nat} (hcap : cfg.window = cap) (hwindow : 1 ≤ cfg.window)
    (hretained : (h.content f).isSome) :
    Centred h f cfg.window
      (MsgRange.window cap (h.archive.segment (windowStart cfg f)
        (min (f + cfg.half) h.last))).messages := by
  obtain ⟨hpos, hlast⟩ := h.retained f hretained
  obtain ⟨hlow, hle, hnear⟩ := windowStart_bounds cfg hpos
  have hhalf := half_eq hwindow
  refine ⟨?_, window_increasing _ _ _ _, ?_, ?_⟩
  · obtain ⟨msg, hmsg, rfl⟩ := raw_of_retained hretained
    exact ⟨msg, hmsg, List.mem_map_of_mem (mem_take_segment hmsg hle (by omega) hpos (by omega))⟩
  · rw [MsgRange.window, List.length_map, hcap]
    exact Int.ofNat_le.mpr (List.length_take_le _ _)
  · intro msg hmem
    obtain ⟨raw, hraw, rfl⟩ := List.mem_map.mp hmem
    obtain ⟨hfrom, hto, -⟩ := mem_segment_iff.mp (List.mem_of_mem_take hraw)
    have hseq : (storedMessageFromRaw raw).sequence = raw.sequence := rfl
    omega

theorem capture_eq_of_window (buckets : Bytes → KeyValue.Bucket) {id : Bytes} {now : Nat}
    {msgs : List StoredMessage} {truncated : Bool} {raw : Bytes}
    (hstream : Validate.validateStreamName cfg.stream = none) (hconsumer : cfg.consumer ≠ [])
    (hwindow : window m cfg (failingSeq m cfg) = some ⟨msgs, truncated, none⟩)
    (hmarshal : m.marshal (capsule cfg id now (failingSeq m cfg) msgs) = .ok raw)
    (hput : m.putObject cfg.store id raw = none) :
    ∃ buckets', capture m buckets id now cfg =
      some (.ok (capsule cfg id now (failingSeq m cfg) msgs), buckets') := by
  simp only [capture, hstream, hconsumer, if_false, hwindow, hmarshal, hput]
  exact ⟨_, rfl⟩

-- The window reaches the greatest sequence, which is not retained, and holds fewer messages
-- than the capsule has room for.
def Overruns (h : Holding) (cfg : IncidentCapture P) (f : Nat) : Prop :=
  h.last = 2 ^ 64 - 1 ∧ f + cfg.half = 2 ^ 64 - 1 ∧ h.content (2 ^ 64 - 1) = none ∧
    (h.archive.segment (windowStart cfg f) (2 ^ 64 - 1)).length < cfg.window

theorem overruns_iff {cap : Nat} (hcap : cfg.window = cap) (hfit : f + cfg.half < 2 ^ 64) :
    Overruns h cfg f ↔ min (f + cfg.half) h.last = 2 ^ 64 - 1 ∧
      ¬Settled h.archive cap (h.archive.segment (windowStart cfg f) (2 ^ 64 - 1)) := by
  have hlast := h.last_lt
  have hraw : (h.archive.raw? (2 ^ 64 - 1)).isSome = (h.content (2 ^ 64 - 1)).isSome :=
    Option.isSome_map
  rw [Overruns, Settled, hraw, hcap, Int.ofNat_lt, not_or, Bool.not_eq_true,
    Option.isSome_eq_false_iff, Option.isNone_iff_eq_none, not_le]
  constructor
  · rintro ⟨htop, hend, hrest⟩
    exact ⟨by omega, hrest⟩
  · rintro ⟨hend, hrest⟩
    exact ⟨by omega, by omega, hrest⟩

section Over

variable (hname : validateStreamName name = none) (hstream : cfg.stream = Validate.utf8 name)
  (hwindow : 1 ≤ cfg.window) (hretained : (h.content f).isSome) (hfit : f + cfg.half < 2 ^ 64)
  (hturns : 2 ^ 65 ≤ turns)

include hname hstream hwindow hretained hfit hturns

theorem window_of_not_overruns (hok : ¬Overruns h cfg f) :
    ∃ msgs truncated, window (m.over h name turns) cfg f = some ⟨msgs, truncated, none⟩ ∧
      Centred h f cfg.window msgs := by
  obtain ⟨cap, hcap⟩ : ∃ cap : Nat, cfg.window = cap := ⟨cfg.window.toNat, by omega⟩
  obtain ⟨hpos, hlast⟩ := h.retained f hretained
  obtain ⟨hlow, hle, -⟩ := windowStart_bounds cfg hpos
  have hcentred := centred_window hcap hwindow hretained
  have hlt := h.last_lt
  rw [overruns_iff hcap hfit] at hok
  rw [window_over hname hstream hwindow hpos hlast hfit, hcap]
  by_cases htop : min (f + cfg.half) h.last = 2 ^ 64 - 1
  · rw [htop] at hcentred ⊢
    have hsettled := not_not.mp fun hnot => hok ⟨htop, hnot⟩
    have hany := segment_ne_nil cfg hretained
    obtain ⟨truncated, clock, hwalk⟩ := rangeWalk_settled hname hlow (by omega) hany hturns 1
      hsettled
    exact ⟨_, truncated, by rw [hwalk]; rfl, hcap ▸ hcentred⟩
  · obtain ⟨result, hwalk, houtcome⟩ := rangeWalk_outcome h.archive quiet 1 hname
      (show min (f + cfg.half) h.last < 2 ^ 64 - 1 by omega) hlow (by omega)
      (show 1 ≤ cap by omega) (show min (f + cfg.half) h.last + 1 ≤ turns by omega)
    cases houtcome with
    | exact => exact ⟨_, _, by rw [hwalk]; rfl, hcap ▸ hcentred⟩
    | failed _ _ hn => cases hn

theorem window_of_overruns (hover : Overruns h cfg f) {msgs : List StoredMessage}
    {truncated : Bool} (hw : window (m.over h name turns) cfg f = some ⟨msgs, truncated, none⟩) :
    ¬Increasing msgs := by
  obtain ⟨cap, hcap⟩ : ∃ cap : Nat, cfg.window = cap := ⟨cfg.window.toNat, by omega⟩
  obtain ⟨hpos, hlast⟩ := h.retained f hretained
  obtain ⟨hlow, hle, -⟩ := windowStart_bounds cfg hpos
  obtain ⟨htop, hunsettled⟩ := (overruns_iff hcap hfit).mp hover
  rw [window_over hname hstream hwindow hpos hlast hfit, hcap, htop] at hw
  obtain ⟨result, hwalk, hresult⟩ := Option.map_eq_some_iff.mp hw
  have hany := segment_ne_nil cfg hretained
  have hnot := rangeWalk_unsettled hname hlow (by omega) hany hturns 1 hunsettled hwalk
    (by rw [hresult])
  rwa [hresult] at hnot

end Over

-- From enough turns on, Capture builds a capsule of the right messages, unless the walk of
-- GetMsgRange runs past the greatest sequence and goes on at the first messages of the stream.
theorem capture_centred_iff (h : Holding) (m : Managers P) (buckets : Bytes → KeyValue.Bucket)
    (id : Bytes) (now : Nat) (cfg : IncidentCapture P) (hname : validateStreamName name = none)
    (hstream : cfg.stream = Validate.utf8 name) (hconsumer : cfg.consumer ≠ [])
    (hwindow : 1 ≤ cfg.window) (hretained : (h.content (failing h cfg)).isSome)
    (hfit : failing h cfg + cfg.window / 2 < 2 ^ 64)
    (hmarshal : ∀ made, ∃ raw, m.marshal made = .ok raw)
    (hput : ∀ store id raw, m.putObject store id raw = none) :
    (∃ enough, ∀ turns, enough ≤ turns → ∃ msgs truncated buckets',
        window (m.over h name turns) cfg (failing h cfg) = some ⟨msgs, truncated, none⟩ ∧
        capture (m.over h name turns) buckets id now cfg =
          some (.ok (capsule cfg id now (failing h cfg) msgs), buckets') ∧
        Centred h (failing h cfg) cfg.window msgs) ↔
      ¬Overruns h cfg (failing h cfg) := by
  have hhalf : failing h cfg + cfg.half < 2 ^ 64 := by
    rw [half_eq hwindow]
    omega
  constructor
  · rintro ⟨enough, hturns⟩ hover
    obtain ⟨msgs, truncated, -, hw, -, hcentred⟩ := hturns (max enough (2 ^ 65)) (le_max_left _ _)
    exact window_of_overruns hname hstream hwindow hretained hhalf (le_max_right _ _) hover hw
      hcentred.increasing
  · intro hok
    refine ⟨2 ^ 65, fun turns hturns => ?_⟩
    obtain ⟨msgs, truncated, hw, hcentred⟩ := window_of_not_overruns (m := m) hname hstream hwindow
      hretained hhalf hturns hok
    have hvalid : Validate.validateStreamName cfg.stream = none := by
      have hsome := Validate.validateStreamName_utf8 name
      rw [hname, ← hstream] at hsome
      exact Option.isNone_iff_eq_none.mp (Option.isSome_eq_false_iff.mp hsome)
    obtain ⟨raw, hraw⟩ := hmarshal (capsule cfg id now (failing h cfg) msgs)
    obtain ⟨buckets', hcapture⟩ := capture_eq_of_window (m := m.over h name turns)
      buckets hvalid hconsumer hw hraw (hput _ _ _)
    exact ⟨msgs, truncated, buckets', hw, hcapture, hcentred⟩

-- The stream S and the consumer c.
def captureOf (failingSeq : Nat) (window : Int) : IncidentCapture Unit where
  redact := none
  flightRecorder := none
  fingerprint := none
  stream := Validate.utf8 "S"
  consumer := Validate.utf8 "c"
  subject := []
  reason := []
  storeBucket := []
  indexBucket := []
  trigger := none
  failingSeq := failingSeq
  window := window

-- Messages under the given sequences.
def holding (last : Nat) (seqs : List Nat) (hlast : last < 2 ^ 64)
    (hseqs : ∀ seq ∈ seqs, 1 ≤ seq ∧ seq ≤ last) : Holding where
  first := 1
  last := last
  content seq := if seq ∈ seqs then some ⟨0, "orders", none, []⟩ else none
  last_lt := hlast
  retained seq h := by
    by_contra hnot
    rw [if_neg (fun hmem => hnot (hseqs seq hmem))] at h
    cases h

def threeOfFive : Holding := holding 5 [1, 4, 5] (by decide) (by decide)

-- The last message, with FailingSeq unset and a window of 3.
theorem capture_centred_last : ∃ enough, ∀ turns, enough ≤ turns → ∃ msgs truncated buckets',
    window (accepting.over threeOfFive "S" turns) (captureOf 0 3) 5 =
      some ⟨msgs, truncated, none⟩ ∧
    capture (accepting.over threeOfFive "S" turns) (fun _ => ⟨0, fun _ => none⟩) [0x61] 0
        (captureOf 0 3) =
      some (.ok (capsule (captureOf 0 3) [0x61] 0 5 msgs), buckets') ∧
    Centred threeOfFive 5 3 msgs := by
  refine (capture_centred_iff threeOfFive accepting _ _ _ (captureOf 0 3) ?_ rfl ?_ ?_ ?_ ?_ ?_
    ?_).mpr ?_
  · decide
  · decide
  · decide
  · decide
  · decide
  · exact fun _ => ⟨[], rfl⟩
  · exact fun _ _ _ => rfl
  · exact fun hover => absurd hover.1 (by decide)

-- A stream whose last sequence is the greatest one, and deleted.
def deletedTop : Holding := holding (2 ^ 64 - 1) [1, 2, 2 ^ 64 - 2] (by decide) (by decide)

-- The window of 2 around 2^64 - 2 takes message 1 after it.
theorem capture_wraps :
    (window (accepting.over deletedTop "S" 5) (captureOf (2 ^ 64 - 2) 2) (2 ^ 64 - 2)).map
        (fun r => (r.messages.map (·.sequence), r.err)) =
      some ([2 ^ 64 - 2, 1], none) ∧
    (capture (accepting.over deletedTop "S" 5) (fun _ => ⟨0, fun _ => none⟩) [0x61] 0
        (captureOf (2 ^ 64 - 2) 2)).map
        (fun r => r.1.map fun made => made.messages.map (·.sequence)) =
      some (.ok [2 ^ 64 - 2, 1]) := by
  constructor
  · rfl
  · rfl

end NatsClient.Incidents
