import NatsClient.Dlq.Redrive.Walk

namespace NatsClient.Dlq

open Lib.Loop
open Replay (RawMsg)

-- The two filters: one on the reason up to case, one on the original subject.
def Matches (s : Surroundings) (cfg : ReplayConfig) (msg : RawMsg) : Prop :=
  (cfg.reasonFilter ≠ "" →
    s.equalFold (headerGet s (storedOf msg).header headerReason) cfg.reasonFilter = true) ∧
  (cfg.subjectFilter ≠ "" →
    headerGet s (storedOf msg).header headerOriginalSubject = cfg.subjectFilter)

instance (s : Surroundings) (cfg : ReplayConfig) (msg : RawMsg) : Decidable (Matches s cfg msg) :=
  inferInstanceAs (Decidable (_ ∧ _))

variable {s : Surroundings} {cfg : ReplayConfig} {st : SourceStream} {seen rest : List RawMsg}

theorem passes_eq_matches (s : Surroundings) (cfg : ReplayConfig) (msg : RawMsg) :
    passes s cfg.withDefaults msg = decide (Matches s cfg msg) := by
  simp only [passes, matchReplayFilters, Matches, ReplayConfig.withDefaults]
  by_cases hreason : cfg.reasonFilter = "" <;> by_cases hsubject : cfg.subjectFilter = "" <;>
    simp [hreason, hsubject]

-- The sequences the loop goes through, one for each turn that goes on.
def visits (s : Surroundings) (cfg : ReplayConfig) : List Nat :=
  (List.range cfg.limit.toNat).filterMap fun k =>
    (iterate (replayTurn s cfg) (k + 1) ⟨cfg.startSeq, ⟨0, 0, 0, 0, 0⟩, []⟩).getLeft?.map
      Progress.seq

section Calm

variable (hs : Serves st .none s) (hname : validateStreamName cfg.sourceStream = none)
  (hstart : 1 ≤ cfg.startSeq) (hword : cfg.startSeq < 2 ^ 64) (hquiet : Undisturbed s)

include hs hname hstart hword hquiet

-- Where nothing fails, the turns go through the rest of the stream one message at a time.
theorem iterate_getLeft (hseen : st.retained cfg.startSeq = seen ++ rest) (turns : Nat) :
    (iterate (replayTurn s cfg) turns (progress s cfg seen)).getLeft? =
      if turns ≤ rest.length then some (progress s cfg (seen ++ rest.take turns)) else none := by
  induction turns generalizing seen rest with
  | zero => simp [iterate]
  | succ turns ih =>
    have hturn := replayTurn_turn hs hname hstart hword hseen
    generalize hresult : replayTurn s cfg (progress s cfg seen) = result at hturn
    cases hturn with
    | disturbed h => exact absurd hquiet h
    | ended hctx h =>
      have hnil : rest = [] := h.resolve_left fun hcut => hcut.1 rfl
      simp [iterate, hresult, hnil]
    | @passed msg more h hnot =>
      have hnext : st.retained cfg.startSeq = (seen ++ [msg]) ++ more := by
        rw [hseen, h, List.append_assoc, List.singleton_append]
      rw [iterate_succ_of_inl hresult, ih hnext, h]
      simp

theorem visits_eq :
    visits s cfg = ((st.retained cfg.startSeq).take cfg.limit.toNat).map (·.sequence) := by
  have hvisit (k : Nat) :
      (iterate (replayTurn s cfg) (k + 1) ⟨cfg.startSeq, ⟨0, 0, 0, 0, 0⟩, []⟩).getLeft?.map
        Progress.seq = (st.retained cfg.startSeq)[k]?.map (·.sequence) := by
    rw [← progress_nil s cfg,
      iterate_getLeft hs hname hstart hword hquiet (List.nil_append _).symm (k + 1)]
    split_ifs with hk
    · have hlt : k < (st.retained cfg.startSeq).length := hk
      simp [progress, List.getLast?_take, hlt]
    · simp [List.getElem?_eq_none (Nat.le_of_not_lt hk)]
  unfold visits
  simp only [hvisit]
  induction cfg.limit.toNat with
  | zero => rfl
  | succ n ih =>
    rw [List.range_succ, List.filterMap_append, ih, List.take_add_one, List.map_append]
    cases h : (st.retained cfg.startSeq)[n]? <;> simp [h]

-- The loop ends behind the messages that are asked for.
theorem replayLoop_calm :
    replayLoop s cfg =
      (progress s cfg ((st.retained cfg.startSeq).take cfg.limit.toNat), none) := by
  have hending := replayLoop_ending hs hname hstart hword
  generalize replayLoop s cfg = result at hending
  cases hending with
  | disturbed h => exact absurd hquiet h
  | full h hn => rw [h, ← hn, List.take_left]
  | ended h hn hcomes hctx hend =>
    have hnil := hend.resolve_left fun hcut => hcut.1 rfl
    rw [h, hnil, List.append_nil, List.take_of_length_le hn.le]

end Calm

theorem retained_increasing (st : SourceStream) (low n : Nat) :
    (((st.retained low).take n).map (·.sequence)).Pairwise (· < ·) := by
  rw [List.map_take, SourceStream.retained, Replay.segment_sequences]
  exact ((List.pairwise_lt_range').filter _).take

-- What goes out for a stored message.
def redriven (cfg : ReplayConfig) (msg : RawMsg) : Resent where
  stored := storedOf msg
  subject := cfg.destSubject
  raw := ⟨if cfg.stripDLQHeaders then stripDLQHeaders (storedOf msg).header
    else (storedOf msg).header, msg.data⟩

theorem resent_eq_redriven (s : Surroundings) (hdest : cfg.destSubject ≠ "") (msg : RawMsg) :
    resent s cfg.withDefaults (storedOf msg) = redriven cfg msg := by
  have hsubject : (resent s cfg.withDefaults (storedOf msg)).subject = cfg.destSubject :=
    if_neg fun h => hdest h.2
  unfold redriven
  rw [← hsubject]
  rfl

-- The messages that a run is to consider: the first ones from StartSeq on, as many as Limit
-- says, with the defaults 1 and 100.
def requested (st : SourceStream) (cfg : ReplayConfig) : List RawMsg :=
  (st.retained (if cfg.startSeq = 0 then 1 else cfg.startSeq)).take
    (if cfg.limit ≤ 0 then 100 else cfg.limit.toNat)

theorem requested_eq (st : SourceStream) (cfg : ReplayConfig) :
    requested st cfg =
      (st.retained cfg.withDefaults.startSeq).take cfg.withDefaults.limit.toNat := by
  simp only [requested, ReplayConfig.withDefaults]
  split_ifs <;> rfl

-- What a run publishes where nothing fails.
def published (s : Surroundings) (cfg : ReplayConfig) (considered : List RawMsg) : List Resent :=
  if cfg.dryRun then [] else (considered.filter fun msg => Matches s cfg msg).map (redriven cfg)

theorem replayToStream_calm (hs : Serves st .none s) (hquiet : Undisturbed s)
    (hadmitted : Admitted s cfg) (hname : validateStreamName cfg.sourceStream = none)
    (hword : cfg.startSeq < 2 ^ 64) :
    replayToStream s cfg =
      ⟨some (progress s cfg.withDefaults (requested st cfg)).out, none,
        published s cfg (requested st cfg)⟩ := by
  have hpasses : passes s cfg.withDefaults = fun msg => decide (Matches s cfg msg) :=
    funext (passes_eq_matches s cfg)
  rw [replayToStream_admitted hadmitted, replayLoop_calm hs
    (withDefaults_name hname) (withDefaults_start cfg) (withDefaults_word hword) hquiet,
    requested_eq, published]
  simp only [progress, hpasses, resent_eq_redriven s hadmitted.dest]
  rfl

-- A run considers the first retained messages from its start on, each once and in order. It
-- publishes those that match both filters, in that order and with their data, and counts them.
theorem redrive_visits_exactly (st : SourceStream) (s : Surroundings) (hs : Serves st .none s)
    (hquiet : Undisturbed s) (cfg : ReplayConfig) (hadmitted : Admitted s cfg)
    (hname : validateStreamName cfg.sourceStream = none) (hword : cfg.startSeq < 2 ^ 64) :
    let considered := requested st cfg
    let matching := considered.filter fun msg => Matches s cfg msg
    visits s cfg.withDefaults = considered.map (·.sequence) ∧
    (considered.map (·.sequence)).Pairwise (· < ·) ∧
    (replayToStream s cfg).err = none ∧
    (replayToStream s cfg).sent = (if cfg.dryRun then [] else matching.map (redriven cfg)) ∧
    ∃ r, (replayToStream s cfg).result = some r ∧ r.considered = considered.length ∧
      r.matched = matching.length ∧ r.considered = r.matched + r.skipped ∧
      r.published = (if cfg.dryRun then 0 else r.matched) ∧
      r.lastSeq = ((considered.map (·.sequence)).getLast?).getD 0 := by
  intro considered matching
  have hpasses : passes s cfg.withDefaults = fun msg => decide (Matches s cfg msg) :=
    funext (passes_eq_matches s cfg)
  have hrun := replayToStream_calm hs hquiet hadmitted hname hword
  refine ⟨?_, ?_, by rw [hrun], by rw [hrun]; rfl, _, by rw [hrun], rfl, ?_, ?_, ?_, ?_⟩
  · rw [visits_eq hs (withDefaults_name hname) (withDefaults_start cfg)
      (withDefaults_word hword) hquiet, ← requested_eq]
  · exact retained_increasing st _ _
  · simp only [progress, hpasses, List.countP_eq_length_filter]
    rfl
  · have hsplit := List.length_eq_countP_add_countP (l := requested st cfg)
      (passes s cfg.withDefaults)
    simpa [progress] using hsplit
  · rfl
  · simp only [progress, List.getLast?_map]
    rfl

-- A DLQ stream with gaps: its messages 2 and 6 are left.
def gappedDlq : SourceStream where
  first := 2
  last := 7
  content seq :=
    if seq = 2 then some ⟨0, "orders.dlq", some ((∅ : Header).insert headerReason ["max_deliver"]), [2]⟩
    else if seq = 6 then some ⟨1, "orders.dlq", none, [6]⟩
    else none
  last_lt := by decide
  within := by grind

def redriveMaxDeliver : ReplayConfig := ⟨"DLQ", "orders.new", "Max_Deliver", "", 0, 0, 0, false, true⟩

theorem redrive_visits_exactly_gapped :
    visits (gappedDlq.manager .none) redriveMaxDeliver.withDefaults = [2, 6] ∧
      (replayToStream (gappedDlq.manager .none) redriveMaxDeliver).err = none ∧
      (replayToStream (gappedDlq.manager .none) redriveMaxDeliver).sent.map (·.raw.data) = [[2]] := by
  have hname : validateStreamName redriveMaxDeliver.sourceStream = none := by decide +kernel
  obtain ⟨hvisits, -, herr, hsent, -⟩ := redrive_visits_exactly gappedDlq (gappedDlq.manager .none)
    (manager_serves gappedDlq .none) ⟨fun _ => rfl, fun _ => rfl, fun _ => rfl⟩ redriveMaxDeliver
    ⟨rfl, rfl, by decide, by decide⟩ hname (by decide)
  refine ⟨hvisits.trans (by decide +kernel), herr, ?_⟩
  rw [hsent]
  decide +kernel

end NatsClient.Dlq
