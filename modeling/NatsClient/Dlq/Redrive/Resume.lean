import NatsClient.Dlq.Redrive.Exact

namespace NatsClient.Dlq

open Lib.Loop
open Replay (Archive RawMsg)

variable {s : Surroundings} {cfg : ReplayConfig} {st : SourceStream} {f : SourceFaults}
  {seen rest : List RawMsg}

-- No retained message is left from the start on behind the last one considered.
def Drained (st : SourceStream) (cfg : ReplayConfig) (out : ReplayResult) : Prop :=
  ∀ seq, cfg.startSeq ≤ seq → out.lastSeq < seq → st.content seq = none

-- What a nil error is to mean.
def Complete (st : SourceStream) (cfg : ReplayConfig) (out : ReplayResult) : Prop :=
  out.considered = cfg.limit.toNat ∨ Drained st cfg out

theorem retained_eq_nil_iff {low : Nat} :
    st.retained low = [] ↔ ∀ seq, low ≤ seq → st.content seq = none := by
  unfold SourceStream.retained Archive.segment
  rw [List.filterMap_eq_nil_iff]
  constructor
  · intro hnil seq hlow
    by_contra hsome
    have hlast := (st.within seq hsome).2
    have hraw := hnil seq (List.mem_range'_1.mpr ⟨hlow, by omega⟩)
    exact hsome (Option.map_eq_none_iff.mp hraw)
  · intro hnone seq hseq
    simp [Archive.raw?, hnone seq (List.mem_range'_1.mp hseq).1]

-- Behind the messages that were seen nothing is left exactly if the rest is empty.
theorem drained_progress_iff (hstart : 1 ≤ cfg.startSeq)
    (hseen : st.retained cfg.startSeq = seen ++ rest) :
    Drained st cfg (progress s cfg seen).out ↔ rest = [] := by
  have hrest := retained_rest hseen
  cases hlast : seen.getLast? with
  | none =>
    simp only [hlast, Option.map_none, Option.getD_none] at hrest
    simp only [Drained, progress, hlast, Option.map_none, Option.getD_none]
    rw [hrest, retained_eq_nil_iff]
    exact ⟨fun h seq hseq => h seq hseq (by omega), fun h seq hseq _ => h seq hseq⟩
  | some msg =>
    have hmem : msg ∈ st.retained cfg.startSeq :=
      hseen ▸ List.mem_append_left _ (List.mem_of_getLast? hlast)
    obtain ⟨seq, hseq, hraw⟩ := List.mem_filterMap.mp hmem
    have hlow : cfg.startSeq ≤ msg.sequence :=
      Replay.raw_sequence hraw ▸ (List.mem_range'_1.mp hseq).1
    simp only [hlast, Option.map_some, Option.getD_some] at hrest
    simp only [Drained, progress, hlast, Option.map_some, Option.getD_some]
    rw [hrest, retained_eq_nil_iff]
    exact ⟨fun h seq hseq => h seq (by omega) hseq, fun h seq _ hseq => h seq hseq⟩

-- The loop stops without an error where GetNextMsgAfter fails.
theorem replayLoop_of_cut (hs : Serves st f s) (hname : validateStreamName cfg.sourceStream = none)
    (hstart : 1 ≤ cfg.startSeq) (hword : cfg.startSeq < 2 ^ 64)
    (hseen : st.retained cfg.startSeq = seen ++ rest) (hcomes : Comes s cfg seen)
    (hn : seen.length < cfg.limit.toNat) (hctx : s.ctxErr seen.length = none)
    (hcut : Cut st f cfg seen.length) : replayLoop s cfg = (progress s cfg seen, none) := by
  have hstep : replayTurn s cfg (progress s cfg seen) = .inr (progress s cfg seen, none) := by
    have hfetched := fetch_progress hs hname hstart hword hseen
    unfold replayTurn
    simp only [show (progress s cfg seen).out.considered = seen.length from rfl, hctx]
    generalize fetch s cfg (progress s cfg seen).seq seen.length = answer at hfetched
    cases hfetched with
    | cut h => rfl
    | ended h => rfl
    | found h hnot => exact absurd hcut hnot
  have hend := iterate_mono ((iterate_succ_of_reached hcomes).trans hstep) hn
  simp only [replayLoop, hend]

theorem replayLoop_complete_iff (hs : Serves st f s)
    (hname : validateStreamName cfg.sourceStream = none) (hstart : 1 ≤ cfg.startSeq)
    (hword : cfg.startSeq < 2 ^ 64) :
    ((replayLoop s cfg).2 = none → Complete st cfg (replayLoop s cfg).1.out) ↔
      ∀ n p, n < cfg.limit.toNat →
        iterate (replayTurn s cfg) n ⟨cfg.startSeq, ⟨0, 0, 0, 0, 0⟩, []⟩ = .inl p →
        s.ctxErr n = none → Cut st f cfg n → Drained st cfg p.out := by
  constructor
  · intro hcomplete n p hn hreach hctx hcut
    obtain ⟨seen, rest, hseen, rfl, rfl⟩ := comes_of_iterate hs hname hstart hword hreach
    have hloop := replayLoop_of_cut hs hname hstart hword hseen hreach hn hctx hcut
    rw [hloop] at hcomplete
    obtain hfull | hdrained := hcomplete rfl
    · exact absurd hfull hn.ne
    · exact hdrained
  · intro hdrained herr
    have hending := replayLoop_ending hs hname hstart hword
    generalize replayLoop s cfg = result at hending herr
    cases hending with
    | disturbed h => cases herr
    | full h hn => exact .inl hn
    | ended h hn hcomes hctx hend =>
      obtain hcut | hnil := hend
      · exact .inr (hdrained _ _ hn hcomes hctx hcut)
      · exact .inr ((drained_progress_iff hstart h).mpr hnil)

-- The calls of GetNextMsgAfter that fail are those behind the last retained message.
def FailsBehind (st : SourceStream) (f : SourceFaults) (cfg : ReplayConfig) : Prop :=
  ∀ n < cfg.limit.toNat, Cut st f cfg n → (st.retained cfg.startSeq).length ≤ n

-- Up to the first call that fails the loop goes through the messages.
theorem comes_of_quiet (hs : Serves st f s) (hname : validateStreamName cfg.sourceStream = none)
    (hstart : 1 ≤ cfg.startSeq) (hword : cfg.startSeq < 2 ^ 64) (hquiet : Undisturbed s)
    (hseen : st.retained cfg.startSeq = seen ++ rest)
    (hnot : ∀ n < seen.length, ¬ Cut st f cfg n) : Comes s cfg seen := by
  induction seen using List.reverseRecOn generalizing rest with
  | nil => rw [Comes, progress_nil]; rfl
  | append_singleton seen msg ih =>
    rw [List.append_assoc] at hseen
    have hlength : seen.length < (seen ++ [msg]).length := by simp
    have hcomes := ih hseen fun n hn => hnot n (hn.trans hlength)
    have hturn := replayTurn_turn hs hname hstart hword hseen
    rw [Comes, List.length_append, List.length_singleton, iterate_succ_of_reached hcomes]
    generalize replayTurn s cfg (progress s cfg seen) = result at hturn
    cases hturn with
    | disturbed h => exact absurd hquiet h
    | ended hctx h =>
      obtain hcut | hnil := h
      · exact absurd hcut (hnot _ hlength)
      · cases hnil
    | passed h =>
      cases h
      rfl

theorem failsBehind_of_complete (hs : Serves st f s)
    (hname : validateStreamName cfg.sourceStream = none) (hstart : 1 ≤ cfg.startSeq)
    (hword : cfg.startSeq < 2 ^ 64) (hquiet : Undisturbed s)
    (h : ∀ n p, n < cfg.limit.toNat →
      iterate (replayTurn s cfg) n ⟨cfg.startSeq, ⟨0, 0, 0, 0, 0⟩, []⟩ = .inl p →
      s.ctxErr n = none → Cut st f cfg n → Drained st cfg p.out) : FailsBehind st f cfg := by
  intro n
  -- Before the first call that fails no other one does.
  induction n using Nat.strong_induction_on with
  | _ n ih =>
    intro hn hcut
    by_contra hlt
    have hseen := (List.take_append_drop n (st.retained cfg.startSeq)).symm
    have hlength : ((st.retained cfg.startSeq).take n).length = n :=
      List.length_take_of_le (Nat.le_of_not_le hlt)
    have hcomes := comes_of_quiet hs hname hstart hword hquiet hseen fun k hk hearly => by
      have hle := ih k (by omega) (by omega) hearly
      omega
    rw [Comes, hlength] at hcomes
    have hnil := (drained_progress_iff hstart hseen).mp
      (h n _ hn hcomes (hquiet.ctx n) hcut)
    exact hlt (List.drop_eq_nil_iff.mp hnil)

-- A run that reports no error is complete exactly if GetNextMsgAfter fails at no turn that the
-- run comes to while messages are left. That is so if it fails only behind the last retained
-- message, and only then where the context and the publisher give no error.
theorem redrive_success_iff (st : SourceStream) (f : SourceFaults) (s : Surroundings)
    (hs : Serves st f s) (cfg : ReplayConfig)
    (hname : validateStreamName cfg.sourceStream = none) (hword : cfg.startSeq < 2 ^ 64) :
    (¬ Admitted s cfg → (replayToStream s cfg).err ≠ none) ∧
    (Admitted s cfg →
      (((replayToStream s cfg).err = none → ∃ out, (replayToStream s cfg).result = some out ∧
          Complete st cfg.withDefaults out) ↔
        ∀ n p, n < cfg.withDefaults.limit.toNat →
          iterate (replayTurn s cfg.withDefaults) n
            ⟨cfg.withDefaults.startSeq, ⟨0, 0, 0, 0, 0⟩, []⟩ = .inl p →
          s.ctxErr n = none → Cut st f cfg.withDefaults n →
          Drained st cfg.withDefaults p.out) ∧
      (FailsBehind st f cfg.withDefaults →
        (replayToStream s cfg).err = none → ∃ out, (replayToStream s cfg).result = some out ∧
          Complete st cfg.withDefaults out) ∧
      (Undisturbed s → ((replayToStream s cfg).err = none →
          ∃ out, (replayToStream s cfg).result = some out ∧ Complete st cfg.withDefaults out) →
        FailsBehind st f cfg.withDefaults)) := by
  have hname := withDefaults_name hname
  have hstart := withDefaults_start cfg
  have hword := withDefaults_word hword
  refine ⟨replayToStream_refused, fun hadmitted => ?_⟩
  have hloop : ((replayToStream s cfg).err = none →
        ∃ out, (replayToStream s cfg).result = some out ∧ Complete st cfg.withDefaults out) ↔
      ((replayLoop s cfg.withDefaults).2 = none →
        Complete st cfg.withDefaults (replayLoop s cfg.withDefaults).1.out) := by
    rw [replayToStream_admitted hadmitted]
    refine ⟨fun h herr => ?_, fun h herr => ⟨_, rfl, h herr⟩⟩
    obtain ⟨out, hout, hcomplete⟩ := h herr
    cases hout
    exact hcomplete
  have hiff := hloop.trans (replayLoop_complete_iff hs hname hstart hword)
  refine ⟨hiff, fun hbehind => hiff.mpr ?_, fun hquiet h => ?_⟩
  · intro n p hn hreach _ hcut
    obtain ⟨seen, rest, hseen, rfl, rfl⟩ := comes_of_iterate hs hname hstart hword hreach
    have hle := hbehind _ hn hcut
    refine (drained_progress_iff hstart hseen).mpr (List.length_eq_zero_iff.mp ?_)
    rw [hseen, List.length_append] at hle
    omega
  · exact failsBehind_of_complete hs hname hstart hword hquiet (hiff.mp h)

-- GetMsg fails, and the walk from just before the start finds the message.
def firstGetTimesOut : Surroundings :=
  gappedDlq.manager ⟨some (.sentinel .errTimeout), fun _ => none⟩

theorem redrive_success_iff_get_fails :
    (replayToStream firstGetTimesOut redriveMaxDeliver).err = none ∧
      ∃ out, (replayToStream firstGetTimesOut redriveMaxDeliver).result = some out ∧
        Complete gappedDlq redriveMaxDeliver.withDefaults out := by
  have hname : validateStreamName redriveMaxDeliver.sourceStream = none := by decide +kernel
  have herr : (replayToStream firstGetTimesOut redriveMaxDeliver).err = none :=
    Option.isNone_iff_eq_none.mp (by decide +kernel)
  have hiff := (redrive_success_iff gappedDlq ⟨some (.sentinel .errTimeout), fun _ => none⟩
    firstGetTimesOut (manager_serves _ _) redriveMaxDeliver hname (by decide)).2
    ⟨rfl, rfl, by decide, by decide⟩
  exact ⟨herr, hiff.2.1 (fun n hn hcut => absurd rfl hcut.1) herr⟩

-- The fetch of the second message times out.
def secondTimesOut : Surroundings :=
  gappedDlq.manager ⟨none, fun n => if n = 1 then some (.sentinel .errTimeout) else none⟩

-- The message is there, and the run reports success without it.
theorem redrive_stops_at_timeout :
    (replayToStream secondTimesOut redriveMaxDeliver).err = none ∧
      (replayToStream secondTimesOut redriveMaxDeliver).result = some ⟨1, 1, 1, 0, 2⟩ ∧
      gappedDlq.content 6 ≠ none ∧
      ¬ Complete gappedDlq redriveMaxDeliver.withDefaults ⟨1, 1, 1, 0, 2⟩ := by
  have hcontent : gappedDlq.content 6 ≠ none := by decide +kernel
  refine ⟨Option.isNone_iff_eq_none.mp (by decide +kernel), by decide +kernel, hcontent, ?_⟩
  rintro (hfull | hdrained)
  · revert hfull
    decide
  · exact hcontent (hdrained 6 (by decide) (by decide))

section Chunks

theorem published_append (s : Surroundings) (cfg : ReplayConfig) (first second : List RawMsg) :
    published s cfg (first ++ second) = published s cfg first ++ published s cfg second := by
  unfold published
  split_ifs <;> simp

theorem published_eq_nil_iff {messages : List RawMsg} :
    published s cfg messages = [] ↔ cfg.dryRun = true ∨ ∀ msg ∈ messages, ¬ Matches s cfg msg := by
  unfold published
  split_ifs with hdry <;> simp [hdry]

theorem requested_limit (st : SourceStream) (cfg : ReplayConfig) {n : Int} (hn : 1 ≤ n) :
    requested st { cfg with limit := n } =
      (st.retained cfg.withDefaults.startSeq).take n.toNat := by
  have hpos : ¬ n ≤ 0 := by omega
  simp only [requested, ReplayConfig.withDefaults, hpos, if_false]

theorem exists_retained_iff :
    (∃ seq, cfg.startSeq ≤ seq ∧ st.content seq ≠ none) ↔
      st.retained cfg.withDefaults.startSeq ≠ [] := by
  rw [Ne, retained_eq_nil_iff, not_forall]
  refine exists_congr fun seq => ?_
  rw [Classical.not_imp]
  refine and_congr_left fun hsome => ?_
  have hone := (st.within seq hsome).1
  simp only [ReplayConfig.withDefaults]
  split_ifs <;> omega

-- Behind the last of the first messages are the others.
theorem retained_behind {low n : Nat} (hne : st.retained low ≠ []) (hn : 0 < n) :
    let last := ((((st.retained low).take n).getLast?).map (·.sequence)).getD 0
    st.retained (last + 1) = (st.retained low).drop n ∧ last + 1 < 2 ^ 64 := by
  intro last
  have hsplit : st.retained low = (st.retained low).take n ++ (st.retained low).drop n :=
    (List.take_append_drop n _).symm
  obtain ⟨cut, hcut⟩ : ∃ cut, ((st.retained low).take n).getLast? = some cut := by
    rw [← Option.ne_none_iff_exists', Ne, List.getLast?_eq_none_iff, List.take_eq_nil_iff, not_or]
    exact ⟨hn.ne', hne⟩
  have hlast : last = cut.sequence := by simp [last, hcut]
  have hrest := retained_rest hsplit
  have hbound := retained_bound hsplit hcut
  have hlt := st.last_lt
  rw [hcut, Option.map_some, Option.getD_some] at hrest
  rw [hlast]
  exact ⟨hrest.symm, by omega⟩

section Second

variable (hs : Serves st .none s) (hquiet : Undisturbed s) (hadmitted : Admitted s cfg)
  (hname : validateStreamName cfg.sourceStream = none)

include hs hquiet hadmitted hname

theorem sent_limit (hword : cfg.startSeq < 2 ^ 64) {n : Int} (hn : 1 ≤ n) :
    (replayToStream s { cfg with limit := n }).sent =
      published s cfg ((st.retained cfg.withDefaults.startSeq).take n.toNat) := by
  have hadmitted' : Admitted s { cfg with limit := n } :=
    ⟨hadmitted.source, hadmitted.publisher, hadmitted.stream, hadmitted.dest⟩
  rw [replayToStream_calm hs hquiet hadmitted' hname hword, requested_limit st cfg hn]
  rfl

theorem sent_from {start : Nat} (hstart : 1 ≤ start) (hword : start < 2 ^ 64) {n : Int}
    (hn : 1 ≤ n) :
    (replayToStream s { cfg with startSeq := start, limit := n }).sent =
      published s cfg ((st.retained start).take n.toNat) := by
  have hadmitted' : Admitted s { cfg with startSeq := start } :=
    ⟨hadmitted.source, hadmitted.publisher, hadmitted.stream, hadmitted.dest⟩
  have hsent := sent_limit hs hquiet hadmitted' hname hword hn
  have hsame : ReplayConfig.startSeq (ReplayConfig.withDefaults { cfg with startSeq := start }) =
      start := if_neg (Nat.one_le_iff_ne_zero.mp hstart)
  rw [hsame] at hsent
  exact hsent

theorem lastSeq_limit (hword : cfg.startSeq < 2 ^ 64) {n : Int} (hn : 1 ≤ n) {out : ReplayResult}
    (hout : (replayToStream s { cfg with limit := n }).result = some out) :
    out.lastSeq = ((((st.retained cfg.withDefaults.startSeq).take n.toNat).getLast?).map
      (·.sequence)).getD 0 := by
  have hadmitted' : Admitted s { cfg with limit := n } :=
    ⟨hadmitted.source, hadmitted.publisher, hadmitted.stream, hadmitted.dest⟩
  rw [replayToStream_calm hs hquiet hadmitted' hname hword, requested_limit st cfg hn] at hout
  cases hout
  rfl

end Second

end Chunks

-- Two runs, the second from behind the LastSeq of the first, publish what one run publishes,
-- except where the first has considered nothing: then the second starts at 1.
theorem chunked_redrive_iff (st : SourceStream) (s : Surroundings) (hs : Serves st .none s)
    (hquiet : Undisturbed s) (cfg : ReplayConfig) (hadmitted : Admitted s cfg)
    (hname : validateStreamName cfg.sourceStream = none) (hword : cfg.startSeq < 2 ^ 64)
    (a b : Int) (ha : 1 ≤ a) (hb : 1 ≤ b) (first : ReplayResult)
    (hfirst : (replayToStream s { cfg with limit := a }).result = some first) :
    (replayToStream s { cfg with limit := a }).sent ++
        (replayToStream s { cfg with startSeq := first.lastSeq + 1, limit := b }).sent =
      (replayToStream s { cfg with limit := a + b }).sent ↔
    (∃ seq, cfg.startSeq ≤ seq ∧ st.content seq ≠ none) ∨ cfg.dryRun = true ∨
      ∀ msg ∈ (st.retained 1).take b.toNat, ¬ Matches s cfg msg := by
  have hlast := lastSeq_limit hs hquiet hadmitted hname hword ha hfirst
  rw [exists_retained_iff, ← published_eq_nil_iff,
    sent_limit hs hquiet hadmitted hname hword ha,
    sent_limit hs hquiet hadmitted hname hword (by omega : 1 ≤ a + b)]
  by_cases hnil : st.retained cfg.withDefaults.startSeq = []
  · rw [hnil, List.take_nil] at hlast
    rw [hlast, sent_from hs hquiet hadmitted hname (by decide) (by decide) hb, hnil]
    simp [published]
  · obtain ⟨hrest, hlt⟩ := retained_behind hnil (by omega : 0 < a.toNat)
    rw [← hlast] at hrest hlt
    have hsum : (a + b).toNat = a.toNat + b.toNat := by omega
    rw [sent_from hs hquiet hadmitted hname (by omega) hlt hb, hrest, hsum, List.take_add,
      published_append]
    simp [hnil]

theorem chunked_redrive_iff_gapped :
    ∃ first, (replayToStream (gappedDlq.manager .none) { redriveMaxDeliver with limit := 1 }).result =
        some first ∧
      (replayToStream (gappedDlq.manager .none) { redriveMaxDeliver with limit := 1 }).sent ++
          (replayToStream (gappedDlq.manager .none)
            { redriveMaxDeliver with startSeq := first.lastSeq + 1, limit := 1 }).sent =
        (replayToStream (gappedDlq.manager .none) { redriveMaxDeliver with limit := 1 + 1 }).sent := by
  have hname : validateStreamName redriveMaxDeliver.sourceStream = none := by decide +kernel
  have hfirst : (replayToStream (gappedDlq.manager .none)
      { redriveMaxDeliver with limit := 1 }).result = some ⟨1, 1, 1, 0, 2⟩ := by decide +kernel
  refine ⟨_, hfirst, (chunked_redrive_iff gappedDlq _ (manager_serves _ _)
    ⟨fun _ => rfl, fun _ => rfl, fun _ => rfl⟩ redriveMaxDeliver ⟨rfl, rfl, by decide, by decide⟩
    hname (by decide) 1 1 (by decide) (by decide) _ hfirst).mpr (.inl ⟨6, by decide, ?_⟩)⟩
  decide +kernel

-- A run from behind the end of the stream considers nothing. The next one starts at 1 and
-- publishes message 2, which one run does not.
theorem chunked_redrive_starts_over :
    (replayToStream (gappedDlq.manager .none)
        { redriveMaxDeliver with startSeq := 100, limit := 1 }).result = some ⟨0, 0, 0, 0, 0⟩ ∧
      (replayToStream (gappedDlq.manager .none)
        { redriveMaxDeliver with startSeq := 0 + 1, limit := 1 }).sent.map (·.raw.data) = [[2]] ∧
      (replayToStream (gappedDlq.manager .none)
        { redriveMaxDeliver with startSeq := 100, limit := 1 + 1 }).sent.map (·.raw.data) = [] := by
  decide +kernel

end NatsClient.Dlq
