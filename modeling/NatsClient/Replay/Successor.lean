import NatsClient.Replay

namespace NatsClient.Replay

open Lib.Loop

-- The broker answers from the retained messages, and with ErrMsgNotFound everywhere else.
structure Holds (server : Server) (stream : String) (time : Nat → Option Int) (last : Nat) :
    Prop where
  found : ∀ k t, time k = some t → server.getMsg stream k = .ok ⟨k, t⟩
  missing : ∀ k, time k = none → ∃ e, server.getMsg stream k = .error e ∧
    e.is .errMsgNotFound = true
  le_last : ∀ k t, time k = some t → k ≤ last
  last_lt : last < 2 ^ 64

variable {server : Server} {stream : String} {time : Nat → Option Int} {seq last next : Nat}

-- What a walk comes to from a sequence on.
inductive Walked (time : Nat → Option Int) (low : Nat) : Except GoError RawStreamMsg → Prop
  | found {msg} (hmsg : time msg.sequence = some msg.time) (hlow : low ≤ msg.sequence)
      (hgap : ∀ k, low ≤ k → k < msg.sequence → time k = none) : Walked time low (.ok msg)
  | missing {e} (he : e.is .errMsgNotFound = true) (hgap : ∀ k, low ≤ k → time k = none) :
      Walked time low (.error e)

theorem Walked.of_none {low : Nat} {result : Except GoError RawStreamMsg}
    (h : Walked time (low + 1) result) (ht : time low = none) : Walked time low result := by
  cases h with
  | found hmsg hlow hgap =>
    refine .found hmsg (by omega) fun k hk hlt => ?_
    obtain rfl | hk := Nat.eq_or_lt_of_le hk
    · exact ht
    · exact hgap k hk hlt
  | missing he hgap =>
    refine .missing he fun k hk => ?_
    obtain rfl | hk := Nat.eq_or_lt_of_le hk
    · exact ht
    · exact hgap k hk

namespace Holds

theorem nextMsgStep_found (h : Holds server stream time last) {t : Int}
    (ht : time next = some t) :
    nextMsgStep server stream seq last next = .inr (.ok ⟨next, t⟩) := by
  simp [nextMsgStep, h.le_last next t ht, h.found next t ht]

theorem nextMsgStep_missing (h : Holds server stream time last) (ht : time next = none)
    (hle : next ≤ last) :
    nextMsgStep server stream seq last next = .inl ((next + 1) % 2 ^ 64) := by
  obtain ⟨e, hget, he⟩ := h.missing next ht
  simp [nextMsgStep, hle, hget, he]

-- A sequence without a message is passed over, if the end of the walk or a message lies behind it.
theorem nextMsgStep_next (h : Holds server stream time last) (ht : time next = none)
    (hle : next ≤ last) (hend : last < 2 ^ 64 - 1 ∨ ∃ k t, next + 1 ≤ k ∧ time k = some t) :
    nextMsgStep server stream seq last next = .inl (next + 1) := by
  have hlt : next + 1 < 2 ^ 64 := by
    obtain hlast | ⟨k, t, hk, hkt⟩ := hend
    · omega
    · have hkl := h.le_last k t hkt
      have hlast := h.last_lt
      omega
  rw [h.nextMsgStep_missing ht hle, Nat.mod_eq_of_lt hlt]

-- A walk that meets a message before the counter wraps, or whose end lies before it, finds the
-- next message.
theorem walk (h : Holds server stream time last) (seq turns next : Nat)
    (hturns : last + 1 - next < turns)
    (hend : last < 2 ^ 64 - 1 ∨ ∃ k t, next ≤ k ∧ time k = some t) :
    ∃ result, iterate (nextMsgStep server stream seq last) turns next = .inr result ∧
      Walked time next result := by
  induction turns generalizing next with
  | zero => omega
  | succ turns ih =>
    by_cases hle : next ≤ last
    · cases ht : time next with
      | some t =>
        exact ⟨.ok ⟨next, t⟩, iterate_succ_of_inr (h.nextMsgStep_found ht) turns,
          .found ht (Nat.le_refl _) fun k hk hlt => absurd hk (Nat.not_le.mpr hlt)⟩
      | none =>
        have hturns : last + 1 - (next + 1) < turns := by omega
        have hend : last < 2 ^ 64 - 1 ∨ ∃ k t, next + 1 ≤ k ∧ time k = some t := by
          refine hend.imp_right ?_
          rintro ⟨k, t, hk, hkt⟩
          refine ⟨k, t, Nat.lt_of_le_of_ne hk ?_, hkt⟩
          rintro rfl
          rw [ht] at hkt
          cases hkt
        obtain ⟨result, hresult, hwalked⟩ := ih (next + 1) hturns hend
        rw [iterate_succ_of_inl (h.nextMsgStep_next ht hle hend)]
        exact ⟨result, hresult, hwalked.of_none ht⟩
    · refine ⟨_, by simp [iterate, nextMsgStep, hle]; rfl, .missing rfl fun k hk => ?_⟩
      cases hkt : time k with
      | none => rfl
      | some t =>
        have hkl := h.le_last k t hkt
        omega

-- Up to the largest sequence the condition of the loop cannot fail.
theorem walk_ne_error (h : Holds server stream time (2 ^ 64 - 1)) (turns : Nat)
    (hnext : next < 2 ^ 64) (e : GoError) :
    iterate (nextMsgStep server stream seq (2 ^ 64 - 1)) turns next ≠ .inr (.error e) := by
  induction turns generalizing next with
  | zero => exact Sum.inl_ne_inr
  | succ turns ih =>
    cases ht : time next with
    | some t =>
      rw [iterate_succ_of_inr (h.nextMsgStep_found ht)]
      rintro ⟨⟩
    | none =>
      rw [iterate_succ_of_inl (h.nextMsgStep_missing ht (by omega))]
      exact ih (Nat.mod_lt _ (by decide))

end Holds

-- The retained message with the smallest sequence greater than seq, or ErrMsgNotFound.
def IsSuccessor (time : Nat → Option Int) (seq : Nat) :
    Option (Except GoError RawStreamMsg) → Prop
  | some (.ok msg) => time msg.sequence = some msg.time ∧ seq < msg.sequence ∧
      ∀ k, seq < k → k < msg.sequence → time k = none
  | some (.error e) => e.is .errMsgNotFound = true ∧ ∀ k, seq < k → time k = none
  | none => False

-- The counter has not wrapped at the start: the walk looks behind seq.
theorem isSuccessor_of_lt (h : Holds server stream time last) (hseq : seq < 2 ^ 64 - 1)
    (hend : last < 2 ^ 64 - 1 ∨ ∃ k t, seq < k ∧ time k = some t) :
    IsSuccessor time seq (getNextMsgAfterKnownLast server stream seq last) := by
  have hlast := h.last_lt
  have hmod : (seq + 1) % 2 ^ 64 = seq + 1 := Nat.mod_eq_of_lt (by omega)
  rw [getNextMsgAfterKnownLast, hmod]
  obtain ⟨result, hresult, hwalked⟩ := h.walk seq (2 ^ 64 + 1) (seq + 1) (by omega) hend
  rw [hresult]
  cases hwalked with
  | found hmsg hlow hgap => exact ⟨hmsg, hlow, hgap⟩
  | missing he hgap => exact ⟨he, hgap⟩

theorem isSuccessor_max_iff (h : Holds server stream time last) (hlast : last < 2 ^ 64 - 1) :
    IsSuccessor time (2 ^ 64 - 1)
        (getNextMsgAfterKnownLast server stream (2 ^ 64 - 1) last) ↔
      ∀ k, time k = none := by
  have hmod : (2 ^ 64 - 1 + 1) % 2 ^ 64 = 0 := by decide
  rw [getNextMsgAfterKnownLast, hmod]
  obtain ⟨result, hresult, hwalked⟩ := h.walk (2 ^ 64 - 1) (2 ^ 64 + 1) 0 (by omega) (.inl hlast)
  rw [hresult]
  cases hwalked with
  | @found msg hmsg =>
    refine iff_of_false (fun hs => ?_) fun hnone => ?_
    · have hbehind : 2 ^ 64 - 1 < msg.sequence := hs.2.1
      have hle := h.le_last _ _ hmsg
      omega
    · rw [hnone] at hmsg
      cases hmsg
  | missing he hgap =>
    exact iff_of_true ⟨he, fun k _ => hgap k (Nat.zero_le k)⟩ fun k => hgap k (Nat.zero_le k)

theorem getNextMsgAfterKnownLast_iff (server : Server) (stream : String)
    (time : Nat → Option Int) (seq last : Nat) (h : Holds server stream time last)
    (hseq : seq < 2 ^ 64) :
    IsSuccessor time seq (getNextMsgAfterKnownLast server stream seq last) ↔
      (∃ k t, seq < k ∧ time k = some t) ∨
        last ≠ 2 ^ 64 - 1 ∧ (seq ≠ 2 ^ 64 - 1 ∨ ∀ k, time k = none) := by
  have hlast := h.last_lt
  by_cases hsome : ∃ k t, seq < k ∧ time k = some t
  · refine iff_of_true (isSuccessor_of_lt h ?_ (.inr hsome)) (.inl hsome)
    obtain ⟨k, t, hk, hkt⟩ := hsome
    have hle := h.le_last k t hkt
    omega
  refine Iff.trans ?_ (or_iff_right hsome).symm
  by_cases hmax : last = 2 ^ 64 - 1
  · -- neither a message nor an error can be right
    refine iff_of_false (fun hs => ?_) fun hne => hne.1 hmax
    subst hmax
    unfold getNextMsgAfterKnownLast at hs
    cases hi : iterate (nextMsgStep server stream seq (2 ^ 64 - 1)) (2 ^ 64 + 1)
        ((seq + 1) % 2 ^ 64) with
    | inl next =>
      rw [hi] at hs
      exact hs
    | inr result =>
      cases result with
      | ok msg =>
        rw [hi] at hs
        exact hsome ⟨_, _, hs.2.1, hs.1⟩
      | error e => exact h.walk_ne_error _ (Nat.mod_lt _ (by decide)) e hi
  · have hlt : last < 2 ^ 64 - 1 := by omega
    by_cases hwraps : seq = 2 ^ 64 - 1
    · subst hwraps
      refine (isSuccessor_max_iff h hlt).trans ⟨fun hnone => ⟨hmax, .inr hnone⟩, fun hright => ?_⟩
      exact hright.2.resolve_left fun hne => hne rfl
    · exact iff_of_true (isSuccessor_of_lt h (by omega) (.inl hlt)) ⟨hmax, .inl hwraps⟩

-- The stream holds one message.
def lone (seq : Nat) : Option Int := if seq = 1 then some 0 else none

def loneServer : Server where
  streamInfo _ := .ok ⟨1, 1⟩
  getMsg _ seq := if seq = 1 then .ok ⟨1, 0⟩ else .error (.sentinel .errMsgNotFound)

theorem loneServer_holds : Holds loneServer "S" lone 1 where
  found k t ht := by
    simp only [lone] at ht
    split_ifs at ht with hk
    cases ht
    simp [loneServer, hk]
  missing k ht := by
    simp only [lone] at ht
    split_ifs at ht with hk
    exact ⟨.sentinel .errMsgNotFound, if_neg hk, rfl⟩
  le_last k t ht := by
    simp only [lone] at ht
    split_ifs at ht with hk
    exact Nat.le_of_eq hk
  last_lt := by decide

theorem getNextMsgAfterKnownLast_zero :
    IsSuccessor lone 0 (getNextMsgAfterKnownLast loneServer "S" 0 1) :=
  (getNextMsgAfterKnownLast_iff loneServer "S" lone 0 1 loneServer_holds (by decide)).mpr
    (.inl ⟨1, 0, by decide, rfl⟩)

-- seq + 1 is 0 there, and the walk finds the message far before seq.
theorem getNextMsgAfterKnownLast_wraps :
    Holds loneServer "S" lone 1 ∧
      getNextMsgAfterKnownLast loneServer "S" (2 ^ 64 - 1) 1 = some (.ok ⟨1, 0⟩) ∧
      ¬ IsSuccessor lone (2 ^ 64 - 1)
        (getNextMsgAfterKnownLast loneServer "S" (2 ^ 64 - 1) 1) := by
  have hresult : getNextMsgAfterKnownLast loneServer "S" (2 ^ 64 - 1) 1 = some (.ok ⟨1, 0⟩) := rfl
  refine ⟨loneServer_holds, hresult, ?_⟩
  rw [hresult]
  exact fun hs => absurd hs.2.1 (by decide)

end NatsClient.Replay
