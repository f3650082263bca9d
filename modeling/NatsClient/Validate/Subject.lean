import NatsClient.Validate.Bytes

namespace NatsClient.Validate

variable {subject : Bytes} {allowWildcards : Bool}

-- The error the loop ends with, if any.
def verdict (result : Except GoError Scan) : Option GoError :=
  match result with
  | .error e => some e
  | .ok _ => none

-- The loop with the tokens at hand.
def checkTokens (subject : Bytes) (allowWildcards : Bool) : Bool → List Bytes → Option GoError
  | _, [] => none
  | fullWildcardSeen, token :: rest =>
    if fullWildcardSeen then some (hasTokensAfter subject)
    else if token = [] then some (hasEmptyToken subject)
    else
      match checkToken subject allowWildcards token rest.isEmpty with
      | .error e => some e
      | .ok fullWildcardSeen => checkTokens subject allowWildcards fullWildcardSeen rest

section Loop

variable {done token rest : Bytes} {b : UInt8}

theorem scanStep_pass (hsubject : subject = done ++ (token ++ b :: rest)) (hb : b ≠ dot)
    (scan : Scan) :
    scanStep subject allowWildcards scan (done.length + token.length) = .ok scan := by
  have hget : subject[done.length + token.length]? = some b := by simp [hsubject]
  have hlt : done.length + token.length < subject.length := by simp [hsubject]
  rw [scanStep, if_pos ⟨hlt, by rw [hget]; simpa using hb⟩]

-- The loop is at the end of the string or at a dot.
theorem scanStep_end (hsubject : subject = done ++ (token ++ rest))
    (hend : rest = [] ∨ rest.head? = some dot) (seen : Bool) :
    scanStep subject allowWildcards ⟨done.length, seen⟩ (done.length + token.length) =
      if seen then .error (hasTokensAfter subject)
      else if token = [] then .error (hasEmptyToken subject)
      else
        (checkToken subject allowWildcards token rest.isEmpty).map
          (Scan.mk (done.length + token.length + 1)) := by
  have hstop : ¬(done.length + token.length < subject.length ∧
      subject[done.length + token.length]? ≠ some dot) := by
    obtain rfl | hend := hend
    · simp [hsubject]
    · obtain ⟨tail, rfl⟩ := List.head?_eq_some_iff.mp hend
      simp [hsubject]
  have hstart : done.length = done.length + token.length ↔ token = [] := by
    rw [← List.length_eq_zero_iff]
    omega
  have htoken : (subject.drop done.length).take (done.length + token.length - done.length) =
      token := by
    simp [hsubject]
  have hlast : decide (done.length + token.length = subject.length) = rest.isEmpty := by
    rw [hsubject]
    cases rest <;> simp
  rw [scanStep, if_neg hstop]
  simp only [hstart, htoken, hlast]
  cases checkToken subject allowWildcards token rest.isEmpty <;> rfl

-- Between two turns the loop has passed the bytes of `done` up to a dot, and those of `token`.
theorem scan_eq_checkTokens (done token rest : Bytes) (seen : Bool)
    (hsubject : subject = done ++ (token ++ rest)) (hdot : dot ∉ token) :
    verdict ((List.range' (done.length + token.length) (rest.length + 1)).foldlM
        (scanStep subject allowWildcards) ⟨done.length, seen⟩) =
      checkTokens subject allowWildcards seen ((token ++ rest).splitOn dot) := by
  induction rest generalizing done token seen with
  | nil =>
    rw [List.append_nil, List.splitOn_eq_singleton hdot, checkTokens, List.length_nil,
      List.range'_one, List.foldlM_cons, scanStep_end hsubject (.inl rfl)]
    split_ifs with hseen hempty
    · rfl
    · rfl
    · simp only [List.isEmpty_nil]
      cases checkToken subject allowWildcards token true <;> rfl
  | cons b rest ih =>
    rw [List.length_cons, List.range'_succ, List.foldlM_cons]
    by_cases hb : b = dot
    · subst hb
      rw [List.splitOn_append_cons_self_of_not_mem hdot, checkTokens,
        scanStep_end hsubject (.inr rfl)]
      split_ifs with hseen hempty
      · rfl
      · rfl
      · have hrest : ((rest.splitOn dot).isEmpty) = (dot :: rest).isEmpty := by
          simp [List.splitOn_ne_nil]
        rw [hrest]
        cases checkToken subject allowWildcards token (dot :: rest).isEmpty with
        | error e => rfl
        | ok seen =>
          have hnext := ih (done ++ token ++ [dot]) [] seen (by simp [hsubject])
            List.not_mem_nil
          simp only [List.length_append, List.length_singleton] at hnext
          exact hnext
    · rw [scanStep_pass hsubject hb]
      have hnext := ih done (token ++ [b]) seen (by simp [hsubject])
        (by simp [hdot, Ne.symm hb])
      rw [List.length_append, List.length_singleton, List.append_assoc] at hnext
      exact hnext

theorem validateSubject_eq (subject : Bytes) (allowWildcards : Bool) :
    validateSubject subject allowWildcards =
      if subject = [] then some (.foreign "subject is empty" [])
      else if maxNameLen * maxSubjectLenMultiplier < subject.length then
        some (.foreign "subject exceeds maximum length" [])
      else checkTokens subject allowWildcards false (subject.splitOn dot) := by
  have hscan : verdict ((List.range (subject.length + 1)).foldlM
      (scanStep subject allowWildcards) ⟨0, false⟩) =
        checkTokens subject allowWildcards false (subject.splitOn dot) := by
    rw [List.range_eq_range', ← Nat.zero_add 0]
    exact scan_eq_checkTokens [] [] subject false rfl List.not_mem_nil
  rw [validateSubject, ← hscan]
  rfl

end Loop

-- A white-space character stands in the token by its encoding.
def HasSpace (token : Bytes) : Prop :=
  ∃ c, isSpace c = true ∧ String.utf8EncodeChar c <:+: token

structure Token (token : Bytes) : Prop where
  nonempty : token ≠ []
  spaceless : ¬HasSpace token
  loneStar : star ∈ token → token = [star]
  loneGt : gt ∈ token → token = [gt]

-- The grammar of subjects, over the tokens between the dots.
structure Grammar (s : Bytes) : Prop where
  nonempty : 1 ≤ s.length
  bounded : s.length ≤ 1020
  tokens : ∀ token ∈ s.splitOn dot, Token token
  final : [gt] ∉ (s.splitOn dot).dropLast

def IsLiteral (s : Bytes) : Prop := ∀ token ∈ s.splitOn dot, token ≠ [star] ∧ token ≠ [gt]

theorem hasWhitespace_iff (s : Bytes) : hasWhitespace s = true ↔ HasSpace s := by
  have hrune {c : Char} (hc : isSpace c = true) : c ≠ Lib.Utf8.runeError := by
    rintro rfl
    revert hc
    decide
  rw [hasWhitespace, List.any_eq_true]
  constructor
  · rintro ⟨c, hmem, hc⟩
    exact ⟨c, hc, (Lib.Utf8.mem_runes_iff (hrune hc)).mp hmem⟩
  · rintro ⟨c, hc, hwithin⟩
    exact ⟨c, (Lib.Utf8.mem_runes_iff (hrune hc)).mpr hwithin, hc⟩

theorem any_wildcard_iff (token : Bytes) :
    token.any (· ∈ [star, gt]) = true ↔ star ∈ token ∨ gt ∈ token := by
  simp only [List.any_eq_true, decide_eq_true_eq, List.mem_cons, List.not_mem_nil, or_false]
  constructor
  · rintro ⟨b, hb, rfl | rfl⟩
    · exact .inl hb
    · exact .inr hb
  · rintro (h | h)
    · exact ⟨star, h, .inl rfl⟩
    · exact ⟨gt, h, .inr rfl⟩

-- What the checks of one token let pass.
structure Passes (allowWildcards : Bool) (token : Bytes) (last : Bool) : Prop where
  spaceless : ¬HasSpace token
  loneStar : star ∈ token → token = [star]
  loneGt : gt ∈ token → token = [gt]
  literal : allowWildcards = false → token ≠ [star] ∧ token ≠ [gt]
  final : token = [gt] → last = true

theorem checkToken_eq_ok_iff {token : Bytes} {last seen : Bool} :
    checkToken subject allowWildcards token last = .ok seen ↔
      Passes allowWildcards token last ∧ seen = decide (token = [gt]) := by
  have passed {v : Bool} (h : Passes allowWildcards token last) (hv : v = decide (token = [gt])) :
      (.ok v : Except GoError Bool) = .ok seen ↔
        Passes allowWildcards token last ∧ seen = decide (token = [gt]) := by
    rw [Except.ok.injEq, hv, eq_comm]
    exact (and_iff_right h).symm
  have failed (h : ¬Passes allowWildcards token last) :
      False ↔ Passes allowWildcards token last ∧ seen = decide (token = [gt]) :=
    iff_of_false id fun hpasses => h hpasses.1
  have hspace := hasWhitespace_iff token
  rw [checkToken]
  split_ifs with hwhite hgt hallow hlast hstar hallow hany
  · exact failed fun h => h.spaceless (hspace.mp hwhite)
  · exact failed fun h => (h.literal (by simpa using hallow)).2 hgt
  · exact failed fun h => by simp [h.final hgt] at hlast
  · subst hgt
    refine passed ⟨fun h => hwhite (hspace.mpr h), fun h => ?_, fun _ => rfl, fun h => ?_,
      fun _ => by simpa using hlast⟩ rfl
    · simp [star, gt] at h
    · simp [h] at hallow
  · exact failed fun h => (h.literal (by simpa using hallow)).1 hstar
  · subst hstar
    refine passed ⟨fun h => hwhite (hspace.mpr h), fun _ => rfl, fun h => ?_, fun h => ?_,
      fun h => absurd h hgt⟩ rfl
    · simp [star, gt] at h
    · simp [h] at hallow
  · rw [any_wildcard_iff] at hany
    exact failed fun h => hany.elim (hstar ∘ h.loneStar) (hgt ∘ h.loneGt)
  · rw [any_wildcard_iff, not_or] at hany
    exact passed ⟨fun h => hwhite (hspace.mpr h), fun h => absurd h hany.1,
      fun h => absurd h hany.2, fun _ => ⟨hstar, hgt⟩, fun h => absurd h hgt⟩ (by simp [hgt])

theorem checkTokens_cons_eq_none_iff {token : Bytes} {rest : List Bytes} :
    checkTokens subject allowWildcards false (token :: rest) = none ↔
      token ≠ [] ∧ Passes allowWildcards token rest.isEmpty ∧
        checkTokens subject allowWildcards (token = [gt]) rest = none := by
  rw [checkTokens, if_neg (by simp)]
  split_ifs with hempty
  · simp [hempty]
  · cases hcheck : checkToken subject allowWildcards token rest.isEmpty with
    | error e =>
      refine iff_of_false (by simp) fun h => ?_
      rw [checkToken_eq_ok_iff.mpr ⟨h.2.1, rfl⟩] at hcheck
      cases hcheck
    | ok seen =>
      obtain ⟨hpasses, rfl⟩ := checkToken_eq_ok_iff.mp hcheck
      simp [hempty, hpasses]

theorem Passes.token {token : Bytes} {last : Bool} (h : Passes allowWildcards token last)
    (hne : token ≠ []) : Token token :=
  ⟨hne, h.spaceless, h.loneStar, h.loneGt⟩

theorem Token.passes {token : Bytes} {last : Bool} (h : Token token)
    (hliteral : allowWildcards = false → token ≠ [star] ∧ token ≠ [gt])
    (hfinal : token = [gt] → last = true) : Passes allowWildcards token last :=
  ⟨h.spaceless, h.loneStar, h.loneGt, hliteral, hfinal⟩

theorem checkTokens_eq_none_iff (tokens : List Bytes) :
    checkTokens subject allowWildcards false tokens = none ↔
      (∀ token ∈ tokens, Token token) ∧ [gt] ∉ tokens.dropLast ∧
        (allowWildcards = false → ∀ token ∈ tokens, token ≠ [star] ∧ token ≠ [gt]) := by
  induction tokens with
  | nil => simp [checkTokens]
  | cons token rest ih =>
    rw [checkTokens_cons_eq_none_iff]
    cases rest with
    | nil =>
      simp only [checkTokens, and_true, List.forall_mem_singleton, List.dropLast_singleton,
        List.not_mem_nil, not_false_eq_true, true_and]
      constructor
      · rintro ⟨hne, h⟩
        exact ⟨h.token hne, h.literal⟩
      · rintro ⟨h, hliteral⟩
        exact ⟨h.nonempty, h.passes hliteral fun _ => rfl⟩
    | cons next rest =>
      -- a token that is followed by another one is not '>'
      have hdrop : (token :: next :: rest).dropLast = token :: (next :: rest).dropLast := rfl
      rw [hdrop, List.mem_cons, List.forall_mem_cons (p := Token) (a := token),
        List.forall_mem_cons (p := fun t => t ≠ [star] ∧ t ≠ [gt]) (a := token)]
      constructor
      · rintro ⟨hne, h, hrest⟩
        have hgt : token ≠ [gt] := fun heq => by cases h.final heq
        rw [decide_eq_false hgt, ih] at hrest
        exact ⟨⟨h.token hne, hrest.1⟩, fun hmem => hmem.elim (hgt ∘ Eq.symm) hrest.2.1,
          fun ha => ⟨h.literal ha, hrest.2.2 ha⟩⟩
      · rintro ⟨⟨h, htokens⟩, hfinal, hliteral⟩
        have hgt : token ≠ [gt] := fun heq => hfinal (.inl heq.symm)
        rw [decide_eq_false hgt, ih]
        exact ⟨h.nonempty, h.passes (fun ha => (hliteral ha).1) fun heq => absurd heq hgt,
          htokens, fun hmem => hfinal (.inr hmem), fun ha => (hliteral ha).2⟩

theorem validateSubject_eq_none_iff (s : Bytes) (allowWildcards : Bool) :
    validateSubject s allowWildcards = none ↔
      Grammar s ∧ (allowWildcards = false → IsLiteral s) := by
  rw [validateSubject_eq]
  split_ifs with hempty hlong
  · refine iff_of_false (by simp) fun h => ?_
    have := h.1.nonempty
    simp [hempty] at this
  · refine iff_of_false (by simp) fun h => ?_
    exact absurd h.1.bounded (not_le.mpr hlong)
  · rw [checkTokens_eq_none_iff]
    constructor
    · rintro ⟨htokens, hfinal, hliteral⟩
      exact ⟨⟨List.length_pos_of_ne_nil hempty, not_lt.mp hlong, htokens, hfinal⟩, hliteral⟩
    · rintro ⟨h, hliteral⟩
      exact ⟨h.tokens, h.final, hliteral⟩

theorem validateAnySubject_eq_none_iff (s : Bytes) :
    validateAnySubject s = none ↔ Grammar s := by
  rw [validateAnySubject, Option.map_eq_none_iff, validateSubject_eq_none_iff]
  exact and_iff_left fun h => by cases h

theorem validatePublishSubject_eq_none_iff (s : Bytes) :
    validatePublishSubject s = none ↔ Grammar s ∧ IsLiteral s := by
  rw [validatePublishSubject, Option.map_eq_none_iff, validateSubject_eq_none_iff]
  exact and_congr_right fun _ => ⟨fun h => h rfl, fun h _ => h⟩

-- ValidateSubject accepts the grammar, and ValidatePublishSubject what has no wildcard in it.
theorem subject_grammar (s : Bytes) :
    (validateAnySubject s = none ↔ Grammar s) ∧
      (validatePublishSubject s = none ↔ validateAnySubject s = none ∧ IsLiteral s) := by
  rw [validatePublishSubject_eq_none_iff, validateAnySubject_eq_none_iff]
  exact ⟨Iff.rfl, Iff.rfl⟩

end NatsClient.Validate
