import NatsClient.Lib.Words
import NatsClient.Validate.Subject

namespace NatsClient.Validate

variable {bucket key name : Bytes}

-- $KV
def kvToken : Bytes := [0x24, 0x4b, 0x56]

-- The subject under which JetStream stores the entry: $KV.<bucket>.<key>.
def kvSubject (bucket key : Bytes) : Bytes := kvToken ++ dot :: (bucket ++ dot :: key)

theorem checkName_eq_none_iff {sentinel : Sentinel} {what pattern : String}
    {isNameChar : Char → Bool} :
    checkName sentinel what isNameChar pattern name = none ↔
      name ≠ [] ∧ name.length ≤ maxNameLen ∧ ∀ c ∈ Lib.Utf8.runes name, isNameChar c = true := by
  rw [checkName]
  split_ifs with hempty hlong hclass
  · simp [hempty]
  · exact iff_of_false (by simp) fun h => absurd h.2.1 (not_le.mpr hlong)
  · refine iff_of_false (by simp) fun h => ?_
    rw [List.all_eq_true.mpr h.2.2] at hclass
    cases hclass
  · refine iff_of_true rfl ⟨hempty, not_lt.mp hlong, ?_⟩
    rw [Bool.not_eq_true, Bool.not_eq_false'] at hclass
    exact List.all_eq_true.mp hclass

theorem isKVKeyChar_of_isBucketChar {c : Char} (h : isBucketChar c = true) :
    isKVKeyChar c = true := by
  simp only [isBucketChar, isKVKeyChar, Bool.or_eq_true, decide_eq_true_eq] at h ⊢
  refine h.imp_left fun h => ?_
  simp only [List.mem_cons, List.not_mem_nil, or_false] at h ⊢
  tauto

-- All characters of keys lie between '-' and 'z'.
theorem bounds_of_isKVKeyChar {c : Char} (h : isKVKeyChar c = true) :
    45 ≤ c.toNat ∧ c.toNat ≤ 122 := by
  simp only [isKVKeyChar, Bool.or_eq_true, decide_eq_true_eq, List.mem_cons, List.not_mem_nil,
    or_false] at h
  obtain (rfl | rfl | rfl | rfl | rfl) | h := h
  · decide
  · decide
  · decide
  · decide
  · decide
  · have halnum : (decide ('A'.val ≤ c.val ∧ c.val ≤ 'Z'.val) ||
        (decide ('a'.val ≤ c.val) && decide (c.val ≤ 'z'.val)) ||
        (decide ('0'.val ≤ c.val) && decide (c.val ≤ '9'.val))) = true := h
    simp only [Bool.or_eq_true, Bool.and_eq_true, decide_eq_true_eq,
      UInt32.le_iff_toNat_le] at halnum
    change ((65 ≤ c.toNat ∧ c.toNat ≤ 90) ∨ (97 ≤ c.toNat ∧ c.toNat ≤ 122)) ∨
      (48 ≤ c.toNat ∧ c.toNat ≤ 57) at halnum
    omega

theorem isSpace_eq_false {c : Char} (h : isKVKeyChar c = true) : isSpace c = false := by
  have hbounds := bounds_of_isKVKeyChar h
  simp only [isSpace, List.mem_cons, List.not_mem_nil, or_false, Bool.or_eq_false_iff,
    Bool.and_eq_false_iff, decide_eq_false_iff_not]
  omega

-- Every rune of the name is a character of keys.
def Plain (name : Bytes) : Prop := ∀ c ∈ Lib.Utf8.runes name, isKVKeyChar c = true

-- A character that is not one of keys does not stand in the name.
theorem Plain.not_infix (h : Plain name) {c : Char} (hc : isKVKeyChar c = false)
    (herror : c ≠ Lib.Utf8.runeError) : ¬String.utf8EncodeChar c <:+: name := by
  intro hwithin
  have hin := h c ((Lib.Utf8.mem_runes_iff herror).mpr hwithin)
  rw [hc] at hin
  cases hin

theorem Plain.spaceless (h : Plain name) : ¬HasSpace name := by
  rintro ⟨c, hc, hwithin⟩
  have hkey : isKVKeyChar c = false := by
    by_contra hne
    rw [isSpace_eq_false (by simpa using hne)] at hc
    cases hc
  refine h.not_infix hkey ?_ hwithin
  rintro rfl
  revert hc
  decide

theorem Plain.not_mem_star (h : Plain name) : star ∉ name := by
  have hstar := h.not_infix (c := '*') (by decide) (by decide)
  exact fun hmem => hstar ((List.singleton_infix_iff star name).mpr hmem)

theorem Plain.not_mem_gt (h : Plain name) : gt ∉ name := by
  have hgt := h.not_infix (c := '>') (by decide) (by decide)
  exact fun hmem => hgt ((List.singleton_infix_iff gt name).mpr hmem)

theorem Plain.token (h : Plain name) {token : Bytes} (hwithin : token <:+: name)
    (hne : token ≠ []) : Token token where
  nonempty := hne
  spaceless := fun ⟨c, hc, hin⟩ => h.spaceless ⟨c, hc, hin.trans hwithin⟩
  loneStar hmem := absurd (hwithin.subset hmem) h.not_mem_star
  loneGt hmem := absurd (hwithin.subset hmem) h.not_mem_gt

theorem Plain.literal (h : Plain name) {token : Bytes} (hwithin : token <:+: name) :
    token ≠ [star] ∧ token ≠ [gt] := by
  constructor
  · rintro rfl
    exact h.not_mem_star (hwithin.subset List.mem_cons_self)
  · rintro rfl
    exact h.not_mem_gt (hwithin.subset List.mem_cons_self)

theorem plain_of_validateBucketName (h : validateBucketName bucket = none) :
    Plain bucket ∧ dot ∉ bucket := by
  have hrunes := (checkName_eq_none_iff.mp h).2.2
  refine ⟨fun c hc => isKVKeyChar_of_isBucketChar (hrunes c hc), fun hmem => ?_⟩
  have hdot : '.' ∈ Lib.Utf8.runes bucket :=
    (Lib.Utf8.mem_runes_iff (by decide)).mpr ((List.singleton_infix_iff dot bucket).mpr hmem)
  cases hrunes '.' hdot

theorem token_kvToken : Token kvToken where
  nonempty := by decide
  spaceless h := by
    have hwhite := (hasWhitespace_iff kvToken).mpr h
    revert hwhite
    decide
  loneStar := by decide
  loneGt := by decide

theorem splitOn_kvSubject (hbucket : dot ∉ bucket) (key : Bytes) :
    (kvSubject bucket key).splitOn dot = kvToken :: bucket :: key.splitOn dot := by
  rw [kvSubject, List.splitOn_append_cons_self_of_not_mem (by decide),
    List.splitOn_append_cons_self_of_not_mem hbucket]

-- The entry of an accepted key can be stored unless the key has an empty token.
theorem kvSubject_accepted_iff (hbucket : validateBucketName bucket = none)
    (hkey : validateKVKey key = none) :
    validatePublishSubject (kvSubject bucket key) = none ↔
      ∀ token ∈ key.splitOn dot, token ≠ [] := by
  obtain ⟨hbucketNe, hbucketLen, -⟩ := checkName_eq_none_iff.mp hbucket
  obtain ⟨-, hkeyLen, hkeyPlain⟩ := checkName_eq_none_iff.mp hkey
  obtain ⟨hbucketPlain, hdot⟩ := plain_of_validateBucketName hbucket
  have hkeyPlain : Plain key := hkeyPlain
  have htokens := splitOn_kvSubject hdot key
  have hliteral : IsLiteral (kvSubject bucket key) := by
    rw [IsLiteral, htokens, List.forall_mem_cons, List.forall_mem_cons]
    exact ⟨by decide, hbucketPlain.literal (List.infix_refl _), fun token htoken =>
      hkeyPlain.literal (Lib.Words.infix_of_mem_splitOn htoken)⟩
  rw [validatePublishSubject_eq_none_iff, and_iff_left hliteral]
  constructor
  · intro h token htoken
    refine (h.tokens token ?_).nonempty
    rw [htokens]
    exact List.mem_cons_of_mem _ (List.mem_cons_of_mem _ htoken)
  · intro hne
    have hlength : (kvSubject bucket key).length = bucket.length + key.length + 5 := by
      simp [kvSubject, kvToken]
      omega
    unfold maxNameLen at hbucketLen hkeyLen
    refine ⟨by omega, by omega, ?_, fun hmem => ?_⟩
    · rw [htokens, List.forall_mem_cons, List.forall_mem_cons]
      exact ⟨token_kvToken, hbucketPlain.token (List.infix_refl _) hbucketNe, fun token htoken =>
        hkeyPlain.token (Lib.Words.infix_of_mem_splitOn htoken) (hne token htoken)⟩
    · exact (hliteral [gt] (List.mem_of_mem_dropLast hmem)).2 rfl

-- The bucket B with the key a.b, and with the key .a, whose first token is empty.
theorem kvSubject_accepted_iff_plain :
    validatePublishSubject (kvSubject [0x42] [0x61, 0x2e, 0x62]) = none := by
  refine (kvSubject_accepted_iff ?_ ?_).mpr ?_
  · decide
  · decide
  · decide

theorem leading_dot_not_storable :
    validateBucketName [0x42] = none ∧ validateKVKey [0x2e, 0x61] = none ∧
      validatePublishSubject (kvSubject [0x42] [0x2e, 0x61]) ≠ none := by
  refine ⟨?_, ?_, ?_⟩
  · decide
  · decide
  · decide

end NatsClient.Validate
