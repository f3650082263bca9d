import NatsClient.Validate.Subject

-- On the strings that are UTF-8 the checks agree with those on characters.
namespace NatsClient.Validate

open Lib.Utf8

variable {s : String} {allowWildcards : Bool}

theorem encode_dot : String.utf8EncodeChar '.' = [dot] := rfl

theorem encode_star : String.utf8EncodeChar '*' = [star] := rfl

theorem encode_gt : String.utf8EncodeChar '>' = [gt] := rfl

-- The bytes of a text.
def utf8 (s : String) : Bytes := encode s.toList

theorem utf8_eq_nil_iff : utf8 s = [] ↔ s = "" := by
  constructor
  · intro h
    have hnil : s.toList = [] := encode_injective h
    exact String.toList_eq_nil_iff.mp hnil
  · rintro rfl
    rfl

theorem length_utf8 : (utf8 s).length = s.utf8ByteSize := by
  rw [← String.size_toByteArray, ← String.utf8Encode_toList, List.utf8Encode,
    List.size_toByteArray]
  rfl

theorem runes_utf8 : runes (utf8 s) = s.toList := runes_encode _

theorem hasWhitespace_encode (token : List Char) :
    hasWhitespace (encode token) = token.any isSpace := by
  rw [hasWhitespace, runes_encode]

theorem encode_eq_nil_iff {token : List Char} : encode token = [] ↔ token = [] :=
  ⟨fun h => encode_injective h, fun h => by rw [h]; rfl⟩

theorem any_wildcard_encode (token : List Char) :
    (encode token).any (· ∈ [star, gt]) = token.any (· ∈ ['*', '>']) := by
  rw [Bool.eq_iff_iff, any_wildcard_iff, mem_encode_iff encode_star,
    mem_encode_iff encode_gt]
  simp only [List.any_eq_true, decide_eq_true_eq, List.mem_cons, List.not_mem_nil, or_false]
  constructor
  · rintro (h | h)
    · exact ⟨'*', h, .inl rfl⟩
    · exact ⟨'>', h, .inr rfl⟩
  · rintro ⟨c, hc, rfl | rfl⟩
    · exact .inl hc
    · exact .inr hc

theorem checkTokens_encode (subject : Bytes) (text : String) (seen : Bool)
    (tokens : List (List Char)) :
    (checkTokens subject allowWildcards seen (tokens.map encode)).isSome =
      (NatsClient.checkTokens text allowWildcards seen tokens).isSome := by
  induction tokens generalizing seen with
  | nil => rfl
  | cons token rest ih =>
    have hmore : (!rest.isEmpty) = true ↔ rest ≠ [] := by simp
    cases seen with
    | true => rfl
    | false =>
      rw [List.map_cons, checkTokens, NatsClient.checkTokens]
      simp only [checkToken, hasWhitespace_encode, encode_eq_nil_iff, any_wildcard_encode,
        encode_eq_singleton_iff encode_star, encode_eq_singleton_iff encode_gt,
        List.isEmpty_map, hmore, Bool.false_eq_true, if_false]
      -- the checks of a token, one after the other
      split_ifs
      · rfl
      · rfl
      · rfl
      · rfl
      · exact ih true
      · rfl
      · exact ih false
      · rfl
      · exact ih false

theorem validateSubject_utf8 (s : String) (allowWildcards : Bool) :
    (validateSubject (utf8 s) allowWildcards).isSome =
      (NatsClient.validateSubject s allowWildcards).isSome := by
  rw [validateSubject_eq, NatsClient.validateSubject]
  simp only [utf8_eq_nil_iff, length_utf8]
  split_ifs
  · rfl
  · rfl
  · rw [utf8, splitOn_encode encode_dot]
    exact checkTokens_encode _ s false _

theorem validateAnySubject_utf8 (s : String) :
    (validateAnySubject (utf8 s)).isSome = (NatsClient.validateAnySubject s).isSome := by
  rw [validateAnySubject, NatsClient.validateAnySubject, Option.isSome_map, Option.isSome_map,
    validateSubject_utf8]

theorem validatePublishSubject_utf8 (s : String) :
    (validatePublishSubject (utf8 s)).isSome = (NatsClient.validatePublishSubject s).isSome := by
  rw [validatePublishSubject, NatsClient.validatePublishSubject, Option.isSome_map,
    Option.isSome_map, validateSubject_utf8]

theorem validateKVKey_utf8 (key : String) :
    (validateKVKey (utf8 key)).isSome = (NatsClient.validateKVKey key).isSome := by
  rw [validateKVKey, checkName, NatsClient.validateKVKey]
  simp only [utf8_eq_nil_iff, length_utf8, runes_utf8]
  split_ifs <;> rfl

theorem validateAssetName_utf8 (name kind : String) :
    (validateAssetName (utf8 name) kind).isSome =
      (NatsClient.validateAssetName name kind).isSome := by
  rw [validateAssetName, NatsClient.validateAssetName]
  simp only [utf8_eq_nil_iff, length_utf8, runes_utf8]
  split_ifs <;> rfl

theorem validateStreamName_utf8 (name : String) :
    (validateStreamName (utf8 name)).isSome = (NatsClient.validateStreamName name).isSome := by
  rw [validateStreamName, NatsClient.validateStreamName, Option.isSome_map, Option.isSome_map,
    validateAssetName_utf8]

end NatsClient.Validate
