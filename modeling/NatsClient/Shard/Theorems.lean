import NatsClient.Shard
import NatsClient.Validate.Keys
import NatsClient.Validate.Text

namespace NatsClient.Shard

open Lib.Utf8 Lib.Words Validate

section Index

variable {key : Bytes} {numShards : Int64}

-- The conversion to uint32 keeps the lower half of the word.
theorem toNat_divisor (h : 0 < numShards.toInt) :
    (numShards.toUInt64.toUInt32.toNat : Int) = numShards.toInt % 2 ^ 32 := by
  have hle : 0 ≤ numShards := Int64.le_iff_toInt_le.mpr (Int.le_of_lt h)
  rw [UInt64.toNat_toUInt32, Int64.toNat_toUInt64_of_le hle, Int64.toNatClampNeg]
  omega

theorem index_of_nonpos (h : numShards.toInt ≤ 0) : index key numShards = some 0 :=
  if_pos (Int64.le_iff_toInt_le.mpr h)

theorem index_of_pos (h : 0 < numShards.toInt) :
    index key numShards =
      if numShards.toInt % 2 ^ 32 = 0 then none
      else some ((fnv32aString key).toNat % (numShards.toInt % 2 ^ 32)) := by
  have hdivisor := toNat_divisor h
  have hpos : ¬ numShards ≤ 0 := fun hle => absurd (Int64.le_iff_toInt_le.mp hle) (Int.not_le.mpr h)
  rw [index, if_neg hpos]
  by_cases hzero : numShards.toInt % 2 ^ 32 = 0
  · have hz : numShards.toUInt64.toUInt32 = 0 := by
      rw [← UInt32.toNat_inj, UInt32.toNat_zero]
      omega
    simp only [if_pos hz, if_pos hzero]
  · have hz : numShards.toUInt64.toUInt32 ≠ 0 := by
      intro heq
      rw [heq, UInt32.toNat_zero] at hdivisor
      omega
    simp only [if_neg hz, if_neg hzero, UInt32.toNat_mod, Int.natCast_mod, hdivisor]

theorem index_valid_iff (key : Bytes) (numShards : Int64) :
    (∃ i, index key numShards = some i ∧ 0 ≤ i ∧ i < max 1 numShards.toInt) ↔
      (0 < numShards.toInt → numShards.toInt % 2 ^ 32 ≠ 0) := by
  by_cases hpos : 0 < numShards.toInt
  · rw [index_of_pos hpos]
    by_cases hzero : numShards.toInt % 2 ^ 32 = 0
    · rw [if_pos hzero]
      refine iff_of_false ?_ fun h => h hpos hzero
      rintro ⟨i, ⟨⟩, _⟩
    · rw [if_neg hzero]
      have hlt := Int.emod_lt_of_pos (fnv32aString key).toNat (b := numShards.toInt % 2 ^ 32)
        (by omega)
      exact iff_of_true ⟨_, rfl, Int.emod_nonneg _ hzero, by omega⟩ fun _ => hzero
  · rw [index_of_nonpos (by omega)]
    exact iff_of_true ⟨0, rfl, by omega, by omega⟩ fun h => absurd h hpos

end Index

section Itoa

-- The digits that the loop writes; for 0 it writes none.
def written (n : Nat) : Bytes := if n = 0 then [] else encode (Nat.toDigits 10 n)

theorem encode_digitChar :
    ∀ d < 10, String.utf8EncodeChar (Nat.digitChar d) = [UInt8.ofNat (48 + d)] := by
  decide

theorem written_succ {n : Nat} (h : 0 < n) :
    written n = written (n / 10) ++ [UInt8.ofNat (48 + n % 10)] := by
  have hdigit := encode_digitChar (n % 10) (Nat.mod_lt n (by decide))
  have hlead : encode (lead n) = written (n / 10) := by
    unfold lead written
    by_cases hlt : n < 10
    · rw [if_pos hlt, if_pos (Nat.div_eq_of_lt hlt)]
      rfl
    · rw [if_neg hlt, if_neg (by omega)]
  rw [written, if_neg (Nat.pos_iff_ne_zero.mp h), toDigits_eq_append, ← hlead]
  simp only [encode, List.flatMap_append, List.flatMap_cons, List.flatMap_nil, hdigit,
    List.append_nil]

-- The induction is on the place of the next digit; the number must fit before it.
theorem itoaLoop_eq (i n : Nat) (buf : Bytes) (hn : n < 10 ^ i) (hi : i ≤ buf.length) :
    itoaLoop i n buf = some (written n ++ buf.drop i) := by
  induction i generalizing n buf with
  | zero =>
    obtain rfl : n = 0 := by omega
    rfl
  | succ i ih =>
    rw [itoaLoop]
    by_cases hpos : 0 < n
    · rw [if_pos (by omega)]
      have hdiv : n / 10 < 10 ^ i := by
        rw [Nat.pow_succ] at hn
        omega
      have hrest := ih (n / 10) (buf.set i (UInt8.ofNat (48 + n % 10))) hdiv
        (by rw [List.length_set]; omega)
      have hdrop : (buf.set i (UInt8.ofNat (48 + n % 10))).drop i =
          UInt8.ofNat (48 + n % 10) :: buf.drop (i + 1) := by
        rw [List.drop_eq_getElem_cons (by rw [List.length_set]; omega), List.getElem_set_self,
          List.drop_set_of_lt (Nat.lt_succ_self i)]
      rw [hdrop] at hrest
      rw [written_succ hpos, List.append_assoc, List.singleton_append, ← hrest]
      rfl
    · obtain rfl : n = 0 := by omega
      rfl

theorem itoa_eq {n : Nat} (h : n < 10 ^ itoaBufLen) : itoa n = some (utf8 (toString n)) := by
  have hdigits : (toString n).toList = Nat.toDigits 10 n := Nat.toList_repr
  rw [utf8, hdigits, itoa]
  by_cases hzero : n = 0
  · subst hzero
    rfl
  · rw [if_neg (by omega), itoaLoop_eq _ _ _ h (by rw [List.length_replicate]),
      List.drop_of_length_le (by rw [List.length_replicate]), List.append_nil, written,
      if_neg hzero]

theorem toList_toString_nat (n : Nat) : (toString n).toList = Nat.toDigits 10 n := Nat.toList_repr

theorem plain_decimal (n : Nat) : Plain (utf8 (toString n)) := by
  unfold Plain
  rw [runes_utf8, toList_toString_nat]
  exact forall_mem_toDigits (by decide) n

theorem dot_not_mem_decimal (n : Nat) : dot ∉ utf8 (toString n) := by
  rw [utf8, mem_encode_iff encode_dot, toList_toString_nat]
  exact fun hmem => forall_mem_toDigits (P := (· ≠ '.')) (by decide) n '.' hmem rfl

theorem decimal_ne_nil (n : Nat) : utf8 (toString n) ≠ [] := by
  rw [utf8, toList_toString_nat, Ne, encode_eq_nil_iff]
  exact Nat.toDigits_ne_nil

theorem eq_zero_of_head?_decimal {n : Nat} (h : (utf8 (toString n)).head? = some 48) : n = 0 := by
  rw [utf8, toList_toString_nat] at h
  refine eq_zero_of_head?_toDigits n ?_
  obtain ⟨c, rest, hdigits⟩ := List.exists_cons_of_ne_nil (Nat.toDigits_ne_nil (b := 10) (n := n))
  have hc : ∀ d < 10, (String.utf8EncodeChar (Nat.digitChar d)).head? = some 48 →
      Nat.digitChar d = '0' := by decide
  have hfirst := forall_mem_toDigits
    (P := fun c => (String.utf8EncodeChar c).head? = some 48 → c = '0') hc n c
    (by rw [hdigits]; exact List.mem_cons_self)
  rw [hdigits] at h ⊢
  rw [List.head?_cons, hfirst]
  rw [encode, List.flatMap_cons, List.head?_append_of_ne_nil _ (by simp)] at h
  exact h

end Itoa

section Subject

variable {base action digits : Bytes}

-- Publish subjects put together with a dot have the tokens of both.
theorem tokens_append (first second : Bytes) :
    (first ++ dot :: second).splitOn dot = first.splitOn dot ++ second.splitOn dot :=
  List.splitOn_append_cons_self first second

def Literals (tokens : List Bytes) : Prop :=
  ∀ token ∈ tokens, Token token ∧ token ≠ [star] ∧ token ≠ [gt]

theorem validatePublishSubject_of_literals {s : Bytes} (h : Literals (s.splitOn dot))
    (hlen : s.length ≤ 1020) : Validate.validatePublishSubject s = none := by
  refine (validatePublishSubject_eq_none_iff s).mpr ⟨⟨?_, hlen, fun t ht => (h t ht).1, ?_⟩,
    fun t ht => (h t ht).2⟩
  · refine List.length_pos_iff.mpr fun hnil => ?_
    rw [hnil, List.splitOn_nil] at h
    exact (h [] List.mem_cons_self).1.nonempty rfl
  · exact fun hmem => (h _ (List.dropLast_subset _ hmem)).2.2 rfl

theorem literals_of_validatePublishSubject {s : Bytes}
    (h : Validate.validatePublishSubject s = none) : Literals (s.splitOn dot) := by
  obtain ⟨hgrammar, hliteral⟩ := (validatePublishSubject_eq_none_iff s).mp h
  exact fun t ht => ⟨hgrammar.tokens t ht, hliteral t ht⟩

theorem literals_decimal (n : Nat) : Literals [utf8 (toString n)] := by
  intro token htoken
  rw [List.mem_singleton.mp htoken]
  exact ⟨(plain_decimal n).token (List.infix_refl _) (decimal_ne_nil n),
    (plain_decimal n).literal (List.infix_refl _)⟩

-- The tokens of Subject: those of the base, the number, and those of the action.
theorem splitOn_subject (n : Nat) (base action : Bytes) :
    (if action = [] then base ++ dot :: utf8 (toString n)
      else base ++ dot :: (utf8 (toString n) ++ dot :: action)).splitOn dot =
      base.splitOn dot ++ utf8 (toString n) :: if action = [] then [] else action.splitOn dot := by
  have hone := List.splitOn_eq_singleton (dot_not_mem_decimal n)
  split_ifs
  · rw [tokens_append, hone]
  · rw [tokens_append, tokens_append, hone, List.singleton_append]

end Subject

-- The range of the index fails where the lower half of the number of shards is zero. Below 2^31
-- shards the subject is valid.
theorem shard_valid_iff (key : Bytes) (numShards : Int64) :
    ((∃ i, index key numShards = some i ∧ 0 ≤ i ∧ i < max 1 numShards.toInt) ↔
        (0 < numShards.toInt → numShards.toInt % 2 ^ 32 ≠ 0)) ∧
      ∀ base action, Validate.validatePublishSubject base = none →
        (action = [] ∨ Validate.validatePublishSubject action = none) →
        1 ≤ numShards.toInt → numShards.toInt < 2 ^ 31 →
        ∃ (i : Nat) (result : Bytes), index key numShards = some i ∧
          subject base key numShards action = some result ∧
          (result.splitOn dot)[(base.splitOn dot).length]? = some (utf8 (toString i)) ∧
          ((utf8 (toString i)).head? = some 48 → i = 0) ∧
          (result.length ≤ 1020 → Validate.validatePublishSubject result = none) := by
  refine ⟨index_valid_iff key numShards, fun base action hbase haction hlow hhigh => ?_⟩
  have hmod : numShards.toInt % 2 ^ 32 = numShards.toInt := Int.emod_eq_of_lt (by omega) (by omega)
  obtain ⟨i, hi, hnonneg, hlt⟩ := (index_valid_iff key numShards).mpr (by omega)
  obtain ⟨n, rfl⟩ := Int.eq_ofNat_of_zero_le hnonneg
  have hitoa : itoa n = some (utf8 (toString n)) := itoa_eq (by unfold itoaBufLen; omega)
  have htokens := splitOn_subject n base action
  refine ⟨n, _, hi, by rw [subject, hi, Option.bind_some, hitoa]; rfl, ?_,
    eq_zero_of_head?_decimal, fun hlen => validatePublishSubject_of_literals ?_ hlen⟩
  · rw [htokens, List.getElem?_append_right (Nat.le_refl _), Nat.sub_self]
    rfl
  · rw [htokens]
    intro token hmem
    rcases List.mem_append.mp hmem with hmem | hmem
    · exact literals_of_validatePublishSubject hbase token hmem
    rcases List.mem_cons.mp hmem with rfl | hmem
    · exact literals_decimal n _ List.mem_cons_self
    split_ifs at hmem with hnil
    · cases hmem
    · exact literals_of_validatePublishSubject (haction.resolve_left hnil) token hmem

-- An order and eight shards.
theorem shard_valid_order :
    ∃ (i : Nat) (result : Bytes), index (utf8 "42") 8 = some i ∧
      subject (utf8 "orders") (utf8 "42") 8 (utf8 "created") = some result ∧
      (result.splitOn dot)[1]? = some (utf8 (toString i)) ∧
      Validate.validatePublishSubject result = none := by
  obtain ⟨i, result, hi, hresult, htoken, -, hvalid⟩ := (shard_valid_iff (utf8 "42") 8).2
    (utf8 "orders") (utf8 "created") (by decide +kernel) (.inr (by decide +kernel)) (by decide)
    (by decide)
  refine ⟨i, result, hi, hresult, htoken, hvalid ?_⟩
  have hsome : subject (utf8 "orders") (utf8 "42") 8 (utf8 "created") =
      some (utf8 "orders.3.created") := by decide +kernel
  rw [hsome] at hresult
  cases hresult
  decide

theorem index_panics : index [] 4294967296 = none := by decide

end NatsClient.Shard
