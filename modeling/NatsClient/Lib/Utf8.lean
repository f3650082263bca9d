import NatsClient.Lib.Words

namespace Lib.Utf8

-- Decodes a byte string from its start: the runes, and the bytes at which none starts. The
-- bytes that belong to a rune already taken are skipped.
def unitsFrom : Nat → List UInt8 → List (Except UInt8 Char)
  | _, [] => []
  | skip + 1, _ :: rest => unitsFrom skip rest
  | 0, b :: rest =>
    match (b :: rest).toByteArray.utf8DecodeChar? 0 with
    | some c => .ok c :: unitsFrom (c.utf8Size - 1) rest
    | none => .error b :: unitsFrom 0 rest

def units (s : List UInt8) : List (Except UInt8 Char) := unitsFrom 0 s

-- U+FFFD, which stands for a byte at which no rune starts.
def runeError : Char := Char.ofNat 0xfffd

def runes (s : List UInt8) : List Char :=
  (units s).map fun
    | .ok c => c
    | .error _ => runeError

variable {c : Char} {s rest : List UInt8}

theorem decode_eq_some_iff :
    s.toByteArray.utf8DecodeChar? 0 = some c ↔ String.utf8EncodeChar c <+: s := by
  constructor
  · intro h
    obtain ⟨l, hl⟩ := ByteArray.exists_of_utf8DecodeChar?_eq_some h
    have hlist := congrArg (·.data.toList) hl
    simp only [List.data_toByteArray, ByteArray.data_append, Array.toList_append] at hlist
    exact ⟨l.data.toList, hlist.symm⟩
  · rintro ⟨rest, rfl⟩
    rw [List.toByteArray_append]
    exact ByteArray.utf8DecodeChar?_utf8EncodeChar_append

-- A rune of the string stands in it by its encoding.
theorem encode_infix_of_mem {skip : Nat} (h : .ok c ∈ unitsFrom skip s) :
    String.utf8EncodeChar c <:+: s := by
  fun_induction unitsFrom skip s with
  | case1 => cases h
  | case2 skip b rest ih => exact List.infix_cons (ih h)
  | case3 b rest d hdecode ih =>
    obtain heq | h := List.mem_cons.mp h
    · cases heq
      exact (decode_eq_some_iff.mp hdecode).isInfix
    · exact List.infix_cons (ih h)
  | case4 b rest hdecode ih =>
    obtain heq | h := List.mem_cons.mp h
    · cases heq
    · exact List.infix_cons (ih h)

theorem unitsFrom_append (pre : List UInt8) : unitsFrom pre.length (pre ++ s) = units s := by
  induction pre with
  | nil => rfl
  | cons b pre ih => exact ih

theorem units_encode_append (c : Char) (s : List UInt8) :
    units (String.utf8EncodeChar c ++ s) = .ok c :: units s := by
  obtain ⟨b, tail, henc⟩ := List.exists_cons_of_ne_nil (String.utf8EncodeChar_ne_nil (c := c))
  have hdecode : (b :: (tail ++ s)).toByteArray.utf8DecodeChar? 0 = some c := by
    rw [decode_eq_some_iff, henc]
    exact List.prefix_append (b :: tail) s
  have hsize : c.utf8Size - 1 = tail.length := by
    rw [← String.length_utf8EncodeChar, henc, List.length_cons, Nat.add_sub_cancel]
  rw [henc, units, List.cons_append, unitsFrom, hdecode]
  simp only [hsize, unitsFrom_append]

-- A rune that is decoded ends before the next first byte of an encoding.
theorem size_le_of_decode {pre : List UInt8} {d : Char}
    (h : String.utf8EncodeChar d <+: pre ++ (String.utf8EncodeChar c ++ rest)) (hpre : pre ≠ []) :
    d.utf8Size ≤ pre.length := by
  by_contra hlt
  rw [← String.length_utf8EncodeChar d, not_le] at hlt
  have hpos : 0 < (String.utf8EncodeChar c).length :=
    List.length_pos_of_ne_nil String.utf8EncodeChar_ne_nil
  have hsame : (String.utf8EncodeChar d)[pre.length] = (String.utf8EncodeChar c)[0] := by
    rw [h.getElem hlt]
    simp [List.getElem_append_right, List.getElem_append_left hpos]
  have hfirst : (String.utf8EncodeChar d)[pre.length].IsUTF8FirstByte := by
    rw [hsame]
    exact UInt8.isUTF8FirstByte_getElem_zero_utf8EncodeChar
  rw [UInt8.isUTF8FirstByte_getElem_utf8EncodeChar] at hfirst
  exact hpre (List.length_eq_zero_iff.mp hfirst)

theorem mem_unitsFrom_of_infix {skip : Nat} (pre : List UInt8) (hskip : skip ≤ pre.length) :
    .ok c ∈ unitsFrom skip (pre ++ (String.utf8EncodeChar c ++ rest)) := by
  induction pre generalizing skip with
  | nil =>
    obtain rfl : skip = 0 := Nat.le_zero.mp hskip
    rw [List.nil_append, ← units, units_encode_append]
    exact List.mem_cons_self
  | cons b pre ih =>
    cases skip with
    | succ skip => exact ih (Nat.le_of_succ_le_succ hskip)
    | zero =>
      rw [List.cons_append, unitsFrom]
      split
      next d hdecode =>
        have hsize := size_le_of_decode (decode_eq_some_iff.mp hdecode) (List.cons_ne_nil b pre)
        rw [List.length_cons] at hsize
        exact List.mem_cons_of_mem _ (ih (by omega))
      next hdecode => exact List.mem_cons_of_mem _ (ih (Nat.zero_le _))

theorem ok_mem_units_iff : .ok c ∈ units s ↔ String.utf8EncodeChar c <:+: s := by
  refine ⟨encode_infix_of_mem, ?_⟩
  rintro ⟨pre, rest, rfl⟩
  rw [List.append_assoc]
  exact mem_unitsFrom_of_infix pre (Nat.zero_le _)

theorem mem_runes_iff (hc : c ≠ runeError) : c ∈ runes s ↔ String.utf8EncodeChar c <:+: s := by
  rw [← ok_mem_units_iff, runes, List.mem_map]
  constructor
  · rintro ⟨unit, hunit, heq⟩
    cases unit with
    | ok d =>
      obtain rfl : d = c := heq
      exact hunit
    | error b => exact absurd heq.symm hc
  · exact fun h => ⟨.ok c, h, rfl⟩

def encode (l : List Char) : List UInt8 := l.flatMap String.utf8EncodeChar

-- What has been encoded is decoded again.
theorem units_encode (l : List Char) : units (encode l) = l.map .ok := by
  induction l with
  | nil => rfl
  | cons c l ih => rw [encode, List.flatMap_cons, units_encode_append, ← encode, ih, List.map_cons]

theorem runes_encode (l : List Char) : runes (encode l) = l := by
  rw [runes, units_encode, List.map_map]
  exact List.map_id l

theorem encode_injective {l l' : List Char} (h : encode l = encode l') : l = l' := by
  rw [← runes_encode l, h, runes_encode]

section Byte

variable {l : List Char} {b : UInt8} (hb : String.utf8EncodeChar c = [b])

include hb

-- A character of one byte stands in the text where its byte stands in the encoding.
theorem mem_encode_iff : b ∈ encode l ↔ c ∈ l := by
  rw [← List.singleton_infix_iff, ← hb, ← ok_mem_units_iff, units_encode]
  constructor
  · intro h
    obtain ⟨d, hd, heq⟩ := List.mem_map.mp h
    cases heq
    exact hd
  · exact List.mem_map_of_mem

theorem encode_eq_singleton_iff : encode l = [b] ↔ l = [c] := by
  have hencode : encode [c] = [b] := by rw [encode, List.flatMap_singleton, hb]
  rw [← hencode]
  exact ⟨encode_injective, congrArg encode⟩

theorem encode_intercalate (parts : List (List Char)) :
    encode ([c].intercalate parts) = [b].intercalate (parts.map encode) := by
  induction parts with
  | nil => rfl
  | cons first parts ih =>
    by_cases hnil : parts = []
    · rw [hnil, List.map_singleton, List.intercalate_singleton, List.intercalate_singleton]
    · rw [List.map_cons, List.intercalate_cons_of_ne_nil hnil,
        List.intercalate_cons_of_ne_nil (by simpa using hnil), ← ih]
      simp only [encode, List.flatMap_append, List.flatMap_singleton, hb]

theorem splitOn_encode (l : List Char) :
    (encode l).splitOn b = (l.splitOn c).map encode := by
  have hparts : ∀ part ∈ (l.splitOn c).map encode, b ∉ part := by
    rw [List.forall_mem_map]
    intro part hpart
    rw [mem_encode_iff hb]
    exact Words.not_mem_of_mem_splitOn hpart
  have hne : (l.splitOn c).map encode ≠ [] := by
    simp
  rw [← List.splitOn_intercalate b hparts hne, ← encode_intercalate hb, List.intercalate_splitOn]

end Byte

end Lib.Utf8
