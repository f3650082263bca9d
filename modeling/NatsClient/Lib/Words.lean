import Mathlib.Algebra.Group.Nat.Defs
import Mathlib.Data.List.Infix

namespace Lib.Words

section Separators

variable {α : Type} {p before after : List α} {sep : α}

theorem eq_nil_of_prefix_cons (h : sep ∉ p) (hp : p <+: sep :: after) : p = [] := by
  cases p with
  | nil => rfl
  | cons c rest =>
    rw [(List.cons_prefix_cons.mp hp).1] at h
    exact absurd List.mem_cons_self h

-- Texts that are cut at their first separator.
theorem append_cons_inj_left {first second rest rest' : List α} (hfirst : sep ∉ first)
    (hsecond : sep ∉ second) (h : first ++ sep :: rest = second ++ sep :: rest') :
    first = second ∧ rest = rest' := by
  induction first generalizing second with
  | nil =>
    cases second with
    | nil => exact ⟨rfl, (List.cons.inj h).2⟩
    | cons c second => exact absurd ((List.cons.inj h).1 ▸ List.mem_cons_self) hsecond
  | cons b first ih =>
    cases second with
    | nil => exact absurd ((List.cons.inj h).1 ▸ List.mem_cons_self) hfirst
    | cons c second =>
      obtain ⟨rfl, htail⟩ := List.cons.inj h
      obtain ⟨rfl, hrest⟩ := ih (List.not_mem_of_not_mem_cons hfirst)
        (List.not_mem_of_not_mem_cons hsecond) htail
      exact ⟨rfl, hrest⟩

-- Texts that are cut at their last separator.
theorem append_cons_inj_right {first second rest rest' : List α} (hrest : sep ∉ rest)
    (hrest' : sep ∉ rest') (h : first ++ sep :: rest = second ++ sep :: rest') :
    first = second ∧ rest = rest' := by
  have hreverse := congrArg List.reverse h
  simp only [List.reverse_append, List.reverse_cons, List.append_assoc, List.singleton_append]
    at hreverse
  obtain ⟨hends, hstarts⟩ := append_cons_inj_left (mt List.mem_reverse.mp hrest)
    (mt List.mem_reverse.mp hrest') hreverse
  exact ⟨List.reverse_injective hstarts, List.reverse_injective hends⟩

-- A word without the separator stands before it or after it.
theorem infix_append_cons_iff (h : sep ∉ p) :
    p <:+: before ++ sep :: after ↔ p <:+: before ∨ p <:+: after := by
  constructor
  · intro hp
    obtain hp | hp | ⟨l₁, l₂, rfl, hl₁, hl₂⟩ := List.infix_append_iff.mp hp
    · exact .inl hp
    · obtain hp | hp := List.infix_cons_iff.mp hp
      · rw [eq_nil_of_prefix_cons h hp]
        exact .inl List.nil_infix
      · exact .inr hp
    · rw [List.mem_append, not_or] at h
      rw [eq_nil_of_prefix_cons h.2 hl₂, List.append_nil]
      exact .inl hl₁.isInfix
  · rintro (hp | hp)
    · exact hp.trans (List.prefix_append _ _).isInfix
    · exact (List.infix_cons hp).trans (List.suffix_append _ _).isInfix

theorem infix_cons_of_head (hne : p ≠ []) (hhead : p.head? ≠ some sep) :
    p <:+: sep :: after ↔ p <:+: after := by
  rw [List.infix_cons_iff]
  refine or_iff_right fun hp => hhead ?_
  obtain ⟨c, rest, rfl⟩ := List.exists_cons_of_ne_nil hne
  rw [(List.cons_prefix_cons.mp hp).1, List.head?_cons]

theorem infix_intercalate {part : List α} {parts : List (List α)} (h : part ∈ parts) :
    part <:+: before.intercalate parts := by
  induction parts with
  | nil => cases h
  | cons first parts ih =>
    by_cases hnil : parts = []
    · rw [hnil, List.mem_singleton] at h
      rw [hnil, h, List.intercalate_singleton]
    · rw [List.intercalate_cons_of_ne_nil hnil]
      obtain rfl | h := List.mem_cons.mp h
      · rw [List.append_assoc]
        exact (List.prefix_append _ _).isInfix
      · exact (ih h).trans (List.suffix_append _ _).isInfix

-- A part of a split stands in what was split.
theorem infix_of_mem_splitOn [BEq α] [LawfulBEq α] {part text : List α}
    (h : part ∈ text.splitOn sep) : part <:+: text := by
  have hwithin : part <:+: [sep].intercalate (text.splitOn sep) := infix_intercalate h
  rwa [List.intercalate_splitOn] at hwithin

theorem not_mem_of_mem_splitOn [BEq α] [LawfulBEq α] {part text : List α}
    (h : part ∈ text.splitOn sep) : sep ∉ part := by
  induction text generalizing part with
  | nil =>
    rw [List.splitOn_nil, List.mem_singleton] at h
    rw [h]
    exact List.not_mem_nil
  | cons c text ih =>
    rw [List.splitOn_cons_eq_if_modifyHead] at h
    split_ifs at h with hc
    · obtain rfl | h := List.mem_cons.mp h
      · exact List.not_mem_nil
      · exact ih h
    · obtain ⟨first, rest, hparts⟩ := List.exists_cons_of_ne_nil (List.splitOn_ne_nil sep text)
      rw [hparts, List.modifyHead_cons] at h
      obtain rfl | h := List.mem_cons.mp h
      · have hfirst : sep ∉ first := ih (hparts ▸ List.mem_cons_self)
        rw [List.mem_cons, not_or]
        exact ⟨fun heq => hc (by rw [heq]; exact beq_self_eq_true c), hfirst⟩
      · exact ih (hparts ▸ List.mem_cons_of_mem _ h)

theorem length_intercalate_map {parts : List (List α)} {f : List α → List α}
    (hf : ∀ part ∈ parts, (f part).length = part.length) :
    (before.intercalate (parts.map f)).length = (before.intercalate parts).length := by
  induction parts with
  | nil => rfl
  | cons first parts ih =>
    rw [List.forall_mem_cons] at hf
    by_cases hnil : parts = []
    · rw [hnil, List.map_singleton, List.intercalate_singleton, List.intercalate_singleton, hf.1]
    · rw [List.map_cons, List.intercalate_cons_of_ne_nil hnil,
        List.intercalate_cons_of_ne_nil (by simpa using hnil)]
      simp only [List.length_append, hf.1, ih hf.2]

end Separators

section Numbers

-- The digits of a number before the last one.
def lead (n : Nat) : List Char := if n < 10 then [] else Nat.toDigits 10 (n / 10)

theorem toDigits_eq_append (n : Nat) :
    Nat.toDigits 10 n = lead n ++ [Nat.digitChar (n % 10)] := by
  unfold lead
  split_ifs with h
  · rw [Nat.toDigits_of_lt_base h, Nat.mod_eq_of_lt h, List.nil_append]
  · have hdigits := Nat.toDigits_append_toDigits (b := 10) (n := n / 10) (d := n % 10) (by decide)
      (by omega) (by omega)
    rw [Nat.div_add_mod] at hdigits
    rw [← hdigits, Nat.toDigits_of_lt_base (n := n % 10) (by omega)]

theorem digitChar_inj {c d : Nat} (hc : c < 10) (hd : d < 10) :
    Nat.digitChar c = Nat.digitChar d ↔ c = d := by
  refine ⟨fun h => ?_, fun h => by rw [h]⟩
  rw [← Nat.toNat_digitChar_sub_48_of_lt_ten hc, h, Nat.toNat_digitChar_sub_48_of_lt_ten hd]

theorem append_digit_suffix_iff {init digits : List Char} {c d : Nat} (hc : c < 10) (hd : d < 10) :
    init ++ [Nat.digitChar c] <:+ digits ++ [Nat.digitChar d] ↔ c = d ∧ init <:+ digits := by
  rw [List.suffix_concat_iff]
  constructor
  · rintro (h | ⟨t, h, ht⟩)
    · simp at h
    · obtain ⟨rfl, hlast⟩ := List.append_inj' h rfl
      exact ⟨(digitChar_inj hc hd).mp (List.cons.inj hlast).1, ht⟩
  · rintro ⟨rfl, h⟩
    exact .inr ⟨init, rfl, h⟩

theorem forall_mem_toDigits {P : Char → Prop} (h : ∀ d < 10, P (Nat.digitChar d)) (n : Nat) :
    ∀ c ∈ Nat.toDigits 10 n, P c := by
  induction n using Nat.strongRecOn with
  | _ n ih =>
    rw [toDigits_eq_append n, lead]
    intro c hc
    obtain hc | hc := List.mem_append.mp hc
    · split_ifs at hc with hlt
      · cases hc
      · exact ih (n / 10) (by omega) c hc
    · rw [List.mem_singleton.mp hc]
      exact h _ (Nat.mod_lt _ (by decide))

-- Only the number zero starts with the digit zero.
theorem eq_zero_of_head?_toDigits (n : Nat) (h : (Nat.toDigits 10 n).head? = some '0') : n = 0 := by
  induction n using Nat.strongRecOn with
  | _ n ih =>
    rw [toDigits_eq_append, lead] at h
    split_ifs at h with hlt
    · rw [Nat.mod_eq_of_lt hlt] at h
      exact (digitChar_inj hlt (by decide)).mp (Option.some.inj h)
    · rw [List.head?_append_of_ne_nil _ Nat.toDigits_ne_nil] at h
      have hzero := ih (n / 10) (by omega) h
      omega

-- A number stands at the end of another one.
theorem toDigits_suffix_iff {v : Nat} (hv : 0 < v) (n : Nat) :
    Nat.toDigits 10 v <:+ Nat.toDigits 10 n ↔ n % 10 ^ (Nat.toDigits 10 v).length = v := by
  induction v using Nat.strongRecOn generalizing n with
  | _ v ih =>
    rw [toDigits_eq_append v, toDigits_eq_append n,
      append_digit_suffix_iff (Nat.mod_lt _ (by decide)) (Nat.mod_lt _ (by decide))]
    simp only [List.length_append, List.length_singleton, Nat.pow_succ', Nat.mod_mul]
    by_cases hlt : v < 10
    · simp only [lead, if_pos hlt, List.nil_suffix, and_true, List.length_nil, Nat.pow_zero,
        Nat.mod_one]
      omega
    · have hlead : lead v = Nat.toDigits 10 (v / 10) := if_neg hlt
      rw [hlead]
      by_cases hn : n < 10
      · have hnil : lead n = [] := if_pos hn
        rw [hnil, List.suffix_nil, Nat.div_eq_of_lt hn, Nat.zero_mod]
        refine iff_of_false (fun h => Nat.toDigits_ne_nil h.2) (by omega)
      · have hrest : lead n = Nat.toDigits 10 (n / 10) := if_neg hn
        rw [hrest, ih (v / 10) (by omega) (by omega)]
        omega

-- A number stands somewhere in another one.
theorem toDigits_infix_iff {v : Nat} (hv : 0 < v) (n : Nat) :
    Nat.toDigits 10 v <:+: Nat.toDigits 10 n ↔
      ∃ k, n / 10 ^ k % 10 ^ (Nat.toDigits 10 v).length = v := by
  induction n using Nat.strongRecOn with
  | _ n ih =>
    rw [toDigits_eq_append n, List.infix_concat_iff, ← toDigits_eq_append, toDigits_suffix_iff hv]
    have hsplit : (∃ k, n / 10 ^ k % 10 ^ (Nat.toDigits 10 v).length = v) ↔
        n % 10 ^ (Nat.toDigits 10 v).length = v ∨
          ∃ k, n / 10 / 10 ^ k % 10 ^ (Nat.toDigits 10 v).length = v := by
      constructor
      · rintro ⟨k, hk⟩
        cases k with
        | zero => exact .inl (by simpa using hk)
        | succ k => exact .inr ⟨k, by rwa [Nat.div_div_eq_div_mul, ← Nat.pow_succ']⟩
      · rintro (h | ⟨k, hk⟩)
        · exact ⟨0, by simpa using h⟩
        · exact ⟨k + 1, by rwa [Nat.pow_succ', ← Nat.div_div_eq_div_mul]⟩
    rw [hsplit]
    refine or_congr_right ?_
    by_cases hn : n < 10
    · have hnil : lead n = [] := if_pos hn
      rw [hnil, List.infix_nil, Nat.div_eq_of_lt hn]
      simp only [Nat.zero_div, Nat.zero_mod, exists_const]
      exact iff_of_false Nat.toDigits_ne_nil (by omega)
    · have hrest : lead n = Nat.toDigits 10 (n / 10) := if_neg hn
      rw [hrest]
      exact ih (n / 10) (by omega)

theorem toList_toString (b : Int) :
    (toString b).toList = (if 0 ≤ b then [] else ['-']) ++ Nat.toDigits 10 b.natAbs := by
  rw [Int.toString_eq_repr, Int.repr_eq_if]
  split_ifs with hb
  · rw [Nat.toList_repr, show b.toNat = b.natAbs by omega, List.nil_append]
  · rw [String.toList_append, Nat.toList_repr, show (-b).toNat = b.natAbs by omega]
    rfl

theorem infix_toString_iff {w : List Char} (hsign : '-' ∉ w) (b : Int) :
    w <:+: (toString b).toList ↔ w <:+: Nat.toDigits 10 b.natAbs := by
  rw [toList_toString]
  split_ifs with hb
  · rw [List.nil_append]
  · rw [← List.nil_append ['-'], List.append_assoc, List.singleton_append,
      infix_append_cons_iff hsign, List.infix_nil]
    exact or_iff_right_of_imp fun hw => hw ▸ List.nil_infix

theorem forall_mem_toString {P : Char → Prop} (hsign : P '-')
    (hdigit : ∀ d < 10, P (Nat.digitChar d)) (b : Int) : ∀ c ∈ (toString b).toList, P c := by
  intro c hc
  rw [toList_toString] at hc
  obtain hc | hc := List.mem_append.mp hc
  · split_ifs at hc
    · cases hc
    · rw [List.mem_singleton.mp hc]
      exact hsign
  · exact forall_mem_toDigits hdigit _ c hc

-- A word with a letter is not written with the digits of a number.
theorem not_infix_toString {w : List Char} {c : Char} (hc : c ∈ w) (hsign : '-' ≠ c)
    (hdigit : ∀ d < 10, Nat.digitChar d ≠ c) (b : Int) : ¬w <:+: (toString b).toList := by
  intro h
  exact forall_mem_toString (P := (· ≠ c)) hsign hdigit b c (h.subset hc) rfl

end Numbers

end Lib.Words
