import NatsClient.ConsumerFilter
import NatsClient.Lib.Words
import NatsClient.Validate.Subject

namespace NatsClient.ConsumerFilter

open Validate (dot star gt Grammar IsLiteral Token)

section Loops

variable {first : List Bytes} {others tokens : List (List Bytes)}

theorem foldl_minLen (tokens : List (List Bytes)) (m : Nat) :
    ∃ n : Nat, tokens.foldl (fun minLen t => if minLen < 0 ∨ t.length < minLen then t.length
        else minLen) (m : Int) = n ∧
      (n = m ∨ ∃ t ∈ tokens, t.length = n) ∧ n ≤ m ∧ ∀ t ∈ tokens, n ≤ t.length := by
  induction tokens generalizing m with
  | nil => exact ⟨m, rfl, .inl rfl, le_rfl, by simp⟩
  | cons t tokens ih =>
    rw [List.foldl_cons]
    split_ifs with hlt
    · obtain ⟨n, hn, hat, hle, hall⟩ := ih t.length
      refine ⟨n, hn, .inr ?_, by omega, List.forall_mem_cons.mpr ⟨hle, hall⟩⟩
      obtain rfl | ⟨r, hr, hrlen⟩ := hat
      · exact ⟨t, List.mem_cons_self, rfl⟩
      · exact ⟨r, List.mem_cons_of_mem _ hr, hrlen⟩
    · obtain ⟨n, hn, hat, hle, hall⟩ := ih m
      refine ⟨n, hn, hat.imp_right ?_, hle, List.forall_mem_cons.mpr ⟨by omega, hall⟩⟩
      rintro ⟨r, hr, hrlen⟩
      exact ⟨r, List.mem_cons_of_mem _ hr, hrlen⟩

theorem minLen_cons (first : List Bytes) (others : List (List Bytes)) :
    ∃ n : Nat, minLen (first :: others) = n ∧ (∃ t ∈ first :: others, t.length = n) ∧
      ∀ t ∈ first :: others, n ≤ t.length := by
  obtain ⟨n, hn, hat, hle, hall⟩ := foldl_minLen others first.length
  refine ⟨n, hn, ?_, List.forall_mem_cons.mpr ⟨hle, hall⟩⟩
  obtain rfl | ⟨t, ht, hlen⟩ := hat
  · exact ⟨first, List.mem_cons_self, rfl⟩
  · exact ⟨t, List.mem_cons_of_mem _ ht, hlen⟩

-- Where the loop stops: all subjects agree up to there, and not at it.
structure Agreed (first : List Bytes) (others : List (List Bytes)) (start limit n : Nat) :
    Prop where
  le : start ≤ n
  le_limit : n ≤ limit
  agree : ∀ j, start ≤ j → j < n → ∀ t ∈ others, t[j]? = first[j]?
  differ : n < limit → ∃ t ∈ others, t[n]? ≠ first[n]?

theorem commonLoop_agreed (remaining common : Nat) :
    Agreed first others common (common + remaining) (commonLoop first others remaining common) := by
  induction remaining generalizing common with
  | zero => exact ⟨le_rfl, le_rfl, fun j h h' => absurd h' h.not_gt, fun h => absurd h (lt_irrefl _)⟩
  | succ remaining ih =>
    rw [commonLoop]
    split_ifs with hall
    · simp only [List.all_eq_true, decide_eq_true_eq] at hall
      obtain ⟨hle, hlimit, hagree, hdiffer⟩ := ih (common + 1)
      rw [Nat.add_assoc, Nat.add_comm 1] at hlimit hdiffer
      refine ⟨by omega, hlimit, fun j h h' => ?_, hdiffer⟩
      obtain rfl | hj := h.eq_or_lt
      · exact hall
      · exact hagree j hj h'
    · refine ⟨le_rfl, by omega, fun j h h' => absurd h' h.not_gt, fun _ => ?_⟩
      simpa using hall

end Loops

-- The longest list of tokens that all of them start with.
structure Longest (shared : List Bytes) (tokens : List (List Bytes)) : Prop where
  isPrefix : ∀ t ∈ tokens, shared <+: t
  greatest : ∀ p, (∀ t ∈ tokens, p <+: t) → p <+: shared

theorem Agreed.longest {first : List Bytes} {others : List (List Bytes)} {limit n : Nat}
    (h : Agreed first others 0 limit n) (hat : ∃ t ∈ first :: others, t.length = limit) :
    Longest (first.take n) (first :: others) := by
  refine ⟨List.forall_mem_cons.mpr ⟨List.take_prefix _ _, fun t ht => ?_⟩, fun p hp => ?_⟩
  · have htake : first.take n = t.take n := by
      refine List.ext_getElem? fun j => ?_
      rw [List.getElem?_take, List.getElem?_take]
      split_ifs with hj
      · exact (h.agree j (Nat.zero_le _) hj t ht).symm
      · rfl
    rw [htake]
    exact List.take_prefix _ _
  · have hfirst := hp first List.mem_cons_self
    rw [List.prefix_take_iff]
    refine ⟨hfirst, ?_⟩
    by_contra hlt
    rw [not_le] at hlt
    obtain ⟨shortest, hshortest, rfl⟩ := hat
    obtain ⟨t, ht, hne⟩ := h.differ (hlt.trans_le (hp shortest hshortest).length_le)
    refine hne ?_
    have hget {l : List Bytes} (hl : p <+: l) : l[n]? = p[n]? := by
      obtain ⟨rest, rfl⟩ := hl
      exact List.getElem?_append_left hlt
    rw [hget (hp t (List.mem_cons_of_mem _ ht)), hget hfirst]

theorem split_ne_nil (s : Bytes) : split s ≠ [] := List.splitOn_ne_nil dot s

theorem intercalate_split (s : Bytes) : [dot].intercalate (split s) = s :=
  List.intercalate_splitOn dot

theorem commonWildcardSubject_eq {subjects : List Bytes} (hne : subjects ≠ []) :
    ∃ shared, Longest shared (subjects.map split) ∧
      commonWildcardSubject subjects =
        if shared = [] then []
        else if ∀ t ∈ subjects.map split, t.length = shared.length then [dot].intercalate shared
        else [dot].intercalate shared ++ [dot, gt] := by
  obtain ⟨subject, subjects, rfl⟩ := List.exists_cons_of_ne_nil hne
  obtain ⟨m, hm, hat, hall⟩ := minLen_cons (split subject) (subjects.map split)
  have hpos : 0 < m := by
    obtain ⟨t, ht, rfl⟩ := hat
    rw [← List.map_cons, List.mem_map] at ht
    obtain ⟨s, -, rfl⟩ := ht
    exact List.length_pos_of_ne_nil (split_ne_nil s)
  have hagreed : Agreed (split subject) (subjects.map split) 0 m
      (commonLoop (split subject) (subjects.map split) m 0) := by
    simpa only [Nat.zero_add] using commonLoop_agreed m 0
  have hlength : ((split subject).take (commonLoop (split subject) (subjects.map split) m 0)).length
      = commonLoop (split subject) (subjects.map split) m 0 :=
    List.length_take_of_le (hagreed.le_limit.trans (hall _ List.mem_cons_self))
  refine ⟨_, hagreed.longest hat, ?_⟩
  simp only [commonWildcardSubject, List.map_cons, hm, Int.toNat_natCast]
  rw [if_neg (by omega)]
  simp only [← List.length_eq_zero_iff (l := List.take _ _), hlength, List.all_eq_true, decide_eq_true_eq]

-- NATS matching of tokens: '*' stands for one token and a final '>' for one or more.
def tokensMatch : List Bytes → List Bytes → Bool
  | [], [] => true
  | f :: fs, t :: ts =>
    (f = [gt] && fs.isEmpty) || ((f = [star] || f = t) && tokensMatch fs ts)
  | _, _ => false

def subjectMatches (filter subject : Bytes) : Bool := tokensMatch (split filter) (split subject)

-- Every subject that can be published and that a filter of the list matches is matched.
def Covers (cover : Bytes) (filters : List Bytes) : Prop :=
  ∀ s, Validate.validatePublishSubject s = none → (∃ f ∈ filters, subjectMatches f s = true) →
    subjectMatches cover s = true

theorem tokensMatch_gt {ts : List Bytes} : tokensMatch [[gt]] ts = true ↔ ts ≠ [] := by
  cases ts <;> simp [tokensMatch]

theorem tokensMatch_cons_of_ne_nil {f : Bytes} {fs ts : List Bytes} (hfs : fs ≠ []) :
    tokensMatch (f :: fs) ts = true ↔
      ∃ t rest, ts = t :: rest ∧ (f = [star] ∨ f = t) ∧ tokensMatch fs rest = true := by
  cases ts with
  | nil => simp [tokensMatch]
  | cons t rest => simp [tokensMatch, hfs]

-- What a longer filter matches, its start followed by '>' matches.
theorem tokensMatch_append_gt {shared rest ts : List Bytes} (hrest : rest ≠ [])
    (h : tokensMatch (shared ++ rest) ts = true) : tokensMatch (shared ++ [[gt]]) ts = true := by
  induction shared generalizing ts with
  | nil =>
    rw [List.nil_append] at h ⊢
    rw [tokensMatch_gt]
    rintro rfl
    obtain ⟨f, fs, rfl⟩ := List.exists_cons_of_ne_nil hrest
    simp [tokensMatch] at h
  | cons f shared ih =>
    rw [List.cons_append, tokensMatch_cons_of_ne_nil (by simp [hrest])] at h
    obtain ⟨t, tail, rfl, hf, h⟩ := h
    rw [List.cons_append, tokensMatch_cons_of_ne_nil (by simp)]
    exact ⟨t, tail, rfl, hf, ih h⟩

theorem length_lt_of_tokensMatch_gt {shared ts : List Bytes}
    (h : tokensMatch (shared ++ [[gt]]) ts = true) : shared.length < ts.length := by
  induction shared generalizing ts with
  | nil => exact List.length_pos_of_ne_nil (tokensMatch_gt.mp h)
  | cons f shared ih =>
    rw [List.cons_append, tokensMatch_cons_of_ne_nil (by simp)] at h
    obtain ⟨t, tail, rfl, -, h⟩ := h
    exact Nat.succ_lt_succ (ih h)

section Concrete

-- A token that the filter token matches.
def concrete (token : Bytes) : Bytes := if token = [star] then [0x61] else token

theorem tokensMatch_concrete (fs : List Bytes) : tokensMatch fs (fs.map concrete) = true := by
  induction fs with
  | nil => rfl
  | cons f fs ih =>
    rw [List.map_cons, tokensMatch, ih, Bool.and_true, concrete]
    split_ifs with h <;> simp [h]

theorem length_concrete (token : Bytes) : (concrete token).length = token.length := by
  rw [concrete]
  split_ifs with h
  · rw [h]
    rfl
  · rfl

theorem token_concrete {token : Bytes} (h : Token token) : Token (concrete token) := by
  rw [concrete]
  split_ifs with hstar
  · refine ⟨by decide, fun hspace => ?_, by decide, by decide⟩
    have hwhite := (Validate.hasWhitespace_iff _).mpr hspace
    revert hwhite
    decide
  · exact h

theorem concrete_literal {token : Bytes} (hgt : token ≠ [gt]) :
    concrete token ≠ [star] ∧ concrete token ≠ [gt] := by
  rw [concrete]
  split_ifs with hstar
  · decide
  · exact ⟨hstar, hgt⟩

theorem dot_not_mem_concrete {token : Bytes} (h : dot ∉ token) : dot ∉ concrete token := by
  rw [concrete]
  split_ifs
  · decide
  · exact h

-- A filter without '>' matches a subject with as many tokens.
theorem exists_concrete {f : Bytes} (hf : Grammar f) (hgt : [gt] ∉ split f) :
    ∃ s, Validate.validatePublishSubject s = none ∧ split s = (split f).map concrete := by
  have hsplit : split ([dot].intercalate ((split f).map concrete)) = (split f).map concrete := by
    refine List.splitOn_intercalate dot ?_ (by simpa using split_ne_nil f)
    rw [List.forall_mem_map]
    exact fun token htoken => dot_not_mem_concrete (Lib.Words.not_mem_of_mem_splitOn htoken)
  have hlength : ([dot].intercalate ((split f).map concrete)).length = f.length := by
    rw [Lib.Words.length_intercalate_map fun token _ => length_concrete token, intercalate_split]
  have hliteral : IsLiteral ([dot].intercalate ((split f).map concrete)) := by
    rw [IsLiteral, ← split, hsplit, List.forall_mem_map]
    exact fun token htoken => concrete_literal fun heq => hgt (heq ▸ htoken)
  refine ⟨_, (Validate.validatePublishSubject_eq_none_iff _).mpr ⟨⟨?_, ?_, ?_, ?_⟩, hliteral⟩,
    hsplit⟩
  · rw [hlength]
    exact hf.nonempty
  · rw [hlength]
    exact hf.bounded
  · rw [← split, hsplit, List.forall_mem_map]
    exact fun token htoken => token_concrete (hf.tokens token htoken)
  · exact fun hmem => (hliteral [gt] (List.mem_of_mem_dropLast hmem)).2 rfl

end Concrete

theorem split_injective {f g : Bytes} (h : split f = split g) : f = g := by
  rw [← intercalate_split f, h, intercalate_split]

theorem split_gt : split [gt] = [[gt]] := by decide

-- A filter that all the others extend.
def IsStem (filters : List Bytes) (f : Bytes) : Prop :=
  f ∈ filters ∧ (∀ g ∈ filters, split f <+: split g) ∧ ∃ g ∈ filters, g ≠ f

theorem forall_grammar {filters : List Bytes} (h : Validate.validateSubjects filters = none) :
    ∀ f ∈ filters, Grammar f := by
  rw [Validate.validateSubjects, List.findSome?_eq_none_iff] at h
  exact fun f hf => (Validate.validateAnySubject_eq_none_iff f).mp (h f hf)

theorem covers_gt (filters : List Bytes) : Covers [gt] filters := by
  intro s _ _
  rw [subjectMatches, split_gt, tokensMatch_gt]
  exact split_ne_nil s

section Shared

variable {filters : List Bytes} {shared : List Bytes}

theorem split_shared_gt (hlongest : Longest shared (filters.map split)) (hfilters : filters ≠ [])
    (hne : shared ≠ []) :
    split ([dot].intercalate shared ++ [dot, gt]) = shared ++ [[gt]] := by
  obtain ⟨f, rest, rfl⟩ := List.exists_cons_of_ne_nil hfilters
  have hextends := hlongest.isPrefix (split f) (List.mem_map_of_mem List.mem_cons_self)
  have hdot : ∀ token ∈ shared, dot ∉ token := fun token htoken =>
    Lib.Words.not_mem_of_mem_splitOn (hextends.subset htoken)
  rw [split, List.splitOn_append_cons_self, List.splitOn_intercalate dot hdot hne]
  rfl

theorem IsStem.split_eq {f : Bytes} (h : IsStem filters f)
    (hlongest : Longest shared (filters.map split)) : split f = shared := by
  have hle : split f <+: shared := hlongest.greatest _ (List.forall_mem_map.mpr h.2.1)
  have hge : shared <+: split f := hlongest.isPrefix _ (List.mem_map_of_mem h.1)
  exact hle.eq_of_length (le_antisymm hle.length_le hge.length_le)

theorem IsStem.gt_not_mem {f : Bytes} (h : IsStem filters f)
    (hgrammar : ∀ f ∈ filters, Grammar f) : [gt] ∉ split f := by
  obtain ⟨-, hextends, g, hg, hne⟩ := h
  obtain ⟨rest, hrest⟩ := hextends g hg
  have hrestNe : rest ≠ [] := by
    rintro rfl
    rw [List.append_nil] at hrest
    exact hne (split_injective hrest).symm
  intro hmem
  refine (hgrammar g hg).final ?_
  rw [← split, ← hrest, List.dropLast_append_of_ne_nil hrestNe]
  exact List.mem_append_left _ hmem

-- The wildcard misses the filter that is the shared start itself.
theorem covers_shared_gt_iff (hgrammar : ∀ f ∈ filters, Grammar f)
    (hlongest : Longest shared (filters.map split)) (hne : shared ≠ [])
    (hexact : ¬∀ t ∈ filters.map split, t.length = shared.length) :
    Covers ([dot].intercalate shared ++ [dot, gt]) filters ↔ ¬∃ f, IsStem filters f := by
  simp only [List.forall_mem_map, not_forall] at hexact
  obtain ⟨longer, hlonger, hlength⟩ := hexact
  have hcover := split_shared_gt hlongest (List.ne_nil_of_mem hlonger) hne
  constructor
  · rintro hcovers ⟨f, hstem⟩
    obtain ⟨s, hs, hsplit⟩ :=
      exists_concrete (hgrammar f hstem.1) (hstem.gt_not_mem hgrammar)
    have hmatch : subjectMatches f s = true := by
      rw [subjectMatches, hsplit]
      exact tokensMatch_concrete _
    have hlt := hcovers s hs ⟨f, hstem.1, hmatch⟩
    rw [subjectMatches, hcover, hsplit, hstem.split_eq hlongest] at hlt
    have := length_lt_of_tokensMatch_gt hlt
    simp at this
  · intro hstem s _ hmatches
    obtain ⟨f, hf, hmatch⟩ := hmatches
    obtain ⟨rest, hrest⟩ := hlongest.isPrefix _ (List.mem_map_of_mem hf)
    rw [subjectMatches, ← hrest] at hmatch
    rw [subjectMatches, hcover]
    refine tokensMatch_append_gt ?_ hmatch
    rintro rfl
    rw [List.append_nil] at hrest
    refine hstem ⟨f, hf, fun g hg => ?_, longer, hlonger, ?_⟩
    · rw [← hrest]
      exact hlongest.isPrefix _ (List.mem_map_of_mem hg)
    · rintro rfl
      exact hlength (by rw [hrest])

-- With all filters as long as the shared start there is only one.
theorem eq_of_exact (hlongest : Longest shared (filters.map split))
    (hexact : ∀ t ∈ filters.map split, t.length = shared.length) {f : Bytes} (hf : f ∈ filters) :
    f = [dot].intercalate shared := by
  have hmem := List.mem_map_of_mem (f := split) hf
  rw [(hlongest.isPrefix _ hmem).eq_of_length (hexact _ hmem).symm, intercalate_split]

theorem covers_wild_iff (hgrammar : ∀ f ∈ filters, Grammar f) (hne : filters ≠ []) :
    Covers (if commonWildcardSubject filters ≠ [] then commonWildcardSubject filters else [gt])
      filters ↔ ¬∃ f, IsStem filters f := by
  obtain ⟨shared, hlongest, hwild⟩ := commonWildcardSubject_eq hne
  rw [hwild]
  by_cases hshared : shared = []
  · rw [if_pos hshared, if_neg (by simp)]
    refine iff_of_true (covers_gt filters) ?_
    rintro ⟨f, hstem⟩
    exact split_ne_nil f ((hstem.split_eq hlongest).trans hshared)
  rw [if_neg hshared]
  by_cases hexact : ∀ t ∈ filters.map split, t.length = shared.length
  · have hall {f : Bytes} (hf : f ∈ filters) := eq_of_exact hlongest hexact hf
    have hcover : [dot].intercalate shared ≠ [] := by
      obtain ⟨f, rest, rfl⟩ := List.exists_cons_of_ne_nil hne
      rw [← hall List.mem_cons_self]
      exact List.ne_nil_of_length_pos (hgrammar f List.mem_cons_self).nonempty
    rw [if_pos hexact, if_pos hcover]
    refine iff_of_true (fun s _ hmatches => ?_) ?_
    · obtain ⟨f, hf, hmatch⟩ := hmatches
      rwa [← hall hf]
    · rintro ⟨f, hf, -, g, hg, hgne⟩
      exact hgne ((hall hg).trans (hall hf).symm)
  · rw [if_neg hexact, if_pos (by simp)]
    exact covers_shared_gt_iff hgrammar hlongest hshared hexact

end Shared

-- The covering subject covers the filters unless one of them is a start of all the others.
theorem covers_iff (filters : List Bytes) (h : Validate.validateSubjects filters = none) :
    Covers (consumerFilterSubjects filters) filters ↔ ¬∃ f, IsStem filters f := by
  have hgrammar := forall_grammar h
  match filters, hgrammar with
  | [], _ => exact iff_of_true (covers_gt []) (by simp [IsStem])
  | [f], _ =>
    refine iff_of_true (fun s _ hmatches => ?_) (by simp [IsStem])
    obtain ⟨g, hg, hmatch⟩ := hmatches
    rwa [List.mem_singleton.mp hg] at hmatch
  | first :: second :: rest, hgrammar => exact covers_wild_iff hgrammar (List.cons_ne_nil _ _)

-- The filters a.b and a.c.
def siblings : List Bytes := [[0x61, 0x2e, 0x62], [0x61, 0x2e, 0x63]]

theorem covers_iff_siblings :
    consumerFilterSubjects siblings = [0x61, 0x2e, 0x3e] ∧ Covers [0x61, 0x2e, 0x3e] siblings := by
  have hcover : consumerFilterSubjects siblings = [0x61, 0x2e, 0x3e] := by decide
  refine ⟨hcover, ?_⟩
  rw [← hcover]
  refine (covers_iff siblings (by decide)).mpr ?_
  rintro ⟨f, hf, hextends, -⟩
  have hnone : ∀ f ∈ siblings, ¬∀ g ∈ siblings, split f <+: split g := by decide
  exact hnone f hf hextends

-- For the filters a and a.b the wildcard is a.> too, and it does not match a.
theorem stem_not_covered :
    Validate.validateSubjects [[0x61], [0x61, 0x2e, 0x62]] = none ∧
      consumerFilterSubjects [[0x61], [0x61, 0x2e, 0x62]] = [0x61, 0x2e, 0x3e] ∧
      Validate.validatePublishSubject [0x61] = none ∧ subjectMatches [0x61] [0x61] = true ∧
      subjectMatches [0x61, 0x2e, 0x3e] [0x61] = false := by
  refine ⟨?_, ?_, ?_, ?_, ?_⟩ <;> decide

end NatsClient.ConsumerFilter
