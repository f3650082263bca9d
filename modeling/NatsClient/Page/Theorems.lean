import NatsClient.Lib.Signed
import NatsClient.Page

namespace NatsClient.Page

open Lib.Signed

variable {α T : Type}

section Slices

variable {s : Slice α} {offset limit : Int64}

theorem Slice.toInt_len (s : Slice α) : s.len.toInt = s.items.length :=
  Int64.toInt_ofNat_of_lt s.bound

theorem Slice.between_eq {low high : Int64} (hlow : 0 ≤ low.toInt)
    (hle : low.toInt ≤ high.toInt) (hhigh : high.toInt ≤ s.items.length) :
    s.between low high =
      some ((s.items.drop low.toInt.toNat).take (high.toInt - low.toInt).toNat) := by
  refine if_pos ⟨?_, ?_, ?_⟩
  · exact Int64.le_iff_toInt_le.mpr hlow
  · exact Int64.le_iff_toInt_le.mpr hle
  · rw [Int64.le_iff_toInt_le, s.toInt_len]
    exact hhigh

theorem Slice.between_eq_none {low high : Int64} (h : high.toInt < low.toInt) :
    s.between low high = none := by
  refine if_neg ?_
  intro hbounds
  have hle := Int64.le_iff_toInt_le.mp hbounds.2.1
  omega

theorem Slice.between_len {low : Int64} (hlow : 0 ≤ low.toInt)
    (hle : low.toInt ≤ s.items.length) :
    s.between low s.len = some (s.items.drop low.toInt.toNat) := by
  have hlen := s.toInt_len
  rw [Slice.between_eq hlow (by omega) (by omega), List.take_of_length_le]
  rw [List.length_drop]
  omega

-- The elements from max(offset, 0) on, cut at the limit unless that is negative.
def window (items : List α) (offset limit : Int64) : List α :=
  let rest := items.drop offset.toInt.toNat
  if limit < 0 then rest else rest.take limit.toInt.toNat

-- The page starts inside the slice and its end is not an int.
def Overflows (s : Slice α) (offset limit : Int64) : Prop :=
  0 < offset.toInt ∧ offset.toInt < s.items.length ∧ 2 ^ 63 ≤ offset.toInt + limit.toInt

theorem toInt_start (offset : Int64) : (greatest offset 0).toInt = offset.toInt.toNat := by
  have hzero : (0 : Int64).toInt = 0 := rfl
  rw [toInt_greatest, hzero]
  omega

theorem len_le_start_iff : s.len ≤ greatest offset 0 ↔ s.items.length ≤ offset.toInt.toNat := by
  rw [Int64.le_iff_toInt_le, s.toInt_len, toInt_start]
  omega

theorem pageSlice_past (h : s.items.length ≤ offset.toInt.toNat) :
    pageSlice s offset limit = some (window s.items offset limit, s.len) := by
  have hwindow : window s.items offset limit = [] := by
    simp only [window, List.drop_of_length_le h, List.take_nil, ite_self]
  rw [hwindow]
  exact if_pos (len_le_start_iff.mpr h)

theorem pageSlice_rest (h : offset.toInt.toNat < s.items.length) (hlimit : limit < 0) :
    pageSlice s offset limit = some (window s.items offset limit, s.len) := by
  have hinside : ¬s.len ≤ greatest offset 0 := mt len_le_start_iff.mp (Nat.not_le.mpr h)
  have hstart := toInt_start offset
  have hpage : pageSlice s offset limit =
      (s.between (greatest offset 0) s.len).map (·, s.len) :=
    (if_neg hinside).trans (if_pos hlimit)
  rw [hpage, Slice.between_len (by omega) (by omega), hstart, window, if_pos hlimit]
  rfl

theorem pageSlice_inside (h : offset.toInt.toNat < s.items.length) (hlimit : ¬limit < 0) :
    pageSlice s offset limit =
      (s.between (greatest offset 0) (least (greatest offset 0 + limit) s.len)).map
        (·, s.len) := by
  have hinside : ¬s.len ≤ greatest offset 0 := mt len_le_start_iff.mp (Nat.not_le.mpr h)
  exact (if_neg hinside).trans (if_neg hlimit)

theorem pageSlice_of_overflows (h : Overflows s offset limit) :
    pageSlice s offset limit = none := by
  obtain ⟨hpos, hinside, hover⟩ := h
  have hstart := toInt_start offset
  have hoffset := offset.toInt_lt
  have hlt := limit.toInt_lt
  have hlimit : ¬limit < 0 := by
    have hzero : (0 : Int64).toInt = 0 := rfl
    rw [Int64.lt_iff_toInt_lt, hzero]
    omega
  -- the end has become negative, so it is not cut
  have hstop : (least (greatest offset 0 + limit) s.len).toInt < (greatest offset 0).toInt := by
    rw [toInt_least, toInt_add_of_nonneg (by omega) (by omega), if_neg (by omega)]
    omega
  rw [pageSlice_inside (by omega) hlimit, Slice.between_eq_none hstop, Option.map_none]

theorem pageSlice_of_not_overflows (h : ¬Overflows s offset limit) :
    pageSlice s offset limit = some (window s.items offset limit, s.len) := by
  by_cases hpast : s.items.length ≤ offset.toInt.toNat
  · exact pageSlice_past hpast
  by_cases hlimit : limit < 0
  · exact pageSlice_rest (Nat.lt_of_not_le hpast) hlimit
  have hstart := toInt_start offset
  have hlen := s.toInt_len
  have hnonneg : 0 ≤ limit.toInt := by
    rw [Int64.lt_iff_toInt_lt] at hlimit
    exact Int.not_lt.mp hlimit
  have hstop : (least (greatest offset 0 + limit) s.len).toInt =
      min (offset.toInt.toNat + limit.toInt) s.items.length := by
    have hlt := limit.toInt_lt
    unfold Overflows at h
    rw [toInt_least, toInt_add_of_nonneg (by omega) hnonneg, if_pos (by omega)]
    omega
  rw [pageSlice_inside (Nat.lt_of_not_le hpast) hlimit,
    Slice.between_eq (by omega) (by omega) (by omega), window, if_neg hlimit, hstop, hstart,
    Option.map_some]
  congr 2
  rw [Int.toNat_natCast, List.take_eq_take_iff, List.length_drop]
  omega

theorem pageSlice_eq_iff : pageSlice s offset limit = some (window s.items offset limit, s.len) ↔
    ¬Overflows s offset limit := by
  refine ⟨?_, pageSlice_of_not_overflows⟩
  intro h hover
  rw [pageSlice_of_overflows hover] at h
  cases h

end Slices

section Pages

variable {β : Type} {page : Nat → Option (List β)} {n : Nat} {s : Slice α} {size : Int64}

-- The first n pages, one after the other.
def joined (page : Nat → Option (List β)) : Nat → Option (List β)
  | 0 => some []
  | n + 1 => do
      let before ← joined page n
      let next ← page n
      some (before ++ next)

theorem joined_eq {parts : Nat → List β} (h : ∀ k < n, page k = some (parts k)) :
    joined page n = some ((List.range n).flatMap parts) := by
  induction n with
  | zero => rfl
  | succ n ih =>
    have hbefore := ih fun k hk => h k (Nat.lt_succ_of_lt hk)
    simp only [joined, hbefore, h n (Nat.lt_succ_self n), Option.bind_eq_bind,
      Option.bind_some, List.range_succ, List.flatMap_append, List.flatMap_singleton]

theorem joined_eq_none {k : Nat} (hk : k < n) (h : page k = none) : joined page n = none := by
  induction n with
  | zero => exact absurd hk (Nat.not_lt_zero k)
  | succ n ih =>
    rw [joined]
    rcases Nat.lt_succ_iff_lt_or_eq.mp hk with hlt | rfl
    · rw [ih hlt]
      rfl
    · rw [h]
      cases joined page k <;> rfl

-- A function that respects concatenation may be applied page by page.
theorem joined_map {f : List α → List β} {source : Nat → Option (List α)} (hnil : f [] = [])
    (happend : ∀ l₁ l₂, f (l₁ ++ l₂) = f l₁ ++ f l₂)
    (h : ∀ k < n, page k = (source k).map f) : joined page n = (joined source n).map f := by
  induction n with
  | zero => rw [joined, joined, Option.map_some, hnil]
  | succ n ih =>
    rw [joined, joined, ih fun k hk => h k (Nat.lt_succ_of_lt hk), h n (Nat.lt_succ_self n)]
    cases joined source n with
    | none => rfl
    | some before =>
      cases source n with
      | none => rfl
      | some next => exact congrArg some (happend before next).symm

theorem flatMap_pages (items : List α) (size n : Nat) :
    ((List.range n).flatMap fun k => (items.drop (k * size)).take size) =
      items.take (n * size) := by
  induction n with
  | zero => rw [Nat.zero_mul, List.take_zero, List.range_zero, List.flatMap_nil]
  | succ n ih =>
    rw [List.range_succ, List.flatMap_append, ih, List.flatMap_singleton, Nat.succ_mul,
      List.take_add]

def pageCount (total size : Nat) : Nat := (total + size - 1) / size

theorem lt_pageCount_iff {total size k : Nat} (hsize : 1 ≤ size) :
    k < pageCount total size ↔ k * size < total := by
  rw [pageCount, Nat.lt_iff_add_one_le, Nat.le_div_iff_mul_le hsize, Nat.succ_mul]
  omega

theorem le_pageCount_mul {total size : Nat} (hsize : 1 ≤ size) :
    total ≤ pageCount total size * size :=
  Nat.le_of_not_lt (mt (lt_pageCount_iff hsize).mpr (Nat.lt_irrefl _))

-- Where page k starts.
def offsetOf (size : Int64) (k : Nat) : Int64 := Int64.ofNat (k * size.toInt.toNat)

def slicePage (s : Slice α) (size : Int64) (k : Nat) : Option (List α) :=
  (pageSlice s (offsetOf size k) size).map Prod.fst

-- Every page but the first ends at an int.
def EndsFit (total : Nat) (size : Int64) : Prop :=
  ∀ k, 1 ≤ k → k * size.toInt.toNat < total → (k + 1) * size.toInt.toNat < 2 ^ 63

theorem toInt_offsetOf {k : Nat} (h : k * size.toInt.toNat < s.items.length) :
    (offsetOf size k).toInt = (k * size.toInt.toNat : Nat) :=
  Int64.toInt_ofNat_of_lt (Nat.lt_trans h s.bound)

theorem overflows_offsetOf_iff (hsize : 1 ≤ size.toInt) {k : Nat}
    (h : k * size.toInt.toNat < s.items.length) :
    Overflows s (offsetOf size k) size ↔ 1 ≤ k ∧ 2 ^ 63 ≤ (k + 1) * size.toInt.toNat := by
  have hpos : 0 < k * size.toInt.toNat ↔ 0 < k := Nat.mul_pos_iff_of_pos_right (by omega)
  rw [Overflows, toInt_offsetOf h, Nat.succ_mul]
  omega

theorem slicePage_eq (hsize : 1 ≤ size.toInt) (hends : EndsFit s.items.length size) {k : Nat}
    (hk : k < pageCount s.items.length size.toInt.toNat) :
    slicePage s size k =
      some ((s.items.drop (k * size.toInt.toNat)).take size.toInt.toNat) := by
  have hinside := (lt_pageCount_iff (by omega)).mp hk
  have hfits : ¬Overflows s (offsetOf size k) size := by
    rw [overflows_offsetOf_iff hsize hinside]
    rintro ⟨hfirst, hover⟩
    exact Nat.not_le.mpr (hends k hfirst hinside) hover
  have hlimit : ¬size < 0 := by
    rw [Int64.lt_iff_toInt_lt]
    exact Int.not_lt.mpr (Int.le_trans (by decide) hsize)
  rw [slicePage, pageSlice_of_not_overflows hfits, Option.map_some, window, if_neg hlimit,
    toInt_offsetOf hinside, Int.toNat_natCast]

theorem joined_slicePage_of_endsFit (hsize : 1 ≤ size.toInt)
    (hends : EndsFit s.items.length size) :
    joined (slicePage s size) (pageCount s.items.length size.toInt.toNat) = some s.items := by
  rw [joined_eq fun k hk => slicePage_eq hsize hends hk, flatMap_pages,
    List.take_of_length_le (le_pageCount_mul (by omega))]

theorem joined_slicePage_of_not_endsFit (hsize : 1 ≤ size.toInt)
    (hends : ¬EndsFit s.items.length size) :
    joined (slicePage s size) (pageCount s.items.length size.toInt.toNat) = none := by
  simp only [EndsFit, not_forall, Nat.not_lt] at hends
  obtain ⟨k, hfirst, hinside, hover⟩ := hends
  have hpage : slicePage s size k = none := by
    rw [slicePage,
      pageSlice_of_overflows ((overflows_offsetOf_iff hsize hinside).mpr ⟨hfirst, hover⟩),
      Option.map_none]
  exact joined_eq_none ((lt_pageCount_iff (by omega)).mpr hinside) hpage

-- Up to half of the ints every page size is fine.
theorem endsFit_of_le {total : Nat} (h : total ≤ 2 ^ 62) (size : Int64) :
    EndsFit total size := by
  intro k hfirst hinside
  have hle : size.toInt.toNat ≤ k * size.toInt.toNat := Nat.le_mul_of_pos_left _ hfirst
  rw [Nat.succ_mul]
  omega

end Pages

section Infos

variable {fetch : String → Except GoError T} {isNotFound : GoError → Bool}
  {names : List String} {s : Slice String} {size : Int64}

-- The infos of the names that are found.
def found (fetch : String → Except GoError T) (names : List String) : List T :=
  names.filterMap fun name => (fetch name).toOption

-- Every error of a fetch reports that the name is not found.
def OnlyNotFound (fetch : String → Except GoError T) (isNotFound : GoError → Bool)
    (names : List String) : Prop :=
  ∀ name ∈ names, ∀ err, fetch name = .error err → isNotFound err = true

theorem fetchInfos_eq (h : OnlyNotFound fetch isNotFound names) (infos : List T) :
    fetchInfos fetch isNotFound names infos = .ok (infos ++ found fetch names) := by
  induction names generalizing infos with
  | nil => exact congrArg Except.ok (List.append_nil infos).symm
  | cons name names ih =>
    have htail : OnlyNotFound fetch isNotFound names :=
      fun next hnext => h next (List.mem_cons_of_mem name hnext)
    cases hfetch : fetch name with
    | ok info =>
      have hfound : found fetch (name :: names) = info :: found fetch names := by
        simp [found, hfetch, Except.toOption]
      simp only [fetchInfos, hfetch, ih htail, hfound, List.append_assoc,
        List.singleton_append]
    | error err =>
      have hnot := h name List.mem_cons_self err hfetch
      have hfound : found fetch (name :: names) = found fetch names := by
        simp [found, hfetch, Except.toOption]
      simp only [fetchInfos, hfetch, hnot, if_pos, ih htail, hfound]

theorem fetchInfos_error {before after : List String} {name : String} {err : GoError}
    (h : OnlyNotFound fetch isNotFound before) (hfetch : fetch name = .error err)
    (herr : isNotFound err = false) (infos : List T) :
    fetchInfos fetch isNotFound (before ++ name :: after) infos = .error err := by
  induction before generalizing infos with
  | nil => simp [fetchInfos, hfetch, herr]
  | cons next before ih =>
    have htail : OnlyNotFound fetch isNotFound before :=
      fun name hname => h name (List.mem_cons_of_mem next hname)
    rw [List.cons_append, fetchInfos]
    split
    · exact ih htail _
    · next skipped hskipped =>
        rw [if_pos (h next List.mem_cons_self skipped hskipped)]
        exact ih htail _

theorem pageInfos_error {offset limit total : Int64} {before after : List String} {name : String}
    {err : GoError} (hpage : pageSlice s offset limit = some (before ++ name :: after, total))
    (h : OnlyNotFound fetch isNotFound before) (hfetch : fetch name = .error err)
    (herr : isNotFound err = false) :
    pageInfos s offset limit fetch isNotFound = some ⟨[], s.len, some err⟩ := by
  simp only [pageInfos, hpage, Option.map_some, fetchInfos_error h hfetch herr]

theorem mem_of_pageSlice {offset limit total : Int64} {page : List String}
    (hpage : pageSlice s offset limit = some (page, total)) {name : String}
    (hname : name ∈ page) : name ∈ s.items := by
  by_cases hover : Overflows s offset limit
  · rw [pageSlice_of_overflows hover] at hpage
    cases hpage
  · rw [pageSlice_of_not_overflows hover] at hpage
    cases hpage
    unfold window at hname
    split_ifs at hname
    · exact List.mem_of_mem_drop hname
    · exact List.mem_of_mem_drop (List.mem_of_mem_take hname)

-- The infos of a call that has returned no error.
def returned : Option (PageInfos T) → Option (List T)
  | some ⟨infos, _, none⟩ => some infos
  | _ => none

def infoPage (s : Slice String) (size : Int64) (fetch : String → Except GoError T)
    (isNotFound : GoError → Bool) (k : Nat) : Option (List T) :=
  returned (pageInfos s (offsetOf size k) size fetch isNotFound)

theorem infoPage_eq (h : OnlyNotFound fetch isNotFound s.items) (k : Nat) :
    infoPage s size fetch isNotFound k = (slicePage s size k).map (found fetch) := by
  rw [infoPage, slicePage, pageInfos]
  cases hpage : pageSlice s (offsetOf size k) size with
  | none => rfl
  | some result =>
    have honly : OnlyNotFound fetch isNotFound result.1 :=
      fun name hname => h name (mem_of_pageSlice hpage hname)
    simp only [Option.map_some, fetchInfos_eq honly, List.nil_append, returned]

theorem joined_infoPage (h : OnlyNotFound fetch isNotFound s.items) (n : Nat) :
    joined (infoPage s size fetch isNotFound) n =
      (joined (slicePage s size) n).map (found fetch) :=
  joined_map List.filterMap_nil (fun _ _ => List.filterMap_append) fun k _ => infoPage_eq h k

end Infos

section Managers

variable {info : String → Except GoError T} {notFound : Sentinel} {place : String → String}
  {names : List String} {s : Slice String} {size : Int64}

theorem found_wrapping : found (wrapping notFound place info) names = found info names := by
  have hsame (name : String) :
      (wrapping notFound place info name).toOption = (info name).toOption := by
    unfold wrapping
    split
    · next hinfo => rw [hinfo]
    · next hinfo =>
        rw [hinfo]
        split_ifs <;> rfl
  simp only [found, hsame]

theorem OnlyNotFound.wrapping (h : OnlyNotFound info (·.is notFound) names) :
    OnlyNotFound (wrapping notFound place info) (·.is notFound) names := by
  intro name hname err herr
  unfold Page.wrapping at herr
  split at herr
  · cases herr
  · next inner hinfo =>
      have hinner := h name hname inner hinfo
      rw [if_pos hinner] at herr
      cases herr
      exact hinner

theorem joined_wrapping (hsize : 1 ≤ size.toInt) (htotal : s.items.length ≤ 2 ^ 62)
    (h : OnlyNotFound info (·.is notFound) s.items) :
    joined (infoPage s size (wrapping notFound place info) (·.is notFound))
      (pageCount s.items.length size.toInt.toNat) = some (found info s.items) := by
  rw [joined_infoPage h.wrapping, joined_slicePage_of_endsFit hsize (endsFit_of_le htotal size),
    Option.map_some, found_wrapping]

-- Streams that vanish between the two requests are left out.
theorem listStreamsPage_pages (hsize : 1 ≤ size.toInt) (htotal : s.items.length ≤ 2 ^ 62)
    (h : OnlyNotFound info (·.is .errStreamNotFound) s.items) :
    joined (fun k => returned (listStreamsPage s info (offsetOf size k) size))
      (pageCount s.items.length size.toInt.toNat) = some (found info s.items) :=
  joined_wrapping hsize htotal h

theorem listConsumersPage_pages (stream : String) (hsize : 1 ≤ size.toInt)
    (htotal : s.items.length ≤ 2 ^ 62)
    (h : OnlyNotFound info (·.is .errConsumerNotFound) s.items) :
    joined (fun k => returned (listConsumersPage stream s info (offsetOf size k) size))
      (pageCount s.items.length size.toInt.toNat) = some (found info s.items) :=
  joined_wrapping hsize htotal h

-- Any other error ends the page and names the stream.
theorem listStreamsPage_error {offset limit total : Int64} {before after : List String}
    {name : String} {err : GoError}
    (hpage : pageSlice s offset limit = some (before ++ name :: after, total))
    (h : OnlyNotFound info (·.is .errStreamNotFound) before) (hinfo : info name = .error err)
    (herr : err.is .errStreamNotFound = false) :
    listStreamsPage s info offset limit =
      some ⟨[], s.len, some (.wrap ("list streams: info " ++ quoted name ++ ": ") err "")⟩ := by
  refine pageInfos_error hpage h.wrapping ?_ ?_
  · simp [wrapping, hinfo, herr]
  · exact herr

end Managers

theorem paging_tiles_iff (s : Slice α) (names : Slice String) (offset limit size : Int64)
    (hsize : 1 ≤ size.toInt) (fetch : String → Except GoError T) (isNotFound : GoError → Bool)
    (hfetch : OnlyNotFound fetch isNotFound names.items) :
    (pageSlice s offset limit = some (window s.items offset limit, s.len) ↔
      ¬Overflows s offset limit) ∧
    (joined (slicePage s size) (pageCount s.items.length size.toInt.toNat) = some s.items ↔
      EndsFit s.items.length size) ∧
    (joined (infoPage names size fetch isNotFound)
        (pageCount names.items.length size.toInt.toNat) = some (found fetch names.items) ↔
      EndsFit names.items.length size) := by
  refine ⟨pageSlice_eq_iff, ⟨?_, joined_slicePage_of_endsFit hsize⟩, ?_, ?_⟩
  · intro h
    by_contra hends
    rw [joined_slicePage_of_not_endsFit hsize hends] at h
    cases h
  · intro h
    by_contra hends
    rw [joined_infoPage hfetch, joined_slicePage_of_not_endsFit hsize hends] at h
    cases h
  · intro hends
    rw [joined_infoPage hfetch, joined_slicePage_of_endsFit hsize hends, Option.map_some]

-- Three streams in pages of two. The second has vanished.
def streams : Slice String := ⟨["a", "b", "c"], by decide⟩

def vanished (name : String) : Except GoError String :=
  if name = "b" then .error (.sentinel .errStreamNotFound) else .ok name

theorem paging_tiles_streams :
    pageSlice streams 1 2 = some (["b", "c"], 3) ∧
    joined (slicePage streams 2) 2 = some ["a", "b", "c"] ∧
    joined (infoPage streams 2 vanished (·.is .errStreamNotFound)) 2 = some ["a", "c"] := by
  have hvanished : OnlyNotFound vanished (·.is .errStreamNotFound) streams.items := by
    intro name _ err herr
    unfold vanished at herr
    split_ifs at herr
    cases herr
    rfl
  obtain ⟨hpage, hlist, hinfos⟩ := paging_tiles_iff streams streams 1 2 2 (by decide) vanished
    (·.is .errStreamNotFound) hvanished
  have hends : EndsFit streams.items.length 2 := endsFit_of_le (by decide) 2
  refine ⟨hpage.mpr ?_, hlist.mpr hends, ?_⟩
  · intro hover
    exact absurd hover.2.2 (by decide)
  · exact (hinfos.mpr hends).trans (by decide)

-- All but the first of two streams, with the largest limit.
theorem paging_panics :
    pageSlice (⟨["a", "b"], by decide⟩ : Slice String) 1 Int64.maxValue = none ∧
      window ["a", "b"] 1 Int64.maxValue = ["b"] := by
  decide

end NatsClient.Page
