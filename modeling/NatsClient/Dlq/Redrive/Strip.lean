import Mathlib.Data.Finset.Sort
import Mathlib.Data.String.Basic
import NatsClient.Dlq.Redrive.Ids

namespace NatsClient.Dlq

-- strings.EqualFold compares the folded runes of two strings. Of the ASCII runes it takes
-- those for the same that differ in case.
structure CaseFolding where
  rune : Char → Char
  ascii : ∀ c d : Char, c.toNat < 128 → d.toNat < 128 →
    (rune c = rune d ↔ c.toLower = d.toLower)

def CaseFolding.equalFold (fold : CaseFolding) (a b : String) : Bool :=
  a.toList.map fold.rune = b.toList.map fold.rune

-- The letters' cases under which a stored message has the names of its headers.
structure Casing (fold : CaseFolding) where
  name : String → String
  folds : ∀ key, fold.equalFold (name key) key = true

section Folding

variable {fold : CaseFolding} {a b c : String}

theorem CaseFolding.equalFold_iff :
    fold.equalFold a b = true ↔ a.toList.map fold.rune = b.toList.map fold.rune := by
  simp [equalFold]

theorem CaseFolding.equalFold_trans_symm (hab : fold.equalFold a b = true)
    (hac : fold.equalFold a c = true) : fold.equalFold b c = true :=
  equalFold_iff.mpr ((equalFold_iff.mp hab).symm.trans (equalFold_iff.mp hac))

def Ascii (text : List Char) : Prop := ∀ c ∈ text, c.toNat < 128

instance : DecidablePred Ascii := fun text =>
  List.decidableBAll (fun c : Char => c.toNat < 128) text

theorem CaseFolding.map_ascii (fold : CaseFolding) {first second : List Char}
    (hf : Ascii first) (hs : Ascii second)
    (h : first.map fold.rune = second.map fold.rune) :
    first.map Char.toLower = second.map Char.toLower := by
  induction first generalizing second with
  | nil => rw [List.map_eq_nil_iff.mp h.symm]
  | cons c first ih =>
    cases second with
    | nil => cases h
    | cons d second =>
      obtain ⟨hc, hfirst⟩ := List.forall_mem_cons.mp hf
      obtain ⟨hd, hsecond⟩ := List.forall_mem_cons.mp hs
      obtain ⟨hhead, htail⟩ := List.cons_eq_cons.mp h
      exact List.cons_eq_cons.mpr ⟨(fold.ascii c d hc hd).mp hhead, ih hfirst hsecond htail⟩

-- The names under which route sets headers.
def routedKeys : List String := dlqHeaders ++ copiedHeaders

theorem routedKeys_ascii : ∀ key ∈ routedKeys, Ascii key.toList := by decide +kernel

theorem routedKeys_lower : ∀ key ∈ routedKeys, ∀ other ∈ routedKeys,
    key.toList.map Char.toLower = other.toList.map Char.toLower → key = other := by
  decide +kernel

-- No two of them differ in case only.
theorem routedKeys_folds {key other : String} (hk : key ∈ routedKeys) (ho : other ∈ routedKeys)
    (h : fold.equalFold key other = true) : key = other :=
  routedKeys_lower key hk other ho (fold.map_ascii (routedKeys_ascii key hk)
    (routedKeys_ascii other ho) (CaseFolding.equalFold_iff.mp h))

theorem Casing.name_folds (casing : Casing fold) {key other : String} (hk : key ∈ routedKeys)
    (ho : other ∈ routedKeys) (h : fold.equalFold (casing.name key) other = true) :
    key = other :=
  routedKeys_folds hk ho (CaseFolding.equalFold_trans_symm (casing.folds key) h)

theorem Casing.name_injOn (casing : Casing fold) {key other : String} (hk : key ∈ routedKeys)
    (ho : other ∈ routedKeys) (h : casing.name key = casing.name other) : key = other :=
  casing.name_folds hk ho (h ▸ casing.folds other)

end Folding

-- The headers with each name in the casing's letters.
structure Recased {fold : CaseFolding} (casing : Casing fold) (routed stored : Header) : Prop where
  kept : ∀ key values, routed.lookup key = some values →
    stored.lookup (casing.name key) = some values
  only : ∀ name values, stored.lookup name = some values →
    ∃ key, casing.name key = name ∧ routed.lookup key = some values

-- Nothing of the DLQ is found any more, and the headers left are those copied from the message.
structure Undone (s : Surroundings) {fold : CaseFolding} (casing : Casing fold) (m : Msg)
    (h : Header) : Prop where
  gone : ∀ key ∈ dlqHeaders, headerGet s h key = ""
  left : ∀ name values, h.lookup name = some values ↔
    ∃ key ∈ copiedHeaders, Header.get m.header key ≠ "" ∧ casing.name key = name ∧
      values = [Header.get m.header key]

section Strip

variable {platform : Platform} {cfg : Config} {m : Msg} {reason : String} {info : AutopsyInfo}

-- Under a name that is not of the DLQ route sets what it copies, and an id of its own.
theorem routeHeaders_lookup {key : String} (hkey : key ∉ dlqHeaders) :
    (routeHeaders platform cfg m reason info).lookup key =
      if key ∈ copiedHeaders ∧ Header.get m.header key ≠ "" then some [Header.get m.header key]
      else if key = headerMsgID then
        (platform.metadata m).map fun md => [syntheticID md.position]
      else none := by
  have hid : Header.get (labelled platform cfg m reason info) headerMsgID = suppliedID m :=
    labelled_get platform cfg m reason info (by decide)
  have hlabelled := labelled_lookup platform cfg m reason info hkey
  rw [routeHeaders_eq, hid]
  by_cases hmsg : key = headerMsgID
  · subst hmsg
    have hmem : headerMsgID ∈ copiedHeaders := by decide
    by_cases hempty : suppliedID m = ""
    · have hget : Header.get m.header headerMsgID = "" := hempty
      simp only [hmem, hget, ne_eq, not_true_eq_false, and_false, if_false] at hlabelled ⊢
      simp only [hempty, if_true]
      cases platform.metadata m with
      | none => exact hlabelled
      | some md => exact Finmap.lookup_insert _
    · rw [if_neg hempty, hlabelled, if_pos ⟨hmem, hempty⟩, if_pos ⟨hmem, hempty⟩]
  · rw [if_neg hmsg, ← hlabelled]
    split_ifs
    · cases platform.metadata m with
      | none => rfl
      | some md => exact Finmap.lookup_insert_of_ne _ hmsg
    · rfl

theorem routeHeaders_key {key : String} {values : List String}
    (h : (routeHeaders platform cfg m reason info).lookup key = some values) :
    key ∈ routedKeys := by
  by_contra hkey
  obtain ⟨hdlq, hcopied⟩ := not_or.mp fun hmem => hkey (List.mem_append.mpr hmem)
  have hmsg : key ≠ headerMsgID := fun heq => hcopied (heq ▸ by decide)
  rw [routeHeaders_lookup hdlq, if_neg fun hmem => hcopied hmem.1, if_neg hmsg] at h
  cases h

variable {s : Surroundings} {fold : CaseFolding} {casing : Casing fold} {stored : Header}

-- What is found under none of a name's casings is not found.
theorem headerGet_eq_empty (hkeys : ∀ h key, key ∈ s.keys h ↔ key ∈ h) {h : Header}
    {key : String} (hself : s.equalFold key key = true)
    (hnone : ∀ name ∈ h, s.equalFold name key = false) : headerGet s h key = "" := by
  have hlookup : h.lookup key = none := by
    rw [Finmap.lookup_eq_none]
    intro hmem
    rw [hnone key hmem] at hself
    cases hself
  have hfind : (s.keys h).find? (fun k =>
      s.equalFold k key && decide ((h.lookup k).getD [] ≠ [])) = none := by
    rw [List.find?_eq_none]
    intro name hname
    rw [hnone name ((hkeys h name).mp hname), Bool.false_and]
    exact Bool.false_ne_true
  simp only [headerGet, hlookup, hfind]

-- A header stays unless its stored name is one of the nine.
theorem stripped_lookup_iff
    (hstored : Recased casing (routeHeaders platform cfg m reason info) stored) {name : String}
    {values : List String} :
    (stripDLQHeaders stored).lookup name = some values ↔
      ∃ key, casing.name key = name ∧
        (routeHeaders platform cfg m reason info).lookup key = some values ∧
        (key ∈ dlqHeaders → casing.name key ≠ key) := by
  rw [stripDLQHeaders, foldl_erase_lookup]
  constructor
  · intro h
    split_ifs at h with hname
    obtain ⟨key, rfl, hkey⟩ := hstored.only name values h
    exact ⟨key, rfl, hkey, fun hdlq heq => hname (heq.symm ▸ hdlq)⟩
  · rintro ⟨key, rfl, hkey, hkept⟩
    have hname : casing.name key ∉ dlqHeaders := by
      intro hname
      have heq : key = casing.name key := casing.name_folds (routeHeaders_key hkey)
        (List.mem_append_left _ hname) (CaseFolding.equalFold_iff.mpr rfl)
      exact hkept (heq ▸ hname) heq.symm
    rw [if_neg hname]
    exact hstored.kept key values hkey

theorem not_mem_dlqHeaders_of_copied {key : String} (hkey : key ∈ copiedHeaders) :
    key ∉ dlqHeaders := by
  revert key
  decide

theorem copied_routed {key : String} (hkey : key ∈ copiedHeaders) : key ∈ routedKeys :=
  List.mem_append_right _ hkey

theorem dlq_routed {key : String} (hkey : key ∈ dlqHeaders) : key ∈ routedKeys :=
  List.mem_append_left _ hkey

-- What stays although it is of the DLQ is not among the headers left.
theorem Undone.asWritten
    (hstored : Recased casing (routeHeaders platform cfg m reason info) stored)
    (h : Undone s casing m (stripDLQHeaders stored)) {key : String} (hdlq : key ∈ dlqHeaders)
    (hmem : key ∈ routeHeaders platform cfg m reason info) : casing.name key = key := by
  by_contra hne
  obtain ⟨values, hvalues⟩ := Finmap.mem_iff.mp hmem
  have hstays := (stripped_lookup_iff hstored).mpr ⟨key, rfl, hvalues, fun _ => hne⟩
  obtain ⟨other, hother, -, hname, -⟩ := (h.left _ _).mp hstays
  have heq : other = key := casing.name_injOn (copied_routed hother) (dlq_routed hdlq) hname
  exact not_mem_dlqHeaders_of_copied hother (heq ▸ hdlq)

-- An id that route has made stays.
theorem Undone.ownID (hstored : Recased casing (routeHeaders platform cfg m reason info) stored)
    (h : Undone s casing m (stripDLQHeaders stored)) :
    suppliedID m ≠ "" ∨ platform.metadata m = none := by
  by_contra hown
  obtain ⟨hempty, hmeta⟩ := not_or.mp hown
  obtain ⟨md, hmd⟩ := Option.ne_none_iff_exists'.mp hmeta
  have hget : Header.get m.header headerMsgID = "" := not_not.mp hempty
  have hrouted : (routeHeaders platform cfg m reason info).lookup headerMsgID =
      some [syntheticID md.position] := by
    rw [routeHeaders_lookup (by decide), if_neg fun hcopy => hcopy.2 hget, if_pos rfl, hmd]
    rfl
  have hstays := (stripped_lookup_iff hstored).mpr
    ⟨headerMsgID, rfl, hrouted, fun hdlq => absurd hdlq (by decide)⟩
  obtain ⟨other, hother, hcarried, hname, -⟩ := (h.left _ _).mp hstays
  have heq : other = headerMsgID :=
    casing.name_injOn (copied_routed hother) (by decide) hname
  exact hcarried (heq ▸ hget)

-- Where the names are as written, what stays was routed under a name that is not of the DLQ.
theorem stripped_lookup_of_asWritten
    (hstored : Recased casing (routeHeaders platform cfg m reason info) stored)
    (hnames : ∀ key ∈ dlqHeaders, key ∈ routeHeaders platform cfg m reason info →
      casing.name key = key) {name : String} {values : List String} :
    (stripDLQHeaders stored).lookup name = some values ↔
      ∃ key, casing.name key = name ∧
        (routeHeaders platform cfg m reason info).lookup key = some values ∧
        key ∉ dlqHeaders := by
  rw [stripped_lookup_iff hstored]
  refine exists_congr fun key => and_congr_right fun _ => and_congr_right fun hrouted => ?_
  have hpresent : key ∈ routeHeaders platform cfg m reason info :=
    Finmap.mem_iff.mpr ⟨values, hrouted⟩
  exact ⟨fun h hdlq => h hdlq (hnames key hdlq hpresent), fun h hdlq => absurd hdlq h⟩

-- Without an id of its own making, route has only copied what is not of the DLQ.
theorem routeHeaders_copied (hown : suppliedID m ≠ "" ∨ platform.metadata m = none) {key : String}
    (hkey : key ∉ dlqHeaders) :
    (routeHeaders platform cfg m reason info).lookup key =
      if key ∈ copiedHeaders ∧ Header.get m.header key ≠ "" then some [Header.get m.header key]
      else none := by
  rw [routeHeaders_lookup hkey]
  split_ifs with hcopy hmsg
  · rfl
  · obtain hid | hnone := hown
    · subst hmsg
      exact absurd ⟨by decide, hid⟩ hcopy
    · rw [hnone]
      rfl
  · rfl

theorem stripped_undone (hfold : s.equalFold = fold.equalFold)
    (hkeys : ∀ h key, key ∈ s.keys h ↔ key ∈ h)
    (hstored : Recased casing (routeHeaders platform cfg m reason info) stored)
    (hnames : ∀ key ∈ dlqHeaders, key ∈ routeHeaders platform cfg m reason info →
      casing.name key = key)
    (hown : suppliedID m ≠ "" ∨ platform.metadata m = none) :
    Undone s casing m (stripDLQHeaders stored) := by
  constructor
  · intro key hdlq
    refine headerGet_eq_empty hkeys (hfold ▸ CaseFolding.equalFold_iff.mpr rfl) ?_
    intro name hname
    obtain ⟨values, hvalues⟩ := Finmap.mem_iff.mp hname
    obtain ⟨other, rfl, hrouted, hother⟩ := (stripped_lookup_of_asWritten hstored hnames).mp hvalues
    rw [hfold, Bool.eq_false_iff]
    intro hfolds
    have heq := casing.name_folds (routeHeaders_key hrouted) (dlq_routed hdlq) hfolds
    exact hother (heq ▸ hdlq)
  · intro name values
    rw [stripped_lookup_of_asWritten hstored hnames]
    constructor
    · rintro ⟨key, hname, hrouted, hdlq⟩
      rw [routeHeaders_copied hown hdlq] at hrouted
      split_ifs at hrouted with hcopy
      exact ⟨key, hcopy.1, hcopy.2, hname, (Option.some.inj hrouted).symm⟩
    · rintro ⟨key, hcopied, hcarried, hname, rfl⟩
      have hdlq := not_mem_dlqHeaders_of_copied hcopied
      exact ⟨key, hname, by rw [routeHeaders_copied hown hdlq, if_pos ⟨hcopied, hcarried⟩], hdlq⟩

end Strip

-- Stripping looks for the nine names as they are written, and it does not know an id that
-- route has made from one that the message came with.
theorem strip_undoes_route_iff (platform : Platform) (cfg : Config) (m : Msg) (reason : String)
    (info : AutopsyInfo) (fold : CaseFolding) (casing : Casing fold) (stored : Header)
    (hstored : Recased casing (routeHeaders platform cfg m reason info) stored)
    (s : Surroundings) (hfold : s.equalFold = fold.equalFold)
    (hkeys : ∀ h key, key ∈ s.keys h ↔ key ∈ h) (replay : ReplayConfig)
    (hstrip : replay.stripDLQHeaders = true) (r : Resent)
    (hr : r ∈ (replayToStream s replay).sent) (hheader : r.stored.header = stored) :
    Undone s casing m r.raw.header ↔
      (∀ key ∈ dlqHeaders, key ∈ routeHeaders platform cfg m reason info →
        casing.name key = key) ∧
      (suppliedID m ≠ "" ∨ platform.metadata m = none) := by
  have hraw : r.raw.header = stripDLQHeaders stored := by
    rw [(replayToStream_resent hr).2.2, hheader, if_pos hstrip]
  rw [hraw]
  constructor
  · intro h
    exact ⟨fun key hdlq hmem => h.asWritten hstored hdlq hmem, h.ownID hstored⟩
  · rintro ⟨hnames, hown⟩
    exact stripped_undone hfold hkeys hstored hnames hown

-- Letters of ASCII only.
def asciiFolding : CaseFolding := ⟨Char.toLower, fun _ _ _ _ => Iff.rfl⟩

def asWritten : Casing asciiFolding := ⟨id, fun _ => CaseFolding.equalFold_iff.mpr rfl⟩

theorem recased_asWritten (h : Header) : Recased asWritten h h :=
  ⟨fun _ _ hkey => hkey, fun name _ hname => ⟨name, rfl, hname⟩⟩

-- The stream of one message, with headers that are found by case too.
def caseless (stored : RawStreamMsg) : Surroundings :=
  { holding stored with
    equalFold := asciiFolding.equalFold
    keys := fun h => h.keys.sort (· ≤ ·) }

theorem caseless_keys (stored : RawStreamMsg) (h : Header) (key : String) :
    key ∈ (caseless stored).keys h ↔ key ∈ h := by
  rw [← Finmap.mem_keys]
  exact Finset.mem_sort _

def numbered : Header := (∅ : Header).insert headerMsgID ["order-5"]

theorem strip_undoes_route_iff_numbered :
    Undone (caseless ⟨1, (dlqOrder numbered).header, [31, 7]⟩) asWritten (order numbered)
      (stripDLQHeaders (dlqOrder numbered).header) := by
  have hid : suppliedID (order numbered) ≠ "" := by
    rw [suppliedID, order, numbered, Header.get_insert_self]
    decide
  exact (strip_undoes_route_iff ordersPlatform ordersDlq.withDefaults (order numbered)
    "handler_requested" ⟨"send message to dlq", []⟩ asciiFolding asWritten
    (dlqOrder numbered).header (recased_asWritten _)
    (caseless ⟨1, (dlqOrder numbered).header, [31, 7]⟩) rfl (caseless_keys _) redriveOrders rfl _
    (holding_with_sent _ _ _ ▸ List.mem_singleton.mpr rfl) rfl).mpr ⟨fun _ _ _ => rfl, .inl hid⟩

-- An order without an id comes back with the one that route gave its copy.
theorem strip_leaves_synthetic_id :
    Recased asWritten (dlqOrder ∅).header (dlqOrder ∅).header ∧
      suppliedID (order ∅) = "" ∧
      ∃ r ∈ (replayToStream (caseless ⟨1, (dlqOrder ∅).header, [31, 7]⟩) redriveOrders).sent,
        r.stored.header = (dlqOrder ∅).header ∧
        r.raw.header.lookup headerMsgID = some ["dlq-ORDERS-5"] := by
  have hnone : Header.get ∅ headerMsgID = "" := by simp [Header.get]
  refine ⟨recased_asWritten _, hnone, _,
    holding_with_sent _ _ _ ▸ List.mem_singleton.mpr rfl, rfl, ?_⟩
  show (stripDLQHeaders (dlqOrder ∅).header).lookup headerMsgID = _
  rw [stripDLQHeaders_lookup (by decide), dlqOrder, routeHeaders_lookup (by decide),
    if_neg fun hcopy => hcopy.2 hnone, if_pos rfl]
  rfl

end NatsClient.Dlq
