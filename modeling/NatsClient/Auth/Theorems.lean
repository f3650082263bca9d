import Mathlib.Data.List.TakeWhile
import NatsClient.Auth
import NatsClient.Validate.Keys

namespace NatsClient.Auth

-- An address of either form that nats.go takes.
structure Address where
  scheme : Option (List Char)
  user : Option Userinfo
  host : List Char
  scheme_ok : ∀ s, scheme = some s → isScheme s = true
  host_ok : isHost host = true

-- An address in a list, with the blanks around it.
structure Entry where
  before : List Char
  address : Address
  after : List Char
  before_blank : ∀ c ∈ before, isSpace c = true
  after_blank : ∀ c ∈ after, isSpace c = true

def Userinfo.text (u : Userinfo) : List Char := u.name ++ u.password.elim [] (':' :: ·)

namespace Address

def authority (a : Address) : List Char := a.user.elim [] (·.text ++ ['@']) ++ a.host

def text (a : Address) : List Char := a.scheme.elim [] (· ++ "://".toList) ++ a.authority

end Address

def Entry.text (e : Entry) : List Char := e.before ++ e.address.text ++ e.after

def render (entries : List Entry) : String :=
  String.ofList ([','].intercalate (entries.map Entry.text))

section Characters

variable {c : Char} {w : List Char}

theorem ne_of_isAlphanum (h : c.isAlphanum = true) {d : Char} (hd : d.isAlphanum = false) :
    c ≠ d := by
  rintro rfl
  rw [hd] at h
  cases h

theorem isSpace_of_isAlphanum (h : c.isAlphanum = true) : isSpace c = false :=
  Validate.isSpace_eq_false (by simp [isKVKeyChar, h])

theorem isAlphanum_of_isWord (h : isWord w = true) (hc : c ∈ w) : c.isAlphanum = true := by
  simp only [isWord, Bool.and_eq_true, List.all_eq_true] at h
  exact h.2 c hc

theorem not_mem_of_isWord (h : isWord w = true) (hc : c.isAlphanum = false) : c ∉ w :=
  fun hmem => ne_of_isAlphanum (isAlphanum_of_isWord h hmem) hc rfl

-- The characters of a scheme.
theorem mem_scheme (h : isScheme w = true) (hc : c ∈ w) :
    c.isAlphanum = true ∨ c ∈ ['+', '-', '.'] := by
  cases w with
  | nil => cases h
  | cons first rest =>
    simp only [isScheme, Bool.and_eq_true, List.all_eq_true, Bool.or_eq_true,
      decide_eq_true_eq] at h
    rcases List.mem_cons.mp hc with rfl | hc
    · exact .inl (by simp [Char.isAlphanum, h.1])
    · exact h.2 c hc

theorem mem_host (h : isHost w = true) (hc : c ∈ w) :
    c ∉ ['@', '/', '?', '#', ','] ∧ isSpace c = false := by
  simp only [isHost, Bool.and_eq_true, List.all_eq_true, decide_eq_true_eq,
    Bool.not_eq_true'] at h
  exact h.2 c hc

theorem host_ne_nil (h : isHost w = true) : w ≠ [] := by
  rintro rfl
  cases h

end Characters

section Userinfo

variable (u : Userinfo)

theorem mem_userinfo {c : Char} (hc : c ∈ u.text) : c.isAlphanum = true ∨ c = ':' := by
  unfold Userinfo.text at hc
  rcases List.mem_append.mp hc with hc | hc
  · exact .inl (isAlphanum_of_isWord u.name_word hc)
  · cases hp : u.password with
    | none =>
      rw [hp] at hc
      cases hc
    | some p =>
      rw [hp] at hc
      rcases List.mem_cons.mp hc with rfl | hc
      · exact .inr rfl
      · exact .inl (isAlphanum_of_isWord (u.password_word p hp) hc)

theorem userinfo?_text : userinfo? u.text = some u := by
  obtain ⟨name, password, hname, hpassword⟩ := u
  have hcolon : ':' ∉ name := not_mem_of_isWord hname (by decide)
  unfold Userinfo.text userinfo?
  cases password with
  | none =>
    simp only [Option.elim_none, List.append_nil, List.splitOn_eq_singleton hcolon, dif_pos hname]
  | some p =>
    have hp := hpassword p rfl
    have hsplit : (name ++ ':' :: p).splitOn ':' = [name, p] := by
      rw [List.splitOn_append_cons_self_of_not_mem hcolon,
        List.splitOn_eq_singleton (not_mem_of_isWord hp (by decide))]
    simp only [Option.elim_some, hsplit, dif_pos hname, dif_pos hp]

theorem userinfo_injective {u v : Userinfo} (h : u.text = v.text) : u = v := by
  have hu := userinfo?_text u
  rw [h, userinfo?_text] at hu
  exact (Option.some.inj hu).symm

end Userinfo

namespace Address

variable (a : Address)

-- A character that no part of an address but its separators can have.
theorem not_mem_authority {c : Char} (hword : c.isAlphanum = false) (hcolon : c ≠ ':')
    (hat : c ≠ '@') (hhost : c ∈ ['@', '/', '?', '#', ','] ∨ isSpace c = true) :
    c ∉ a.authority := by
  intro hc
  unfold authority at hc
  rcases List.mem_append.mp hc with hc | hc
  · cases hu : a.user with
    | none =>
      rw [hu] at hc
      cases hc
    | some u =>
      rw [hu] at hc
      rcases List.mem_append.mp hc with hc | hc
      · rcases mem_userinfo u hc with h | h
        · exact ne_of_isAlphanum h hword rfl
        · exact hcolon h
      · exact hat (List.mem_singleton.mp hc)
  · obtain ⟨hends, hspace⟩ := mem_host a.host_ok hc
    rcases hhost with h | h
    · exact hends h
    · rw [h] at hspace
      cases hspace

theorem authority?_eq : authority? a.authority = some (a.user, a.host) := by
  have hhost : '@' ∉ a.host := fun hc => (mem_host a.host_ok hc).1 (by decide)
  unfold authority authority?
  cases hu : a.user with
  | none =>
    simp only [Option.elim_none, List.nil_append, List.splitOn_eq_singleton hhost, a.host_ok,
      if_true]
  | some u =>
    have hat : '@' ∉ u.text := by
      intro hc
      rcases mem_userinfo u hc with h | h
      · exact ne_of_isAlphanum h (by decide) rfl
      · cases h
    have hsplit : (u.text ++ ['@'] ++ a.host).splitOn '@' = [u.text, a.host] := by
      rw [List.append_assoc, List.singleton_append,
        List.splitOn_append_cons_self_of_not_mem hat, List.splitOn_eq_singleton hhost]
    simp only [Option.elim_some, hsplit, a.host_ok, if_true, userinfo?_text, Option.map_some]

theorem absolute?_of_scheme {s : List Char} (h : a.scheme = some s) :
    absolute? a.text = some ⟨s, a.user, a.host⟩ := by
  have hcolon : ∀ c ∈ s, decide (c ≠ ':') = true := by
    intro c hc
    rcases mem_scheme (a.scheme_ok s h) hc with hc | hc
    · exact decide_eq_true (ne_of_isAlphanum hc (by decide))
    · refine decide_eq_true ?_
      rintro rfl
      revert hc
      decide
  have htext : a.text = s ++ ':' :: '/' :: '/' :: a.authority := by
    simp [text, h]
  have hdrop : a.text.dropWhile (· ≠ ':') = ':' :: '/' :: '/' :: a.authority := by
    rw [htext, List.dropWhile_append_of_pos hcolon]
    rfl
  have htake : a.text.takeWhile (· ≠ ':') = s := by
    rw [htext, List.takeWhile_append_of_pos hcolon]
    exact List.append_nil s
  simp only [absolute?, hdrop, htake, a.scheme_ok s h, if_true, authority?_eq, Option.map_some]

theorem slash_not_mem_text (h : a.scheme = none) : '/' ∉ a.text := by
  simp only [text, h, Option.elim_none, List.nil_append]
  exact a.not_mem_authority (by decide) (by decide) (by decide) (by decide)

theorem absolute?_of_schemeless (h : a.scheme = none) : absolute? a.text = none := by
  unfold absolute?
  split
  · next authority hdrop =>
      have hmem : '/' ∈ a.text.dropWhile (· ≠ ':') := by
        rw [hdrop]
        exact .tail _ (.head _)
      exact absurd ((List.dropWhile_suffix _).subset hmem) (a.slash_not_mem_text h)
  · rfl

-- What Parse makes of an address: of one without a scheme nothing that has a User.
theorem parse_of_schemeless (net : NetUrl) (h : a.scheme = none) (parsed : Parsed)
    (hparse : net.parse a.text = some parsed) : parsed.username = none := by
  unfold NetUrl.parse at hparse
  rw [a.absolute?_of_schemeless h] at hparse
  refine net.other_user a.text parsed hparse fun hin => ?_
  exact a.slash_not_mem_text h (hin.subset (by decide))

theorem parse_of_scheme (net : NetUrl) {s : List Char} (h : a.scheme = some s) :
    net.parse a.text = (net.host a.host).map fun shown =>
      ⟨a.user.map Userinfo.name, s.map Char.toLower ++ "://".toList ++ shown⟩ := by
  unfold NetUrl.parse
  rw [a.absolute?_of_scheme h]

theorem text_ne_nil : a.text ≠ [] := by
  simp [text, authority, host_ne_nil a.host_ok]

theorem not_mem_text {c : Char} (hword : c.isAlphanum = false)
    (hsep : c ∉ [':', '@', '/', '+', '-', '.'])
    (hhost : c ∈ ['@', '/', '?', '#', ','] ∨ isSpace c = true) : c ∉ a.text := by
  have hsep' : c ≠ ':' ∧ c ≠ '@' ∧ c ≠ '/' ∧ c ≠ '+' ∧ c ≠ '-' ∧ c ≠ '.' := by
    simpa [List.mem_cons, not_or] using hsep
  intro hc
  unfold text at hc
  rcases List.mem_append.mp hc with hc | hc
  · cases hs : a.scheme with
    | none =>
      rw [hs] at hc
      cases hc
    | some s =>
      rw [hs] at hc
      rcases List.mem_append.mp hc with hc | hc
      · rcases mem_scheme (a.scheme_ok s hs) hc with h | h
        · exact ne_of_isAlphanum h hword rfl
        · simp only [List.mem_cons, List.not_mem_nil, or_false] at h
          tauto
      · have hin : c = ':' ∨ c = '/' ∨ c = '/' := by simpa using hc
        tauto
  · exact a.not_mem_authority hword hsep'.1 hsep'.2.1 hhost hc

theorem isSpace_of_mem_text {c : Char} (hc : c ∈ a.text) : isSpace c = false := by
  by_contra hspace
  rw [Bool.not_eq_false] at hspace
  refine a.not_mem_text ?_ ?_ (.inr hspace) hc
  · by_contra hword
    rw [isSpace_of_isAlphanum (by simpa using hword)] at hspace
    cases hspace
  · intro hsep
    simp only [List.mem_cons, List.not_mem_nil, or_false] at hsep
    rcases hsep with rfl | rfl | rfl | rfl | rfl | rfl <;> revert hspace <;> decide

theorem comma_not_mem_text : ',' ∉ a.text :=
  a.not_mem_text (by decide) (by decide) (by decide)

end Address

section Lists

theorem dropWhile_blank {blank text : List Char} (hblank : ∀ c ∈ blank, isSpace c = true)
    (htext : ∀ c ∈ text.head?, isSpace c = false) :
    (blank ++ text).dropWhile isSpace = text := by
  rw [List.dropWhile_append_of_pos hblank]
  cases text with
  | nil => rfl
  | cons c rest =>
    have hc : isSpace c = false := htext c rfl
    exact List.dropWhile_cons_of_neg (by simp [hc])

-- TrimSpace finds the address between the blanks.
theorem trimmed_text (e : Entry) : trimmed e.text = e.address.text := by
  have hne := e.address.text_ne_nil
  have hfirst : (e.text.dropWhile isSpace) = e.address.text ++ e.after := by
    rw [Entry.text, List.append_assoc]
    refine dropWhile_blank e.before_blank fun c hc => ?_
    rw [List.head?_append_of_ne_nil _ hne] at hc
    exact e.address.isSpace_of_mem_text (List.mem_of_head? hc)
  have hlast : (e.address.text ++ e.after).reverse.dropWhile isSpace =
      e.address.text.reverse := by
    rw [List.reverse_append]
    refine dropWhile_blank (fun c hc => e.after_blank c (List.mem_reverse.mp hc)) fun c hc => ?_
    exact e.address.isSpace_of_mem_text (List.mem_reverse.mp (List.mem_of_head? hc))
  simp only [trimmed, trimSpace, String.toList_ofList, hfirst, hlast, List.reverse_reverse]

theorem comma_not_mem_entry (e : Entry) : ',' ∉ e.text := by
  have hblank : isSpace ',' = false := by decide
  intro hc
  simp only [Entry.text, List.append_assoc, List.mem_append] at hc
  rcases hc with hc | hc | hc
  · rw [e.before_blank _ hc] at hblank
    cases hblank
  · exact e.address.comma_not_mem_text hc
  · rw [e.after_blank _ hc] at hblank
    cases hblank

theorem parts_render {entries : List Entry} (hne : entries ≠ []) :
    parts (render entries) = entries.map Entry.text := by
  rw [parts, render, String.toList_ofList]
  refine List.splitOn_intercalate ',' (fun text htext => ?_) (by simpa using hne)
  obtain ⟨e, _, rfl⟩ := List.mem_map.mp htext
  exact comma_not_mem_entry e

theorem render_ne_empty {entries : List Entry} (hne : entries ≠ []) : render entries ≠ "" := by
  intro hempty
  have hparts := parts_render hne
  obtain ⟨e, rest, rfl⟩ := List.exists_cons_of_ne_nil hne
  have hnil : ([[]] : List (List Char)) = (e :: rest).map Entry.text := by
    rw [← hparts, hempty]
    rfl
  have htext : e.text = [] := (List.cons.inj hnil).1.symm
  have haddress := e.address.text_ne_nil
  simp [Entry.text, haddress] at htext

-- Joined lists are equal part by part, where the parts that can differ have no comma.
theorem intercalate_inj {left right : List (List Char)}
    (h : List.Forall₂ (fun p q => p = q ∨ ',' ∉ p ∧ ',' ∉ q) left right) :
    [','].intercalate left = [','].intercalate right ↔ left = right := by
  refine ⟨fun heq => ?_, fun heq => by rw [heq]⟩
  induction h with
  | nil => rfl
  | @cons p q left right hpq hrest ih =>
    cases hrest with
    | nil =>
      rw [List.intercalate_singleton, List.intercalate_singleton] at heq
      rw [heq]
    | cons _ _ =>
      rw [List.intercalate_cons_of_ne_nil (List.cons_ne_nil _ _),
        List.intercalate_cons_of_ne_nil (List.cons_ne_nil _ _), List.append_assoc,
        List.append_assoc, List.singleton_append, List.singleton_append] at heq
      obtain rfl : p = q := hpq.elim id fun hcomma =>
        (Lib.Words.append_cons_inj_left hcomma.1 hcomma.2 heq).1
      rw [ih (List.cons.inj (List.append_cancel_left heq)).2]

end Lists

section Redaction

variable (net : NetUrl)

-- The credentials of the address stay where Parse sees none: without a scheme, or in a text that
-- it rejects.
def Exposed (a : Address) : Prop := a.scheme = none ∨ net.host a.host = none

theorem redactPart_of_exposed {e : Entry} (h : Exposed net e.address) :
    redactPart net e.text = e.address.text := by
  unfold redactPart
  rw [trimmed_text]
  cases hs : e.address.scheme with
  | none =>
    split
    · next username _ hparse =>
        cases e.address.parse_of_schemeless net hs _ hparse
    · rfl
  | some s =>
    have hhost : net.host e.address.host = none := h.resolve_left (by simp [hs])
    rw [e.address.parse_of_scheme net hs, hhost]
    rfl

theorem redactPart_of_not_exposed {e : Entry} (h : ¬ Exposed net e.address) :
    ∃ s shown, e.address.scheme = some s ∧ net.host e.address.host = some shown ∧
      redactPart net e.text = e.address.user.elim e.address.text
        fun _ => s.map Char.toLower ++ "://".toList ++ shown := by
  obtain ⟨hscheme, hhost⟩ := not_or.mp h
  obtain ⟨s, hs⟩ := Option.ne_none_iff_exists'.mp hscheme
  obtain ⟨shown, hshown⟩ := Option.ne_none_iff_exists'.mp hhost
  refine ⟨s, shown, hs, hshown, ?_⟩
  unfold redactPart
  rw [trimmed_text, e.address.parse_of_scheme net hs, hshown]
  cases e.address.user <;> rfl

-- The addresses differ in the values of user and password only.
structure Alike (e f : Entry) : Prop where
  before : e.before = f.before
  after : e.after = f.after
  scheme : e.address.scheme = f.address.scheme
  host : e.address.host = f.address.host
  user : e.address.user.map (·.password.isSome) = f.address.user.map (·.password.isSome)

variable {e f : Entry}

theorem Alike.text_eq_iff (h : Alike e f) :
    e.address.text = f.address.text ↔ e.address.user = f.address.user := by
  have huser := h.user
  simp only [Address.text, Address.authority, h.scheme, h.host, List.append_cancel_left_eq,
    List.append_cancel_right_eq]
  cases hu : e.address.user with
  | none =>
    cases hv : f.address.user with
    | none => simp
    | some v => simp [hu, hv] at huser
  | some u =>
    cases hv : f.address.user with
    | none => simp [hu, hv] at huser
    | some v =>
      simp only [Option.elim_some, List.append_cancel_right_eq, Option.some.injEq]
      exact ⟨userinfo_injective, fun heq => by rw [heq]⟩

theorem Alike.exposed_iff (h : Alike e f) : Exposed net e.address ↔ Exposed net f.address := by
  unfold Exposed
  rw [h.scheme, h.host]

theorem Alike.redactPart_eq_iff (h : Alike e f) :
    redactPart net e.text = redactPart net f.text ↔
      (Exposed net e.address → e.address.user = f.address.user) := by
  by_cases hexposed : Exposed net e.address
  · rw [redactPart_of_exposed net hexposed,
      redactPart_of_exposed net ((h.exposed_iff net).mp hexposed), h.text_eq_iff]
    exact ⟨fun heq _ => heq, fun heq => heq hexposed⟩
  · refine iff_of_true ?_ fun hyes => absurd hyes hexposed
    obtain ⟨s, shown, hs, hshown, he⟩ := redactPart_of_not_exposed net hexposed
    obtain ⟨s', shown', hs', hshown', hf⟩ :=
      redactPart_of_not_exposed net (mt (h.exposed_iff net).mpr hexposed)
    obtain rfl : s = s' := Option.some.inj (hs.symm.trans (h.scheme.trans hs'))
    obtain rfl : shown = shown' := by
      rw [h.host] at hshown
      exact Option.some.inj (hshown.symm.trans hshown')
    have huser := h.user
    rw [he, hf]
    cases hu : e.address.user with
    | none =>
      cases hv : f.address.user with
      | none => exact h.text_eq_iff.mpr (hu.trans hv.symm)
      | some v => simp [hu, hv] at huser
    | some u =>
      cases hv : f.address.user with
      | none => simp [hu, hv] at huser
      | some v => rfl

-- Parts that can differ are addresses as they were.
theorem Alike.comma (h : Alike e f) :
    redactPart net e.text = redactPart net f.text ∨
      ',' ∉ redactPart net e.text ∧ ',' ∉ redactPart net f.text := by
  by_cases hexposed : Exposed net e.address
  · rw [redactPart_of_exposed net hexposed,
      redactPart_of_exposed net ((h.exposed_iff net).mp hexposed)]
    exact .inr ⟨e.address.comma_not_mem_text, f.address.comma_not_mem_text⟩
  · exact .inl ((h.redactPart_eq_iff net).mpr fun hyes => absurd hyes hexposed)

theorem redact_render {entries : List Entry} (hne : entries ≠ []) :
    redactURLString net (render entries) =
      String.ofList ([','].intercalate (entries.map fun e => redactPart net e.text)) := by
  rw [redactURLString, if_neg (render_ne_empty hne), parts_render hne, List.map_map,
    Function.comp_def]

end Redaction

-- Two lists that differ in credentials only look the same exactly if the credentials agree
-- wherever they are exposed.
theorem redactURLString_eq_iff (net : NetUrl) (left right : List Entry)
    (h : List.Forall₂ Alike left right) :
    redactURLString net (render left) = redactURLString net (render right) ↔
      List.Forall₂ (fun e f => Exposed net e.address → e.address.user = f.address.user)
        left right := by
  cases h with
  | nil => exact iff_of_true rfl .nil
  | @cons e f left right hef hrest =>
    have hall : List.Forall₂ Alike (e :: left) (f :: right) := .cons hef hrest
    rw [redact_render net (List.cons_ne_nil e left), redact_render net (List.cons_ne_nil f right),
      String.ofList_inj, intercalate_inj]
    · rw [← List.forall₂_eq_eq_eq, List.forall₂_map_left_iff, List.forall₂_map_right_iff]
      constructor
      · exact List.Forall₂.mp (fun _ _ h => (h.redactPart_eq_iff net).mp) hall
      · exact List.Forall₂.mp (fun _ _ h => (h.redactPart_eq_iff net).mpr) hall
    · rw [List.forall₂_map_left_iff, List.forall₂_map_right_iff]
      exact hall.imp fun _ _ h => h.comma net

-- A parser that takes every host. What stands behind a scheme without slashes it keeps as it is,
-- without a User, and it rejects all other texts.
def strict : NetUrl where
  host := some
  other text :=
    let scheme := text.takeWhile (· ≠ ':')
    if isScheme scheme ∧ scheme ≠ text ∧ text[scheme.length + 1]? ≠ some '/' then
      some ⟨none, scheme.map Char.toLower ++ text.drop scheme.length⟩
    else none
  other_user _ _ h _ := by
    dsimp only at h
    split_ifs at h
    cases h
    rfl

def word (name password : String) (h : isWord name.toList = true ∧ isWord password.toList = true) :
    Userinfo where
  name := name.toList
  password := some password.toList
  name_word := h.1
  password_word := by
    rintro p ⟨⟩
    exact h.2

-- tls://name:password@a, name:password@b:4222
def cluster (first second : Userinfo) : List Entry :=
  [⟨[], ⟨some "tls".toList, some first, "a".toList, by decide, by decide⟩, [], by simp, by simp⟩,
    ⟨[' '], ⟨none, some second, "b:4222".toList, by simp, by decide⟩, [],
      List.forall_mem_singleton.mpr rfl, by simp⟩]

theorem alike_cluster (first second first' second' : Userinfo)
    (hfirst : first.password.isSome = first'.password.isSome)
    (hsecond : second.password.isSome = second'.password.isSome) :
    List.Forall₂ Alike (cluster first second) (cluster first' second') :=
  .cons ⟨rfl, rfl, rfl, rfl, by simp [hfirst]⟩
    (.cons ⟨rfl, rfl, rfl, rfl, by simp [hsecond]⟩ .nil)

def alice : Userinfo := word "alice" "s3cret" (by decide)

def bob : Userinfo := word "bob" "hunter2" (by decide)

theorem redactURLString_cluster :
    redactURLString strict (render (cluster alice alice)) =
      redactURLString strict (render (cluster bob alice)) := by
  have halike := alike_cluster alice alice bob alice rfl rfl
  refine (redactURLString_eq_iff strict (cluster alice alice) (cluster bob alice) halike).mpr ?_
  refine .cons (fun hexposed => ?_) (.cons (fun _ => rfl) .nil)
  rcases hexposed with h | h <;> cases h

theorem redactURLString_exposes :
    List.Forall₂ Alike (cluster alice alice) (cluster alice bob) ∧
      redactURLString strict (render (cluster alice alice)) = "tls://a,alice:s3cret@b:4222" ∧
      redactURLString strict (render (cluster alice bob)) = "tls://a,bob:hunter2@b:4222" :=
  ⟨alike_cluster alice alice alice bob rfl rfl, by decide, by decide⟩

-- A configured address counts as a mechanism of authentication exactly if Parse sees its user.
theorem addressHasUserinfo_iff (net : NetUrl) (entries : List Entry) :
    addressHasUserinfo net (render entries) = true ↔
      ∃ e ∈ entries, ¬ Exposed net e.address ∧ e.address.user ≠ none := by
  by_cases hne : entries = []
  · subst hne
    simp [render, addressHasUserinfo]
  rw [addressHasUserinfo, if_neg (render_ne_empty hne), parts_render hne, List.any_map,
    List.any_eq_true]
  refine exists_congr fun e => and_congr_right fun _ => ?_
  simp only [Function.comp_apply, trimmed_text]
  cases hs : e.address.scheme with
  | none =>
    have hexposed : Exposed net e.address := .inl hs
    simp only [hexposed, not_true_eq_false, false_and, iff_false]
    split
    · next hparse => cases e.address.parse_of_schemeless net hs _ hparse
    · simp
  | some s =>
    rw [e.address.parse_of_scheme net hs]
    cases hhost : net.host e.address.host with
    | none =>
      have hexposed : Exposed net e.address := .inr hhost
      simp [hexposed]
    | some shown =>
      have hexposed : ¬ Exposed net e.address := by simp [Exposed, hs, hhost]
      cases hu : e.address.user with
      | none => simp [hexposed]
      | some u =>
        have hname : u.name ≠ [] := by
          intro hnil
          have hword := u.name_word
          rw [hnil] at hword
          cases hword
        simp [hexposed, hname]

end NatsClient.Auth
