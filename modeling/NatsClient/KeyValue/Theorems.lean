import NatsClient.KeyValue
import NatsClient.Page.Theorems

namespace NatsClient.KeyValue

open Lib.Machine

variable {C : Type} [DecidableEq C] {u : Setup C} {s t : State C} {a : Act C}
  {bucket key value : Bytes}

-- The names pass, and the bucket is there.
def Accepted (keyValue : Bytes → Option GoError) (bucket key : Bytes) : Prop :=
  Validate.validateBucketName bucket = none ∧ Validate.validateKVKey key = none ∧
    keyValue bucket = none

theorem writeErr_eq_none_iff {keyValue : Bytes → Option GoError} {verb : String}
    {err : Option GoError} :
    writeErr keyValue verb bucket key err = none ↔ Accepted keyValue bucket key ∧ err = none := by
  simp only [writeErr, Accepted, Option.or_eq_none_iff, Option.map_eq_none_iff, and_assoc]

-- A write to the key that the broker carries out.
def Writes (u : Setup C) (bucket key : Bytes) (a : Act C) : Prop :=
  ∃ d now, a = .write d now none ∧ (u.request d).place = (bucket, key)

-- A step leaves all buckets alone, or it gives one key the next revision of its bucket.
inductive Move (u : Setup C) (s t : State C) (a : Act C) : Prop
  | quiet (buckets : t.bucket = s.bucket)
      (refused : ∀ bucket key, Writes u bucket key a → ¬ Accepted u.keyValue bucket key)
  | store (bucket key : Bytes) (writes : ∀ b k, Writes u b k a ↔ (b, k) = (bucket, key))
      (entry : Option Stored)
      (fresh : ∀ stored, entry = some stored → stored.revision = (s.bucket bucket).revision + 1)
      (buckets : t.bucket = Function.update s.bucket bucket
        ⟨(s.bucket bucket).revision + 1, Function.update (s.bucket bucket).entry key entry⟩)

omit [DecidableEq C] in
theorem writes_write_iff {c : C} {now : Nat} {err : Option GoError} :
    Writes u bucket key (.write c now err) ↔
      err = none ∧ (u.request c).place = (bucket, key) := by
  constructor
  · rintro ⟨d, now, hact, hplace⟩
    obtain ⟨rfl, rfl, rfl⟩ := Act.write.inj hact
    exact ⟨rfl, hplace⟩
  · rintro ⟨rfl, hplace⟩
    exact ⟨c, now, rfl, hplace⟩

omit [DecidableEq C] in
theorem not_accepted_of_writeErr {verb : String} {c : C} {now : Nat} {err : Option GoError}
    {e : GoError} (hplace : (u.request c).place = (bucket, key))
    (herr : writeErr u.keyValue verb bucket key err = some e) (b k : Bytes)
    (hwrites : Writes u b k (.write c now err)) : ¬ Accepted u.keyValue b k := by
  obtain ⟨rfl, hw⟩ := writes_write_iff.mp hwrites
  obtain ⟨rfl, rfl⟩ := Prod.mk.inj (hplace.symm.trans hw)
  intro haccepted
  rw [writeErr_eq_none_iff.mpr ⟨haccepted, rfl⟩] at herr
  cases herr

omit [DecidableEq C] in
theorem writes_iff_of_writeErr {verb : String} {c : C} {now : Nat} {err : Option GoError}
    (hplace : (u.request c).place = (bucket, key))
    (herr : writeErr u.keyValue verb bucket key err = none) (b k : Bytes) :
    Writes u b k (.write c now err) ↔ (b, k) = (bucket, key) := by
  rw [writes_write_iff, hplace, eq_comm (a := (b, k))]
  exact and_iff_right (writeErr_eq_none_iff.mp herr).2

theorem step_move (h : step u s a = some t) : Move u s t a := by
  cases a with
  | write c now err =>
    simp only [step] at h
    split at h
    · next bucket key value _ hrequest =>
        have hplace : (u.request c).place = (bucket, key) := by rw [hrequest]; rfl
        split at h
        · next e herr =>
            cases h
            exact .quiet rfl (not_accepted_of_writeErr hplace herr)
        · next herr =>
            cases h
            refine .store bucket key (writes_iff_of_writeErr hplace herr) _ ?_ rfl
            rintro stored ⟨⟩
            rfl
    · next bucket key _ hrequest =>
        have hplace : (u.request c).place = (bucket, key) := by rw [hrequest]; rfl
        split at h
        · next e herr =>
            cases h
            exact .quiet rfl (not_accepted_of_writeErr hplace herr)
        · next herr =>
            cases h
            refine .store bucket key (writes_iff_of_writeErr hplace herr) none ?_ rfl
            rintro stored ⟨⟩
    · cases h
  | read c err =>
    simp only [step] at h
    split at h
    · cases h
      refine .quiet rfl ?_
      rintro b k ⟨d, now, hact, _⟩
      cases hact
    · cases h

-- What the other writes leave of an entry.
theorem step_apart (h : step u s a = some t) (ha : ¬ Writes u bucket key a) :
    (t.bucket bucket).entry key = (s.bucket bucket).entry key := by
  cases step_move h with
  | quiet hbuckets _ => rw [hbuckets]
  | store b k hwrites entry _ hbuckets =>
    rw [hbuckets]
    by_cases hb : bucket = b
    · subst hb
      have hk : key ≠ k := fun hk => ha ((hwrites bucket key).mpr (by rw [hk]))
      simp only [Function.update_self, Function.update_of_ne hk]
    · rw [Function.update_of_ne hb]

theorem revision_le (h : step u s a = some t) (bucket : Bytes) :
    (s.bucket bucket).revision ≤ (t.bucket bucket).revision := by
  cases step_move h with
  | quiet hbuckets _ => rw [hbuckets]
  | store b k _ _ _ hbuckets =>
    rw [hbuckets]
    by_cases hb : bucket = b
    · subst hb
      rw [Function.update_self]
      exact Nat.le_succ _
    · rw [Function.update_of_ne hb]

-- The key holds nothing that is as old as the revision.
structure Newer (bucket key : Bytes) (revision : Nat) (s : State C) : Prop where
  entry : ∀ stored, (s.bucket bucket).entry key = some stored → revision < stored.revision
  bucket : revision ≤ (s.bucket bucket).revision

theorem newer_of_writes {revision : Nat} (haccepted : Accepted u.keyValue bucket key)
    (h : step u s a = some t) (ha : Writes u bucket key a)
    (hrevision : revision ≤ (s.bucket bucket).revision) : Newer bucket key revision t := by
  refine ⟨fun stored hstored => ?_, Nat.le_trans hrevision (revision_le h bucket)⟩
  cases step_move h with
  | quiet _ hrefused => exact absurd haccepted (hrefused bucket key ha)
  | store b k hwrites entry hfresh hbuckets =>
    obtain ⟨rfl, rfl⟩ := Prod.mk.inj ((hwrites bucket key).mp ha)
    simp only [hbuckets, Function.update_self] at hstored
    rw [hfresh stored hstored]
    exact Nat.lt_succ_of_le hrevision

theorem Newer.step {revision : Nat} (haccepted : Accepted u.keyValue bucket key)
    (hs : Newer bucket key revision s) (h : step u s a = some t) : Newer bucket key revision t := by
  by_cases ha : Writes u bucket key a
  · exact newer_of_writes haccepted h ha hs.bucket
  · refine ⟨fun stored hstored => ?_, Nat.le_trans hs.bucket (revision_le h bucket)⟩
    rw [step_apart h ha] at hstored
    exact hs.entry stored hstored

-- The last write before the state decides.
theorem newer_of_run {revision : Nat} {acts : List (Act C)}
    (haccepted : Accepted u.keyValue bucket key) (hexec : exec (step u) s acts = some t)
    (hrevision : revision ≤ (s.bucket bucket).revision)
    (hwrites : ∃ a ∈ acts, Writes u bucket key a) : Newer bucket key revision t := by
  obtain ⟨a, hmem, ha⟩ := hwrites
  obtain ⟨first, rest, rfl⟩ := List.append_of_mem hmem
  obtain ⟨mid, hfirst, hrest⟩ := exec_append_eq_some.mp hexec
  obtain ⟨next, hstep, hlast⟩ := exec_cons_eq_some.mp hrest
  have hmid : revision ≤ (mid.bucket bucket).revision :=
    Reaches.invariant (P := fun s : State C => revision ≤ (s.bucket bucket).revision)
      (fun s a t hs h => Nat.le_trans hs (revision_le h bucket)) ⟨first, hfirst⟩ hrevision
  exact Reaches.invariant (P := Newer bucket key revision)
    (fun s a t hs h => hs.step haccepted h) ⟨rest, hlast⟩
    (newer_of_writes haccepted hstep ha hmid)

theorem entry_of_run {acts : List (Act C)} (hexec : exec (step u) s acts = some t)
    (hwrites : ∀ a ∈ acts, ¬ Writes u bucket key a) :
    (t.bucket bucket).entry key = (s.bucket bucket).entry key :=
  (along_of_forall_mem (fun _ a => ¬ Writes u bucket key a)
    (fun a ha _ => hwrites a ha) s).invariant
    (P := fun t => (t.bucket bucket).entry key = (s.bucket bucket).entry key)
    (fun _ _ _ hs ha h => (step_apart h ha).trans hs) hexec rfl

-- The entry that Put returns is that of its own write.
def Own (t : State C) (c : C) (value : Bytes) (revision : Nat) : Prop :=
  ∃ entry, t.calls c = .returned (.ok entry) ∧ entry.value = value ∧ entry.revision = revision

theorem step_write {c : C} {now : Nat} (hrequest : u.request c = .put bucket key value)
    (haccepted : Accepted u.keyValue bucket key) (h : step u s (.write c now none) = some t) :
    t.calls c = .stored ((s.bucket bucket).revision + 1) ∧
      (t.bucket bucket).entry key = some ⟨value, (s.bucket bucket).revision + 1, now⟩ ∧
      (t.bucket bucket).revision = (s.bucket bucket).revision + 1 := by
  have hok : writeErr u.keyValue "put kv" bucket key none = none :=
    writeErr_eq_none_iff.mpr ⟨haccepted, rfl⟩
  simp only [step, hrequest] at h
  split at h
  · next heq =>
      cases heq
      rw [hok] at h
      cases h
      simp [State.goto, State.set, Bucket.put]
  · next heq => cases heq
  · cases h

theorem step_read {c : C} (hrequest : u.request c = .put bucket key value)
    (h : step u s (.read c none) = some t) :
    ∃ revision, t.calls c =
      .returned (getAfterPut bucket key revision ((s.bucket bucket).get key)) := by
  simp only [step, hrequest] at h
  split at h
  · next revision _ _ _ _ heq =>
      cases heq
      cases h
      exact ⟨revision, Function.update_self ..⟩
  · cases h

-- What Put returns is decided by what the broker finds under the key when Put reads it.
theorem own_iff_entry {c : C} {revision : Nat} (hrequest : u.request c = .put bucket key value)
    (h : step u s (.read c none) = some t) :
    Own t c value revision ↔ ∃ stored, (s.bucket bucket).entry key = some stored ∧
      stored.value = value ∧ stored.revision = revision := by
  obtain ⟨rev, hcalls⟩ := step_read hrequest h
  unfold Own
  rw [hcalls, Bucket.get]
  cases hentry : (s.bucket bucket).entry key with
  | none =>
    refine iff_of_false ?_ ?_
    · rintro ⟨entry, hreturned, _⟩
      cases hreturned
    · rintro ⟨stored, ⟨⟩, _⟩
  | some stored =>
    constructor
    · rintro ⟨entry, hreturned, hvalue, hrevision⟩
      cases hreturned
      exact ⟨stored, rfl, hvalue, hrevision⟩
    · rintro ⟨_, hstored, hvalue, hrevision⟩
      cases hstored
      exact ⟨_, rfl, hvalue, hrevision⟩

-- The write of a call, anything, and the read of the call: the entry is the one written exactly
-- if nobody wrote the key in between.
theorem put_own_iff (u : Setup C) (s t : State C) (c : C) (bucket key value : Bytes) (now : Nat)
    (between : List (Act C)) (hrequest : u.request c = .put bucket key value)
    (haccepted : Accepted u.keyValue bucket key)
    (hrun : exec (step u) s (.write c now none :: (between ++ [.read c none])) = some t) :
    Own t c value ((s.bucket bucket).revision + 1) ↔ ∀ a ∈ between, ¬ Writes u bucket key a := by
  obtain ⟨written, hwrite, hrest⟩ := exec_cons_eq_some.mp hrun
  obtain ⟨before, hbetween, hlast⟩ := exec_append_eq_some.mp hrest
  have hread : step u before (.read c none) = some t := by
    obtain ⟨_, hstep, hnil⟩ := exec_cons_eq_some.mp hlast
    cases hnil
    exact hstep
  obtain ⟨_, hentry, hrevision⟩ := step_write hrequest haccepted hwrite
  rw [own_iff_entry hrequest hread]
  constructor
  · rintro ⟨stored, hstored, _, hown⟩ a hmem ha
    have hnewer := newer_of_run haccepted hbetween hrevision.ge ⟨a, hmem, ha⟩
    exact absurd hown (Nat.ne_of_gt (hnewer.entry stored hstored))
  · intro hwrites
    rw [entry_of_run hbetween hwrites, hentry]
    exact ⟨_, rfl, rfl, rfl⟩

def blank : State Bool where
  bucket _ := ⟨0, fun _ => none⟩
  calls _ := .start

-- Two clients put a value each under keys of their own.
def neighbours : Setup Bool where
  request c := .put [98] (if c then [107] else [108]) [1]
  keyValue _ := none

theorem put_own_beside :
    ∃ t, exec (step neighbours) blank [.write true 7 none, .write false 8 none, .read true none] =
        some t ∧
      Own t true [1] 1 := by
  have hexec : (exec (step neighbours) blank
      [.write true 7 none, .write false 8 none, .read true none]).isSome := by decide
  obtain ⟨t, ht⟩ := Option.isSome_iff_exists.mp hexec
  refine ⟨t, ht, (put_own_iff neighbours blank t true [98] [107] [1] 7 [.write false 8 none] rfl
    ⟨by decide, by decide, rfl⟩ ht).mpr ?_⟩
  simp [Writes, neighbours, Request.place]

-- Two clients put different values under one key.
def rivals : Setup Bool where
  request c := .put [98] [107] (if c then [1] else [0])
  keyValue _ := none

theorem put_own_rivals :
    (exec (step rivals) blank [.write true 7 none, .write false 8 none, .read true none]).map
        (fun t => t.calls true) =
      some (.returned (.ok ⟨[98], [107], [0], 2, 8⟩)) := by
  decide

section Keys

variable {b : Bucket} {keyValue : Bytes → Option GoError}

-- With offset 0 and limit -1 ListKeys returns every key, and no error for a bucket without one.
theorem listKeys_all {answer : Except GoError (Page.Slice Bytes)}
    (hbucket : Validate.validateBucketName bucket = none) (hkeyValue : keyValue bucket = none)
    (h : b.Keys answer) :
    ∃ keys total, listKeys keyValue answer bucket 0 (-1) = some (.ok (keys, total)) ∧
      keys.Nodup ∧ ∀ key, key ∈ keys ↔ (b.entry key).isSome := by
  have hpage : ∀ s : Page.Slice Bytes, Page.pageSlice s 0 (-1) = some (s.items, s.len) :=
    fun s => Page.pageSlice_of_not_overflows fun hover => absurd hover.1 (by decide)
  cases h with
  | found hnodup hmem =>
    simp only [listKeys, hbucket, hkeyValue, hpage, Option.map_some]
    exact ⟨_, _, rfl, hnodup, hmem⟩
  | missing hnone =>
    have his : (GoError.sentinel .errNoKeysFound).is .errNoKeysFound = true := rfl
    simp only [listKeys, hbucket, hkeyValue, hpage, his, if_true, Option.map_some]
    refine ⟨[], _, rfl, List.nodup_nil, fun key => ?_⟩
    rw [hnone key]
    simp only [List.not_mem_nil, Option.isSome_none, Bool.false_eq_true]

end Keys

end NatsClient.KeyValue
