import Mathlib.Data.List.Infix
import NatsClient.Lib.Parties
import NatsClient.ObjectStore

namespace NatsClient.ObjectStore

open Lib.Machine Lib.Parties

variable {C : Type} {u : Setup C} {objects : Bytes × Bytes → Option Version}
  {s t : State C} {a : Act C} {bucket name : Bytes}

-- The names pass, and the bucket is there.
def Accepted (u : Setup C) (bucket name : Bytes) : Prop :=
  Validate.validateBucketName bucket = none ∧ name ≠ [] ∧ u.objectStore bucket = none

theorem openErr_eq_none_iff {what : String} :
    openErr u what bucket name = none ↔ Accepted u bucket name := by
  unfold openErr Accepted
  rw [Option.or_eq_none_iff]
  refine and_congr_right fun _ => ?_
  split_ifs with hname
  · simp [hname]
  · simp [hname]

theorem answer_eq_ok {err : Option GoError} {v : Version} (h : s.answer bucket name err = .ok v) :
    s.object (bucket, name) = some v := by
  unfold State.answer at h
  split at h
  · cases h
  · split at h
    · next heq =>
        cases h
        exact heq
    · cases h

theorem sizeOf_eq_ok {err : Option GoError} {info : ObjectInfo}
    (h : sizeOf u s bucket name err = .ok info) :
    Accepted u bucket name ∧ ∃ v, s.object (bucket, name) = some v ∧
      v.data.length ≤ maxObjectGetBytes ∧ info = v.info := by
  unfold sizeOf at h
  split at h
  · cases h
  · next hopen =>
      refine ⟨openErr_eq_none_iff.mp hopen, ?_⟩
      split at h
      · cases h
      · next v hanswer =>
          split_ifs at h with hlarge
          cases h
          exact ⟨v, answer_eq_ok hanswer, Nat.not_lt.mp hlarge, rfl⟩

theorem contentOf_eq_ok {err : Option GoError} {info : ObjectInfo} {entry : ObjectEntry}
    (h : contentOf s bucket name info err = .ok entry) :
    ∃ v, s.object (bucket, name) = some v ∧ info.size ≤ v.data.length ∧
      entry = ⟨info.modTime, bucket, name, v.data.take info.size, info.size⟩ := by
  unfold contentOf at h
  split at h
  · cases h
  · next v hanswer =>
      refine ⟨v, answer_eq_ok hanswer, ?_⟩
      unfold readFull at h
      split_ifs at h with hle
      cases h
      exact ⟨hle, rfl⟩

-- What the object holds before any call, or by a call of Put.
def Content (u : Setup C) (objects : Bytes × Bytes → Option Version) (place : Bytes × Bytes) :
    Option C → Bytes → Prop
  | none, data => ∃ v, objects place = some v ∧ v.data = data
  | some c, data => u.request c = .put place.1 place.2 data

theorem Content.unique {place : Bytes × Bytes} {origin : Option C} {data data' : Bytes}
    (h : Content u objects place origin data) (h' : Content u objects place origin data') :
    data = data' := by
  cases origin with
  | none =>
    obtain ⟨v, hv, rfl⟩ := h
    obtain ⟨v', hv', rfl⟩ := h'
    obtain rfl : v = v' := Option.some.inj (hv.symm.trans hv')
    rfl
  | some c =>
    have heq : Request.put place.1 place.2 data = .put place.1 place.2 data' := h.symm.trans h'
    exact (Request.put.inj heq).2.2

-- The entry is one version, as a whole.
def Whole (versions : List (Option C × Version)) (entry : ObjectEntry) : Prop :=
  ∃ origin v, (origin, v) ∈ versions ∧ entry.data = v.data ∧ entry.size = v.data.length ∧
    entry.modified = v.modTime

-- Where an object can grow under a reader, what it grows to begins with what it was.
def Extends (u : Setup C) (objects : Bytes × Bytes → Option Version) : Prop :=
  ∀ c bucket name, u.request c = .get bucket name → Accepted u bucket name →
    ∀ origin data p data', Content u objects (bucket, name) origin data →
      u.request p = .put bucket name data' → origin ≠ some p →
      data.length ≤ maxObjectGetBytes → data.length ≤ data'.length → data <+: data'

-- The versions of one object: each has the content of its origin, and the initial one is not
-- behind any other.
structure Past (u : Setup C) (objects : Bytes × Bytes → Option Version) (place : Bytes × Bytes)
    (versions : List (Option C × Version)) : Prop where
  content : ∀ x ∈ versions, Content u objects place x.1 x.2.data
  first : ∀ v, versions.getLast? = some (none, v) → ∀ x ∈ versions, x.1 = none

structure Inv (u : Setup C) (objects : Bytes × Bytes → Option Version) (s : State C) : Prop where
  past : ∀ place, Past u objects place (s.versions place)
  current : ∀ place v, s.object place = some v →
    ∃ origin, (s.versions place).getLast? = some (origin, v)
  sized : ∀ c bucket name info, u.request c = .get bucket name → s.calls c = .sized info →
    Accepted u bucket name ∧ ∃ origin v, (origin, v) ∈ s.versions (bucket, name) ∧
      v.info = info ∧ v.data.length ≤ maxObjectGetBytes
  whole : ∀ c bucket name entry, u.request c = .get bucket name →
    s.calls c = .returned (.ok entry) → Whole (s.versions (bucket, name)) entry

theorem past_initial (place : Bytes × Bytes) :
    Past u objects place ((initial objects : State C).versions place) := by
  have hall : ∀ x ∈ (initial objects : State C).versions place,
      x.1 = none ∧ Content u objects place x.1 x.2.data := by
    intro x hx
    obtain ⟨v, hv, rfl⟩ := List.mem_map.mp hx
    exact ⟨rfl, v, Option.mem_toList.mp hv, rfl⟩
  exact ⟨fun x hx => (hall x hx).2, fun _ _ x hx => (hall x hx).1⟩

theorem Past.concat {place : Bytes × Bytes} {versions : List (Option C × Version)} {c : C}
    {v : Version} (h : Past u objects place versions)
    (hc : u.request c = .put place.1 place.2 v.data) :
    Past u objects place (versions ++ [(some c, v)]) := by
  refine ⟨fun x hx => ?_, fun w hw => ?_⟩
  · rcases List.mem_append.mp hx with hx | hx
    · exact h.content x hx
    · rw [List.mem_singleton.mp hx]
      exact hc
  · rw [List.getLast?_concat] at hw
    cases hw

theorem inv_initial : Inv u objects (initial objects : State C) where
  past := past_initial
  current place v hv := by
    have hobject : objects place = some v := hv
    exact ⟨none, by simp [initial, hobject]⟩
  sized _ _ _ _ _ hpc := by cases hpc
  whole _ _ _ _ _ hpc := by cases hpc

-- What was opened is the version whose size Get has seen, or begins with it.
theorem Past.take_eq {c : C} {versions : List (Option C × Version)} {origin last : Option C}
    {v w : Version} (h : Past u objects (bucket, name) versions) (hextends : Extends u objects)
    (hget : u.request c = .get bucket name) (haccepted : Accepted u bucket name)
    (hv : (origin, v) ∈ versions) (hsmall : v.data.length ≤ maxObjectGetBytes)
    (hlast : versions.getLast? = some (last, w)) (hle : v.data.length ≤ w.data.length) :
    w.data.take v.data.length = v.data := by
  have hw : (last, w) ∈ versions := List.mem_of_getLast? hlast
  have hcontent := h.content _ hv
  by_cases horigin : origin = last
  · subst horigin
    have hdata : v.data = w.data := hcontent.unique (h.content (origin, w) hw)
    rw [hdata, List.take_length]
  · cases last with
    | none => exact absurd (h.first w hlast _ hv) horigin
    | some p =>
      have hbegins := hextends c bucket name hget haccepted origin v.data p w.data hcontent
        (h.content _ hw) horigin hsmall hle
      exact (List.prefix_iff_eq_take.mp hbegins).symm

theorem versions_store_subset (c : C) (v : Version) (place : Bytes × Bytes) :
    s.versions place ⊆ (s.store c bucket name v).versions place := by
  unfold State.store
  by_cases hplace : place = (bucket, name)
  · subst hplace
    simp only [Function.update_self]
    exact List.subset_append_left _ _
  · simp only [Function.update_of_ne hplace]
    exact List.Subset.refl _

theorem Inv.store {c : C} {v : Version} (hs : Inv u objects s)
    (hput : u.request c = .put bucket name v.data) : Inv u objects (s.store c bucket name v) where
  past place := by
    by_cases hplace : place = (bucket, name)
    · subst hplace
      simp only [State.store, Function.update_self]
      exact (hs.past _).concat hput
    · simp only [State.store, Function.update_of_ne hplace]
      exact hs.past place
  current place w hw := by
    by_cases hplace : place = (bucket, name)
    · subst hplace
      simp only [State.store, Function.update_self, Option.some.injEq] at hw ⊢
      exact ⟨some c, by rw [List.getLast?_concat, hw]⟩
    · simp only [State.store, Function.update_of_ne hplace] at hw ⊢
      exact hs.current place w hw
  sized d bucket' name' info hrequest hpc := by
    obtain ⟨haccepted, origin, w, hw, hinfo⟩ := hs.sized d bucket' name' info hrequest hpc
    exact ⟨haccepted, origin, w, versions_store_subset c v _ hw, hinfo⟩
  whole d bucket' name' entry hrequest hpc := by
    obtain ⟨origin, w, hw, hentry⟩ := hs.whole d bucket' name' entry hrequest hpc
    exact ⟨origin, w, versions_store_subset c v _ hw, hentry⟩

theorem Inv.erase (hs : Inv u objects s) : Inv u objects (s.erase bucket name) where
  past := hs.past
  current place v hv := by
    refine hs.current place v ?_
    rcases update_cases hv with ⟨_, ⟨⟩⟩ | ⟨_, hv⟩
    exact hv
  sized := hs.sized
  whole := hs.whole

section Steps

variable [DecidableEq C]

-- What a step does: a call ends without an object, Get learns the size or returns an object,
-- Put stores a version, or DeleteObject deletes the object.
inductive Move (u : Setup C) (s t : State C) : Prop
  | idle (c : C) (pc : Pc) (unsized : ∀ info, pc ≠ .sized info)
      (failed : ∀ entry, pc ≠ .returned (.ok entry)) (eq : t = s.goto c pc)
  | sized (c : C) (bucket name : Bytes) (v : Version) (request : u.request c = .get bucket name)
      (accepted : Accepted u bucket name) (current : s.object (bucket, name) = some v)
      (small : v.data.length ≤ maxObjectGetBytes) (eq : t = s.goto c (.sized v.info))
  | read (c : C) (bucket name : Bytes) (info : ObjectInfo) (v : Version)
      (request : u.request c = .get bucket name) (pc : s.calls c = .sized info)
      (current : s.object (bucket, name) = some v) (le : info.size ≤ v.data.length)
      (eq : t = s.goto c
        (.returned (.ok ⟨info.modTime, bucket, name, v.data.take info.size, info.size⟩)))
  | stored (c : C) (bucket name : Bytes) (v : Version) (entry : ObjectEntry)
      (request : u.request c = .put bucket name v.data)
      (eq : t = (s.store c bucket name v).goto c (.returned (.ok entry)))
  | erased (c : C) (bucket name : Bytes) (eq : t = (s.erase bucket name).goto c (.deleted none))

theorem step_move (h : step u s a = some t) : Move u s t := by
  cases a with
  | getInfo c err =>
    simp only [step] at h
    split at h
    · next bucket name _ hrequest =>
        split at h
        · cases h
          exact .idle c _ (fun _ => Pc.noConfusion) (by rintro entry ⟨⟩) rfl
        · next info hsize =>
            cases h
            obtain ⟨haccepted, v, hv, hsmall, rfl⟩ := sizeOf_eq_ok hsize
            exact .sized c bucket name v hrequest haccepted hv hsmall rfl
    · cases h
  | get c err =>
    simp only [step] at h
    split at h
    · next info bucket name hpc hrequest =>
        cases h
        cases hcontent : contentOf s bucket name info err with
        | error e => exact .idle c _ (fun _ => Pc.noConfusion) (by rintro entry ⟨⟩) rfl
        | ok entry =>
          obtain ⟨v, hv, hle, rfl⟩ := contentOf_eq_ok hcontent
          exact .read c bucket name info v hrequest hpc hv hle rfl
    · cases h
  | put c now err =>
    simp only [step] at h
    split at h
    · next bucket name data _ hrequest =>
        split at h
        · cases h
          exact .idle c _ (fun _ => Pc.noConfusion) (by rintro entry ⟨⟩) rfl
        · cases h
          exact .stored c bucket name ⟨data, now⟩ _ hrequest rfl
    · cases h
  | delete c err =>
    simp only [step] at h
    split at h
    · next bucket name _ _ =>
        split at h
        · cases h
          exact .idle c _ (fun _ => Pc.noConfusion) (by rintro entry ⟨⟩) rfl
        · cases h
          exact .erased c bucket name rfl
    · cases h

-- A call that moves without a change of the objects.
theorem Inv.goto {c : C} {pc : Pc} (hs : Inv u objects s)
    (hsized : ∀ bucket name info, u.request c = .get bucket name → pc = .sized info →
      Accepted u bucket name ∧ ∃ origin v, (origin, v) ∈ s.versions (bucket, name) ∧
        v.info = info ∧ v.data.length ≤ maxObjectGetBytes)
    (hwhole : ∀ bucket name entry, u.request c = .get bucket name → pc = .returned (.ok entry) →
      Whole (s.versions (bucket, name)) entry) : Inv u objects (s.goto c pc) where
  past := hs.past
  current := hs.current
  sized d bucket name info hrequest hnow := by
    rcases update_cases hnow with ⟨rfl, hpc⟩ | ⟨_, hpc⟩
    · exact hsized bucket name info hrequest hpc
    · exact hs.sized d bucket name info hrequest hpc
  whole d bucket name entry hrequest hnow := by
    rcases update_cases hnow with ⟨rfl, hpc⟩ | ⟨_, hpc⟩
    · exact hwhole bucket name entry hrequest hpc
    · exact hs.whole d bucket name entry hrequest hpc

theorem Inv.step (hextends : Extends u objects) (hs : Inv u objects s)
    (h : step u s a = some t) : Inv u objects t := by
  cases step_move h with
  | idle c pc hunsized hfailed heq =>
    subst heq
    exact hs.goto (fun _ _ info _ hpc => absurd hpc (hunsized info))
      fun _ _ entry _ hpc => absurd hpc (hfailed entry)
  | sized c bucket name v hrequest haccepted hv hsmall heq =>
    subst heq
    refine hs.goto (fun bucket' name' info hrequest' hpc => ?_) fun _ _ _ _ hpc => by cases hpc
    obtain ⟨rfl, rfl⟩ := Request.get.inj (hrequest.symm.trans hrequest')
    obtain ⟨origin, hlast⟩ := hs.current _ v hv
    exact ⟨haccepted, origin, v, List.mem_of_getLast? hlast, Pc.sized.inj hpc, hsmall⟩
  | read c bucket name info w hrequest hpc hw hle heq =>
    subst heq
    refine hs.goto (fun _ _ _ _ hpc => by cases hpc)
      fun bucket' name' entry hrequest' hreturned => ?_
    obtain ⟨rfl, rfl⟩ := Request.get.inj (hrequest.symm.trans hrequest')
    cases hreturned
    obtain ⟨haccepted, origin, v, hv, rfl, hsmall⟩ := hs.sized c _ _ info hrequest hpc
    obtain ⟨last, hlast⟩ := hs.current _ w hw
    exact ⟨origin, v, hv, (hs.past _).take_eq hextends hrequest haccepted hv hsmall hlast hle,
      rfl, rfl⟩
  | stored c bucket name v entry hrequest heq =>
    subst heq
    refine (hs.store hrequest).goto (fun _ _ _ hrequest' _ => ?_) fun _ _ _ hrequest' _ => ?_
    · cases hrequest.symm.trans hrequest'
    · cases hrequest.symm.trans hrequest'
  | erased c bucket name heq =>
    subst heq
    exact hs.erase.goto (fun _ _ _ _ hpc => by cases hpc) fun _ _ _ _ hpc => by cases hpc

end Steps

section Torn

variable [DecidableEq C] {c p a : C} {v : Version} {data data' : Bytes}

theorem step_getInfo (hget : u.request c = .get bucket name) (haccepted : Accepted u bucket name)
    (hc : s.calls c = .start) (hv : s.object (bucket, name) = some v)
    (hsmall : v.data.length ≤ maxObjectGetBytes) :
    step u s (.getInfo c none) = some (s.goto c (.sized v.info)) := by
  have hsize : ¬ maxObjectGetBytes < v.info.size := Nat.not_lt.mpr hsmall
  simp only [step, hc, hget, sizeOf, openErr_eq_none_iff.mpr haccepted, State.answer, hv,
    if_neg hsize]

theorem step_put (hput : u.request p = .put bucket name data) (haccepted : Accepted u bucket name)
    (hp : s.calls p = .start) (now : Nat) :
    ∃ entry, step u s (.put p now none) =
      some ((s.store p bucket name ⟨data, now⟩).goto p (.returned (.ok entry))) := by
  simp only [step, hp, hput, openErr_eq_none_iff.mpr haccepted]
  exact ⟨_, rfl⟩

theorem step_get {info : ObjectInfo} (hget : u.request c = .get bucket name)
    (hc : s.calls c = .sized info) (hv : s.object (bucket, name) = some v)
    (hle : info.size ≤ v.data.length) :
    step u s (.get c none) = some (s.goto c
      (.returned (.ok ⟨info.modTime, bucket, name, v.data.take info.size, info.size⟩))) := by
  simp only [step, hc, hget, contentOf, State.answer, hv, readFull, if_pos hle]

-- A put between the two requests of Get.
theorem exec_torn (hget : u.request c = .get bucket name)
    (hput : u.request p = .put bucket name data) (haccepted : Accepted u bucket name)
    (hc : s.calls c = .start) (hp : s.calls p = .start) (hv : s.object (bucket, name) = some v)
    (hsmall : v.data.length ≤ maxObjectGetBytes) (hle : v.data.length ≤ data.length) (now : Nat) :
    ∃ t, exec (step u) s [.getInfo c none, .put p now none, .get c none] = some t ∧
      t.calls c = .returned
        (.ok ⟨v.modTime, bucket, name, data.take v.data.length, v.data.length⟩) ∧
      t.versions (bucket, name) = s.versions (bucket, name) ++ [(some p, ⟨data, now⟩)] := by
  have hcp : c ≠ p := by
    rintro rfl
    cases hget.symm.trans hput
  obtain ⟨entry, hstored⟩ := step_put (s := s.goto c (.sized v.info)) hput haccepted
    ((Function.update_of_ne hcp.symm _ _).trans hp) now
  have hread := step_get (v := ⟨data, now⟩)
    (s := ((s.goto c (.sized v.info)).store p bucket name ⟨data, now⟩).goto p
      (.returned (.ok entry))) hget
    (by simp [State.goto, State.store, hcp] : _ = Pc.sized v.info)
    (by simp [State.goto, State.store]) hle
  refine ⟨_, exec_cons_eq_some.mpr ⟨_, step_getInfo hget haccepted hc hv hsmall,
    exec_cons_eq_some.mpr ⟨_, hstored, exec_cons_eq_some.mpr ⟨_, hread, rfl⟩⟩⟩, ?_, ?_⟩
  · simp [State.goto, Version.info]
  · simp [State.goto, State.store]

-- The bytes read are not those of the version of that time.
omit [DecidableEq C] in
theorem not_whole {versions : List (Option C × Version)}
    (hversions : ∀ x ∈ versions, x.2.modTime = v.modTime → x.2.data = v.data)
    (hbegins : ¬ v.data <+: data) :
    ¬ Whole versions ⟨v.modTime, bucket, name, data.take v.data.length, v.data.length⟩ := by
  rintro ⟨origin, w, hw, hdata, _, htime⟩
  have heq : data.take v.data.length = v.data := hdata.trans (hversions _ hw htime.symm)
  exact hbegins (List.prefix_iff_eq_take.mpr heq.symm)

-- A version that the object has at the start.
theorem exists_torn_initial (hget : u.request c = .get bucket name)
    (hput : u.request p = .put bucket name data') (haccepted : Accepted u bucket name)
    (hcontent : Content u objects (bucket, name) none data)
    (hsmall : data.length ≤ maxObjectGetBytes) (hle : data.length ≤ data'.length)
    (hbegins : ¬ data <+: data') :
    ∃ t entry, Reaches (step u) (initial objects) t ∧ t.calls c = .returned (.ok entry) ∧
      ¬ Whole (t.versions (bucket, name)) entry := by
  obtain ⟨v, hv, rfl⟩ := hcontent
  obtain ⟨t, hexec, hcalls, hversions⟩ := exec_torn (s := initial objects) hget hput haccepted rfl
    rfl hv hsmall hle (v.modTime + 1)
  refine ⟨t, _, ⟨_, hexec⟩, hcalls, not_whole ?_ hbegins⟩
  intro x hx htime
  rw [hversions] at hx
  obtain hx | hx := List.mem_append.mp hx
  · simp only [initial, hv, Option.toList_some, List.map_cons, List.map_nil,
      List.mem_singleton] at hx
    rw [hx]
  · rw [List.mem_singleton.mp hx] at htime
    exact absurd htime (Nat.succ_ne_self _)

-- A version that another call has put, at a time that the object has not had.
theorem exists_torn_stored (objects : Bytes × Bytes → Option Version)
    (hget : u.request c = .get bucket name)
    (hcontent : u.request a = .put bucket name data) (hput : u.request p = .put bucket name data')
    (hpa : p ≠ a) (haccepted : Accepted u bucket name)
    (hsmall : data.length ≤ maxObjectGetBytes) (hle : data.length ≤ data'.length)
    (hbegins : ¬ data <+: data') :
    ∃ t entry, Reaches (step u) (initial objects) t ∧ t.calls c = .returned (.ok entry) ∧
      ¬ Whole (t.versions (bucket, name)) entry := by
  have hca : c ≠ a := by
    rintro rfl
    cases hget.symm.trans hcontent
  let now := ((objects (bucket, name)).elim 0 Version.modTime) + 1
  obtain ⟨stored, hstored⟩ := step_put (s := initial objects) hcontent haccepted rfl now
  obtain ⟨t, hexec, hcalls, hversions⟩ := exec_torn
    (s := ((initial objects).store a bucket name ⟨data, now⟩).goto a (.returned (.ok stored)))
    hget hput haccepted (by simp [State.goto, State.store, initial, hca])
    (by simp [State.goto, State.store, initial, hpa])
    (by simp [State.goto, State.store] : _ = some (Version.mk data now)) hsmall hle (now + 1)
  refine ⟨t, _, ⟨_, exec_cons_eq_some.mpr ⟨_, hstored, hexec⟩⟩, hcalls, not_whole ?_ hbegins⟩
  intro x hx htime
  rw [hversions] at hx
  obtain hx | hx := List.mem_append.mp hx
  · simp only [State.goto, State.store, initial, Function.update_self] at hx
    obtain hx | hx := List.mem_append.mp hx
    · obtain ⟨w, hw, rfl⟩ := List.mem_map.mp hx
      have hnow : now = w.modTime + 1 := by simp [now, Option.mem_toList.mp hw]
      dsimp only at htime
      omega
    · rw [List.mem_singleton.mp hx]
  · rw [List.mem_singleton.mp hx] at htime
    exact absurd htime (Nat.succ_ne_self _)

end Torn

-- Every Get that returns an object returns one version of it, in every run of the calls.
theorem get_whole_iff [DecidableEq C] (u : Setup C) (objects : Bytes × Bytes → Option Version) :
    (∀ t, Reaches (step u) (initial objects) t → ∀ c bucket name entry,
        u.request c = .get bucket name → t.calls c = .returned (.ok entry) →
          Whole (t.versions (bucket, name)) entry) ↔
      Extends u objects := by
  constructor
  · intro hwhole c bucket name hget haccepted origin data p data' hcontent hput hne hsmall hle
    by_contra hbegins
    cases origin with
    | none =>
      obtain ⟨t, entry, ht, hcalls, hnot⟩ := exists_torn_initial hget hput haccepted hcontent
        hsmall hle hbegins
      exact hnot (hwhole t ht c bucket name entry hget hcalls)
    | some a =>
      obtain ⟨t, entry, ht, hcalls, hnot⟩ := exists_torn_stored objects hget hcontent hput
        (fun heq => hne (by rw [heq])) haccepted hsmall hle hbegins
      exact hnot (hwhole t ht c bucket name entry hget hcalls)
  · intro hextends t hreaches c bucket name entry hget hcalls
    have hinv : Inv u objects t :=
      hreaches.invariant (fun s a t hs h => hs.step hextends h) inv_initial
    exact hinv.whole c bucket name entry hget hcalls

-- One client reads an object of one byte while another stores two bytes.
def reader : Setup Bool where
  request c := if c then .get [98] [111] else .put [98] [111] [2, 3]
  objectStore _ := none

theorem get_torn :
    (exec (step reader) (initial fun _ => some ⟨[1], 5⟩)
        [.getInfo true none, .put false 6 none, .get true none]).map
        (fun t => (t.calls true, t.versions ([98], [111]))) =
      some (.returned (.ok ⟨5, [98], [111], [2], 1⟩),
        [(none, ⟨[1], 5⟩), (some false, ⟨[2, 3], 6⟩)]) := by
  decide

end NatsClient.ObjectStore
