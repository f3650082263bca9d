import Mathlib.Data.List.Perm.Subperm
import NatsClient.Outbox.Theorems
import NatsClient.Validate

namespace NatsClient.Outbox

open Lib.Machine

variable {E L : Type} {cfg : Config E L} {s t : State E L}

section Contents

-- A step of a call of Enqueue whose Put succeeds.
def Enqueues (_ : State E L) : Act E L → Prop
  | .make _ _ => True
  | .put _ err _ => err = none
  | _ => False

-- The record that a key stands for.
def recordAt (cfg : Config E L) (s : State E L) (key : String) : Option Record :=
  (s.store key).bind fun raw => (cfg.codec.unmarshal raw).toOption

-- The store holds what Enqueue has returned, and nobody has called Flush.
structure Stocked (cfg : Config E L) (s : State E L) : Prop where
  inv : Inv cfg s
  idle : ∀ l, s.flush l = .start
  published : s.published = []
  owned : ∀ key, s.store key ≠ none →
    ∃ e record, s.enqueue e = .returned (.ok record) ∧ cfg.ids e = key

theorem Stocked.stored (hs : Stocked cfg s) {e : E} {record : Record}
    (h : s.enqueue e = .returned (.ok record)) : recordAt cfg s (cfg.ids e) = some record := by
  have hsafe := hs.inv.safe e record h
  cases hraw : s.store (cfg.ids e) with
  | none =>
    obtain ⟨l, hmem⟩ := hsafe.gone hraw
    rw [hs.published] at hmem
    cases hmem
  | some raw => simp [recordAt, hraw, hsafe.value raw hraw, Except.toOption]

theorem Stocked.recordAt_iff (hs : Stocked cfg s) {key : String} {record : Record} :
    recordAt cfg s key = some record ↔
      ∃ e, s.enqueue e = .returned (.ok record) ∧ cfg.ids e = key := by
  constructor
  · intro h
    have hkey : s.store key ≠ none := by
      intro hnone
      simp [recordAt, hnone] at h
    obtain ⟨e, other, he, rfl⟩ := hs.owned key hkey
    rw [hs.stored he] at h
    cases h
    exact ⟨e, he, rfl⟩
  · rintro ⟨e, he, rfl⟩
    exact hs.stored he

variable [DecidableEq E] [DecidableEq L]

omit [DecidableEq E] [DecidableEq L] in
theorem stocked_initial : Stocked cfg (initial fun _ => none) where
  inv := inv_initial fun _ => rfl
  idle _ := rfl
  published := rfl
  owned _ h := absurd rfl h

-- The owner of a key is not a call of Enqueue that goes on.
omit [DecidableEq L] in
theorem Stocked.owned_update (hs : Stocked cfg s) {e : E}
    (hpc : ∀ result, s.enqueue e ≠ .returned result) (next : EnqueuePc) {key : String}
    (hkey : s.store key ≠ none) :
    ∃ e' record, Function.update s.enqueue e next e' = .returned (.ok record) ∧
      cfg.ids e' = key := by
  obtain ⟨e', record, he, hid⟩ := hs.owned key hkey
  have hne : e' ≠ e := by
    rintro rfl
    exact hpc _ he
  exact ⟨e', record, (Function.update_of_ne hne ..).trans he, hid⟩

theorem Stocked.step (hs : Stocked cfg s) {a : Act E L} (ha : Enqueues s a)
    (h : step cfg s a = some t) : Stocked cfg t := by
  have hinv : Inv cfg t := hs.inv.move (step_move h)
  cases a with
  | make e now =>
    simp only [Outbox.step] at h
    split at h
    · next hpc =>
        cases h
        have hstart : ∀ result, s.enqueue e ≠ .returned result := by
          intro result
          rw [hpc]
          exact EnqueuePc.noConfusion
        exact ⟨hinv, hs.idle, hs.published, fun key hkey => hs.owned_update hstart _ hkey⟩
    · cases h
  | put e err stored =>
    obtain rfl : err = none := ha
    simp only [Outbox.step] at h
    split at h
    · next record raw hpc =>
        cases h
        have hown := (hs.inv.making e record raw hpc).1.1
        refine ⟨hinv, hs.idle, hs.published, fun key hkey => ?_⟩
        by_cases hid : key = record.id
        · exact ⟨e, record, Function.update_self .., hown.symm.trans hid.symm⟩
        · simp only [Option.isNone_none, Bool.true_or, if_true,
            Function.update_of_ne hid] at hkey
          have hput : ∀ result, s.enqueue e ≠ .returned result := by
            intro result
            rw [hpc]
            exact EnqueuePc.noConfusion
          exact hs.owned_update hput _ hkey
    · cases h
  | _ => exact ha.elim

theorem stocked_of_enqueues {fill : List (Act E L)}
    (hexec : exec (step cfg) (initial fun _ => none) fill = some s)
    (hfill : Along (step cfg) Enqueues (initial fun _ => none) fill) : Stocked cfg s :=
  hfill.invariant (fun _ _ _ hs ha hstep => hs.step ha hstep) hexec stocked_initial

end Contents

section Flushing

-- PublishRaw refuses the record.
def Record.rejected (record : Record) : Bool := (validatePublishSubject record.subject).isSome

def Rejected (cfg : Config E L) (s : State E L) (key : String) : Prop :=
  ∃ record, recordAt cfg s key = some record ∧ record.rejected = true

-- The records of some keys that PublishRaw accepts, as it is given them by a call of Flush.
def accepted (cfg : Config E L) (s : State E L) (l : L) (keys : List String) :
    List (L × Message) :=
  ((keys.filterMap (recordAt cfg s)).filter (!·.rejected)).map fun record => (l, record.message)

-- A call of Flush alone, with the list of keys, no other failure than that of PublishRaw for
-- the subjects that ValidatePublishSubject rejects, and Deletes that may or may not succeed.
def Honest (l : L) (keys : List String) (s : State E L) : Act E L → Prop
  | .keys l' answer => l' = l ∧ answer = .ok keys
  | .next l' ctxErr => l' = l ∧ ctxErr = none
  | .get l' err => l' = l ∧ err = none
  | .publish l' err => l' = l ∧ ∀ key record rest flushed,
      s.flush l = .publish key record rest flushed → err.isSome = record.rejected
  | .delete l' _ => l' = l
  | .make _ _ | .put _ _ _ => False

-- What a call of Flush needs from the start: a key for each record, in any order, and room.
structure Listed (cfg : Config E L) (s : State E L) (l : L) (keys : List String) : Prop where
  store : (cfg.flush l).noStore = false
  publisher : (cfg.flush l).noPublisher = false
  nodup : keys.Nodup
  complete : ∀ key, key ∈ keys ↔ s.store key ≠ none
  limit : keys.length ≤ (cfg.flush l).limit

-- The keys before `rest` are done: their records were published.
structure Upto (cfg : Config E L) (s₀ : State E L) (l : L) (keys : List String) (s : State E L)
    (done rest : List String) : Prop where
  split : keys = done ++ rest
  passed : ∀ key ∈ done, ¬ Rejected cfg s₀ key
  published : s.published = accepted cfg s₀ l done
  store : ∀ key ∈ rest, s.store key = s₀.store key

def Draining (cfg : Config E L) (s₀ : State E L) (l : L) (keys : List String)
    (s : State E L) : Prop :=
  match s.flush l with
  | .start => Upto cfg s₀ l keys s [] keys
  | .next rest flushed => ∃ done, Upto cfg s₀ l keys s done rest ∧ flushed = done.length
  | .get key rest flushed =>
    ∃ done, Upto cfg s₀ l keys s done (key :: rest) ∧ flushed = done.length
  | .publish key record rest flushed =>
    ∃ done, Upto cfg s₀ l keys s done (key :: rest) ∧ flushed = done.length ∧
      recordAt cfg s₀ key = some record
  | .delete key rest flushed =>
    ∃ done, Upto cfg s₀ l keys s (done ++ [key]) rest ∧ flushed = done.length
  | .returned _ _ =>
    ∃ done rest, Upto cfg s₀ l keys s done rest ∧ ∀ key ∈ rest.head?, Rejected cfg s₀ key

variable {s₀ : State E L} {l : L} {keys : List String}

theorem Upto.congr {done rest : List String} (h : Upto cfg s₀ l keys s done rest)
    (hpublished : t.published = s.published) (hstore : ∀ key ∈ rest, t.store key = s.store key) :
    Upto cfg s₀ l keys t done rest :=
  ⟨h.split, h.passed, hpublished.trans h.published,
    fun key hkey => (hstore key hkey).trans (h.store key hkey)⟩

theorem Listed.bound_ge (h : Listed cfg s₀ l keys) : keys.length ≤ (cfg.flush l).bound := by
  have hlimit := h.limit
  unfold FlushCall.bound
  split_ifs <;> omega

theorem not_rejected {key : String} {record : Record} (h : recordAt cfg s key = some record)
    (hr : record.rejected = false) : ¬ Rejected cfg s key := by
  rintro ⟨other, hother, hrejected⟩
  rw [h] at hother
  cases hother
  rw [hr] at hrejected
  cases hrejected

theorem accepted_concat {key : String} {record : Record} (done : List String)
    (h : recordAt cfg s key = some record) (hr : record.rejected = false) :
    accepted cfg s l (done ++ [key]) = accepted cfg s l done ++ [(l, record.message)] := by
  simp [accepted, h, hr]

-- The next key has a record, which is read as it was enqueued.
theorem Upto.read {key : String} {done rest : List String} (hstocked : Stocked cfg s₀)
    (hlisted : Listed cfg s₀ l keys) (h : Upto cfg s₀ l keys s done (key :: rest)) (flushed : Nat) :
    ∃ record, recordAt cfg s₀ key = some record ∧
      cfg.codec.read (s.store key) key rest flushed = .publish key record rest flushed := by
  have hmem : key ∈ keys := by
    rw [h.split]
    exact List.mem_append_right _ List.mem_cons_self
  obtain ⟨e, record, he, rfl⟩ := hstocked.owned key ((hlisted.complete key).mp hmem)
  have hrecord := hstocked.stored he
  refine ⟨record, hrecord, ?_⟩
  rw [h.store _ List.mem_cons_self]
  cases hraw : s₀.store (cfg.ids e) with
  | none => simp [recordAt, hraw] at hrecord
  | some raw =>
    have hread := (hstocked.inv.safe e record he).value raw hraw
    simp only [Codec.read, hread]

theorem Upto.not_full {key : String} {done rest : List String} (hlisted : Listed cfg s₀ l keys)
    (h : Upto cfg s₀ l keys s done (key :: rest)) : ¬ (cfg.flush l).bound ≤ done.length := by
  have hbound := hlisted.bound_ge
  rw [h.split, List.length_append, List.length_cons] at hbound
  omega

theorem Upto.publish {key : String} {record : Record} {done rest : List String}
    (h : Upto cfg s₀ l keys s done (key :: rest)) (hrecord : recordAt cfg s₀ key = some record)
    (hpass : record.rejected = false)
    (hpublished : t.published = s.published ++ [(l, record.message)])
    (hstore : t.store = s.store) : Upto cfg s₀ l keys t (done ++ [key]) rest where
  split := by rw [h.split, List.append_assoc, List.singleton_append]
  passed := by
    intro other hother
    rcases List.mem_append.mp hother with hmem | hmem
    · exact h.passed other hmem
    · rw [List.mem_singleton.mp hmem]
      exact not_rejected hrecord hpass
  published := by rw [hpublished, h.published, accepted_concat done hrecord hpass]
  store other hother := by
    rw [hstore]
    exact h.store other (List.mem_cons_of_mem _ hother)

-- No key is listed twice.
theorem Upto.ne_of_mem {key other : String} {done rest : List String} (hnodup : keys.Nodup)
    (h : Upto cfg s₀ l keys s (done ++ [key]) rest) (hother : other ∈ rest) : other ≠ key := by
  rw [h.split, List.append_assoc] at hnodup
  have hrest := (List.nodup_append.mp hnodup).2.1
  rintro rfl
  exact (List.nodup_cons.mp hrest).1 hother

theorem draining_start (hstocked : Stocked cfg s₀) : Draining cfg s₀ l keys s₀ := by
  simp only [Draining, hstocked.idle l]
  exact ⟨rfl, by simp, hstocked.published, fun _ _ => rfl⟩

theorem accepted_append (first second : List String) :
    accepted cfg s l (first ++ second) = accepted cfg s l first ++ accepted cfg s l second := by
  simp [accepted]

theorem accepted_eq_nil_iff {rest : List String} : accepted cfg s l rest = [] ↔
    ∀ key ∈ rest, ∀ record, recordAt cfg s key = some record → record.rejected = true := by
  simp only [accepted, List.map_eq_nil_iff, List.filter_eq_nil_iff, List.mem_filterMap,
    Bool.not_eq_true', Bool.not_eq_false]
  exact ⟨fun h key hkey record hrecord => h record ⟨key, hkey, hrecord⟩,
    fun h record ⟨key, hkey, hrecord⟩ => h key hkey record hrecord⟩

theorem Stocked.exists_record (hs : Stocked cfg s) (hlisted : Listed cfg s l keys) {key : String}
    (hkey : key ∈ keys) : ∃ record, recordAt cfg s key = some record := by
  obtain ⟨e, record, he, hid⟩ := hs.owned key ((hlisted.complete key).mp hkey)
  exact ⟨record, hs.recordAt_iff.mpr ⟨e, he, hid⟩⟩

variable [DecidableEq E] [DecidableEq L]

theorem Draining.step (hstocked : Stocked cfg s₀) (hlisted : Listed cfg s₀ l keys)
    (hs : Draining cfg s₀ l keys s) {a : Act E L} (ha : Honest l keys s a)
    (h : step cfg s a = some t) : Draining cfg s₀ l keys t := by
  cases a with
  | make | put => exact ha.elim
  | keys l' answer =>
    obtain ⟨rfl, rfl⟩ := ha
    simp only [Outbox.step] at h
    split at h
    · next hpc =>
        cases h
        simp only [Draining, hpc] at hs
        simp only [Draining, Function.update_self, FlushCall.begin, hlisted.store,
          hlisted.publisher, Bool.or_self, Bool.false_eq_true, if_false]
        exact ⟨[], hs.congr rfl fun _ _ => rfl, rfl⟩
    · cases h
  | next l' ctxErr =>
    obtain ⟨rfl, rfl⟩ := ha
    simp only [Outbox.step] at h
    split at h
    · next rest flushed hpc =>
        cases h
        simp only [Draining, hpc] at hs
        obtain ⟨done, hupto, rfl⟩ := hs
        cases rest with
        | nil =>
          simp only [Draining, Function.update_self, FlushCall.turn]
          exact ⟨done, [], hupto.congr rfl fun _ _ => rfl, by simp⟩
        | cons key rest =>
          simp only [Draining, Function.update_self, FlushCall.turn,
            if_neg (hupto.not_full hlisted)]
          exact ⟨done, hupto.congr rfl fun _ _ => rfl, rfl⟩
    · cases h
  | get l' err =>
    obtain ⟨rfl, rfl⟩ := ha
    simp only [Outbox.step] at h
    split at h
    · next key rest flushed hpc =>
        cases h
        simp only [Draining, hpc] at hs
        obtain ⟨done, hupto, rfl⟩ := hs
        obtain ⟨record, hrecord, hread⟩ := hupto.read hstocked hlisted done.length
        simp only [Draining, Function.update_self, Option.isSome_none, Bool.false_eq_true,
          if_false, hread]
        exact ⟨done, hupto.congr rfl fun _ _ => rfl, rfl, hrecord⟩
    · cases h
  | publish l' err =>
    obtain ⟨rfl, hhonest⟩ := ha
    simp only [Outbox.step] at h
    split at h
    · next key record rest flushed hpc =>
        simp only [Draining, hpc] at hs
        obtain ⟨done, hupto, rfl, hrecord⟩ := hs
        have herr := hhonest key record rest _ hpc
        cases err with
        | some err =>
          cases h
          simp only [Draining, Function.update_self]
          refine ⟨done, key :: rest, hupto.congr rfl fun _ _ => rfl, fun other hother => ?_⟩
          cases hother
          exact ⟨record, hrecord, herr.symm⟩
        | none =>
          cases h
          simp only [Draining, Function.update_self]
          exact ⟨done, hupto.publish hrecord herr.symm rfl rfl, rfl⟩
    · cases h
  | delete l' deleted =>
    obtain rfl := ha
    simp only [Outbox.step] at h
    split at h
    · next key rest flushed hpc =>
        cases h
        simp only [Draining, hpc] at hs
        obtain ⟨done, hupto, rfl⟩ := hs
        simp only [Draining, Function.update_self]
        refine ⟨done ++ [key], hupto.congr rfl fun other hother => ?_, by simp⟩
        cases deleted with
        | true => exact Function.update_of_ne (hupto.ne_of_mem hlisted.nodup hother) ..
        | false => rfl
    · cases h

-- The steps that a call of Flush has left at most.
def FlushPc.left : FlushPc → Nat
  | .start => 0
  | .next rest _ => 4 * rest.length + 1
  | .delete _ rest _ => 4 * rest.length + 2
  | .publish _ _ rest _ => 4 * rest.length + 3
  | .get _ rest _ => 4 * rest.length + 4
  | .returned _ _ => 0

theorem FlushMove.left_lt {codec : Codec} {call : FlushCall} {store : String → Option Bytes}
    {pc pc' : FlushPc} (h : FlushMove codec call store pc pc') (hpc : pc ≠ .start) :
    pc'.left < pc.left ∧ pc' ≠ .start := by
  cases h with
  | refused | listed => exact absurd rfl hpc
  | _ => simp [FlushPc.left, Nat.mul_add]

-- Up to its return a call of Flush can always go on, with the answers that it has to get.
theorem exists_honest (cfg : Config E L) (keys : List String) (hstart : s.flush l ≠ .start)
    (hend : ∀ flushed err, s.flush l ≠ .returned flushed err) :
    ∃ a t, step cfg s a = some t ∧ Honest l keys s a ∧
      (t.flush l).left < (s.flush l).left ∧ t.flush l ≠ .start := by
  cases hpc : s.flush l with
  | start => exact absurd hpc hstart
  | returned flushed err => exact absurd hpc (hend flushed err)
  | next rest flushed =>
    refine ⟨.next l none, _, by simp only [step, hpc]; rfl, ⟨rfl, rfl⟩, ?_⟩
    have hmove : FlushMove cfg.codec (cfg.flush l) s.store _ _ :=
      turn_move (cfg.flush l) none flushed rest
    simpa only [Function.update_self] using hmove.left_lt FlushPc.noConfusion
  | get key rest flushed =>
    refine ⟨.get l none, _, by simp only [step, hpc]; rfl, ⟨rfl, rfl⟩, ?_⟩
    have hmove : FlushMove cfg.codec (cfg.flush l) s.store (.get key rest flushed)
        (cfg.codec.read (s.store key) key rest flushed) :=
      read_move cfg.codec (.inr rfl) rest flushed
    simpa only [Function.update_self, Option.isSome_none, Bool.false_eq_true, if_false] using
      hmove.left_lt FlushPc.noConfusion
  | publish key record rest flushed =>
    have hhonest : Honest l keys s (.publish l (validatePublishSubject record.subject)) := by
      refine ⟨rfl, fun _ _ _ _ hother => ?_⟩
      rw [hpc] at hother
      cases hother
      rfl
    cases herr : validatePublishSubject record.subject with
    | some err =>
      rw [herr] at hhonest
      refine ⟨_, _, by simp only [step, hpc]; rfl, hhonest, ?_⟩
      simp [FlushPc.left]
    | none =>
      rw [herr] at hhonest
      refine ⟨_, _, by simp only [step, hpc]; rfl, hhonest, ?_⟩
      simp [FlushPc.left]
  | delete key rest flushed =>
    refine ⟨.delete l true, _, by simp only [step, hpc]; rfl, rfl, ?_⟩
    simp [FlushPc.left]

theorem exists_returned (cfg : Config E L) (keys : List String) (hstart : s.flush l ≠ .start) :
    ∃ acts t, exec (step cfg) s acts = some t ∧ Along (step cfg) (Honest l keys) s acts ∧
      ∃ flushed err, t.flush l = .returned flushed err := by
  induction hleft : (s.flush l).left using Nat.strong_induction_on generalizing s with
  | h n ih =>
    by_cases hend : ∃ flushed err, s.flush l = .returned flushed err
    · exact ⟨[], s, rfl, trivial, hend⟩
    · simp only [not_exists] at hend
      obtain ⟨a, next, hstep, hhonest, hless, hnext⟩ := exists_honest cfg keys hstart hend
      obtain ⟨acts, t, hexec, halong, hreturned⟩ := ih _ (hleft ▸ hless) hnext rfl
      exact ⟨a :: acts, t, exec_cons_eq_some.mpr ⟨next, hstep, hexec⟩,
        (along_cons_iff hstep).mpr ⟨hhonest, halong⟩, hreturned⟩

-- A call of Flush comes to its end.
theorem flush_returns (cfg : Config E L) (hidle : s.flush l = .start) (keys : List String) :
    ∃ acts t, exec (step cfg) s acts = some t ∧ Along (step cfg) (Honest l keys) s acts ∧
      ∃ flushed err, t.flush l = .returned flushed err := by
  have hstep : step cfg s (.keys l (.ok keys)) = some { s with
      flush := Function.update s.flush l ((cfg.flush l).begin (.ok keys)) } := by
    simp only [step, hidle]
  have hbegun : (cfg.flush l).begin (.ok keys) ≠ .start := by
    unfold FlushCall.begin
    split_ifs <;> exact FlushPc.noConfusion
  obtain ⟨acts, t, hexec, halong, hreturned⟩ := exists_returned (l := l) (s := { s with
    flush := Function.update s.flush l ((cfg.flush l).begin (.ok keys)) }) cfg keys
    (by simpa only [Function.update_self] using hbegun)
  exact ⟨.keys l (.ok keys) :: acts, t, exec_cons_eq_some.mpr ⟨_, hstep, hexec⟩,
    (along_cons_iff hstep).mpr ⟨⟨rfl, rfl⟩, halong⟩, hreturned⟩

theorem Draining.returned {acts : List (Act E L)} {flushed : Nat} {err : Option GoError}
    (hstocked : Stocked cfg s) (hlisted : Listed cfg s l keys)
    (h : exec (Outbox.step cfg) s acts = some t)
    (halong : Along (Outbox.step cfg) (Honest l keys) s acts)
    (hpc : t.flush l = .returned flushed err) :
    ∃ done rest, Upto cfg s l keys t done rest ∧ ∀ key ∈ rest.head?, Rejected cfg s key := by
  have hdraining : Draining cfg s l keys t :=
    halong.invariant (fun _ _ _ hs ha hstep => hs.step hstocked hlisted ha hstep) h
      (draining_start hstocked)
  simpa only [Draining, hpc] using hdraining

omit [DecidableEq E] [DecidableEq L] in
theorem Upto.pairwise {done rest : List String} (hstocked : Stocked cfg s)
    (hlisted : Listed cfg s l keys) (h : Upto cfg s l keys t done rest)
    (hrest : accepted cfg s l rest = []) :
    keys.Pairwise fun first second => Rejected cfg s first → Rejected cfg s second := by
  have hrejected (key : String) (hkey : key ∈ rest) : Rejected cfg s key := by
    have hmem : key ∈ keys := h.split ▸ List.mem_append_right _ hkey
    obtain ⟨record, hrecord⟩ := hstocked.exists_record hlisted hmem
    exact ⟨record, hrecord, accepted_eq_nil_iff.mp hrest key hkey record hrecord⟩
  rw [h.split, List.pairwise_append]
  refine ⟨List.pairwise_of_forall_mem_list ?_, List.pairwise_of_forall_mem_list ?_, ?_⟩
  · exact fun first hfirst _ _ hfails => absurd hfails (h.passed first hfirst)
  · exact fun _ _ second hsecond _ => hrejected second hsecond
  · exact fun _ _ second hsecond _ => hrejected second hsecond

omit [DecidableEq E] [DecidableEq L] in
theorem accepted_eq_nil {rest : List String}
    (hordered : rest.Pairwise fun first second => Rejected cfg s first → Rejected cfg s second)
    (hhead : ∀ key ∈ rest.head?, Rejected cfg s key) : accepted cfg s l rest = [] := by
  refine accepted_eq_nil_iff.mpr fun key hkey record hrecord => ?_
  obtain ⟨other, hother, hrejected⟩ : Rejected cfg s key := by
    cases rest with
    | nil => cases hkey
    | cons first rest =>
      have hfirst := hhead first rfl
      rcases List.mem_cons.mp hkey with rfl | hlater
      · exact hfirst
      · exact (List.pairwise_cons.mp hordered).1 key hlater hfirst
  rw [hrecord] at hother
  cases hother
  exact hrejected

end Flushing

-- One record that cannot be published keeps back those behind it: a Flush publishes all that it
-- can iff no such record comes before one that can be published.
theorem flush_publishes_iff [DecidableEq E] [DecidableEq L] (cfg : Config E L)
    (fill : List (Act E L)) (s : State E L) (l : L) (keys : List String)
    (hexec : exec (step cfg) (initial fun _ => none) fill = some s)
    (hfill : Along (step cfg) Enqueues (initial fun _ => none) fill)
    (hlisted : Listed cfg s l keys) :
    (∃ acts t, exec (step cfg) s acts = some t ∧ Along (step cfg) (Honest l keys) s acts ∧
      ∃ flushed err, t.flush l = .returned flushed err) ∧
    ((∀ acts t flushed err, exec (step cfg) s acts = some t →
        Along (step cfg) (Honest l keys) s acts → t.flush l = .returned flushed err →
          (accepted cfg s l keys).Subperm t.published) ↔
      keys.Pairwise fun first second => Rejected cfg s first → Rejected cfg s second) := by
  have hstocked := stocked_of_enqueues hexec hfill
  have hreturns := flush_returns cfg (hstocked.idle l) keys
  refine ⟨hreturns, ?_, ?_⟩
  · intro hall
    obtain ⟨acts, t, h, halong, flushed, err, hpc⟩ := hreturns
    obtain ⟨done, rest, hupto, -⟩ := Draining.returned hstocked hlisted h halong hpc
    have hsub := (hall acts t flushed err h halong hpc).length_le
    rw [hupto.published, hupto.split, accepted_append, List.length_append] at hsub
    exact hupto.pairwise hstocked hlisted (List.eq_nil_of_length_eq_zero (by omega))
  · intro hordered acts t flushed err h halong hpc
    obtain ⟨done, rest, hupto, hhead⟩ := Draining.returned hstocked hlisted h halong hpc
    rw [hupto.split, List.pairwise_append] at hordered
    rw [hupto.published, hupto.split, accepted_append, accepted_eq_nil hordered.2.1 hhead,
      List.append_nil]

-- Two records, the first of which has a subject that is a pattern.
def pattern : Record := recordOf "a" "orders.*"

def created : Record := recordOf "b" "orders.created"

def twoRecords : Codec := codecFor [pattern, created] (by decide +kernel)

def twoOrders : Config Bool Unit where
  codec := twoRecords
  enqueue e := ⟨false, (if e then pattern else created).subject, pattern.data, ∅⟩
  flush _ := ⟨false, false, 2⟩
  ids e := if e then "a" else "b"
  unique := by decide

def fillBoth : List (Act Bool Unit) :=
  [.make true 0, .put true none true, .make false 0, .put false none true]

theorem flush_publishes_reversed :
    ∃ s : State Bool Unit, exec (step twoOrders) (initial fun _ => none) fillBoth = some s ∧
      Listed twoOrders s () ["b", "a"] ∧
      ∀ acts t flushed err, exec (step twoOrders) s acts = some t →
        Along (step twoOrders) (Honest () ["b", "a"]) s acts →
          t.flush () = .returned flushed err →
            (accepted twoOrders s () ["b", "a"]).Subperm t.published := by
  obtain ⟨s, hexec, hstore⟩ : ∃ s : State Bool Unit,
      exec (step twoOrders) (initial fun _ => none) fillBoth = some s ∧
        s.store = Function.update (Function.update (fun _ => none) "a" (some (jsonOf pattern))) "b"
          (some (jsonOf created)) :=
    ⟨_, rfl, rfl⟩
  have hfill : Along (step twoOrders) Enqueues (initial fun _ => none) fillBoth := by
    refine along_of_forall_mem _ (fun a ha s => ?_) _
    simp only [fillBoth, List.mem_cons, List.not_mem_nil, or_false] at ha
    rcases ha with rfl | rfl | rfl | rfl
    · trivial
    · rfl
    · trivial
    · rfl
  have hlisted : Listed twoOrders s () ["b", "a"] := by
    refine ⟨rfl, rfl, by decide, fun key => ?_, by decide⟩
    simp only [hstore, Function.update_apply, List.mem_cons, List.not_mem_nil, or_false]
    split_ifs <;> simp_all
  have hrejected : Rejected twoOrders s "a" := by
    refine ⟨pattern, ?_, by decide +kernel⟩
    rw [recordAt, hstore]
    rfl
  refine ⟨s, hexec, hlisted, ?_⟩
  refine (flush_publishes_iff twoOrders fillBoth s () ["b", "a"] hexec hfill hlisted).2.mpr ?_
  exact List.pairwise_pair.mpr fun _ => hrejected

-- In the other order the pattern is in the way: nothing is published.
def blockedFlush (err : GoError) : List (Act Bool Unit) :=
  [.keys () (.ok ["a", "b"]), .next () none, .get () none, .publish () (some err)]

theorem flush_blocked :
    ∃ s t : State Bool Unit, exec (step twoOrders) (initial fun _ => none) fillBoth = some s ∧
      s.enqueue false = .returned (.ok created) ∧ validatePublishSubject created.subject = none ∧
      (validatePublishSubject pattern.subject).isSome ∧
      exec (step twoOrders) s (blockedFlush (.sentinel .errInvalidSubject)) = some t ∧
      t.flush () = .returned 0 (some (.wrap "outbox flush publish id=a: "
        (.sentinel .errInvalidSubject) "")) ∧ t.published = [] :=
  ⟨_, _, rfl, rfl, by decide +kernel, by decide +kernel, rfl, rfl, rfl⟩

end NatsClient.Outbox
