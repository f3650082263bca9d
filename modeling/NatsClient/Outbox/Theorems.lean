import NatsClient.Lib.Machine
import NatsClient.Lib.Parties
import NatsClient.Outbox
import NatsClient.Validate.Text

namespace NatsClient.Outbox

open Lib.Machine Lib.Parties

variable {E L : Type} {cfg : Config E L} {s t : State E L}

section Moves

-- The steps of Flush that leave store and publisher alone.
inductive FlushMove (codec : Codec) (call : FlushCall) (store : String → Option Bytes) :
    FlushPc → FlushPc → Prop
  | refused {err} : FlushMove codec call store .start (.returned 0 (some err))
  | listed {keys} : FlushMove codec call store .start (.next keys 0)
  | finished {keys flushed err} :
      FlushMove codec call store (.next keys flushed) (.returned flushed err)
  | took {key keys} {flushed : Nat} (h : flushed < call.bound) :
      FlushMove codec call store (.next (key :: keys) flushed) (.get key keys flushed)
  | skipped {key keys flushed} :
      FlushMove codec call store (.get key keys flushed) (.next keys flushed)
  | found {key raw record keys flushed} (h : store key = some raw)
      (hr : codec.unmarshal raw = .ok record) :
      FlushMove codec call store (.get key keys flushed) (.publish key record keys flushed)
  | failed {key record keys flushed err} :
      FlushMove codec call store (.publish key record keys flushed) (.returned flushed err)

theorem begin_move {codec : Codec} (call : FlushCall) {store : String → Option Bytes}
    (answer : Except GoError (List String)) :
    FlushMove codec call store .start (call.begin answer) := by
  unfold FlushCall.begin
  split_ifs
  · exact .refused
  · cases answer with
    | error err => exact .refused
    | ok keys => exact .listed

theorem turn_move {codec : Codec} (call : FlushCall) {store : String → Option Bytes}
    (ctxErr : Option GoError) (flushed : Nat) (keys : List String) :
    FlushMove codec call store (.next keys flushed) (call.turn ctxErr flushed keys) := by
  cases keys with
  | nil => exact .finished
  | cons key keys =>
    unfold FlushCall.turn
    split_ifs with hfull
    · exact .finished
    · cases ctxErr with
      | some err => exact .finished
      | none => exact .took (by omega)

theorem read_move (codec : Codec) {call : FlushCall} {store : String → Option Bytes}
    {value : Option Bytes} {key : String} (hvalue : value = none ∨ value = store key)
    (keys : List String) (flushed : Nat) :
    FlushMove codec call store (.get key keys flushed) (codec.read value key keys flushed) := by
  cases value with
  | none => exact .skipped
  | some raw =>
    have hraw : store key = some raw := by
      rcases hvalue with hnone | hsome
      · cases hnone
      · exact hsome.symm
    cases hread : codec.unmarshal raw with
    | error err =>
      simp only [Codec.read, hread]
      exact .skipped
    | ok record =>
      simp only [Codec.read, hread]
      exact .found hraw hread

variable [DecidableEq E] [DecidableEq L]

-- Everything a step can do.
inductive Move (cfg : Config E L) (s : State E L) : State E L → Prop
  | made {e now} (h : s.enqueue e = .start) :
      Move cfg s { s with enqueue := Function.update s.enqueue e (cfg.begin e now) }
  | put {e record raw} (h : s.enqueue e = .put record raw) :
      Move cfg s { s with
        store := Function.update s.store record.id (some raw)
        enqueue := Function.update s.enqueue e (.returned (.ok record)) }
  | notPut {e record raw store err} (h : s.enqueue e = .put record raw)
      (hstore : store = s.store ∨ store = Function.update s.store record.id (some raw)) :
      Move cfg s { s with
        store := store
        enqueue := Function.update s.enqueue e (.returned (.error err)) }
  | flush {l pc} (h : FlushMove cfg.codec (cfg.flush l) s.store (s.flush l) pc) :
      Move cfg s { s with flush := Function.update s.flush l pc }
  | published {l key record keys flushed} (h : s.flush l = .publish key record keys flushed) :
      Move cfg s { s with
        published := s.published ++ [(l, record.message)]
        flush := Function.update s.flush l (.delete key keys flushed) }
  | deleted {l key keys flushed store} (h : s.flush l = .delete key keys flushed)
      (hstore : store = s.store ∨ store = Function.update s.store key none) :
      Move cfg s { s with
        store := store
        flush := Function.update s.flush l (.next keys (flushed + 1)) }

theorem step_move {a : Act E L} (h : step cfg s a = some t) : Move cfg s t := by
  cases a with
  | make e now =>
    simp only [step] at h
    split at h
    · next hpc => cases h; exact .made hpc
    · cases h
  | put e err stored =>
    simp only [step] at h
    split at h
    · next record raw hpc =>
      cases h
      cases err with
      | none => exact .put hpc
      | some err =>
        refine .notPut hpc ?_
        cases stored
        · exact .inl rfl
        · exact .inr rfl
    · cases h
  | keys l answer =>
    simp only [step] at h
    split at h
    · next hpc =>
      cases h
      exact .flush (hpc ▸ begin_move (cfg.flush l) answer)
    · cases h
  | next l ctxErr =>
    simp only [step] at h
    split at h
    · next keys flushed hpc =>
      cases h
      exact .flush (hpc ▸ turn_move (cfg.flush l) ctxErr flushed keys)
    · cases h
  | get l err =>
    simp only [step] at h
    split at h
    · next key keys flushed hpc =>
      cases h
      refine .flush (hpc ▸ read_move cfg.codec ?_ keys flushed)
      cases err
      · exact .inr rfl
      · exact .inl rfl
    · cases h
  | publish l err =>
    simp only [step] at h
    split at h
    · next key record keys flushed hpc =>
      cases err with
      | some err => cases h; exact .flush (hpc ▸ .failed)
      | none => cases h; exact .published hpc
    · cases h
  | delete l deleted =>
    simp only [step] at h
    split at h
    · next key keys flushed hpc =>
      cases h
      refine .deleted hpc ?_
      cases deleted
      · exact .inl rfl
      · exact .inr rfl
    · cases h

end Moves

-- The call of Enqueue has not called Put yet.
def EnqueuePc.pending : EnqueuePc → Bool
  | .returned _ => false
  | _ => true

-- The key whose value the call of Flush has read.
def FlushPc.key? : FlushPc → Option String
  | .publish key _ _ _ | .delete key _ _ => some key
  | _ => none

-- The successful calls of PublishRaw in it.
def FlushPc.flushed : FlushPc → Nat
  | .start => 0
  | .next _ flushed | .get _ _ flushed | .publish _ _ _ flushed | .returned flushed _ => flushed
  | .delete _ _ flushed => flushed + 1

def FlushPc.serving : FlushPc → Bool
  | .get _ _ _ | .publish _ _ _ _ => true
  | _ => false

-- The record is the one that the call was made for.
def Own (cfg : Config E L) (e : E) (record : Record) : Prop :=
  record.id = cfg.ids e ∧ record.message =
    ⟨(cfg.enqueue e).subject, (cfg.enqueue e).data, (cfg.enqueue e).headers⟩

def Published (s : State E L) (record : Record) : Prop := ∃ l, (l, record.message) ∈ s.published

-- A record that Enqueue has returned.
structure Safe (cfg : Config E L) (s : State E L) (e : E) (record : Record) : Prop where
  own : Own cfg e record
  value : ∀ raw, s.store (cfg.ids e) = some raw → cfg.codec.unmarshal raw = .ok record
  gone : s.store (cfg.ids e) = none → Published s record
  publishing : ∀ l read keys flushed,
    s.flush l = .publish (cfg.ids e) read keys flushed → read = record
  deleting : ∀ l keys flushed, s.flush l = .delete (cfg.ids e) keys flushed → Published s record

structure Inv (cfg : Config E L) (s : State E L) : Prop where
  fresh : ∀ e, (s.enqueue e).pending = true →
    s.store (cfg.ids e) = none ∧ ∀ l, (s.flush l).key? ≠ some (cfg.ids e)
  making : ∀ e record raw, s.enqueue e = .put record raw →
    Own cfg e record ∧ cfg.codec.marshal record = .ok raw
  safe : ∀ e record, s.enqueue e = .returned (.ok record) → Safe cfg s e record

-- The number that Flush will return, and its bound.
structure Counted (cfg : Config E L) [DecidableEq L] (s : State E L) (l : L) : Prop where
  count : (s.flush l).flushed = s.published.countP fun entry => entry.1 = l
  bound : (s.flush l).flushed ≤ (cfg.flush l).bound
  serving : (s.flush l).serving = true → (s.flush l).flushed < (cfg.flush l).bound

section Begin

variable {e : E} {now : Int}

theorem begin_eq_put {record : Record} {raw : Bytes} (h : cfg.begin e now = .put record raw) :
    Own cfg e record ∧ cfg.codec.marshal record = .ok raw := by
  unfold Config.begin at h
  split_ifs at h
  split at h
  · cases h
  · next hraw =>
    cases h
    exact ⟨⟨rfl, rfl⟩, hraw⟩

theorem begin_ne_ok (record : Record) : cfg.begin e now ≠ .returned (.ok record) := by
  intro h
  unfold Config.begin at h
  split_ifs at h <;> first | cases h | (split at h <;> cases h)

end Begin

theorem FlushMove.of_key {codec : Codec} {call : FlushCall} {store : String → Option Bytes}
    {pc pc' : FlushPc} (h : FlushMove codec call store pc pc') {key : String}
    (hkey : pc'.key? = some key) :
    ∃ raw record keys flushed, pc' = .publish key record keys flushed ∧ store key = some raw ∧
      codec.unmarshal raw = .ok record := by
  cases h with
  | found hraw hread =>
    cases hkey
    exact ⟨_, _, _, _, rfl, hraw, hread⟩
  | _ => cases hkey

-- A record stays safe while its value is left alone.
theorem Safe.congr {e : E} {record : Record} (hs : Safe cfg s e record)
    (hstore : t.store (cfg.ids e) = s.store (cfg.ids e)) (hflush : t.flush = s.flush)
    (hpublished : t.published = s.published) : Safe cfg t e record := by
  refine ⟨hs.own, ?_, ?_, ?_, ?_⟩
  · rw [hstore]
    exact hs.value
  · rw [hstore, Published, hpublished]
    exact hs.gone
  · rw [hflush]
    exact hs.publishing
  · rw [hflush, Published, hpublished]
    exact hs.deleting

theorem inv_initial {store : String → Option Bytes} (hfresh : ∀ e, store (cfg.ids e) = none) :
    Inv cfg (initial store) where
  fresh := fun e _ => ⟨hfresh e, fun _ hkey => (by cases hkey)⟩
  making := fun _ _ _ h => (by cases h)
  safe := fun _ _ h => (by cases h)

variable [DecidableEq E] [DecidableEq L]

section Enqueue

variable {e : E} {record : Record} {raw : Bytes}

omit [DecidableEq L] in
theorem Inv.made {now : Int} (hs : Inv cfg s) (h : s.enqueue e = .start) :
    Inv cfg { s with enqueue := Function.update s.enqueue e (cfg.begin e now) } where
  fresh := by
    intro e' hpending
    rcases of_update (P := (EnqueuePc.pending · = true)) hpending with ⟨rfl, -⟩ | ⟨-, hold⟩
    · exact hs.fresh e' (by rw [h]; rfl)
    · exact hs.fresh e' hold
  making := by
    intro e' record raw hput
    rcases update_cases hput with ⟨rfl, hnew⟩ | ⟨-, hold⟩
    · exact begin_eq_put hnew
    · exact hs.making e' record raw hold
  safe := by
    intro e' record hok
    rcases update_cases hok with ⟨rfl, hnew⟩ | ⟨-, hold⟩
    · exact absurd hnew (begin_ne_ok record)
    · exact (hs.safe e' record hold).congr rfl rfl rfl

omit [DecidableEq L] in
-- The end of Enqueue, which touches no other key than its own.
theorem Inv.returned {store : String → Option Bytes} {result : Except GoError Record}
    (hs : Inv cfg s) (hothers : ∀ key, key ≠ cfg.ids e → store key = s.store key)
    (hok : ∀ record, result = .ok record → Safe cfg { s with
      store := store, enqueue := Function.update s.enqueue e (.returned result) } e record) :
    Inv cfg { s with
      store := store, enqueue := Function.update s.enqueue e (.returned result) } := by
  have hstore (e' : E) (he : e' ≠ e) : store (cfg.ids e') = s.store (cfg.ids e') :=
    hothers _ fun hid => he (cfg.unique hid)
  constructor
  · intro e' hpending
    rcases of_update (P := (EnqueuePc.pending · = true)) hpending with ⟨-, hnew⟩ | ⟨he, hold⟩
    · cases hnew
    · obtain ⟨hnone, hunread⟩ := hs.fresh e' hold
      exact ⟨(hstore e' he).trans hnone, hunread⟩
  · intro e' record raw hput
    rcases update_cases hput with ⟨-, hnew⟩ | ⟨-, hold⟩
    · cases hnew
    · exact hs.making e' record raw hold
  · intro e' record hreturned
    rcases update_cases hreturned with ⟨rfl, hnew⟩ | ⟨he, hold⟩
    · cases hnew
      exact hok record rfl
    · exact (hs.safe e' record hold).congr (hstore e' he) rfl rfl

omit [DecidableEq L] in
theorem Inv.put (hs : Inv cfg s) (h : s.enqueue e = .put record raw) :
    Inv cfg { s with
      store := Function.update s.store record.id (some raw)
      enqueue := Function.update s.enqueue e (.returned (.ok record)) } := by
  obtain ⟨hown, hraw⟩ := hs.making e record raw h
  obtain ⟨-, hunread⟩ := hs.fresh e (by rw [h]; rfl)
  rw [hown.1]
  refine hs.returned (fun key hkey => Function.update_of_ne hkey _ _) fun record' he => ?_
  cases he
  refine ⟨hown, ?_, ?_, ?_, ?_⟩
  · intro raw' hvalue
    simp only [Function.update_self, Option.some.injEq] at hvalue
    rw [← hvalue]
    exact cfg.codec.roundTrip record raw hraw
  · intro hnone
    simp only [Function.update_self] at hnone
    cases hnone
  · intro l read keys flushed hpc
    exact absurd (by rw [show s.flush l = _ from hpc]; rfl) (hunread l)
  · intro l keys flushed hpc
    exact absurd (by rw [show s.flush l = _ from hpc]; rfl) (hunread l)

omit [DecidableEq L] in
theorem Inv.notPut {store : String → Option Bytes} {err : GoError} (hs : Inv cfg s)
    (h : s.enqueue e = .put record raw)
    (hstore : store = s.store ∨ store = Function.update s.store record.id (some raw)) :
    Inv cfg { s with
      store := store
      enqueue := Function.update s.enqueue e (.returned (.error err)) } := by
  obtain ⟨hown, -⟩ := hs.making e record raw h
  refine hs.returned (fun key hkey => ?_) fun record' he => (by cases he)
  rcases hstore with rfl | rfl
  · rfl
  · rw [Function.update_of_ne (hown.1 ▸ hkey)]

end Enqueue

section Flush

variable {l : L}

omit [DecidableEq E] in
-- No call of Flush has read the key, if the one that moves has not.
theorem unread_update {key : String} {pc : FlushPc} (hunread : ∀ l, (s.flush l).key? ≠ some key)
    (hpc : pc.key? ≠ some key) (l' : L) : (Function.update s.flush l pc l').key? ≠ some key := by
  intro hkey
  rcases of_update (P := (FlushPc.key? · = some key)) hkey with ⟨-, hnew⟩ | ⟨-, hold⟩
  · exact hpc hnew
  · exact hunread l' hold

omit [DecidableEq E] in
theorem Inv.flush {pc : FlushPc} (hs : Inv cfg s)
    (h : FlushMove cfg.codec (cfg.flush l) s.store (s.flush l) pc) :
    Inv cfg { s with flush := Function.update s.flush l pc } where
  fresh := by
    intro e hpending
    obtain ⟨hnone, hunread⟩ := hs.fresh e hpending
    refine ⟨hnone, unread_update hunread fun hkey => ?_⟩
    obtain ⟨raw, -, -, -, -, hraw, -⟩ := h.of_key hkey
    rw [hnone] at hraw
    cases hraw
  making := hs.making
  safe := by
    intro e record hok
    have hsafe := hs.safe e record hok
    refine ⟨hsafe.own, hsafe.value, hsafe.gone, ?_, ?_⟩
    · intro l' read keys flushed hpc
      rcases update_cases hpc with ⟨-, rfl⟩ | ⟨-, hold⟩
      · obtain ⟨raw, _, _, _, he, hraw, hread⟩ := h.of_key rfl
        cases he
        exact Except.ok.inj (hread.symm.trans (hsafe.value raw hraw))
      · exact hsafe.publishing l' read keys flushed hold
    · intro l' keys flushed hpc
      rcases update_cases hpc with ⟨-, rfl⟩ | ⟨-, hold⟩
      · obtain ⟨_, _, _, _, he, -, -⟩ := h.of_key rfl
        cases he
      · exact hsafe.deleting l' keys flushed hold

omit [DecidableEq E] in
theorem Inv.published {key : String} {record : Record} {keys : List String} {flushed : Nat}
    (hs : Inv cfg s) (h : s.flush l = .publish key record keys flushed) :
    Inv cfg { s with
      published := s.published ++ [(l, record.message)]
      flush := Function.update s.flush l (.delete key keys flushed) } where
  fresh := by
    intro e hpending
    obtain ⟨hnone, hunread⟩ := hs.fresh e hpending
    exact ⟨hnone, unread_update hunread fun hkey => hunread l (by rw [h]; exact hkey)⟩
  making := hs.making
  safe := by
    intro e record' hok
    have hsafe := hs.safe e record' hok
    have hmono (hpublished : Published s record') : Published { s with
        published := s.published ++ [(l, record.message)]
        flush := Function.update s.flush l (.delete key keys flushed) } record' := by
      obtain ⟨l', hmem⟩ := hpublished
      exact ⟨l', List.mem_append_left _ hmem⟩
    refine ⟨hsafe.own, hsafe.value, fun hnone => hmono (hsafe.gone hnone), ?_, ?_⟩
    · intro l' read keys' flushed' hpc
      rcases update_cases hpc with ⟨-, hnew⟩ | ⟨-, hold⟩
      · cases hnew
      · exact hsafe.publishing l' read keys' flushed' hold
    · intro l' keys' flushed' hpc
      rcases update_cases hpc with ⟨rfl, hnew⟩ | ⟨-, hold⟩
      · cases hnew
        obtain rfl := hsafe.publishing l' record keys flushed h
        exact ⟨l', List.mem_append_right _ (List.mem_singleton_self _)⟩
      · exact hmono (hsafe.deleting l' keys' flushed' hold)

omit [DecidableEq E] in
theorem Inv.deleted {key : String} {keys : List String} {flushed : Nat}
    {store : String → Option Bytes} (hs : Inv cfg s) (h : s.flush l = .delete key keys flushed)
    (hstore : store = s.store ∨ store = Function.update s.store key none) :
    Inv cfg { s with
      store := store
      flush := Function.update s.flush l (.next keys (flushed + 1)) } := by
  -- the store has lost nothing but the value of the key
  have hless (k : String) : store k = s.store k ∨ (k = key ∧ store k = none) := by
    rcases hstore with rfl | rfl
    · exact .inl rfl
    · by_cases hk : k = key
      · exact .inr ⟨hk, by rw [hk, Function.update_self]⟩
      · exact .inl (Function.update_of_ne hk _ _)
  constructor
  · intro e hpending
    obtain ⟨hnone, hunread⟩ := hs.fresh e hpending
    refine ⟨?_, unread_update hunread fun hkey => (by cases hkey)⟩
    rcases hless (cfg.ids e) with hsame | ⟨-, hgone⟩
    · exact hsame.trans hnone
    · exact hgone
  · exact hs.making
  · intro e record hok
    have hsafe := hs.safe e record hok
    refine ⟨hsafe.own, ?_, ?_, ?_, ?_⟩
    · intro raw hraw
      rcases hless (cfg.ids e) with hsame | ⟨-, hgone⟩
      · exact hsafe.value raw (hsame.symm.trans hraw)
      · rw [show store (cfg.ids e) = some raw from hraw] at hgone
        cases hgone
    · intro hnone
      rcases hless (cfg.ids e) with hsame | ⟨hkey, -⟩
      · exact hsafe.gone (hsame.symm.trans hnone)
      · exact hsafe.deleting l keys flushed (hkey ▸ h)
    · intro l' read keys' flushed' hpc
      rcases update_cases hpc with ⟨-, hnew⟩ | ⟨-, hold⟩
      · cases hnew
      · exact hsafe.publishing l' read keys' flushed' hold
    · intro l' keys' flushed' hpc
      rcases update_cases hpc with ⟨-, hnew⟩ | ⟨-, hold⟩
      · cases hnew
      · exact hsafe.deleting l' keys' flushed' hold

end Flush

theorem Inv.move (hs : Inv cfg s) (h : Move cfg s t) : Inv cfg t := by
  cases h with
  | made h => exact hs.made h
  | put h => exact hs.put h
  | notPut h hstore => exact hs.notPut h hstore
  | flush h => exact hs.flush h
  | published h => exact hs.published h
  | deleted h hstore => exact hs.deleted h hstore

section Count

variable {l l' : L}

theorem FlushMove.flushed {codec : Codec} {call : FlushCall} {store : String → Option Bytes}
    {pc pc' : FlushPc} (h : FlushMove codec call store pc pc') :
    pc'.flushed = pc.flushed ∧
      (pc'.serving = true → pc.serving = true ∨ (pc.flushed : Int) < call.bound) := by
  cases h with
  | took h => exact ⟨rfl, fun _ => .inr h⟩
  | found h hr => exact ⟨rfl, fun _ => .inl rfl⟩
  | _ => exact ⟨rfl, fun hserving => (by cases hserving)⟩

omit [DecidableEq E] in
-- A call of Flush keeps its number while another call moves.
theorem Counted.congr (hs : Counted cfg s l) (hflush : t.flush l = s.flush l)
    (hpublished : (t.published.countP fun entry => entry.1 = l) =
      s.published.countP fun entry => entry.1 = l) : Counted cfg t l := by
  refine ⟨?_, ?_, ?_⟩ <;> rw [hflush]
  · rw [hpublished]
    exact hs.count
  · exact hs.bound
  · exact hs.serving

theorem Counted.move (hs : Counted cfg s l) (h : Move cfg s t) : Counted cfg t l := by
  cases h with
  | made h => exact hs.congr rfl rfl
  | put h => exact hs.congr rfl rfl
  | notPut h hstore => exact hs.congr rfl rfl
  | @flush l' pc h =>
    by_cases hl : l = l'
    · subst hl
      obtain ⟨hsame, hserving⟩ := h.flushed
      refine ⟨?_, ?_, ?_⟩ <;> simp only [Function.update_self, hsame]
      · exact hs.count
      · exact hs.bound
      · intro hnow
        exact (hserving hnow).elim hs.serving id
    · exact hs.congr (Function.update_of_ne hl _ _) rfl
  | @published l' key record keys flushed h =>
    by_cases hl : l = l'
    · subst hl
      have hcount := hs.count
      have hserving := hs.serving (by rw [h]; rfl)
      rw [h] at hcount hserving
      simp only [FlushPc.flushed] at hcount hserving
      refine ⟨?_, ?_, ?_⟩ <;>
        simp only [Function.update_self, FlushPc.flushed, FlushPc.serving, List.countP_append,
          List.countP_singleton, decide_true, if_true]
      · omega
      · omega
      · intro hnow
        cases hnow
    · have hne : ¬ l' = l := fun he => hl he.symm
      refine hs.congr (Function.update_of_ne hl _ _) ?_
      simp only [List.countP_append, List.countP_singleton, decide_eq_true_eq, hne, if_false,
        Nat.add_zero]
  | @deleted l' key keys flushed store h hstore =>
    by_cases hl : l = l'
    · subst hl
      have hcount := hs.count
      have hbound := hs.bound
      rw [h] at hcount hbound
      refine ⟨?_, ?_, ?_⟩ <;> simp only [Function.update_self]
      · exact hcount
      · exact hbound
      · intro hnow
        cases hnow
    · exact hs.congr (Function.update_of_ne hl _ _) rfl

theorem bound_pos (call : FlushCall) : 0 < call.bound := by
  unfold FlushCall.bound
  split_ifs <;> omega

omit [DecidableEq E] in
theorem counted_initial {store : String → Option Bytes} (l : L) :
    Counted cfg (initial store) l where
  count := rfl
  bound := (bound_pos (cfg.flush l)).le
  serving := fun h => by cases h

end Count

-- Over every interleaving, with every failure: a record that Enqueue has returned is in the
-- store or was published as it is, and Flush returns the number of its successful calls of
-- PublishRaw, never more than its limit.
theorem outbox_at_least_once (cfg : Config E L) (store : String → Option Bytes)
    (hfresh : ∀ e, store (cfg.ids e) = none) {s : State E L}
    (h : Reaches (step cfg) (initial store) s) :
    (∀ e record, s.enqueue e = .returned (.ok record) →
      record.subject = (cfg.enqueue e).subject ∧ record.data = (cfg.enqueue e).data ∧
        record.headers = (cfg.enqueue e).headers ∧
        ((∃ raw, s.store record.id = some raw ∧ cfg.codec.unmarshal raw = .ok record) ∨
          ∃ l, (l, record.message) ∈ s.published)) ∧
      ∀ l flushed err, s.flush l = .returned flushed err →
        flushed = (s.published.countP fun entry => entry.1 = l) ∧
          (flushed : Int) ≤ if (cfg.flush l).limit ≤ 0 then 100 else (cfg.flush l).limit := by
  constructor
  · intro e record hok
    have hinv : Inv cfg s :=
      h.invariant (fun _ _ _ hs hstep => hs.move (step_move hstep)) (inv_initial hfresh)
    have hsafe := hinv.safe e record hok
    obtain ⟨hid, hmessage⟩ := hsafe.own
    refine ⟨congrArg Message.subject hmessage, congrArg Message.data hmessage,
      congrArg Message.headers hmessage, ?_⟩
    rw [hid]
    cases hvalue : s.store (cfg.ids e) with
    | none => exact .inr (hsafe.gone hvalue)
    | some raw => exact .inl ⟨raw, rfl, hsafe.value raw hvalue⟩
  · intro l flushed err hpc
    have hcounted : Counted cfg s l :=
      h.invariant (P := fun u => Counted cfg u l)
        (fun _ _ _ hs hstep => hs.move (step_move hstep)) (counted_initial l)
    have hcount := hcounted.count
    have hbound := hcounted.bound
    rw [hpc] at hcount hbound
    exact ⟨hcount, hbound⟩

-- A record of the first moment, with an empty object for its data, and its JSON.
def recordOf (id subject : String) : Record := ⟨0, ∅, id, subject, Validate.utf8 "\x7b\x7d"⟩

def jsonOf (record : Record) : Bytes :=
  Validate.utf8 "\x7b\"createdAt\":\"1970-01-01T00:00:00Z\",\"id\":\"" ++
    Validate.utf8 record.id ++ Validate.utf8 "\",\"subject\":\"" ++
    Validate.utf8 record.subject ++ Validate.utf8 "\",\"data\":\"e30=\"\x7d"

-- encoding/json on some such records.
def codecFor (records : List Record) (hinj : (records.map jsonOf).Nodup) : Codec where
  marshal record := if record ∈ records then .ok (jsonOf record) else .error (.foreign "json" [])
  unmarshal raw :=
    match records.find? fun record => jsonOf record = raw with
    | some record => .ok record
    | none => .error (.foreign "unexpected end of JSON input" [])
  roundTrip record raw h := by
    split_ifs at h with hmem
    cases h
    have hfound : records.find? (fun other => jsonOf other = jsonOf record) = some record := by
      obtain ⟨other, hother⟩ : ∃ other, records.find? (fun other => jsonOf other = jsonOf record) =
          some other := Option.isSome_iff_exists.mp (List.find?_isSome.mpr ⟨record, hmem, by simp⟩)
      have hsame := List.inj_on_of_nodup_map hinj (List.mem_of_find?_eq_some hother) hmem
        (by simpa using List.find?_some hother)
      rw [hother, hsame]
    rw [hfound]

-- A record which is enqueued and flushed; its Delete fails.
def order : Record := recordOf "a" "orders.created"

def oneRecord : Codec := codecFor [order] (List.nodup_singleton _)

def oneOrder : Config Unit Unit where
  codec := oneRecord
  enqueue _ := ⟨false, order.subject, order.data, order.headers⟩
  flush _ := ⟨false, false, 0⟩
  ids _ := order.id
  unique _ _ _ := rfl

def flushOnce : List (Act Unit Unit) :=
  [.make () 0, .put () none true, .keys () (.ok ["a"]), .next () none, .get () none,
    .publish () none, .delete () false, .next () none]

theorem outbox_at_least_once_flushOnce :
    ∃ s : State Unit Unit, Reaches (step oneOrder) (initial fun _ => none) s ∧
      s.enqueue () = .returned (.ok order) ∧ s.flush () = .returned 1 none ∧
      ((∃ raw, s.store order.id = some raw ∧ oneRecord.unmarshal raw = .ok order) ∨
        ∃ l, (l, order.message) ∈ s.published) ∧
      1 = s.published.countP fun entry => entry.1 = () := by
  obtain ⟨s, hs, henqueue, hflush⟩ : ∃ s : State Unit Unit,
      exec (step oneOrder) (initial fun _ => none) flushOnce = some s ∧
        s.enqueue () = .returned (.ok order) ∧ s.flush () = .returned 1 none :=
    ⟨_, rfl, rfl, rfl⟩
  obtain ⟨hsafe, hcount⟩ := outbox_at_least_once oneOrder (fun _ => none) (fun _ => rfl)
    ⟨flushOnce, hs⟩
  exact ⟨s, ⟨flushOnce, hs⟩, henqueue, hflush, (hsafe () order henqueue).2.2.2,
    (hcount () 1 none hflush).1⟩

end NatsClient.Outbox
