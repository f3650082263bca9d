import NatsClient.Consumer
import NatsClient.Incidents.Index
import NatsClient.ObjectStore

namespace NatsClient.Incidents

open KeyValue (Bucket)
open Lib.Machine
open Replay (StoredMessage)

variable {P σ : Type}

section Model

-- The object stores: an object by its bucket and its name.
abbrev Objects := Bytes × Bytes → Option ObjectStore.Version

def Objects.put (objects : Objects) (bucket name : Bytes) (v : ObjectStore.Version) : Objects :=
  Function.update objects (bucket, name) (some v)

-- Get of the object manager, with nothing between its two requests.
def Objects.get (objects : Objects) (u : ObjectStore.Setup Unit) (bucket name : Bytes) :
    Except GoError ObjectStore.ObjectEntry :=
  let s : ObjectStore.State Unit := ⟨objects, fun _ => [], fun _ => .start⟩
  match ObjectStore.sizeOf u s bucket name none with
  | .error e => .error e
  | .ok info => ObjectStore.contentOf s bucket name info none

def load (unmarshal : Bytes → Except GoError (Capsule P)) (u : ObjectStore.Setup Unit)
    (objects : Objects) (bucket id : Bytes) : Except GoError (Capsule P) :=
  match objects.get u (if bucket = [] then defaultIncidentCapsuleBucket else bucket) id with
  | .error e => .error (.wrap "incident load: " e "")
  | .ok entry =>
    match unmarshal entry.data with
    | .error e => .error (.wrap "incident load decode: " e "")
    | .ok loaded => .ok loaded

def replayMsg (cm : CapsuleMessage) : Msg :=
  ⟨cm.subject, "", (cloneHeaderMap cm.header).getD ∅, cm.data, false⟩

-- The loop of ReplayLocal. A handler has a state of its own.
def replayMessages (handler : σ → Msg → σ × Outcome) :
    List CapsuleMessage → σ → σ × Option GoError
  | [], state => (state, none)
  | cm :: rest, state =>
    let (next, outcome) := handler state (replayMsg cm)
    match outcome.err with
    | some e =>
      (next, some (.wrap ("incident replay seq=" ++ toString cm.sequence ++ " subject=" ++
        quoted cm.subject ++ ": ") e ""))
    | none => replayMessages handler rest next

def replayLocal (capsule : Option (Capsule P)) (handler : Option (σ → Msg → σ × Outcome))
    (state : σ) : σ × Option GoError :=
  match capsule, handler with
  | none, _ => (state, some (.foreign "incident replay: nil capsule" []))
  | some _, none => (state, some (.foreign "incident replay: nil handler" []))
  | some capsule, some handler => replayMessages handler capsule.messages state

end Model

section Replaying

variable {handler : σ → Msg → σ × Outcome} {cms : List CapsuleMessage} {state : σ}

-- The state of a handler behind these messages.
def handed (handler : σ → Msg → σ × Outcome) (state : σ) (cms : List CapsuleMessage) : σ :=
  cms.foldl (fun s cm => (handler s (replayMsg cm)).1) state

-- The handler takes every one of them.
def Takes (handler : σ → Msg → σ × Outcome) (state : σ) (cms : List CapsuleMessage) : Prop :=
  ∀ before cm rest, cms = before ++ cm :: rest →
    (handler (handed handler state before) (replayMsg cm)).2.err = none

-- A replay hands the messages over in their order, each once and up to the first that fails.
inductive Replays (handler : σ → Msg → σ × Outcome) (state : σ) (cms : List CapsuleMessage) :
    σ × Option GoError → Prop
  | all (takes : Takes handler state cms) :
      Replays handler state cms (handed handler state cms, none)
  | failed (before rest : List CapsuleMessage) (cm : CapsuleMessage) (e : GoError)
      (split : cms = before ++ cm :: rest) (takes : Takes handler state before)
      (fails : (handler (handed handler state before) (replayMsg cm)).2.err = some e) :
      Replays handler state cms (handed handler state (before ++ [cm]),
        some (.wrap ("incident replay seq=" ++ toString cm.sequence ++ " subject=" ++
          quoted cm.subject ++ ": ") e ""))

theorem takes_nil (handler : σ → Msg → σ × Outcome) (state : σ) : Takes handler state [] := by
  intro before cm rest h
  exact absurd h.symm (by simp)

theorem Takes.cons {cm : CapsuleMessage} (hcm : (handler state (replayMsg cm)).2.err = none)
    (h : Takes handler (handler state (replayMsg cm)).1 cms) :
    Takes handler state (cm :: cms) := by
  intro before next rest hsplit
  cases before with
  | nil =>
    cases hsplit
    exact hcm
  | cons first before =>
    cases hsplit
    exact h before next rest rfl

theorem replayMessages_replays (handler : σ → Msg → σ × Outcome) (cms : List CapsuleMessage)
    (state : σ) : Replays handler state cms (replayMessages handler cms state) := by
  induction cms generalizing state with
  | nil => exact .all (takes_nil handler state)
  | cons cm cms ih =>
    simp only [replayMessages]
    cases hcm : (handler state (replayMsg cm)).2.err with
    | some e => exact .failed [] cms cm e rfl (takes_nil handler state) hcm
    | none =>
      have hrest := ih (handler state (replayMsg cm)).1
      simp only
      generalize replayMessages handler cms (handler state (replayMsg cm)).1 = result at hrest
      cases hrest with
      | all takes => exact .all (takes.cons hcm)
      | failed before rest next e split takes fails =>
        exact .failed (cm :: before) rest next e (by rw [split]; rfl) (takes.cons hcm) fails

end Replaying

section Shelf

-- The object stores and the buckets that the calls of Capture share.
structure Shelf where
  objects : Objects
  buckets : Bytes → Bucket

-- A call that returns a capsule.
def shelve (s : Shelf) (c : Call P) : Option Shelf :=
  match capture c.managers s.buckets c.id c.now c.cfg with
  | some (.ok made, buckets) =>
    match c.managers.marshal made with
    | .ok raw => some ⟨s.objects.put c.cfg.store c.id ⟨raw, c.now⟩, buckets⟩
    | .error _ => none
  | _ => none

-- The capsule of a call, from the messages that GetMsgRange has returned to it.
structure Made (c : Call P) (made : Capsule P) : Prop where
  window : ∃ msgs truncated,
    window c.managers c.cfg (failingSeq c.managers c.cfg) = some ⟨msgs, truncated, none⟩ ∧
      made = capsule c.cfg c.id c.now (failingSeq c.managers c.cfg) msgs

theorem made_of_capture {c : Call P} {buckets buckets' : Bytes → Bucket} {made : Capsule P}
    (h : capture c.managers buckets c.id c.now c.cfg = some (.ok made, buckets')) :
    Made c made := by
  unfold capture at h
  split at h
  · cases h
  · split_ifs at h
    · cases h
    split at h
    · cases h
    · cases h
    · next msgs truncated hwindow =>
        dsimp only at h
        split at h
        · cases h
        · split at h
          · cases h
          · cases h
            exact ⟨msgs, truncated, hwindow, rfl⟩

variable {s t : Shelf} {c : Call P} {calls : List (Call P)}

theorem shelve_cases (h : shelve s c = some t) :
    ∃ made raw, Made c made ∧ c.managers.marshal made = .ok raw ∧
      t.objects = s.objects.put c.cfg.store c.id ⟨raw, c.now⟩ ∧
      succeed s.buckets c = some t.buckets := by
  unfold shelve at h
  split at h
  · next made buckets hcapture =>
      split at h
      · next raw hmarshal =>
          cases h
          exact ⟨made, raw, made_of_capture hcapture, hmarshal, rfl, by simp [succeed, hcapture]⟩
      · cases h
  · cases h

theorem exec_succeed (h : exec shelve s calls = some t) :
    exec succeed s.buckets calls = some t.buckets := by
  induction calls generalizing s with
  | nil =>
    cases h
    rfl
  | cons c calls ih =>
    obtain ⟨next, hstep, hrest⟩ := exec_cons_eq_some.mp h
    obtain ⟨-, -, -, -, -, hbuckets⟩ := shelve_cases hstep
    exact exec_cons_eq_some.mpr ⟨next.buckets, hbuckets, ih hrest⟩

-- An object stays as long as no call has its name.
theorem exec_objects_of_notMem (h : exec shelve s calls = some t) {id : Bytes}
    (hid : ∀ c ∈ calls, c.id ≠ id) (bucket : Bytes) :
    t.objects (bucket, id) = s.objects (bucket, id) := by
  induction calls generalizing s with
  | nil =>
    cases h
    rfl
  | cons c calls ih =>
    obtain ⟨next, hstep, hrest⟩ := exec_cons_eq_some.mp h
    obtain ⟨-, raw, -, -, hobjects, -⟩ := shelve_cases hstep
    have hne : (bucket, id) ≠ (c.cfg.store, c.id) := fun h =>
      hid c (List.mem_cons_self ..) (congrArg Prod.snd h).symm
    rw [ih hrest fun c hc => hid c (List.mem_cons_of_mem _ hc), hobjects, Objects.put,
      Function.update_of_ne hne]

-- Behind a run every call finds what it has stored.
theorem exec_objects (h : exec shelve s calls = some t) (hids : (calls.map Call.id).Nodup)
    (hc : c ∈ calls) :
    ∃ made raw, Made c made ∧ c.managers.marshal made = .ok raw ∧
      t.objects (c.cfg.store, c.id) = some ⟨raw, c.now⟩ := by
  induction calls generalizing s with
  | nil => cases hc
  | cons first calls ih =>
    obtain ⟨next, hstep, hrest⟩ := exec_cons_eq_some.mp h
    rw [List.map_cons, List.nodup_cons] at hids
    rcases List.mem_cons.mp hc with rfl | hc
    · obtain ⟨made, raw, hmade, hmarshal, hobjects, -⟩ := shelve_cases hstep
      refine ⟨made, raw, hmade, hmarshal, ?_⟩
      have hother : ∀ other ∈ calls, other.id ≠ c.id := fun other hmem heq =>
        hids.1 (heq ▸ List.mem_map_of_mem hmem)
      rw [exec_objects_of_notMem hrest hother, hobjects, Objects.put, Function.update_self]
    · exact ih hrest hids.2 hc

end Shelf

section Loading

variable {unmarshal : Bytes → Except GoError (Capsule P)}
  {marshal : Capsule P → Except GoError Bytes}

-- A message as it comes back: an empty header is left out of the JSON.
def readBack (cm : CapsuleMessage) : CapsuleMessage :=
  { cm with header := cloneHeaderMap cm.header }

-- The JSON of a capsule gives its messages back.
def Reads (unmarshal : Bytes → Except GoError (Capsule P))
    (marshal : Capsule P → Except GoError Bytes) : Prop :=
  ∀ made raw, marshal made = .ok raw →
    ∃ loaded, unmarshal raw = .ok loaded ∧ loaded.messages = made.messages.map readBack

theorem replayMsg_readBack (cm : CapsuleMessage) : replayMsg (readBack cm) = replayMsg cm := by
  have hclone : cloneHeaderMap (cloneHeaderMap cm.header) = cloneHeaderMap cm.header := by
    simp [cloneHeaderMap, Option.filter_filter]
  simp only [replayMsg, readBack, hclone]

theorem replayMessages_readBack (handler : σ → Msg → σ × Outcome) (cms : List CapsuleMessage)
    (state : σ) : replayMessages handler (cms.map readBack) state =
      replayMessages handler cms state := by
  induction cms generalizing state with
  | nil => rfl
  | cons cm cms ih =>
    simp only [List.map_cons, replayMessages, replayMsg_readBack, ih]
    rfl

-- Get takes what a call has stored: the bucket opens, and the capsule is within the limit of Get,
-- which Put does not have.
structure Fetchable (u : ObjectStore.Setup Unit) (c : Call P) : Prop where
  opens : ObjectStore.openErr u "get object" c.cfg.store c.id = none
  fits : ∀ made raw, Made c made → c.managers.marshal made = .ok raw →
    raw.length ≤ ObjectStore.maxObjectGetBytes

theorem Objects.get_of_some {objects : Objects} {u : ObjectStore.Setup Unit} {bucket name : Bytes}
    {v : ObjectStore.Version} (hopen : ObjectStore.openErr u "get object" bucket name = none)
    (hobject : objects (bucket, name) = some v)
    (hfits : v.data.length ≤ ObjectStore.maxObjectGetBytes) :
    objects.get u bucket name = .ok ⟨v.modTime, bucket, name, v.data, v.data.length⟩ := by
  have hsize : ¬ ObjectStore.maxObjectGetBytes < v.info.size := Nat.not_lt_of_le hfits
  have hread : ObjectStore.readFull v v.info.size = .ok v.data := by
    simp [ObjectStore.readFull, ObjectStore.Version.info]
  simp only [Objects.get, ObjectStore.sizeOf, hopen, ObjectStore.State.answer, hobject,
    if_neg hsize, ObjectStore.contentOf, hread]
  rfl

theorem load_of_objects {objects : Objects} {u : ObjectStore.Setup Unit} {c : Call P}
    {raw : Bytes} {made : Capsule P} (hfetch : Fetchable u c) (hmade : Made c made)
    (hobject : objects (c.cfg.store, c.id) = some ⟨raw, c.now⟩)
    (hmarshal : c.managers.marshal made = .ok raw)
    (hreads : Reads unmarshal c.managers.marshal) :
    ∃ loaded, load unmarshal u objects c.cfg.storeBucket c.id = .ok loaded ∧
      loaded.messages = made.messages.map readBack := by
  obtain ⟨loaded, hloaded, hmessages⟩ := hreads made raw hmarshal
  refine ⟨loaded, ?_, hmessages⟩
  have hget := Objects.get_of_some hfetch.opens hobject (hfetch.fits made raw hmade hmarshal)
  rw [IncidentCapture.store] at hget
  simp only [load, hget, hloaded]

variable {s t : Shelf} {m : Managers P} {calls : List (Call P)} {indexBucket : Bytes}
  {keys : Except GoError (Page.Slice Bytes)}

-- The capsule of one message, made at the Unix epoch, and its JSON.
def orderCapsule : Capsule Unit :=
  ⟨0, none, [0x61], Validate.utf8 "orders", Validate.utf8 "worker", .manual, [], [],
    [⟨0, none, "orders", [7], 5⟩], [], 5, 1⟩

def orderJson : Bytes :=
  Validate.utf8 "\x7b\"createdAt\":\"1970-01-01T00:00:00Z\",\"id\":\"a\",\"stream\":\"orders\"," ++
    Validate.utf8 "\"consumer\":\"worker\",\"trigger\":\"manual\",\"messages\":[\x7b\"time\":" ++
    Validate.utf8 "\"1970-01-01T00:00:00Z\",\"subject\":\"orders\",\"data\":\"Bw==\"," ++
    Validate.utf8 "\"sequence\":5\x7d],\"failingSeq\":5,\"schemaVersion\":1\x7d"

-- A stream with that message; the codec knows its capsule.
def oneOrder : Managers Unit where
  streamInfo := none
  getMsgRange _ _ _ _ := some ⟨[⟨0, none, "orders", [7], 5, .json⟩], false, none⟩
  marshal made :=
    if made = orderCapsule then .ok orderJson
    else .error (.foreign "json: unsupported value" [])
  putObject _ _ _ := none
  keyValue _ := none
  kvPut := none

def readOrder (data : Bytes) : Except GoError (Capsule Unit) :=
  if data = orderJson then .ok orderCapsule
  else .error (.foreign "unexpected end of JSON input" [])

theorem oneOrder_reads : Reads readOrder oneOrder.marshal := by
  intro made raw h
  simp only [oneOrder] at h
  split_ifs at h with hmade
  cases h
  exact ⟨orderCapsule, if_pos rfl, by rw [hmade]; rfl⟩

def captureOrder : Call Unit :=
  { callFor "worker" with
    managers := oneOrder, cfg := { (callFor "worker").cfg with failingSeq := 5 } }

-- What the call leaves behind.
def orderShelf : Shelf :=
  ⟨Objects.put (fun _ => none) defaultIncidentCapsuleBucket [0x61] ⟨orderJson, 0⟩,
    putIndex oneOrder noBuckets defaultIncidentIndexBucket workerKey [0x61] 0⟩

def openStores : ObjectStore.Setup Unit := ⟨fun _ => .get [] [], fun _ => none⟩

theorem captureOrder_fetchable : Fetchable openStores captureOrder where
  opens := by decide
  fits := by
    rintro made raw - hmarshal
    have hraw : raw = orderJson := by
      simp only [captureOrder, oneOrder] at hmarshal
      split_ifs at hmarshal
      cases hmarshal
      rfl
    rw [hraw]
    decide +kernel

end Loading

end NatsClient.Incidents
