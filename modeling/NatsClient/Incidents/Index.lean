import NatsClient.Incidents
import NatsClient.KeyValue.Theorems
import NatsClient.Lib.Words
import NatsClient.Page.Theorems

namespace NatsClient.Incidents

open KeyValue (Bucket)
open Lib.Machine

variable {P : Type} {m : Managers P} {buckets buckets' : Bytes → Bucket}

-- A call of Capture, with what its managers answer.
structure Call (P : Type) where
  managers : Managers P
  id : Bytes
  now : Nat
  cfg : IncidentCapture P

namespace Call

def index (c : Call P) : Bytes := indexOrDefault c.cfg.indexBucket

def key (c : Call P) : Bytes := incidentIndexKey c.cfg.stream c.cfg.consumer c.id

-- The broker carries out what the checks of Put let through.
def Available (c : Call P) : Prop :=
  (∀ bucket, c.managers.keyValue bucket = none) ∧ c.managers.kvPut = none

end Call

-- A call that returns a capsule.
def succeed (buckets : Bytes → Bucket) (c : Call P) : Option (Bytes → Bucket) :=
  match capture c.managers buckets c.id c.now c.cfg with
  | some (.ok _, buckets') => some buckets'
  | _ => none

theorem capture_ok {id : Bytes} {now : Nat} {cfg : IncidentCapture P} {made : Capsule P}
    (h : capture m buckets id now cfg = some (.ok made, buckets')) :
    buckets' = putIndex m buckets (indexOrDefault cfg.indexBucket)
      (incidentIndexKey cfg.stream cfg.consumer id) id now := by
  unfold capture at h
  split at h
  · cases h
  · split_ifs at h
    · cases h
    split at h
    · cases h
    · cases h
    · dsimp only at h
      split at h
      · cases h
      · split at h
        · cases h
        · cases h
          rfl

theorem succeed_eq {c : Call P} (h : succeed buckets c = some buckets') :
    buckets' = putIndex c.managers buckets c.index c.key c.id c.now := by
  rw [succeed] at h
  split at h
  · next hcapture =>
      cases h
      exact capture_ok hcapture
  · cases h

theorem entry_put_of_ne (buckets : Bytes → Bucket) {index key bucket other : Bytes}
    (h : ¬(index = bucket ∧ key = other)) (value : Bytes) (now : Nat) :
    (Function.update buckets index ((buckets index).put key value now) bucket).entry other =
      (buckets bucket).entry other := by
  by_cases hbucket : bucket = index
  · subst hbucket
    have hkey : other ≠ key := fun heq => h ⟨rfl, heq.symm⟩
    simp only [Function.update_self, Bucket.put, Function.update_of_ne hkey]
  · rw [Function.update_of_ne hbucket]

-- The call has written the key to the bucket.
def Indexed (c : Call P) (bucket key : Bytes) : Prop :=
  (c.index = bucket ∧ c.key = key) ∧ Validate.validateBucketName bucket = none ∧
    Validate.validateKVKey key = none

theorem isSome_putIndex (c : Call P) (havailable : c.Available) (bucket key : Bytes) :
    ((putIndex c.managers buckets c.index c.key c.id c.now bucket).entry key).isSome ↔
      ((buckets bucket).entry key).isSome ∨ Indexed c bucket key := by
  obtain ⟨hkeyValue, hput⟩ := havailable
  rw [putIndex]
  cases hwrite : KeyValue.writeErr c.managers.keyValue "put kv" c.index c.key c.managers.kvPut with
  | some e =>
    refine (or_iff_left ?_).symm
    rintro ⟨⟨rfl, rfl⟩, hbucket, hkey⟩
    rw [KeyValue.writeErr_eq_none_iff.mpr ⟨⟨hbucket, hkey, hkeyValue _⟩, hput⟩] at hwrite
    cases hwrite
  | none =>
    obtain ⟨⟨hbucket, hkey, -⟩, -⟩ := KeyValue.writeErr_eq_none_iff.mp hwrite
    by_cases hplace : c.index = bucket ∧ c.key = key
    · obtain ⟨rfl, rfl⟩ := hplace
      refine iff_of_true ?_ (.inr ⟨⟨rfl, rfl⟩, hbucket, hkey⟩)
      simp only [Function.update_self, Bucket.put, Option.isSome_some]
    · have hframe := entry_put_of_ne buckets hplace c.id c.now
      rw [hframe]
      exact (or_iff_left fun hindexed => hplace hindexed.1).symm

theorem isSome_exec {calls : List (Call P)} (havailable : ∀ c ∈ calls, c.Available)
    (h : exec succeed buckets calls = some buckets') (bucket key : Bytes) :
    ((buckets' bucket).entry key).isSome ↔
      ((buckets bucket).entry key).isSome ∨ ∃ c ∈ calls, Indexed c bucket key := by
  induction calls generalizing buckets with
  | nil =>
    cases h
    simp only [List.not_mem_nil, false_and, exists_false, or_false]
  | cons c calls ih =>
    obtain ⟨next, hstep, hrest⟩ := exec_cons_eq_some.mp h
    rw [List.forall_mem_cons] at havailable
    rw [ih havailable.2 hrest, succeed_eq hstep, isSome_putIndex c havailable.1, or_assoc]
    simp only [List.mem_cons, exists_eq_or_imp]

theorem incidentIndexKey_eq_append (stream consumer id : Bytes) :
    incidentIndexKey stream consumer id = incidentIndexKey stream consumer [] ++ id := by
  simp only [incidentIndexKey, List.append_assoc, List.cons_append, List.nil_append]

theorem strip_append (begins id : Bytes) :
    (if begins.isPrefixOf (begins ++ id) then some ((begins ++ id).drop begins.length)
      else none) = some id := by
  rw [if_pos (List.isPrefixOf_iff_prefix.mpr (List.prefix_append _ _)), List.drop_left]

theorem strip_eq_some {begins k id : Bytes}
    (h : (if begins.isPrefixOf k then some (k.drop begins.length) else none) = some id) :
    k = begins ++ id := by
  split_ifs at h with hbegins
  obtain ⟨rest, rfl⟩ := List.isPrefixOf_iff_prefix.mp hbegins
  rw [List.drop_left] at h
  rw [Option.some.inj h]

-- What List returns: the rest of every key that begins with the stream and the consumer.
theorem list_ids {b : Bucket} {keys : Except GoError (Page.Slice Bytes)} {indexBucket : Bytes}
    (hkeyValue : ∀ bucket, m.keyValue bucket = none)
    (hbucket : Validate.validateBucketName (indexOrDefault indexBucket) = none)
    (hkeys : b.Keys keys) (stream consumer : Bytes) :
    ∃ ids, list m keys stream consumer indexBucket = some (.ok ids) ∧ ids.Nodup ∧
      ∀ id, id ∈ ids ↔ (b.entry (incidentIndexKey stream consumer id)).isSome := by
  obtain ⟨all, total, hall, hnodup, hmem⟩ := KeyValue.listKeys_all hbucket (hkeyValue _) hkeys
  simp only [list, hall]
  refine ⟨_, rfl, hnodup.filterMap ?_, fun id => ?_⟩
  · intro k k' id hk hk'
    rw [strip_eq_some hk, strip_eq_some hk']
  · rw [← hmem, List.mem_filterMap]
    constructor
    · rintro ⟨k, hk, hid⟩
      rw [incidentIndexKey_eq_append, ← strip_eq_some hid]
      exact hk
    · intro hin
      have hstrip := strip_append (incidentIndexKey stream consumer []) id
      rw [← incidentIndexKey_eq_append] at hstrip
      exact ⟨_, hin, hstrip⟩

theorem slash_not_mem_of_validateAssetName {name : Bytes} {kind : String}
    (h : Validate.validateAssetName name kind = none) : slash ∉ name := by
  intro hmem
  have hrune : '/' ∈ Lib.Utf8.runes name :=
    (Lib.Utf8.mem_runes_iff (by decide)).mpr ((List.singleton_infix_iff slash name).mpr hmem)
  have hany : (Lib.Utf8.runes name).any
      (· ∈ [' ', '\t', '\r', '\n', '\x0c', '.', '*', '>', '\\', '/']) = true :=
    List.any_eq_true.mpr ⟨'/', hrune, by decide⟩
  rw [Validate.validateAssetName] at h
  simp only [hany, if_true] at h
  split_ifs at h

theorem slash_not_mem_of_validateStreamName {name : Bytes}
    (h : Validate.validateStreamName name = none) : slash ∉ name :=
  slash_not_mem_of_validateAssetName (Option.map_eq_none_iff.mp h)

theorem slash_not_mem_of_validateDurableName {name : Bytes}
    (h : Validate.validateDurableName name = none) : slash ∉ name :=
  slash_not_mem_of_validateAssetName (Option.map_eq_none_iff.mp h)

-- A stream and a consumer that the key can be read back from.
structure Named (stream consumer : Bytes) : Prop where
  stream : Validate.validateStreamName stream = none
  consumer : Validate.validateDurableName consumer = none

theorem incidentIndexKey_inj {stream consumer id stream' consumer' id' : Bytes}
    (h : Named stream consumer) (h' : Named stream' consumer')
    (hkey : incidentIndexKey stream consumer id = incidentIndexKey stream' consumer' id') :
    stream = stream' ∧ consumer = consumer' ∧ id = id' := by
  obtain ⟨hstream, hrest⟩ := Lib.Words.append_cons_inj_left
    (slash_not_mem_of_validateStreamName h.stream)
    (slash_not_mem_of_validateStreamName h'.stream) hkey
  exact ⟨hstream, Lib.Words.append_cons_inj_left (slash_not_mem_of_validateDurableName h.consumer)
    (slash_not_mem_of_validateDurableName h'.consumer) hrest⟩

-- The ids of the capsules of the stream and the consumer.
def captured (calls : List (Call P)) (index stream consumer : Bytes) : List Bytes :=
  (calls.filter fun c => c.index = index ∧ c.cfg.stream = stream ∧ c.cfg.consumer = consumer).map
    Call.id

theorem mem_captured_iff {calls : List (Call P)} {index stream consumer id : Bytes} :
    id ∈ captured calls index stream consumer ↔
      ∃ c ∈ calls, c.index = index ∧ c.cfg.stream = stream ∧ c.cfg.consumer = consumer ∧
        c.id = id := by
  simp only [captured, List.mem_map, List.mem_filter, decide_eq_true_eq, and_assoc]

theorem nodup_captured {calls : List (Call P)} (hids : (calls.map Call.id).Nodup)
    (index stream consumer : Bytes) : (captured calls index stream consumer).Nodup :=
  hids.sublist (List.filter_sublist.map _)

-- After the calls List returns what they have written under the stream and the consumer.
theorem list_indexed {calls : List (Call P)} {keys : Except GoError (Page.Slice Bytes)}
    {indexBucket : Bytes} (hrun : exec succeed buckets calls = some buckets')
    (hempty : ∀ key, (buckets (indexOrDefault indexBucket)).entry key = none)
    (havailable : ∀ c ∈ calls, c.Available)
    (hbucket : Validate.validateBucketName (indexOrDefault indexBucket) = none)
    (hkeyValue : ∀ bucket, m.keyValue bucket = none)
    (hkeys : (buckets' (indexOrDefault indexBucket)).Keys keys) (stream consumer : Bytes) :
    ∃ ids, list m keys stream consumer indexBucket = some (.ok ids) ∧ ids.Nodup ∧
      ∀ id, id ∈ ids ↔ ∃ c ∈ calls,
        Indexed c (indexOrDefault indexBucket) (incidentIndexKey stream consumer id) := by
  obtain ⟨ids, hlist, hnodup, hmem⟩ := list_ids hkeyValue hbucket hkeys stream consumer
  refine ⟨ids, hlist, hnodup, fun id => ?_⟩
  rw [hmem, isSome_exec havailable hrun, hempty]
  simp only [Option.isSome_none, Bool.false_eq_true, false_or]

-- After successful calls List finds all capsules, unless ValidateKVKey rejects the key of one:
-- Capture drops that error.
theorem list_captured_iff {calls : List (Call P)} {keys : Except GoError (Page.Slice Bytes)}
    {indexBucket : Bytes} (hrun : exec succeed buckets calls = some buckets')
    (hempty : ∀ key, (buckets (indexOrDefault indexBucket)).entry key = none)
    (hnames : ∀ c ∈ calls, Named c.cfg.stream c.cfg.consumer)
    (hids : (calls.map Call.id).Nodup) (havailable : ∀ c ∈ calls, c.Available)
    (hbucket : Validate.validateBucketName (indexOrDefault indexBucket) = none)
    (hkeyValue : ∀ bucket, m.keyValue bucket = none)
    (hkeys : (buckets' (indexOrDefault indexBucket)).Keys keys) :
    (∀ stream consumer, Named stream consumer →
        ∃ ids, list m keys stream consumer indexBucket = some (.ok ids) ∧
          ids.Perm (captured calls (indexOrDefault indexBucket) stream consumer)) ↔
      ∀ c ∈ calls, c.index = indexOrDefault indexBucket → Validate.validateKVKey c.key = none := by
  have hindexed := list_indexed hrun hempty havailable hbucket hkeyValue hkeys
  constructor
  · intro hlist c hc hindex
    obtain ⟨ids, hids, hperm⟩ := hlist c.cfg.stream c.cfg.consumer (hnames c hc)
    obtain ⟨ids', hids', -, hmem⟩ := hindexed c.cfg.stream c.cfg.consumer
    rw [hids] at hids'
    cases hids'
    have hcaptured : c.id ∈ captured calls (indexOrDefault indexBucket) c.cfg.stream
        c.cfg.consumer := mem_captured_iff.mpr ⟨c, hc, hindex, rfl, rfl, rfl⟩
    obtain ⟨_, _, hwritten⟩ := (hmem c.id).mp (hperm.mem_iff.mpr hcaptured)
    exact hwritten.2.2
  · intro hvalid stream consumer hnamed
    obtain ⟨ids, hlist, hnodup, hmem⟩ := hindexed stream consumer
    refine ⟨ids, hlist, (List.perm_ext_iff_of_nodup hnodup (nodup_captured hids ..)).mpr ?_⟩
    intro id
    rw [hmem, mem_captured_iff]
    constructor
    · rintro ⟨c, hc, ⟨hindex, hkey⟩, -⟩
      exact ⟨c, hc, hindex, incidentIndexKey_inj (hnames c hc) hnamed hkey⟩
    · rintro ⟨c, hc, hindex, rfl, rfl, rfl⟩
      exact ⟨c, hc, ⟨hindex, rfl⟩, hbucket, hvalid c hc hindex⟩

-- Capture for the stream orders, with the id a.
def callFor (consumer : String) : Call Unit where
  managers := accepting
  id := [0x61]
  now := 0
  cfg :=
    { redact := none, flightRecorder := none, fingerprint := none, stream := Validate.utf8 "orders",
      consumer := Validate.utf8 consumer, subject := [], reason := [], storeBucket := [],
      indexBucket := [], trigger := none, failingSeq := 0, window := 0 }

def noBuckets : Bytes → Bucket := fun _ => ⟨0, fun _ => none⟩

def workerKey : Bytes := Validate.utf8 "orders/worker/a"

theorem list_captured_worker : ∃ ids,
    list accepting (.ok ⟨[workerKey], by decide⟩) (Validate.utf8 "orders")
        (Validate.utf8 "worker") [] =
      some (.ok ids) ∧ ids.Perm [[0x61]] := by
  have hrun : exec succeed noBuckets [callFor "worker"] =
      some (putIndex accepting noBuckets defaultIncidentIndexBucket workerKey [0x61] 0) := rfl
  refine (list_captured_iff hrun (fun _ => rfl) ?_ ?_ ?_ ?_ (fun _ => rfl) ?_).mpr ?_ _ _ ?_
  · simp only [List.forall_mem_singleton]
    exact ⟨by decide, by decide⟩
  · decide
  · simp only [List.forall_mem_singleton]
    exact ⟨fun _ => rfl, rfl⟩
  · decide
  · refine .found (by decide) fun key => ?_
    have hentry : (putIndex accepting noBuckets defaultIncidentIndexBucket workerKey [0x61] 0
        (indexOrDefault [])).entry = Function.update (fun _ => none) workerKey
          (some ⟨[0x61], 1, 0⟩) := rfl
    rw [hentry, List.mem_singleton]
    by_cases hkey : key = workerKey
    · simp only [hkey, Function.update_self, Option.isSome_some]
    · simp only [hkey, Function.update_of_ne hkey, Option.isSome_none, Bool.false_eq_true]
  · simp only [List.forall_mem_singleton]
    exact fun _ => by decide
  · exact ⟨by decide, by decide⟩

-- The colon of the consumer is no character of keys.
theorem list_misses :
    Named (Validate.utf8 "orders") (Validate.utf8 "worker:1") ∧
    exec succeed noBuckets [callFor "worker:1"] = some noBuckets ∧
    (noBuckets defaultIncidentIndexBucket).Keys (.error (.sentinel .errNoKeysFound)) ∧
    list accepting (.error (.sentinel .errNoKeysFound)) (Validate.utf8 "orders")
        (Validate.utf8 "worker:1") [] = some (.ok []) ∧
    captured [callFor "worker:1"] defaultIncidentIndexBucket (Validate.utf8 "orders")
        (Validate.utf8 "worker:1") = [[0x61]] := by
  refine ⟨⟨by decide, by decide⟩, rfl, .missing fun _ => rfl, rfl, ?_⟩
  decide

end NatsClient.Incidents
