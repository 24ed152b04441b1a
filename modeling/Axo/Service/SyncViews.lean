import Axo.Lib.Overlay
import Axo.Service.SyncNode

/-!
# The stores of an endpoint as one map

The three stores of an endpoint seen as one map from keys to records (`SyncNode.stored`), and the
three dicts of its tracker, of its cluster state and of a push seen as diffs of that map
(`DirtyTracker.pending`, `ClusterState.held`, `StatePush.changes`), in which a tombstone is the
new value `none`.

Each operation of an endpoint is then an operation on the map and its diffs:

* a registry call writes one key and notes it (`perform_cases`, and in two steps `write_cases`
  and `notify_write`);
* a flush moves what is pending into what is held and into a push (`flush_held`, `tick_cases`);
* a push is laid over the stores and over what is held, and the datasets that it deletes are noted
  as deleted (`handlePush_ok`, `pullFrom_cases`).
-/

namespace Axo

open Diff

/-- A key of one of the three stores. -/
inductive SyncKey
  | function (key : RecordKey)
  | data (key : RecordKey)
  | bucket (name : String)
  deriving DecidableEq

/-- A record of one of the three stores. -/
inductive SyncRecord
  | function (record : RegisteredFunction)
  | data (record : DataRecord)
  | bucket (bucket : DataBucket)
  deriving DecidableEq

/-- What is stored under each key. -/
abbrev SyncStore := SyncKey → Option SyncRecord

/-- Changes of the stores. -/
abbrev SyncDiff := Diff SyncKey (Option SyncRecord)

/-- A change of a key: its new record, or its deletion. -/
abbrev SyncChange := SyncKey × Option SyncRecord

/-- The key an event is about. -/
def RegistryEvent.key : RegistryEvent → SyncKey
  | .functionRegistered key | .functionUpdated key | .functionDeleted key => .function key
  | .dataRegistered key | .dataDeleted key => .data key
  | .bucketRegistered name => .bucket name

/-- The event says that a record was deleted. -/
def RegistryEvent.deletes : RegistryEvent → Bool
  | .functionDeleted _ | .dataDeleted _ => true
  | _ => false

/-- What a blob leaves in the store. -/
def Blob.stored {α : Type*} (ofDoc : α → SyncRecord) : Blob α → Option SyncRecord
  | .record doc => some (ofDoc doc)
  | .tombstone => none

/-- The record of a function's document. -/
def SyncRecord.ofFunctionDoc (doc : FunctionDoc) : SyncRecord :=
  .function (deserializeFunctionRecord doc)

/-! ### The views -/

/-- Three stores as one. -/
def storeOf (functions : FunctionStore) (catalog : DataCatalog) (buckets : BucketCatalog) :
    SyncStore
  | .function key => (functions.lookup key).map .function
  | .data key => (catalog.lookup key).map .data
  | .bucket name => (buckets.lookup name).map .bucket

/-- Three dicts of blobs as one diff. -/
def diffOf (functions : Dict CombinedKey (Blob FunctionDoc))
    (data : Dict CombinedKey (Blob DataRecord)) (buckets : Dict String DataBucket) : SyncDiff
  | .function key => (functions.lookup (.of key)).map (Blob.stored .ofFunctionDoc)
  | .data key => (data.lookup (.of key)).map (Blob.stored .data)
  | .bucket name => (buckets.lookup name).map fun bucket => some (.bucket bucket)

/-- What the endpoint stores. -/
def SyncNode.stored (n : SyncNode) : SyncStore := storeOf n.functions n.catalog n.buckets

/-- The keys under which it stores something. -/
def SyncNode.keys (n : SyncNode) : List SyncKey :=
  n.functions.keys.map .function ++ n.catalog.keys.map .data ++ n.buckets.keys.map .bucket

/-- What waits for the next flush. -/
def DirtyTracker.pending (tracker : DirtyTracker) : SyncDiff :=
  diffOf tracker.pendingFunctions tracker.pendingData tracker.pendingBuckets

/-- What a flush has drained. -/
def StateMutation.changes (mutation : StateMutation) : SyncDiff :=
  diffOf mutation.functionChanges mutation.dataChanges mutation.bucketChanges

/-- What the cluster state holds. -/
def ClusterState.held (state : ClusterState) : SyncDiff :=
  diffOf state.functions state.data state.buckets

/-- What a push carries. -/
def StatePush.changes (push : StatePush) : SyncDiff :=
  diffOf push.functionChanges push.dataChanges push.bucketChanges

/-- The datasets that a diff deletes, each noted as deleted. -/
def deletedData (changes : SyncDiff) (stored : SyncStore) : SyncDiff
  | .data key =>
    if changes (.data key) = some none ∧ stored (.data key) ≠ none then some none else none
  | _ => none

@[simp] theorem storeOf_empty : storeOf ∅ ∅ ∅ = fun _ => none := by
  funext k
  cases k <;> rfl

@[simp] theorem diffOf_empty : diffOf ∅ ∅ ∅ = Diff.empty := by
  funext k
  cases k <;> rfl

section Dicts

variable {functions : FunctionStore} {catalog : DataCatalog} {buckets : BucketCatalog}
  {functionBlobs : Dict CombinedKey (Blob FunctionDoc)}
  {dataBlobs : Dict CombinedKey (Blob DataRecord)} {bucketBlobs : Dict String DataBucket}

theorem storeOf_insert_function (key : RecordKey) (record : RegisteredFunction) :
    storeOf (functions.insert key record) catalog buckets =
      Function.update (storeOf functions catalog buckets) (.function key)
        (some (.function record)) := by
  funext k
  rcases k with key' | key' | name
  · by_cases hkey : key' = key
    · subst hkey
      simp [storeOf]
    · simp [storeOf, hkey, AList.lookup_insert_ne hkey]
  · rfl
  · rfl

theorem storeOf_erase_function (key : RecordKey) :
    storeOf (functions.erase key) catalog buckets =
      Function.update (storeOf functions catalog buckets) (.function key) none := by
  funext k
  rcases k with key' | key' | name
  · by_cases hkey : key' = key
    · subst hkey
      simp [storeOf]
    · simp [storeOf, hkey, AList.lookup_erase_ne hkey]
  · rfl
  · rfl

theorem storeOf_insert_data (key : RecordKey) (record : DataRecord) :
    storeOf functions (catalog.insert key record) buckets =
      Function.update (storeOf functions catalog buckets) (.data key) (some (.data record)) := by
  funext k
  rcases k with key' | key' | name
  · rfl
  · by_cases hkey : key' = key
    · subst hkey
      simp [storeOf]
    · simp [storeOf, hkey, AList.lookup_insert_ne hkey]
  · rfl

theorem storeOf_erase_data (key : RecordKey) :
    storeOf functions (catalog.erase key) buckets =
      Function.update (storeOf functions catalog buckets) (.data key) none := by
  funext k
  rcases k with key' | key' | name
  · rfl
  · by_cases hkey : key' = key
    · subst hkey
      simp [storeOf]
    · simp [storeOf, hkey, AList.lookup_erase_ne hkey]
  · rfl

theorem storeOf_insert_bucket (name : String) (bucket : DataBucket) :
    storeOf functions catalog (buckets.insert name bucket) =
      Function.update (storeOf functions catalog buckets) (.bucket name)
        (some (.bucket bucket)) := by
  funext k
  rcases k with key' | key' | name'
  · rfl
  · rfl
  · by_cases hname : name' = name
    · subst hname
      simp [storeOf]
    · simp [storeOf, hname, AList.lookup_insert_ne hname]

theorem diffOf_insert_function (key : RecordKey) (blob : Blob FunctionDoc) :
    diffOf (functionBlobs.insert (.of key) blob) dataBlobs bucketBlobs =
      Diff.andThen (diffOf functionBlobs dataBlobs bucketBlobs)
        (single (.function key) (blob.stored .ofFunctionDoc)) := by
  rw [andThen_single]
  funext k
  rcases k with key' | key' | name
  · by_cases hkey : key' = key
    · subst hkey
      simp [diffOf]
    · simp [diffOf, hkey, AList.lookup_insert_ne (CombinedKey.of_injective.ne hkey)]
  · rfl
  · rfl

theorem diffOf_insert_data (key : RecordKey) (blob : Blob DataRecord) :
    diffOf functionBlobs (dataBlobs.insert (.of key) blob) bucketBlobs =
      Diff.andThen (diffOf functionBlobs dataBlobs bucketBlobs)
        (single (.data key) (blob.stored .data)) := by
  rw [andThen_single]
  funext k
  rcases k with key' | key' | name
  · rfl
  · by_cases hkey : key' = key
    · subst hkey
      simp [diffOf]
    · simp [diffOf, hkey, AList.lookup_insert_ne (CombinedKey.of_injective.ne hkey)]
  · rfl

theorem diffOf_insert_bucket (name : String) (bucket : DataBucket) :
    diffOf functionBlobs dataBlobs (bucketBlobs.insert name bucket) =
      Diff.andThen (diffOf functionBlobs dataBlobs bucketBlobs)
        (single (.bucket name) (some (.bucket bucket))) := by
  rw [andThen_single]
  funext k
  rcases k with key' | key' | name'
  · rfl
  · rfl
  · by_cases hname : name' = name
    · subst hname
      simp [diffOf]
    · simp [diffOf, hname, AList.lookup_insert_ne hname]

/-- `dict.update` is one diff after another. -/
theorem diffOf_union (functionBlobs' : Dict CombinedKey (Blob FunctionDoc))
    (dataBlobs' : Dict CombinedKey (Blob DataRecord)) (bucketBlobs' : Dict String DataBucket) :
    diffOf (functionBlobs' ∪ functionBlobs) (dataBlobs' ∪ dataBlobs)
        (bucketBlobs' ∪ bucketBlobs) =
      Diff.andThen (diffOf functionBlobs dataBlobs bucketBlobs)
        (diffOf functionBlobs' dataBlobs' bucketBlobs') := by
  funext k
  rcases k with key | key | name
  · simp only [diffOf, Diff.andThen, Dict.lookup_union, Option.map_or]
  · simp only [diffOf, Diff.andThen, Dict.lookup_union, Option.map_or]
  · simp only [diffOf, Diff.andThen, Dict.lookup_union, Option.map_or]

/-- The keys of three dicts of blobs. -/
def keysOf (functions : Dict CombinedKey (Blob FunctionDoc))
    (data : Dict CombinedKey (Blob DataRecord)) (buckets : Dict String DataBucket) :
    List SyncKey :=
  functions.keys.map (fun k => .function k.key) ++ data.keys.map (fun k => .data k.key) ++
    buckets.keys.map .bucket

/-- Stores with the same records under every key. -/
theorem storeOf_injective {functions' : FunctionStore} {catalog' : DataCatalog}
    {buckets' : BucketCatalog}
    (h : storeOf functions catalog buckets = storeOf functions' catalog' buckets') :
    (∀ key, functions.lookup key = functions'.lookup key) ∧
      (∀ key, catalog.lookup key = catalog'.lookup key) ∧
      ∀ name, buckets.lookup name = buckets'.lookup name := by
  refine ⟨fun key => ?_, fun key => ?_, fun name => ?_⟩
  · exact Option.map_injective (fun _ _ => SyncRecord.function.inj) (congrFun h (.function key))
  · exact Option.map_injective (fun _ _ => SyncRecord.data.inj) (congrFun h (.data key))
  · exact Option.map_injective (fun _ _ => SyncRecord.bucket.inj) (congrFun h (.bucket name))

end Dicts

theorem SyncNode.mem_keys {n : SyncNode} {k : SyncKey} (h : n.stored k ≠ none) : k ∈ n.keys := by
  obtain ⟨record, hrecord⟩ := Option.ne_none_iff_exists'.1 h
  unfold keys
  simp only [List.mem_append, List.mem_map]
  rcases k with key | key | name
  · obtain ⟨r, hr, -⟩ := Option.map_eq_some_iff.1 hrecord
    exact Or.inl (Or.inl ⟨key, Dict.mem_of_lookup hr, rfl⟩)
  · obtain ⟨r, hr, -⟩ := Option.map_eq_some_iff.1 hrecord
    exact Or.inl (Or.inr ⟨key, Dict.mem_of_lookup hr, rfl⟩)
  · obtain ⟨r, hr, -⟩ := Option.map_eq_some_iff.1 hrecord
    exact Or.inr ⟨name, Dict.mem_of_lookup hr, rfl⟩

/-! ### The tracker -/

namespace DirtyTracker

variable (tracker : DirtyTracker) (now : ℚ)

theorem pending_markFunctionDirty (key : RecordKey) (blob : Blob FunctionDoc) :
    (tracker.markFunctionDirty (.of key) blob now).pending =
      Diff.andThen tracker.pending (single (.function key) (blob.stored .ofFunctionDoc)) :=
  diffOf_insert_function key blob

theorem pending_markDataDirty (key : RecordKey) (blob : Blob DataRecord) :
    (tracker.markDataDirty (.of key) blob now).pending =
      Diff.andThen tracker.pending (single (.data key) (blob.stored .data)) :=
  diffOf_insert_data key blob

theorem pending_markBucketDirty (name : String) (bucket : DataBucket) :
    (tracker.markBucketDirty name bucket now).pending =
      Diff.andThen tracker.pending (single (.bucket name) (some (.bucket bucket))) :=
  diffOf_insert_bucket name bucket

theorem pending_drain : tracker.drain.2.pending = Diff.empty := diffOf_empty

/-- Nothing is pending in an empty tracker. -/
theorem pending_eq_empty {tracker : DirtyTracker} (h : tracker.pendingCount = 0) :
    tracker.pending = Diff.empty := by
  have hsizes : Dict.size tracker.pendingFunctions = 0 ∧ Dict.size tracker.pendingData = 0 ∧
      Dict.size tracker.pendingBuckets = 0 := by
    unfold pendingCount at h
    omega
  obtain ⟨hfunctions, hdata, hbuckets⟩ := hsizes
  funext k
  rcases k with key | key | name
  · simp [pending, diffOf, Diff.empty, Dict.lookup_eq_none_of_size_eq_zero hfunctions]
  · simp [pending, diffOf, Diff.empty, Dict.lookup_eq_none_of_size_eq_zero hdata]
  · simp [pending, diffOf, Diff.empty, Dict.lookup_eq_none_of_size_eq_zero hbuckets]

end DirtyTracker

/-- An empty mutation changes nothing. -/
theorem StateMutation.changes_eq_empty {mutation : StateMutation} (h : mutation.isEmpty = true) :
    mutation.changes = Diff.empty := by
  simp only [isEmpty, Bool.decide_and, Bool.and_eq_true, decide_eq_true_eq] at h
  obtain ⟨hfunctions, hdata, hbuckets⟩ := h
  funext k
  rcases k with key | key | name
  · simp [changes, diffOf, Diff.empty, Dict.lookup_eq_none_of_size_eq_zero hfunctions]
  · simp [changes, diffOf, Diff.empty, Dict.lookup_eq_none_of_size_eq_zero hdata]
  · simp [changes, diffOf, Diff.empty, Dict.lookup_eq_none_of_size_eq_zero hbuckets]

theorem ClusterState.held_applyLocal (state : ClusterState) (mutation : StateMutation) :
    (state.applyLocal mutation).held = Diff.andThen state.held mutation.changes :=
  diffOf_union ..

theorem StatePush.held_incoming (push : StatePush) (localState : ClusterState) :
    (push.incoming localState).held = Diff.andThen localState.held push.changes :=
  diffOf_union ..

/-! ### Registry calls -/

namespace SyncNode

variable {cfg : SyncConfig} {n n' : SyncNode} {now : ℚ} {op : RegistryOp}

/-- The parts of an endpoint that no store belongs to are the same. -/
structure SameRest (n n' : SyncNode) : Prop where
  state : n'.state = n.state
  elector : n'.elector = n.elector
  leaderView : n'.dirtyTracker.pendingLeaderView = n.dirtyTracker.pendingLeaderView

/-- A write changed the record that its event is about, or none. -/
def Wrote (n n' : SyncNode) : Option RegistryEvent → Prop
  | none => n'.stored = n.stored
  | some event => ∃ word : Option SyncRecord,
      n'.stored = Function.update n.stored event.key word ∧ event.deletes = word.isNone

/-- The write of a registry call changes one record at most. -/
theorem write_cases {event : Option RegistryEvent} (h : n.write cfg now op = .ok (n', event)) :
    n'.dirtyTracker = n.dirtyTracker ∧ SameRest n n' ∧ Wrote n n' event := by
  cases op with
  | registerFunction functionId name code runtimeSpec codeFormat paramsSchema =>
    cases h
    exact ⟨rfl, ⟨rfl, rfl, rfl⟩, _, storeOf_insert_function _ _, rfl⟩
  | updateFunction key paramsSchema envVars =>
    simp only [write, FunctionRegistry.update] at h
    split at h
    · cases h
    · cases h
      exact ⟨rfl, ⟨rfl, rfl, rfl⟩, _, storeOf_insert_function _ _, rfl⟩
  | deleteFunction key =>
    simp only [write, FunctionRegistry.delete] at h
    split at h
    · cases h
    · cases h
      exact ⟨rfl, ⟨rfl, rfl, rfl⟩, _, storeOf_erase_function _, rfl⟩
  | registerData key format kind totalSize chunkBytes contentHash contentHashAlgo =>
    simp only [write, DataRegistry.register] at h
    split_ifs at h
    · cases h
    · cases h
      exact ⟨rfl, ⟨rfl, rfl, rfl⟩, _, storeOf_insert_data _ _, rfl⟩
  | openStream key format kind chunkBytes =>
    cases h
    exact ⟨rfl, ⟨rfl, rfl, rfl⟩, rfl⟩
  | appendChunk key data =>
    simp only [write, DataRegistry.appendChunk] at h
    split at h
    · cases h
    · split_ifs at h
      · cases h
        exact ⟨rfl, ⟨rfl, rfl, rfl⟩, rfl⟩
      · cases h
  | finalizeStream key =>
    simp only [write, DataRegistry.finalizeStream] at h
    split at h
    · cases h
    · cases h
      exact ⟨rfl, ⟨rfl, rfl, rfl⟩, _, storeOf_insert_data _ _, rfl⟩
  | deleteData key =>
    simp only [write, DataRegistry.delete] at h
    split at h
    · cases h
    · cases h
      exact ⟨rfl, ⟨rfl, rfl, rfl⟩, _, storeOf_erase_data _, rfl⟩
  | registerBucket name quotaBytes =>
    simp only [write, BucketRegistry.register] at h
    split at h
    · cases h
    · cases h
      exact ⟨rfl, ⟨rfl, rfl, rfl⟩, _, storeOf_insert_bucket _ _, rfl⟩

/-- What is noted of a key when its record is read back; nothing is when there is none. -/
def noted (stored : SyncStore) (k : SyncKey) : SyncDiff :=
  if stored k = none then Diff.empty else single k (stored k)

theorem noted_of_none {stored : SyncStore} {k : SyncKey} (h : stored k = none) :
    noted stored k = Diff.empty := if_pos h

theorem noted_of_some {stored : SyncStore} {k : SyncKey} {record : SyncRecord}
    (h : stored k = some record) : noted stored k = single k (some record) := by
  unfold noted
  rw [h, if_neg (Option.some_ne_none record)]

theorem pending_onFunctionEvent (n : SyncNode) (key : RecordKey) (now : ℚ) :
    (RegistrySyncBridge.onFunctionEvent n.functions n.dirtyTracker key now).pending =
      Diff.andThen n.dirtyTracker.pending (noted n.stored (.function key)) := by
  have hstored : n.stored (.function key) = (n.functions.lookup key).map .function := rfl
  unfold RegistrySyncBridge.onFunctionEvent
  cases hlookup : n.functions.lookup key with
  | none =>
    rw [hlookup] at hstored
    rw [noted_of_none hstored, andThen_empty]
  | some record =>
    rw [hlookup] at hstored
    rw [noted_of_some hstored, DirtyTracker.pending_markFunctionDirty, Blob.stored,
      SyncRecord.ofFunctionDoc, deserializeFunctionRecord_serialize]

theorem pending_onDataEvent (n : SyncNode) (key : RecordKey) (now : ℚ) :
    (DataRegistrySyncBridge.onDataEvent n.catalog n.dirtyTracker key now).pending =
      Diff.andThen n.dirtyTracker.pending (noted n.stored (.data key)) := by
  have hstored : n.stored (.data key) = (n.catalog.lookup key).map .data := rfl
  unfold DataRegistrySyncBridge.onDataEvent
  cases hlookup : n.catalog.lookup key with
  | none =>
    rw [hlookup] at hstored
    rw [noted_of_none hstored, andThen_empty]
  | some record =>
    rw [hlookup] at hstored
    rw [noted_of_some hstored, DirtyTracker.pending_markDataDirty, Blob.stored]

theorem pending_onBucketEvent (n : SyncNode) (name : String) (now : ℚ) :
    (BucketRegistrySyncBridge.onBucketEvent n.buckets n.dirtyTracker name now).pending =
      Diff.andThen n.dirtyTracker.pending (noted n.stored (.bucket name)) := by
  have hstored : n.stored (.bucket name) = (n.buckets.lookup name).map .bucket := rfl
  unfold BucketRegistrySyncBridge.onBucketEvent
  cases hlookup : n.buckets.lookup name with
  | none =>
    rw [hlookup] at hstored
    rw [noted_of_none hstored, andThen_empty]
  | some bucket =>
    rw [hlookup] at hstored
    rw [noted_of_some hstored, DirtyTracker.pending_markBucketDirty]

/-- A bridge leaves everything but the tracker alone. -/
theorem notify_frame (n : SyncNode) (now : ℚ) (event : RegistryEvent) :
    (n.notify now event).stored = n.stored ∧ SameRest n (n.notify now event) := by
  cases event with
  | functionDeleted key => exact ⟨rfl, rfl, rfl, rfl⟩
  | dataDeleted key => exact ⟨rfl, rfl, rfl, rfl⟩
  | functionRegistered key | functionUpdated key =>
    refine ⟨rfl, rfl, rfl, ?_⟩
    simp only [notify, RegistrySyncBridge.onFunctionEvent]
    split <;> rfl
  | dataRegistered key =>
    refine ⟨rfl, rfl, rfl, ?_⟩
    simp only [notify, DataRegistrySyncBridge.onDataEvent]
    split <;> rfl
  | bucketRegistered name =>
    refine ⟨rfl, rfl, rfl, ?_⟩
    simp only [notify, BucketRegistrySyncBridge.onBucketEvent]
    split <;> rfl

/-- A bridge notes what is stored under its key at that moment; a deletion it notes unread. -/
theorem pending_notify (n : SyncNode) (now : ℚ) (event : RegistryEvent) :
    (n.notify now event).dirtyTracker.pending =
      Diff.andThen n.dirtyTracker.pending
        (if event.deletes then single event.key none else noted n.stored event.key) := by
  cases event with
  | functionDeleted key => exact DirtyTracker.pending_markFunctionDirty ..
  | dataDeleted key => exact DirtyTracker.pending_markDataDirty ..
  | functionRegistered key => exact pending_onFunctionEvent ..
  | functionUpdated key => exact pending_onFunctionEvent ..
  | dataRegistered key => exact pending_onDataEvent ..
  | bucketRegistered name => exact pending_onBucketEvent ..

/-- An event is about what its key holds. -/
def Tells (stored : SyncStore) (event : RegistryEvent) : Prop :=
  event.deletes = (stored event.key).isNone

/-- A bridge whose event still tells what is stored notes just that. -/
theorem pending_notify_of_tells {event : RegistryEvent} (h : Tells n.stored event) (now : ℚ) :
    (n.notify now event).dirtyTracker.pending =
      Diff.andThen n.dirtyTracker.pending (single event.key (n.stored event.key)) := by
  rw [pending_notify]
  unfold Tells at h
  cases hstored : n.stored event.key with
  | none =>
    rw [hstored, Option.isNone_none] at h
    rw [if_pos h]
  | some record =>
    rw [hstored, Option.isNone_some] at h
    rw [if_neg (by simp [h]), noted_of_some hstored]

theorem Wrote.tells {event : RegistryEvent} (h : Wrote n n' (some event)) :
    Tells n'.stored event := by
  obtain ⟨word, hstored, hdeletes⟩ := h
  rw [Tells, hstored, Function.update_self]
  exact hdeletes

/-- A registry call that changes a record notes the change. -/
theorem perform_cases (cfg : SyncConfig) (n : SyncNode) (op : RegistryOp) (now : ℚ) :
    SameRest n (n.perform cfg op now) ∧
      ((n.perform cfg op now).stored = n.stored ∧
          (n.perform cfg op now).dirtyTracker = n.dirtyTracker ∨
        ∃ k word, (n.perform cfg op now).stored = Function.update n.stored k word ∧
          (n.perform cfg op now).dirtyTracker.pending =
            Diff.andThen n.dirtyTracker.pending (single k word)) := by
  unfold perform
  cases hwrite : n.write cfg now op with
  | error err => exact ⟨⟨rfl, rfl, rfl⟩, Or.inl ⟨rfl, rfl⟩⟩
  | ok result =>
    obtain ⟨n', event⟩ := result
    obtain ⟨htracker, hrest, hwrote⟩ := write_cases hwrite
    cases event with
    | none => exact ⟨hrest, Or.inl ⟨hwrote, htracker⟩⟩
    | some event =>
      obtain ⟨hstored, hnotify⟩ := notify_frame n' now event
      have hpending := pending_notify_of_tells hwrote.tells now
      obtain ⟨word, hword, -⟩ := hwrote
      refine ⟨⟨hnotify.state.trans hrest.state, hnotify.elector.trans hrest.elector,
        hnotify.leaderView.trans hrest.leaderView⟩, Or.inr ⟨event.key, word, ?_, ?_⟩⟩
      · rw [← hword]
        exact hstored
      · rw [hword, Function.update_self, htracker] at hpending
        exact hpending

/-- The change that a registry call makes. -/
def changeOf (cfg : SyncConfig) (n : SyncNode) (op : RegistryOp) (now : ℚ) :
    Option SyncChange :=
  match n.write cfg now op with
  | .ok (n', some event) => some (event.key, n'.stored event.key)
  | _ => none

/-- A registry call that makes no change leaves stores and tracker alone. -/
theorem perform_of_changeOf_none (h : n.changeOf cfg op now = none) :
    (n.perform cfg op now).stored = n.stored ∧
      (n.perform cfg op now).dirtyTracker = n.dirtyTracker := by
  unfold changeOf at h
  unfold perform
  cases hwrite : n.write cfg now op with
  | error err => exact ⟨rfl, rfl⟩
  | ok result =>
    obtain ⟨n', event⟩ := result
    obtain ⟨htracker, -, hwrote⟩ := write_cases hwrite
    cases event with
    | none => exact ⟨hwrote, htracker⟩
    | some event =>
      rw [hwrite] at h
      cases h

/-- A registry call writes its change and notes it. -/
theorem perform_of_changeOf_some {change : SyncChange}
    (h : n.changeOf cfg op now = some change) :
    (n.perform cfg op now).stored = Function.update n.stored change.1 change.2 ∧
      (n.perform cfg op now).dirtyTracker.pending =
        Diff.andThen n.dirtyTracker.pending (single change.1 change.2) := by
  unfold changeOf at h
  split at h
  · rename_i n' event hwrite
    cases h
    obtain ⟨htracker, -, hwrote⟩ := write_cases hwrite
    have hpending := pending_notify_of_tells hwrote.tells now
    obtain ⟨word, hstored, -⟩ := hwrote
    unfold perform
    rw [hwrite]
    dsimp only
    rw [(notify_frame n' now event).1, hpending, htracker, hstored, Function.update_self]
    exact ⟨rfl, rfl⟩
  · cases h

/-! ### Received entries -/

theorem lookup_applyFunctions (n : SyncNode) (functions : Dict CombinedKey (Blob FunctionDoc))
    (key : RecordKey) :
    (n.applyFunctions functions).functions.lookup key =
      (functions.lookup (.of key)).elim (n.functions.lookup key) fun blob =>
        match blob with
        | .tombstone => none
        | .record doc => some (deserializeFunctionRecord doc) := by
  have hloop := Dict.foldl_entries
    (fun (backend : FunctionStore) (k : CombinedKey) => backend.lookup k.key)
    RegistrySyncBridge.applyEntry
    (fun _ blob _ =>
      match blob with
      | .tombstone => none
      | .record doc => some (deserializeFunctionRecord doc))
    (by
      rintro backend k (doc | _)
      · exact AList.lookup_insert ..
      · exact AList.lookup_erase ..)
    (by
      rintro backend k (doc | _) k' hne
      · exact AList.lookup_insert_ne fun hkey => hne (by rw [← k'.of_key, hkey, k.of_key])
      · exact AList.lookup_erase_ne fun hkey => hne (by rw [← k'.of_key, hkey, k.of_key]))
    functions n.functions (.of key)
  rw [CombinedKey.key_of] at hloop
  exact hloop

theorem stored_applyFunctions (n : SyncNode) (functions : Dict CombinedKey (Blob FunctionDoc)) :
    (n.applyFunctions functions).stored = Diff.apply (diffOf functions ∅ ∅) n.stored := by
  funext k
  rcases k with key | key | name
  · simp only [stored, storeOf, Diff.apply, diffOf, lookup_applyFunctions]
    cases hlookup : functions.lookup (.of key) with
    | none => rfl
    | some blob => cases blob <;> rfl
  · rfl
  · rfl

/-- What the catalog and the tracker have under a key. -/
def seenData (s : DataCatalog × DirtyTracker) (k : CombinedKey) :
    Option DataRecord × Option (Blob DataRecord) :=
  (s.1.lookup k.key, s.2.pendingData.lookup k)

/-- What they have after an entry of the key. -/
def seenAfter (blob : Blob DataRecord) (seen : Option DataRecord × Option (Blob DataRecord)) :
    Option DataRecord × Option (Blob DataRecord) :=
  match blob with
  | .record record => (some record, seen.2)
  | .tombstone => if seen.1 = none then seen else (none, some .tombstone)

theorem applyEntry_tombstone_of_none {now : ℚ} {s : DataCatalog × DirtyTracker}
    {k : CombinedKey} (h : s.1.lookup k.key = none) :
    DataRegistrySyncBridge.applyEntry now s k .tombstone = s := by
  unfold DataRegistrySyncBridge.applyEntry DataRegistry.delete
  rw [h]

theorem applyEntry_tombstone_of_some {now : ℚ} {s : DataCatalog × DirtyTracker}
    {k : CombinedKey} {record : DataRecord} (h : s.1.lookup k.key = some record) :
    DataRegistrySyncBridge.applyEntry now s k .tombstone =
      (s.1.erase k.key, s.2.markDataDirty k .tombstone now) := by
  unfold DataRegistrySyncBridge.applyEntry DataRegistry.delete
  rw [h]
  simp only [DataRegistrySyncBridge.onDataDeleted, CombinedKey.of_key]

theorem seenData_applyEntry (now : ℚ) (s : DataCatalog × DirtyTracker) (k : CombinedKey)
    (blob : Blob DataRecord) :
    seenData (DataRegistrySyncBridge.applyEntry now s k blob) k =
      seenAfter blob (seenData s k) := by
  cases blob with
  | record record =>
    show ((s.1.insert k.key record).lookup k.key, _) = (some record, _)
    rw [AList.lookup_insert]
    rfl
  | tombstone =>
    rcases Option.eq_none_or_eq_some (s.1.lookup k.key) with hnone | ⟨record, hsome⟩
    · rw [applyEntry_tombstone_of_none hnone]
      exact (if_pos hnone).symm
    · have hne : (seenData s k).1 ≠ none := fun h => by
        rw [seenData, hsome] at h
        cases h
      rw [applyEntry_tombstone_of_some hsome, seenAfter, if_neg hne]
      show ((s.1.erase k.key).lookup k.key, (s.2.pendingData.insert k .tombstone).lookup k) = _
      rw [AList.lookup_erase, AList.lookup_insert]

theorem seenData_applyEntry_ne (now : ℚ) (s : DataCatalog × DirtyTracker) (k : CombinedKey)
    (blob : Blob DataRecord) (k' : CombinedKey) (hne : k' ≠ k) :
    seenData (DataRegistrySyncBridge.applyEntry now s k blob) k' = seenData s k' := by
  have hkey : k'.key ≠ k.key := fun hkey => hne (by rw [← k'.of_key, hkey, k.of_key])
  cases blob with
  | record record =>
    show ((s.1.insert k.key record).lookup k'.key, _) = (s.1.lookup k'.key, _)
    rw [AList.lookup_insert_ne hkey]
    rfl
  | tombstone =>
    rcases Option.eq_none_or_eq_some (s.1.lookup k.key) with hnone | ⟨record, hsome⟩
    · rw [applyEntry_tombstone_of_none hnone]
    · rw [applyEntry_tombstone_of_some hsome]
      show ((s.1.erase k.key).lookup k'.key, (s.2.pendingData.insert k .tombstone).lookup k') = _
      rw [AList.lookup_erase_ne hkey, AList.lookup_insert_ne hne]
      rfl

/-- What becomes of a dataset and of its entry in the tracker. -/
theorem lookup_applyData (n : SyncNode) (data : Dict CombinedKey (Blob DataRecord)) (now : ℚ)
    (key : RecordKey) :
    ((n.applyData data now).catalog.lookup key,
        (n.applyData data now).dirtyTracker.pendingData.lookup (.of key)) =
      (data.lookup (.of key)).elim
        (n.catalog.lookup key, n.dirtyTracker.pendingData.lookup (.of key)) fun blob =>
          seenAfter blob (n.catalog.lookup key, n.dirtyTracker.pendingData.lookup (.of key)) := by
  have hloop := Dict.foldl_entries seenData (DataRegistrySyncBridge.applyEntry now)
    (fun _ blob seen => seenAfter blob seen) (seenData_applyEntry now)
    (seenData_applyEntry_ne now) data (n.catalog, n.dirtyTracker) (.of key)
  unfold seenData at hloop
  rw [CombinedKey.key_of] at hloop
  exact hloop

/-- Only the entries of datasets change in the tracker. -/
theorem applyData_frame (n : SyncNode) (data : Dict CombinedKey (Blob DataRecord)) (now : ℚ) :
    (n.applyData data now).dirtyTracker.pendingFunctions = n.dirtyTracker.pendingFunctions ∧
      (n.applyData data now).dirtyTracker.pendingBuckets = n.dirtyTracker.pendingBuckets ∧
      (n.applyData data now).dirtyTracker.pendingLeaderView =
        n.dirtyTracker.pendingLeaderView := by
  have hround (s : DataCatalog × DirtyTracker) (k : CombinedKey) (blob : Blob DataRecord) :
      (DataRegistrySyncBridge.applyEntry now s k blob).2.pendingFunctions = s.2.pendingFunctions ∧
        (DataRegistrySyncBridge.applyEntry now s k blob).2.pendingBuckets = s.2.pendingBuckets ∧
        (DataRegistrySyncBridge.applyEntry now s k blob).2.pendingLeaderView =
          s.2.pendingLeaderView := by
    cases blob with
    | record record => exact ⟨rfl, rfl, rfl⟩
    | tombstone =>
      rcases Option.eq_none_or_eq_some (s.1.lookup k.key) with hnone | ⟨record, hsome⟩
      · rw [applyEntry_tombstone_of_none hnone]
        exact ⟨rfl, rfl, rfl⟩
      · rw [applyEntry_tombstone_of_some hsome]
        exact ⟨rfl, rfl, rfl⟩
  have hloop : ∀ (entries : List (Σ _ : CombinedKey, Blob DataRecord))
      (s : DataCatalog × DirtyTracker),
      let s' := entries.foldl (fun s e => DataRegistrySyncBridge.applyEntry now s e.1 e.2) s
      s'.2.pendingFunctions = s.2.pendingFunctions ∧ s'.2.pendingBuckets = s.2.pendingBuckets ∧
        s'.2.pendingLeaderView = s.2.pendingLeaderView := by
    intro entries
    induction entries with
    | nil => exact fun s => ⟨rfl, rfl, rfl⟩
    | cons e entries ih =>
      intro s
      obtain ⟨hf, hb, hv⟩ := ih (DataRegistrySyncBridge.applyEntry now s e.1 e.2)
      obtain ⟨hf', hb', hv'⟩ := hround s e.1 e.2
      exact ⟨hf.trans hf', hb.trans hb', hv.trans hv'⟩
  exact hloop data.entries (n.catalog, n.dirtyTracker)

theorem stored_applyData (n : SyncNode) (data : Dict CombinedKey (Blob DataRecord)) (now : ℚ) :
    (n.applyData data now).stored = Diff.apply (diffOf ∅ data ∅) n.stored := by
  funext k
  rcases k with key | key | name
  · rfl
  · have hseen := (Prod.ext_iff.1 (lookup_applyData n data now key)).1
    show ((n.applyData data now).catalog.lookup key).map SyncRecord.data =
      ((data.lookup (.of key)).map (Blob.stored .data)).getD ((n.catalog.lookup key).map .data)
    dsimp only at hseen
    rw [hseen]
    rcases Option.eq_none_or_eq_some (data.lookup (.of key)) with hnone | ⟨_ | _, hsome⟩
    · rw [hnone]
      rfl
    · rw [hsome]
      rfl
    · rw [hsome]
      by_cases hcatalog : n.catalog.lookup key = none
      · simp [seenAfter, hcatalog, Blob.stored]
      · simp [seenAfter, hcatalog, Blob.stored]
  · rfl

theorem pending_applyData (n : SyncNode) (data : Dict CombinedKey (Blob DataRecord)) (now : ℚ) :
    (n.applyData data now).dirtyTracker.pending =
      Diff.andThen n.dirtyTracker.pending (deletedData (diffOf ∅ data ∅) n.stored) := by
  obtain ⟨hfunctions, hbuckets, -⟩ := applyData_frame n data now
  funext k
  rcases k with key | key | name
  · simp only [DirtyTracker.pending, diffOf, Diff.andThen, deletedData, Option.none_or,
      hfunctions]
  · have hseen := (Prod.ext_iff.1 (lookup_applyData n data now key)).2
    have hstored : n.stored (.data key) = (n.catalog.lookup key).map .data := rfl
    have hchanges : diffOf ∅ data ∅ (.data key) =
      (data.lookup (.of key)).map (Blob.stored .data) := rfl
    have hpending : n.dirtyTracker.pending (.data key) =
      (n.dirtyTracker.pendingData.lookup (.of key)).map (Blob.stored .data) := rfl
    show ((n.applyData data now).dirtyTracker.pendingData.lookup (.of key)).map _ = _
    dsimp only at hseen
    rw [hseen, Diff.andThen, deletedData, hstored, hchanges, hpending]
    rcases Option.eq_none_or_eq_some (data.lookup (.of key)) with hnone | ⟨_ | _, hsome⟩
    · simp [hnone]
    · simp [hsome, seenAfter, Blob.stored]
    · by_cases hcatalog : n.catalog.lookup key = none
      · simp [hsome, seenAfter, hcatalog]
      · simp [hsome, seenAfter, hcatalog, Blob.stored]
  · simp only [DirtyTracker.pending, diffOf, Diff.andThen, deletedData, Option.none_or, hbuckets]

theorem stored_applyBuckets (n : SyncNode) (buckets : Dict String DataBucket) :
    (n.applyBuckets buckets).stored = Diff.apply (diffOf ∅ ∅ buckets) n.stored := by
  have hloop (name : String) := Dict.foldl_entries
    (fun (catalog : BucketCatalog) (name : String) => catalog.lookup name)
    (fun catalog name bucket => catalog.insert name bucket) (fun _ bucket _ => some bucket)
    (fun _ _ _ => AList.lookup_insert ..) (fun _ _ _ _ hne => AList.lookup_insert_ne hne)
    buckets n.buckets name
  funext k
  rcases k with key | key | name
  · rfl
  · rfl
  · simp only [stored, applyBuckets, storeOf, Diff.apply, diffOf,
      BucketRegistrySyncBridge.applyIncoming, hloop name]
    cases hlookup : buckets.lookup name <;> rfl

section ApplyIncoming

variable (n : SyncNode) (functions : Dict CombinedKey (Blob FunctionDoc))
  (data : Dict CombinedKey (Blob DataRecord)) (buckets : Dict String DataBucket) (now : ℚ)

theorem stored_applyIncoming :
    (n.applyIncoming functions data buckets now).stored =
      Diff.apply (diffOf functions data buckets) n.stored := by
  rw [applyIncoming, stored_applyBuckets, stored_applyData, stored_applyFunctions]
  funext k
  rcases k with key | key | name <;> rfl

theorem pending_applyIncoming :
    (n.applyIncoming functions data buckets now).dirtyTracker.pending =
      Diff.andThen n.dirtyTracker.pending
        (deletedData (diffOf functions data buckets) n.stored) := by
  have hdata := pending_applyData (n.applyFunctions functions) data now
  refine hdata.trans ?_
  funext k
  rcases k with key | key | name <;> rfl

theorem sameRest_applyIncoming : SameRest n (n.applyIncoming functions data buckets now) :=
  ⟨rfl, rfl, (applyData_frame (n.applyFunctions functions) data now).2.2⟩

end ApplyIncoming

/-- A push that is not stale is laid over the stores and over the cluster state. -/
theorem handlePush_ok {push : StatePush} (h : n.handlePush push now = .ok n') :
    n.state.term ≤ push.term ∧ n'.stored = Diff.apply push.changes n.stored ∧
      n'.dirtyTracker.pending =
        Diff.andThen n.dirtyTracker.pending (deletedData push.changes n.stored) ∧
      n'.state = push.incoming n.state ∧ n'.elector = n.elector ∧
      n'.dirtyTracker.pendingLeaderView = n.dirtyTracker.pendingLeaderView := by
  unfold handlePush at h
  split_ifs at h with hterm
  cases h
  have hnewer : ¬ (push.incoming n.state).version ≤ n.state.version := by
    show ¬ n.state.version + 1 ≤ n.state.version
    omega
  refine ⟨not_lt.1 hterm, stored_applyIncoming .., pending_applyIncoming .., ?_, rfl,
    (sameRest_applyIncoming ..).leaderView⟩
  rw [(sameRest_applyIncoming ..).state, ClusterState.applyRemote, if_neg hnewer]

/-- A push is refused exactly when its term is below the one held. -/
theorem handlePush_error_iff {push : StatePush} :
    (∃ err, n.handlePush push now = .error err) ↔ push.term < n.state.term := by
  unfold handlePush
  split_ifs with hterm
  · exact ⟨fun _ => hterm, fun _ => ⟨_, rfl⟩⟩
  · constructor
    · rintro ⟨err, h⟩
      cases h
    · exact fun h => absurd h hterm

/-- A pull of a state with a higher version replaces the cluster state, and lays the new one over
the stores. -/
theorem pullFrom_cases (n : SyncNode) (incoming : ClusterState) (now : ℚ) :
    incoming.version ≤ n.state.version ∧ n.pullFrom incoming now = n ∨
      n.state.version < incoming.version ∧
        (n.pullFrom incoming now).stored = Diff.apply incoming.held n.stored ∧
        (n.pullFrom incoming now).dirtyTracker.pending =
          Diff.andThen n.dirtyTracker.pending (deletedData incoming.held n.stored) ∧
        (n.pullFrom incoming now).state = incoming ∧
        (n.pullFrom incoming now).elector = n.elector ∧
        (n.pullFrom incoming now).dirtyTracker.pendingLeaderView =
          n.dirtyTracker.pendingLeaderView := by
  by_cases hversion : incoming.version ≤ n.state.version
  · have happly : n.state.applyRemote incoming = (n.state, false) := if_pos hversion
    refine Or.inl ⟨hversion, ?_⟩
    unfold pullFrom
    rw [happly]
  · have happly : n.state.applyRemote incoming = (incoming, true) := if_neg hversion
    have hpull : n.pullFrom incoming now = SyncNode.applyIncoming { n with state := incoming }
        incoming.functions incoming.data incoming.buckets now := by
      unfold pullFrom
      rw [happly]
    rw [hpull]
    exact Or.inr ⟨not_le.1 hversion, stored_applyIncoming .., pending_applyIncoming .., rfl, rfl,
      (sameRest_applyIncoming ..).leaderView⟩

/-! ### Flushes -/

/-- A flush moves what is pending into the cluster state. -/
theorem flush_cases (n : SyncNode) (members : List EndpointId) :
    (n.flush members).1.stored = n.stored ∧
      (n.flush members).1.dirtyTracker.pending = Diff.empty ∧
      (n.flush members).1.state.held = Diff.andThen n.state.held n.dirtyTracker.pending ∧
      (n.flush members).1.state.version = n.state.version + 1 ∧
      (n.flush members).1.elector = n.elector :=
  ⟨rfl, DirtyTracker.pending_drain _, ClusterState.held_applyLocal .., rfl, rfl⟩

/-- What a flush pushes is what was pending, to each member alike. -/
theorem mem_flush {members : List EndpointId} {member : EndpointId} {push : StatePush}
    (h : (member, push) ∈ (n.flush members).2) :
    member ∈ members ∧ push.changes = n.dirtyTracker.pending ∧
      push.term = n.elector.view.term := by
  unfold flush at h
  dsimp only at h
  split_ifs at h
  · cases h
  · obtain ⟨m, hm, heq⟩ := List.mem_map.1 h
    cases heq
    exact ⟨hm, rfl, rfl⟩

/-- A tick of a leader flushes when it is due, and any other tick does nothing more than to look
who leads. -/
theorem tick_cases (cfg : SyncConfig) (n : SyncNode) (members : List EndpointId) (now : ℚ) :
    n.tick cfg members now = (n.recompute members, []) ∨
      (n.recompute members).isLeader = true ∧
        n.dirtyTracker.shouldFlush cfg.maxDirtyCount now cfg.idleSeconds = true ∧
        n.tick cfg members now = (n.recompute members).flush members := by
  unfold tick
  split_ifs with hdue
  · exact Or.inr ⟨hdue.1, hdue.2, rfl⟩
  · exact Or.inl rfl

end SyncNode

end Axo
