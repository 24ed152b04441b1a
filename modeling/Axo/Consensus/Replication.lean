import Axo.Consensus.SyncRecords
import Axo.Consensus.Bully

/-!
# Replication of the registries

What each endpoint runs to replicate its function, data and bucket registries, after
`core/functions/registry.py`, `core/data/registry.py`, `core/data/bucket_registry.py` and, of
`core/consensus`, `dirty_tracker.py`, `state_machine.py`, `registry_sync.py`, `data_sync.py` and
`bucket_sync.py`.

* A registry writes its store and emits an event; the bridge subscribed to it reads the record
  back and marks its key dirty.
* `DirtyTracker` holds what waits for the next flush, at most one entry for each key.
* `ClusterState` is the replicated copy, which `applyLocal` merges a flush into and `applyRemote`
  replaces by a state with a higher version.
* `applyIncoming` of each bridge writes received entries into the stores.

Left out: the chunk bytes and the hashes of the datasets' contents, the event
`FUNCTION_REPLICATED`, which only external listeners read, `FunctionRegistry.transition` and
`mark_leader_view_dirty`, which nothing calls.
-/

namespace Axo

/-- The events that the bridges are subscribed to, with their payloads. -/
inductive RegistryEvent
  | functionRegistered (key : RecordKey)
  | functionUpdated (key : RecordKey)
  | functionDeleted (key : RecordKey)
  | dataRegistered (key : RecordKey)
  | dataDeleted (key : RecordKey)
  | bucketRegistered (name : String)
  deriving DecidableEq

/-- The backend of the function registry. -/
abbrev FunctionStore := Dict RecordKey RegisteredFunction

/-- The catalog of the data registry. -/
abbrev DataCatalog := Dict RecordKey DataRecord

/-- The catalog of the bucket registry. -/
abbrev BucketCatalog := Dict String DataBucket

/-! ### The function registry -/

namespace FunctionRegistry

/-- `str(key)`. -/
def keyText (key : RecordKey) : String :=
  "StorageKey(id=" ++ reprStr key.id ++ ", version=" ++ key.version.repr ++ ", alias=" ++
    reprStr key.id ++ ")"

/-- `RegistryError(f"no FunctionRecord found for key {key}")`. -/
def notFoundError (key : RecordKey) : AxoError :=
  { code := 2000
    name := "REGISTRY_ERROR"
    message := "no FunctionRecord found for key " ++ keyText key }

/-- One more than the highest version of the function. -/
def nextVersion (backend : FunctionStore) (functionId : String) : ℤ :=
  ((backend.keys.filter fun key => key.id = functionId).map RecordKey.version).max?.getD 0 + 1

/-- `register`; the schema is the list that `FunctionRegisterHandler` has parsed. -/
def register (backend : FunctionStore) (functionId name : String) (code : List UInt8) (now : ℚ)
    (runtimeSpec : Option RuntimeSpec) (codeFormat : String) (paramsSchema : List ParamSpec) :
    FunctionStore × RegistryEvent :=
  let key : RecordKey := { id := functionId, version := nextVersion backend functionId }
  let record : RegisteredFunction :=
    { code := code
      functionId := functionId
      name := name
      version := key.version
      createdAt := now
      state := .registered
      runtimeSpec := runtimeSpec
      codeFormat := codeFormat
      paramsSchema := orNone paramsSchema
      schema_ne := orNone_ne paramsSchema }
  (backend.insert key record, .functionRegistered key)

/-- The schema after an update: parameters with new names are appended. -/
def mergedParamsSchema (current : Option (List ParamSpec)) (paramsSchema : List ParamSpec) :
    Option (List ParamSpec) :=
  if paramsSchema = [] then current
  else
    let existing := current.getD []
    some (existing ++ paramsSchema.filter fun p => p.name ∉ existing.map ParamSpec.name)

theorem mergedParamsSchema_ne {current : Option (List ParamSpec)} (h : current ≠ some [])
    (paramsSchema : List ParamSpec) : mergedParamsSchema current paramsSchema ≠ some [] := by
  unfold mergedParamsSchema
  split_ifs with hnil
  · exact h
  · intro hs
    rcases current with _ | existing
    · exact hnil (by simpa using hs)
    · exact h (by simpa using (List.append_eq_nil_iff.1 (Option.some.inj hs)).1)

/-- The runtime spec after an update: the new variables are merged in. -/
def mergedRuntimeSpec (current : Option RuntimeSpec) (envVars : Dict String String) :
    Option RuntimeSpec :=
  if Dict.size envVars = 0 then current
  else
    let baseSpec := current.getD {}
    some { baseSpec with envVars := envVars ∪ baseSpec.envVars }

/-- `update`; an empty schema and empty variables are the handler's `or None`. -/
def update (backend : FunctionStore) (key : RecordKey) (paramsSchema : List ParamSpec)
    (envVars : Dict String String) : Except AxoError (FunctionStore × RegistryEvent) :=
  match backend.lookup key with
  | none => .error (notFoundError key)
  | some current =>
    let updated : RegisteredFunction :=
      { current with
        paramsSchema := mergedParamsSchema current.paramsSchema paramsSchema
        schema_ne := mergedParamsSchema_ne current.schema_ne paramsSchema
        runtimeSpec := mergedRuntimeSpec current.runtimeSpec envVars }
    .ok (backend.insert key updated, .functionUpdated key)

/-- `delete`. -/
def delete (backend : FunctionStore) (key : RecordKey) :
    Except AxoError (FunctionStore × RegistryEvent) :=
  match backend.lookup key with
  | none => .error (notFoundError key)
  | some _ => .ok (backend.erase key, .functionDeleted key)

end FunctionRegistry

/-! ### The data registry -/

/-- `_OpenStream`; the hasher is the bytes it was given. -/
structure OpenStream where
  format : String
  kind : String
  chunkBytes : ℤ
  nextIndex : ℕ := 0
  totalSize : ℕ := 0
  hashed : List UInt8 := []
  deriving DecidableEq

namespace DataRegistry

/-- The context of the errors about a dataset. -/
def keyContext (key : RecordKey) : List (String × Value) :=
  [("name", .str key.id), ("version", .int key.version)]

/-- `UnknownIORefKindError`. -/
def unknownKindError (kind : String) : AxoError :=
  { code := 7002
    name := "UNKNOWN_IO_REF_KIND"
    message := "no storage backend for kind=" ++ reprStr kind
    context := [("kind", .str kind)] }

/-- `DataNotRegisteredError`. -/
def notRegisteredError (key : RecordKey) : AxoError :=
  { code := 6001
    name := "DATA_NOT_REGISTERED"
    message := key.combined ++ " is not registered"
    context := keyContext key }

/-- `StreamNotOpenError`. -/
def streamNotOpenError (key : RecordKey) : AxoError :=
  { code := 6004
    name := "STREAM_NOT_OPEN"
    message := "no open stream for " ++ key.combined
    context := keyContext key }

/-- `StreamAlreadyFinalizedError`. -/
def streamAlreadyFinalizedError (key : RecordKey) : AxoError :=
  { code := 6005
    name := "STREAM_ALREADY_FINALIZED"
    message := "no open stream for " ++ key.combined ++ " (already finalized or never opened)"
    context := keyContext key }

/-- The kinds in `KEY_TYPES`. -/
def keyTypes : List String := ["fs"]

/-- `total_chunks_for`: `-(-total_size // chunk_bytes)`. -/
def totalChunksFor (totalSize chunkBytes : ℤ) : ℤ :=
  if totalSize ≤ 0 then 0 else -(-totalSize).fdiv chunkBytes

/-- `register`. -/
def register (blobBackends : List String) (catalog : DataCatalog) (key : RecordKey)
    (format kind : String) (totalSize chunkBytes : ℤ) (now : ℚ) (contentHash : Option String)
    (contentHashAlgo : String) : Except AxoError (DataCatalog × RegistryEvent) :=
  if kind ∉ blobBackends ∨ kind ∉ keyTypes then .error (unknownKindError kind)
  else
    let record : DataRecord :=
      { name := key.id
        version := key.version
        keyAlias := key.id
        format := format
        kind := kind
        totalSize := totalSize
        chunkBytes := chunkBytes
        totalChunks := totalChunksFor totalSize chunkBytes
        createdAt := now
        declaredHash := contentHash
        contentHashAlgo := contentHashAlgo }
    .ok (catalog.insert key record, .dataRegistered key)

/-- `open_stream`. -/
def openStream (streams : Dict RecordKey OpenStream) (key : RecordKey) (format kind : String)
    (chunkBytes : ℤ) : Dict RecordKey OpenStream :=
  streams.insert key { format := format, kind := kind, chunkBytes := chunkBytes }

/-- `append_chunk`. -/
def appendChunk (blobBackends : List String) (streams : Dict RecordKey OpenStream)
    (key : RecordKey) (data : List UInt8) : Except AxoError (Dict RecordKey OpenStream) :=
  match streams.lookup key with
  | none => .error (streamNotOpenError key)
  | some stream =>
    if stream.kind ∉ blobBackends then .error (unknownKindError stream.kind)
    else
      .ok (streams.insert key
        { stream with
          hashed := stream.hashed ++ data
          totalSize := stream.totalSize + data.length
          nextIndex := stream.nextIndex + 1 })

/-- `finalize_stream`: the stream is gone, and a record of it is in the catalog. -/
def finalizeStream (sha256 : List UInt8 → String) (streams : Dict RecordKey OpenStream)
    (catalog : DataCatalog) (key : RecordKey) (now : ℚ) :
    Except AxoError (Dict RecordKey OpenStream × DataCatalog × RegistryEvent) :=
  match streams.lookup key with
  | none => .error (streamAlreadyFinalizedError key)
  | some stream =>
    let record : DataRecord :=
      { name := key.id
        version := key.version
        keyAlias := key.id
        format := stream.format
        kind := stream.kind
        totalSize := stream.totalSize
        chunkBytes := stream.chunkBytes
        totalChunks := stream.nextIndex
        createdAt := now
        declaredHash := some (sha256 stream.hashed)
        contentHashAlgo := "sha256" }
    .ok (streams.erase key, catalog.insert key record, .dataRegistered key)

/-- `delete`. -/
def delete (catalog : DataCatalog) (key : RecordKey) :
    Except AxoError (DataCatalog × RegistryEvent) :=
  match catalog.lookup key with
  | none => .error (notRegisteredError key)
  | some _ => .ok (catalog.erase key, .dataDeleted key)

end DataRegistry

/-! ### The bucket registry -/

namespace BucketRegistry

/-- `BucketAlreadyExistsError`. -/
def alreadyExistsError (name : String) : AxoError :=
  { code := 7002
    name := "BUCKET_ALREADY_EXISTS"
    message := "bucket '" ++ name ++ "' already exists"
    context := [("name", .str name)] }

/-- `register`. -/
def register (catalog : BucketCatalog) (name : String) (quotaBytes : ℤ) (now : ℚ) :
    Except AxoError (BucketCatalog × RegistryEvent) :=
  match catalog.lookup name with
  | some _ => .error (alreadyExistsError name)
  | none =>
    .ok (catalog.insert name { name := name, quotaBytes := quotaBytes, createdAt := now },
      .bucketRegistered name)

end BucketRegistry

/-! ### The tracker -/

/-- `StateMutation`.  No bucket is ever deleted, so the entry of one is always its document. -/
structure StateMutation where
  functionChanges : Dict CombinedKey (Blob FunctionDoc) := ∅
  dataChanges : Dict CombinedKey (Blob DataRecord) := ∅
  bucketChanges : Dict String DataBucket := ∅
  leaderView : Option LeaderView := none
  deriving DecidableEq

/-- The mutation changes no record. -/
def StateMutation.isEmpty (mutation : StateMutation) : Bool :=
  Dict.size mutation.functionChanges = 0 ∧ Dict.size mutation.dataChanges = 0 ∧
    Dict.size mutation.bucketChanges = 0

/-- `DirtyTracker`, without the bound, which is configured. -/
structure DirtyTracker where
  pendingFunctions : Dict CombinedKey (Blob FunctionDoc) := ∅
  pendingData : Dict CombinedKey (Blob DataRecord) := ∅
  pendingBuckets : Dict String DataBucket := ∅
  pendingLeaderView : Option LeaderView := none
  lastChangeAt : ℚ := 0
  deriving DecidableEq

namespace DirtyTracker

/-- `mark_function_dirty`. -/
def markFunctionDirty (tracker : DirtyTracker) (key : CombinedKey) (serialized : Blob FunctionDoc)
    (now : ℚ) : DirtyTracker :=
  { tracker with
    pendingFunctions := tracker.pendingFunctions.insert key serialized
    lastChangeAt := now }

/-- `mark_data_dirty`. -/
def markDataDirty (tracker : DirtyTracker) (key : CombinedKey) (serialized : Blob DataRecord)
    (now : ℚ) : DirtyTracker :=
  { tracker with
    pendingData := tracker.pendingData.insert key serialized
    lastChangeAt := now }

/-- `mark_bucket_dirty`. -/
def markBucketDirty (tracker : DirtyTracker) (key : String) (serialized : DataBucket) (now : ℚ) :
    DirtyTracker :=
  { tracker with
    pendingBuckets := tracker.pendingBuckets.insert key serialized
    lastChangeAt := now }

/-- `pending_count`. -/
def pendingCount (tracker : DirtyTracker) : ℕ :=
  Dict.size tracker.pendingFunctions + Dict.size tracker.pendingData +
    Dict.size tracker.pendingBuckets + if tracker.pendingLeaderView.isSome then 1 else 0

/-- `should_flush`. -/
def shouldFlush (tracker : DirtyTracker) (maxDirtyCount : ℤ) (now idleSeconds : ℚ) : Bool :=
  if tracker.pendingCount = 0 then false
  else if maxDirtyCount ≤ tracker.pendingCount then true
  else idleSeconds ≤ now - tracker.lastChangeAt

/-- `drain`. -/
def drain (tracker : DirtyTracker) : StateMutation × DirtyTracker :=
  ({ functionChanges := tracker.pendingFunctions
     dataChanges := tracker.pendingData
     bucketChanges := tracker.pendingBuckets
     leaderView := tracker.pendingLeaderView },
    { lastChangeAt := tracker.lastChangeAt })

end DirtyTracker

/-! ### The state machine -/

/-- `ClusterState`. -/
structure ClusterState where
  term : ℕ := 0
  leaderIds : Finset EndpointId := ∅
  members : Finset EndpointId := ∅
  functions : Dict CombinedKey (Blob FunctionDoc) := ∅
  data : Dict CombinedKey (Blob DataRecord) := ∅
  buckets : Dict String DataBucket := ∅
  version : ℕ := 0
  deriving DecidableEq

namespace ClusterState

/-- `apply_local`. -/
def applyLocal (state : ClusterState) (mutation : StateMutation) : ClusterState where
  term := (mutation.leaderView.map LeaderView.term).getD state.term
  leaderIds := (mutation.leaderView.map LeaderView.leaderIds).getD state.leaderIds
  members := state.members
  functions := mutation.functionChanges ∪ state.functions
  data := mutation.dataChanges ∪ state.data
  buckets := mutation.bucketChanges ∪ state.buckets
  version := state.version + 1

/-- `apply_remote`: the new state, and whether it was replaced. -/
def applyRemote (state incoming : ClusterState) : ClusterState × Bool :=
  if incoming.version ≤ state.version then (state, false) else (incoming, true)

end ClusterState

/-! ### The bridges -/

namespace RegistrySyncBridge

/-- `on_function_event`, and `on_function_updated`. -/
def onFunctionEvent (backend : FunctionStore) (tracker : DirtyTracker) (key : RecordKey)
    (now : ℚ) : DirtyTracker :=
  match backend.lookup key with
  | none => tracker
  | some record =>
    tracker.markFunctionDirty (.of key) (.record (serializeFunctionRecord record.toStoredFunction)) now

/-- `on_function_deleted`. -/
def onFunctionDeleted (tracker : DirtyTracker) (key : RecordKey) (now : ℚ) : DirtyTracker :=
  tracker.markFunctionDirty (.of key) .tombstone now

/-- One round of the loop of `apply_incoming`. -/
def applyEntry (backend : FunctionStore) (key : CombinedKey) : Blob FunctionDoc → FunctionStore
  | .tombstone => backend.erase key.key
  | .record doc => backend.insert key.key (deserializeFunctionRecord doc)

/-- `apply_incoming`. -/
def applyIncoming (backend : FunctionStore)
    (functionChanges : Dict CombinedKey (Blob FunctionDoc)) : FunctionStore :=
  functionChanges.entries.foldl (fun backend e => applyEntry backend e.1 e.2) backend

end RegistrySyncBridge

namespace DataRegistrySyncBridge

/-- `on_data_event`. -/
def onDataEvent (catalog : DataCatalog) (tracker : DirtyTracker) (key : RecordKey) (now : ℚ) :
    DirtyTracker :=
  match catalog.lookup key with
  | none => tracker
  | some record => tracker.markDataDirty (.of key) (.record record) now

/-- `on_data_deleted`. -/
def onDataDeleted (tracker : DirtyTracker) (key : RecordKey) (now : ℚ) : DirtyTracker :=
  tracker.markDataDirty (.of key) .tombstone now

/-- One round of the loop of `apply_incoming`: a tombstone goes through `DataRegistry.delete`,
whose event marks the key dirty here too. -/
def applyEntry (now : ℚ) (s : DataCatalog × DirtyTracker) (key : CombinedKey) :
    Blob DataRecord → DataCatalog × DirtyTracker
  | .tombstone =>
    match DataRegistry.delete s.1 key.key with
    | .error _ => s
    | .ok (catalog, _) => (catalog, onDataDeleted s.2 key.key now)
  | .record record => (s.1.insert key.key record, s.2)

/-- `apply_incoming`. -/
def applyIncoming (catalog : DataCatalog) (tracker : DirtyTracker)
    (dataChanges : Dict CombinedKey (Blob DataRecord)) (now : ℚ) : DataCatalog × DirtyTracker :=
  dataChanges.entries.foldl (fun s e => applyEntry now s e.1 e.2) (catalog, tracker)

end DataRegistrySyncBridge

namespace BucketRegistrySyncBridge

/-- `on_bucket_event`. -/
def onBucketEvent (catalog : BucketCatalog) (tracker : DirtyTracker) (name : String) (now : ℚ) :
    DirtyTracker :=
  match catalog.lookup name with
  | none => tracker
  | some bucket => tracker.markBucketDirty name bucket now

/-- `apply_incoming`. -/
def applyIncoming (catalog : BucketCatalog) (bucketChanges : Dict String DataBucket) :
    BucketCatalog :=
  bucketChanges.entries.foldl (fun catalog e => catalog.insert e.1 e.2) catalog

end BucketRegistrySyncBridge

end Axo
