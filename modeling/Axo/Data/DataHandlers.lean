import Axo.Data.OwnUpload
import Axo.Service.JobSubmit

/-!
# The handlers of data

`service/handlers/data_register.py`, `data_chunk_put.py`, `data_status.py`, `data_delete.py` and
`bucket_register.py`, at the leader, over the data registry and the bucket registry.

* A handler gives the state that it leaves, the events that are emitted on the way, and its reply;
* there is no reply when an exception leaves the handler;
* `DataRegisterHandler.Accepts` says which registrations succeed, and `chunkPut_ok` what a
  successful put means.
-/

namespace Axo

/-- The fields of an envelope that the handlers read. -/
structure DataEnvelope where
  name : Option String := none
  version : Option ℤ := none
  format : String := "raw"
  kind : String := "fs"
  totalSize : Option ℤ := none
  chunkBytes : Option ℤ := none
  contentHash : Option String := none
  contentHashAlgo : String := "sha256"
  chunkIndex : Option ℤ := none
  quotaBytes : Option ℤ := none

/-- The name, unless it is missing or empty. -/
def DataEnvelope.requiredName (envelope : DataEnvelope) : Option String :=
  envelope.name.filter (· ≠ "")

/-- The name and the version, unless one of them is missing. -/
def DataEnvelope.key (envelope : DataEnvelope) : Option RecordKey :=
  match envelope.requiredName, envelope.version with
  | some name, some version => some { id := name, version := version }
  | _, _ => none

/-- What a handler leaves of the data registry, and its reply. -/
structure DataHandled where
  store : DataStore
  events : List DataEvent := []
  reply : Option CommandResult

/-! ### Errors -/

/-- `StorageFailureError`. -/
def storageFailureError (message : String) (context : List (String × Value)) : AxoError :=
  { code := 4003, name := "STORAGE_ERROR", message := message, context := context }

/-- `BucketNotFoundError`. -/
def bucketNotFoundError (bucket : String) : AxoError :=
  { code := 7001
    name := "BUCKET_NOT_FOUND"
    message := "bucket '" ++ bucket ++ "' does not exist"
    context := [("bucket", .str bucket)] }

/-- `QuotaExceededError`. -/
def quotaExceededError (bucket : String) (used totalSize quotaBytes : ℤ) : AxoError :=
  { code := 7003
    name := "QUOTA_EXCEEDED"
    message := "registering " ++ totalSize.repr ++ " bytes into bucket '" ++ bucket ++
      "' would exceed its quota (" ++ used.repr ++ " used of " ++ quotaBytes.repr ++ ")"
    context := [("bucket", .str bucket), ("used_bytes", .int used),
      ("additional_bytes", .int totalSize), ("quota_bytes", .int quotaBytes)] }

/-- The reply when required fields are missing. -/
def fieldsMissing (message : String) (fields : List String) : CommandResult :=
  .fromError (missingFieldError message [("fields", .list (fields.map Value.str))])

/-! ### `DATA_REGISTER` -/

namespace DataRegisterHandler

/-- `name.split("/", 1)[0]`. -/
def bucketName (name : String) : String := String.ofList (name.toList.takeWhile (· ≠ '/'))

/-- `r.name.startswith(f"{bucket_name}/")`. -/
def inBucket (bucket name : String) : Bool := (bucket.toList ++ ['/']).isPrefixOf name.toList

/-- The bytes that the records of a bucket declare. -/
def usedBytes (catalog : DataCatalog) (bucket : String) : ℤ :=
  ((catalog.values.filter fun record => inBucket bucket record.name).map
    DataRecord.totalSize).sum

/-- `_check_bucket_quota`. -/
def checkBucketQuota (buckets : BucketCatalog) (catalog : DataCatalog) (name : String)
    (totalSize : ℤ) : Option AxoError :=
  let bucket := bucketName name
  match buckets.lookup bucket with
  | none => some (bucketNotFoundError bucket)
  | some { quotaBytes, .. } =>
    let used := usedBytes catalog bucket
    if quotaBytes < used + totalSize then
      some (quotaExceededError bucket used totalSize quotaBytes)
    else none

/-- The quota is checked for a name with a slash, if there is a bucket registry. -/
def quotaError (bucketRegistry : Option BucketCatalog) (catalog : DataCatalog) (name : String)
    (totalSize : ℤ) : Option AxoError :=
  match bucketRegistry with
  | none => none
  | some buckets =>
    if '/' ∈ name.toList then checkBucketQuota buckets catalog name totalSize else none

/-- The metadata of the reply. -/
def metadata (ownRpcUri : String) (record : DataRecord) : List (String × Value) :=
  [("data_id", .str record.name), ("version", .int record.version), ("kind", .str record.kind),
    ("format", .str record.format), ("total_size", .int record.totalSize),
    ("chunk_bytes", .int record.chunkBytes), ("total_chunks", .int record.totalChunks),
    ("leader_rpc_uri", .str ownRpcUri)]

/-- `handle`. -/
def handle (B : DataBackends) (ownRpcUri : String) (bucketRegistry : Option BucketCatalog)
    (s : DataStore) (envelope : DataEnvelope) (now : ℚ) : DataHandled :=
  match envelope.key, envelope.totalSize, envelope.chunkBytes.filter (· ≠ 0) with
  | some key, some totalSize, some chunkBytes =>
    match quotaError bucketRegistry s.catalog key.id totalSize with
    | some err => { store := s, reply := some (.fromError err) }
    | none =>
      match s.register B key envelope.format envelope.kind totalSize chunkBytes now
          envelope.contentHash envelope.contentHashAlgo with
      | .error (.raised _) => { store := s, reply := none }
      | .error (.err raw) =>
        { store := s
          reply := some (.fromError (storageFailureError raw.message
            [("data_name", .str key.id), ("version", .int key.version)])) }
      | .ok (s, events, record) =>
        { store := s
          events := events
          reply := some { ok := true, metadata := metadata ownRpcUri record } }
  | _, _, _ =>
    { store := s
      reply := some (fieldsMissing "name, version, total_size, and chunk_bytes are required"
        ["name", "version", "total_size", "chunk_bytes"]) }

end DataRegisterHandler

/-! ### `DATA_STATUS` and `DATA_CHUNK_PUT` -/

namespace DataStatusHandler

/-- The metadata of the reply. -/
def metadata (st : DataStatus) : List (String × Value) :=
  [("registered", .bool st.registered), ("total_chunks", .int st.totalChunks),
    ("chunk_bytes", .int st.chunkBytes), ("total_size", .int st.totalSize),
    ("present_chunk_indices", .list (st.presentChunkIndices.map fun i => .int i)),
    ("complete", .bool st.complete)]

/-- `handle`. -/
def handle (B : DataBackends) (s : DataStore) (envelope : DataEnvelope) : DataHandled :=
  match envelope.key with
  | none =>
    { store := s
      reply := some (fieldsMissing "name and version are required" ["name", "version"]) }
  | some key =>
    match s.status B key with
    | .error _ => { store := s, reply := none }
    | .ok (s, st) => { store := s, reply := some { ok := true, metadata := metadata st } }

end DataStatusHandler

namespace DataChunkPutHandler

/-- The metadata of the reply. -/
def metadata (key : RecordKey) (st : DataStatus) : List (String × Value) :=
  [("data_id", .str key.id), ("version", .int key.version),
    ("received_count", .int st.presentChunkIndices.length), ("total_chunks", .int st.totalChunks),
    ("complete", .bool st.complete)]

/-- `handle`. -/
def handle (B : DataBackends) (s : DataStore) (envelope : DataEnvelope) (payload : List UInt8)
    (now : ℚ) : DataHandled :=
  match envelope.key, envelope.chunkIndex with
  | some key, some index =>
    match s.storeChunk B key index payload now with
    | .error (.raised _) => { store := s, reply := none }
    | .error (.err err) => { store := s, reply := some (.fromError err) }
    | .ok (s, events, _) =>
      -- the chunk is stored already when the status raises
      match s.status B key with
      | .error _ => { store := s, events := events, reply := none }
      | .ok (s, st) =>
        { store := s, events := events, reply := some { ok := true, metadata := metadata key st } }
  | _, _ =>
    { store := s
      reply := some (fieldsMissing "name, version, and chunk_index are required"
        ["name", "version", "chunk_index"]) }

end DataChunkPutHandler

/-! ### `DATA_DELETE` and `BUCKET_REGISTER` -/

namespace DataDeleteHandler

/-- `handle`. -/
def handle (B : DataBackends) (s : DataStore) (envelope : DataEnvelope) (now : ℚ) : DataHandled :=
  match envelope.key with
  | none =>
    { store := s
      reply := some (fieldsMissing "name and version are required" ["name", "version"]) }
  | some key =>
    match s.delete B key now with
    | .error (.raised _) => { store := s, reply := none }
    | .error (.err raw) =>
      { store := s
        reply := some (.fromError (storageFailureError raw.message
          [("data_name", .str key.id), ("version", .int key.version)])) }
    | .ok (s, events) =>
      { store := s
        events := events
        reply := some { ok := true
                        metadata := [("data_id", .str key.id), ("version", .int key.version)] } }

end DataDeleteHandler

namespace BucketRegisterHandler

/-- `handle`; the only error of an in-memory catalog is that the bucket exists.  `floatText` is
`repr` of a float. -/
def handle (floatText : ℚ → String) (buckets : BucketCatalog) (envelope : DataEnvelope) (now : ℚ) :
    BucketCatalog × List RegistryEvent × CommandResult :=
  match envelope.requiredName, envelope.quotaBytes with
  | some name, some quotaBytes =>
    match BucketRegistry.register buckets name quotaBytes now with
    | .error err => (buckets, [], .fromError err)
    | .ok (buckets, event) =>
      (buckets, [event],
        { ok := true
          metadata := [("name", .str name), ("quota_bytes", .int quotaBytes),
            ("created_at", .float (floatText now))] })
  | _, _ =>
    (buckets, [], fieldsMissing "name and quota_bytes are required" ["name", "quota_bytes"])

end BucketRegisterHandler

/-! ### Successful replies -/

variable {B : DataBackends} {s : DataStore} {envelope : DataEnvelope} {result : CommandResult}

theorem DataEnvelope.key_eq_some {key : RecordKey} (h : envelope.key = some key) :
    envelope.requiredName = some key.id ∧ envelope.version = some key.version := by
  unfold DataEnvelope.key at h
  split at h
  · cases h
    exact ⟨‹_›, ‹_›⟩
  · cases h

namespace DataRegisterHandler

/-- The request has all fields, and neither the quota nor the registry refuses it. -/
def Accepts (B : DataBackends) (bucketRegistry : Option BucketCatalog) (s : DataStore)
    (envelope : DataEnvelope) (key : RecordKey) (totalSize chunkBytes : ℤ) : Prop :=
  envelope.key = some key ∧ envelope.totalSize = some totalSize ∧
    envelope.chunkBytes = some chunkBytes ∧ chunkBytes ≠ 0 ∧
    quotaError bucketRegistry s.catalog key.id totalSize = none ∧
    Dataset.Registers B envelope.kind totalSize chunkBytes

instance (bucketRegistry : Option BucketCatalog) (key : RecordKey) (totalSize chunkBytes : ℤ) :
    Decidable (Accepts B bucketRegistry s envelope key totalSize chunkBytes) := by
  unfold Accepts
  infer_instance

/-- The record of a request that is accepted. -/
def recordOf (envelope : DataEnvelope) (key : RecordKey) (totalSize chunkBytes : ℤ) (now : ℚ) :
    DataRecord :=
  DataStore.newRecord key envelope.format envelope.kind totalSize chunkBytes now
    envelope.contentHash envelope.contentHashAlgo

variable {ownRpcUri : String} {bucketRegistry : Option BucketCatalog} {now : ℚ}

/-- A request that is accepted puts its record. -/
theorem handle_of_accepts {key : RecordKey} {totalSize chunkBytes : ℤ}
    (h : Accepts B bucketRegistry s envelope key totalSize chunkBytes) :
    handle B ownRpcUri bucketRegistry s envelope now =
      { store := (s.putRecord key (recordOf envelope key totalSize chunkBytes now) now).1
        events := (s.putRecord key (recordOf envelope key totalSize chunkBytes now) now).2
        reply := some { ok := true
                        metadata := metadata ownRpcUri
                          (recordOf envelope key totalSize chunkBytes now) } } := by
  obtain ⟨hkey, hsize, hbytes, hzero, hquota, hregisters⟩ := h
  have hfilter : envelope.chunkBytes.filter (· ≠ 0) = some chunkBytes :=
    Option.filter_eq_some_iff.2 ⟨hbytes, decide_eq_true hzero⟩
  unfold handle
  simp only [hkey, hsize, hfilter, hquota, DataStore.register_of_registers hregisters]
  rfl

/-- A request that is not accepted changes nothing, and is not answered with success. -/
theorem handle_refused
    (h : ∀ key totalSize chunkBytes,
      ¬ Accepts B bucketRegistry s envelope key totalSize chunkBytes) :
    (handle B ownRpcUri bucketRegistry s envelope now).store = s ∧
      ∀ result ∈ (handle B ownRpcUri bucketRegistry s envelope now).reply, result.ok = false := by
  unfold handle
  split
  case h_2 => exact ⟨rfl, fun result hresult => by cases hresult; rfl⟩
  case h_1 key totalSize chunkBytes hkey hsize hbytes =>
    obtain ⟨hbytes, hzero⟩ := Option.filter_eq_some_iff.1 hbytes
    rcases hquota : quotaError bucketRegistry s.catalog key.id totalSize with _ | err
    swap
    · exact ⟨rfl, fun result hresult => by cases hresult; rfl⟩
    have hregisters : ¬ Dataset.Registers B envelope.kind totalSize chunkBytes := fun hregisters =>
      h key totalSize chunkBytes
        ⟨hkey, hsize, hbytes, of_decide_eq_true hzero, hquota, hregisters⟩
    obtain ⟨e, he⟩ := s.register_refused key envelope.format now envelope.contentHash
      envelope.contentHashAlgo hregisters
    dsimp only
    rw [he]
    cases e with
    | raised _ => exact ⟨rfl, fun result hresult => by cases hresult⟩
    | err raw => exact ⟨rfl, fun result hresult => by cases hresult; rfl⟩

/-- A successful reply means that the request was accepted. -/
theorem accepts_of_ok
    (hreply : (handle B ownRpcUri bucketRegistry s envelope now).reply = some result)
    (hok : result.ok = true) :
    ∃ key totalSize chunkBytes, Accepts B bucketRegistry s envelope key totalSize chunkBytes := by
  by_contra hnone
  push Not at hnone
  have hfalse := (handle_refused hnone).2 result hreply
  rw [hok] at hfalse
  cases hfalse

end DataRegisterHandler

/-- `DATA_CHUNK_PUT` succeeds: the chunk was put, and nothing else of catalog or chunks changed. -/
theorem DataChunkPutHandler.chunkPut_ok {payload : List UInt8} {now : ℚ}
    (hreply : (handle B s envelope payload now).reply = some result) (hok : result.ok = true) :
    ∃ key index record, envelope.key = some key ∧ envelope.chunkIndex = some index ∧
      s.catalog.lookup key = some record ∧ Dataset.Accepts B record index payload ∧
      (handle B s envelope payload now).store.catalog = s.catalog ∧
      (handle B s envelope payload now).store.blobs =
        s.blobs.insert (chunkKey record.kind key index) payload := by
  unfold handle at hreply ⊢
  split at hreply
  case h_2 =>
    cases hreply
    cases hok
  case h_1 key index hkey hindex =>
    rcases hrecord : s.catalog.lookup key with _ | record
    · simp only [DataStore.storeChunk, hrecord] at hreply
      cases hreply
      cases hok
    by_cases haccepts : Dataset.Accepts B record index payload
    · simp only [DataStore.storeChunk_of_accepts hrecord haccepts] at hreply ⊢
      rcases hstatus : (s.putChunk key record index payload now).1.status B key with
        e | ⟨t, st⟩ <;> simp only [hstatus] at hreply ⊢
      · cases hreply
      · obtain ⟨hcatalog, hblobs, -⟩ := DataStore.status_ok hstatus
        refine ⟨key, index, record, hkey, hindex, hrecord, haccepts, ?_, ?_⟩
        · rw [hcatalog]
          simp [DataStore.putChunk]
        · rw [hblobs]
          simp [DataStore.putChunk]
    · obtain ⟨e, he⟩ := DataStore.storeChunk_refused now hrecord haccepts
      rw [he] at hreply
      cases e with
      | raised _ => cases hreply
      | err _ =>
        cases hreply
        cases hok

/-- `DATA_STATUS` changes neither catalog nor chunks. -/
theorem DataStatusHandler.unchanged (s : DataStore) (envelope : DataEnvelope) :
    (handle B s envelope).store.catalog = s.catalog ∧
      (handle B s envelope).store.blobs = s.blobs := by
  unfold handle
  rcases envelope.key with _ | key
  · exact ⟨rfl, rfl⟩
  · dsimp only
    rcases hstatus : s.status B key with e | ⟨t, st⟩
    · exact ⟨rfl, rfl⟩
    · obtain ⟨hcatalog, hblobs, -⟩ := DataStore.status_ok hstatus
      exact ⟨hcatalog, hblobs⟩

/-- `DATA_STATUS` of a record whose hash can be computed is answered, with the chunks present. -/
theorem DataStatusHandler.reply_eq {key : RecordKey} {record : DataRecord}
    (hkey : envelope.key = some key) (hrecord : s.catalog.lookup key = some record)
    (hkind : record.kind ∈ B.kinds) (hhash : (B.newHash record.contentHashAlgo).isSome) :
    ∃ st, (handle B s envelope).reply = some { ok := true, metadata := metadata st } ∧
      st.presentChunkIndices = s.present B key record := by
  obtain ⟨t, st, hstatus, hpresent, -⟩ := DataStore.status_eq_ok hrecord hkind hhash
  refine ⟨st, ?_, hpresent⟩
  unfold handle
  simp only [hkey, hstatus]

end Axo
