import Axo.Data.ChunkKeys

/-!
# The data registry with its chunks

`core/data/registry.py`, over an in-memory catalog and backends that work: a `put` stores, a `get`
or `exists` finds exactly what was stored last and not deleted since.

* `DataStore` is what a `DataRegistry` holds, with the contents of the backends;
* every operation is a function of it, which gives the events it emits, or fails and changes
  nothing: with one of the registry's errors, or with an exception that Python raises.
-/

namespace Axo

/-- The backends of an endpoint, all of kinds that have a key type, and `hashlib`. -/
structure DataBackends where
  kinds : List String
  keyed : ∀ kind ∈ kinds, kind ∈ DataRegistry.keyTypes
  sha256 : List UInt8 → String
  otherHashes : String → Option (List UInt8 → String)

/-- `hashlib.new` and `hexdigest()`, for an algorithm whose `hexdigest()` needs no length. -/
def DataBackends.newHash (B : DataBackends) (algo : String) : Option (List UInt8 → String) :=
  if algo = "sha256" then some B.sha256 else B.otherHashes algo

/-- How an operation fails. -/
inductive DataFailure
  | err (error : AxoError)
  | raised (exception : String)

/-- The events of the registry. -/
inductive DataEvent
  | registered (key : RecordKey) (totalChunks : ℤ) (format kind : String) (totalSize : ℤ) (now : ℚ)
  | uploadCompleted (key : RecordKey) (now : ℚ)
  | deleted (key : RecordKey) (now : ℚ)
  deriving DecidableEq

/-- `DataStatus`. -/
structure DataStatus where
  registered : Bool
  name : String
  version : ℤ
  format : String := ""
  kind : String := ""
  totalSize : ℤ := 0
  chunkBytes : ℤ := 0
  totalChunks : ℤ := 0
  presentChunkIndices : List ℕ := []
  complete : Bool := false
  progressRatio : ℚ := 0
  declaredHash : Option String := none
  computedHash : Option String := none
  hashVerified : Option Bool := none
  deriving DecidableEq

/-- The name and the version of a record. -/
def DataRecord.key (record : DataRecord) : RecordKey where
  id := record.name
  version := record.version

/-- `range(total_chunks)`. -/
def chunkRange (totalChunks : ℤ) : List ℕ := List.range totalChunks.toNat

@[simp] theorem mem_chunkRange {totalChunks : ℤ} {i : ℕ} :
    i ∈ chunkRange totalChunks ↔ (i : ℤ) < totalChunks := by
  rw [chunkRange, List.mem_range]
  omega

/-- The slices of the data, one after the other, are the data. -/
theorem flatMap_slices {data : List UInt8} {chunkBytes : ℕ} (hbytes : 0 < chunkBytes) :
    ((chunkRange (DataRegistry.totalChunksFor data.length chunkBytes)).flatMap
      fun i => Slices.slice chunkBytes data i) = data := by
  rw [List.flatMap_def, chunkRange]
  exact Slices.flatten_slices_eq (length_le_totalChunks hbytes)

/-- What a `DataRegistry` holds. -/
structure DataStore where
  catalog : DataCatalog := ∅
  blobs : Dict BlobKey (List UInt8) := ∅
  openStreams : Dict RecordKey OpenStream := ∅
  hashCache : Dict RecordKey (String × Bool) := ∅
  completedUploads : Finset RecordKey := ∅
  deriving DecidableEq

namespace DataStore

variable (B : DataBackends) (s : DataStore)

/-! ### Errors -/

/-- `ChunkIndexOutOfRangeError`. -/
def chunkIndexOutOfRangeError (key : RecordKey) (index totalChunks : ℤ) : AxoError :=
  { code := 6002
    name := "CHUNK_INDEX_OUT_OF_RANGE"
    message := "chunk_index " ++ index.repr ++ " out of range [0, " ++ totalChunks.repr ++ ")"
    context := DataRegistry.keyContext key ++
      [("chunk_index", .int index), ("total_chunks", .int totalChunks)] }

/-- `ChunkSizeMismatchError`. -/
def chunkSizeMismatchError (key : RecordKey) (index expected actual : ℤ) : AxoError :=
  { code := 6003
    name := "CHUNK_SIZE_MISMATCH"
    message := "chunk " ++ index.repr ++ " expected " ++ expected.repr ++ " bytes, got " ++
      actual.repr
    context := DataRegistry.keyContext key ++
      [("chunk_index", .int index), ("expected", .int expected), ("actual", .int actual)] }

/-- The `DataNotRegisteredError` of `read_chunk`. -/
def chunkMissingError (key : RecordKey) (index : ℤ) : AxoError :=
  { code := 6001
    name := "DATA_NOT_REGISTERED"
    message := "chunk " ++ index.repr ++ " of " ++ key.combined ++ " missing locally"
    context := DataRegistry.keyContext key ++ [("chunk_index", .int index)] }

/-- `total_size // 0`. -/
def zeroDivision : DataFailure := .raised "ZeroDivisionError"

/-- `self._blob_backends[kind]`. -/
def kindMissing (kind : String) : DataFailure := .raised ("KeyError: " ++ reprStr kind)

/-- `hashlib.new(algo)` raises for an unknown algorithm; for `shake_128` and `shake_256` it is
`hexdigest()` that does, as it needs a length. -/
def unsupportedHash (algo : String) : DataFailure :=
  .raised ("ValueError: unsupported hash type " ++ algo)

/-! ### Chunks -/

/-- What the backends hold under the key of a chunk. -/
def chunk (kind : String) (key : RecordKey) (index : ℤ) : Option (List UInt8) :=
  s.blobs.lookup (chunkKey kind key index)

/-- `_is_fully_present`. -/
def isFullyPresent (record : DataRecord) : Bool :=
  (chunkRange record.totalChunks).all fun i : ℕ => (s.chunk record.kind record.key i).isSome

/-- `_mark_completed_if_first_time`, and the event that follows. -/
def completeUpload (key : RecordKey) (now : ℚ) : DataStore × List DataEvent :=
  if key ∈ s.completedUploads then (s, [])
  else
    ({ s with completedUploads := insert key s.completedUploads }, [.uploadCompleted key now])

/-- `completeUpload`, if the dataset is complete. -/
def completeIf (full : Bool) (key : RecordKey) (now : ℚ) : DataStore × List DataEvent :=
  if full then s.completeUpload key now else (s, [])

/-- `_emit_registered`. -/
def registeredEvent (record : DataRecord) (now : ℚ) : DataEvent :=
  .registered record.key record.totalChunks record.format record.kind record.totalSize now

/-! ### Registration -/

/-- The record that `register` makes. -/
def newRecord (key : RecordKey) (format kind : String) (totalSize chunkBytes : ℤ) (now : ℚ)
    (contentHash : Option String) (contentHashAlgo : String) : DataRecord where
  name := key.id
  version := key.version
  keyAlias := key.id
  format := format
  kind := kind
  totalSize := totalSize
  chunkBytes := chunkBytes
  totalChunks := DataRegistry.totalChunksFor totalSize chunkBytes
  createdAt := now
  declaredHash := contentHash
  contentHashAlgo := contentHashAlgo

/-- The catalog gets a record; one without chunks is complete. -/
def putRecord (key : RecordKey) (record : DataRecord) (now : ℚ) : DataStore × List DataEvent :=
  let s := { s with catalog := s.catalog.insert key record }
  let (s, completed) := s.completeIf (record.totalChunks = 0) key now
  (s, registeredEvent record now :: completed)

/-- `register`. -/
def register (key : RecordKey) (format kind : String) (totalSize chunkBytes : ℤ) (now : ℚ)
    (contentHash : Option String) (contentHashAlgo : String) :
    Except DataFailure (DataStore × List DataEvent × DataRecord) :=
  if kind ∉ B.kinds ∨ kind ∉ DataRegistry.keyTypes then
    .error (.err (DataRegistry.unknownKindError kind))
  else if 0 < totalSize ∧ chunkBytes = 0 then .error zeroDivision
  else
    let record := newRecord key format kind totalSize chunkBytes now contentHash contentHashAlgo
    let (s, events) := s.putRecord key record now
    .ok (s, events, record)

/-! ### Deletion -/

/-- The blobs without the chunks of a record. -/
def dropChunks (key : RecordKey) (record : DataRecord) : Dict BlobKey (List UInt8) :=
  if record.kind ∈ B.kinds then
    Dict.eraseAll s.blobs
      ((chunkRange record.totalChunks).map fun i : ℕ => chunkKey record.kind key i)
  else s.blobs

/-- `delete`. -/
def delete (key : RecordKey) (now : ℚ) : Except DataFailure (DataStore × List DataEvent) :=
  match s.catalog.lookup key with
  | none => .error (.err (DataRegistry.notRegisteredError key))
  | some record =>
    .ok ({ s with
      catalog := s.catalog.erase key
      blobs := s.dropChunks B key record
      completedUploads := s.completedUploads.erase key
      hashCache := s.hashCache.erase key }, [.deleted key now])

/-! ### Chunk storage -/

/-- The backend gets a chunk of a record; the last one that was missing completes the upload. -/
def putChunk (key : RecordKey) (record : DataRecord) (index : ℤ) (data : List UInt8) (now : ℚ) :
    DataStore × List DataEvent :=
  let s := { s with blobs := s.blobs.insert (chunkKey record.kind key index) data }
  s.completeIf (s.isFullyPresent record) key now

/-- `store_chunk`. -/
def storeChunk (key : RecordKey) (index : ℤ) (data : List UInt8) (now : ℚ) :
    Except DataFailure (DataStore × List DataEvent × DataRecord) :=
  match s.catalog.lookup key with
  | none => .error (.err (DataRegistry.notRegisteredError key))
  | some record =>
    if index < 0 ∨ record.totalChunks ≤ index then
      .error (.err (chunkIndexOutOfRangeError key index record.totalChunks))
    else if 0 < record.totalSize ∧ record.chunkBytes = 0 then .error zeroDivision
    else if (data.length : ℤ) ≠ expectedChunkLen record.totalSize record.chunkBytes index then
      .error (.err (chunkSizeMismatchError key index
        (expectedChunkLen record.totalSize record.chunkBytes index) data.length))
    else if record.kind ∉ B.kinds then .error (kindMissing record.kind)
    else
      let (s, events) := s.putChunk key record index data now
      .ok (s, events, record)

/-- `read_chunk`. -/
def readChunk (key : RecordKey) (index : ℤ) : Except DataFailure (List UInt8) :=
  match s.catalog.lookup key with
  | none => .error (.err (DataRegistry.notRegisteredError key))
  | some record =>
    if record.kind ∉ B.kinds then .error (kindMissing record.kind)
    else
      match s.chunk record.kind key index with
      | none => .error (.err (chunkMissingError key index))
      | some data => .ok data

/-- `read_whole`. -/
def readWhole (key : RecordKey) : Except DataFailure (List UInt8) :=
  match s.catalog.lookup key with
  | none => .error (.err (DataRegistry.notRegisteredError key))
  | some record =>
    ((chunkRange record.totalChunks).mapM fun i : ℕ => s.readChunk B key i).map List.flatten

/-! ### Status -/

/-- The chunks of a record that a backend has. -/
def present (key : RecordKey) (record : DataRecord) : List ℕ :=
  if record.kind ∈ B.kinds then
    (chunkRange record.totalChunks).filter fun i : ℕ => (s.chunk record.kind key i).isSome
  else []

/-- `_compute_hash`. -/
def computeHash (record : DataRecord) : Except DataFailure String :=
  match B.newHash record.contentHashAlgo with
  | none => .error (unsupportedHash record.contentHashAlgo)
  | some hash =>
    if record.kind ∉ B.kinds then .error (kindMissing record.kind)
    else
      .ok (hash ((chunkRange record.totalChunks).flatMap fun i : ℕ =>
        (s.chunk record.kind record.key i).getD []))

/-- The hash of a complete dataset, and whether it is the declared one: what the cache says, or
else what is computed, which the cache then keeps. -/
def verifyHash (key : RecordKey) (record : DataRecord) :
    Except DataFailure (DataStore × String × Bool) :=
  match s.hashCache.lookup key with
  | some (computed, verified) => .ok (s, computed, verified)
  | none =>
    match s.computeHash B record with
    | .error e => .error e
    | .ok computed =>
      let verified := decide (record.declaredHash = some computed)
      .ok ({ s with hashCache := s.hashCache.insert key (computed, verified) }, computed, verified)

/-- The part of the status that does not depend on the hash. -/
def baseStatus (key : RecordKey) (record : DataRecord) : DataStatus :=
  let present := s.present B key record
  { registered := true
    name := key.id
    version := key.version
    format := record.format
    kind := record.kind
    totalSize := record.totalSize
    chunkBytes := record.chunkBytes
    totalChunks := record.totalChunks
    presentChunkIndices := present
    complete := (present.length : ℤ) = record.totalChunks
    progressRatio :=
      if record.totalChunks = 0 then 1 else (present.length : ℚ) / (record.totalChunks : ℚ)
    declaredHash := record.declaredHash }

/-- `status`. -/
def status (key : RecordKey) : Except DataFailure (DataStore × DataStatus) :=
  match s.catalog.lookup key with
  | none => .ok (s, { registered := false, name := key.id, version := key.version })
  | some record =>
    let base := s.baseStatus B key record
    if base.complete then
      match s.verifyHash B key record with
      | .error e => .error e
      | .ok (s, computed, verified) =>
        .ok (s, { base with computedHash := some computed, hashVerified := some verified })
    else .ok (s, base)

/-! ### Streams -/

/-- `open_stream`. -/
def openStream (key : RecordKey) (format kind : String) (chunkBytes : ℤ) : DataStore :=
  { s with openStreams := DataRegistry.openStream s.openStreams key format kind chunkBytes }

/-- `append_chunk`. -/
def appendChunk (key : RecordKey) (data : List UInt8) : Except DataFailure (DataStore × ℕ) :=
  match s.openStreams.lookup key with
  | none => .error (.err (DataRegistry.streamNotOpenError key))
  | some stream =>
    if stream.kind ∉ B.kinds then .error (.err (DataRegistry.unknownKindError stream.kind))
    else
      let grown : OpenStream :=
        { stream with
          hashed := stream.hashed ++ data
          totalSize := stream.totalSize + data.length
          nextIndex := stream.nextIndex + 1 }
      .ok ({ s with
        blobs := s.blobs.insert (chunkKey stream.kind key stream.nextIndex) data
        openStreams := s.openStreams.insert key grown }, stream.nextIndex)

/-- The record that `finalize_stream` makes. -/
def streamRecord (key : RecordKey) (stream : OpenStream) (now : ℚ) : DataRecord where
  name := key.id
  version := key.version
  keyAlias := key.id
  format := stream.format
  kind := stream.kind
  totalSize := stream.totalSize
  chunkBytes := stream.chunkBytes
  totalChunks := stream.nextIndex
  createdAt := now
  declaredHash := some (B.sha256 stream.hashed)
  contentHashAlgo := "sha256"

/-- `finalize_stream`. -/
def finalizeStream (key : RecordKey) (now : ℚ) :
    Except DataFailure (DataStore × List DataEvent × DataRecord) :=
  match s.openStreams.lookup key with
  | none => .error (.err (DataRegistry.streamAlreadyFinalizedError key))
  | some stream =>
    let record := streamRecord B key stream now
    let s := { s with
      openStreams := s.openStreams.erase key
      catalog := s.catalog.insert key record }
    let (s, completed) := s.completeUpload key now
    .ok (s, registeredEvent record now :: completed, record)

end DataStore

end Axo
