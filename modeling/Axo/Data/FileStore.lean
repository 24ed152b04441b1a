import Axo.Data.Dataset
import Axo.Storage.Filesystem

/-!
# The data registry over a file system

The operations of `core/data/registry.py` that touch chunks, where the chunks of kind `fs` are
files; the operations that do not are those of `DataStore`.

* `FileStore` is a registry with its file system backend;
* `FileStore.step` carries out one call;
* `Unmoved` says what has to stay so that a dataset reads the same and has the same status.
-/

namespace Axo

/-- What a `DataRegistry` holds, and its backend; the registry's own `blobs` stay empty. -/
structure FileStore where
  registry : DataStore := {}
  files : FilesystemStorageBackend

namespace FileStore

variable (B : DataBackends) (s : FileStore)

/-- The path of a chunk. -/
def chunkPath (record : DataRecord) (key : RecordKey) (index : ℤ) : String :=
  (chunkKey record.kind key index).path

/-- What `is_ok` and `unwrap` make of a result; an exception goes on. -/
def okOr {α : Type} (default : α) : Except DataFailure α → Except DataFailure α
  | .error (.raised e) => .error (.raised e)
  | .error (.err _) => .ok default
  | .ok value => .ok value

/-! ### Reading -/

/-- `read_chunk`. -/
def readChunk (key : RecordKey) (index : ℤ) : Except DataFailure (List UInt8) :=
  match s.registry.catalog.lookup key with
  | none => .error (.err (DataRegistry.notRegisteredError key))
  | some record =>
    if record.kind ∉ B.kinds then .error (DataStore.kindMissing record.kind)
    else
      match s.files.get (chunkPath record key index) with
      | .error e => .error e
      | .ok none => .error (.err (DataStore.chunkMissingError key index))
      | .ok (some data) => .ok data

/-- `read_whole`. -/
def readWhole (key : RecordKey) : Except DataFailure (List UInt8) :=
  match s.registry.catalog.lookup key with
  | none => .error (.err (DataRegistry.notRegisteredError key))
  | some record =>
    ((chunkRange record.totalChunks).mapM fun i : ℕ => s.readChunk B key i).map List.flatten

/-! ### Status -/

/-- The chunks of a record that the backend has. -/
def present (key : RecordKey) (record : DataRecord) : Except DataFailure (List ℕ) :=
  if record.kind ∈ B.kinds then
    (chunkRange record.totalChunks).filterM fun i : ℕ =>
      okOr false (s.files.existsAt (chunkPath record key i))
  else .ok []

/-- `_is_fully_present`; it is only asked after a `put` of the dataset, so nothing raises. -/
def isFullyPresent (record : DataRecord) : Bool :=
  (chunkRange record.totalChunks).all fun i : ℕ =>
    match s.files.existsAt (chunkPath record record.key i) with
    | .ok found => found
    | .error _ => false

/-- `_compute_hash`. -/
def computeHash (record : DataRecord) : Except DataFailure String :=
  match B.newHash record.contentHashAlgo with
  | none => .error (DataStore.unsupportedHash record.contentHashAlgo)
  | some hash =>
    if record.kind ∉ B.kinds then .error (DataStore.kindMissing record.kind)
    else
      ((chunkRange record.totalChunks).mapM fun i : ℕ =>
        okOr none (s.files.get (chunkPath record record.key i))).map fun chunks =>
          hash (chunks.flatMap fun chunk => chunk.getD [])

/-- The hash of a complete dataset, and whether it is the declared one. -/
def verifyHash (key : RecordKey) (record : DataRecord) :
    Except DataFailure (FileStore × String × Bool) :=
  match s.registry.hashCache.lookup key with
  | some (computed, verified) => .ok (s, computed, verified)
  | none =>
    match s.computeHash B record with
    | .error e => .error e
    | .ok computed =>
      let verified := decide (record.declaredHash = some computed)
      .ok ({ s with registry := { s.registry with
        hashCache := s.registry.hashCache.insert key (computed, verified) } }, computed, verified)

/-- The part of the status that does not depend on the hash. -/
def baseStatus (key : RecordKey) (record : DataRecord) (present : List ℕ) : DataStatus :=
  { registered := true
    name := key.id
    version := key.version
    format := record.format
    kind := record.kind
    totalSize := record.totalSize
    chunkBytes := record.chunkBytes
    totalChunks := record.totalChunks
    presentChunkIndices := present
    complete := (present.length : ℤ) = record.totalChunks
    progressRatio :=
      if record.totalChunks = 0 then 1 else (present.length : ℚ) / (record.totalChunks : ℚ)
    declaredHash := record.declaredHash }

/-- `status`. -/
def status (key : RecordKey) : Except DataFailure (FileStore × DataStatus) :=
  match s.registry.catalog.lookup key with
  | none => .ok (s, { registered := false, name := key.id, version := key.version })
  | some record =>
    match s.present B key record with
    | .error e => .error e
    | .ok present =>
      let base := baseStatus key record present
      if base.complete then
        match s.verifyHash B key record with
        | .error e => .error e
        | .ok (s, computed, verified) =>
          .ok (s, { base with computedHash := some computed, hashVerified := some verified })
      else .ok (s, base)

/-! ### Writing -/

/-- `store_chunk`. -/
def storeChunk (key : RecordKey) (index : ℤ) (data : List UInt8) (now : ℚ) :
    Except DataFailure (FileStore × List DataEvent × DataRecord) :=
  match s.registry.catalog.lookup key with
  | none => .error (.err (DataRegistry.notRegisteredError key))
  | some record =>
    if index < 0 ∨ record.totalChunks ≤ index then
      .error (.err (DataStore.chunkIndexOutOfRangeError key index record.totalChunks))
    else if 0 < record.totalSize ∧ record.chunkBytes = 0 then .error DataStore.zeroDivision
    else if (data.length : ℤ) ≠ expectedChunkLen record.totalSize record.chunkBytes index then
      .error (.err (DataStore.chunkSizeMismatchError key index
        (expectedChunkLen record.totalSize record.chunkBytes index) data.length))
    else if record.kind ∉ B.kinds then .error (DataStore.kindMissing record.kind)
    else
      match s.files.put (chunkPath record key index) data with
      | .error e => .error e
      | .ok files =>
        let s := { s with files := files }
        let (registry, events) := s.registry.completeIf (s.isFullyPresent record) key now
        .ok ({ s with registry := registry }, events, record)

/-- The loop of `delete`, which does not look at the errors of the backend. -/
def deleteChunks (files : FilesystemStorageBackend) (key : RecordKey) (record : DataRecord) :
    List ℕ → Except DataFailure FilesystemStorageBackend
  | [] => .ok files
  | i :: rest =>
    match okOr files (files.delete (chunkPath record key i)) with
    | .error e => .error e
    | .ok files => deleteChunks files key record rest

/-- `delete`. -/
def delete (key : RecordKey) (now : ℚ) : Except DataFailure (FileStore × List DataEvent) :=
  match s.registry.catalog.lookup key with
  | none => .error (.err (DataRegistry.notRegisteredError key))
  | some record =>
    match deleteChunks s.files key record
        (if record.kind ∈ B.kinds then chunkRange record.totalChunks else []) with
    | .error e => .error e
    | .ok files =>
      .ok ({
        registry := { s.registry with
          catalog := s.registry.catalog.erase key
          completedUploads := s.registry.completedUploads.erase key
          hashCache := s.registry.hashCache.erase key }
        files := files }, [.deleted key now])

/-- `append_chunk`. -/
def appendChunk (key : RecordKey) (data : List UInt8) : Except DataFailure (FileStore × ℕ) :=
  match s.registry.openStreams.lookup key with
  | none => .error (.err (DataRegistry.streamNotOpenError key))
  | some stream =>
    if stream.kind ∉ B.kinds then .error (.err (DataRegistry.unknownKindError stream.kind))
    else
      match s.files.put (chunkKey stream.kind key stream.nextIndex).path data with
      | .error e => .error e
      | .ok files =>
        let grown : OpenStream :=
          { stream with
            hashed := stream.hashed ++ data
            totalSize := stream.totalSize + data.length
            nextIndex := stream.nextIndex + 1 }
        .ok ({ registry := { s.registry with
                 openStreams := s.registry.openStreams.insert key grown }
               files := files }, stream.nextIndex)

/-- What a call leaves; one that fails changes nothing. -/
def perform : DataCall → FileStore
  | .register key format kind totalSize chunkBytes now contentHash contentHashAlgo =>
    match s.registry.register B key format kind totalSize chunkBytes now contentHash
        contentHashAlgo with
    | .error _ => s
    | .ok (registry, _, _) => { s with registry := registry }
  | .delete key now =>
    match s.delete B key now with
    | .error _ => s
    | .ok (s, _) => s
  | .storeChunk key index data now =>
    match s.storeChunk B key index data now with
    | .error _ => s
    | .ok (s, _, _) => s
  | .status key =>
    match s.status B key with
    | .error _ => s
    | .ok (s, _) => s
  | .openStream key format kind chunkBytes =>
    { s with registry := s.registry.openStream key format kind chunkBytes }
  | .appendChunk key data =>
    match s.appendChunk B key data with
    | .error _ => s
    | .ok (s, _) => s
  | .finalizeStream key now =>
    match s.registry.finalizeStream B key now with
    | .error _ => s
    | .ok (registry, _, _) => { s with registry := registry }

/-- One step. -/
def step (s : FileStore) (call : DataCall) : Option FileStore := some (s.perform B call)

end FileStore

end Axo
