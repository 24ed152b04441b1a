import Axo.Data.DataStore
import Axo.Lib.Transition

/-!
# One dataset at a time

The calls of the data registry, and what each of them does to one name and version.

* `DataHistory` is the registry with what its calls have done since a dataset was last registered;
* `Dataset` is what concerns one key alone, and `Dataset.apply` is a call on that key;
* `dataset_perform` connects the two: a call acts on its own key as `Dataset.apply` says, and
  leaves every other key as it is.
-/

namespace Axo

open Transition

/-- A call of the registry. -/
inductive DataCall
  | register (key : RecordKey) (format kind : String) (totalSize chunkBytes : ℤ) (now : ℚ)
      (contentHash : Option String) (contentHashAlgo : String)
  | delete (key : RecordKey) (now : ℚ)
  | storeChunk (key : RecordKey) (index : ℤ) (data : List UInt8) (now : ℚ)
  | status (key : RecordKey)
  | openStream (key : RecordKey) (format kind : String) (chunkBytes : ℤ)
  | appendChunk (key : RecordKey) (data : List UInt8)
  | finalizeStream (key : RecordKey) (now : ℚ)
  deriving DecidableEq

/-- The dataset that a call is about. -/
def DataCall.key : DataCall → RecordKey
  | .register key .. | .delete key _ | .storeChunk key .. | .status key | .openStream key ..
  | .appendChunk key _ | .finalizeStream key _ => key

/-- Chunks by their index. -/
abbrev Chunks := ℕ → Option (List UInt8)

/-- No chunk at all. -/
def Chunks.none : Chunks := fun _ => Option.none

/-! ### Histories -/

/-- How often an upload of the dataset is said to be complete. -/
def signalsIn (key : RecordKey) (events : List DataEvent) : ℕ :=
  events.countP fun
    | .uploadCompleted k _ => k = key
    | _ => false

/-- The registry of a node, and for each dataset: the chunks accepted since it was registered (for
a stream that was finalized, its chunks and those accepted since), the chunks that its open stream
has appended, and how often it was said to be complete since it was last registered, finalized or
deleted. -/
structure DataHistory where
  store : DataStore := {}
  accepted : RecordKey → Chunks := fun _ => .none
  streamed : RecordKey → Chunks := fun _ => .none
  signals : RecordKey → ℕ := fun _ => 0

namespace DataHistory

variable (B : DataBackends)

/-- One call; a call that fails changes nothing. -/
def perform (h : DataHistory) : DataCall → DataHistory
  | .register key format kind totalSize chunkBytes now contentHash contentHashAlgo =>
    match h.store.register B key format kind totalSize chunkBytes now contentHash
      contentHashAlgo with
    | .error _ => h
    | .ok (store, events, _) =>
      { h with
        store := store
        accepted := Function.update h.accepted key .none
        signals := Function.update h.signals key (signalsIn key events) }
  | .delete key now =>
    match h.store.delete B key now with
    | .error _ => h
    | .ok (store, events) =>
      { h with
        store := store
        accepted := Function.update h.accepted key .none
        signals := Function.update h.signals key (signalsIn key events) }
  | .storeChunk key index data now =>
    match h.store.storeChunk B key index data now with
    | .error _ => h
    | .ok (store, events, _) =>
      { h with
        store := store
        accepted := Function.update h.accepted key
          (Function.update (h.accepted key) index.toNat (some data))
        signals := Function.update h.signals key (h.signals key + signalsIn key events) }
  | .status key =>
    match h.store.status B key with
    | .error _ => h
    | .ok (store, _) => { h with store := store }
  | .openStream key format kind chunkBytes =>
    { h with
      store := h.store.openStream key format kind chunkBytes
      streamed := Function.update h.streamed key .none }
  | .appendChunk key data =>
    match h.store.appendChunk B key data with
    | .error _ => h
    | .ok (store, index) =>
      { h with
        store := store
        streamed := Function.update h.streamed key
          (Function.update (h.streamed key) index (some data)) }
  | .finalizeStream key now =>
    match h.store.finalizeStream B key now with
    | .error _ => h
    | .ok (store, events, _) =>
      { h with
        store := store
        accepted := Function.update h.accepted key (h.streamed key)
        streamed := Function.update h.streamed key .none
        signals := Function.update h.signals key (signalsIn key events) }

/-- The calls as steps. -/
def step (h : DataHistory) (call : DataCall) : Option DataHistory := some (h.perform B call)

end DataHistory

/-! ### Datasets -/

/-- What concerns one name and version. -/
@[ext]
structure Dataset where
  record : Option DataRecord
  chunks : String → Chunks
  stream : Option OpenStream
  completed : Bool
  accepted : Chunks
  streamed : Chunks
  signals : ℕ

namespace Dataset

variable (B : DataBackends)

/-- A key that nothing was done with. -/
def empty : Dataset where
  record := none
  chunks := fun _ => .none
  stream := none
  completed := false
  accepted := .none
  streamed := .none
  signals := 0

/-- Every chunk of the record is there. -/
def Full (record : DataRecord) (chunks : String → Chunks) : Prop :=
  ∀ i ∈ chunkRange record.totalChunks, (chunks record.kind i).isSome

instance (record : DataRecord) (chunks : String → Chunks) : Decidable (Full record chunks) := by
  unfold Full
  infer_instance

/-- The chunks after one was written. -/
def write (chunks : String → Chunks) (kind : String) (index : ℕ) (data : List UInt8) :
    String → Chunks :=
  Function.update chunks kind (Function.update (chunks kind) index (some data))

/-- The chunks after those of a record were deleted. -/
def drop (chunks : String → Chunks) (record : DataRecord) : String → Chunks :=
  if record.kind ∈ B.kinds then
    Function.update chunks record.kind fun i =>
      if (i : ℤ) < record.totalChunks then none else chunks record.kind i
  else chunks

/-- `register` accepts the arguments. -/
def Registers (kind : String) (totalSize chunkBytes : ℤ) : Prop :=
  kind ∈ B.kinds ∧ ¬ (0 < totalSize ∧ chunkBytes = 0)

/-- `store_chunk` accepts the arguments. -/
def Accepts (record : DataRecord) (index : ℤ) (data : List UInt8) : Prop :=
  0 ≤ index ∧ index < record.totalChunks ∧ ¬ (0 < record.totalSize ∧ record.chunkBytes = 0) ∧
    (data.length : ℤ) = expectedChunkLen record.totalSize record.chunkBytes index ∧
    record.kind ∈ B.kinds

instance (kind : String) (totalSize chunkBytes : ℤ) :
    Decidable (Registers B kind totalSize chunkBytes) := by
  unfold Registers
  infer_instance

instance (record : DataRecord) (index : ℤ) (data : List UInt8) :
    Decidable (Accepts B record index data) := by
  unfold Accepts
  infer_instance

/-- A record takes the place of the one before; `full` says whether it is complete at once. -/
def replaced (d : Dataset) (record : DataRecord) (accepted : Chunks) (full : Prop)
    [Decidable full] : Dataset :=
  { d with
    record := some record
    accepted := accepted
    completed := d.completed || decide full
    signals := if full ∧ d.completed = false then 1 else 0 }

/-- A chunk of the record is stored. -/
def stored (d : Dataset) (record : DataRecord) (index : ℕ) (data : List UInt8) : Dataset :=
  let chunks := write d.chunks record.kind index data
  { d with
    chunks := chunks
    accepted := Function.update d.accepted index (some data)
    completed := d.completed || decide (Full record chunks)
    signals := d.signals + if Full record chunks ∧ d.completed = false then 1 else 0 }

/-- The stream has one chunk more. -/
def streamedOn (d : Dataset) (stream : OpenStream) (data : List UInt8) : Dataset :=
  { d with
    chunks := write d.chunks stream.kind stream.nextIndex data
    stream := some { stream with
      hashed := stream.hashed ++ data
      totalSize := stream.totalSize + data.length
      nextIndex := stream.nextIndex + 1 }
    streamed := Function.update d.streamed stream.nextIndex (some data) }

/-- A call on the key of the dataset. -/
def apply (d : Dataset) : DataCall → Dataset
  | .register key format kind totalSize chunkBytes now contentHash contentHashAlgo =>
    if Registers B kind totalSize chunkBytes then
      let record := DataStore.newRecord key format kind totalSize chunkBytes now contentHash
        contentHashAlgo
      d.replaced record .none (record.totalChunks = 0)
    else d
  | .delete _ _ =>
    match d.record with
    | none => d
    | some record =>
      { d with
        record := none
        chunks := drop B d.chunks record
        completed := false
        accepted := .none
        signals := 0 }
  | .storeChunk _ index data _ =>
    match d.record with
    | none => d
    | some record => if Accepts B record index data then d.stored record index.toNat data else d
  | .status _ => d
  | .openStream _ format kind chunkBytes =>
    { d with
      stream := some { format := format, kind := kind, chunkBytes := chunkBytes }
      streamed := .none }
  | .appendChunk _ data =>
    match d.stream with
    | none => d
    | some stream => if stream.kind ∈ B.kinds then d.streamedOn stream data else d
  | .finalizeStream key now =>
    match d.stream with
    | none => d
    | some stream =>
      { d.replaced (DataStore.streamRecord B key stream now) d.streamed True with
        stream := none
        streamed := .none }

end Dataset

/-- What the registry holds about a key. -/
def DataHistory.dataset (h : DataHistory) (key : RecordKey) : Dataset where
  record := h.store.catalog.lookup key
  chunks := fun kind i => h.store.chunk kind key i
  stream := h.store.openStreams.lookup key
  completed := decide (key ∈ h.store.completedUploads)
  accepted := h.accepted key
  streamed := h.streamed key
  signals := h.signals key

/-! ### The connection -/

/-- Every record is stored under its own name and version. -/
def DataStore.WellKeyed (s : DataStore) : Prop :=
  ∀ key record, s.catalog.lookup key = some record → record.key = key

namespace DataStore

variable {B : DataBackends} {s t : DataStore} {key k : RecordKey} {now : ℚ}

/-- Writing under the key of a chunk. -/
theorem lookup_insert_chunk {blobs : Dict BlobKey (List UInt8)} {kind kind' : String}
    {i j : ℕ} {data : List UInt8} :
    (blobs.insert (chunkKey kind key i) data).lookup (chunkKey kind' k j) =
      if kind' = kind ∧ k = key ∧ j = i then some data else blobs.lookup (chunkKey kind' k j) := by
  split_ifs with h
  · obtain ⟨rfl, rfl, rfl⟩ := h
    exact AList.lookup_insert _
  · exact AList.lookup_insert_ne fun heq => h (chunkKey_inj.1 heq)

/-- Deleting the chunks of a record. -/
theorem lookup_dropChunks {record : DataRecord} {kind : String} {j : ℕ} :
    (s.dropChunks B key record).lookup (chunkKey kind k j) =
      if record.kind ∈ B.kinds ∧ kind = record.kind ∧ k = key ∧ (j : ℤ) < record.totalChunks
      then none else s.blobs.lookup (chunkKey kind k j) := by
  unfold dropChunks
  by_cases hkind : record.kind ∈ B.kinds
  · rw [if_pos hkind, Dict.lookup_eraseAll]
    have hmem : chunkKey kind k j ∈
        ((chunkRange record.totalChunks).map fun i : ℕ => chunkKey record.kind key i) ↔
        kind = record.kind ∧ k = key ∧ (j : ℤ) < record.totalChunks := by
      simp only [List.mem_map, chunkKey_inj, mem_chunkRange]
      constructor
      · rintro ⟨i, hi, rfl, rfl, rfl⟩
        exact ⟨rfl, rfl, hi⟩
      · rintro ⟨rfl, rfl, hj⟩
        exact ⟨j, hj, rfl, rfl, rfl⟩
    simp only [hmem, hkind, true_and]
  · rw [if_neg hkind, if_neg fun h => hkind h.1]

@[simp] theorem catalog_completeUpload : (s.completeUpload key now).1.catalog = s.catalog := by
  unfold completeUpload
  split_ifs <;> rfl

@[simp] theorem blobs_completeUpload : (s.completeUpload key now).1.blobs = s.blobs := by
  unfold completeUpload
  split_ifs <;> rfl

@[simp] theorem openStreams_completeUpload :
    (s.completeUpload key now).1.openStreams = s.openStreams := by
  unfold completeUpload
  split_ifs <;> rfl

@[simp] theorem completedUploads_completeUpload :
    (s.completeUpload key now).1.completedUploads = insert key s.completedUploads := by
  unfold completeUpload
  split_ifs with h
  · exact (Finset.insert_eq_self.2 h).symm
  · rfl

@[simp] theorem signalsIn_completeUpload :
    signalsIn key (s.completeUpload key now).2 = if key ∈ s.completedUploads then 0 else 1 := by
  unfold completeUpload
  split_ifs with h
  · rfl
  · simp [signalsIn]

section CompleteIf

variable {full : Bool}

@[simp] theorem catalog_completeIf : (s.completeIf full key now).1.catalog = s.catalog := by
  cases full <;> simp [completeIf]

@[simp] theorem blobs_completeIf : (s.completeIf full key now).1.blobs = s.blobs := by
  cases full <;> simp [completeIf]

@[simp] theorem openStreams_completeIf :
    (s.completeIf full key now).1.openStreams = s.openStreams := by
  cases full <;> simp [completeIf]

@[simp] theorem mem_completeIf :
    k ∈ (s.completeIf full key now).1.completedUploads ↔
      k ∈ s.completedUploads ∨ full = true ∧ k = key := by
  cases full <;> simp [completeIf, or_comm]

@[simp] theorem signalsIn_completeIf :
    signalsIn key (s.completeIf full key now).2 =
      if full = true ∧ key ∉ s.completedUploads then 1 else 0 := by
  cases full
  · rfl
  · by_cases h : key ∈ s.completedUploads <;> simp [completeIf, h]

end CompleteIf

@[simp] theorem signalsIn_registered {record : DataRecord} {events : List DataEvent} :
    signalsIn key (registeredEvent record now :: events) = signalsIn key events := by
  simp [signalsIn, registeredEvent]

theorem isFullyPresent_iff {record : DataRecord} :
    s.isFullyPresent record = true ↔
      Dataset.Full record fun kind i => s.chunk kind record.key i := by
  simp only [isFullyPresent, Dataset.Full, List.all_eq_true]

/-- The chunks of every dataset after one was written. -/
theorem chunks_insert {kind : String} {index : ℕ} {data : List UInt8}
    (hblobs : t.blobs = s.blobs.insert (chunkKey kind key index) data) :
    (fun kind' (i : ℕ) => t.chunk kind' k i) =
      if k = key then Dataset.write (fun kind' (i : ℕ) => s.chunk kind' k i) kind index data
      else fun kind' (i : ℕ) => s.chunk kind' k i := by
  funext kind' i
  unfold chunk
  rw [hblobs, lookup_insert_chunk]
  by_cases hk : k = key
  · subst hk
    simp only [true_and, if_true, Dataset.write]
    by_cases hkind : kind' = kind
    · subst hkind
      rw [Function.update_self]
      by_cases hi : i = index
      · subst hi
        simp
      · simp [hi]
    · simp [hkind]
  · simp [hk]

/-- The chunks of every dataset after those of one were dropped. -/
theorem chunks_dropChunks {record : DataRecord} (hblobs : t.blobs = s.dropChunks B key record) :
    (fun kind (i : ℕ) => t.chunk kind k i) =
      if k = key then Dataset.drop B (fun kind (i : ℕ) => s.chunk kind k i) record
      else fun kind (i : ℕ) => s.chunk kind k i := by
  funext kind i
  unfold chunk
  rw [hblobs, lookup_dropChunks]
  by_cases hk : k = key
  · subst hk
    simp only [true_and, if_true, Dataset.drop]
    by_cases hB : record.kind ∈ B.kinds
    · rw [if_pos hB]
      by_cases hkind : kind = record.kind
      · subst hkind
        simp [hB]
      · simp [hkind]
    · simp [hB]
  · simp [hk]

/-! ### When the operations succeed -/

theorem register_of_registers {format kind : String} {totalSize chunkBytes : ℤ}
    {contentHash : Option String} {contentHashAlgo : String}
    (h : Dataset.Registers B kind totalSize chunkBytes) :
    s.register B key format kind totalSize chunkBytes now contentHash contentHashAlgo =
      .ok ((s.putRecord key (newRecord key format kind totalSize chunkBytes now contentHash
          contentHashAlgo) now).1,
        (s.putRecord key (newRecord key format kind totalSize chunkBytes now contentHash
          contentHashAlgo) now).2,
        newRecord key format kind totalSize chunkBytes now contentHash contentHashAlgo) := by
  obtain ⟨hkind, hzero⟩ := h
  unfold register
  rw [if_neg (not_or.2 ⟨not_not.2 hkind, not_not.2 (B.keyed kind hkind)⟩), if_neg hzero]

theorem register_refused (s : DataStore) (key : RecordKey) (format : String) {kind : String}
    {totalSize chunkBytes : ℤ} (now : ℚ) (contentHash : Option String) (contentHashAlgo : String)
    (h : ¬ Dataset.Registers B kind totalSize chunkBytes) :
    ∃ e, s.register B key format kind totalSize chunkBytes now contentHash contentHashAlgo =
      .error e := by
  unfold register
  by_cases hkind : kind ∈ B.kinds
  · have hzero : 0 < totalSize ∧ chunkBytes = 0 := not_not.1 fun hzero => h ⟨hkind, hzero⟩
    rw [if_neg (not_or.2 ⟨not_not.2 hkind, not_not.2 (B.keyed kind hkind)⟩), if_pos hzero]
    exact ⟨_, rfl⟩
  · rw [if_pos (.inl hkind)]
    exact ⟨_, rfl⟩

theorem storeChunk_of_accepts {record : DataRecord} {index : ℤ} {data : List UInt8}
    (hrecord : s.catalog.lookup key = some record) (h : Dataset.Accepts B record index data) :
    s.storeChunk B key index data now =
      .ok ((s.putChunk key record index data now).1, (s.putChunk key record index data now).2,
        record) := by
  obtain ⟨hlow, hhigh, hzero, hlength, hkind⟩ := h
  unfold storeChunk
  rw [hrecord]
  dsimp only
  rw [if_neg (by omega), if_neg hzero, if_neg (not_not.2 hlength), if_neg (not_not.2 hkind)]

theorem storeChunk_refused (now : ℚ) {record : DataRecord} {index : ℤ} {data : List UInt8}
    (hrecord : s.catalog.lookup key = some record) (h : ¬ Dataset.Accepts B record index data) :
    ∃ e, s.storeChunk B key index data now = .error e := by
  unfold storeChunk
  rw [hrecord]
  dsimp only
  split_ifs with hrange hzero hlength hkind
  · exact ⟨_, rfl⟩
  · exact ⟨_, rfl⟩
  · exact ⟨_, rfl⟩
  · exact absurd ⟨by omega, by omega, hzero, not_not.1 hlength, hkind⟩ h
  · exact ⟨_, rfl⟩

/-- `status` changes nothing but the cache of the hashes. -/
theorem status_ok {st : DataStatus} (h : s.status B key = .ok (t, st)) :
    t.catalog = s.catalog ∧ t.blobs = s.blobs ∧ t.openStreams = s.openStreams ∧
      t.completedUploads = s.completedUploads := by
  unfold status at h
  rcases hrecord : s.catalog.lookup key with _ | record <;> rw [hrecord] at h <;> dsimp only at h
  · cases h
    exact ⟨rfl, rfl, rfl, rfl⟩
  · split_ifs at h with hcomplete
    · unfold verifyHash at h
      rcases hcache : s.hashCache.lookup key with _ | ⟨computed, verified⟩ <;>
        rw [hcache] at h <;> dsimp only at h
      · rcases hhash : s.computeHash B record with e | computed <;> rw [hhash] at h <;> cases h
        exact ⟨rfl, rfl, rfl, rfl⟩
      · cases h
        exact ⟨rfl, rfl, rfl, rfl⟩
    · cases h
      exact ⟨rfl, rfl, rfl, rfl⟩

end DataStore

namespace DataHistory

variable {B : DataBackends} {h t : DataHistory} {call : DataCall} {key k : RecordKey}

theorem dataset_register {format kind : String} {totalSize chunkBytes : ℤ} {now : ℚ}
    {contentHash : Option String} {contentHashAlgo : String} :
    (h.perform B (.register key format kind totalSize chunkBytes now contentHash
        contentHashAlgo)).dataset k =
      if k = key then (h.dataset k).apply B (.register key format kind totalSize chunkBytes now
        contentHash contentHashAlgo)
      else h.dataset k := by
  by_cases hregisters : Dataset.Registers B kind totalSize chunkBytes
  · simp only [perform, DataStore.register_of_registers hregisters, Dataset.apply,
      if_pos hregisters]
    by_cases hk : k = key
    · subst hk
      rw [if_pos rfl]
      ext1 <;> simp [dataset, DataStore.putRecord, Dataset.replaced, DataStore.chunk]
    · rw [if_neg hk]
      ext1 <;> simp [dataset, DataStore.putRecord, DataStore.chunk, hk]
  · obtain ⟨e, he⟩ := h.store.register_refused key format now contentHash contentHashAlgo
      hregisters
    simp only [perform, he, Dataset.apply, if_neg hregisters, ite_self]

theorem dataset_delete {now : ℚ} :
    (h.perform B (.delete key now)).dataset k =
      if k = key then (h.dataset k).apply B (.delete key now) else h.dataset k := by
  rcases hrecord : h.store.catalog.lookup key with _ | record
  · simp only [perform, DataStore.delete, hrecord]
    by_cases hk : k = key
    · subst hk
      simp [Dataset.apply, dataset, hrecord]
    · rw [if_neg hk]
  · simp only [perform, DataStore.delete, hrecord]
    have hblobs : ({ h.store with
        catalog := h.store.catalog.erase key
        blobs := h.store.dropChunks B key record
        completedUploads := h.store.completedUploads.erase key
        hashCache := h.store.hashCache.erase key } : DataStore).blobs =
          h.store.dropChunks B key record := rfl
    have hchunks := DataStore.chunks_dropChunks (k := k) hblobs
    by_cases hk : k = key
    · subst hk
      rw [if_pos rfl] at hchunks ⊢
      have hsome : (h.dataset k).record = some record := hrecord
      simp only [Dataset.apply, hsome]
      ext1 <;> simp [dataset, signalsIn]
      exact hchunks
    · rw [if_neg hk] at hchunks ⊢
      ext1 <;> simp [dataset, hk]
      exact hchunks

theorem dataset_storeChunk (hkeyed : h.store.WellKeyed) {index : ℤ} {data : List UInt8}
    {now : ℚ} :
    (h.perform B (.storeChunk key index data now)).dataset k =
      if k = key then (h.dataset k).apply B (.storeChunk key index data now)
      else h.dataset k := by
  rcases hrecord : h.store.catalog.lookup key with _ | record
  · simp only [perform, DataStore.storeChunk, hrecord]
    by_cases hk : k = key
    · subst hk
      simp [Dataset.apply, dataset, hrecord]
    · rw [if_neg hk]
  by_cases haccepts : Dataset.Accepts B record index data
  · simp only [perform, DataStore.storeChunk_of_accepts hrecord haccepts]
    have hindex : ((index.toNat : ℕ) : ℤ) = index := Int.toNat_of_nonneg haccepts.1
    have hblobs : (h.store.putChunk key record index data now).1.blobs =
        h.store.blobs.insert (chunkKey record.kind key index.toNat) data := by
      simp [DataStore.putChunk, hindex]
    have hchunks := DataStore.chunks_insert (k := k) hblobs
    by_cases hk : k = key
    · subst hk
      rw [if_pos rfl] at hchunks ⊢
      have hsome : (h.dataset k).record = some record := hrecord
      simp only [Dataset.apply, hsome, if_pos haccepts]
      have hfull : ({ h.store with
            blobs := h.store.blobs.insert (chunkKey record.kind k index) data }).isFullyPresent
              record = true ↔
          Dataset.Full record (Dataset.write (fun kind i => h.store.chunk kind k i) record.kind
            index.toNat data) := by
        have hput : ({ h.store with
            blobs := h.store.blobs.insert (chunkKey record.kind k index) data } :
              DataStore).blobs =
            h.store.blobs.insert (chunkKey record.kind k index.toNat) data := by rw [hindex]
        rw [DataStore.isFullyPresent_iff, hkeyed k record hrecord,
          DataStore.chunks_insert (k := k) hput, if_pos rfl]
      ext1
      · simp [dataset, DataStore.putChunk, Dataset.stored]
      · exact hchunks
      · simp [dataset, DataStore.putChunk, Dataset.stored]
      · simp [dataset, DataStore.putChunk, Dataset.stored, hfull]
        congr
      · simp [dataset, Dataset.stored]
      · simp [dataset, Dataset.stored]
      · simp [dataset, DataStore.putChunk, Dataset.stored, hfull]
    · rw [if_neg hk] at hchunks ⊢
      ext1
      case chunks => exact hchunks
      all_goals simp [dataset, DataStore.putChunk, hk]
  · obtain ⟨e, he⟩ := DataStore.storeChunk_refused now hrecord haccepts
    simp only [perform, he]
    by_cases hk : k = key
    · subst hk
      have hsome : (h.dataset k).record = some record := hrecord
      rw [if_pos rfl]
      simp only [Dataset.apply, hsome, if_neg haccepts]
    · rw [if_neg hk]

theorem dataset_status :
    (h.perform B (.status key)).dataset k = h.dataset k := by
  rcases hstatus : h.store.status B key with e | ⟨t, st⟩ <;> simp only [perform, hstatus]
  · obtain ⟨hcatalog, hblobs, hstreams, hcompleted⟩ := DataStore.status_ok hstatus
    simp only [dataset, DataStore.chunk, hcatalog, hblobs, hstreams, hcompleted]

theorem dataset_openStream {format kind : String} {chunkBytes : ℤ} :
    (h.perform B (.openStream key format kind chunkBytes)).dataset k =
      if k = key then (h.dataset k).apply B (.openStream key format kind chunkBytes)
      else h.dataset k := by
  by_cases hk : k = key
  · subst hk
    rw [if_pos rfl]
    ext1
    case completed => rfl
    all_goals
      simp [perform, dataset, DataStore.openStream, DataRegistry.openStream, Dataset.apply,
        DataStore.chunk]
  · rw [if_neg hk]
    ext1
    case completed => rfl
    all_goals
      simp [perform, dataset, DataStore.openStream, DataRegistry.openStream, DataStore.chunk, hk]

theorem dataset_appendChunk {data : List UInt8} :
    (h.perform B (.appendChunk key data)).dataset k =
      if k = key then (h.dataset k).apply B (.appendChunk key data) else h.dataset k := by
  rcases hstream : h.store.openStreams.lookup key with _ | stream
  · simp only [perform, DataStore.appendChunk, hstream]
    by_cases hk : k = key
    · subst hk
      simp [Dataset.apply, dataset, hstream]
    · rw [if_neg hk]
  by_cases hkind : stream.kind ∈ B.kinds
  · simp only [perform, DataStore.appendChunk, hstream, if_neg (not_not.2 hkind)]
    have hchunks (t : DataStore)
        (ht : t.blobs = h.store.blobs.insert (chunkKey stream.kind key stream.nextIndex) data) :=
      DataStore.chunks_insert (k := k) ht
    by_cases hk : k = key
    · subst hk
      rw [if_pos rfl]
      have hsome : (h.dataset k).stream = some stream := hstream
      simp only [Dataset.apply, hsome, if_pos hkind]
      ext1
      case chunks => exact (hchunks _ rfl).trans (if_pos rfl)
      all_goals simp [dataset, Dataset.streamedOn]
    · rw [if_neg hk]
      ext1
      case chunks => exact (hchunks _ rfl).trans (if_neg hk)
      all_goals simp [dataset, hk]
  · simp only [perform, DataStore.appendChunk, hstream, if_pos hkind]
    by_cases hk : k = key
    · subst hk
      have hsome : (h.dataset k).stream = some stream := hstream
      rw [if_pos rfl]
      simp only [Dataset.apply, hsome, if_neg hkind]
    · rw [if_neg hk]

theorem dataset_finalizeStream {now : ℚ} :
    (h.perform B (.finalizeStream key now)).dataset k =
      if k = key then (h.dataset k).apply B (.finalizeStream key now) else h.dataset k := by
  rcases hstream : h.store.openStreams.lookup key with _ | stream
  · simp only [perform, DataStore.finalizeStream, hstream]
    by_cases hk : k = key
    · subst hk
      simp [Dataset.apply, dataset, hstream]
    · rw [if_neg hk]
  · simp only [perform, DataStore.finalizeStream, hstream]
    by_cases hk : k = key
    · subst hk
      rw [if_pos rfl]
      have hsome : (h.dataset k).stream = some stream := hstream
      simp only [Dataset.apply, hsome]
      ext1 <;> simp [dataset, Dataset.replaced, DataStore.chunk]
    · rw [if_neg hk]
      ext1 <;> simp [dataset, DataStore.chunk, hk]

/-- A call acts on its own key as on the dataset, and on no other. -/
theorem dataset_perform (hkeyed : h.store.WellKeyed) :
    (h.perform B call).dataset k =
      if k = call.key then (h.dataset k).apply B call else h.dataset k := by
  cases call with
  | register => exact dataset_register
  | delete => exact dataset_delete
  | storeChunk => exact dataset_storeChunk hkeyed
  | status key => rw [dataset_status]; exact (ite_self _).symm
  | openStream => exact dataset_openStream
  | appendChunk => exact dataset_appendChunk
  | finalizeStream => exact dataset_finalizeStream

/-- The record after a call is the one before it, or one that is made for the key of the call. -/
theorem record_apply {d : Dataset} {record : DataRecord}
    (hrecord : (d.apply B call).record = some record) :
    d.record = some record ∨ record.key = call.key := by
  cases call with
  | register =>
    simp only [Dataset.apply] at hrecord
    split_ifs at hrecord
    · cases hrecord
      exact .inr rfl
    · exact .inl hrecord
  | delete =>
    rcases hold : d.record with _ | old <;> simp only [Dataset.apply, hold] at hrecord
    · exact .inl hrecord
    · cases hrecord
  | storeChunk =>
    rcases hold : d.record with _ | old <;> simp only [Dataset.apply, hold] at hrecord
    · exact .inl hrecord
    · split_ifs at hrecord
      · exact .inl (hold ▸ hrecord)
      · exact .inl (hold ▸ hrecord)
  | status => exact .inl hrecord
  | openStream => exact .inl hrecord
  | appendChunk =>
    rcases hstream : d.stream with _ | stream <;> simp only [Dataset.apply, hstream] at hrecord
    · exact .inl hrecord
    · split_ifs at hrecord
      · exact .inl hrecord
      · exact .inl hrecord
  | finalizeStream =>
    rcases hstream : d.stream with _ | stream <;> simp only [Dataset.apply, hstream] at hrecord
    · exact .inl hrecord
    · cases hrecord
      exact .inr rfl

theorem wellKeyed_perform (hkeyed : h.store.WellKeyed) :
    (h.perform B call).store.WellKeyed := by
  intro key record hrecord
  have hdataset : ((h.perform B call).dataset key).record = some record := hrecord
  rw [dataset_perform hkeyed] at hdataset
  split_ifs at hdataset with hkey
  · rcases record_apply hdataset with hold | hnew
    · exact hkeyed key record hold
    · rw [hnew, hkey]
  · exact hkeyed key record hdataset

theorem wellKeyed_init : ({} : DataHistory).store.WellKeyed := by
  intro key record hrecord
  cases hrecord

/-- The invariant rule: what holds of an empty dataset, and is kept by each call on a dataset that
meets the guard, holds of every dataset in every state reached. -/
theorem dataset_invariant {I : Dataset → Prop} {G : Dataset → DataCall → Prop} (h0 : I .empty)
    (hstep : ∀ d call, I d → G d call → I (d.apply B call))
    (hreach : Reach (step B) (fun h call => G (h.dataset call.key) call) {} h) :
    h.store.WellKeyed ∧ ∀ key, I (h.dataset key) := by
  refine Reach.invariant (I := fun h => h.store.WellKeyed ∧ ∀ key, I (h.dataset key))
    ⟨wellKeyed_init, fun _ => h0⟩ ?_ hreach
  rintro h call t ⟨hkeyed, hI⟩ hguard hperform
  obtain rfl := Option.some.inj hperform
  refine ⟨wellKeyed_perform hkeyed, fun key => ?_⟩
  rw [dataset_perform hkeyed]
  split_ifs with hkey
  · subst hkey
    exact hstep _ _ (hI _) hguard
  · exact hI key

end DataHistory

end Axo
