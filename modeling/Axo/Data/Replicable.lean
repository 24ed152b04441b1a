import Axo.Data.FileBlobs

/-!
# Chunk by chunk

Whether the chunks of a complete dataset are those that its record makes a follower expect.

* `Dataset.Cut` is the invariant: the record counts the chunks of its size, and each chunk that is
  there has the length that is expected of it;
* `Dataset.CutGuard` is what a call needs to keep it: that a stream is finalized with chunks of
  `chunk_bytes` bytes, and that nothing of another length lies, or is put, where a record has its
  chunks;
* `replicable_of_reach` is the result for whole runs.
-/

namespace Axo

open Transition

namespace Dataset

variable (B : DataBackends)

/-- The length of each chunk that is there is the expected one. -/
def CutAt (totalSize chunkBytes totalChunks : ℤ) (chunks : Chunks) : Prop :=
  ∀ i ∈ chunkRange totalChunks, ∀ data ∈ chunks i,
    (data.length : ℤ) = expectedChunkLen totalSize chunkBytes i

instance (totalSize chunkBytes totalChunks : ℤ) (chunks : Chunks) :
    Decidable (CutAt totalSize chunkBytes totalChunks chunks) := by
  unfold CutAt
  infer_instance

/-- The chunks of a record are those of its size. -/
structure CutRecord (record : DataRecord) (chunks : String → Chunks) : Prop where
  divides : ¬ (0 < record.totalSize ∧ record.chunkBytes = 0)
  counted : record.totalChunks = DataRegistry.totalChunksFor record.totalSize record.chunkBytes
  lengths : CutAt record.totalSize record.chunkBytes record.totalChunks (chunks record.kind)

/-- The invariant. -/
def Cut (d : Dataset) : Prop :=
  ∀ record, d.record = some record → CutRecord record d.chunks

/-- What a call needs so that the chunks of each record are those of its size. -/
def CutGuard (d : Dataset) : DataCall → Prop
  | .register _ _ kind totalSize chunkBytes _ _ _ =>
    Registers B kind totalSize chunkBytes →
      CutAt totalSize chunkBytes (DataRegistry.totalChunksFor totalSize chunkBytes)
        (d.chunks kind)
  | .appendChunk _ data =>
    ∀ stream ∈ d.stream, ∀ record ∈ d.record, record.kind = stream.kind →
      (stream.nextIndex : ℤ) < record.totalChunks →
        (data.length : ℤ) =
          expectedChunkLen record.totalSize record.chunkBytes stream.nextIndex
  | .finalizeStream _ _ =>
    ∀ stream ∈ d.stream, ¬ (0 < stream.totalSize ∧ stream.chunkBytes = 0) ∧
      (stream.nextIndex : ℤ) = DataRegistry.totalChunksFor stream.totalSize stream.chunkBytes ∧
      CutAt stream.totalSize stream.chunkBytes stream.nextIndex (d.chunks stream.kind)
  | .storeChunk .. | .delete .. | .status _ | .openStream .. => True

instance (d : Dataset) : (call : DataCall) → Decidable (d.CutGuard B call)
  | .register _ _ kind totalSize chunkBytes _ _ _ =>
    inferInstanceAs (Decidable (Registers B kind totalSize chunkBytes →
      CutAt totalSize chunkBytes (DataRegistry.totalChunksFor totalSize chunkBytes)
        (d.chunks kind)))
  | .appendChunk _ data =>
    inferInstanceAs (Decidable (∀ stream ∈ d.stream, ∀ record ∈ d.record,
      record.kind = stream.kind → (stream.nextIndex : ℤ) < record.totalChunks →
        (data.length : ℤ) =
          expectedChunkLen record.totalSize record.chunkBytes stream.nextIndex))
  | .finalizeStream _ _ =>
    inferInstanceAs (Decidable (∀ stream ∈ d.stream,
      ¬ (0 < stream.totalSize ∧ stream.chunkBytes = 0) ∧
      (stream.nextIndex : ℤ) = DataRegistry.totalChunksFor stream.totalSize stream.chunkBytes ∧
      CutAt stream.totalSize stream.chunkBytes stream.nextIndex (d.chunks stream.kind)))
  | .storeChunk .. | .delete .. | .status _ | .openStream .. => inferInstanceAs (Decidable True)

variable {B} {d : Dataset} {record : DataRecord}

/-- Writing a chunk of the expected length. -/
theorem CutAt.write {totalSize chunkBytes totalChunks : ℤ} {chunks : String → Chunks}
    {kind kind' : String} {index : ℕ} {data : List UInt8}
    (h : CutAt totalSize chunkBytes totalChunks (chunks kind))
    (hdata : kind = kind' → (index : ℤ) < totalChunks →
      (data.length : ℤ) = expectedChunkLen totalSize chunkBytes index) :
    CutAt totalSize chunkBytes totalChunks (Dataset.write chunks kind' index data kind) := by
  intro i hi data' hdata'
  unfold Dataset.write at hdata'
  by_cases hkind : kind = kind'
  · subst hkind
    rw [Function.update_self] at hdata'
    by_cases hi' : i = index
    · subst hi'
      rw [Function.update_self] at hdata'
      cases hdata'
      exact hdata rfl (mem_chunkRange.1 hi)
    · rw [Function.update_of_ne hi'] at hdata'
      exact h i hi data' hdata'
  · rw [Function.update_of_ne hkind] at hdata'
    exact h i hi data' hdata'

theorem cut_empty : empty.Cut := by
  intro record hrecord
  cases hrecord

/-- A call that meets the guard keeps the invariant. -/
theorem cut_apply (h : d.Cut) {call : DataCall} (hguard : d.CutGuard B call) :
    (d.apply B call).Cut := by
  cases call with
  | register key format kind totalSize chunkBytes =>
    simp only [apply]
    split_ifs with hregisters
    · intro record hrecord
      cases hrecord
      exact ⟨hregisters.2, rfl, hguard hregisters⟩
    · exact h
  | delete =>
    rcases hrecord : d.record with _ | record <;> simp only [apply, hrecord]
    · exact h
    · intro _ hnone
      cases hnone
  | storeChunk key index data =>
    rcases hrecord : d.record with _ | record <;> simp only [apply, hrecord]
    · exact h
    split_ifs with haccepts
    · intro record' hrecord'
      obtain rfl : record = record' := Option.some.inj (hrecord.symm.trans hrecord')
      obtain ⟨hdivides, hcounted, hlengths⟩ := h record hrecord
      refine ⟨hdivides, hcounted, hlengths.write fun _ _ => ?_⟩
      rw [Int.toNat_of_nonneg haccepts.1]
      exact haccepts.2.2.2.1
    · exact h
  | status => exact h
  | openStream => exact h
  | appendChunk key data =>
    rcases hstream : d.stream with _ | stream <;> simp only [apply, hstream]
    · exact h
    split_ifs with hkind
    · intro record hrecord
      obtain ⟨hdivides, hcounted, hlengths⟩ := h record hrecord
      exact ⟨hdivides, hcounted, hlengths.write (hguard stream hstream record hrecord)⟩
    · exact h
  | finalizeStream =>
    rcases hstream : d.stream with _ | stream <;> simp only [apply, hstream]
    · exact h
    · intro record hrecord
      obtain ⟨hdivides, hcounted, hlengths⟩ := hguard stream hstream
      cases hrecord
      refine ⟨fun hzero => hdivides ⟨Int.natCast_pos.1 hzero.1, hzero.2⟩, hcounted, hlengths⟩

end Dataset

namespace DataHistory

variable {B : DataBackends} {h : DataHistory}

/-- The guard on the dataset that the call is about. -/
def CutGuard (B : DataBackends) (h : DataHistory) (call : DataCall) : Prop :=
  (h.dataset call.key).CutGuard B call

/-- In a run whose calls meet the guard, the chunks of each record are those of its size. -/
theorem cut_of_reach (hreach : Reach (step B) (CutGuard B) {} h) (key : RecordKey) :
    (h.dataset key).Cut :=
  (dataset_invariant Dataset.cut_empty
    (fun _ _ hcut hguard => Dataset.cut_apply hcut hguard) hreach).2 key

end DataHistory

/-! ### Over a file system -/

namespace FileStore

variable (B : DataBackends) (K : StorageKeys)

/-- A complete record counts the chunks of its size, each chunk has the length that is expected,
and a follower with the same record, whose files are those of datasets that share none, accepts
every chunk that the leader reads. -/
def Replicable (f : FileStore) : Prop :=
  ∀ key record, f.registry.catalog.lookup key = some record → f.CompleteHere B record →
    ¬ (0 < record.totalSize ∧ record.chunkBytes = 0) ∧
    record.totalChunks = DataRegistry.totalChunksFor record.totalSize record.chunkBytes ∧
    ∀ i ∈ chunkRange record.totalChunks, ∀ data, f.readChunk B key i = .ok data →
      (data.length : ℤ) = expectedChunkLen record.totalSize record.chunkBytes i ∧
      ∀ (K' : StorageKeys) (blobs : Dict BlobKey (List UInt8)) (follower : FileStore) (now : ℚ),
        key ∈ K'.keys → K'.Holds follower.files blobs →
        follower.registry.catalog.lookup key = some record →
          ∃ result, follower.storeChunk B key i data now = .ok result

/-- A call is about one of the datasets, and meets the guard on that dataset. -/
def CutGuard (f : FileStore) : DataCall → Prop
  | .status _ => True
  | call => call.key ∈ K.keys ∧ (f.dataset call.key).CutGuard B call

instance [DecidablePred (· ∈ K.keys)] (f : FileStore) (call : DataCall) :
    Decidable (f.CutGuard B K call) :=
  match call with
  | .status _ => isTrue trivial
  | .register .. | .delete .. | .storeChunk .. | .openStream .. | .appendChunk .. |
    .finalizeStream .. => inferInstanceAs (Decidable (_ ∧ _))

variable {B K} {f : FileStore} {h : DataHistory} {call : DataCall}

/-- The guard over the files is that over the blobs. -/
theorem Represents.cutGuard (hrep : Represents K f h.store) (hguard : f.CutGuard B K call) :
    K.Covers call ∧ h.CutGuard B call := by
  have hguard' (hkey : call.key ∈ K.keys) (hcut : (f.dataset call.key).CutGuard B call) :
      h.CutGuard B call := by
    unfold dataset at hcut
    rw [hrep.chunks hkey, ← hrep.catalog, ← hrep.openStreams] at hcut
    cases call <;> exact hcut
  cases call with
  | status key => exact ⟨trivial, trivial⟩
  | register | delete | storeChunk | openStream | appendChunk | finalizeStream =>
    exact ⟨hguard.1, hguard' hguard.1 hguard.2⟩

/-- A chunk that the record makes expect is accepted. -/
theorem exists_storeChunk {K' : StorageKeys} {blobs : Dict BlobKey (List UInt8)} {key : RecordKey}
    {record : DataRecord} {i : ℕ} {data : List UInt8} (now : ℚ) (hkey : key ∈ K'.keys)
    (hholds : K'.Holds f.files blobs) (hrecord : f.registry.catalog.lookup key = some record)
    (haccepts : Dataset.Accepts B record i data) :
    ∃ result, f.storeChunk B key i data now = .ok result := by
  obtain ⟨files, hput, -⟩ := hholds.put hkey record.kind i data
  obtain ⟨t, events, hstore, -⟩ := storeChunk_of_put now hrecord haccepts hput
  exact ⟨_, hstore⟩

theorem Represents.replicable (hrep : Represents K f h.store)
    (hcut : ∀ key, (h.dataset key).Cut) : f.Replicable B := by
  intro key record hrecord _
  have hheld : h.store.catalog.lookup key = some record := by rw [hrep.catalog, hrecord]
  obtain ⟨hdivides, hcounted, hlengths⟩ := hcut key record hheld
  refine ⟨hdivides, hcounted, fun i hi data hread => ?_⟩
  rw [hrep.readChunk key i, DataStore.readChunk, hheld] at hread
  dsimp only at hread
  by_cases hkind : record.kind ∈ B.kinds
  swap
  · rw [if_pos hkind] at hread
    cases hread
  rw [if_neg (not_not.2 hkind)] at hread
  have hchunk : h.store.chunk record.kind key i = some data := by
    cases hlookup : h.store.chunk record.kind key i with
    | none =>
      rw [hlookup] at hread
      cases hread
    | some data' =>
      rw [hlookup] at hread
      exact congrArg some (Except.ok.inj hread)
  have hlength := hlengths i hi data hchunk
  refine ⟨hlength, fun K' blobs follower now hkey hholds hrecord' => ?_⟩
  exact exists_storeChunk now hkey hholds hrecord'
    ⟨Int.natCast_nonneg i, mem_chunkRange.1 hi, hdivides, hlength, hkind⟩

/-- In a run whose calls meet the guard, every complete dataset can be replicated chunk by chunk in
every state reached. -/
theorem replicable_of_reach {mkstemp : String → String}
    (hreach : Reach (step B) (CutGuard B K) (init K.root mkstemp) f) : f.Replicable B := by
  obtain ⟨h, hreach, hrep⟩ := Represents.exists_of_reach
    (fun _ _ _ hrep hguard => hrep.cutGuard hguard) hreach
  exact hrep.replicable (DataHistory.cut_of_reach hreach)

open DataHistory (plainBackends plainKey plainRegister)

/-- A stream of two chunks of the right lengths, after an upload that another registration, with
chunks of the same lengths, has taken the place of. -/
theorem replicable_stream : ∃ f,
    Reach (step plainBackends) (CutGuard plainBackends (.plain ["srv"])) (init ["srv"] id) f ∧
    f.Replicable plainBackends ∧ (f.registry.catalog.lookup plainKey).isSome = true := by
  obtain ⟨f, hreach, htest⟩ := exists_reach_of_guarded_run (step plainBackends)
    (CutGuard plainBackends (.plain ["srv"])) (init ["srv"] id)
    (fun f => (f.registry.catalog.lookup plainKey).isSome)
    [plainRegister 3, .storeChunk plainKey 0 [1, 2] 0, plainRegister 3,
      .storeChunk plainKey 1 [3] 0, .openStream plainKey "raw" "fs" 2,
      .appendChunk plainKey [7, 8], .appendChunk plainKey [9], .finalizeStream plainKey 2]
    (by decide +kernel)
  exact ⟨f, hreach, replicable_of_reach hreach, htest⟩

/-- A stream with a chunk that is longer than `chunk_bytes`: its record counts one chunk, and its
size makes two. -/
theorem irreplicable_longChunk : ∃ f, Reach (step plainBackends) Always (init ["srv"] id) f ∧
    ¬ f.Replicable plainBackends := by
  obtain ⟨f, hreach, htest⟩ := exists_reach_of_run (step plainBackends) (init ["srv"] id)
    (fun f => (f.registry.catalog.lookup plainKey).any fun record =>
      decide (f.CompleteHere plainBackends record) &&
      decide (record.totalChunks ≠
        DataRegistry.totalChunksFor record.totalSize record.chunkBytes))
    [.openStream plainKey "raw" "fs" 2, .appendChunk plainKey [7, 8, 9],
      .finalizeStream plainKey 2]
    (by decide +kernel)
  refine ⟨f, hreach, fun hreplicable => ?_⟩
  rcases hrecord : f.registry.catalog.lookup plainKey with _ | record
  · simp [hrecord] at htest
  · simp only [hrecord, Option.any_some, Bool.and_eq_true, decide_eq_true_eq] at htest
    exact htest.2 (hreplicable plainKey record hrecord htest.1).2.1

end FileStore

end Axo
