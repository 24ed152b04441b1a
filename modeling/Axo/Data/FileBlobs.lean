import Axo.Data.FileStatus

/-!
# Files as blobs

When the datasets have chunk files of their own, a registry over a file system does what a registry
over blobs does.

* `StorageKeys` are names and versions whose chunks lie below the root and share no path;
* `Represents` connects a registry over a file system with one over blobs: the catalog and the rest
  are the same, and the chunk files are the blobs;
* each operation keeps it and has the same result (`Represents.storeChunk` and its neighbours), whatever
  the operation is called with, as long as it is about one of these datasets;
* `DatasetNames` are names that are so below every root;
* `Represents.exists_of_reach` carries a whole run over.
-/

namespace Axo

open Transition

/-- Datasets whose chunks are files of their own below the root. -/
structure StorageKeys where
  root : List String
  keys : Set RecordKey
  placed : ∀ key ∈ keys, FileStore.BelowRoot root key 0
  separate : ∀ X ∈ keys, ∀ Y ∈ keys, X ≠ Y → FileStore.Separate root X Y

namespace StorageKeys

/-- The call is about one of the datasets, or only asks for a status. -/
def Covers (K : StorageKeys) : DataCall → Prop
  | .status _ => True
  | call => call.key ∈ K.keys

variable {K : StorageKeys} {key key' : RecordKey} {i j : ℕ} {data : List UInt8}
  {files : FilesystemStorageBackend} {blobs : Dict BlobKey (List UInt8)}

/-- No chunk file lies at or above another one. -/
theorem eq_of_above (hkey : key ∈ K.keys) (hkey' : key' ∈ K.keys)
    (h : chunkDir K.root key ++ [chunkFile i] <+: chunkDir K.root key' ++ [chunkFile j]) :
    key = key' ∧ i = j := by
  by_cases hne : key = key'
  · subst hne
    exact ⟨rfl, FileStore.eq_of_prefix_chunk h⟩
  · exact absurd h (K.separate key hkey key' hkey' hne i j ((K.placed key hkey).all i)
      ((K.placed key' hkey').all j)).2

/-- The files are those of the blobs: each chunk that there is, in its place. -/
structure Holds (K : StorageKeys) (files : FilesystemStorageBackend)
    (blobs : Dict BlobKey (List UInt8)) : Prop where
  root : files.root = K.root
  chunk : ∀ key ∈ K.keys, ∀ i : ℕ, files.tree.node (chunkDir K.root key ++ [chunkFile i]) =
    (blobs.lookup (chunkKey "fs" key i)).map FileNode.file
  files : ∀ p, files.tree.isFile p = true →
    ∃ key ∈ K.keys, ∃ i : ℕ, p = chunkDir K.root key ++ [chunkFile i]
  kind : ∀ blob ∈ blobs, blob.kind = "fs"

namespace Holds

theorem empty (K : StorageKeys) (mkstemp : String → String) :
    K.Holds (.empty K.root mkstemp) ∅ where
  root := rfl
  chunk key hkey i := FileStore.node_empty ((K.placed key hkey).all i)
  files p hp := by
    rw [FileStore.isFile_empty p] at hp
    cases hp
  kind _ hblob := absurd hblob (AList.notMem_empty _)

theorem resolve (h : K.Holds files blobs) (hkey : key ∈ K.keys) (kind : String) (i : ℕ) :
    files.resolve (chunkKey kind key i).path = .ok (chunkDir K.root key ++ [chunkFile i]) := by
  have hplaced := (K.placed key hkey).all i
  rw [← h.root] at hplaced ⊢
  exact FileStore.resolve_of_placed hplaced

/-- Above a chunk there is no file. -/
theorem isFile_above (h : K.Holds files blobs) (hkey : key ∈ K.keys) {q : List String}
    (hq : q <+: chunkDir K.root key ++ [chunkFile i])
    (hne : q ≠ chunkDir K.root key ++ [chunkFile i]) : files.tree.isFile q = false := by
  by_contra hfile
  obtain ⟨key', hkey', j, rfl⟩ := h.files q (by simpa using hfile)
  obtain ⟨rfl, rfl⟩ := eq_of_above hkey' hkey hq
  exact hne rfl

theorem get (h : K.Holds files blobs) (hkey : key ∈ K.keys) (kind : String) (i : ℕ) :
    files.get (chunkKey kind key i).path = .ok (blobs.lookup (chunkKey "fs" key i)) := by
  have hchunk := h.chunk key hkey i
  unfold FilesystemStorageBackend.get
  rw [h.resolve hkey kind i]
  dsimp only
  unfold FileTree.read
  rw [hchunk]
  cases hblob : blobs.lookup (chunkKey "fs" key i) with
  | some data => rfl
  | none =>
    rw [hblob] at hchunk
    have hnone : (chunkDir K.root key ++ [chunkFile i]).inits.any files.tree.isFile = false := by
      rw [List.any_eq_false]
      intro q hq
      rw [Bool.not_eq_true]
      by_cases hne : q = chunkDir K.root key ++ [chunkFile i]
      · subst hne
        rw [FileTree.isFile, hchunk]
        rfl
      · exact h.isFile_above hkey ((List.mem_inits _ _).1 hq) hne
    dsimp only [Option.map_none]
    rw [hnone]
    rfl

theorem existsAt (h : K.Holds files blobs) (hkey : key ∈ K.keys) (kind : String) (i : ℕ) :
    files.existsAt (chunkKey kind key i).path =
      .ok (blobs.lookup (chunkKey "fs" key i)).isSome := by
  unfold FilesystemStorageBackend.existsAt
  rw [h.resolve hkey kind i]
  dsimp only
  rw [FileTree.isFile, h.chunk key hkey i]
  cases blobs.lookup (chunkKey "fs" key i) <;> rfl

/-- A chunk can always be written. -/
theorem put (h : K.Holds files blobs) (hkey : key ∈ K.keys) (kind : String) (i : ℕ)
    (data : List UInt8) :
    ∃ files', files.put (chunkKey kind key i).path data = .ok files' ∧
      K.Holds files' (blobs.insert (chunkKey "fs" key i) data) := by
  have hdir : files.tree.node (chunkDir K.root key ++ [chunkFile i]) ≠ some .dir := by
    rw [h.chunk key hkey i]
    cases blobs.lookup (chunkKey "fs" key i) <;> nofun
  obtain ⟨tree, hwrite⟩ := FileTree.exists_write
    (fun q hq hne => h.isFile_above hkey hq hne) hdir (by simp) data
  obtain ⟨files', hput, rfl, hroot⟩ :=
    FilesystemStorageBackend.put_of_write (h.resolve hkey kind i) hwrite
  obtain ⟨hnode, -, -⟩ := FileTree.write_ok hwrite
  refine ⟨files', hput, hroot.trans h.root, fun key' hkey' j => ?_, fun p hp => ?_,
    fun blob hblob => ?_⟩
  · rw [hnode, DataStore.lookup_insert_chunk]
    by_cases hsame : key' = key ∧ j = i
    · obtain ⟨rfl, rfl⟩ := hsame
      rw [if_pos rfl, if_pos ⟨rfl, rfl, rfl⟩]
      rfl
    · have hpre : ¬ chunkDir K.root key' ++ [chunkFile j] <+:
          chunkDir K.root key ++ [chunkFile i] := fun hpre =>
        hsame (eq_of_above hkey' hkey hpre)
      have hne : chunkDir K.root key' ++ [chunkFile j] ≠ chunkDir K.root key ++ [chunkFile i] :=
        fun heq => hpre (heq ▸ List.prefix_refl _)
      rw [if_neg hne, if_neg hpre, if_neg fun heq => hsame heq.2, h.chunk key' hkey' j]
  · by_cases hpath : p = chunkDir K.root key ++ [chunkFile i]
    · exact ⟨key, hkey, i, hpath⟩
    · rw [FileTree.isFile, hnode p, if_neg hpath] at hp
      by_cases hpre : p <+: chunkDir K.root key ++ [chunkFile i]
      · rw [if_pos hpre] at hp
        cases hp
      · rw [if_neg hpre] at hp
        exact h.files p hp
  · rcases (AList.mem_insert _).1 hblob with rfl | hold
    · rfl
    · exact h.kind blob hold

/-- A chunk can always be deleted. -/
theorem delete (h : K.Holds files blobs) (hkey : key ∈ K.keys) (kind : String) (i : ℕ) :
    ∃ files', files.delete (chunkKey kind key i).path = .ok files' ∧
      K.Holds files' (blobs.erase (chunkKey "fs" key i)) := by
  unfold FilesystemStorageBackend.delete
  rw [h.resolve hkey kind i]
  refine ⟨_, rfl, h.root, fun key' hkey' j => ?_, fun p hp => ?_,
    fun blob hblob => h.kind blob (AList.mem_erase.1 hblob).2⟩
  · by_cases hsame : key' = key ∧ j = i
    · obtain ⟨rfl, rfl⟩ := hsame
      rw [AList.lookup_erase]
      show (if _ then _ else _) = _
      have hchunk := h.chunk key' hkey' j
      split_ifs with hfile
      · rfl
      · rw [hchunk]
        cases hblob : blobs.lookup (chunkKey "fs" key' j) with
        | none => rfl
        | some data =>
          rw [hblob] at hchunk
          rw [FileTree.isFile, hchunk] at hfile
          exact absurd ⟨rfl, rfl⟩ hfile
    · have hne : chunkDir K.root key' ++ [chunkFile j] ≠ chunkDir K.root key ++ [chunkFile i] :=
        fun heq => hsame (eq_of_above hkey' hkey (heq ▸ List.prefix_refl _))
      rw [AList.lookup_erase_ne fun heq => hsame (chunkKey_inj.1 heq).2, ← h.chunk key' hkey' j]
      exact if_neg fun heq => hne heq.1
  · refine h.files p ?_
    unfold FileTree.isFile FileTree.remove at hp
    dsimp only at hp
    split_ifs at hp with hremoved
    exact hp

/-- The loop of `delete`. -/
theorem deleteChunks (h : K.Holds files blobs) (hkey : key ∈ K.keys) (record : DataRecord)
    (indices : List ℕ) :
    ∃ files', FileStore.deleteChunks files key record indices = .ok files' ∧
      K.Holds files' (Dict.eraseAll blobs (indices.map fun i : ℕ => chunkKey "fs" key i)) := by
  induction indices generalizing files blobs with
  | nil => exact ⟨files, rfl, h⟩
  | cons i indices ih =>
    obtain ⟨files₁, hdelete, hholds⟩ := h.delete hkey record.kind i
    obtain ⟨files', hrest, hholds'⟩ := ih hholds
    refine ⟨files', ?_, hholds'⟩
    rw [FileStore.deleteChunks, FileStore.chunkPath, hdelete]
    exact hrest

end Holds

end StorageKeys

/-! ### The registries -/

/-- The only kind that a backend can have. -/
theorem DataBackends.eq_fs {B : DataBackends} {kind : String} (h : kind ∈ B.kinds) :
    kind = "fs" :=
  List.mem_singleton.1 (B.keyed kind h)

/-- The registry with other blobs. -/
def DataStore.withBlobs (s : DataStore) (blobs : Dict BlobKey (List UInt8)) : DataStore :=
  { s with blobs := blobs }

section WithBlobs

variable (s : DataStore) (blobs : Dict BlobKey (List UInt8)) (key : RecordKey) (now : ℚ)

theorem DataStore.completeUpload_withBlobs :
    (s.withBlobs blobs).completeUpload key now =
      ((s.completeUpload key now).1.withBlobs blobs, (s.completeUpload key now).2) := by
  unfold completeUpload withBlobs
  split_ifs <;> rfl

theorem DataStore.completeIf_withBlobs (full : Bool) :
    (s.withBlobs blobs).completeIf full key now =
      ((s.completeIf full key now).1.withBlobs blobs, (s.completeIf full key now).2) := by
  cases full
  · rfl
  · exact s.completeUpload_withBlobs blobs key now

theorem DataStore.putRecord_withBlobs (record : DataRecord) :
    (s.withBlobs blobs).putRecord key record now =
      ((s.putRecord key record now).1.withBlobs blobs, (s.putRecord key record now).2) := by
  unfold DataStore.putRecord
  have hcomplete := completeIf_withBlobs { s with catalog := s.catalog.insert key record } blobs
    key now (record.totalChunks = 0)
  exact congrArg (fun r : DataStore × List DataEvent => (r.1, registeredEvent record now :: r.2))
    hcomplete

theorem DataStore.finalizeStream_withBlobs (B : DataBackends) :
    (s.withBlobs blobs).finalizeStream B key now =
      (s.finalizeStream B key now).map fun r => (r.1.withBlobs blobs, r.2) := by
  have hopen : (s.withBlobs blobs).openStreams = s.openStreams := rfl
  unfold finalizeStream
  rw [hopen]
  cases s.openStreams.lookup key with
  | none => rfl
  | some stream =>
    dsimp only
    have hcomplete := completeUpload_withBlobs { s with
      openStreams := s.openStreams.erase key
      catalog := s.catalog.insert key (streamRecord B key stream now) } blobs key now
    exact congrArg (fun r : DataStore × List DataEvent => Except.ok (r.1,
      registeredEvent (streamRecord B key stream now) now :: r.2, streamRecord B key stream now))
      hcomplete

end WithBlobs

namespace FileStore

variable {K : StorageKeys} {B : DataBackends} {f g : FileStore} {s t : DataStore}
  {key : RecordKey} {record : DataRecord}

/-- The registry over the file system, with its chunk files taken as blobs. -/
structure Represents (K : StorageKeys) (f : FileStore) (s : DataStore) : Prop where
  registry : f.registry.withBlobs s.blobs = s
  holds : K.Holds f.files s.blobs
  within : ∀ key record, s.catalog.lookup key = some record → key ∈ K.keys ∧ record.key = key

/-- The same result, and stores that belong together. -/
inductive SameResult (K : StorageKeys) {α : Type} :
    Except DataFailure (FileStore × α) → Except DataFailure (DataStore × α) → Prop
  | error (e : DataFailure) : SameResult K (.error e) (.error e)
  | ok {f : FileStore} {s : DataStore} (h : Represents K f s) (a : α) :
    SameResult K (.ok (f, a)) (.ok (s, a))

theorem SameResult.exists_of_ok {α : Type} {x : Except DataFailure (FileStore × α)}
    {y : Except DataFailure (DataStore × α)} {a : α} (h : SameResult K x y)
    (hx : x = .ok (f, a)) : ∃ s, y = .ok (s, a) ∧ Represents K f s := by
  cases h with
  | error e => cases hx
  | ok h a =>
    cases hx
    exact ⟨_, rfl, h⟩

namespace Represents

theorem init (K : StorageKeys) (mkstemp : String → String) :
    Represents K (init K.root mkstemp) {} where
  registry := rfl
  holds := .empty K mkstemp
  within key record hrecord := by cases hrecord

theorem catalog (h : Represents K f s) : s.catalog = f.registry.catalog := by
  rw [← h.registry]
  rfl

theorem openStreams (h : Represents K f s) : s.openStreams = f.registry.openStreams := by
  rw [← h.registry]
  rfl

theorem hashCache (h : Represents K f s) : s.hashCache = f.registry.hashCache := by
  rw [← h.registry]
  rfl

/-- The chunk under a key. -/
theorem get (h : Represents K f s) (hkey : key ∈ K.keys) (hkind : record.kind ∈ B.kinds)
    (i : ℕ) : f.files.get (chunkPath record key i) = .ok (s.chunk record.kind key i) := by
  rw [chunkPath, h.holds.get hkey, DataStore.chunk, B.eq_fs hkind]

theorem existsAt (h : Represents K f s) (hkey : key ∈ K.keys) (hkind : record.kind ∈ B.kinds)
    (i : ℕ) :
    f.files.existsAt (chunkPath record key i) = .ok (s.chunk record.kind key i).isSome := by
  rw [chunkPath, h.holds.existsAt hkey, DataStore.chunk, B.eq_fs hkind]

/-! ### Reading -/

theorem readChunk (h : Represents K f s) (key : RecordKey) (i : ℕ) :
    f.readChunk B key i = s.readChunk B key i := by
  unfold FileStore.readChunk DataStore.readChunk
  rw [h.catalog]
  cases hrecord : f.registry.catalog.lookup key with
  | none => rfl
  | some record =>
    obtain ⟨hkey, -⟩ := h.within key record (h.catalog ▸ hrecord)
    dsimp only
    split_ifs with hkind
    · rw [h.get hkey hkind]
      cases s.chunk record.kind key i <;> rfl
    · rfl

theorem readWhole (h : Represents K f s) (key : RecordKey) :
    f.readWhole B key = s.readWhole B key := by
  unfold FileStore.readWhole DataStore.readWhole
  rw [h.catalog]
  cases f.registry.catalog.lookup key with
  | none => rfl
  | some record => simp only [h.readChunk]

/-! ### Status -/

theorem present (h : Represents K f s) (hkey : key ∈ K.keys) (record : DataRecord) :
    f.present B key record = .ok (s.present B key record) := by
  unfold FileStore.present DataStore.present
  split_ifs with hkind
  · refine filterM_ok fun i _ => ?_
    rw [h.existsAt hkey hkind]
    rfl
  · rfl

theorem computeHash (h : Represents K f s) (hkey : record.key ∈ K.keys) :
    f.computeHash B record = s.computeHash B record := by
  unfold FileStore.computeHash DataStore.computeHash
  cases B.newHash record.contentHashAlgo with
  | none => rfl
  | some hash =>
    dsimp only
    split_ifs with hkind
    · have hchunks : ((chunkRange record.totalChunks).mapM fun i : ℕ =>
          okOr none (f.files.get (chunkPath record record.key i))) =
            .ok ((chunkRange record.totalChunks).map fun i : ℕ =>
              s.chunk record.kind record.key i) := by
        refine DataStore.mapM_ok fun i _ => ?_
        rw [h.get hkey hkind]
        rfl
      rw [hchunks, Except.map, List.flatMap_map]
    · rfl

theorem verifyHash (h : Represents K f s) (hkey : key ∈ K.keys) (hname : record.key = key) :
    SameResult K (f.verifyHash B key record) (s.verifyHash B key record) := by
  unfold FileStore.verifyHash DataStore.verifyHash
  rw [h.hashCache, h.computeHash (hname ▸ hkey)]
  cases f.registry.hashCache.lookup key with
  | some e => exact .ok h e
  | none =>
    cases s.computeHash B record with
    | error e => exact .error e
    | ok computed =>
      refine SameResult.ok (f := { f with registry := { f.registry with
          hashCache := f.registry.hashCache.insert key (computed, _) } })
        (s := { s with hashCache := f.registry.hashCache.insert key (computed, _) })
        ⟨?_, h.holds, h.within⟩ (computed, decide (record.declaredHash = some computed))
      rw [← h.registry]
      rfl

theorem status (h : Represents K f s) (key : RecordKey) :
    SameResult K (f.status B key) (s.status B key) := by
  unfold FileStore.status DataStore.status
  rw [h.catalog]
  cases hrecord : f.registry.catalog.lookup key with
  | none => exact .ok h _
  | some record =>
    obtain ⟨hkey, hname⟩ := h.within key record (h.catalog ▸ hrecord)
    dsimp only
    rw [h.present hkey record]
    have hbase : FileStore.baseStatus key record (s.present B key record) =
        s.baseStatus B key record := rfl
    dsimp only
    rw [hbase]
    by_cases hcomplete : (s.baseStatus B key record).complete = true
    · rw [if_pos hcomplete, if_pos hcomplete]
      have hsame := h.verifyHash (B := B) hkey hname
      generalize f.verifyHash B key record = x at hsame ⊢
      generalize s.verifyHash B key record = y at hsame ⊢
      cases hsame with
      | error e => exact .error e
      | ok h e => exact .ok h _
    · rw [if_neg hcomplete, if_neg hcomplete]
      exact .ok h _

/-! ### Writing -/

/-- The registry after a change that leaves the files alone. -/
theorem of_registry (h : Represents K f s) {registry : DataStore} (hcatalog : ∀ key record,
      registry.catalog.lookup key = some record → key ∈ K.keys ∧ record.key = key) :
    Represents K { f with registry := registry } (registry.withBlobs s.blobs) where
  registry := rfl
  holds := h.holds
  within := hcatalog

theorem within_insert (h : Represents K f s) (hkey : key ∈ K.keys) (hname : record.key = key)
    {k : RecordKey} {other : DataRecord}
    (hlookup : (f.registry.catalog.insert key record).lookup k = some other) :
    k ∈ K.keys ∧ other.key = k := by
  by_cases hk : k = key
  · subst hk
    rw [AList.lookup_insert] at hlookup
    cases hlookup
    exact ⟨hkey, hname⟩
  · rw [AList.lookup_insert_ne hk] at hlookup
    exact h.within k other (h.catalog ▸ hlookup)

/-- A chunk of the dataset is stored. -/
theorem storeChunk (h : Represents K f s) (hkey : key ∈ K.keys) (index : ℤ) (data : List UInt8)
    (now : ℚ) :
    SameResult K (f.storeChunk B key index data now) (s.storeChunk B key index data now) := by
  unfold FileStore.storeChunk DataStore.storeChunk
  rw [h.catalog]
  cases hrecord : f.registry.catalog.lookup key with
  | none => exact .error _
  | some record =>
    obtain ⟨-, hname⟩ := h.within key record (h.catalog ▸ hrecord)
    dsimp only
    by_cases hrange : index < 0 ∨ record.totalChunks ≤ index
    · rw [if_pos hrange, if_pos hrange]
      exact .error _
    rw [if_neg hrange, if_neg hrange]
    by_cases hkind : record.kind ∈ B.kinds
    swap
    · split_ifs <;> exact .error _
    obtain ⟨i, rfl⟩ := Int.eq_ofNat_of_zero_le (by omega : 0 ≤ index)
    obtain ⟨files, hput, hholds⟩ := h.holds.put hkey record.kind i data
    rw [← B.eq_fs hkind] at hholds
    let stored : DataStore := { s with blobs := s.blobs.insert (chunkKey record.kind key i) data }
    have hstored : Represents K { f with files := files } stored := by
      refine ⟨?_, hholds, h.within⟩
      show f.registry.withBlobs stored.blobs = s.withBlobs stored.blobs
      rw [← h.registry]
      rfl
    have hfull : ({ f with files := files } : FileStore).isFullyPresent record =
        stored.isFullyPresent record := by
      unfold FileStore.isFullyPresent DataStore.isFullyPresent
      refine congrArg (fun p => List.all _ p) (funext fun j => ?_)
      rw [hstored.existsAt (hname ▸ hkey) hkind]
    rw [chunkPath, hput]
    dsimp only [DataStore.putChunk]
    have hcomplete := f.registry.completeIf_withBlobs stored.blobs key now
      (stored.isFullyPresent record)
    rw [hstored.registry] at hcomplete
    split_ifs
    · exact .error _
    · exact .error _
    · rw [hfull, hcomplete]
      refine .ok (hstored.of_registry fun k other hother => ?_) _
      rw [DataStore.catalog_completeIf] at hother
      exact h.within k other (h.catalog ▸ hother)

/-- A chunk is appended to the stream. -/
theorem appendChunk (h : Represents K f s) (hkey : key ∈ K.keys) (data : List UInt8) :
    SameResult K (f.appendChunk B key data) (s.appendChunk B key data) := by
  unfold FileStore.appendChunk DataStore.appendChunk
  rw [h.openStreams]
  cases f.registry.openStreams.lookup key with
  | none => exact .error _
  | some stream =>
    dsimp only
    by_cases hkind : stream.kind ∈ B.kinds
    swap
    · rw [if_pos hkind, if_pos hkind]
      exact .error _
    obtain ⟨files, hput, hholds⟩ := h.holds.put hkey stream.kind stream.nextIndex data
    rw [if_neg (not_not.2 hkind), if_neg (not_not.2 hkind), hput]
    rw [← B.eq_fs hkind] at hholds
    have hgrown (grown : OpenStream) :
        Represents K ⟨{ f.registry with openStreams := f.registry.openStreams.insert key grown },
          files⟩ { s with
            blobs := s.blobs.insert (chunkKey stream.kind key stream.nextIndex) data
            openStreams := f.registry.openStreams.insert key grown } :=
      ⟨congrArg (fun r : DataStore => { r with
          blobs := s.blobs.insert (chunkKey stream.kind key stream.nextIndex) data
          openStreams := f.registry.openStreams.insert key grown }) h.registry, hholds, h.within⟩
    exact .ok (hgrown _) _

/-- A dataset is deleted. -/
theorem delete (h : Represents K f s) (hkey : key ∈ K.keys) (now : ℚ) :
    SameResult K (f.delete B key now) (s.delete B key now) := by
  unfold FileStore.delete DataStore.delete
  rw [h.catalog]
  cases hrecord : f.registry.catalog.lookup key with
  | none => exact .error _
  | some record =>
    dsimp only
    obtain ⟨files, hdelete, hholds⟩ : ∃ files, deleteChunks f.files key record
        (if record.kind ∈ B.kinds then chunkRange record.totalChunks else []) = .ok files ∧
          K.Holds files (s.dropChunks B key record) := by
      unfold DataStore.dropChunks
      split_ifs with hkind
      · rw [B.eq_fs hkind]
        exact h.holds.deleteChunks hkey record (chunkRange record.totalChunks)
      · exact ⟨f.files, rfl, h.holds⟩
    rw [hdelete]
    refine .ok ⟨?_, hholds, fun k other hother => ?_⟩ _
    · rw [← h.registry]
      rfl
    · by_cases hk : k = key
      · subst hk
        rw [AList.lookup_erase] at hother
        cases hother
      · rw [AList.lookup_erase_ne hk] at hother
        exact h.within k other (h.catalog ▸ hother)

/-! ### Runs -/

/-- Every call about one of the datasets does the same to both, and every status. -/
theorem perform {h : DataHistory} (hrep : Represents K f h.store) {call : DataCall}
    (hkey : K.Covers call) : Represents K (f.perform B call) (h.perform B call).store := by
  cases call with
  | register key format kind totalSize chunkBytes now contentHash contentHashAlgo =>
    by_cases hregisters : Dataset.Registers B kind totalSize chunkBytes
    · simp only [FileStore.perform, DataHistory.perform,
        DataStore.register_of_registers hregisters]
      have hput := f.registry.putRecord_withBlobs h.store.blobs key now
        (DataStore.newRecord key format kind totalSize chunkBytes now contentHash contentHashAlgo)
      rw [hrep.registry] at hput
      rw [hput]
      exact hrep.of_registry fun k other hother =>
        hrep.within_insert (show key ∈ K.keys from hkey) rfl
          (by simpa [DataStore.putRecord] using hother)
    · obtain ⟨e, he⟩ := f.registry.register_refused key format now contentHash contentHashAlgo
        hregisters
      obtain ⟨e', he'⟩ := h.store.register_refused key format now contentHash contentHashAlgo
        hregisters
      simp only [FileStore.perform, DataHistory.perform, he, he']
      exact hrep
  | delete key now =>
    have hsame : SameResult K (f.delete B key now) (h.store.delete B key now) :=
      hrep.delete hkey now
    simp only [FileStore.perform, DataHistory.perform]
    generalize f.delete B key now = x at hsame ⊢
    generalize h.store.delete B key now = y at hsame ⊢
    cases hsame with
    | error e => exact hrep
    | ok hrep' a => exact hrep'
  | storeChunk key index data now =>
    have hsame : SameResult K (f.storeChunk B key index data now) (h.store.storeChunk B key index data now) :=
      hrep.storeChunk hkey index data now
    simp only [FileStore.perform, DataHistory.perform]
    generalize f.storeChunk B key index data now = x at hsame ⊢
    generalize h.store.storeChunk B key index data now = y at hsame ⊢
    cases hsame with
    | error e => exact hrep
    | ok hrep' a => exact hrep'
  | status key =>
    have hsame : SameResult K (f.status B key) (h.store.status B key) :=
      hrep.status key
    simp only [FileStore.perform, DataHistory.perform]
    generalize f.status B key = x at hsame ⊢
    generalize h.store.status B key = y at hsame ⊢
    cases hsame with
    | error e => exact hrep
    | ok hrep' a => exact hrep'
  | openStream key format kind chunkBytes =>
    refine ⟨?_, hrep.holds, hrep.within⟩
    show (f.registry.openStream key format kind chunkBytes).withBlobs h.store.blobs =
      h.store.openStream key format kind chunkBytes
    rw [← hrep.registry]
    rfl
  | appendChunk key data =>
    have hsame : SameResult K (f.appendChunk B key data) (h.store.appendChunk B key data) :=
      hrep.appendChunk hkey data
    simp only [FileStore.perform, DataHistory.perform]
    generalize f.appendChunk B key data = x at hsame ⊢
    generalize h.store.appendChunk B key data = y at hsame ⊢
    cases hsame with
    | error e => exact hrep
    | ok hrep' a => exact hrep'
  | finalizeStream key now =>
    have hfinalize := f.registry.finalizeStream_withBlobs h.store.blobs key now B
    rw [hrep.registry] at hfinalize
    simp only [FileStore.perform, DataHistory.perform, hfinalize]
    cases hstream : f.registry.openStreams.lookup key with
    | none =>
      simp only [DataStore.finalizeStream, hstream]
      exact hrep
    | some stream =>
      simp only [DataStore.finalizeStream, hstream]
      exact hrep.of_registry fun k other hother =>
        hrep.within_insert (show key ∈ K.keys from hkey) rfl (by simpa using hother)

/-- A run about these datasets is also one over blobs. -/
theorem exists_of_reach {G : FileStore → DataCall → Prop} {H : DataHistory → DataCall → Prop}
    {mkstemp : String → String}
    (hguard : ∀ f h call, Represents K f h.store → G f call → K.Covers call ∧ H h call)
    (hreach : Reach (step B) G (FileStore.init K.root mkstemp) f) :
    ∃ h, Reach (DataHistory.step B) H {} h ∧ Represents K f h.store := by
  induction hreach with
  | refl => exact ⟨{}, .refl, .init K mkstemp⟩
  | tail _ hcall hstep ih =>
    obtain ⟨h, hreach, hrep⟩ := ih
    obtain rfl := Option.some.inj hstep
    obtain ⟨hcovers, hnext⟩ := hguard _ h _ hrep hcall
    exact ⟨_, hreach.tail hnext rfl, hrep.perform hcovers⟩

end Represents

/-! ### A dataset and its files -/

/-- The chunks of a dataset, as its files have them. -/
def chunks (f : FileStore) (key : RecordKey) : String → Chunks := fun kind i =>
  if kind ∈ DataRegistry.keyTypes then
    match f.files.get (chunkKey kind key i).path with
    | .ok data => data
    | .error _ => none
  else none

/-- What the registry and its files hold about a key; what only a history knows is left out. -/
def dataset (f : FileStore) (key : RecordKey) : Dataset where
  record := f.registry.catalog.lookup key
  chunks := f.chunks key
  stream := f.registry.openStreams.lookup key
  completed := decide (key ∈ f.registry.completedUploads)
  accepted := .none
  streamed := .none
  signals := 0

theorem Represents.chunks (h : Represents K f s) (hkey : key ∈ K.keys) :
    f.chunks key = fun kind (i : ℕ) => s.chunk kind key i := by
  funext kind i
  unfold FileStore.chunks
  split_ifs with hkind
  · rw [h.holds.get hkey, DataStore.chunk, List.mem_singleton.1 hkind]
  · unfold DataStore.chunk
    cases hblob : s.blobs.lookup (chunkKey kind key i) with
    | none => rfl
    | some data =>
      have hsome : (s.blobs.lookup (chunkKey kind key i)).isSome = true := by
        rw [hblob]
        rfl
      exact absurd (List.mem_singleton.2 (h.holds.kind _ (AList.lookup_isSome.1 hsome))) hkind

end FileStore

/-! ### Plain names -/

/-- The name is a path of plain components, none of which looks like the file of a chunk. -/
def PlainName (name : String) : Prop :=
  Char.ofNat 0 ∉ name.toList ∧ ∀ component ∈ splitPath name,
    component ≠ "" ∧ component ≠ "." ∧ component ≠ ".." ∧
      ¬ "chunk_".toList <+: component.toList

instance (name : String) : Decidable (PlainName name) := inferInstanceAs (Decidable (_ ∧ _))

section PlainName

variable {root : List String} {key X Y : RecordKey}

theorem splitPath_injective : Function.Injective splitPath := by
  intro a b hab
  have hchars : a.toList.splitOn '/' = b.toList.splitOn '/' :=
    List.map_injective_iff.2 (fun _ _ h => String.ofList_injective h) hab
  have hjoined := congrArg ['/'].intercalate hchars
  rw [List.intercalate_splitOn, List.intercalate_splitOn] at hjoined
  exact String.toList_inj.1 hjoined

/-- Where the chunks of a plain name lie. -/
theorem chunkDir_of_plainName (h : PlainName key.id) :
    chunkDir root key = root ++ (splitPath key.id ++ [key.version.repr]) := by
  have hsplit : splitPath (key.id ++ "/") = splitPath key.id ++ [""] := by
    have hblank : splitPath "" = [""] := splitPath_of_notMem (by simp)
    rw [← hblank, ← splitPath_append, String.append_empty]
  have hhead : (key.id ++ "/").toList.head? ≠ some '/' := by
    rcases hid : key.id.toList with _ | ⟨c, cs⟩
    · exact absurd rfl (h.2 "" (by simp [splitPath, hid])).1
    · rw [String.toList_append, hid]
      rintro heq
      obtain rfl := Option.some.inj heq
      have hname : key.id = "" ++ "/" ++ String.ofList cs := by
        rw [← String.toList_inj, hid]
        simp
      refine absurd rfl (h.2 "" ?_).1
      rw [hname, splitPath_append]
      exact List.mem_append_left _ (by simp [splitPath])
  have hjoin (components : List String) (hplain : ∀ component ∈ components, component ≠ "" ∧
      component ≠ "." ∧ component ≠ ".." ∧ ¬ "chunk_".toList <+: component.toList)
      (real : List String) : components.foldl joinComponent real = real ++ components := by
    induction components generalizing real with
    | nil => rw [List.foldl_nil, List.append_nil]
    | cons component components ih =>
      obtain ⟨hempty, hdot, hdots, -⟩ := hplain component List.mem_cons_self
      rw [List.foldl_cons, joinComponent_of_ne real hempty hdot hdots,
        ih fun c hc => hplain c (List.mem_cons_of_mem component hc), List.append_assoc]
      rfl
  unfold chunkDir realpath
  rw [hsplit, if_neg hhead, List.foldl_append, hjoin _ h.2, List.foldl_cons, List.foldl_nil,
    joinComponent, if_pos (.inl rfl), List.append_assoc]

theorem placed_of_plainName (root : List String) (key : RecordKey) (h : PlainName key.id) :
    FileStore.BelowRoot root key 0 := by
  refine ⟨h.1, ?_, ?_⟩
  · rw [chunkDir_of_plainName h, List.append_assoc]
    exact List.prefix_append _ _
  · rw [chunkDir_of_plainName h, List.append_assoc]
    intro heq
    exact absurd (List.append_right_eq_self.1 heq) (by simp)

/-- No chunk of a plain name lies at or above a chunk of another one. -/
theorem not_prefix_of_plainName (hX : PlainName X.id) (hY : PlainName Y.id) (hne : X ≠ Y)
    (i j : ℕ) : ¬ chunkDir root X ++ [chunkFile i] <+: chunkDir root Y ++ [chunkFile j] := by
  have hpath (key : RecordKey) (h : PlainName key.id) (i : ℕ) :
      chunkDir root key ++ [chunkFile i] =
        root ++ (splitPath key.id ++ [key.version.repr] ++ [chunkFile i]) := by
    rw [chunkDir_of_plainName h, List.append_assoc]
  rw [hpath X hX, hpath Y hY, List.prefix_append_right_inj]
  intro hpre
  rcases List.prefix_concat_iff.1 hpre with heq | habove
  · obtain ⟨hdir, -⟩ := List.append_inj' heq (by simp)
    obtain ⟨hid, hversion⟩ := List.append_inj' hdir (by simp)
    have hid := splitPath_injective hid
    have hversion := repr_injective (List.singleton_inj.1 hversion)
    cases X
    cases Y
    cases hid
    cases hversion
    exact hne rfl
  · -- the file of a chunk is no component of a name, and no version
    have hfile : "chunk_".toList <+: (chunkFile (i : ℤ)).toList := by
      rw [chunkFile, String.toList_append]
      exact List.prefix_append _ _
    have hmem := habove.subset (List.mem_append_right _ (List.mem_singleton_self (chunkFile (i : ℤ))))
    rcases List.mem_append.1 hmem with hmem | hmem
    · exact (hY.2 _ hmem).2.2.2 hfile
    · rw [List.mem_singleton.1 hmem] at hfile
      have hchar : 'c' ∈ Y.version.repr.toList := hfile.subset (by decide)
      rcases mem_repr hchar with h | h <;> exact absurd h (by decide)

theorem separate_of_plainName (root : List String) (X : RecordKey) (hX : PlainName X.id)
    (Y : RecordKey) (hY : PlainName Y.id) (hne : X ≠ Y) : FileStore.Separate root X Y :=
  fun i j _ _ => ⟨not_prefix_of_plainName hY hX hne.symm j i, not_prefix_of_plainName hX hY hne i j⟩

end PlainName

/-- Datasets whose chunks are files of their own, wherever the root of a node lies.  With registrations
of these only, each node's registry over blobs does what one over files does
(`FileStore.Represents.perform`). -/
structure DatasetNames where
  keys : Set RecordKey
  placed : ∀ root, ∀ key ∈ keys, FileStore.BelowRoot root key 0
  separate : ∀ root, ∀ X ∈ keys, ∀ Y ∈ keys, X ≠ Y → FileStore.Separate root X Y

/-- The files of such datasets below a root. -/
def DatasetNames.at (N : DatasetNames) (root : List String) : StorageKeys where
  root := root
  keys := N.keys
  placed := N.placed root
  separate := N.separate root

/-- The datasets with plain names. -/
def DatasetNames.plain : DatasetNames where
  keys := {key | PlainName key.id}
  placed := placed_of_plainName
  separate := separate_of_plainName

instance : DecidablePred (· ∈ DatasetNames.plain.keys) := fun key =>
  inferInstanceAs (Decidable (PlainName key.id))

/-- Below a root. -/
def StorageKeys.plain (root : List String) : StorageKeys := DatasetNames.plain.at root

instance (root : List String) : DecidablePred (· ∈ (StorageKeys.plain root).keys) := fun key =>
  inferInstanceAs (Decidable (PlainName key.id))

end Axo
