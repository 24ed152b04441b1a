import Axo.Data.FileStatus

/-!
# What others do to the files of a dataset

While one function writes a dataset, calls about other datasets and plain writes go on.

* `Usable` says that the chunks of a dataset can be written, and `KeepsDataset` that stream, record
  and chunks of it stay, and usable too;
* `OtherWriters` are the datasets and locations of others, in whose way the dataset does not lie;
* `OtherWriters.keeps`: what they do keeps the dataset, unless a dataset of theirs has its files in
  the same directory.
-/

namespace Axo

namespace FileStore

variable (B : DataBackends) (root : List String) (key : RecordKey)

/-- Where each chunk of a dataset would have to be written there is no directory, and above it no
file. -/
structure Usable (s : FileStore) : Prop where
  rooted : s.files.root = root
  notDir : ∀ i : ℕ, s.files.tree.node (chunkDir root key ++ [chunkFile i]) ≠ some .dir
  above : ∀ q, q <+: chunkDir root key → s.files.tree.isFile q = false

/-- The stream, the record and the chunks of a dataset are the same, and its files can be written as
before. -/
structure KeepsDataset (s t : FileStore) : Prop where
  stream : t.registry.openStreams.lookup key = s.registry.openStreams.lookup key
  record : t.registry.catalog.lookup key = s.registry.catalog.lookup key
  rooted : t.files.root = s.files.root
  chunks : ∀ i : ℕ, t.files.tree.node (chunkDir root key ++ [chunkFile i]) =
    s.files.tree.node (chunkDir root key ++ [chunkFile i])
  above : ∀ q, q <+: chunkDir root key → s.files.tree.isFile q = false →
    t.files.tree.isFile q = false

/-- What somebody else does: a call to the registry, or a plain write of a function. -/
inductive OtherAct
  | call (call : DataCall)
  | write (location : String) (data : List UInt8)

/-- What it leaves; a write that fails changes nothing. -/
def performOther (s : FileStore) : OtherAct → FileStore
  | .call call => s.perform B call
  | .write location data =>
    match s.files.put location data with
    | .error _ => s
    | .ok files => { s with files := files }

/-- The datasets and the locations to which others write.  No file of theirs lies above a chunk of
the dataset, or has one above it, and no plain write is to a chunk of it. -/
structure OtherWriters where
  keys : Set RecordKey
  locations : Set String
  other : key ∉ keys
  beside : ∀ Y ∈ keys, BelowRoot root Y 0 → ∀ i j : ℕ,
    chunkDir root key ++ [chunkFile i] <+: chunkDir root Y ++ [chunkFile j] ∨
        chunkDir root Y ++ [chunkFile j] <+: chunkDir root key ++ [chunkFile i] →
      chunkDir root key ++ [chunkFile i] = chunkDir root Y ++ [chunkFile j]
  apart : ∀ location ∈ locations, ∀ i : ℕ,
    ¬ chunkDir root key ++ [chunkFile i] <+: realpath root location ∧
      ¬ realpath root location <+: chunkDir root key ++ [chunkFile i]

/-- Others ask for any status, and call and write where they do. -/
def OtherWriters.May {root : List String} {key : RecordKey} (O : OtherWriters root key) :
    OtherAct → Prop
  | .call (.status _) => True
  | .call call => call.key ∈ O.keys
  | .write location _ => location ∈ O.locations

variable {B root key} {s t u : FileStore}

theorem KeepsDataset.refl (s : FileStore) : KeepsDataset root key s s :=
  ⟨rfl, rfl, rfl, fun _ => rfl, fun _ _ h => h⟩

theorem KeepsDataset.trans (h : KeepsDataset root key s t) (h' : KeepsDataset root key t u) :
    KeepsDataset root key s u :=
  ⟨h'.stream.trans h.stream, h'.record.trans h.record, h'.rooted.trans h.rooted,
    fun i => (h'.chunks i).trans (h.chunks i), fun q hq hs => h'.above q hq (h.above q hq hs)⟩

theorem Usable.keep (h : Usable root key s) (hkeep : KeepsDataset root key s t) :
    Usable root key t :=
  ⟨hkeep.rooted.trans h.rooted, fun i => by rw [hkeep.chunks i]; exact h.notDir i,
    fun q hq => hkeep.above q hq (h.above q hq)⟩

theorem usable_init (hplaced : BelowRoot root key 0) (mkstemp : String → String) :
    Usable root key (init root mkstemp) where
  rooted := rfl
  notDir i := by
    have hnone : (FilesystemStorageBackend.empty root mkstemp).tree.node
        (chunkDir root key ++ [chunkFile i]) = none := node_empty (hplaced.all i)
    exact fun hdir => Option.some_ne_none _ (hdir.symm.trans hnone)
  above q _ := isFile_empty q

/-! ### The files of the dataset -/

/-- A chunk whose file is there can be read. -/
theorem Usable.get (h : Usable root key s) (hplaced : BelowRoot root key 0) {i : ℕ} {data : List UInt8}
    (hnode : s.files.tree.node (chunkDir root key ++ [chunkFile i]) = some (.file data))
    (kind : String) : s.files.get (chunkKey kind key i).path = .ok (some data) := by
  obtain ⟨rfl, -, -⟩ := h
  unfold FilesystemStorageBackend.get
  rw [resolve_of_placed (hplaced.all i)]
  dsimp only
  unfold FileTree.read
  rw [hnode]

/-- A chunk can be written, and the other files of the dataset stay. -/
theorem Usable.put (h : Usable root key s) (hplaced : BelowRoot root key 0) (kind : String) (i : ℕ)
    (data : List UInt8) :
    ∃ files, s.files.put (chunkKey kind key i).path data = .ok files ∧
      Usable root key { s with files := files } ∧
      ∀ j : ℕ, files.tree.node (chunkDir root key ++ [chunkFile j]) =
        if j = i then some (.file data)
        else s.files.tree.node (chunkDir root key ++ [chunkFile j]) := by
  obtain ⟨hroot, hdir, habove⟩ := h
  have hresolve : s.files.resolve (chunkKey kind key i).path =
      .ok (chunkDir root key ++ [chunkFile i]) := by
    rw [← hroot] at hplaced ⊢
    exact resolve_of_placed (hplaced.all i)
  have hfree (q : List String) (hq : q <+: chunkDir root key ++ [chunkFile i])
      (hne : q ≠ chunkDir root key ++ [chunkFile i]) : s.files.tree.isFile q = false :=
    habove q ((List.prefix_concat_iff.1 hq).resolve_left hne)
  obtain ⟨tree, hwrite⟩ := FileTree.exists_write hfree (hdir i) (by simp) data
  obtain ⟨files, hput, rfl, hroot'⟩ := FilesystemStorageBackend.put_of_write hresolve hwrite
  obtain ⟨hnode, -, -⟩ := FileTree.write_ok hwrite
  have hchunks (j : ℕ) : files.tree.node (chunkDir root key ++ [chunkFile j]) =
      if j = i then some (.file data)
      else s.files.tree.node (chunkDir root key ++ [chunkFile j]) := by
    rw [hnode]
    by_cases hj : j = i
    · rw [if_pos (by rw [hj]), if_pos hj]
    · have hpre : ¬ chunkDir root key ++ [chunkFile j] <+: chunkDir root key ++ [chunkFile i] :=
        fun hpre => hj (eq_of_prefix_chunk hpre)
      have hne : chunkDir root key ++ [chunkFile j] ≠ chunkDir root key ++ [chunkFile i] := by
        intro heq
        rw [heq] at hpre
        exact hpre List.prefix_rfl
      rw [if_neg hne, if_neg hpre, if_neg hj]
  refine ⟨files, hput, ⟨hroot'.trans hroot, fun j => ?_, fun q hq => ?_⟩, hchunks⟩
  · show files.tree.node _ ≠ _
    rw [hchunks]
    split_ifs
    · exact nofun
    · exact hdir j
  · have hne : q ≠ chunkDir root key ++ [chunkFile i] := fun heq => by
      have hle := (heq ▸ hq).length_le
      simp at hle
    show files.tree.isFile q = false
    unfold FileTree.isFile
    rw [hnode, if_neg hne, if_pos (hq.trans (List.prefix_append _ _))]

/-! ### Files that are put -/

/-- A file that is put elsewhere, and in nobody's way, keeps the files of a dataset. -/
theorem keepsDataset_put {path : String} {p : List String} {data : List UInt8}
    {files : FilesystemStorageBackend} (hput : s.files.put path data = .ok files)
    (hresolve : s.files.resolve path = .ok p)
    (happart : ∀ i : ℕ, ¬ chunkDir root key ++ [chunkFile i] <+: p ∧
      ¬ p <+: chunkDir root key ++ [chunkFile i]) :
    KeepsDataset root key s { s with files := files } := by
  obtain ⟨p', hresolve', hwrite, hroot⟩ := FilesystemStorageBackend.put_ok hput
  obtain rfl : p = p' := Except.ok.inj (hresolve.symm.trans hresolve')
  obtain ⟨hnode, -, -⟩ := FileTree.write_ok hwrite
  refine ⟨rfl, rfl, hroot, fun i => ?_, fun q hq hfile => ?_⟩
  · obtain ⟨hbelow, habove⟩ := happart i
    show files.tree.node _ = _
    have hne : chunkDir root key ++ [chunkFile i] ≠ p := fun heq => hbelow (heq ▸ List.prefix_rfl)
    rw [hnode, if_neg hne, if_neg hbelow]
  · -- the file does not lie above the dataset
    have hne : q ≠ p := fun heq => (happart 0).2 (heq ▸ hq.trans (List.prefix_append _ _))
    show files.tree.isFile q = false
    unfold FileTree.isFile at hfile ⊢
    rw [hnode, if_neg hne]
    split_ifs with hpre
    · rfl
    · exact hfile

/-- A file that is deleted elsewhere. -/
theorem keepsDataset_delete {path : String} {p : List String} {files : FilesystemStorageBackend}
    (hdelete : s.files.delete path = .ok files) (hresolve : s.files.resolve path = .ok p)
    (hne : ∀ i : ℕ, chunkDir root key ++ [chunkFile i] ≠ p) :
    KeepsDataset root key s { s with files := files } := by
  obtain ⟨p', hresolve', htree, hroot⟩ := FilesystemStorageBackend.delete_ok hdelete
  obtain rfl : p = p' := Except.ok.inj (hresolve.symm.trans hresolve')
  refine ⟨rfl, rfl, hroot, fun i => ?_, fun q _ hfile => ?_⟩
  · show files.tree.node _ = _
    rw [htree]
    exact if_neg fun heq => hne i heq.1
  · show files.tree.isFile q = false
    rw [htree]
    unfold FileTree.isFile FileTree.remove at *
    dsimp only
    split_ifs
    · rfl
    · exact hfile

/-- The files of another dataset are deleted. -/
theorem keepsDataset_deleteChunks {Y : RecordKey} {record : DataRecord} {indices : List ℕ}
    {files : FilesystemStorageBackend} (hroot : s.files.root = root)
    (hplaced : BelowRoot root key 0) (hne : ∀ i j : ℕ, BelowRoot root Y 0 →
      chunkDir root key ++ [chunkFile i] ≠ chunkDir root Y ++ [chunkFile j])
    (h : deleteChunks s.files Y record indices = .ok files) :
    KeepsDataset root key s { s with files := files } := by
  induction indices generalizing s with
  | nil =>
    cases h
    exact .refl s
  | cons j indices ih =>
    unfold deleteChunks okOr at h
    cases hdelete : s.files.delete (chunkPath record Y j) with
    | error e =>
      rw [hdelete] at h
      cases e with
      | raised => cases h
      | err => exact ih hroot h
    | ok first =>
      rw [hdelete] at h
      obtain ⟨p, hresolve, -, hroot'⟩ := FilesystemStorageBackend.delete_ok hdelete
      have hkeep : KeepsDataset root key s { s with files := first } := by
        refine keepsDataset_delete hdelete hresolve fun i heq => ?_
        have hp : p ≠ s.files.root := fun hp => (hplaced.all i).2.2 (heq.trans (hp.trans hroot))
        obtain ⟨rfl, hY⟩ := placed_of_resolve hresolve hp
        rw [hroot] at heq hY
        exact hne i j (hY.all 0) heq
      exact hkeep.trans (ih (s := { s with files := first }) (hroot'.trans hroot) h)

/-! ### Calls about other datasets -/

/-- The registry changes, and not what it has of the dataset. -/
theorem KeepsDataset.registry (h : KeepsDataset root key s t) (registry : DataStore)
    (hstream : registry.openStreams.lookup key = t.registry.openStreams.lookup key)
    (hrecord : registry.catalog.lookup key = t.registry.catalog.lookup key) :
    KeepsDataset root key s { t with registry := registry } :=
  ⟨hstream.trans h.stream, hrecord.trans h.record, h.rooted, h.chunks, h.above⟩

theorem openStreams_of_status {k : RecordKey} {st : DataStatus} (h : s.status B k = .ok (t, st)) :
    t.registry.openStreams = s.registry.openStreams := by
  unfold status at h
  rcases hrecord : s.registry.catalog.lookup k with _ | record <;> rw [hrecord] at h <;>
    dsimp only at h
  · cases h
    rfl
  rcases hpresent : s.present B k record with e | present <;> rw [hpresent] at h <;> dsimp only at h
  · cases h
  split_ifs at h with hcomplete
  · unfold verifyHash at h
    rcases hcache : s.registry.hashCache.lookup k with _ | ⟨computed, verified⟩ <;>
      rw [hcache] at h <;> dsimp only at h
    · rcases hhash : s.computeHash B record with e | computed <;> rw [hhash] at h <;> cases h
      rfl
    · cases h
      rfl
  · cases h
    rfl

/-- A status changes only the cache of hashes. -/
theorem keepsDataset_status {k : RecordKey} {st : DataStatus} (h : s.status B k = .ok (t, st)) :
    KeepsDataset root key s t := by
  obtain ⟨hcatalog, hfiles⟩ := status_ok h
  have hstreams := openStreams_of_status h
  have hkeep : KeepsDataset root key s { s with registry := t.registry } :=
    (KeepsDataset.refl s).registry t.registry (by rw [hstreams]) (by rw [hcatalog])
  rwa [← hfiles] at hkeep

/-- Another dataset is registered. -/
theorem keepsDataset_register {k : RecordKey} {format kind contentHashAlgo : String}
    {totalSize chunkBytes : ℤ} {now : ℚ} {contentHash : Option String} (hk : key ≠ k) :
    KeepsDataset root key s (s.perform B
      (.register k format kind totalSize chunkBytes now contentHash contentHashAlgo)) := by
  by_cases hregisters : Dataset.Registers B kind totalSize chunkBytes
  · simp only [perform, DataStore.register_of_registers hregisters]
    refine (KeepsDataset.refl s).registry _ ?_ ?_
    · simp [DataStore.putRecord]
    · simp [DataStore.putRecord, AList.lookup_insert_ne hk]
  · obtain ⟨e, he⟩ := s.registry.register_refused k format now contentHash contentHashAlgo
      hregisters
    simp only [perform, he]
    exact .refl s

/-- Another stream is finalized. -/
theorem keepsDataset_finalizeStream {k : RecordKey} {now : ℚ} (hk : key ≠ k) :
    KeepsDataset root key s (s.perform B (.finalizeStream k now)) := by
  rcases hstream : s.registry.openStreams.lookup k with _ | stream
  · simp only [perform, DataStore.finalizeStream, hstream]
    exact .refl s
  · simp only [perform, DataStore.finalizeStream, hstream]
    refine (KeepsDataset.refl s).registry _ ?_ ?_
    · rw [DataStore.openStreams_completeUpload]
      exact AList.lookup_erase_ne hk
    · rw [DataStore.catalog_completeUpload]
      exact AList.lookup_insert_ne hk

theorem openStreams_of_storeChunk {k : RecordKey} {index : ℤ} {data : List UInt8} {now : ℚ}
    {events : List DataEvent} {record : DataRecord}
    (h : s.storeChunk B k index data now = .ok (t, events, record)) :
    t.registry.openStreams = s.registry.openStreams := by
  unfold storeChunk at h
  rcases hrecord : s.registry.catalog.lookup k with _ | record' <;> rw [hrecord] at h
  · cases h
  dsimp only at h
  split_ifs at h
  rcases hput : s.files.put (chunkPath record' k index) data with e | files <;> rw [hput] at h <;>
    cases h
  exact DataStore.openStreams_completeIf

theorem openStreams_of_appendChunk {k : RecordKey} {data : List UInt8} {n : ℕ} (hk : key ≠ k)
    (h : s.appendChunk B k data = .ok (t, n)) :
    t.registry.openStreams.lookup key = s.registry.openStreams.lookup key := by
  unfold appendChunk at h
  rcases hstream : s.registry.openStreams.lookup k with _ | stream <;> rw [hstream] at h
  · cases h
  dsimp only at h
  split_ifs at h
  rcases hput : s.files.put (chunkKey stream.kind k stream.nextIndex).path data with e | files <;>
    rw [hput] at h <;> cases h
  exact AList.lookup_insert_ne hk

theorem openStreams_of_delete {k : RecordKey} {now : ℚ} {events : List DataEvent}
    (h : s.delete B k now = .ok (t, events)) :
    t.registry.openStreams = s.registry.openStreams := by
  unfold delete at h
  rcases hrecord : s.registry.catalog.lookup k with _ | record <;> rw [hrecord] at h
  · cases h
  dsimp only at h
  rcases hdelete : deleteChunks s.files k record
      (if record.kind ∈ B.kinds then chunkRange record.totalChunks else []) with e | files <;>
    rw [hdelete] at h <;> cases h
  rfl

section Others

variable {O : OtherWriters root key} (hplaced : BelowRoot root key 0)
  (hdirs : ∀ Y ∈ O.keys, BelowRoot root Y 0 → chunkDir root Y ≠ chunkDir root key)

include hdirs in
/-- No file of theirs lies at, above or below a chunk of the dataset. -/
theorem OtherWriters.separate {Y : RecordKey} (hY : Y ∈ O.keys) (hY' : BelowRoot root Y 0) (i j : ℕ) :
    ¬ chunkDir root key ++ [chunkFile i] <+: chunkDir root Y ++ [chunkFile j] ∧
      ¬ chunkDir root Y ++ [chunkFile j] <+: chunkDir root key ++ [chunkFile i] := by
  have hne : chunkDir root key ++ [chunkFile i] ≠ chunkDir root Y ++ [chunkFile j] := fun heq =>
    hdirs Y hY hY' (List.append_inj_left' heq (by simp)).symm
  exact ⟨fun hpre => hne (O.beside Y hY hY' i j (Or.inl hpre)),
    fun hpre => hne (O.beside Y hY hY' i j (Or.inr hpre))⟩

include hdirs in
/-- A chunk of theirs is put. -/
theorem OtherWriters.keeps_put {Y : RecordKey} (hY : Y ∈ O.keys) (hroot : s.files.root = root)
    {kind : String} {j : ℕ} {data : List UInt8} {files : FilesystemStorageBackend}
    (hput : s.files.put (chunkKey kind Y j).path data = .ok files) :
    KeepsDataset root key s { s with files := files } := by
  obtain ⟨p, hresolve, hwrite, -⟩ := FilesystemStorageBackend.put_ok hput
  obtain ⟨-, -, hdir⟩ := FileTree.write_ok hwrite
  have hne : p ≠ s.files.root := fun heq => hdir (heq ▸ s.files.rootDir)
  obtain ⟨hp, hY'⟩ := placed_of_resolve hresolve hne
  rw [hroot] at hp hY'
  refine keepsDataset_put hput hresolve fun i => ?_
  rw [hp]
  exact O.separate hdirs hY (hY'.all 0) i j

include hplaced hdirs in
/-- Whatever others do keeps the dataset, when none of their datasets has its directory. -/
theorem OtherWriters.keeps {act : OtherAct} (hmay : O.May act) (hroot : s.files.root = root) :
    KeepsDataset root key s (s.performOther B act) := by
  cases act with
  | write location data =>
    rcases hput : s.files.put location data with e | files <;> simp only [performOther, hput]
    · exact .refl s
    · obtain ⟨p, hresolve, -⟩ := FilesystemStorageBackend.put_ok hput
      refine keepsDataset_put hput hresolve ?_
      obtain ⟨rfl, -⟩ := FilesystemStorageBackend.resolve_ok hresolve
      rw [hroot]
      exact O.apart location hmay
  | call call =>
    have hother {k : RecordKey} (hk : k ∈ O.keys) : key ≠ k := fun heq => O.other (heq ▸ hk)
    cases call with
    | register k =>
      have hk : k ∈ O.keys := hmay
      exact keepsDataset_register (hother hk)
    | delete k now =>
      have hk : k ∈ O.keys := hmay
      rcases hdelete : s.delete B k now with e | ⟨t, events⟩ <;>
        simp only [performOther, perform, hdelete]
      · exact .refl s
      · obtain ⟨record, indices, hchunks, hcatalog, -⟩ := delete_ok hdelete
        have hkeep := keepsDataset_deleteChunks hroot hplaced
          (fun i j hY heq => (O.separate hdirs hk hY i j).1 (heq ▸ List.prefix_rfl)) hchunks
        exact hkeep.registry t.registry (by rw [openStreams_of_delete hdelete])
          (by rw [hcatalog, AList.lookup_erase_ne (hother hk)])
    | storeChunk k index data now =>
      have hk : k ∈ O.keys := hmay
      rcases hstore : s.storeChunk B k index data now with e | ⟨t, events, record⟩ <;>
        simp only [performOther, perform, hstore]
      · exact .refl s
      · obtain ⟨hindex, hput, hcatalog, -⟩ := storeChunk_ok hstore
        obtain ⟨i, rfl⟩ := Int.eq_ofNat_of_zero_le hindex
        exact (O.keeps_put hdirs hk hroot hput).registry t.registry
          (by rw [openStreams_of_storeChunk hstore]) (by rw [hcatalog])
    | status k =>
      rcases hstatus : s.status B k with e | ⟨t, st⟩ <;> simp only [performOther, perform, hstatus]
      · exact .refl s
      · exact keepsDataset_status hstatus
    | openStream k format kind chunkBytes =>
      have hk : k ∈ O.keys := hmay
      exact (KeepsDataset.refl s).registry _ (AList.lookup_insert_ne (hother hk)) rfl
    | appendChunk k data =>
      have hk : k ∈ O.keys := hmay
      rcases happend : s.appendChunk B k data with e | ⟨t, n⟩ <;>
        simp only [performOther, perform, happend]
      · exact .refl s
      · obtain ⟨kind, hput, hcatalog, -⟩ := appendChunk_ok happend
        have hstreams := openStreams_of_appendChunk (hother hk) happend
        exact (O.keeps_put hdirs hk hroot hput).registry t.registry hstreams
          (by rw [hcatalog])
    | finalizeStream k =>
      have hk : k ∈ O.keys := hmay
      exact keepsDataset_finalizeStream (hother hk)

end Others

end FileStore

end Axo
