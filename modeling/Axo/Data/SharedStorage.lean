import Axo.Data.FileStore
import Axo.Data.OwnUpload

/-!
# Datasets that share storage

Whether the calls about one dataset change what is read of another, when the chunks of both are
files below one root.

* `Unmoved` is what has to stay so that a dataset reads the same and has the same status;
* `Separate` is a condition on the two names and versions: no chunk file of the one lies at, above
  or below a chunk file of the other;
* `untouched_iff` says that this is exactly when neither can change the other.
-/

namespace Axo

open Transition

namespace FileStore

variable {B : DataBackends} {s t : FileStore} {key X Y : RecordKey} {root : List String}
  {mkstemp : String → String}

/-! ### What a dataset depends on -/

/-- The record of a dataset, its cached hash and its chunks. -/
structure Unmoved (s t : FileStore) (key : RecordKey) : Prop where
  record : t.registry.catalog.lookup key = s.registry.catalog.lookup key
  hash : t.registry.hashCache.lookup key = s.registry.hashCache.lookup key
  files : ∀ kind (i : ℕ), FilesystemStorageBackend.SameAt s.files t.files (chunkKey kind key i).path

theorem Unmoved.refl (s : FileStore) (key : RecordKey) : Unmoved s s key :=
  ⟨rfl, rfl, fun _ _ => .refl _ _⟩

theorem readWhole_congr (h : Unmoved s t key) : t.readWhole B key = s.readWhole B key := by
  have hread (i : ℕ) : t.readChunk B key i = s.readChunk B key i := by
    unfold readChunk chunkPath
    rw [h.record]
    rcases s.registry.catalog.lookup key with _ | record
    · rfl
    · dsimp only
      rw [(h.files record.kind i).get]
  unfold readWhole
  rw [h.record]
  simp only [hread]

/-- What a status is computed from. -/
theorem status_congr (hkeyed : s.registry.WellKeyed) (h : Unmoved s t key) :
    (t.status B key).map Prod.snd = (s.status B key).map Prod.snd := by
  unfold status
  rw [h.record]
  rcases hrecord : s.registry.catalog.lookup key with _ | record
  · rfl
  have hkey : record.key = key := hkeyed key record hrecord
  have hpresent : t.present B key record = s.present B key record := by
    unfold present chunkPath
    simp only [(h.files record.kind _).existsAt]
  have hhash : t.computeHash B record = s.computeHash B record := by
    unfold computeHash chunkPath
    simp only [hkey, (h.files record.kind _).get]
  dsimp only
  rw [hpresent]
  rcases s.present B key record with e | present
  · rfl
  dsimp only
  split_ifs
  · unfold verifyHash
    rw [h.hash, hhash]
    rcases s.registry.hashCache.lookup key with _ | ⟨computed, verified⟩
    · rcases s.computeHash B record with e | computed <;> rfl
    · rfl
  · rfl

/-! ### The condition -/

/-- The chunk is stored in a file below the root. -/
def BelowRoot (root : List String) (key : RecordKey) (i : ℕ) : Prop :=
  Char.ofNat 0 ∉ key.id.toList ∧ root <+: chunkDir root key ++ [chunkFile i] ∧
    chunkDir root key ++ [chunkFile i] ≠ root

/-- No chunk file of the one dataset lies at, above or below a chunk file of the other. -/
def Separate (root : List String) (X Y : RecordKey) : Prop :=
  ∀ i j : ℕ, BelowRoot root X i → BelowRoot root Y j →
    ¬ chunkDir root Y ++ [chunkFile j] <+: chunkDir root X ++ [chunkFile i] ∧
      ¬ chunkDir root X ++ [chunkFile i] <+: chunkDir root Y ++ [chunkFile j]

theorem Separate.symm (h : Separate root X Y) : Separate root Y X := fun i j hi hj =>
  (h j i hj hi).symm

/-- A path that resolves below the root is that of a chunk in its place. -/
theorem placed_of_resolve {files : FilesystemStorageBackend} {kind : String} {i : ℕ}
    {p : List String} (hresolve : files.resolve (chunkKey kind key i).path = .ok p)
    (hne : p ≠ files.root) :
    p = chunkDir files.root key ++ [chunkFile i] ∧ BelowRoot files.root key i := by
  obtain ⟨hp, hwithin, hnull⟩ := FilesystemStorageBackend.resolve_ok hresolve
  rw [realpath_chunkKey] at hp
  subst hp
  refine ⟨rfl, fun hmem => hnull ?_, hwithin, hne⟩
  rw [toList_path]
  simp [hmem]

/-- The paths of separate datasets are apart. -/
theorem Separate.apart {files : FilesystemStorageBackend} (h : Separate files.root X Y)
    (kind kind' : String) (i j : ℕ) :
    files.Apart (chunkKey kind X i).path (chunkKey kind' Y j).path := by
  intro p q hp hpne hq hqne
  obtain ⟨rfl, hplaced⟩ := placed_of_resolve hp hpne
  obtain ⟨rfl, hplaced'⟩ := placed_of_resolve hq hqne
  exact h i j hplaced hplaced'

/-! ### Calls about another dataset -/

@[simp] theorem hashCache_completeIf {registry : DataStore} {full : Bool} {now : ℚ} :
    (registry.completeIf full key now).1.hashCache = registry.hashCache := by
  unfold DataStore.completeIf DataStore.completeUpload
  split_ifs <;> rfl

/-- What a chunk that is stored leaves. -/
theorem storeChunk_ok {index : ℤ} {data : List UInt8} {now : ℚ} {events : List DataEvent}
    {record : DataRecord} (h : s.storeChunk B key index data now = .ok (t, events, record)) :
    0 ≤ index ∧ s.files.put (chunkPath record key index) data = .ok t.files ∧
      t.registry.catalog = s.registry.catalog ∧ t.registry.hashCache = s.registry.hashCache := by
  unfold storeChunk at h
  rcases hrecord : s.registry.catalog.lookup key with _ | record' <;> rw [hrecord] at h
  · cases h
  dsimp only at h
  split_ifs at h with hrange hzero hlength hkind
  rcases hput : s.files.put (chunkPath record' key index) data with e | files <;> rw [hput] at h <;>
    cases h
  refine ⟨by omega, hput, ?_, ?_⟩
  · simp
  · simp

/-- What a chunk that is appended leaves. -/
theorem appendChunk_ok {data : List UInt8} {n : ℕ} (h : s.appendChunk B key data = .ok (t, n)) :
    ∃ kind, s.files.put (chunkKey kind key n).path data = .ok t.files ∧
      t.registry.catalog = s.registry.catalog ∧ t.registry.hashCache = s.registry.hashCache := by
  unfold appendChunk at h
  rcases hstream : s.registry.openStreams.lookup key with _ | stream <;> rw [hstream] at h
  · cases h
  dsimp only at h
  split_ifs at h with hkind
  rcases hput : s.files.put (chunkKey stream.kind key stream.nextIndex).path data with e | files <;>
    rw [hput] at h <;> cases h
  exact ⟨stream.kind, hput, rfl, rfl⟩

/-- What a deletion leaves. -/
theorem delete_ok {now : ℚ} {events : List DataEvent} (h : s.delete B key now = .ok (t, events)) :
    ∃ record indices, deleteChunks s.files key record indices = .ok t.files ∧
      t.registry.catalog = s.registry.catalog.erase key ∧
      t.registry.hashCache = s.registry.hashCache.erase key := by
  unfold delete at h
  rcases hrecord : s.registry.catalog.lookup key with _ | record <;> rw [hrecord] at h
  · cases h
  dsimp only at h
  rcases hdelete : deleteChunks s.files key record
      (if record.kind ∈ B.kinds then chunkRange record.totalChunks else []) with e | files <;>
    rw [hdelete] at h <;> cases h
  exact ⟨record, _, hdelete, rfl, rfl⟩

/-- The loop of `delete` moves no file of a separate dataset. -/
theorem sameAt_deleteChunks {record : DataRecord} {indices : List ℕ}
    {files files' : FilesystemStorageBackend} (hseparate : Separate files.root X Y)
    (h : deleteChunks files X record indices = .ok files') (kind : String) (i : ℕ) :
    FilesystemStorageBackend.SameAt files files' (chunkKey kind Y i).path := by
  induction indices generalizing files with
  | nil =>
    cases h
    exact .refl _ _
  | cons j indices ih =>
    unfold deleteChunks at h
    rcases hdelete : files.delete (chunkPath record X j) with (raw | raised) | files₁ <;>
      rw [hdelete] at h
    · exact ih hseparate h
    · cases h
    · obtain ⟨-, -, -, hroot⟩ := FilesystemStorageBackend.delete_ok hdelete
      have hsame := FilesystemStorageBackend.sameAt_delete hdelete
        (hseparate.apart record.kind kind j i)
      exact hsame.trans (ih (by rw [hroot]; exact hseparate) h)

/-- The calls that write or delete chunks. -/
def Writes : DataCall → Prop
  | .storeChunk .. | .appendChunk .. | .delete .. => True
  | _ => False

/-- A call that writes or deletes chunks of a dataset moves nothing of a separate one. -/
theorem unmoved_perform {call : DataCall} (hwrites : Writes call) (hne : call.key ≠ Y)
    (hseparate : Separate s.files.root call.key Y) : Unmoved s (s.perform B call) Y := by
  cases call with
  | storeChunk key index data now =>
    rcases hstore : s.storeChunk B key index data now with e | ⟨t, events, record⟩ <;>
      simp only [perform, hstore]
    · exact .refl s Y
    · obtain ⟨hindex, hput, hcatalog, hhash⟩ := storeChunk_ok hstore
      refine ⟨by rw [hcatalog], by rw [hhash], fun kind i => ?_⟩
      have hapart := hseparate.apart record.kind kind index.toNat i
      rw [Int.toNat_of_nonneg hindex] at hapart
      exact FilesystemStorageBackend.sameAt_put hput hapart
  | appendChunk key data =>
    rcases happend : s.appendChunk B key data with e | ⟨t, n⟩ <;> simp only [perform, happend]
    · exact .refl s Y
    · obtain ⟨kind, hput, hcatalog, hhash⟩ := appendChunk_ok happend
      exact ⟨by rw [hcatalog], by rw [hhash], fun kind' i =>
        FilesystemStorageBackend.sameAt_put hput (hseparate.apart kind kind' n i)⟩
  | delete key now =>
    rcases hdelete : s.delete B key now with e | ⟨t, events⟩ <;> simp only [perform, hdelete]
    · exact .refl s Y
    · obtain ⟨record, indices, hchunks, hcatalog, hhash⟩ := delete_ok hdelete
      refine ⟨?_, ?_, fun kind i => sameAt_deleteChunks hseparate hchunks kind i⟩
      · rw [hcatalog]
        exact AList.lookup_erase_ne hne.symm
      · rw [hhash]
        exact AList.lookup_erase_ne hne.symm
  | register => cases hwrites
  | status => cases hwrites
  | openStream => cases hwrites
  | finalizeStream => cases hwrites

/-- A status changes nothing but the cache of hashes. -/
theorem status_ok {st : DataStatus} (h : s.status B key = .ok (t, st)) :
    t.registry.catalog = s.registry.catalog ∧ t.files = s.files := by
  unfold status at h
  rcases hrecord : s.registry.catalog.lookup key with _ | record <;> rw [hrecord] at h <;>
    dsimp only at h
  · cases h
    exact ⟨rfl, rfl⟩
  rcases hpresent : s.present B key record with e | present <;> rw [hpresent] at h <;>
    dsimp only at h
  · cases h
  split_ifs at h with hcomplete
  · unfold verifyHash at h
    rcases hcache : s.registry.hashCache.lookup key with _ | ⟨computed, verified⟩ <;>
      rw [hcache] at h <;> dsimp only at h
    · rcases hhash : s.computeHash B record with e | computed <;> rw [hhash] at h <;> cases h
      exact ⟨rfl, rfl⟩
    · cases h
      exact ⟨rfl, rfl⟩
  · cases h
    exact ⟨rfl, rfl⟩

/-! ### Runs -/

/-- The root stays, and every record is stored under its own name and version. -/
structure Sound (root : List String) (s : FileStore) : Prop where
  root : s.files.root = root
  keyed : s.registry.WellKeyed

/-- A registry without datasets, over an empty root. -/
def init (root : List String) (mkstemp : String → String) : FileStore where
  files := .empty root mkstemp

theorem sound_init : Sound root (init root mkstemp) :=
  ⟨rfl, fun _ _ hnone => nomatch hnone⟩

theorem wellKeyed_insert {catalog : DataCatalog} {registry : DataStore} {record : DataRecord}
    (h : ∀ k r, catalog.lookup k = some r → r.key = k) (hkey : record.key = key)
    (hcatalog : registry.catalog = catalog.insert key record) : registry.WellKeyed := by
  intro k r hr
  rw [hcatalog] at hr
  by_cases hk : k = key
  · subst hk
    rw [AList.lookup_insert] at hr
    cases hr
    exact hkey
  · rw [AList.lookup_insert_ne hk] at hr
    exact h k r hr

theorem sound_deleteChunks {record : DataRecord} {indices : List ℕ}
    {files files' : FilesystemStorageBackend}
    (h : deleteChunks files X record indices = .ok files') : files'.root = files.root := by
  induction indices generalizing files with
  | nil =>
    cases h
    rfl
  | cons j indices ih =>
    unfold deleteChunks at h
    rcases hdelete : files.delete (chunkPath record X j) with (raw | raised) | files₁ <;>
      rw [hdelete] at h
    · exact ih h
    · cases h
    · obtain ⟨-, -, -, hroot⟩ := FilesystemStorageBackend.delete_ok hdelete
      exact (ih h).trans hroot

theorem sound_perform (h : Sound root s) (call : DataCall) : Sound root (s.perform B call) := by
  obtain ⟨hroot, hkeyed⟩ := h
  cases call with
  | register key format kind totalSize chunkBytes now contentHash contentHashAlgo =>
    by_cases hregisters : Dataset.Registers B kind totalSize chunkBytes
    · simp only [perform, DataStore.register_of_registers hregisters]
      let record := DataStore.newRecord key format kind totalSize chunkBytes now contentHash
        contentHashAlgo
      have hcatalog : (s.registry.putRecord key record now).1.catalog =
          s.registry.catalog.insert key record := by
        simp [DataStore.putRecord]
      have hkey : record.key = key := rfl
      exact ⟨hroot, wellKeyed_insert hkeyed hkey hcatalog⟩
    · obtain ⟨e, he⟩ := s.registry.register_refused key format now contentHash contentHashAlgo
        hregisters
      simp only [perform, he]
      exact ⟨hroot, hkeyed⟩
  | delete key now =>
    rcases hdelete : s.delete B key now with e | ⟨t, events⟩ <;> simp only [perform, hdelete]
    · exact ⟨hroot, hkeyed⟩
    · obtain ⟨record, indices, hchunks, hcatalog, -⟩ := delete_ok hdelete
      refine ⟨(sound_deleteChunks hchunks).trans hroot, fun k r hr => ?_⟩
      rw [hcatalog] at hr
      by_cases hk : k = key
      · subst hk
        rw [AList.lookup_erase] at hr
        cases hr
      · rw [AList.lookup_erase_ne hk] at hr
        exact hkeyed k r hr
  | storeChunk key index data now =>
    rcases hstore : s.storeChunk B key index data now with e | ⟨t, events, record⟩ <;>
      simp only [perform, hstore]
    · exact ⟨hroot, hkeyed⟩
    · obtain ⟨-, hput, hcatalog, -⟩ := storeChunk_ok hstore
      obtain ⟨-, -, -, hroot'⟩ := FilesystemStorageBackend.put_ok hput
      exact ⟨hroot'.trans hroot, fun k r hr => hkeyed k r (hcatalog ▸ hr)⟩
  | status key =>
    rcases hstatus : s.status B key with e | ⟨t, st⟩ <;> simp only [perform, hstatus]
    · exact ⟨hroot, hkeyed⟩
    · obtain ⟨hcatalog, hfiles⟩ := status_ok hstatus
      exact ⟨by rw [hfiles, hroot], fun k r hr => hkeyed k r (hcatalog ▸ hr)⟩
  | openStream key format kind chunkBytes => exact ⟨hroot, hkeyed⟩
  | appendChunk key data =>
    rcases happend : s.appendChunk B key data with e | ⟨t, n⟩ <;> simp only [perform, happend]
    · exact ⟨hroot, hkeyed⟩
    · obtain ⟨kind, hput, hcatalog, -⟩ := appendChunk_ok happend
      obtain ⟨-, -, -, hroot'⟩ := FilesystemStorageBackend.put_ok hput
      exact ⟨hroot'.trans hroot, fun k r hr => hkeyed k r (hcatalog ▸ hr)⟩
  | finalizeStream key now =>
    rcases hstream : s.registry.openStreams.lookup key with _ | stream
    · simp only [perform, DataStore.finalizeStream, hstream]
      exact ⟨hroot, hkeyed⟩
    · simp only [perform, DataStore.finalizeStream, hstream]
      have hkey : (DataStore.streamRecord B key stream now).key = key := rfl
      refine ⟨hroot, wellKeyed_insert hkeyed hkey ?_⟩
      unfold DataStore.completeUpload
      split_ifs <;> rfl

theorem sound_of_reach (hreach : Reach (step B) Always (init root mkstemp) s) : Sound root s := by
  refine Reach.invariant (I := Sound root) sound_init (fun s call t h _ hstep => ?_) hreach
  obtain rfl := Option.some.inj hstep
  exact sound_perform h call

/-- In every state reached, no call that writes or deletes chunks of `X` changes what is read of
`Y`, or its status. -/
def Untouched (B : DataBackends) (root : List String) (mkstemp : String → String)
    (X Y : RecordKey) : Prop :=
  ∀ s, Reach (step B) Always (init root mkstemp) s → ∀ call t, call.key = X → Writes call →
    step B s call = some t →
      t.readWhole B Y = s.readWhole B Y ∧
        (t.status B Y).map Prod.snd = (s.status B Y).map Prod.snd

theorem untouched_of_separate (hne : X ≠ Y) (h : Separate root X Y) :
    Untouched B root mkstemp X Y := by
  intro s hreach call t hkey hwrites hstep
  obtain rfl := Option.some.inj hstep
  subst hkey
  obtain ⟨rfl, hkeyed⟩ := sound_of_reach hreach
  have hunmoved := unmoved_perform (B := B) hwrites hne h
  exact ⟨readWhole_congr hunmoved, status_congr hkeyed hunmoved⟩

/-! ### Datasets that are not separate -/

/-- Chunks of one byte. -/
theorem totalChunksFor_one (n : ℕ) : DataRegistry.totalChunksFor (n + 1 : ℕ) 1 = n + 1 := by
  have hsize : (0 : ℤ) < (n + 1 : ℕ) := by omega
  obtain ⟨-, hupper, hlower⟩ := totalChunksFor_spec hsize Int.one_pos
  push_cast at hupper hlower ⊢
  omega

/-- The registration of a dataset of so many chunks of one byte. -/
def bytewise (key : RecordKey) (n : ℕ) : DataCall :=
  .register key "raw" "fs" n 1 0 none "sha256"

/-- The record of such a registration. -/
def bytewiseRecord (key : RecordKey) (n : ℕ) : DataRecord :=
  DataStore.newRecord key "raw" "fs" n 1 0 none "sha256"

theorem perform_bytewise (hfs : "fs" ∈ B.kinds) (s : FileStore) (key : RecordKey) (n : ℕ) :
    (s.perform B (bytewise key n)).registry.catalog =
        s.registry.catalog.insert key (bytewiseRecord key n) ∧
      (s.perform B (bytewise key n)).files = s.files := by
  have hregisters : Dataset.Registers B "fs" n 1 := ⟨hfs, by omega⟩
  unfold bytewise
  simp only [perform, DataStore.register_of_registers hregisters]
  refine ⟨?_, trivial⟩
  simp [DataStore.putRecord, bytewiseRecord]

/-- A dataset of one chunk is read by reading that chunk. -/
theorem readWhole_bytewise (hfs : "fs" ∈ B.kinds)
    (hrecord : s.registry.catalog.lookup key = some (bytewiseRecord key 1)) :
    s.readWhole B key =
      match s.files.get (chunkKey "fs" key (0 : ℕ)).path with
      | .error e => .error e
      | .ok none => .error (.err (DataStore.chunkMissingError key 0))
      | .ok (some data) => .ok data := by
  have hchunks : chunkRange (bytewiseRecord key 1).totalChunks = [0] := by
    have htotal : (bytewiseRecord key 1).totalChunks = 1 := totalChunksFor_one 0
    rw [htotal]
    rfl
  have hread : s.readWhole B key = s.readChunk B key (0 : ℕ) := by
    unfold readWhole
    rw [hrecord]
    dsimp only
    rw [hchunks, List.mapM_cons, List.mapM_nil]
    rcases s.readChunk B key (0 : ℕ) with e | data
    · rfl
    · exact congrArg Except.ok (List.append_nil data)
  have hkind : ¬ (bytewiseRecord key 1).kind ∉ B.kinds := not_not.2 hfs
  rw [hread]
  unfold readChunk
  rw [hrecord]
  dsimp only
  rw [if_neg hkind]
  rfl

/-- What is needed to store a chunk. -/
theorem storeChunk_of_put {record : DataRecord} {index : ℤ} {data : List UInt8} (now : ℚ)
    {files : FilesystemStorageBackend} (hrecord : s.registry.catalog.lookup key = some record)
    (haccepts : Dataset.Accepts B record index data)
    (hput : s.files.put (chunkPath record key index) data = .ok files) :
    ∃ t events, s.storeChunk B key index data now = .ok (t, events, record) ∧ t.files = files := by
  obtain ⟨hlow, hhigh, hzero, hlength, hkind⟩ := haccepts
  have hrange : ¬ (index < 0 ∨ record.totalChunks ≤ index) := by omega
  let stored : FileStore := { s with files := files }
  refine ⟨{ stored with
    registry := (s.registry.completeIf (stored.isFullyPresent record) key now).1 },
    (s.registry.completeIf (stored.isFullyPresent record) key now).2, ?_, rfl⟩
  unfold storeChunk
  rw [hrecord]
  dsimp only
  rw [if_neg hrange, if_neg hzero, if_neg (not_not.2 hlength), if_neg (not_not.2 hkind), hput]

theorem accepts_bytewise (hfs : "fs" ∈ B.kinds) (key : RecordKey) (i : ℕ) :
    Dataset.Accepts B (bytewiseRecord key (i + 1)) i [0] := by
  have htotal : (bytewiseRecord key (i + 1)).totalChunks = i + 1 := totalChunksFor_one i
  refine ⟨by omega, by omega, fun h => ?_, ?_, hfs⟩
  · exact absurd h.2 one_ne_zero
  · have hlast : (i : ℤ) = DataRegistry.totalChunksFor (i + 1 : ℕ) 1 - 1 := by
      rw [totalChunksFor_one]
      omega
    show (1 : ℤ) = expectedChunkLen (i + 1 : ℕ) 1 i
    rw [expectedChunkLen, if_pos hlast]
    push_cast
    ring

theorem resolve_of_placed {files : FilesystemStorageBackend} {kind : String} {i : ℕ}
    (h : BelowRoot files.root key i) :
    files.resolve (chunkKey kind key i).path = .ok (chunkDir files.root key ++ [chunkFile i]) := by
  obtain ⟨hnull, hwithin, -⟩ := h
  have hpath : Char.ofNat 0 ∉ (chunkKey kind key i).path.toList := by
    rw [toList_path]
    simp only [List.mem_append, List.mem_cons, not_or]
    refine ⟨⟨hnull, by decide, fun hmem => ?_⟩, by decide, by simp, fun hmem => ?_⟩
    · rcases mem_repr hmem with h | h <;> exact absurd h (by decide)
    · exact absurd (isDigit_of_mem_padded hmem) (by decide)
  unfold FilesystemStorageBackend.resolve
  rw [if_neg hpath, realpath_chunkKey, if_pos hwithin]

/-- In an empty root nothing lies where a chunk is placed. -/
theorem node_empty {i : ℕ} (h : BelowRoot root key i) :
    (FilesystemStorageBackend.empty root mkstemp).tree.node (chunkDir root key ++ [chunkFile i]) =
      none :=
  if_neg fun hpre => h.2.2 (hpre.eq_of_length_le h.2.1.length_le)

theorem isFile_empty (q : List String) :
    (FilesystemStorageBackend.empty root mkstemp).tree.isFile q = false := by
  unfold FilesystemStorageBackend.empty FileTree.ofDirs FileTree.isFile
  dsimp only
  by_cases hq : q <+: root
  · rw [if_pos hq]
  · rw [if_neg hq]

/-- A chunk that is stored at or above the chunk of another dataset changes what is read of it. -/
theorem not_untouched_of_prefix (hfs : "fs" ∈ B.kinds) (hne : X ≠ Y) {i : ℕ}
    (hX : BelowRoot root X i) (hY : BelowRoot root Y 0)
    (hpre : chunkDir root X ++ [chunkFile i] <+: chunkDir root Y ++ [chunkFile (0 : ℕ)]) :
    ¬ Untouched B root mkstemp X Y := by
  intro huntouched
  let s := ((init root mkstemp).perform B (bytewise Y 1)).perform B (bytewise X (i + 1))
  have hreach : Reach (step B) Always (init root mkstemp) s :=
    (Reach.refl.tail trivial rfl).tail trivial rfl
  obtain ⟨hcatalogY, hfilesY⟩ := perform_bytewise hfs (init root mkstemp) Y 1
  obtain ⟨hcatalogX, hfilesX⟩ := perform_bytewise hfs
    ((init root mkstemp).perform B (bytewise Y 1)) X (i + 1)
  have hfiles : s.files = .empty root mkstemp := hfilesX.trans hfilesY
  have hrecordX : s.registry.catalog.lookup X = some (bytewiseRecord X (i + 1)) := by
    show (FileStore.registry _).catalog.lookup X = _
    rw [hcatalogX, AList.lookup_insert]
  have hrecordY : s.registry.catalog.lookup Y = some (bytewiseRecord Y 1) := by
    show (FileStore.registry _).catalog.lookup Y = _
    rw [hcatalogX, AList.lookup_insert_ne hne.symm, hcatalogY, AList.lookup_insert]
  have hroot : s.files.root = root := by rw [hfiles]; rfl
  have hfree (q : List String) : s.files.tree.isFile q = false := by
    rw [hfiles]
    exact isFile_empty q
  have hempty {key : RecordKey} {n : ℕ} (h : BelowRoot root key n) :
      s.files.tree.node (chunkDir root key ++ [chunkFile n]) = none := by
    rw [hfiles]
    exact node_empty h
  have hresolve {files : FilesystemStorageBackend} (hfiles : files.root = root) {key : RecordKey}
      {n : ℕ} (h : BelowRoot root key n) : files.resolve (chunkKey "fs" key n).path =
        .ok (chunkDir root key ++ [chunkFile n]) := by
    subst hfiles
    exact resolve_of_placed h
  -- nothing is in the way of the chunk of `X`
  have hnode : s.files.tree.node (chunkDir root X ++ [chunkFile i]) ≠ some .dir := by
    rw [hempty hX]
    nofun
  obtain ⟨tree, hwrite⟩ := FileTree.exists_write (fun q _ _ => hfree q) hnode (by simp) [(0 : UInt8)]
  obtain ⟨files, hput, rfl, hroot'⟩ :=
    FilesystemStorageBackend.put_of_write (hresolve hroot hX) hwrite
  obtain ⟨t, events, hstore, htfiles⟩ := storeChunk_of_put 0 hrecordX
    (accepts_bytewise hfs X i) hput
  have hperform : s.perform B (.storeChunk X i [0] 0) = t := by
    simp only [perform, hstore]
  obtain ⟨-, -, hcatalog, -⟩ := storeChunk_ok hstore
  obtain ⟨hsame, -⟩ := huntouched s hreach (.storeChunk X i [0] 0) t rfl trivial
    (congrArg some hperform)
  rw [readWhole_bytewise hfs hrecordY, readWhole_bytewise hfs (by rw [hcatalog, hrecordY])] at hsame
  -- before, the chunk of `Y` is missing
  have hbefore : s.files.get (chunkKey "fs" Y (0 : ℕ)).path = .ok none := by
    have hnone : (chunkDir root Y ++ [chunkFile (0 : ℕ)]).inits.any s.files.tree.isFile = false := by
      rw [List.any_eq_false]
      intro q _
      rw [hfree q]
      exact Bool.false_ne_true
    unfold FilesystemStorageBackend.get
    rw [hresolve hroot hY]
    dsimp only
    unfold FileTree.read
    rw [hempty hY, hnone]
    rfl
  rw [hbefore, htfiles] at hsame
  unfold FilesystemStorageBackend.get at hsame
  rw [hresolve (hroot'.trans hroot) hY] at hsame
  dsimp only at hsame
  by_cases heq : chunkDir root X ++ [chunkFile i] = chunkDir root Y ++ [chunkFile (0 : ℕ)]
  · -- afterwards, it is the chunk of `X`
    rw [← heq, FileTree.read_write_self hwrite] at hsame
    cases hsame
  · -- afterwards, a file stands where a directory would have to be
    rw [FileTree.read_below _ (FileTree.isFile_write_self hwrite) hpre heq] at hsame
    have herror := DataFailure.err.inj (Except.error.inj hsame)
    exact absurd (congrArg AxoError.code herror) (by simp [backendIOError, DataStore.chunkMissingError])

/-- With one chunk of a dataset, all of them are placed. -/
theorem BelowRoot.all {i : ℕ} (h : BelowRoot root key i) (n : ℕ) : BelowRoot root key n := by
  obtain ⟨hnull, hroot, hne⟩ := h
  have hdir : root <+: chunkDir root key :=
    (List.prefix_concat_iff.1 hroot).resolve_left fun heq => hne heq.symm
  refine ⟨hnull, hdir.trans (List.prefix_append _ _), fun heq => ?_⟩
  have hle := hdir.length_le
  have hlength := congrArg List.length heq
  rw [List.length_append, List.length_singleton] at hlength
  omega

/-- If a chunk file of `X` lies at or above one of `Y`, then one lies at or above the first one of
`Y`. -/
theorem exists_prefix_first {i j : ℕ} (hX : BelowRoot root X i) (hY : BelowRoot root Y j)
    (hpre : chunkDir root X ++ [chunkFile i] <+: chunkDir root Y ++ [chunkFile j]) :
    ∃ n, BelowRoot root X n ∧ BelowRoot root Y 0 ∧
      chunkDir root X ++ [chunkFile n] <+: chunkDir root Y ++ [chunkFile (0 : ℕ)] := by
  rcases List.prefix_concat_iff.1 hpre with heq | habove
  · -- the files are in one directory
    have hdir := List.append_inj_left' heq (by rw [List.length_singleton, List.length_singleton])
    refine ⟨0, hX.all 0, hY.all 0, ?_⟩
    rw [hdir]
  · exact ⟨i, hX, hY.all 0, habove.trans (List.prefix_append _ _)⟩

/-- Where the chunks of a name that is a component of a path lie. -/
theorem chunkDir_of_plain (root : List String) (hslash : '/' ∉ key.id.toList) (hempty : key.id ≠ "")
    (hdot : key.id ≠ ".") (hdots : key.id ≠ "..") :
    chunkDir root key = root ++ [key.id] ++ [key.version.repr] := by
  have hsplit : splitPath (key.id ++ "/") = [key.id] ++ [""] := by
    have hblank : splitPath "" = [""] := splitPath_of_notMem (by simp)
    have hsplit := splitPath_append key.id ""
    rw [String.append_empty, hblank, splitPath_of_notMem hslash] at hsplit
    exact hsplit
  have hhead : (key.id ++ "/").toList.head? ≠ some '/' := by
    rcases hid : key.id.toList with _ | ⟨c, cs⟩
    · exact absurd (String.toList_eq_nil_iff.1 hid) hempty
    · rw [String.toList_append, hid]
      intro heq
      obtain rfl := Option.some.inj heq
      exact hslash (hid ▸ List.mem_cons_self)
  unfold chunkDir realpath
  rw [hsplit, if_neg hhead, List.foldl_append, List.foldl_cons, List.foldl_nil, List.foldl_cons,
    List.foldl_nil, joinComponent_of_ne root hempty hdot hdots]
  rfl

/-- Datasets whose names are components of a path are separate. -/
theorem separate_of_plain (hne : X ≠ Y) (hplain : ∀ key ∈ [X, Y], '/' ∉ key.id.toList ∧ key.id ≠ "" ∧
    key.id ≠ "." ∧ key.id ≠ "..") : Separate root X Y := by
  have hdir (key : RecordKey) (hkey : key ∈ [X, Y]) :
      chunkDir root key = root ++ [key.id] ++ [key.version.repr] := by
    obtain ⟨hslash, hempty, hdot, hdots⟩ := hplain key hkey
    exact chunkDir_of_plain root hslash hempty hdot hdots
  have hdiffer (i j : ℕ) :
      chunkDir root X ++ [chunkFile i] ≠ chunkDir root Y ++ [chunkFile j] := by
    rw [hdir X (by simp), hdir Y (by simp)]
    intro heq
    simp only [List.append_assoc, List.append_cancel_left_eq, List.cons_append, List.nil_append,
      List.cons.injEq] at heq
    obtain ⟨hid, hversion, -⟩ := heq
    have hversion := repr_injective hversion
    cases X
    cases Y
    cases hid
    cases hversion
    exact hne rfl
  have hlength (i j : ℕ) : (chunkDir root X ++ [chunkFile i]).length =
      (chunkDir root Y ++ [chunkFile j]).length := by
    rw [hdir X (by simp), hdir Y (by simp)]
    simp
  intro i j _ _
  constructor
  · intro hpre
    exact hdiffer i j (hpre.eq_of_length (hlength i j).symm).symm
  · intro hpre
    exact hdiffer i j (hpre.eq_of_length (hlength i j))

/-- Two datasets cannot change each other just when they are separate. -/
theorem untouched_iff (hfs : "fs" ∈ B.kinds) (hne : X ≠ Y) :
    Untouched B root mkstemp X Y ∧ Untouched B root mkstemp Y X ↔ Separate root X Y := by
  constructor
  · rintro ⟨hXY, hYX⟩ i j hX hY
    constructor
    · intro hpre
      obtain ⟨n, hn, hzero, hpre'⟩ := exists_prefix_first hY hX hpre
      exact not_untouched_of_prefix hfs hne.symm hn hzero hpre' hYX
    · intro hpre
      obtain ⟨n, hn, hzero, hpre'⟩ := exists_prefix_first hX hY hpre
      exact not_untouched_of_prefix hfs hne hn hzero hpre' hXY
  · intro h
    exact ⟨untouched_of_separate hne h, untouched_of_separate hne.symm h.symm⟩

open DataHistory (plainBackends)

/-- Two versions of one name. -/
theorem untouched_versions :
    Untouched plainBackends ["srv", "data"] id { id := "a", version := 1 }
        { id := "a", version := 2 } ∧
      Untouched plainBackends ["srv", "data"] id { id := "a", version := 2 }
        { id := "a", version := 1 } :=
  (untouched_iff (by decide) (by decide)).2 (separate_of_plain (by decide) (by decide))

/-- Two names of one directory. -/
theorem touched_dotName : ∃ X Y : RecordKey, X ≠ Y ∧ X.id ≠ "" ∧ Y.id ≠ "" ∧
    ¬ Untouched plainBackends ["srv", "data"] id X Y := by
  refine ⟨{ id := "a", version := 1 }, { id := "./a", version := 1 }, by decide, by decide,
    by decide, ?_⟩
  refine not_untouched_of_prefix (i := 0) (by decide) (by decide) ?_ ?_ ?_
  · unfold BelowRoot
    decide
  · unfold BelowRoot
    decide
  · decide

end FileStore

end Axo
