import Axo.Data.SharedStorage

/-!
# The status of a dataset over files

When `status` returns, and what it says, for a registry over a file system with any names in its
catalog.

* `hasChunk` is whether the file of a chunk is there, and `chunksHere` are the chunks of which it is;
* `Addressable` says that no path of a chunk has a null character, which `os.path.realpath` would
  refuse with an exception;
* `status_isOk_iff` is when a status returns, and `status_result` what it says and leaves.
-/

namespace Axo

namespace FileStore

variable (B : DataBackends) (s : FileStore) (record : DataRecord)

/-- The file of the chunk is there. -/
def hasChunk (i : ℕ) : Bool :=
  match s.files.existsAt (chunkPath record record.key i) with
  | .ok found => found
  | .error _ => false

/-- The chunks of the record whose files are there. -/
def chunksHere : List ℕ :=
  if record.kind ∈ B.kinds then (chunkRange record.totalChunks).filter fun i => s.hasChunk record i
  else []

/-- What is read of a chunk. -/
def chunkData (i : ℕ) : Option (List UInt8) :=
  match s.files.get (chunkPath record record.key i) with
  | .ok data => data
  | .error _ => none

/-- Every chunk of the record is there. -/
def CompleteHere : Prop := ((s.chunksHere B record).length : ℤ) = record.totalChunks

instance : Decidable (s.CompleteHere B record) := inferInstanceAs (Decidable (_ = _))

/-- The hash of the record is there, or can be computed. -/
def Hashed : Prop :=
  (s.registry.hashCache.lookup record.key).isSome ∨
    (B.newHash record.contentHashAlgo).isSome ∧ record.kind ∈ B.kinds

instance : Decidable (s.Hashed B record) := inferInstanceAs (Decidable (_ ∨ _))

/-- The paths of the chunks are paths. -/
def Addressable : Prop :=
  record.kind ∈ B.kinds → 0 < record.totalChunks → Char.ofNat 0 ∉ record.name.toList

instance : Decidable (Addressable B record) := inferInstanceAs (Decidable (_ → _))

variable {B s record} {t : FileStore} {key : RecordKey}

/-! ### Paths -/

theorem null_mem_path {kind : String} {i : ℕ} :
    Char.ofNat 0 ∈ (chunkKey kind key i).path.toList ↔ Char.ofNat 0 ∈ key.id.toList := by
  have hversion : Char.ofNat 0 ∉ key.version.repr.toList := fun hmem => by
    rcases mem_repr hmem with h | h <;> exact absurd h (by decide)
  have hindex : Char.ofNat 0 ∉ (padded (i : ℤ)).toList := fun hmem =>
    absurd (isDigit_of_mem_padded hmem) (by decide)
  have hslash : Char.ofNat 0 ≠ '/' := by decide
  have hfile : Char.ofNat 0 ∉ "chunk_".toList := by decide
  rw [toList_path]
  simp only [List.mem_append, List.mem_cons, hversion, hindex, hslash, hfile, or_false]

/-- A chunk file lies at or above another one of the dataset only when it is the same. -/
theorem eq_of_prefix_chunk {root : List String} {i j : ℕ}
    (h : chunkDir root key ++ [chunkFile i] <+: chunkDir root key ++ [chunkFile j]) : i = j := by
  have heq := List.append_cancel_left (h.eq_of_length (by simp))
  have hfile : "chunk_" ++ padded i = "chunk_" ++ padded j := List.singleton_inj.1 heq
  exact padded_injective (String.append_right_inj _ |>.1 hfile)

theorem mem_chunksHere {i : ℕ} :
    i ∈ s.chunksHere B record ↔
      record.kind ∈ B.kinds ∧ (i : ℤ) < record.totalChunks ∧ s.hasChunk record i = true := by
  unfold chunksHere
  split_ifs with hkind
  · rw [List.mem_filter, mem_chunkRange, and_iff_right hkind]
  · exact iff_of_false List.not_mem_nil fun h => hkind h.1

theorem nodup_chunksHere : (s.chunksHere B record).Nodup := by
  unfold chunksHere
  split_ifs
  · exact List.nodup_range.filter _
  · exact List.nodup_nil

theorem completeHere_iff (hkind : record.kind ∈ B.kinds) :
    s.CompleteHere B record ↔ 0 ≤ record.totalChunks ∧
      ∀ i : ℕ, (i : ℤ) < record.totalChunks → s.hasChunk record i = true := by
  unfold CompleteHere chunksHere
  rw [if_pos hkind]
  have hle := List.length_filter_le (fun i => s.hasChunk record i) (chunkRange record.totalChunks)
  have hlength : (chunkRange record.totalChunks).length = record.totalChunks.toNat :=
    List.length_range
  constructor
  · intro heq
    have hnonneg : 0 ≤ record.totalChunks := by omega
    have hall : ((chunkRange record.totalChunks).filter fun i => s.hasChunk record i).length =
        (chunkRange record.totalChunks).length := by omega
    exact ⟨hnonneg, fun i hi => List.length_filter_eq_length_iff.1 hall i (mem_chunkRange.2 hi)⟩
  · rintro ⟨hnonneg, hall⟩
    rw [List.length_filter_eq_length_iff.2 fun i hi => hall i (mem_chunkRange.1 hi)]
    omega

/-- A chunk that is there can be read. -/
theorem get_of_hasChunk {i : ℕ} (h : s.hasChunk record i = true) :
    ∃ data, s.files.get (chunkPath record record.key i) = .ok (some data) := by
  unfold hasChunk FilesystemStorageBackend.existsAt at h
  unfold FilesystemStorageBackend.get
  cases hresolve : s.files.resolve (chunkPath record record.key i) with
  | error e =>
    rw [hresolve] at h
    cases h
  | ok p =>
    rw [hresolve] at h
    dsimp only at h ⊢
    unfold FileTree.isFile at h
    unfold FileTree.read
    cases hnode : s.files.tree.node p with
    | none =>
      rw [hnode] at h
      cases h
    | some node =>
      cases node with
      | dir =>
        rw [hnode] at h
        cases h
      | file data => exact ⟨data, rfl⟩

/-! ### Loops that may raise -/

/-- A filter whose test never fails. -/
theorem filterM_ok {f : ℕ → Except DataFailure Bool} {g : ℕ → Bool} {l : List ℕ}
    (h : ∀ i ∈ l, f i = .ok (g i)) : l.filterM f = .ok (l.filter g) := by
  have haux (acc : List ℕ) : List.filterAuxM f l acc = .ok ((l.filter g).reverse ++ acc) := by
    induction l generalizing acc with
    | nil => rfl
    | cons i l ih =>
      have hrest := ih fun j hj => h j (List.mem_cons_of_mem i hj)
      unfold List.filterAuxM
      rw [h i List.mem_cons_self]
      show List.filterAuxM f l (cond (g i) (i :: acc) acc) = _
      rw [hrest]
      cases hg : g i <;> simp [hg]
  unfold List.filterM
  rw [haux]
  show Except.ok (List.reverse _) = _
  rw [List.append_nil, List.reverse_reverse]

/-- A filter whose test fails for the first element. -/
theorem filterM_error {f : ℕ → Except DataFailure Bool} {e : DataFailure} {i : ℕ} {l : List ℕ}
    (h : f i = .error e) : (i :: l).filterM f = .error e := by
  unfold List.filterM List.filterAuxM
  rw [h]
  rfl

/-- What is asked about a chunk, when its path is one. -/
theorem okOr_existsAt (hname : Char.ofNat 0 ∉ record.name.toList) (i : ℕ) :
    okOr false (s.files.existsAt (chunkPath record record.key i)) = .ok (s.hasChunk record i) := by
  have hnull : Char.ofNat 0 ∉ (chunkPath record record.key i).toList := fun h =>
    hname (null_mem_path.1 h)
  unfold hasChunk FilesystemStorageBackend.existsAt FilesystemStorageBackend.resolve
  rw [if_neg hnull]
  by_cases hwithin : s.files.root <+: realpath s.files.root (chunkPath record record.key i)
  · rw [if_pos hwithin]
    rfl
  · rw [if_neg hwithin]
    rfl

theorem okOr_get (hname : Char.ofNat 0 ∉ record.name.toList) (i : ℕ) :
    okOr none (s.files.get (chunkPath record record.key i)) = .ok (s.chunkData record i) := by
  have hnull : Char.ofNat 0 ∉ (chunkPath record record.key i).toList := fun h =>
    hname (null_mem_path.1 h)
  unfold chunkData FilesystemStorageBackend.get FilesystemStorageBackend.resolve
  rw [if_neg hnull]
  by_cases hwithin : s.files.root <+: realpath s.files.root (chunkPath record record.key i)
  · rw [if_pos hwithin]
    dsimp only
    cases s.files.tree.read (realpath s.files.root (chunkPath record record.key i)) <;> rfl
  · rw [if_neg hwithin]
    rfl

theorem present_of_addressable (h : Addressable B record) :
    s.present B record.key record = .ok (s.chunksHere B record) := by
  unfold present chunksHere
  split_ifs with hkind
  · refine filterM_ok fun i hi => okOr_existsAt (h hkind ?_) i
    have := mem_chunkRange.1 hi
    omega
  · rfl

theorem present_of_not_addressable (h : ¬ Addressable B record) :
    ∃ e, s.present B record.key record = .error e := by
  unfold Addressable at h
  push Not at h
  obtain ⟨hkind, hchunks, hname⟩ := h
  obtain ⟨n, hn⟩ : ∃ n, record.totalChunks.toNat = n + 1 :=
    ⟨record.totalChunks.toNat - 1, by omega⟩
  have hnull : Char.ofNat 0 ∈ (chunkPath record record.key (0 : ℕ)).toList := null_mem_path.2 hname
  have hraises : okOr false (s.files.existsAt (chunkPath record record.key (0 : ℕ))) =
      .error (.raised "ValueError: embedded null byte") := by
    unfold FilesystemStorageBackend.existsAt FilesystemStorageBackend.resolve
    rw [if_pos hnull]
    rfl
  unfold present
  rw [if_pos hkind, chunkRange, hn, List.range_succ_eq_map]
  exact ⟨_, filterM_error hraises⟩

/-! ### Status -/

/-- The hash can be computed of a complete dataset whenever the algorithm is known. -/
theorem computeHash_isOk_iff (haddress : Addressable B record) :
    (∃ computed, s.computeHash B record = .ok computed) ↔
      (B.newHash record.contentHashAlgo).isSome ∧ record.kind ∈ B.kinds := by
  unfold computeHash
  cases B.newHash record.contentHashAlgo with
  | none => simp
  | some hash =>
    dsimp only
    by_cases hkind : record.kind ∈ B.kinds
    · have hread : ((chunkRange record.totalChunks).mapM fun i : ℕ =>
          okOr none (s.files.get (chunkPath record record.key i))) =
            .ok ((chunkRange record.totalChunks).map fun i : ℕ => s.chunkData record i) := by
        refine DataStore.mapM_ok fun i hi => okOr_get (haddress hkind ?_) i
        have := mem_chunkRange.1 hi
        omega
      rw [if_neg (not_not.2 hkind), hread]
      exact iff_of_true ⟨_, rfl⟩ ⟨rfl, hkind⟩
    · rw [if_pos hkind]
      exact iff_of_false (fun ⟨_, h⟩ => by cases h) fun h => hkind h.2

/-- When a status returns. -/
theorem status_isOk_iff (hrecord : s.registry.catalog.lookup record.key = some record) :
    (∃ r, s.status B record.key = .ok r) ↔
      Addressable B record ∧ (s.CompleteHere B record → s.Hashed B record) := by
  unfold status
  rw [hrecord]
  dsimp only
  by_cases haddress : Addressable B record
  swap
  · obtain ⟨e, he⟩ := present_of_not_addressable (s := s) haddress
    rw [he]
    exact iff_of_false (fun ⟨_, h⟩ => by cases h) fun h => haddress h.1
  rw [present_of_addressable haddress, and_iff_right haddress]
  dsimp only
  have hbase : (baseStatus record.key record (s.chunksHere B record)).complete = true ↔
      s.CompleteHere B record := decide_eq_true_iff
  by_cases hcomplete : s.CompleteHere B record
  · rw [if_pos (hbase.2 hcomplete)]
    unfold verifyHash Hashed
    have hcompute := computeHash_isOk_iff (s := s) haddress
    cases s.registry.hashCache.lookup record.key with
    | some e => exact iff_of_true ⟨_, rfl⟩ fun _ => Or.inl rfl
    | none =>
      cases hhash : s.computeHash B record with
      | error e =>
        rw [hhash] at hcompute
        refine iff_of_false (fun ⟨_, h⟩ => by cases h) fun h => ?_
        obtain ⟨_, hknown⟩ := hcompute.2 ((h hcomplete).resolve_left (by simp))
        cases hknown
      | ok computed =>
        rw [hhash] at hcompute
        exact iff_of_true ⟨_, rfl⟩ fun _ => Or.inr (hcompute.1 ⟨computed, rfl⟩)
  · rw [if_neg fun h => hcomplete (hbase.1 h)]
    exact iff_of_true ⟨_, rfl⟩ fun h => absurd h hcomplete

/-- What a status says, and leaves. -/
theorem status_result {st : DataStatus}
    (hrecord : s.registry.catalog.lookup record.key = some record)
    (h : s.status B record.key = .ok (t, st)) :
    st.presentChunkIndices = s.chunksHere B record ∧
      (st.complete = true ↔ s.CompleteHere B record) ∧ t.files = s.files ∧
      t.registry.catalog = s.registry.catalog ∧
      (∀ k, k ≠ record.key → t.registry.hashCache.lookup k = s.registry.hashCache.lookup k) ∧
      ∀ k, (s.registry.hashCache.lookup k).isSome → (t.registry.hashCache.lookup k).isSome := by
  obtain ⟨haddress, -⟩ := (status_isOk_iff hrecord).1 ⟨_, h⟩
  unfold status at h
  rw [hrecord] at h
  dsimp only at h
  rw [present_of_addressable haddress] at h
  dsimp only at h
  have hbase : (baseStatus record.key record (s.chunksHere B record)).complete = true ↔
      s.CompleteHere B record := decide_eq_true_iff
  split_ifs at h with hcomplete
  · unfold verifyHash at h
    cases hcache : s.registry.hashCache.lookup record.key with
    | some e =>
      rw [hcache] at h
      cases h
      exact ⟨rfl, hbase, rfl, rfl, fun k _ => rfl, fun k hk => hk⟩
    | none =>
      rw [hcache] at h
      cases hcompute : s.computeHash B record with
      | error e =>
        rw [hcompute] at h
        cases h
      | ok computed =>
        rw [hcompute] at h
        cases h
        refine ⟨rfl, hbase, rfl, rfl, fun k hk => AList.lookup_insert_ne hk, fun k hk => ?_⟩
        exact AList.lookup_isSome.2 (AList.mem_insert _ |>.2 (Or.inr (AList.lookup_isSome.1 hk)))
  · cases h
    exact ⟨rfl, hbase, rfl, rfl, fun k _ => rfl, fun k hk => hk⟩

theorem chunkData_of_hasChunk {i : ℕ} (h : s.hasChunk record i = true) :
    s.chunkData record i = some ((s.chunkData record i).getD []) := by
  obtain ⟨data, hdata⟩ := get_of_hasChunk h
  unfold chunkData
  rw [hdata]
  rfl

/-- A chunk that is there is read by its index. -/
theorem readChunk_of_hasChunk (hrecord : s.registry.catalog.lookup record.key = some record)
    (hkind : record.kind ∈ B.kinds) {i : ℕ} (h : s.hasChunk record i = true) :
    s.readChunk B record.key i = .ok ((s.chunkData record i).getD []) := by
  obtain ⟨data, hdata⟩ := get_of_hasChunk h
  unfold readChunk chunkData
  rw [hrecord]
  dsimp only
  rw [if_neg (not_not.2 hkind), hdata]
  rfl

/-- What is there is read from the files alone. -/
theorem hasChunk_congr (h : t.files = s.files) : t.hasChunk record = s.hasChunk record := by
  unfold hasChunk
  rw [h]

theorem completeHere_congr (h : t.files = s.files) :
    t.CompleteHere B record ↔ s.CompleteHere B record := by
  unfold CompleteHere chunksHere
  rw [hasChunk_congr h]

end FileStore

end Axo
