import Axo.Data.OwnUpload
import Mathlib.Order.Bounds.Basic

/-!
# A dataset stored as a whole

`register_and_store` of `core/data/registry.py`: the data is cut into slices, and each of them is
stored as a chunk of the record that was registered for the whole.

* the slices have the lengths that `store_chunk` demands (`slices_spec`), so none is refused;
* `storeSlices_ok` is the loop, in which the slices may come in any order and more than once;
* `registerAndStore_roundTrip` is the round trip.
-/

namespace Axo

/-! ### The slices -/

section Slices

variable {data : List UInt8} {chunkBytes : ℕ}

/-- The number of chunks is the least one with which the chunks are long enough. -/
theorem isLeast_totalChunks (hbytes : 0 < chunkBytes) :
    IsLeast {n : ℕ | data.length ≤ n * chunkBytes}
      (DataRegistry.totalChunksFor data.length chunkBytes).toNat := by
  refine ⟨length_le_totalChunks hbytes, fun n hn => ?_⟩
  rcases Nat.eq_zero_or_pos data.length with hzero | hpos
  · rw [hzero, totalChunksFor_nonpos (by simp)]
    exact Nat.zero_le n
  · have hlen : (0 : ℤ) < data.length := by omega
    obtain ⟨hchunks, -, hlower⟩ := totalChunksFor_spec hlen (Int.natCast_pos.2 hbytes)
    have hn : (data.length : ℤ) ≤ n * chunkBytes := by exact_mod_cast hn
    -- one chunk less would leave some of the data out
    by_contra hmore
    have hle : (n : ℤ) ≤ DataRegistry.totalChunksFor data.length chunkBytes - 1 := by omega
    have hmul : (n : ℤ) * chunkBytes ≤
        chunkBytes * (DataRegistry.totalChunksFor data.length chunkBytes - 1) := by
      rw [mul_comm]
      exact mul_le_mul_of_nonneg_left hle (Int.natCast_nonneg chunkBytes)
    linarith

theorem totalChunksFor_nonneg (hbytes : 0 < chunkBytes) :
    0 ≤ DataRegistry.totalChunksFor data.length chunkBytes := by
  rcases Nat.eq_zero_or_pos data.length with hzero | hpos
  · rw [hzero, totalChunksFor_nonpos (by simp)]
  · exact (totalChunksFor_spec (by omega) (Int.natCast_pos.2 hbytes)).1.le

/-- No slice is empty. -/
theorem length_slice_pos (hbytes : 0 < chunkBytes) {i : ℕ}
    (hi : (i : ℤ) < DataRegistry.totalChunksFor data.length chunkBytes) :
    0 < (Slices.slice chunkBytes data i).length := by
  have hshort : i * chunkBytes < data.length := by
    by_contra hlong
    have := (isLeast_totalChunks hbytes).2 (not_lt.1 hlong)
    omega
  rw [Slices.length_slice]
  omega

/-- The slices have the lengths that are expected, and add up to the data. -/
theorem slices_spec (hbytes : 0 < chunkBytes) :
    (∀ i : ℕ, (i : ℤ) < DataRegistry.totalChunksFor data.length chunkBytes →
      ((Slices.slice chunkBytes data i).length : ℤ) =
          expectedChunkLen data.length chunkBytes i ∧
        1 ≤ (Slices.slice chunkBytes data i).length ∧
        (Slices.slice chunkBytes data i).length ≤ chunkBytes) ∧
      ((chunkRange (DataRegistry.totalChunksFor data.length chunkBytes)).map fun i =>
        (Slices.slice chunkBytes data i).length).sum = data.length := by
  refine ⟨fun i hi => ⟨length_slice_eq hbytes hi, length_slice_pos hbytes hi, ?_⟩, ?_⟩
  · rw [Slices.length_slice]
    exact min_le_left _ _
  · have hlen : data.length ≤
        (DataRegistry.totalChunksFor data.length chunkBytes).toNat * chunkBytes :=
      length_le_totalChunks hbytes
    have hwhole := Slices.flatten_slices_eq hlen
    have hlength := congrArg List.length hwhole
    rwa [List.length_flatten, List.map_map] at hlength

end Slices

/-! ### Storing -/

namespace DataStore

variable (B : DataBackends) {s : DataStore} {key : RecordKey} {data : List UInt8} {chunkBytes : ℕ}

/-- The loop of `register_and_store`, over any list of chunks. -/
def storeSlices (key : RecordKey) (data : List UInt8) (chunkBytes : ℕ) (now : ℚ) (s : DataStore) :
    List ℕ → Except DataFailure (DataStore × List DataEvent)
  | [] => .ok (s, [])
  | i :: order =>
    match s.storeChunk B key i (Slices.slice chunkBytes data i) now with
    | .error e => .error e
    | .ok (s, events, _) =>
      (storeSlices key data chunkBytes now s order).map fun r => (r.1, events ++ r.2)

/-- `register_and_store`. -/
def registerAndStore (s : DataStore) (key : RecordKey) (format kind : String) (data : List UInt8)
    (now : ℚ) (chunkBytes : ℕ := 262144) (contentHash : Option String := none)
    (contentHashAlgo : String := "sha256") :
    Except DataFailure (DataStore × List DataEvent × DataRecord) :=
  match s.register B key format kind data.length chunkBytes now contentHash contentHashAlgo with
  | .error e => .error e
  | .ok (s, events, record) =>
    (storeSlices B key data chunkBytes now s (chunkRange record.totalChunks)).map fun r =>
      (r.1, events ++ r.2, record)

/-- `read_whole` gives the data, and `status` says that the dataset is complete. -/
def Stored (s : DataStore) (key : RecordKey) (data : List UInt8) : Prop :=
  s.readWhole B key = .ok data ∧ ∃ t st, s.status B key = .ok (t, st) ∧ st.complete = true

variable {B}

/-- A record for the whole of the data, cut into slices. -/
def ForWhole (record : DataRecord) (data : List UInt8) (chunkBytes : ℕ) : Prop :=
  record.totalSize = data.length ∧ record.chunkBytes = chunkBytes ∧
    record.totalChunks = DataRegistry.totalChunksFor data.length chunkBytes

/-- A slice is stored. -/
theorem storeSlice_ok {record : DataRecord} (now : ℚ) (hbytes : 0 < chunkBytes)
    (hkind : record.kind ∈ B.kinds) (hwhole : ForWhole record data chunkBytes) {j : ℕ}
    (hj : (j : ℤ) < record.totalChunks) (hrecord : s.catalog.lookup key = some record) :
    ∃ t events, s.storeChunk B key j (Slices.slice chunkBytes data j) now =
        .ok (t, events, record) ∧
      t.catalog = s.catalog ∧ ∀ i : ℕ, t.chunk record.kind key i =
        if i = j then some (Slices.slice chunkBytes data j) else s.chunk record.kind key i := by
  obtain ⟨hsize, hchunk, htotal⟩ := hwhole
  have haccepts : Dataset.Accepts B record j (Slices.slice chunkBytes data j) := by
    refine ⟨by omega, hj, ?_, ?_, hkind⟩
    · rw [hchunk]
      omega
    · rw [hsize, hchunk]
      exact length_slice_eq hbytes (htotal ▸ hj)
  refine ⟨_, _, storeChunk_of_accepts hrecord haccepts, by simp [putChunk], fun i => ?_⟩
  have hblobs : (s.putChunk key record j (Slices.slice chunkBytes data j) now).1.blobs =
      s.blobs.insert (chunkKey record.kind key j) (Slices.slice chunkBytes data j) := by
    simp [putChunk]
  have hchunks := congrFun (congrFun (chunks_insert (k := key) hblobs) record.kind) i
  rw [if_pos rfl] at hchunks
  rw [hchunks]
  by_cases hi : i = j
  · simp [Dataset.write, hi]
  · simp [Dataset.write, hi]

/-- Storing slices of the data in a record for the whole. -/
theorem storeSlices_ok {record : DataRecord} (now : ℚ) (hbytes : 0 < chunkBytes)
    (hkind : record.kind ∈ B.kinds) (hwhole : ForWhole record data chunkBytes) {order : List ℕ}
    (horder : ∀ i ∈ order, (i : ℤ) < record.totalChunks)
    (hrecord : s.catalog.lookup key = some record) :
    ∃ t events, storeSlices B key data chunkBytes now s order = .ok (t, events) ∧
      t.catalog = s.catalog ∧ ∀ i : ℕ, t.chunk record.kind key i =
        if i ∈ order then some (Slices.slice chunkBytes data i)
        else s.chunk record.kind key i := by
  induction order generalizing s with
  | nil => exact ⟨s, [], rfl, rfl, fun i => rfl⟩
  | cons j order ih =>
    obtain ⟨u, first, hu, hcatalog, hchunk⟩ :=
      storeSlice_ok now hbytes hkind hwhole (horder j List.mem_cons_self) hrecord
    obtain ⟨t, events, ht, hcatalog', hchunk'⟩ :=
      ih (fun i hi => horder i (List.mem_cons_of_mem j hi)) (hcatalog ▸ hrecord)
    refine ⟨t, first ++ events, ?_, hcatalog'.trans hcatalog, fun i => ?_⟩
    · rw [storeSlices, hu]
      dsimp only
      rw [ht]
      rfl
    · rw [hchunk' i, hchunk i]
      by_cases hi : i ∈ order
      · rw [if_pos hi, if_pos (List.mem_cons_of_mem j hi)]
      · by_cases hij : i = j
        · simp [hij]
        · simp [hi, hij]

/-- Once all the slices are stored, the dataset is there. -/
theorem stored_of_slices {record : DataRecord} (hbytes : 0 < chunkBytes)
    (hkind : record.kind ∈ B.kinds) (hhash : record.contentHashAlgo = "sha256")
    (hwhole : ForWhole record data chunkBytes) (hrecord : s.catalog.lookup key = some record)
    (hchunks : ∀ i : ℕ, (i : ℤ) < record.totalChunks →
      s.chunk record.kind key i = some (Slices.slice chunkBytes data i)) :
    s.Stored B key data := by
  obtain ⟨-, -, htotal⟩ := hwhole
  refine ⟨?_, ?_⟩
  · rw [readWhole_of_present hrecord hkind fun i hi => ⟨hchunks i hi, rfl⟩, htotal]
    exact congrArg Except.ok (flatMap_slices hbytes)
  · have hknown : (B.newHash record.contentHashAlgo).isSome := by
      rw [hhash]
      rfl
    obtain ⟨t, st, hstatus, -, -, -, hcomplete⟩ := status_eq_ok hrecord hkind hknown
    refine ⟨t, st, hstatus, ?_⟩
    rw [hcomplete, decide_eq_true_eq, complete_iff hkind]
    refine ⟨htotal ▸ totalChunksFor_nonneg hbytes, fun i hi => ?_⟩
    rw [hchunks i hi]
    rfl

/-- A dataset that is stored as a whole is there, and its record is the one that was asked for. -/
theorem exists_registerAndStore (s : DataStore) (key : RecordKey) (format : String) {kind : String}
    (data : List UInt8) (now : ℚ) (contentHash : Option String) (hbytes : 0 < chunkBytes)
    (hkind : kind ∈ B.kinds) :
    ∃ t events, s.registerAndStore B key format kind data now chunkBytes contentHash =
        .ok (t, events,
          newRecord key format kind data.length chunkBytes now contentHash "sha256") ∧
      t.Stored B key data ∧
      t.catalog.lookup key =
        some (newRecord key format kind data.length chunkBytes now contentHash "sha256") := by
  let record := newRecord key format kind data.length chunkBytes now contentHash "sha256"
  have hregisters : Dataset.Registers B kind data.length chunkBytes := ⟨hkind, by omega⟩
  have hrecord : (s.putRecord key record now).1.catalog.lookup key = some record := by
    simp [putRecord]
  have hwhole : ForWhole record data chunkBytes := ⟨rfl, rfl, rfl⟩
  have hrange : ∀ i ∈ chunkRange record.totalChunks, (i : ℤ) < record.totalChunks :=
    fun i hi => mem_chunkRange.1 hi
  obtain ⟨t, events, ht, hcatalog, hchunks⟩ :=
    storeSlices_ok now hbytes hkind hwhole hrange hrecord
  have hlookup : t.catalog.lookup key = some record := hcatalog ▸ hrecord
  have hstored : t.Stored B key data :=
    stored_of_slices hbytes hkind rfl hwhole hlookup fun i hi => by
      rw [hchunks i, if_pos (mem_chunkRange.2 hi)]
  refine ⟨t, (s.putRecord key record now).2 ++ events, ?_, hstored, hlookup⟩
  unfold registerAndStore
  rw [register_of_registers hregisters]
  dsimp only
  rw [ht]
  rfl

/-- Whatever the registry held before, a dataset that is stored as a whole, with the hash algorithm
that is used unless another one is named, is there afterwards, and so it is when its slices are
stored in another order, some of them more than once. -/
theorem registerAndStore_roundTrip (B : DataBackends) (s : DataStore) (key : RecordKey)
    (format kind : String) (data : List UInt8) (now : ℚ) (chunkBytes : ℕ)
    (contentHash : Option String) (hbytes : 0 < chunkBytes) (hkind : kind ∈ B.kinds) :
    ∃ registered events record,
      s.register B key format kind data.length chunkBytes now contentHash "sha256" =
        .ok (registered, events, record) ∧
      (0 ≤ record.totalChunks ∧
        IsLeast {n : ℕ | data.length ≤ n * chunkBytes} record.totalChunks.toNat) ∧
      ((∀ i : ℕ, (i : ℤ) < record.totalChunks →
        ((Slices.slice chunkBytes data i).length : ℤ) =
            expectedChunkLen data.length chunkBytes i ∧
          1 ≤ (Slices.slice chunkBytes data i).length ∧
          (Slices.slice chunkBytes data i).length ≤ chunkBytes) ∧
        ((chunkRange record.totalChunks).map fun i =>
          (Slices.slice chunkBytes data i).length).sum = data.length) ∧
      (∃ t events, s.registerAndStore B key format kind data now chunkBytes contentHash =
          .ok (t, events, record) ∧
        t.Stored B key data) ∧
      ∀ order : List ℕ, (∀ i, i ∈ order ↔ (i : ℤ) < record.totalChunks) →
        ∃ t events, storeSlices B key data chunkBytes now registered order = .ok (t, events) ∧
          t.Stored B key data := by
  have hregisters : Dataset.Registers B kind data.length chunkBytes := ⟨hkind, by omega⟩
  let record := newRecord key format kind data.length chunkBytes now contentHash "sha256"
  have hregister : s.register B key format kind data.length chunkBytes now contentHash
      "sha256" = .ok _ :=
    register_of_registers hregisters
  have hrecord : (s.putRecord key record now).1.catalog.lookup key = some record := by
    simp [putRecord]
  have hwhole : ForWhole record data chunkBytes := ⟨rfl, rfl, rfl⟩
  -- in whichever order the slices are stored
  have hstored (order : List ℕ) (horder : ∀ i, i ∈ order ↔ (i : ℤ) < record.totalChunks) :
      ∃ t events,
        storeSlices B key data chunkBytes now (s.putRecord key record now).1 order =
          .ok (t, events) ∧
        t.Stored B key data := by
    obtain ⟨t, events, ht, hcatalog, hchunks⟩ :=
      storeSlices_ok now hbytes hkind hwhole (fun i hi => (horder i).1 hi) hrecord
    refine ⟨t, events, ht, stored_of_slices hbytes hkind rfl hwhole (hcatalog ▸ hrecord) ?_⟩
    intro i hi
    rw [hchunks i, if_pos ((horder i).2 hi)]
  refine ⟨_, _, record, hregister, ⟨totalChunksFor_nonneg hbytes, isLeast_totalChunks hbytes⟩,
    slices_spec hbytes, ?_, hstored⟩
  obtain ⟨t, events, ht, hwhole, -⟩ :=
    s.exists_registerAndStore key format data now contentHash hbytes hkind
  exact ⟨t, events, ht, hwhole⟩

open DataHistory (plainBackends plainKey)

/-- Three bytes in chunks of two. -/
theorem registerAndStore_threeBytes : ∃ t events record,
    registerAndStore plainBackends {} plainKey "raw" "fs" [1, 2, 3] 0 2 = .ok (t, events, record) ∧
      record.totalChunks = 2 ∧ t.readWhole plainBackends plainKey = .ok [1, 2, 3] ∧
      ∃ u st, t.status plainBackends plainKey = .ok (u, st) ∧ st.complete = true := by
  obtain ⟨registered, first, record, hregister, -, -, ⟨t, events, ht, hread, hstatus⟩, -⟩ :=
    registerAndStore_roundTrip plainBackends {} plainKey "raw" "fs" [1, 2, 3] 0 2 none
      (by decide) (by decide)
  cases hregister
  exact ⟨t, events, _, ht, by decide, hread, hstatus⟩

end DataStore

end Axo
