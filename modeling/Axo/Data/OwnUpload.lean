import Axo.Data.Dataset

/-!
# A complete dataset is its own upload

Whether the chunks that `status` reports, and the bytes that `read_whole` gives, are those that
were accepted since the dataset was registered.

* `Dataset.Own` is the invariant: what the backend has under the chunks of the record is what was
  accepted for it, and the lengths of these chunks add up;
* `Dataset.OwnGuard` is what a call needs to keep it: that no chunk of an earlier registration, or
  of another stream, lies where the call puts a record or a chunk;
* `ownUpload_of_reach` is the result for whole runs.
-/

namespace Axo

open Transition

/-- The chunks one after the other. -/
def joinedChunks (chunks : Chunks) (totalChunks : ℤ) : List UInt8 :=
  (chunkRange totalChunks).flatMap fun i => (chunks i).getD []

/-- Chunks that agree in their lengths make up the same length. -/
theorem length_joined_congr {chunks chunks' : Chunks} {totalChunks : ℤ}
    (h : ∀ i : ℕ, (i : ℤ) < totalChunks →
      ((chunks i).getD []).length = ((chunks' i).getD []).length) :
    (joinedChunks chunks totalChunks).length = (joinedChunks chunks' totalChunks).length := by
  unfold joinedChunks
  rw [List.length_flatMap, List.length_flatMap]
  congr 1
  exact List.map_congr_left fun i hi => h i (mem_chunkRange.1 hi)

/-- One chunk more at the end. -/
theorem joinedChunks_succ (chunks : Chunks) (n : ℕ) :
    joinedChunks chunks ((n : ℤ) + 1) = joinedChunks chunks n ++ (chunks n).getD [] := by
  have hrange : chunkRange ((n : ℤ) + 1) = chunkRange n ++ [n] := by
    unfold chunkRange
    rw [show ((n : ℤ) + 1).toNat = n + 1 by omega, Int.toNat_natCast, List.range_succ]
  unfold joinedChunks
  rw [hrange, List.flatMap_append]
  simp

/-- Chunks of the expected lengths make up the whole size. -/
theorem length_joined_expected {chunks : Chunks} {totalSize chunkBytes : ℤ}
    (hpos : 0 < DataRegistry.totalChunksFor totalSize chunkBytes)
    (hlength : ∀ i : ℕ, (i : ℤ) < DataRegistry.totalChunksFor totalSize chunkBytes →
      (((chunks i).getD []).length : ℤ) = expectedChunkLen totalSize chunkBytes i) :
    ((joinedChunks chunks (DataRegistry.totalChunksFor totalSize chunkBytes)).length : ℤ) =
      totalSize := by
  unfold joinedChunks
  rw [List.length_flatMap, Nat.cast_list_sum, List.map_map]
  refine Eq.trans ?_ (sum_expectedChunkLen hpos)
  congr 1
  exact List.map_congr_left fun i hi => hlength i (mem_chunkRange.1 hi)

namespace Dataset

variable (B : DataBackends)

/-- The lengths of the accepted chunks fit the size of the record: each is the expected one, or all
chunks are there and make up the size. -/
def Sized (record : DataRecord) (accepted : Chunks) : Prop :=
  (record.totalChunks = DataRegistry.totalChunksFor record.totalSize record.chunkBytes ∧
    (record.totalChunks = 0 → record.totalSize = 0) ∧
    ∀ i data, accepted i = some data →
      (data.length : ℤ) = expectedChunkLen record.totalSize record.chunkBytes i) ∨
  ((∀ i : ℕ, (i : ℤ) < record.totalChunks → (accepted i).isSome) ∧
    ((joinedChunks accepted record.totalChunks).length : ℤ) = record.totalSize)

/-- What the backend has for the record is what was accepted for it. -/
structure OwnRecord (record : DataRecord) (chunks : String → Chunks) (accepted : Chunks) :
    Prop where
  kind : record.kind ∈ B.kinds
  hash : (B.newHash record.contentHashAlgo).isSome
  own : ∀ i : ℕ, (i : ℤ) < record.totalChunks → chunks record.kind i = accepted i
  within : ∀ i : ℕ, (accepted i).isSome → (i : ℤ) < record.totalChunks
  sized : Sized record accepted

/-- The stream has appended the chunks that it counts. -/
structure OwnStream (stream : OpenStream) (streamed : Chunks) : Prop where
  counted : ∀ i : ℕ, (streamed i).isSome ↔ i < stream.nextIndex
  sized : (joinedChunks streamed stream.nextIndex).length = stream.totalSize

/-- The invariant. -/
structure Own (d : Dataset) : Prop where
  record : ∀ record, d.record = some record → OwnRecord B record d.chunks d.accepted
  unregistered : d.record = none → ∀ i, d.accepted i = none
  stream : ∀ stream, d.stream = some stream → OwnStream stream d.streamed

/-- What a call needs so that it does not take up the chunks of another upload. -/
def OwnGuard (d : Dataset) : DataCall → Prop
  | .register _ _ kind totalSize chunkBytes _ _ contentHashAlgo =>
    Registers B kind totalSize chunkBytes →
      (DataRegistry.totalChunksFor totalSize chunkBytes = 0 → totalSize = 0) ∧
        (B.newHash contentHashAlgo).isSome ∧
        ∀ i ∈ chunkRange (DataRegistry.totalChunksFor totalSize chunkBytes),
          d.chunks kind i = none
  | .storeChunk _ index data _ =>
    ∀ record ∈ d.record, Accepts B record index data →
      ∀ old ∈ d.accepted index.toNat, old.length = data.length
  | .appendChunk _ data =>
    ∀ stream ∈ d.stream, ∀ record ∈ d.record, record.kind = stream.kind →
      (stream.nextIndex : ℤ) < record.totalChunks →
        d.chunks record.kind stream.nextIndex = some data
  | .finalizeStream _ _ =>
    ∀ stream ∈ d.stream, stream.kind ∈ B.kinds ∧
      ∀ i ∈ List.range stream.nextIndex, d.chunks stream.kind i = d.streamed i
  | .delete .. | .status _ | .openStream .. => True

instance (d : Dataset) (call : DataCall) : Decidable (d.OwnGuard B call) := by
  cases call <;> unfold OwnGuard <;> infer_instance

variable {B} {d : Dataset} {record : DataRecord} {stream : OpenStream}

/-- When all chunks are there, they make up the size. -/
theorem Sized.length_joined {accepted : Chunks} (h : Sized record accepted)
    (hnonneg : 0 ≤ record.totalChunks)
    (hall : ∀ i : ℕ, (i : ℤ) < record.totalChunks → (accepted i).isSome) :
    ((joinedChunks accepted record.totalChunks).length : ℤ) = record.totalSize := by
  rcases h with ⟨hchunks, hzero, hlength⟩ | ⟨-, hlength⟩
  · rcases hnonneg.eq_or_lt with hnone | hpos
    · rw [hzero hnone.symm, ← hnone]
      rfl
    · rw [hchunks] at hpos hall ⊢
      refine length_joined_expected hpos fun i hi => ?_
      obtain ⟨data, hdata⟩ := Option.isSome_iff_exists.1 (hall i hi)
      rw [hdata, Option.getD_some, hlength i data hdata]
  · exact hlength

/-! ### The steps -/

theorem own_empty (B : DataBackends) : empty.Own B := by
  refine ⟨fun record hrecord => ?_, fun _ _ => rfl, fun stream hstream => ?_⟩
  · cases hrecord
  · cases hstream

theorem own_register (h : d.Own B) {key : RecordKey} {format kind : String}
    {totalSize chunkBytes : ℤ} {now : ℚ} {contentHash : Option String} {contentHashAlgo : String}
    (hguard : d.OwnGuard B (.register key format kind totalSize chunkBytes now contentHash
      contentHashAlgo)) :
    (d.apply B (.register key format kind totalSize chunkBytes now contentHash
      contentHashAlgo)).Own B := by
  simp only [apply]
  split_ifs with hregisters
  · obtain ⟨hempty, hhash, hclear⟩ := hguard hregisters
    refine ⟨fun record hrecord => ?_, fun hnone => ?_, h.stream⟩
    · cases hrecord
      constructor
      · exact hregisters.1
      · exact hhash
      · intro i hi
        exact hclear i (mem_chunkRange.2 hi)
      · intro i hi
        cases hi
      · exact .inl ⟨rfl, hempty, fun i data hi => by cases hi⟩
    · cases hnone
  · exact h

theorem own_delete (h : d.Own B) {key : RecordKey} {now : ℚ} :
    (d.apply B (.delete key now)).Own B := by
  rcases hrecord : d.record with _ | record <;> simp only [apply, hrecord]
  · exact h
  · refine ⟨fun record hrecord => ?_, fun _ _ => rfl, h.stream⟩
    cases hrecord

/-- A chunk in the place of one of the same length, or of none. -/
theorem Sized.update {accepted : Chunks} (h : Sized record accepted) {index : ℕ}
    {data : List UInt8} (hexpected : (data.length : ℤ) =
      expectedChunkLen record.totalSize record.chunkBytes index)
    (hindex : (index : ℤ) < record.totalChunks)
    (hsame : ∀ old ∈ accepted index, old.length = data.length) :
    Sized record (Function.update accepted index (some data)) := by
  rcases h with ⟨hchunks, hzero, hlength⟩ | ⟨hall, hlength⟩
  · refine .inl ⟨hchunks, hzero, fun i data' hi => ?_⟩
    by_cases hi' : i = index
    · subst hi'
      rw [Function.update_self] at hi
      cases hi
      exact hexpected
    · rw [Function.update_of_ne hi'] at hi
      exact hlength i data' hi
  · refine .inr ⟨fun i hi => ?_, ?_⟩
    · by_cases hi' : i = index
      · subst hi'
        rw [Function.update_self]
        rfl
      · rw [Function.update_of_ne hi']
        exact hall i hi
    · rw [← hlength]
      congr 1
      refine length_joined_congr fun i _ => ?_
      by_cases hi' : i = index
      · subst hi'
        obtain ⟨old, hold⟩ := Option.isSome_iff_exists.1 (hall i hindex)
        rw [Function.update_self, hold]
        exact (hsame old hold).symm
      · rw [Function.update_of_ne hi']

theorem own_storeChunk (h : d.Own B) {key : RecordKey} {index : ℤ} {data : List UInt8} {now : ℚ}
    (hguard : d.OwnGuard B (.storeChunk key index data now)) :
    (d.apply B (.storeChunk key index data now)).Own B := by
  rcases hrecord : d.record with _ | record <;> simp only [apply, hrecord]
  · exact h
  split_ifs with haccepts
  · have hown := h.record record hrecord
    have hsame := hguard record hrecord haccepts
    obtain ⟨hlow, hhigh, -, hexpected, hkind⟩ := haccepts
    have hindex : ((index.toNat : ℕ) : ℤ) = index := Int.toNat_of_nonneg hlow
    refine ⟨fun record' hrecord' => ?_, fun hnone => ?_, h.stream⟩
    · obtain rfl : record = record' := Option.some.inj (hrecord.symm.trans hrecord')
      constructor
      · exact hkind
      · exact hown.hash
      · intro i hi
        simp only [stored, write, Function.update_self]
        by_cases hi' : i = index.toNat
        · rw [hi', Function.update_self, Function.update_self]
        · rw [Function.update_of_ne hi', Function.update_of_ne hi']
          exact hown.own i hi
      · intro i hi
        simp only [stored] at hi
        by_cases hi' : i = index.toNat
        · omega
        · rw [Function.update_of_ne hi'] at hi
          exact hown.within i hi
      · exact hown.sized.update (by rw [hindex]; exact hexpected) (by omega) hsame
    · exact absurd (hrecord.symm.trans hnone) (Option.some_ne_none record)
  · exact h

theorem own_openStream (h : d.Own B) {key : RecordKey} {format kind : String} {chunkBytes : ℤ} :
    (d.apply B (.openStream key format kind chunkBytes)).Own B := by
  refine ⟨h.record, h.unregistered, fun stream hstream => ?_⟩
  cases hstream
  exact ⟨fun i => by simp [apply, Chunks.none], rfl⟩

theorem own_appendChunk (h : d.Own B) {key : RecordKey} {data : List UInt8}
    (hguard : d.OwnGuard B (.appendChunk key data)) :
    (d.apply B (.appendChunk key data)).Own B := by
  rcases hstream : d.stream with _ | stream <;> simp only [apply, hstream]
  · exact h
  split_ifs with hkind
  · refine ⟨fun record hrecord => ?_, h.unregistered, fun stream' hstream' => ?_⟩
    · have hown := h.record record hrecord
      refine ⟨hown.kind, hown.hash, fun i hi => ?_, hown.within, hown.sized⟩
      show write d.chunks stream.kind stream.nextIndex data record.kind i = d.accepted i
      rw [← hown.own i hi]
      unfold write
      by_cases hsame : record.kind = stream.kind
      · rw [hsame, Function.update_self]
        by_cases hi' : i = stream.nextIndex
        · -- the chunk of the record that is overwritten
          subst hi'
          rw [Function.update_self, ← hsame]
          exact (hguard stream hstream record hrecord hsame hi).symm
        · rw [Function.update_of_ne hi']
      · rw [Function.update_of_ne hsame]
    · obtain ⟨hcounted, hsized⟩ := h.stream stream hstream
      cases hstream'
      constructor
      · intro i
        simp only [streamedOn]
        by_cases hi : i = stream.nextIndex
        · subst hi
          rw [Function.update_self]
          simp
        · rw [Function.update_of_ne hi, hcounted i]
          omega
      · simp only [streamedOn]
        push_cast
        rw [joinedChunks_succ, List.length_append, Function.update_self, Option.getD_some, ← hsized]
        congr 1
        refine length_joined_congr fun i hi => ?_
        rw [Function.update_of_ne (by omega)]
  · exact h

theorem own_finalizeStream (h : d.Own B) {key : RecordKey} {now : ℚ}
    (hguard : d.OwnGuard B (.finalizeStream key now)) :
    (d.apply B (.finalizeStream key now)).Own B := by
  rcases hstream : d.stream with _ | stream <;> simp only [apply, hstream]
  · exact h
  · obtain ⟨hkind, hsame⟩ := hguard stream hstream
    obtain ⟨hcounted, hsized⟩ := h.stream stream hstream
    refine ⟨fun record hrecord => ?_, fun hnone => ?_, fun _ hnone => ?_⟩
    · cases hrecord
      constructor
      · exact hkind
      · show (B.newHash "sha256").isSome
        rw [DataBackends.newHash, if_pos rfl]
        rfl
      · intro i hi
        exact hsame i (List.mem_range.2 (Int.ofNat_lt.1 hi))
      · intro i hi
        exact Int.ofNat_lt.2 ((hcounted i).1 hi)
      · exact .inr ⟨fun i hi => (hcounted i).2 (Int.ofNat_lt.1 hi), Int.ofNat_inj.2 hsized⟩
    · cases hnone
    · cases hnone

/-- A call that meets the guard keeps the invariant. -/
theorem own_apply (h : d.Own B) {call : DataCall} (hguard : d.OwnGuard B call) :
    (d.apply B call).Own B := by
  cases call with
  | register => exact own_register h hguard
  | delete => exact own_delete h
  | storeChunk => exact own_storeChunk h hguard
  | status => exact h
  | openStream => exact own_openStream h
  | appendChunk => exact own_appendChunk h hguard
  | finalizeStream => exact own_finalizeStream h hguard

end Dataset

/-! ### Reading -/

namespace DataStore

variable {B : DataBackends} {s : DataStore} {key : RecordKey} {record : DataRecord}

/-- A loop that never fails. -/
theorem mapM_ok {β : Type} {f : ℕ → Except DataFailure β} {g : ℕ → β} {l : List ℕ}
    (h : ∀ i ∈ l, f i = .ok (g i)) : l.mapM f = .ok (l.map g) := by
  induction l with
  | nil => rfl
  | cons i l ih =>
    rw [List.mapM_cons, h i List.mem_cons_self, ih fun j hj => h j (List.mem_cons_of_mem i hj)]
    rfl

/-- When every chunk of the record is there, the dataset is read as a whole. -/
theorem readWhole_of_present {chunks : Chunks} (hrecord : s.catalog.lookup key = some record)
    (hkind : record.kind ∈ B.kinds)
    (hall : ∀ i : ℕ, (i : ℤ) < record.totalChunks →
      s.chunk record.kind key i = chunks i ∧ (chunks i).isSome) :
    s.readWhole B key = .ok (joinedChunks chunks record.totalChunks) := by
  have hread (i : ℕ) (hi : i ∈ chunkRange record.totalChunks) :
      s.readChunk B key i = .ok ((chunks i).getD []) := by
    obtain ⟨hchunk, hsome⟩ := hall i (mem_chunkRange.1 hi)
    obtain ⟨data, hdata⟩ := Option.isSome_iff_exists.1 hsome
    unfold readChunk
    rw [hrecord]
    dsimp only
    rw [if_neg (not_not.2 hkind), hchunk, hdata]
    rfl
  unfold readWhole
  rw [hrecord]
  dsimp only
  rw [mapM_ok hread]
  rfl

theorem mem_present {i : ℕ} (hkind : record.kind ∈ B.kinds) :
    i ∈ s.present B key record ↔
      (i : ℤ) < record.totalChunks ∧ (s.chunk record.kind key i).isSome := by
  rw [present, if_pos hkind, List.mem_filter, mem_chunkRange]

/-- A dataset is complete when there are no fewer chunks than the record counts. -/
theorem complete_iff (hkind : record.kind ∈ B.kinds) :
    ((s.present B key record).length : ℤ) = record.totalChunks ↔
      0 ≤ record.totalChunks ∧
        ∀ i : ℕ, (i : ℤ) < record.totalChunks → (s.chunk record.kind key i).isSome := by
  have hlength : (chunkRange record.totalChunks).length = record.totalChunks.toNat := by
    rw [chunkRange, List.length_range]
  have hall : (s.present B key record).length = (chunkRange record.totalChunks).length ↔
      ∀ i : ℕ, (i : ℤ) < record.totalChunks → (s.chunk record.kind key i).isSome := by
    rw [present, if_pos hkind, List.length_filter_eq_length_iff]
    simp only [mem_chunkRange]
  rw [← hall, hlength]
  omega

/-- `status` gives an answer when the hash of the record can be computed. -/
theorem status_eq_ok (hrecord : s.catalog.lookup key = some record) (hkind : record.kind ∈ B.kinds)
    (hhash : (B.newHash record.contentHashAlgo).isSome) :
    ∃ t st, s.status B key = .ok (t, st) ∧
      st.presentChunkIndices = s.present B key record ∧ st.totalChunks = record.totalChunks ∧
      st.totalSize = record.totalSize ∧
      st.complete = decide (((s.present B key record).length : ℤ) = record.totalChunks) := by
  obtain ⟨hash, hnew⟩ := Option.isSome_iff_exists.1 hhash
  unfold status
  rw [hrecord]
  dsimp only
  split_ifs with hcomplete
  · unfold verifyHash computeHash
    rcases hcache : s.hashCache.lookup key with _ | ⟨computed, verified⟩
    · dsimp only
      rw [hnew]
      dsimp only
      rw [if_neg (not_not.2 hkind)]
      exact ⟨_, _, rfl, rfl, rfl, rfl, rfl⟩
    · exact ⟨_, _, rfl, rfl, rfl, rfl, rfl⟩
  · exact ⟨_, _, rfl, rfl, rfl, rfl, rfl⟩

end DataStore

namespace DataHistory

variable (B : DataBackends)

/-- What `status` reports as present are the chunks accepted since the dataset was registered or
finalized; and if it says that the dataset is complete, `read_whole` gives these chunks, which make
up the size. -/
def OwnUpload (h : DataHistory) (key : RecordKey) : Prop :=
  ∃ store st, h.store.status B key = .ok (store, st) ∧
    (∀ i, i ∈ st.presentChunkIndices ↔ (h.accepted key i).isSome) ∧
    (st.complete = true →
      h.store.readWhole B key = .ok (joinedChunks (h.accepted key) st.totalChunks) ∧
        ((joinedChunks (h.accepted key) st.totalChunks).length : ℤ) = st.totalSize)

/-- The guard on the dataset that the call is about. -/
def OwnGuard (h : DataHistory) (call : DataCall) : Prop :=
  (h.dataset call.key).OwnGuard B call

instance (h : DataHistory) (call : DataCall) : Decidable (h.OwnGuard B call) := by
  unfold OwnGuard
  infer_instance

variable {B} {h : DataHistory} {key : RecordKey}

theorem ownUpload_of_own (hown : (h.dataset key).Own B) : h.OwnUpload B key := by
  rcases hrecord : h.store.catalog.lookup key with _ | record
  · have haccepted : ∀ i, h.accepted key i = none := hown.unregistered hrecord
    unfold OwnUpload DataStore.status
    rw [hrecord]
    refine ⟨_, _, rfl, fun i => ?_, fun hcomplete => ?_⟩
    · simp [haccepted i]
    · cases hcomplete
  · obtain ⟨hkind, hhash, hsame, hwithin, hsized⟩ := hown.record record hrecord
    have hsame' : ∀ i : ℕ, (i : ℤ) < record.totalChunks →
        h.store.chunk record.kind key i = h.accepted key i := hsame
    obtain ⟨store, st, hstatus, hpresent, hchunks, hsize, hcomplete⟩ :=
      DataStore.status_eq_ok hrecord hkind hhash
    refine ⟨store, st, hstatus, fun i => ?_, fun hfull => ?_⟩
    · rw [hpresent, DataStore.mem_present hkind]
      constructor
      · rintro ⟨hi, hsome⟩
        rwa [hsame' i hi] at hsome
      · intro hsome
        have hi : (i : ℤ) < record.totalChunks := hwithin i hsome
        exact ⟨hi, by rwa [hsame' i hi]⟩
    · rw [hcomplete, decide_eq_true_eq, DataStore.complete_iff hkind] at hfull
      obtain ⟨hnonneg, hall⟩ := hfull
      have haccepted : ∀ i : ℕ, (i : ℤ) < record.totalChunks → (h.accepted key i).isSome :=
        fun i hi => by rw [← hsame' i hi]; exact hall i hi
      rw [hchunks, hsize]
      exact ⟨DataStore.readWhole_of_present hrecord hkind fun i hi =>
        ⟨hsame' i hi, haccepted i hi⟩, hsized.length_joined hnonneg haccepted⟩

/-- In a run whose calls meet the guard, every dataset is its own upload in every state reached. -/
theorem ownUpload_of_reach (hreach : Reach (step B) (OwnGuard B) {} h) (key : RecordKey) :
    h.OwnUpload B key := by
  have hinv := dataset_invariant (Dataset.own_empty B)
    (fun _ _ hown hguard => Dataset.own_apply hown hguard) hreach
  exact ownUpload_of_own (hinv.2 key)

/-- A file system, and no hash but a length. -/
def plainBackends : DataBackends where
  kinds := ["fs"]
  keyed := by decide
  sha256 := fun data => data.length.repr
  otherHashes := fun _ => none

/-- The key of a dataset. -/
def plainKey : RecordKey := { id := "d", version := 1 }

/-- A registration of the dataset with chunks of two bytes. -/
def plainRegister (totalSize : ℤ) : DataCall :=
  .register plainKey "raw" "fs" totalSize 2 0 none "sha256"

/-- A dataset is uploaded, deleted and uploaded again by a stream. -/
theorem ownUpload_uploadedTwice : ∃ h, Reach (step plainBackends) (OwnGuard plainBackends) {} h ∧
    h.OwnUpload plainBackends plainKey ∧
    h.store.readWhole plainBackends plainKey = .ok [7, 8, 9, 5] := by
  obtain ⟨h, hreach, htest⟩ := exists_reach_of_guarded_run (step plainBackends)
    (OwnGuard plainBackends) {}
    (fun h => decide (joinedChunks (h.accepted plainKey) 2 = [7, 8, 9, 5]) &&
      (match h.store.readWhole plainBackends plainKey with
        | .ok data => decide (data = [7, 8, 9, 5])
        | .error _ => false))
    [plainRegister 3, .storeChunk plainKey 0 [1, 2] 0, .storeChunk plainKey 1 [3] 0,
      .delete plainKey 1, .openStream plainKey "raw" "fs" 2, .appendChunk plainKey [7, 8, 9],
      .appendChunk plainKey [5], .finalizeStream plainKey 2, .status plainKey]
    (by decide +kernel)
  refine ⟨h, hreach, ownUpload_of_reach hreach plainKey, ?_⟩
  simp only [Bool.and_eq_true] at htest
  rcases hread : h.store.readWhole plainBackends plainKey with e | data
  · simp [hread] at htest
  · simp only [hread, decide_eq_true_eq] at htest
    rw [htest.2]

/-- The dataset is registered again with a smaller size, and is complete with the bytes of before. -/
theorem leftoverUpload_reRegistered : ∃ h, Reach (step plainBackends) Always {} h ∧
    ¬ h.OwnUpload plainBackends plainKey := by
  obtain ⟨h, hreach, htest⟩ := exists_reach_of_run (step plainBackends) {}
    (fun h => decide (h.accepted plainKey 0 = none) &&
      (match h.store.status plainBackends plainKey with
        | .ok (_, st) => decide (0 ∈ st.presentChunkIndices)
        | .error _ => false))
    [plainRegister 3, .storeChunk plainKey 0 [1, 2] 0, plainRegister 2]
    (by decide +kernel)
  refine ⟨h, hreach, fun howned => ?_⟩
  obtain ⟨store, st, hstatus, hpresent, -⟩ := howned
  simp only [hstatus, Bool.and_eq_true, decide_eq_true_eq] at htest
  have hsome := (hpresent 0).1 htest.2
  rw [htest.1] at hsome
  cases hsome

end DataHistory

end Axo
