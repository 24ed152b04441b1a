import Axo.Data.DataHandlers

/-!
# The client's upload

`upload_data` of `axo_shared/client.py`, every request of which is answered by one leader.

* the dataset is registered, the leader is asked which chunks it has, and the others are sent;
* `filled` is what lies under the chunks of the new record before the upload, where something lies
  there, and the slice of the data elsewhere;
* `uploaded_iff` says that a successful upload leaves the data if and only if it does not resume or
  `filled` is the data already.
-/

namespace Axo

/-- `_read_chunk` of bytes; a file of the same bytes gives the same. -/
def readChunkOf (data : List UInt8) (chunkIndex chunkBytes totalSize : ℕ) : List UInt8 :=
  let start := chunkIndex * chunkBytes
  let stop := min (start + chunkBytes) totalSize
  (data.take stop).drop start

theorem readChunkOf_eq_slice (data : List UInt8) (i chunkBytes : ℕ) :
    readChunkOf data i chunkBytes data.length = Slices.slice chunkBytes data i := by
  unfold readChunkOf Slices.slice
  rw [List.drop_take, List.take_eq_take_iff, List.length_drop]
  omega

namespace AxoEndpointClient

variable (B : DataBackends) (ownRpcUri : String) (bucketRegistry : Option BucketCatalog)

/-- The envelope of `register_data`, which names no hash here. -/
def registerEnvelope (key : RecordKey) (totalSize chunkBytes : ℕ) (format kind : String) :
    DataEnvelope where
  name := some key.id
  version := some key.version
  format := format
  kind := kind
  totalSize := some totalSize
  chunkBytes := some chunkBytes

/-- The envelope of `data_status`. -/
def statusEnvelope (key : RecordKey) : DataEnvelope where
  name := some key.id
  version := some key.version

/-- The envelope of `put_data_chunk`. -/
def chunkEnvelope (key : RecordKey) (chunkIndex : ℕ) : DataEnvelope where
  name := some key.id
  version := some key.version
  chunkIndex := some chunkIndex

/-- The loop that sends the missing chunks; chunk `i` arrives at `clock (i + 1)`.  There is no
result when a request is not answered. -/
def putChunks (key : RecordKey) (data : List UInt8) (chunkBytes : ℕ) (clock : ℕ → ℚ)
    (s : DataStore) (lastResult : CommandResult) :
    List ℕ → DataStore × Option CommandResult
  | [] => (s, some lastResult)
  | i :: missing =>
    let handled := DataChunkPutHandler.handle B s (chunkEnvelope key i)
      (readChunkOf data i chunkBytes data.length) (clock (i + 1))
    match handled.reply with
    | none => (handled.store, none)
    | some result =>
      if result.ok then putChunks key data chunkBytes clock handled.store result missing
      else (handled.store, some result)

/-- `status_result.metadata.get("present_chunk_indices", [])`, if the request is successful. -/
def presentIn (result : CommandResult) : List Value :=
  if result.ok then
    match result.metadata.lookup "present_chunk_indices" with
    | some (.list indices) => indices
    | _ => []
  else []

/-- The upload once the dataset is registered with so many chunks. -/
def sendChunks (key : RecordKey) (data : List UInt8) (chunkBytes : ℕ) (resume : Bool)
    (clock : ℕ → ℚ) (s : DataStore) (registerResult : CommandResult) (totalChunks : ℤ) :
    DataStore × Option CommandResult :=
  let asked : DataHandled :=
    if resume then DataStatusHandler.handle B s (statusEnvelope key)
    else { store := s, reply := some registerResult }
  match asked.reply with
  | none => (asked.store, none)
  | some result =>
    let present := if resume then presentIn result else []
    let missing := (chunkRange totalChunks).filter fun i : ℕ => Value.int i ∉ present
    if missing = [] then
      let handled := DataStatusHandler.handle B asked.store (statusEnvelope key)
      (handled.store, handled.reply)
    else putChunks B key data chunkBytes clock asked.store registerResult missing

/-- `upload_data`. -/
def uploadData (key : RecordKey) (data : List UInt8) (format kind : String) (chunkBytes : ℕ)
    (resume : Bool) (clock : ℕ → ℚ) (s : DataStore) : DataStore × Option CommandResult :=
  let registered := DataRegisterHandler.handle B ownRpcUri bucketRegistry s
    (registerEnvelope key data.length chunkBytes format kind) (clock 0)
  match registered.reply with
  | none => (registered.store, none)
  | some registerResult =>
    if registerResult.ok = false then (registered.store, some registerResult)
    else
      match registerResult.metadata.lookup "total_chunks" with
      | some (.int totalChunks) =>
        sendChunks B key data chunkBytes resume clock registered.store registerResult totalChunks
      -- `metadata["total_chunks"]` raises
      | _ => (registered.store, none)

/-- What lies under the chunks of the record that is to be registered, and the slices of the data
where nothing does. -/
def filled (s : DataStore) (key : RecordKey) (kind : String) (data : List UInt8) (chunkBytes : ℕ) :
    List UInt8 :=
  (chunkRange (DataRegistry.totalChunksFor data.length chunkBytes)).flatMap fun i : ℕ =>
    (s.chunk kind key i).getD (Slices.slice chunkBytes data i)

variable {B ownRpcUri bucketRegistry} {key : RecordKey} {data : List UInt8} {format kind : String}
  {chunkBytes : ℕ} {resume : Bool} {clock : ℕ → ℚ} {s t : DataStore}
  {lastResult result : CommandResult}

theorem key_envelope {envelope : DataEnvelope} {k : RecordKey} (hname : envelope.name = some key.id)
    (hversion : envelope.version = some key.version) (h : envelope.key = some k) : k = key := by
  obtain ⟨hname', hversion'⟩ := DataEnvelope.key_eq_some h
  obtain ⟨hid, -⟩ := Option.filter_eq_some_iff.1 hname'
  rw [hname] at hid
  rw [hversion] at hversion'
  cases k
  cases key
  cases hid
  cases hversion'
  rfl

/-- The chunks that are sent are stored; the others stay. -/
theorem putChunks_ok {record : DataRecord} {missing : List ℕ}
    (hrecord : s.catalog.lookup key = some record)
    (hsent : putChunks B key data chunkBytes clock s lastResult missing = (t, some result))
    (hok : result.ok = true) :
    t.catalog = s.catalog ∧ ∀ i : ℕ, t.chunk record.kind key i =
      if i ∈ missing then some (Slices.slice chunkBytes data i)
      else s.chunk record.kind key i := by
  induction missing generalizing s lastResult with
  | nil =>
    cases hsent
    exact ⟨rfl, fun i => by simp⟩
  | cons i missing ih =>
    unfold putChunks at hsent
    dsimp only at hsent
    rcases hreply : (DataChunkPutHandler.handle B s (chunkEnvelope key i)
        (readChunkOf data i chunkBytes data.length) (clock (i + 1))).reply with _ | reply <;>
      simp only [hreply] at hsent
    · cases hsent
    by_cases hsuccess : reply.ok = true
    swap
    · rw [if_neg hsuccess] at hsent
      cases hsent
      exact absurd hok hsuccess
    rw [if_pos hsuccess] at hsent
    obtain ⟨k, index, record', hkey, hindex, hrecord', -, hcatalog, hblobs⟩ :=
      DataChunkPutHandler.chunkPut_ok hreply hsuccess
    obtain rfl : k = key := key_envelope rfl rfl hkey
    obtain rfl : record' = record := Option.some.inj (hrecord'.symm.trans hrecord)
    obtain rfl : (i : ℤ) = index := Option.some.inj hindex
    rw [readChunkOf_eq_slice] at hblobs hsent hcatalog
    obtain ⟨hcatalog', hchunks⟩ := ih (by rw [hcatalog, hrecord]) hsent
    refine ⟨hcatalog'.trans hcatalog, fun j => ?_⟩
    rw [hchunks j]
    unfold DataStore.chunk
    rw [hblobs, DataStore.lookup_insert_chunk]
    by_cases hj : j = i
    · subst hj
      simp
    · simp [hj]

/-- The indices that the leader reports as present. -/
theorem mem_presentIn {st : DataStatus} {i : ℕ} :
    Value.int i ∈ presentIn { ok := true, metadata := DataStatusHandler.metadata st } ↔
      i ∈ st.presentChunkIndices := by
  have hlookup : (DataStatusHandler.metadata st).lookup "present_chunk_indices" =
      some (.list (st.presentChunkIndices.map fun i => .int i)) := rfl
  unfold presentIn
  rw [if_pos rfl, hlookup]
  simp

/-- After the upload every chunk is there: the one that the leader had, if the upload resumes, and
else the slice of the data. -/
theorem sendChunks_ok {record : DataRecord} (hname : key.id ≠ "")
    (hrecord : s.catalog.lookup key = some record) (hkind : record.kind ∈ B.kinds)
    (hhash : (B.newHash record.contentHashAlgo).isSome)
    (hsent : sendChunks B key data chunkBytes resume clock s lastResult record.totalChunks =
      (t, some result)) (hok : result.ok = true) :
    t.catalog = s.catalog ∧ ∀ i : ℕ, (i : ℤ) < record.totalChunks →
      t.chunk record.kind key i =
        some (if resume then (s.chunk record.kind key i).getD (Slices.slice chunkBytes data i)
          else Slices.slice chunkBytes data i) := by
  have hkey : (statusEnvelope key).key = some key := by
    simp [DataEnvelope.key, DataEnvelope.requiredName, statusEnvelope, Option.filter, hname]
  -- what is asked for, and which chunks are missing
  obtain ⟨u, answer, missing, hcatalog, hblobs, hmissing, hrest⟩ :
      ∃ (u : DataStore) (answer : CommandResult) (missing : List ℕ), u.catalog = s.catalog ∧
        u.blobs = s.blobs ∧
        (∀ i : ℕ, i ∈ missing ↔ (i : ℤ) < record.totalChunks ∧
          (resume = true → s.chunk record.kind key i = none)) ∧
        (if missing = [] then
          ((DataStatusHandler.handle B u (statusEnvelope key)).store,
            (DataStatusHandler.handle B u (statusEnvelope key)).reply)
        else putChunks B key data chunkBytes clock u lastResult missing) = (t, some result) := by
    cases resume with
    | false =>
      refine ⟨s, lastResult, _, rfl, rfl, fun i => ?_, hsent⟩
      simp
    | true =>
      obtain ⟨st, hreply, hpresent⟩ := DataStatusHandler.reply_eq hkey hrecord hkind hhash
      obtain ⟨hcatalog, hblobs⟩ := DataStatusHandler.unchanged (B := B) s (statusEnvelope key)
      simp only [sendChunks, if_true, hreply] at hsent
      refine ⟨_, { ok := true, metadata := DataStatusHandler.metadata st }, _, hcatalog, hblobs,
        fun i => ?_, hsent⟩
      rw [List.mem_filter, mem_chunkRange, decide_eq_true_eq, mem_presentIn, hpresent,
        DataStore.mem_present hkind]
      refine and_congr_right fun hi => ?_
      rw [not_and, Option.not_isSome_iff_eq_none]
      exact ⟨fun h _ => h hi, fun h _ => h rfl⟩
  have hchunk (i : ℕ) : u.chunk record.kind key i = s.chunk record.kind key i := by
    unfold DataStore.chunk
    rw [hblobs]
  split_ifs at hrest with hnil
  · -- nothing is missing: every chunk was there
    obtain rfl := (Prod.mk.inj hrest).1
    obtain ⟨hcatalog', hblobs'⟩ := DataStatusHandler.unchanged (B := B) u (statusEnvelope key)
    refine ⟨hcatalog'.trans hcatalog, fun i hi => ?_⟩
    have hpresent : ¬ (resume = true → s.chunk record.kind key i = none) := fun h =>
      List.not_mem_nil (hnil ▸ (hmissing i).2 ⟨hi, h⟩)
    obtain ⟨hresume, hsome⟩ := Classical.not_imp.1 hpresent
    obtain ⟨old, hold⟩ := Option.ne_none_iff_exists'.1 hsome
    unfold DataStore.chunk at hold ⊢
    rw [hblobs', hblobs, hold, if_pos hresume, Option.getD_some]
  · obtain ⟨hcatalog', hchunks⟩ := putChunks_ok (by rw [hcatalog, hrecord]) hrest hok
    refine ⟨hcatalog'.trans hcatalog, fun i hi => ?_⟩
    rw [hchunks i, hchunk i]
    by_cases hresume : resume = true
    · rcases hold : s.chunk record.kind key i with _ | old
      · rw [if_pos ((hmissing i).2 ⟨hi, fun _ => hold⟩), if_pos hresume, Option.getD_none]
      · have hnot : i ∉ missing := fun hmem => by
          rw [((hmissing i).1 hmem).2 hresume] at hold
          cases hold
        rw [if_neg hnot, if_pos hresume, Option.getD_some]
    · rw [if_pos ((hmissing i).2 ⟨hi, fun h => absurd h hresume⟩), if_neg hresume]

/-- After a successful upload the new record is there with all its chunks. -/
theorem uploadData_ok
    (hupload : uploadData B ownRpcUri bucketRegistry key data format kind chunkBytes resume clock s =
      (t, some result)) (hok : result.ok = true) :
    0 < chunkBytes ∧ ∃ record, t.catalog.lookup key = some record ∧
      record.totalChunks = DataRegistry.totalChunksFor data.length chunkBytes ∧
      record.kind ∈ B.kinds ∧
      ∀ i : ℕ, (i : ℤ) < record.totalChunks → t.chunk record.kind key i =
        some (if resume then (s.chunk kind key i).getD (Slices.slice chunkBytes data i)
          else Slices.slice chunkBytes data i) := by
  unfold uploadData at hupload
  dsimp only at hupload
  rcases hreply : (DataRegisterHandler.handle B ownRpcUri bucketRegistry s
      (registerEnvelope key data.length chunkBytes format kind) (clock 0)).reply with _ | reply <;>
    simp only [hreply] at hupload
  · cases hupload
  by_cases hfailed : reply.ok = false
  · rw [if_pos hfailed] at hupload
    cases hupload
    rw [hok] at hfailed
    cases hfailed
  rw [if_neg hfailed] at hupload
  obtain ⟨k, totalSize, bytes, haccepts⟩ :=
    DataRegisterHandler.accepts_of_ok hreply (Bool.not_eq_false _ ▸ hfailed)
  rw [DataRegisterHandler.handle_of_accepts haccepts] at hreply hupload
  obtain ⟨hkey, hsize, hbytes, hzero, -, hregisters⟩ := haccepts
  obtain rfl : k = key := key_envelope rfl rfl hkey
  obtain rfl : (data.length : ℤ) = totalSize := Option.some.inj hsize
  obtain rfl : (chunkBytes : ℤ) = bytes := Option.some.inj hbytes
  obtain rfl := Option.some.inj hreply
  have hname : k.id ≠ "" := by
    obtain ⟨-, hne⟩ := Option.filter_eq_some_iff.1 (DataEnvelope.key_eq_some hkey).1
    exact of_decide_eq_true hne
  have hhash : (B.newHash "sha256").isSome := by
    unfold DataBackends.newHash
    rw [if_pos rfl]
    rfl
  let record := DataStore.newRecord k format kind data.length chunkBytes (clock 0) none "sha256"
  have hstored : (s.putRecord k record (clock 0)).1.catalog.lookup k = some record := by
    simp [DataStore.putRecord]
  simp only [DataRegisterHandler.recordOf] at hupload
  obtain ⟨hcatalog, hchunks⟩ := sendChunks_ok hname hstored hregisters.1 hhash hupload hok
  refine ⟨by omega, record, hcatalog ▸ hstored, rfl, hregisters.1, fun i hi => ?_⟩
  rw [hchunks i hi]
  simp [DataStore.putRecord, DataStore.chunk, record, DataStore.newRecord]

/-- A successful upload leaves the data just when it does not resume, or what lies under the chunks
already, with the slices of the data where nothing does, is the data. -/
theorem uploaded_iff
    (hupload : uploadData B ownRpcUri bucketRegistry key data format kind chunkBytes resume clock s =
      (t, some result)) (hok : result.ok = true) :
    t.readWhole B key = .ok data ↔ resume = false ∨ filled s key kind data chunkBytes = data := by
  obtain ⟨hbytes, record, hrecord, htotal, hkind, hchunks⟩ := uploadData_ok hupload hok
  rw [DataStore.readWhole_of_present hrecord hkind fun i hi => ⟨hchunks i hi, rfl⟩, htotal]
  unfold joinedChunks
  cases resume with
  | false => exact iff_of_true (congrArg Except.ok (flatMap_slices hbytes)) (.inl rfl)
  | true => simp [filled]

/-- If what lies there has the lengths that are expected, each chunk has to be the slice. -/
theorem filled_eq_iff (hbytes : 0 < chunkBytes)
    (hlength : ∀ i ∈ chunkRange (DataRegistry.totalChunksFor data.length chunkBytes),
      ∀ old ∈ s.chunk kind key i, (old.length : ℤ) = expectedChunkLen data.length chunkBytes i) :
    filled s key kind data chunkBytes = data ↔
      ∀ i ∈ chunkRange (DataRegistry.totalChunksFor data.length chunkBytes),
        ∀ old ∈ s.chunk kind key i, old = Slices.slice chunkBytes data i := by
  have hsame : ∀ i ∈ chunkRange (DataRegistry.totalChunksFor data.length chunkBytes),
      ((s.chunk kind key i).getD (Slices.slice chunkBytes data i)).length =
        (Slices.slice chunkBytes data i).length := by
    intro i hi
    rcases hold : s.chunk kind key i with _ | old
    · rfl
    · have hslice := length_slice_eq hbytes (mem_chunkRange.1 hi)
      rw [Option.getD_some]
      exact Int.ofNat_inj.1 ((hlength i hi old hold).trans hslice.symm)
  have hwhole := Slices.flatMap_eq_iff_of_length hsame
  rw [flatMap_slices hbytes] at hwhole
  unfold filled
  rw [hwhole]
  refine forall₂_congr fun i _ => ?_
  rcases s.chunk kind key i with _ | old <;> simp

open DataHistory (plainBackends plainKey)

/-- An upload of the dataset in chunks of two bytes. -/
def plainUpload (data : List UInt8) (resume : Bool) (s : DataStore) :
    DataStore × Option CommandResult :=
  uploadData plainBackends "tcp://leader:5555" none plainKey data "raw" "fs" 2 resume (fun _ => 0) s

/-- An upload succeeds, and these bytes are read afterwards. -/
def leaves (outcome : DataStore × Option CommandResult) (bytes : List UInt8) : Bool :=
  match outcome with
  | (t, some result) =>
    result.ok &&
      (match t.readWhole plainBackends plainKey with
        | .ok data => decide (data = bytes)
        | .error _ => false)
  | (_, none) => false

theorem leaves_iff {outcome : DataStore × Option CommandResult} {bytes : List UInt8} :
    leaves outcome bytes = true ↔ ∃ t result, outcome = (t, some result) ∧ result.ok = true ∧
      t.readWhole plainBackends plainKey = .ok bytes := by
  obtain ⟨t, _ | result⟩ := outcome
  · simp [leaves]
  · rcases hread : t.readWhole plainBackends plainKey with e | data <;> simp [leaves, hread]

/-- An upload whose first chunk is there already. -/
theorem uploaded_resumed : ∃ s t result, plainUpload [1, 2, 3] true s = (t, some result) ∧
    s.chunk "fs" plainKey 0 = some [1, 2] ∧
    t.readWhole plainBackends plainKey = .ok [1, 2, 3] := by
  let s : DataStore := { blobs := (∅ : Dict BlobKey _).insert (chunkKey "fs" plainKey 0) [1, 2] }
  have htest : leaves (plainUpload [1, 2, 3] true s) [1, 2, 3] = true := by decide +kernel
  obtain ⟨t, result, hupload, hok, -⟩ := leaves_iff.1 htest
  refine ⟨s, t, result, hupload, rfl, (uploaded_iff hupload hok).2 (.inr ?_)⟩
  decide +kernel

/-- A second upload of other bytes resumes the first one, sends nothing and succeeds. -/
theorem stale_secondUpload : ∃ s t r u r', plainUpload [1, 2] true s = (t, some r) ∧
    r.ok = true ∧ plainUpload [5, 6] true t = (u, some r') ∧ r'.ok = true ∧
    u.readWhole plainBackends plainKey ≠ .ok [5, 6] := by
  have hfirst : leaves (plainUpload [1, 2] true {}) [1, 2] = true := by decide +kernel
  have hsecond : leaves (plainUpload [5, 6] true (plainUpload [1, 2] true {}).1) [1, 2] = true := by
    decide +kernel
  obtain ⟨t, r, hupload, hok, -⟩ := leaves_iff.1 hfirst
  rw [hupload] at hsecond
  obtain ⟨u, r', hupload', hok', hread⟩ := leaves_iff.1 hsecond
  refine ⟨{}, t, r, u, r', hupload, hok, hupload', hok', fun hsame => ?_⟩
  rw [hread] at hsame
  cases hsame

end AxoEndpointClient

end Axo
