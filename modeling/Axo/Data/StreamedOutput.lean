import Axo.Data.DataIo

/-!
# What a function writes in chunks

Whether `iter_chunks` and `read` give what `write_chunks` was given.

* `parseRegisteredRef_location`: the reference that `write_chunks` makes up names its dataset;
* `Written` is the stream after some of the chunks, `Finished` the dataset after all of them;
* `readsBack_of_keeps`: what is written is read back as long as others keep the dataset;
* `alwaysReadsBack_iff` says when all that others may do keeps it.
-/

namespace Axo

open FileStore

/-! ### The reference -/

theorem rpartitionSlash_append (head : String) {tail : String} (h : '/' ∉ tail.toList) :
    rpartitionSlash (head ++ "/" ++ tail) = (head, tail) := by
  have htext : (head ++ "/" ++ tail).toList = head.toList ++ '/' :: tail.toList := by simp
  have hmem : '/' ∈ (head ++ "/" ++ tail).toList := by simp
  rw [rpartitionSlash, if_pos hmem, htext]
  simp only [Slices.takeWhile_reverse_append_cons h, List.length_append, List.length_cons,
    List.length_reverse, List.reverse_reverse, String.ofList_toList, Prod.mk.injEq, and_true]
  rw [show head.toList.length + (tail.toList.length + 1) - (tail.toList.length + 1) =
    head.toList.length by omega, List.take_left' rfl, String.ofList_toList]

theorem versionOf_repr {version : ℤ} (h : 0 ≤ version) : versionOf version.repr = some version := by
  obtain ⟨n, rfl⟩ := Int.eq_ofNat_of_zero_le h
  have hdigits : ((n : ℤ).repr).toList.all Char.isDigit = true :=
    List.all_eq_true.2 fun c hc => isDigit_of_mem_repr (n := n) hc
  have hne : (n : ℤ).repr ≠ "" := by
    intro hempty
    have hread := intOfStr_repr (n : ℤ)
    rw [hempty] at hread
    exact absurd hread (by simp [intOfStr, strip, decimal])
  rw [versionOf, if_pos ⟨hne, hdigits⟩, intOfStr_repr]

/-- The reference that `write_chunks` makes up is read as its name and version, whatever the name
looks like. -/
theorem parseRegisteredRef_location {key : RecordKey} (hname : key.id ≠ "")
    (hversion : 0 ≤ key.version) : parseRegisteredRef (streamLocation key) = some key := by
  rw [parseRegisteredRef, streamLocation, rpartitionSlash_append _ (slash_notMem_repr _)]
  dsimp only
  rw [if_neg hname, versionOf_repr hversion]
  rfl

/-! ### Writing -/

section RoundTrip

variable {json : JsonLib} {floats : PyFloats} {B : DataBackends} {world : IoWorld}
  {root : List String} {key : RecordKey} {ref : ChunkRef} {format : String} {chunkBytes : ℤ}
  {c : Served} {s t : FileStore}

/-- A stream after some chunks. -/
def streamAfter (format : String) (chunkBytes : ℤ) (chunks : List Frame) : OpenStream where
  format := format
  kind := "fs"
  chunkBytes := chunkBytes
  nextIndex := chunks.length
  totalSize := chunks.flatten.length
  hashed := chunks.flatten

/-- The chunks are stored, and others can be. -/
structure Holds (root : List String) (key : RecordKey) (chunks : List Frame) (s : FileStore) :
    Prop where
  usable : Usable root key s
  node : ∀ i : ℕ, i < chunks.length →
    s.files.tree.node (chunkDir root key ++ [chunkFile i]) = chunks[i]?.map FileNode.file

/-- The stream is open, and has got these chunks. -/
structure Written (root : List String) (format : String) (chunkBytes : ℤ) (key : RecordKey)
    (chunks : List Frame) (s : FileStore) : Prop where
  stream : s.registry.openStreams.lookup key = some (streamAfter format chunkBytes chunks)
  holds : Holds root key chunks s

/-- The dataset is registered, with as many chunks. -/
structure Finished (B : DataBackends) (root : List String) (format : String) (chunkBytes : ℤ)
    (key : RecordKey) (written chunks : List Frame) (s : FileStore) : Prop where
  record : ∃ now, s.registry.catalog.lookup key =
    some (DataStore.streamRecord B key (streamAfter format chunkBytes written) now)
  length : chunks.length = written.length
  holds : Holds root key chunks s

theorem Holds.keep {chunks : List Frame} (h : Holds root key chunks s)
    (hkeep : KeepsDataset root key s t) : Holds root key chunks t :=
  ⟨h.usable.keep hkeep, fun i hi => (hkeep.chunks i).trans (h.node i hi)⟩

theorem Written.keep {chunks : List Frame} (h : Written root format chunkBytes key chunks s)
    (hkeep : KeepsDataset root key s t) : Written root format chunkBytes key chunks t :=
  ⟨hkeep.stream.trans h.stream, h.holds.keep hkeep⟩

theorem Finished.keep {written chunks : List Frame}
    (h : Finished B root format chunkBytes key written chunks s)
    (hkeep : KeepsDataset root key s t) :
    Finished B root format chunkBytes key written chunks t := by
  obtain ⟨now, hrecord⟩ := h.record
  exact ⟨⟨now, hkeep.record.trans hrecord⟩, h.length, h.holds.keep hkeep⟩

/-- A stream is opened, whatever was there before. -/
theorem written_openStream (h : Usable root key s) :
    Written root format chunkBytes key []
      { s with registry := s.registry.openStream key format "fs" chunkBytes } :=
  ⟨AList.lookup_insert _, ⟨h.rooted, h.notDir, h.above⟩, fun i hi => absurd hi (Nat.not_lt_zero i)⟩

/-- One chunk more. -/
theorem written_appendChunk (hplaced : BelowRoot root key 0) (hkind : "fs" ∈ B.kinds)
    {done : List Frame} (chunk : Frame) (h : Written root format chunkBytes key done s) :
    ∃ t index, s.appendChunk B key chunk = .ok (t, index) ∧
      Written root format chunkBytes key (done ++ [chunk]) t := by
  obtain ⟨hstream, husable, hnode⟩ := h
  obtain ⟨files, hput, husable', hchunks⟩ := husable.put hplaced "fs" done.length chunk
  have hfs : (streamAfter format chunkBytes done).kind ∈ B.kinds := hkind
  have hput' : s.files.put (chunkKey (streamAfter format chunkBytes done).kind key
      (streamAfter format chunkBytes done).nextIndex).path chunk = .ok files := hput
  have happend : s.appendChunk B key chunk = .ok ({
      registry := { s.registry with openStreams :=
        s.registry.openStreams.insert key (streamAfter format chunkBytes (done ++ [chunk])) }
      files := files }, done.length) := by
    unfold FileStore.appendChunk
    rw [hstream]
    dsimp only
    rw [if_neg (not_not.2 hfs), hput']
    simp [streamAfter]
  refine ⟨_, _, happend, ?_, ⟨husable'.rooted, husable'.notDir, husable'.above⟩, fun i hi => ?_⟩
  · exact AList.lookup_insert _
  · rw [List.length_append, List.length_singleton] at hi
    show files.tree.node _ = _
    rw [hchunks]
    by_cases hlast : i = done.length
    · rw [if_pos hlast, hlast, List.getElem?_concat_length]
      rfl
    · rw [if_neg hlast, List.getElem?_append_left (by omega)]
      exact hnode i (by omega)

/-- The dataset is registered, whatever was registered before. -/
theorem finished_finalizeStream {chunks : List Frame} (now : ℚ)
    (h : Written root format chunkBytes key chunks s) :
    ∃ registry events record,
      s.registry.finalizeStream B key now = .ok (registry, events, record) ∧
        Finished B root format chunkBytes key chunks chunks { s with registry := registry } := by
  obtain ⟨hstream, husable, hnode⟩ := h
  let record := DataStore.streamRecord B key (streamAfter format chunkBytes chunks) now
  let completed := DataStore.completeUpload { s.registry with
    openStreams := s.registry.openStreams.erase key
    catalog := s.registry.catalog.insert key record } key now
  have hfinalize : s.registry.finalizeStream B key now =
      .ok (completed.1, DataStore.registeredEvent record now :: completed.2, record) := by
    rw [DataStore.finalizeStream, hstream]
  refine ⟨_, _, _, hfinalize, ⟨now, ?_⟩, rfl,
    ⟨husable.rooted, husable.notDir, husable.above⟩, hnode⟩
  show completed.1.catalog.lookup key = _
  rw [DataStore.catalog_completeUpload]
  exact AList.lookup_insert _

/-! ### Reading -/

section Reading

variable {written chunks : List Frame} (hplaced : BelowRoot root key 0) (hkind : "fs" ∈ B.kinds)

theorem map_getD_range (chunks : List Frame) :
    (List.range chunks.length).map (fun i => chunks[i]?.getD []) = chunks := by
  refine List.ext_getElem (by simp) fun i hi hi' => ?_
  simp [hi']

/-- What a status says of the record. -/
theorem status_fields {record : DataRecord} {st : DataStatus}
    (hrecord : s.registry.catalog.lookup key = some record) (h : s.status B key = .ok (t, st)) :
    st.registered = true ∧ st.totalChunks = record.totalChunks ∧
      st.chunkBytes = record.chunkBytes := by
  unfold FileStore.status at h
  rw [hrecord] at h
  dsimp only at h
  rcases hpresent : s.present B key record with e | present <;> rw [hpresent] at h <;>
    dsimp only at h
  · cases h
  split_ifs at h
  · split at h
    · cases h
    · cases h
      exact ⟨rfl, rfl, rfl⟩
  · cases h
    exact ⟨rfl, rfl, rfl⟩

include hplaced in
theorem Holds.get (h : Holds root key chunks s) {i : ℕ} (hi : i < chunks.length) (kind : String) :
    s.files.get (chunkKey kind key i).path = .ok (some (chunks[i]?.getD [])) := by
  refine h.usable.get hplaced ?_ kind
  rw [h.node i hi, List.getElem?_eq_getElem hi]
  rfl

include hplaced hkind

/-- Each chunk is read. -/
theorem Finished.readChunk_eq (h : Finished B root format chunkBytes key written chunks s) {i : ℕ}
    (hi : i < chunks.length) : s.readChunk B key i = .ok (chunks[i]?.getD []) := by
  obtain ⟨now, hrecord⟩ := h.record
  have hfs : (DataStore.streamRecord B key (streamAfter format chunkBytes written) now).kind ∈
      B.kinds := hkind
  unfold FileStore.readChunk
  rw [hrecord]
  dsimp only
  rw [if_neg (not_not.2 hfs), chunkPath, h.holds.get hplaced hi]

/-- The dataset is read as a whole. -/
theorem Finished.readWhole_eq (h : Finished B root format chunkBytes key written chunks s) :
    s.readWhole B key = .ok chunks.flatten := by
  obtain ⟨now, hrecord⟩ := h.record
  have htotal : chunkRange (DataStore.streamRecord B key (streamAfter format chunkBytes written)
      now).totalChunks = List.range chunks.length := by
    rw [h.length]
    rfl
  have hread : (List.range chunks.length).mapM (fun i : ℕ => s.readChunk B key i) =
      .ok ((List.range chunks.length).map fun i => chunks[i]?.getD []) :=
    DataStore.mapM_ok fun i hi => h.readChunk_eq hplaced hkind (List.mem_range.1 hi)
  unfold FileStore.readWhole
  rw [hrecord]
  dsimp only
  rw [htotal, hread, map_getD_range]
  rfl

/-- The status is asked for; only the cache of hashes may change. -/
theorem Finished.status_eq (h : Finished B root format chunkBytes key written chunks s) :
    ∃ t st, s.status B key = .ok (t, st) ∧ st.registered = true ∧
      st.totalChunks = chunks.length ∧ st.chunkBytes = chunkBytes ∧
      KeepsDataset root key s t := by
  obtain ⟨now, hrecord⟩ := h.record
  let record := DataStore.streamRecord B key (streamAfter format chunkBytes written) now
  have hrecord' : s.registry.catalog.lookup record.key = some record := hrecord
  obtain ⟨⟨t, st⟩, hstatus⟩ := (status_isOk_iff hrecord').2
    ⟨fun _ _ => hplaced.1, fun _ => Or.inr ⟨rfl, hkind⟩⟩
  obtain ⟨hregistered, htotal, hbytes⟩ := status_fields hrecord hstatus
  refine ⟨t, st, hstatus, hregistered, ?_, hbytes, keepsDataset_status hstatus⟩
  rw [htotal, h.length]
  rfl

end Reading

/-! ### The requests are answered -/

/-- A request that is answered. -/
theorem channelRequest_ok {op : IoOp} {data : Option Frame} {answer : Frame}
    (h : (answerIoRequest json floats B (c.met B world) op ref data
      (world.now c.count)).result = some (.ok answer)) :
    channelRequest json floats B world op ref data c =
      .ok (answer, {
        store := (answerIoRequest json floats B (c.met B world) op ref data
          (world.now c.count)).store
        count := c.count + 1 }) := by
  simp only [channelRequest, h]

/-- `open_stream` reads the number that `write_chunks` sends. -/
theorem streamChunkBytes_document (hempty : ∀ v, json.loads "" ≠ .value v)
    (h : json.Faithful (streamDocument chunkBytes)) :
    streamChunkBytes json floats (utf8Encode (json.dumps (streamDocument chunkBytes))) =
      .ok chunkBytes := by
  have hloads : json.loads (json.dumps (streamDocument chunkBytes)) =
      .value (streamDocument chunkBytes) := h
  have hsaid : saidChunkBytes json floats (utf8Encode (json.dumps (streamDocument chunkBytes))) =
      .ok chunkBytes := by
    simp only [saidChunkBytes, decodeText_encode, ok_bind, hloads]
    rfl
  have hne : utf8Encode (json.dumps (streamDocument chunkBytes)) ≠ [] := dumpBlob_ne_nil hempty h
  rw [streamChunkBytes, if_neg hne, hsaid]

/-- What `iter_chunks` makes of the answer to `chunk_status`. -/
theorem totalChunksOf_document {totalChunks : ℤ}
    (h : json.Faithful (statusDocument totalChunks chunkBytes)) :
    totalChunksOf json (utf8Encode (json.dumps (statusDocument totalChunks chunkBytes))) =
      .ok totalChunks := by
  have hloads : json.loads (json.dumps (statusDocument totalChunks chunkBytes)) =
      .value (statusDocument totalChunks chunkBytes) := h
  simp only [totalChunksOf, decodeText_encode, ok_bind, hloads]
  rfl

section Answers

variable (json floats) {written chunks : List Frame}
  (hlocation : parseRegisteredRef ref.location = some key)

include hlocation

/-- Whatever others did before, a stream is open. -/
theorem request_openStream (hempty : ∀ v, json.loads "" ≠ .value v)
    (hjson : json.Faithful (streamDocument chunkBytes)) (hfs : ref.kind = "fs")
    (husable : Usable root key (c.met B world)) :
    ∃ d, channelRequest json floats B world .openStream ref
        (some (utf8Encode (json.dumps (streamDocument chunkBytes)))) c = .ok ([], d) ∧
      d.count = c.count + 1 ∧ Written root ref.format chunkBytes key [] d.store := by
  have hparsed : ¬ parseRegisteredRef ref.location = none := by
    rw [hlocation]
    exact Option.some_ne_none key
  have hopen : answerIoRequest json floats B (c.met B world) .openStream ref
      (some (utf8Encode (json.dumps (streamDocument chunkBytes)))) (world.now c.count) =
      { store := { c.met B world with
          registry := (c.met B world).registry.openStream key ref.format "fs" chunkBytes }
        result := some (.ok []) } := by
    simp only [answerIoRequest, Option.getD_some, openStreamRequest]
    rw [if_neg hparsed, streamChunkBytes_document hempty hjson]
    simp only [resolveIoRequest, hlocation, Option.getD_some, hfs]
    rfl
  refine ⟨_, channelRequest_ok (by rw [hopen]), rfl, ?_⟩
  rw [hopen]
  exact written_openStream husable

/-- The dataset is read as it is found. -/
theorem request_read (hplaced : BelowRoot root key 0) (hkind : "fs" ∈ B.kinds)
    (h : Finished B root format chunkBytes key written chunks (c.met B world)) :
    ∃ d, channelRequest json floats B world .read ref none c = .ok (chunks.flatten, d) := by
  obtain ⟨now, hrecord⟩ := h.record
  have hregistered : registeredKey (c.met B world) ref.toIORef = some key := by
    rw [registeredKey, hlocation]
    exact Option.filter_some_pos (by rw [hrecord]; rfl)
  have hanswer : answerIoRequest json floats B (c.met B world) .read ref none
      (world.now c.count) = { store := c.met B world, result := some (.ok chunks.flatten) } := by
    simp only [answerIoRequest, readRequest, hregistered, h.readWhole_eq hplaced hkind, answered]
  exact ⟨_, channelRequest_ok (by rw [hanswer])⟩

variable (hkeep : KeepsDataset root key c.store (c.met B world)) (hplaced : BelowRoot root key 0)

include hkeep

theorem request_finalizeStream (h : Written root format chunkBytes key chunks c.store) :
    ∃ d, channelRequest json floats B world .finalizeStream ref none c = .ok ([], d) ∧
      d.count = c.count + 1 ∧
      Finished B root format chunkBytes key chunks chunks d.store := by
  obtain ⟨registry, events, record, hfinalize, hfinished⟩ :=
    finished_finalizeStream (B := B) (world.now c.count) (h.keep hkeep)
  have hanswer : answerIoRequest json floats B (c.met B world) .finalizeStream ref none
      (world.now c.count) =
      { store := { c.met B world with registry := registry }
        events := events
        result := some (.ok []) } := by
    simp only [answerIoRequest, resolveIoRequest, hlocation, hfinalize]
    rfl
  refine ⟨_, channelRequest_ok (by rw [hanswer]), rfl, ?_⟩
  rwa [hanswer]

variable (hkind : "fs" ∈ B.kinds)

include hplaced hkind

theorem request_appendChunk (chunk : Frame)
    (h : Written root format chunkBytes key chunks c.store) :
    ∃ answer d, channelRequest json floats B world .appendChunk ref (some chunk) c =
        .ok (answer, d) ∧
      d.count = c.count + 1 ∧
      Written root format chunkBytes key (chunks ++ [chunk]) d.store := by
  obtain ⟨t, index, happend, hwritten⟩ :=
    written_appendChunk hplaced hkind chunk (h.keep hkeep)
  have hanswer : answerIoRequest json floats B (c.met B world) .appendChunk ref (some chunk)
      (world.now c.count) =
      { store := t, result := some (.ok index.repr.toUTF8.toList) } := by
    simp only [answerIoRequest, Option.getD_some, appendChunkRequest, hlocation, happend]
  refine ⟨_, _, channelRequest_ok (by rw [hanswer]), rfl, ?_⟩
  rwa [hanswer]

theorem request_chunkStatus (h : Finished B root format chunkBytes key written chunks c.store) :
    ∃ d, channelRequest json floats B world .chunkStatus ref none c =
        .ok (utf8Encode (json.dumps (statusDocument chunks.length chunkBytes)), d) ∧
      KeepsDataset root key c.store d.store := by
  obtain ⟨t, st, hstatus, hregistered, htotal, hbytes, hsame⟩ :=
    (h.keep hkeep).status_eq hplaced hkind
  have hanswer : answerIoRequest json floats B (c.met B world) .chunkStatus ref none
      (world.now c.count) =
      { store := t
        result := some (.ok (utf8Encode (json.dumps (statusDocument chunks.length
          chunkBytes)))) } := by
    simp only [answerIoRequest, chunkStatusRequest, hlocation, hstatus, hregistered, if_true,
      htotal, hbytes]
  refine ⟨_, channelRequest_ok (by rw [hanswer]), ?_⟩
  rw [hanswer]
  exact hkeep.trans hsame

theorem request_readChunk (h : Finished B root format chunkBytes key written chunks c.store) {i : ℕ}
    (hi : i < chunks.length) :
    ∃ d, channelRequest json floats B world .readChunk { ref with chunkIndex := some i } none c =
        .ok (chunks[i]?.getD [], d) ∧
      KeepsDataset root key c.store d.store := by
  have hanswer : answerIoRequest json floats B (c.met B world) .readChunk
      { ref with chunkIndex := some i } none (world.now c.count) =
      { store := c.met B world, result := some (.ok (chunks[i]?.getD [])) } := by
    simp only [answerIoRequest, readChunkRequest, hlocation,
      (h.keep hkeep).readChunk_eq hplaced hkind hi, answered]
  refine ⟨_, channelRequest_ok (by rw [hanswer]), ?_⟩
  rwa [hanswer]

end Answers

/-! ### One request after the other -/

section Loops

variable (json floats) {written chunks : List Frame}
  (hlocation : parseRegisteredRef ref.location = some key) (hplaced : BelowRoot root key 0)
  (hkind : "fs" ∈ B.kinds)
  (hothers : ∀ c : Served, c.store.files.root = root →
    KeepsDataset root key c.store (c.met B world))

include hlocation hplaced hkind hothers

/-- The loop of `write_chunks`. -/
theorem request_appendChunks (rest : List Frame)
    (h : Written root format chunkBytes key chunks c.store) :
    ∃ d, appendChunks json floats B world ref rest c = .ok d ∧
      Written root format chunkBytes key (chunks ++ rest) d.store := by
  induction rest generalizing c chunks with
  | nil => exact ⟨c, rfl, by rwa [List.append_nil]⟩
  | cons chunk rest ih =>
    obtain ⟨answer, b, hb, -, hwritten⟩ := request_appendChunk json floats hlocation
      (hothers c h.holds.usable.rooted) hplaced hkind chunk h
    obtain ⟨d, hd, hall⟩ := ih hwritten
    refine ⟨d, ?_, by rwa [List.append_cons]⟩
    rw [appendChunks, hb]
    exact hd

/-- The loop of `iter_chunks`. -/
theorem readChunks_eq {indices : List ℕ} (hindices : ∀ i ∈ indices, i < chunks.length)
    (h : Finished B root format chunkBytes key written chunks c.store) :
    ∃ d, readChunks json floats B world ref indices c =
      .ok (indices.map fun i => chunks[i]?.getD [], d) := by
  induction indices generalizing c with
  | nil => exact ⟨c, rfl⟩
  | cons i indices ih =>
    obtain ⟨b, hb, hkeep⟩ := request_readChunk json floats hlocation
      (hothers c h.holds.usable.rooted) hplaced hkind h (hindices i List.mem_cons_self)
    obtain ⟨d, hd⟩ := ih (fun j hj => hindices j (List.mem_cons_of_mem i hj)) (h.keep hkeep)
    refine ⟨d, ?_⟩
    rw [readChunks, hb]
    show (readChunks json floats B world ref indices b >>= _) = _
    rw [hd]
    rfl

/-- What `iter_chunks` yields. -/
theorem iterChunks_eq (hstatus : json.Faithful (statusDocument chunks.length chunkBytes))
    (h : Finished B root format chunkBytes key written chunks c.store) :
    ∃ d, iterChunks json floats B world ref c = .ok (chunks, d) := by
  obtain ⟨b, hb, hkeep⟩ := request_chunkStatus json floats hlocation
    (hothers c h.holds.usable.rooted) hplaced hkind h
  have hindices : ∀ i ∈ chunkRange chunks.length, i < chunks.length := fun i hi =>
    Int.ofNat_lt.1 (mem_chunkRange.1 hi)
  obtain ⟨d, hd⟩ := readChunks_eq json floats hlocation hplaced hkind hothers hindices
    (h.keep hkeep)
  refine ⟨d, ?_⟩
  rw [chunkRange, Int.toNat_natCast, map_getD_range] at hd
  rw [iterChunks, hb]
  simp only [bind, Except.bind, totalChunksOf_document hstatus]
  exact hd

end Loops

/-! ### The round trip -/

variable (json floats B world key format chunkBytes c) in
/-- The chunks are written; they are read one by one and as a whole; and the record has their length
and hash. -/
def ReadsBack (chunks : List Frame) : Prop :=
  ∃ ref d, writeChunks json floats B world key chunks format "fs" chunkBytes c = .ok (ref, d) ∧
    (∃ record, d.store.registry.catalog.lookup key = some record ∧
      record.totalSize = chunks.flatten.length ∧
      record.declaredHash = some (B.sha256 chunks.flatten)) ∧
    (∃ e, iterChunks json floats B world ref d = .ok (chunks, e)) ∧
    ∃ e, channelRequest json floats B world .read ref none d = .ok (chunks.flatten, e)

variable (B) in
/-- Whatever there is when a function starts to write, and whatever others do meanwhile and
later. -/
def AlwaysReadsBack (O : OtherWriters root key) : Prop :=
  ∀ (json : JsonLib) (floats : PyFloats) (world : IoWorld) (chunks : List Frame) (format : String)
    (chunkBytes : ℤ) (c : Served), (∀ v, json.loads "" ≠ .value v) →
    json.Faithful (streamDocument chunkBytes) →
    json.Faithful (statusDocument chunks.length chunkBytes) →
    (∀ n, ∀ act ∈ world.acts n, O.May act) → Usable root key c.store →
      ReadsBack json floats B world key format chunkBytes c chunks

/-- Whatever others do keeps the dataset. -/
theorem keepsDataset_met {O : OtherWriters root key} (hplaced : BelowRoot root key 0)
    (hdirs : ∀ Y ∈ O.keys, BelowRoot root Y 0 → chunkDir root Y ≠ chunkDir root key)
    (hmay : ∀ n, ∀ act ∈ world.acts n, O.May act) (hroot : c.store.files.root = root) :
    KeepsDataset root key c.store (c.met B world) := by
  have hloop (acts : List OtherAct) (hacts : ∀ act ∈ acts, O.May act) (s : FileStore)
      (hroot : s.files.root = root) : KeepsDataset root key s (acts.foldl (performOther B) s) := by
    induction acts generalizing s with
    | nil => exact .refl s
    | cons act acts ih =>
      have hkeep := O.keeps (B := B) hplaced hdirs (hacts act List.mem_cons_self) hroot
      exact hkeep.trans (ih (fun a ha => hacts a (List.mem_cons_of_mem act ha)) _
        (hkeep.rooted.trans hroot))
  exact hloop _ (hmay c.count) c.store hroot

/-- What is written is read back, as long as others keep the dataset. -/
theorem readsBack_of_keeps (json : JsonLib) (floats : PyFloats) {chunks : List Frame}
    (hempty : ∀ v, json.loads "" ≠ .value v) (hstream : json.Faithful (streamDocument chunkBytes))
    (hstatus : json.Faithful (statusDocument chunks.length chunkBytes)) (hkind : "fs" ∈ B.kinds)
    (hlocation : parseRegisteredRef (streamLocation key) = some key)
    (hprintable : Printable key.version) (hplaced : BelowRoot root key 0)
    (hothers : ∀ c : Served, c.store.files.root = root →
      KeepsDataset root key c.store (c.met B world)) (husable : Usable root key c.store) :
    ReadsBack json floats B world key format chunkBytes c chunks := by
  have hat : parseRegisteredRef (streamRef key "fs" format).location = some key := hlocation
  -- one call after the other
  obtain ⟨a, ha, -, hopened⟩ := request_openStream (B := B) json floats hat hempty hstream rfl
    (husable.keep (hothers c husable.rooted))
  obtain ⟨b, hb, hwritten⟩ :=
    request_appendChunks json floats hat hplaced hkind hothers chunks hopened
  obtain ⟨d, hd, -, hfinished⟩ := request_finalizeStream json floats hat
    (hothers b hwritten.holds.usable.rooted) hwritten
  obtain ⟨now, hrecord⟩ := hfinished.record
  have hkeep := hothers d hfinished.holds.usable.rooted
  have hiter := iterChunks_eq json floats hat hplaced hkind hothers hstatus hfinished
  have hread := request_read json floats hat hplaced hkind (hfinished.keep hkeep)
  refine ⟨streamRef key "fs" format, d, ?_, ⟨_, hrecord, rfl, rfl⟩, hiter, hread⟩
  rw [writeChunks, if_pos hprintable]
  show (channelRequest json floats B world .openStream (streamRef key "fs" format)
    (some (utf8Encode (json.dumps (streamDocument chunkBytes)))) c >>= _) = _
  rw [ha]
  show (appendChunks json floats B world (streamRef key "fs" format) chunks a >>= _) = _
  rw [hb]
  show (channelRequest json floats B world .finalizeStream (streamRef key "fs" format) none b >>=
    _) = _
  rw [hd]
  rfl

end RoundTrip

/-! ### A directory for two -/

section Clash

variable {B : DataBackends} {root : List String} {key Y : RecordKey} {s : FileStore}

/-- Somebody else uploads one chunk once a stream of one chunk has been finalized. -/
def lateUpload (Y : RecordKey) : IoWorld where
  acts n := if n = 3 then [.call (bytewise Y 1), .call (.storeChunk Y 0 [0] 0)] else []
  now _ := 0

/-- The documents of a stream of one chunk. -/
def byteJson : JsonLib :=
  jsonTable [(streamDocument 1, "\x7b\"chunk_bytes\": 1\x7d"),
    (statusDocument 1 1, "\x7b\"total_chunks\": 1, \"chunk_bytes\": 1\x7d")]

theorem faithful_streamByte : byteJson.Faithful (streamDocument 1) :=
  jsonTable_faithful (by decide +kernel)

theorem faithful_statusByte : byteJson.Faithful (statusDocument 1 1) :=
  jsonTable_faithful (by decide +kernel)

theorem loads_byteJson : ∀ v, byteJson.loads "" ≠ .value v :=
  jsonTable_loads_empty fun doc hdoc => by
    rcases List.mem_pair.1 hdoc with rfl | rfl <;> decide

/-- An upload to the directory of another dataset puts a chunk in the place of its chunk. -/
theorem finished_lateUpload (hkind : "fs" ∈ B.kinds) (hplaced : BelowRoot root key 0)
    (hdir : chunkDir root Y = chunkDir root key) (hY : BelowRoot root Y 0) (hne : key ≠ Y)
    (h : Finished B root "raw" 1 key [[1]] [[1]] s) :
    Finished B root "raw" 1 key [[1]] [[0]]
      ((s.perform B (bytewise Y 1)).perform B (.storeChunk Y 0 [0] 0)) := by
  -- the registration
  have hregistered : Finished B root "raw" 1 key [[1]] [[1]] (s.perform B (bytewise Y 1)) :=
    h.keep (keepsDataset_register hne)
  obtain ⟨hcatalog, -⟩ := perform_bytewise hkind s Y 1
  generalize s.perform B (bytewise Y 1) = t at hregistered hcatalog ⊢
  obtain ⟨⟨now, hrecord⟩, -, husable, -⟩ := hregistered
  have hlookup : t.registry.catalog.lookup Y = some (bytewiseRecord Y 1) := by
    rw [hcatalog, AList.lookup_insert]
  -- the chunk
  obtain ⟨files, hput, husable', hchunks⟩ := husable.put hplaced "fs" 0 [0]
  obtain ⟨p, hresolve, hwrite, -⟩ := FilesystemStorageBackend.put_ok hput
  have hroot := husable.rooted
  have hresolveY : t.files.resolve (chunkPath (bytewiseRecord Y 1) Y (0 : ℕ)) = .ok p := by
    rw [← hresolve, chunkPath]
    rw [← hroot] at hplaced hY hdir
    rw [resolve_of_placed hplaced, resolve_of_placed hY, hdir]
  obtain ⟨files', hput', htree, hroot'⟩ := FilesystemStorageBackend.put_of_write hresolveY hwrite
  obtain ⟨u, events, hstore, hfiles⟩ :=
    storeChunk_of_put 0 hlookup (accepts_bytewise hkind Y 0) hput'
  have hperform : t.perform B (.storeChunk Y 0 [0] 0) = u := by
    simp only [perform]
    rw [show t.storeChunk B Y 0 [0] 0 = _ from hstore]
  rw [hperform]
  refine ⟨⟨now, ?_⟩, rfl, ⟨?_, fun i => ?_, fun q hq => ?_⟩, fun i hi => ?_⟩
  · rw [(storeChunk_ok hstore).2.2.1, hrecord]
  · rw [hfiles, hroot', hroot]
  · rw [hfiles, htree]
    exact husable'.notDir i
  · rw [hfiles, htree]
    exact husable'.above q hq
  · obtain rfl : i = 0 := by simpa using hi
    rw [hfiles, htree, hchunks]
    rfl

/-- A dataset of others with files in the same directory lets something else be read back. -/
theorem not_readsBack_lateUpload (floats : PyFloats) (mkstemp : String → String)
    (hkind : "fs" ∈ B.kinds) (hlocation : parseRegisteredRef (streamLocation key) = some key)
    (hprintable : Printable key.version) (hplaced : BelowRoot root key 0)
    (hdir : chunkDir root Y = chunkDir root key) (hY : BelowRoot root Y 0) (hne : key ≠ Y) :
    ¬ ReadsBack byteJson floats B (lateUpload Y) key "raw" 1
      { store := init root mkstemp } [[1]] := by
  rintro ⟨ref, d, hwrite, -, -, e, hread⟩
  have hquiet (c : Served) (hc : c.count ≠ 3) : c.met B (lateUpload Y) = c.store := by
    simp [Served.met, lateUpload, hc]
  have hkeep (c : Served) (hc : c.count ≠ 3) :
      KeepsDataset root key c.store (c.met B (lateUpload Y)) := by
    rw [hquiet c hc]
    exact .refl _
  have hat : parseRegisteredRef (streamRef key "fs" "raw").location = some key := hlocation
  let c : Served := { store := init root mkstemp }
  -- the three requests
  obtain ⟨a, ha, hacount, hopened⟩ := request_openStream (B := B) byteJson floats hat
    loads_byteJson faithful_streamByte rfl
    ((usable_init hplaced mkstemp).keep (hkeep c (by show (0 : ℕ) ≠ 3; decide)))
  have hopened : Written root "raw" 1 key [] a.store := hopened
  obtain ⟨answer, b, hb, hbcount, hwritten⟩ := request_appendChunk byteJson floats hat
    (hkeep a (by rw [hacount]; show (1 : ℕ) ≠ 3; decide)) hplaced hkind [1] hopened
  obtain ⟨f, hf, hfcount, hfinished⟩ := request_finalizeStream byteJson floats hat
    (hkeep b (by rw [hbcount, hacount]; show (2 : ℕ) ≠ 3; decide)) hwritten
  have hcount : f.count = 3 := by rw [hfcount, hbcount, hacount]
  have hwrite' : writeChunks byteJson floats B (lateUpload Y) key [[1]] "raw" "fs" 1 c =
      .ok (streamRef key "fs" "raw", f) := by
    rw [writeChunks, if_pos hprintable]
    show (channelRequest byteJson floats B (lateUpload Y) .openStream (streamRef key "fs" "raw")
      (some (utf8Encode (byteJson.dumps (streamDocument 1)))) c >>= _) = _
    rw [ha]
    show (appendChunks byteJson floats B (lateUpload Y) (streamRef key "fs" "raw") [[1]] a >>=
      _) = _
    rw [appendChunks, hb]
    show (channelRequest byteJson floats B (lateUpload Y) .finalizeStream
      (streamRef key "fs" "raw") none b >>= _) = _
    rw [hf]
    rfl
  obtain ⟨rfl, rfl⟩ := Prod.mk.inj (Except.ok.inj (hwrite.symm.trans hwrite'))
  -- what is read is what the other one put there
  have hmet : d.met B (lateUpload Y) =
      (d.store.perform B (bytewise Y 1)).perform B (.storeChunk Y 0 [0] 0) := by
    simp [Served.met, lateUpload, hcount, performOther]
  have hlate := finished_lateUpload hkind hplaced hdir hY hne hfinished
  rw [← hmet] at hlate
  obtain ⟨g, hg⟩ := request_read byteJson floats hat hplaced hkind hlate
  have hanswer := (Prod.mk.inj (Except.ok.inj (hread.symm.trans hg))).1
  exact absurd hanswer (by decide)

end Clash

/-- Whatever the registry holds when a function starts to write a dataset in chunks, and whatever
others do to other datasets, with a file system that works: the chunks are read as they were
written, if and only if the version has a text, and no dataset of the others has its chunks in the
same directory. -/
theorem alwaysReadsBack_iff (B : DataBackends) {root : List String} {key : RecordKey}
    (O : OtherWriters root key) (hkind : "fs" ∈ B.kinds) (hname : key.id ≠ "")
    (hversion : 0 ≤ key.version) (hplaced : BelowRoot root key 0) :
    AlwaysReadsBack B O ↔ Printable key.version ∧
      ∀ Y ∈ O.keys, BelowRoot root Y 0 → chunkDir root Y ≠ chunkDir root key := by
  have hlocation := parseRegisteredRef_location hname hversion
  constructor
  · intro hall
    have hread (Y : RecordKey) (hmay : ∀ n, ∀ act ∈ (lateUpload Y).acts n, O.May act) :=
      hall byteJson default (lateUpload Y) [[1]] "raw" 1 { store := init root id } loads_byteJson
        faithful_streamByte faithful_statusByte hmay (usable_init hplaced id)
    have hprintable : Printable key.version := by
      obtain ⟨ref, d, hwrite, -⟩ := hall byteJson default { acts := fun _ => [], now := fun _ => 0 }
        [[1]] "raw" 1 { store := init root id } loads_byteJson faithful_streamByte
        faithful_statusByte (fun _ _ hact => absurd hact List.not_mem_nil) (usable_init hplaced id)
      by_contra hlong
      rw [writeChunks, if_neg hlong] at hwrite
      cases hwrite
    refine ⟨hprintable, fun Y hY hplacedY hdir => ?_⟩
    have hne : key ≠ Y := fun heq => O.other (heq ▸ hY)
    refine not_readsBack_lateUpload default id hkind hlocation hprintable hplaced hdir hplacedY hne
      (hread Y fun n act hact => ?_)
    unfold lateUpload at hact
    dsimp only at hact
    split_ifs at hact
    · rcases List.mem_pair.1 hact with rfl | rfl <;> exact hY
    · cases hact
  · rintro ⟨hprintable, hdirs⟩ json floats world chunks format chunkBytes c hempty hstream hstatus
      hmay husable
    exact readsBack_of_keeps json floats hempty hstream hstatus hkind hlocation hprintable hplaced
      (fun c hroot => keepsDataset_met hplaced hdirs hmay hroot) husable

open DataHistory (plainBackends)

/-! ### Three chunks over a longer dataset -/

/-- A name with a slash and a digit. -/
def outputKey : RecordKey := { id := "out/7", version := 2 }

/-- The documents of a stream of three chunks. -/
def outputJson : JsonLib :=
  jsonTable [(streamDocument 4, "\x7b\"chunk_bytes\": 4\x7d"),
    (statusDocument 3 4, "\x7b\"total_chunks\": 3, \"chunk_bytes\": 4\x7d")]

/-- Five chunks were registered once, and a stream of the same name was given up. -/
def leftover : DataStore where
  catalog := AList.singleton outputKey (DataStore.streamRecord plainBackends outputKey
    (streamAfter "raw" 4 [[9], [9], [9], [9], [9]]) 0)
  openStreams := AList.singleton outputKey (streamAfter "raw" 4 [[9], [9]])
  hashCache := AList.singleton outputKey ("5", true)
  completedUploads := {outputKey}

/-- Another function writes the version before. -/
def earlierVersion : OtherWriters ["srv"] outputKey where
  keys := {{ id := "out/7", version := 1 }}
  locations := ∅
  other := by decide
  beside Y hY _ i j hpre := by
    obtain rfl := Set.mem_singleton_iff.1 hY
    have hdir : (chunkDir ["srv"] outputKey).length =
        (chunkDir ["srv"] { id := "out/7", version := 1 }).length := by decide
    have hlength : (chunkDir ["srv"] outputKey ++ [chunkFile i]).length =
        (chunkDir ["srv"] { id := "out/7", version := 1 } ++ [chunkFile j]).length := by
      rw [List.length_append, List.length_append, List.length_singleton, List.length_singleton,
        hdir]
    rcases hpre with hpre | hpre
    · exact hpre.eq_of_length hlength
    · exact (hpre.eq_of_length hlength.symm).symm
  apart _ hlocation := absurd hlocation (Set.notMem_empty _)

/-- It keeps opening a stream and appending to it. -/
def otherWriter : IoWorld where
  acts _ := [.call (.openStream { id := "out/7", version := 1 } "raw" "fs" 1),
    .call (.appendChunk { id := "out/7", version := 1 } [8])]
  now n := n

/-- The three chunks are read, and nothing of what was left over. -/
theorem readsBack_leftover : ∃ files : FilesystemStorageBackend,
    (init ["srv"] id).files.put "out/7/2/chunk_00000001" [9] = .ok files ∧
      ReadsBack outputJson default plainBackends otherWriter outputKey "raw" 4
        { store := { registry := leftover, files := files } } [[1, 2], [], [3]] := by
  have hempty : ∀ v, outputJson.loads "" ≠ .value v :=
    jsonTable_loads_empty fun doc hdoc => by
      rcases List.mem_pair.1 hdoc with rfl | rfl <;> decide
  have hplaced : BelowRoot ["srv"] outputKey 0 := ⟨by decide, by decide, by decide⟩
  obtain ⟨files, hput, husable, -⟩ := (usable_init hplaced id).put hplaced "fs" 1 [9]
  rw [show (chunkKey "fs" outputKey (1 : ℕ)).path = "out/7/2/chunk_00000001" by decide] at hput
  refine ⟨files, hput, (alwaysReadsBack_iff plainBackends earlierVersion (by decide) (by decide)
    (by decide) hplaced).2 ⟨by decide, fun Y hY _ => ?_⟩ outputJson default otherWriter _ "raw" 4 _
    hempty (jsonTable_faithful (by decide +kernel)) (jsonTable_faithful (by decide +kernel))
    (fun n act hact => ?_) ⟨husable.rooted, husable.notDir, husable.above⟩⟩
  · obtain rfl := Set.mem_singleton_iff.1 hY
    decide
  · rcases List.mem_pair.1 hact with rfl | rfl <;> exact rfl

/-! ### The same files under another name -/

/-- Another function writes `./out`. -/
def dotWriter : OtherWriters ["srv"] { id := "out", version := 1 } where
  keys := {{ id := "./out", version := 1 }}
  locations := ∅
  other := by decide
  beside Y hY _ i j hpre := by
    obtain rfl := Set.mem_singleton_iff.1 hY
    have hdir : chunkDir ["srv"] { id := "./out", version := 1 } =
        chunkDir ["srv"] { id := "out", version := 1 } := by decide
    rw [hdir] at hpre ⊢
    rcases hpre with hpre | hpre <;> rw [eq_of_prefix_chunk hpre]
  apart _ hlocation := absurd hlocation (Set.notMem_empty _)

/-- Of what is written to `out`, others are read that were written to `./out`. -/
theorem not_alwaysReadsBack_dotName : ¬ ∀ (root : List String) (key : RecordKey)
    (O : OtherWriters root key), key.id ≠ "" → 0 ≤ key.version → BelowRoot root key 0 →
      AlwaysReadsBack plainBackends O := by
  intro hall
  have hplaced (name : String) (hname : name ∈ ["out", "./out"]) :
      BelowRoot ["srv"] { id := name, version := 1 } 0 := by
    rcases List.mem_pair.1 hname with rfl | rfl <;> exact ⟨by decide, by decide, by decide⟩
  have hread := hall ["srv"] _ dotWriter (by decide) (by decide) (hplaced "out" (by simp)) byteJson
    default (lateUpload { id := "./out", version := 1 }) [[1]] "raw" 1
    { store := init ["srv"] id } loads_byteJson faithful_streamByte faithful_statusByte
    (fun n act hact => ?_)
    (usable_init (hplaced "out" (by simp)) id)
  · exact not_readsBack_lateUpload default id (by decide)
      (parseRegisteredRef_location (by decide) (by decide)) (by decide) (hplaced "out" (by simp))
      (by decide) (hplaced "./out" (by simp)) (by decide) hread
  · unfold lateUpload at hact
    dsimp only at hact
    split_ifs at hact
    · rcases List.mem_pair.1 hact with rfl | rfl <;> exact rfl
    · cases hact

end Axo
