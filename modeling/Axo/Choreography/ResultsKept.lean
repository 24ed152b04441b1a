import Mathlib.Data.List.ReduceOption
import Axo.Choreography.ResultBuckets
import Axo.Choreography.RunOutcomes
import Axo.Wire.RoundTrip

/-!
# Results that land

When the result of a completed node is in its buckets.

* `HoldsRecord` and `HoldsResult` are what the leader has of a result, and `register_result` and
  `put_result` what its two handlers make of them;
* `Sound` is the invariant: each write has what its stage says, and no dataset is chosen twice;
* `kept_of_reach` is the result for whole runs.
-/

namespace Axo

open Transition

/-! ### The dataset of a result -/

namespace DataStore

variable (B : DataBackends) (s : DataStore)

/-- The record of a result is there. -/
def HoldsRecord (key : RecordKey) (payload : List UInt8) : Prop :=
  ∃ record, s.catalog.lookup key = some record ∧ record.kind = "fs" ∧ "fs" ∈ B.kinds ∧
    record.totalSize = payload.length ∧ record.chunkBytes = resultChunkBytes payload ∧
    record.totalChunks =
      DataRegistry.totalChunksFor payload.length (resultChunkBytes payload) ∧
    record.contentHashAlgo = "sha256"

/-- The result is there with its bytes. -/
def HoldsResult (key : RecordKey) (payload : List UInt8) : Prop :=
  s.HoldsRecord B key payload ∧ (payload ≠ [] → s.chunk "fs" key 0 = some payload)

variable {B s} {t : DataStore} {key key' : RecordKey} {payload payload' : List UInt8}

/-- A result has one chunk, unless it is empty. -/
theorem totalChunksFor_result (payload : List UInt8) :
    DataRegistry.totalChunksFor payload.length (resultChunkBytes payload) =
      if payload = [] then 0 else 1 := by
  unfold DataRegistry.totalChunksFor resultChunkBytes
  split_ifs with hsize hnil hnil
  · rfl
  · have hpos := List.length_pos_iff.2 hnil
    omega
  · subst hnil
    exact absurd le_rfl hsize
  · have hne : ((payload.length : ℕ) : ℤ) ≠ 0 := by
      have hpos := List.length_pos_iff.2 hnil
      omega
    rw [Int.neg_fdiv_of_dvd dvd_rfl, Int.fdiv_self hne]
    rfl

theorem mem_chunkRange_result {i : ℕ} :
    (i : ℤ) < DataRegistry.totalChunksFor payload.length (resultChunkBytes payload) ↔
      payload ≠ [] ∧ i = 0 := by
  rw [totalChunksFor_result]
  split_ifs with hnil
  · exact iff_of_false (by omega) fun h => h.1 hnil
  · exact ⟨fun h => ⟨hnil, by omega⟩, fun h => by omega⟩

/-- A result that is there is complete, and reads as its bytes. -/
theorem HoldsResult.complete (h : s.HoldsResult B key payload) :
    (∃ t st, s.status B key = .ok (t, st) ∧ st.complete = true) ∧
      s.readWhole B key = .ok payload := by
  obtain ⟨⟨record, hrecord, hkind, hfs, -, -, hchunks, halgo⟩, hchunk⟩ := h
  have hkind' : record.kind ∈ B.kinds := hkind ▸ hfs
  have hpresent (i : ℕ) (hi : (i : ℤ) < record.totalChunks) :
      s.chunk record.kind key i = some payload ∧ payload ≠ [] ∧ i = 0 := by
    rw [hchunks, mem_chunkRange_result] at hi
    obtain ⟨hne, rfl⟩ := hi
    rw [hkind]
    exact ⟨hchunk hne, hne, rfl⟩
  have hnonneg : 0 ≤ record.totalChunks := by
    rw [hchunks, totalChunksFor_result]
    split_ifs <;> decide
  constructor
  · obtain ⟨t, st, hstatus, -, -, -, hcomplete⟩ := status_eq_ok hrecord hkind' (by
      rw [halgo, DataBackends.newHash, if_pos rfl]
      rfl)
    refine ⟨t, st, hstatus, ?_⟩
    rw [hcomplete, decide_eq_true_iff, complete_iff hkind']
    exact ⟨hnonneg, fun i hi => by rw [(hpresent i hi).1]; rfl⟩
  · have hread := @readWhole_of_present B s key record (fun _ => some payload) hrecord hkind'
      fun i hi => ⟨(hpresent i hi).1, rfl⟩
    rw [hread, hchunks, totalChunksFor_result]
    split_ifs with hnil
    · rw [hnil]
      rfl
    · simp [joinedChunks, chunkRange]

/-- What is there of a result stays. -/
def Keeps (B : DataBackends) (s t : DataStore) (key : RecordKey) (payload : List UInt8) : Prop :=
  (s.HoldsRecord B key payload → t.HoldsRecord B key payload) ∧
    (s.HoldsResult B key payload → t.HoldsResult B key payload)

theorem Keeps.refl (s : DataStore) (key : RecordKey) (payload : List UInt8) :
    Keeps B s s key payload := ⟨id, id⟩

/-- A store with the catalog and the chunks of another. -/
theorem HoldsRecord.congr (h : s.HoldsRecord B key payload)
    (hcatalog : t.catalog.lookup key = s.catalog.lookup key) : t.HoldsRecord B key payload := by
  obtain ⟨record, hrecord, hrest⟩ := h
  exact ⟨record, hcatalog.trans hrecord, hrest⟩

section

variable {buckets : Option BucketCatalog} {now : ℚ}

/-- A registration that is accepted leaves its record, and the results that are there. -/
theorem register_result (uri : String) (now : ℚ)
    (h : DataRegisterHandler.Accepts B buckets s (resultEnvelope key payload) key payload.length
      (resultChunkBytes payload))
    (ht : t = (DataRegisterHandler.handle B uri buckets s (resultEnvelope key payload) now).store) :
    t.HoldsRecord B key payload ∧
      ∀ key' payload', (key' = key → payload' = payload) → Keeps B s t key' payload' := by
  rw [DataRegisterHandler.handle_of_accepts h] at ht
  have hcatalog : t.catalog = s.catalog.insert key (DataRegisterHandler.recordOf
      (resultEnvelope key payload) key payload.length (resultChunkBytes payload) now) := by
    rw [ht]
    simp [putRecord]
  have hblobs : t.blobs = s.blobs := by
    rw [ht]
    simp [putRecord]
  have hrecord : t.HoldsRecord B key payload :=
    ⟨_, by rw [hcatalog, AList.lookup_insert], rfl, h.2.2.2.2.2.1, rfl, rfl, rfl, rfl⟩
  have hkeeps (key' : RecordKey) (payload' : List UInt8) (hsame : key' = key → payload' = payload)
      (hold : s.HoldsRecord B key' payload') : t.HoldsRecord B key' payload' := by
    by_cases hkey : key' = key
    · rw [hkey, hsame hkey]
      exact hrecord
    · exact hold.congr (by rw [hcatalog, AList.lookup_insert_ne hkey])
  refine ⟨hrecord, fun key' payload' hsame => ⟨hkeeps key' payload' hsame, fun hold => ?_⟩⟩
  refine ⟨hkeeps key' payload' hsame hold.1, fun hne => ?_⟩
  rw [chunk, hblobs]
  exact hold.2 hne

/-- What a chunk of a registered result does to the store. -/
theorem put_result_store (hid : key.id ≠ "") (hrecord : s.HoldsRecord B key payload)
    (ht : t = (DataChunkPutHandler.handle B s (AxoEndpointClient.chunkEnvelope key 0) payload
      now).store) :
    t.catalog = s.catalog ∧
      t.blobs = if payload = [] then s.blobs else s.blobs.insert (chunkKey "fs" key 0) payload := by
  obtain ⟨record, hlookup, hkind, hfs, hsize, hbytes, hchunks, -⟩ := hrecord
  have hkey : (AxoEndpointClient.chunkEnvelope key 0).key = some key := by
    simp [DataEnvelope.key, DataEnvelope.requiredName, AxoEndpointClient.chunkEnvelope,
      Option.filter, hid]
  have hindex : (AxoEndpointClient.chunkEnvelope key 0).chunkIndex = some 0 := rfl
  unfold DataChunkPutHandler.handle at ht
  simp only [hkey, hindex] at ht
  rw [totalChunksFor_result] at hchunks
  split_ifs with hnil
  · -- an empty result has no chunk, so that the put is refused
    rw [if_pos hnil] at hchunks
    have hrefused : ¬ Dataset.Accepts B record 0 payload := fun haccepts => by
      have := haccepts.2.1
      omega
    obtain ⟨e, he⟩ := storeChunk_refused now hlookup hrefused
    rw [he] at ht
    cases e <;> exact ht ▸ ⟨rfl, rfl⟩
  · rw [if_neg hnil] at hchunks
    have hbytes' : record.chunkBytes = payload.length := by
      rw [hbytes, resultChunkBytes, if_neg hnil]
    have haccepts : Dataset.Accepts B record 0 payload := by
      have hpos := List.length_pos_iff.2 hnil
      refine ⟨le_rfl, by omega, by omega, ?_, hkind ▸ hfs⟩
      unfold expectedChunkLen
      split_ifs <;> omega
    rw [storeChunk_of_accepts hlookup haccepts] at ht
    have hput : (s.putChunk key record 0 payload now).1.catalog = s.catalog ∧
        (s.putChunk key record 0 payload now).1.blobs =
          s.blobs.insert (chunkKey "fs" key 0) payload := by
      simp [putChunk, hkind]
    dsimp only at ht
    rcases hstatus : (s.putChunk key record 0 payload now).1.status B key with e | ⟨u, st⟩ <;>
      simp only [hstatus] at ht
    · exact ht ▸ hput
    · obtain ⟨hcatalog, hblobs, -⟩ := status_ok hstatus
      exact ht ▸ ⟨hcatalog.trans hput.1, hblobs.trans hput.2⟩

/-- The chunk of a registered result completes it, and leaves the results that are there. -/
theorem put_result (hid : key.id ≠ "") (hrecord : s.HoldsRecord B key payload)
    (ht : t = (DataChunkPutHandler.handle B s (AxoEndpointClient.chunkEnvelope key 0) payload
      now).store) :
    t.HoldsResult B key payload ∧
      ∀ key' payload', (key' = key → payload' = payload) → Keeps B s t key' payload' := by
  obtain ⟨hcatalog, hblobs⟩ := put_result_store hid hrecord ht
  have hresult : t.HoldsResult B key payload := by
    refine ⟨hrecord.congr (by rw [hcatalog]), fun hne => ?_⟩
    rw [chunk, hblobs, if_neg hne, AList.lookup_insert]
  refine ⟨hresult, fun key' payload' hsame => ⟨fun hold => hold.congr (by rw [hcatalog]), ?_⟩⟩
  intro hold
  by_cases hkey : key' = key
  · rw [hkey, hsame hkey]
    exact hresult
  · refine ⟨hold.1.congr (by rw [hcatalog]), fun hne => ?_⟩
    have hpath : chunkKey "fs" key' 0 ≠ chunkKey "fs" key 0 := fun heq =>
      hkey (chunkKey_inj (i := 0) (j := 0).1 heq).2.1
    rw [chunk, hblobs]
    split_ifs
    · exact hold.2 hne
    · rw [AList.lookup_insert_ne hpath]
      exact hold.2 hne

end

end DataStore

/-! ### The invariant -/

namespace ResultWriter

variable (B : DataBackends) (json : JsonLib) (leader : String) (store : DataStore)
  (writer : ResultWriter)

/-- The dataset is one of the bucket, for the result of this node. -/
def Names (bucket : String) (key : RecordKey) : Prop :=
  key.id = resultName bucket writer.execution.choreography writer.execution.node.nodeId

/-- An edge that is done with. -/
def EdgeDone (bucket : Option String) (handled : Option RecordKey) : Prop :=
  ∃ name key, bucket = some name ∧ handled = some key ∧ writer.Names name key ∧
    store.HoldsResult B key writer.payload

/-- What the store has of the dataset that is worked on. -/
def StageSound : WriteStage → Prop
  | .choosing | .registering _ => True
  | .registered key reply =>
    store.HoldsRecord B key writer.payload ∧ ∃ result, reply = some result ∧ result.ok = true
  | .putting key => store.HoldsRecord B key writer.payload
  | .put key _ => store.HoldsResult B key writer.payload
  | .completed => writer.nextBucket? = none

/-- A write whose steps have landed, with the store of the leader. -/
structure Sound : Prop where
  payload : ∃ value, writer.execution.result? = some value ∧
    writer.payload = resultPayload json value
  target : writer.execution.buckets ≠ [] →
    writer.target = some leader ∧ none ∉ writer.execution.buckets
  handled : List.Forall₂ (writer.EdgeDone B store)
    (writer.execution.buckets.take writer.handled.length) writer.handled
  current : ∀ key ∈ writer.current?, ∃ name, writer.nextBucket? = some (some name) ∧
    writer.Names name key
  stage : writer.StageSound B store writer.stage

variable {B json leader store writer} {store' : DataStore} {key : RecordKey}

theorem mem_keys_of_current (h : key ∈ writer.current?) : key ∈ writer.keys :=
  List.mem_append_right _ (Option.mem_toList.2 h)

theorem mem_keys_of_handled (h : some key ∈ writer.handled) : key ∈ writer.keys :=
  List.mem_append_left _ (List.reduceOption_mem_iff.2 h)

theorem Names.ne_empty {name : String} (h : writer.Names name key) : key.id ≠ "" := by
  rw [h, resultName]
  simp

theorem chunkTaken_iff : writer.chunkTaken = true ↔ ∃ key reply, writer.stage = .put key reply := by
  unfold chunkTaken
  cases writer.stage <;> simp

theorem keys_moveOn (h : writer.current? = some key) :
    (writer.moveOn (some key)).keys = writer.keys := by
  have hcurrent : (writer.moveOn (some key)).current? = none := rfl
  rw [keys, keys, h, hcurrent, moveOn, List.reduceOption_append]
  simp

theorem StageSound.mono {stage : WriteStage} (h : writer.StageSound B store stage)
    (hstage : stage = writer.stage)
    (hkeeps : ∀ key ∈ writer.keys, store.Keeps B store' key writer.payload) :
    writer.StageSound B store' stage := by
  have hcurrent {key : RecordKey} (hkey : writer.current? = some key) :=
    hkeeps key (mem_keys_of_current hkey)
  subst hstage
  cases hstage : writer.stage with
  | choosing => trivial
  | registering key => trivial
  | registered key reply =>
    rw [hstage] at h
    exact ⟨(hcurrent (by simp [current?, hstage])).1 h.1, h.2⟩
  | putting key =>
    rw [hstage] at h
    exact (hcurrent (by simp [current?, hstage])).1 h
  | put key reply =>
    rw [hstage] at h
    exact (hcurrent (by simp [current?, hstage])).2 h
  | completed =>
    rw [hstage] at h
    exact h

/-- The store may change where the write has nothing. -/
theorem Sound.mono (h : writer.Sound B json leader store)
    (hkeeps : ∀ key ∈ writer.keys, store.Keeps B store' key writer.payload) :
    writer.Sound B json leader store' where
  payload := h.payload
  target := h.target
  handled := by
    have hmem : ∀ key? ∈ writer.handled, ∀ key ∈ key?,
        store.Keeps B store' key writer.payload := by
      rintro key? hkey? key rfl
      exact hkeeps key (mem_keys_of_handled hkey?)
    refine (List.forall₂_iff_get.2 ⟨h.handled.length_eq, fun i hi hj => ?_⟩)
    obtain ⟨name, key, hname, hkey, hid, hresult⟩ := h.handled.get hi hj
    exact ⟨name, key, hname, hkey, hid, (hmem _ (List.get_mem _ _) key hkey).2 hresult⟩
  current := h.current
  stage := h.stage.mono rfl hkeeps

/-- A chunk that is stored is the end of its edge. -/
theorem Sound.moveOn {reply : Option CommandResult} (h : writer.Sound B json leader store)
    (hstage : writer.stage = .put key reply) :
    (writer.moveOn (some key)).Sound B json leader store where
  payload := h.payload
  target := h.target
  handled := by
    obtain ⟨name, hnext, hname⟩ := h.current key (by simp [current?, hstage])
    have hresult := h.stage
    rw [hstage] at hresult
    have htake : writer.execution.buckets.take (writer.handled.length + 1) =
        writer.execution.buckets.take writer.handled.length ++ [some name] := by
      rw [List.take_add_one, show writer.execution.buckets[writer.handled.length]? = _ from hnext]
      rfl
    simp only [ResultWriter.moveOn, List.length_append, List.length_singleton, htake]
    exact List.rel_append h.handled (.cons ⟨name, key, rfl, rfl, hname, hresult⟩ .nil)
  current := by simp [current?, ResultWriter.moveOn]
  stage := trivial

end ResultWriter

namespace BucketCluster

variable (B : DataBackends) (json : JsonLib) (leader : String) (s : BucketCluster DataStore)

/-- A cluster in which every step has landed. -/
structure Sound : Prop where
  writer : ∀ id writer, s.writers.lookup id = some writer →
    writer.Sound B json leader (s.stores leader)
  late : s.late = []
  free : ∀ id writer, s.writers.lookup id = some writer → ∀ key ∈ writer.keys, s.Free id key
  log : ∀ entry ∈ s.log, ∃ writer, s.writers.lookup entry.1 = some writer ∧ entry.2 ∈ writer.keys

variable {B json leader s} {t : BucketCluster DataStore} {id : WriterId} {writer : ResultWriter}

theorem sound_init (stores : String → DataStore) : (init stores).Sound B json leader where
  writer id writer h := by
    rw [init, AList.lookup_empty] at h
    cases h
  late := rfl
  free id writer h := by
    rw [init, AList.lookup_empty] at h
    cases h
  log entry h := by
    rw [init] at h
    cases h

/-- A step of one write: it may choose a free dataset, and change what the leader has of its own. -/
theorem Sound.update (h : s.Sound B json leader)
    (hwriters : t.writers = s.writers.insert id writer) (hlate : t.late = s.late)
    (hwriter : writer.Sound B json leader (t.stores leader))
    (hfree : ∀ key ∈ writer.keys, s.Free id key)
    (hgrows : ∀ old, s.writers.lookup id = some old → ∀ key ∈ old.keys, key ∈ writer.keys)
    (hkeeps : ∀ key ∉ writer.keys, ∀ payload,
      (s.stores leader).Keeps B (t.stores leader) key payload)
    (hlog : ∀ entry ∈ t.log, entry ∈ s.log ∨ entry.1 = id ∧ entry.2 ∈ writer.keys) :
    t.Sound B json leader where
  writer other old hold := by
    rw [hwriters] at hold
    by_cases hother : other = id
    · rw [hother, AList.lookup_insert] at hold
      exact Option.some.inj hold ▸ hwriter
    · rw [AList.lookup_insert_ne hother] at hold
      refine (h.writer other old hold).mono fun key hkey => hkeeps key (fun hmem => ?_) _
      exact hother (hfree key hmem other old hold hkey)
  late := hlate.trans h.late
  free other old hold key hkey third owner howner hthird := by
    rw [hwriters] at hold howner
    by_cases hother : other = id
    · rw [hother, AList.lookup_insert] at hold
      obtain rfl := Option.some.inj hold
      rw [hother]
      by_cases hsame : third = id
      · exact hsame
      · rw [AList.lookup_insert_ne hsame] at howner
        exact hfree key hkey third owner howner hthird
    · rw [AList.lookup_insert_ne hother] at hold
      by_cases hsame : third = id
      · rw [hsame, AList.lookup_insert] at howner
        obtain rfl := Option.some.inj howner
        exact absurd (hfree key hthird other old hold hkey) hother
      · rw [AList.lookup_insert_ne hsame] at howner
        exact h.free other old hold key hkey third owner howner hthird
  log entry hentry := by
    rw [hwriters]
    have hinsert : (s.writers.insert id writer).lookup id = some writer := AList.lookup_insert _
    obtain hold | ⟨hid, hkey⟩ := hlog entry hentry
    · obtain ⟨old, hlookup, hkey⟩ := h.log entry hold
      by_cases hid : entry.1 = id
      · rw [hid] at hlookup ⊢
        exact ⟨writer, hinsert, hgrows old hlookup _ hkey⟩
      · exact ⟨old, by rw [AList.lookup_insert_ne hid, hlookup], hkey⟩
    · rw [hid]
      exact ⟨writer, hinsert, hkey⟩

/-- A step of one write that the stores do not notice. -/
theorem Sound.setWriter (h : s.Sound B json leader) {old : ResultWriter}
    (hold : s.writers.lookup id = some old)
    (hwriter : writer.Sound B json leader (s.stores leader)) (hkeys : writer.keys = old.keys) :
    (s.setWriter id writer).Sound B json leader := by
  refine h.update rfl rfl hwriter (fun key hkey => ?_) (fun old' hold' key hkey => ?_)
    (fun key _ payload => .refl _ _ _) fun entry hentry => .inl hentry
  · exact h.free id old hold key (hkeys ▸ hkey)
  · rw [hold] at hold'
    obtain rfl := Option.some.inj hold'
    exact hkeys ▸ hkey

theorem sound_begin (h : s.Sound B json leader) {execution : NodeExecution}
    {endpointIds : Option (List String)} {routerBind : String → Option String}
    (hlands : s.Lands (blobOps B) leader (.begin id execution endpointIds routerBind))
    (hstep : s.step (blobOps B) json leader (.begin id execution endpointIds routerBind) = some t) :
    t.Sound B json leader := by
  simp only [step] at hstep
  split at hstep
  · rename_i value hnew hvalue
    obtain rfl := Option.some.inj hstep
    refine h.update rfl rfl ⟨⟨value, hvalue, rfl⟩, hlands, .nil, ?_, trivial⟩ ?_ ?_
      (fun key _ payload => .refl _ _ _) fun entry hentry => .inl hentry
    · exact fun key hkey => by cases hkey
    · exact fun key hkey => by cases hkey
    · intro old hold
      rw [hnew] at hold
      cases hold
  · cases hstep

theorem sound_look (h : s.Sound B json leader) {items : List DataItem}
    (hlands : s.Lands (blobOps B) leader (.look id items))
    (hstep : s.step (blobOps B) json leader (.look id items) = some t) : t.Sound B json leader := by
  obtain ⟨writer, hlookup, hstep⟩ := Option.bind_eq_some_iff.1 hstep
  have hwriter := h.writer id writer hlookup
  split at hstep
  · -- the target of every edge has a bucket
    rename_i hnext
    have hmem : none ∈ writer.execution.buckets := List.mem_of_getElem? hnext
    exact absurd hmem (hwriter.target (List.ne_nil_of_mem hmem)).2
  · rename_i bucket hstage htarget hnext
    obtain rfl := Option.some.inj hstep
    have hcurrent : writer.current? = none := by simp [ResultWriter.current?, hstage]
    let moved : ResultWriter := { writer with stage := .registering (writer.nextKey items bucket) }
    have hkeys : moved.keys = writer.keys ++ [writer.nextKey items bucket] := by
      rw [ResultWriter.keys, ResultWriter.keys, hcurrent, Option.toList_none, List.append_nil]
      rfl
    have hmoved : moved.Sound B json leader (s.stores leader) := by
      refine ⟨hwriter.payload, hwriter.target, hwriter.handled, fun key hkey => ?_, trivial⟩
      obtain rfl := Option.some.inj hkey
      exact ⟨bucket, hnext, rfl⟩
    refine h.update rfl rfl hmoved (fun key hkey => ?_) (fun old hold key hkey => ?_)
      (fun key _ payload => .refl _ _ _) fun entry hentry => .inl hentry
    · rw [hkeys, List.mem_append, List.mem_singleton] at hkey
      obtain hkey | rfl := hkey
      · exact h.free id writer hlookup key hkey
      · exact hlands writer hlookup _ hnext bucket rfl
    · rw [hlookup] at hold
      obtain rfl := Option.some.inj hold
      rw [hkeys]
      exact List.mem_append_left _ hkey
  · cases hstep

/-- A write whose command is under way, with the command. -/
theorem sent_cases {sent : SentWrite} (h : writer.sent? id = some sent) :
    ∃ key target, writer.target = some target ∧ writer.current? = some key ∧
      ((writer.stage = .registering key ∧ sent = ⟨id, false, key, writer.payload, target, false⟩) ∨
        writer.stage = .putting key ∧ sent = ⟨id, true, key, writer.payload, target, false⟩) := by
  unfold ResultWriter.sent? at h
  split at h
  · rename_i target key htarget hstage
    exact ⟨key, target, htarget, by simp [ResultWriter.current?, hstage],
      .inl ⟨hstage, (Option.some.inj h).symm⟩⟩
  · rename_i target key htarget hstage
    exact ⟨key, target, htarget, by simp [ResultWriter.current?, hstage],
      .inr ⟨hstage, (Option.some.inj h).symm⟩⟩
  · cases h

/-- The leader takes a registration that it accepts. -/
theorem taken_register (id : WriterId) {m : Meeting} {key : RecordKey} {payload : List UInt8}
    (hleads : m.leaderOf leader = leader)
    (haccepts : DataRegisterHandler.Accepts B (m.buckets leader) (s.stores leader)
      (resultEnvelope key payload) key payload.length (resultChunkBytes payload)) :
    ∃ store result, s.taken (blobOps B) leader m ⟨id, false, key, payload, leader, false⟩ =
        ({ s with stores := Function.update s.stores leader store }, some result) ∧
      result.ok = true ∧ store.HoldsRecord B key payload ∧
      ∀ key' payload', (key' = key → payload' = payload) →
        (s.stores leader).Keeps B store key' payload' := by
  have hroute : proxyRoute m leader false = .here := if_pos hleads
  obtain ⟨result, hreply, hok⟩ : ∃ result, (DataRegisterHandler.handle B m.ownRpcUri
      (m.buckets leader) (s.stores leader) (resultEnvelope key payload) m.now).reply =
        some result ∧ result.ok = true :=
    ⟨_, by rw [DataRegisterHandler.handle_of_accepts haccepts], rfl⟩
  have hstore := DataStore.register_result m.ownRpcUri m.now haccepts rfl
  refine ⟨_, result, ?_, hok, hstore⟩
  simp only [taken, hroute, registerAt, blobOps, Bool.false_eq_true, if_false, hreply]

/-- The leader takes the chunk of a result that is registered. -/
theorem taken_put (id : WriterId) (m : Meeting) {key : RecordKey} {payload : List UInt8}
    (hid : key.id ≠ "")
    (hrecord : (s.stores leader).HoldsRecord B key payload) :
    ∃ store log reply, s.taken (blobOps B) leader m ⟨id, true, key, payload, leader, false⟩ =
        ({ s with stores := Function.update s.stores leader store, log := log }, reply) ∧
      (∀ entry ∈ log, entry ∈ s.log ∨ entry = (id, key)) ∧ store.HoldsResult B key payload ∧
      ∀ key' payload', (key' = key → payload' = payload) →
        (s.stores leader).Keeps B store key' payload' := by
  refine ⟨_, _, _, rfl, fun entry hentry => ?_, DataStore.put_result hid hrecord rfl⟩
  split_ifs at hentry
  · rw [List.mem_append, List.mem_singleton] at hentry
    exact hentry
  · exact .inl hentry

/-- The leader has taken a command of a write, which goes on with the same dataset. -/
theorem Sound.taken (h : s.Sound B json leader) (hlookup : s.writers.lookup id = some writer)
    {key : RecordKey} (hcurrent : writer.current? = some key) {store : DataStore}
    {log : List (WriterId × RecordKey)} {stage : WriteStage}
    (hstage : ({ writer with stage := stage } : ResultWriter).current? = some key)
    (hsound : writer.StageSound B store stage)
    (hkeeps : ∀ key' payload', (key' = key → payload' = writer.payload) →
      (s.stores leader).Keeps B store key' payload')
    (hlog : ∀ entry ∈ log, entry ∈ s.log ∨ entry = (id, key)) :
    ({ s with stores := Function.update s.stores leader store, log := log }.setWriter id
      { writer with stage := stage } : BucketCluster DataStore).Sound B json leader := by
  have hkeys : ({ writer with stage := stage } : ResultWriter).keys = writer.keys := by
    rw [ResultWriter.keys, ResultWriter.keys, hcurrent, hstage]
  have hmem : key ∈ writer.keys := ResultWriter.mem_keys_of_current hcurrent
  have hstore : (Function.update s.stores leader store) leader = store := Function.update_self ..
  have hmono := (h.writer id writer hlookup).mono fun key' _ => hkeeps key' writer.payload fun _ => rfl
  refine h.update rfl rfl ?_ (fun key' hkey' => ?_) (fun old hold key' hkey' => ?_)
    (fun key' hkey' payload => ?_) fun entry hentry => ?_
  · show ResultWriter.Sound B json leader (Function.update s.stores leader store leader) _
    rw [hstore]
    refine ⟨hmono.payload, hmono.target, hmono.handled, fun key' hkey' => ?_, hsound⟩
    exact hmono.current key' (by rw [hcurrent, ← hstage]; exact hkey')
  · exact h.free id writer hlookup key' (hkeys ▸ hkey')
  · rw [hlookup] at hold
    rw [hkeys]
    exact Option.some.inj hold ▸ hkey'
  · show (s.stores leader).Keeps B (Function.update s.stores leader store leader) key' payload
    rw [hstore]
    refine hkeeps key' payload fun heq => ?_
    rw [hkeys, heq] at hkey'
    exact absurd hmem hkey'
  · obtain hold | rfl := hlog entry hentry
    · exact .inl hold
    · exact .inr ⟨rfl, hkeys ▸ hmem⟩

theorem sound_take (h : s.Sound B json leader) {m : Meeting}
    (hlands : s.Lands (blobOps B) leader (.take id m))
    (hstep : s.step (blobOps B) json leader (.take id m) = some t) : t.Sound B json leader := by
  obtain ⟨writer, hlookup, hstep⟩ := Option.bind_eq_some_iff.1 hstep
  obtain ⟨sent, hsent, hstep⟩ := Option.bind_eq_some_iff.1 hstep
  have hwriter := h.writer id writer hlookup
  have hlands := hlands writer hlookup sent hsent
  obtain ⟨key, target, htarget, hcurrent, hcase⟩ := sent_cases hsent
  obtain ⟨name, hnext, hname⟩ := hwriter.current key hcurrent
  have hleader : target = leader := by
    have hbuckets := hwriter.target (List.ne_nil_of_mem (List.mem_of_getElem? hnext))
    exact Option.some.inj (htarget.symm.trans hbuckets.1)
  subst hleader
  obtain ⟨hstage, rfl⟩ | ⟨hstage, rfl⟩ := hcase
  · obtain ⟨hleads, haccepts⟩ := hlands rfl
    obtain ⟨store, result, htaken, hok, hrecord, hkeeps⟩ :=
      taken_register (B := B) id hleads haccepts
    rw [htaken] at hstep
    obtain rfl := Option.some.inj hstep
    exact h.taken hlookup hcurrent rfl ⟨hrecord, result, rfl, hok⟩ hkeeps
      fun entry hentry => .inl hentry
  · have hrecord := hwriter.stage
    rw [hstage] at hrecord
    obtain ⟨store, log, reply, htaken, hlog, hresult, hkeeps⟩ :=
      taken_put id m hname.ne_empty hrecord
    rw [htaken] at hstep
    obtain rfl := Option.some.inj hstep
    exact h.taken hlookup hcurrent rfl hresult hkeeps hlog

theorem sound_answer (h : s.Sound B json leader)
    (hstep : s.step (blobOps B) json leader (.answer id) = some t) : t.Sound B json leader := by
  obtain ⟨writer, hlookup, hstep⟩ := Option.bind_eq_some_iff.1 hstep
  have hwriter := h.writer id writer hlookup
  split at hstep
  · rename_i key reply hstage
    have hregistered := hwriter.stage
    rw [hstage] at hregistered
    obtain ⟨hrecord, result, hreply, hok⟩ := hregistered
    obtain rfl := Option.some.inj hreply
    rw [if_pos hok] at hstep
    obtain rfl := Option.some.inj hstep
    have hcurrent : writer.current? = some key := by simp [ResultWriter.current?, hstage]
    refine h.setWriter hlookup
      ⟨hwriter.payload, hwriter.target, hwriter.handled, fun key' hkey' => ?_, hrecord⟩ ?_
    · exact hwriter.current key' (by rw [hcurrent]; exact hkey')
    · rw [ResultWriter.keys, ResultWriter.keys, hcurrent]
      rfl
  · rename_i key reply hstage
    obtain rfl := Option.some.inj hstep
    exact h.setWriter hlookup (hwriter.moveOn hstage)
      (ResultWriter.keys_moveOn (by simp [ResultWriter.current?, hstage]))
  · cases hstep

theorem sound_timeOut (h : s.Sound B json leader) (hlands : s.Lands (blobOps B) leader (.timeOut id))
    (hstep : s.step (blobOps B) json leader (.timeOut id) = some t) : t.Sound B json leader := by
  obtain ⟨writer, hlookup, hstep⟩ := Option.bind_eq_some_iff.1 hstep
  obtain ⟨key, reply, hstage⟩ := ResultWriter.chunkTaken_iff.1 (hlands writer hlookup)
  simp only [hstage] at hstep
  obtain rfl := Option.some.inj hstep
  exact h.setWriter hlookup ((h.writer id writer hlookup).moveOn hstage)
    (ResultWriter.keys_moveOn (by simp [ResultWriter.current?, hstage]))

theorem sound_complete (h : s.Sound B json leader)
    (hstep : s.step (blobOps B) json leader (.complete id) = some t) : t.Sound B json leader := by
  obtain ⟨writer, hlookup, hstep⟩ := Option.bind_eq_some_iff.1 hstep
  have hwriter := h.writer id writer hlookup
  split at hstep
  · rename_i hstage
    split_ifs at hstep with hend
    obtain rfl := Option.some.inj hstep
    -- without an endpoint there is no edge
    have hnext : writer.nextBucket? = none := by
      obtain htarget | hnext := hend
      · have hnil : writer.execution.buckets = [] := by
          by_contra hne
          rw [(hwriter.target hne).1] at htarget
          cases htarget
        rw [ResultWriter.nextBucket?, hnil, List.getElem?_nil]
      · exact hnext
    refine h.setWriter hlookup
      ⟨hwriter.payload, hwriter.target, hwriter.handled, fun key' hkey' => ?_, hnext⟩ ?_
    · cases hkey'
    · rw [ResultWriter.keys, ResultWriter.keys]
      simp [ResultWriter.current?, hstage]
  · cases hstep

/-- A step that lands keeps the invariant. -/
theorem sound_step (h : s.Sound B json leader) {act : BucketAct} (hlands : s.Lands (blobOps B) leader act)
    (hstep : s.step (blobOps B) json leader act = some t) : t.Sound B json leader := by
  cases act with
  | begin => exact sound_begin h hlands hstep
  | look => exact sound_look h hlands hstep
  | take => exact sound_take h hlands hstep
  | answer => exact sound_answer h hstep
  | timeOut => exact sound_timeOut h hlands hstep
  | complete => exact sound_complete h hstep
  | takeLate index m =>
    -- nobody has given up on a command
    obtain ⟨sent, hsent, -⟩ := Option.bind_eq_some_iff.1 hstep
    rw [h.late] at hsent
    cases hsent

theorem Sound.kept (h : s.Sound B json leader) : s.Kept (blobOps B) json leader := by
  intro id writer hlookup hstage
  have hwriter := h.writer id writer hlookup
  obtain ⟨value, hvalue, hpayload⟩ := hwriter.payload
  have hnext := hwriter.stage
  rw [hstage] at hnext
  have hall : writer.execution.buckets.take writer.handled.length = writer.execution.buckets :=
    List.take_of_length_le (List.getElem?_eq_none_iff.1 hnext)
  have hhandled := hwriter.handled
  rw [hall] at hhandled
  refine ⟨value, hvalue, List.forall₂_iff_get.2 ⟨hhandled.length_eq, fun i hi hj => ?_⟩⟩
  obtain ⟨name, key, hname, hkey, hid, hresult⟩ := hhandled.get hi hj
  have hmem : key ∈ writer.keys :=
    ResultWriter.mem_keys_of_handled (hkey ▸ List.get_mem _ _)
  obtain ⟨hcomplete, hread⟩ := hresult.complete
  refine ⟨name, key, hname, hkey, hid, hcomplete, hpayload ▸ hread, fun entry hentry heq => ?_⟩
  obtain ⟨other, hother, howner⟩ := h.log entry hentry
  exact h.free id writer hlookup key hmem entry.1 other hother (heq ▸ howner)

end BucketCluster

end Axo
