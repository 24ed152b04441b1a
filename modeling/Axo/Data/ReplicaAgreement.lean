import Axo.Data.BlobReplication
import Axo.Data.OwnUpload

/-!
# Agreement of complete replicas

Whether a follower that has all chunks of the leader's record has the leader's bytes.

* `Agreeing` is the invariant: where a follower has the leader's record of a key, the chunks that
  both have are the same;
* `AgreeGuard` is what a step needs to keep it: the replicator looks at indices only, so it does
  not repair a chunk that is replaced at the leader, that a follower has from an earlier
  registration, or that arrives after it was replaced;
* `sameBytes_of_reach` is the result for whole runs, in which no two datasets share a chunk file.
-/

namespace Axo

open Transition

/-- The record and the chunks that are held under a key. -/
structure Held where
  record : Option DataRecord
  chunks : String → Chunks

/-- Where both have a chunk of the record, it is the same. -/
def AgreeOn (record : DataRecord) (chunks chunks' : String → Chunks) : Prop :=
  ∀ i ∈ chunkRange record.totalChunks, ∀ data ∈ chunks record.kind i,
    ∀ data' ∈ chunks' record.kind i, data = data'

instance (record : DataRecord) (chunks chunks' : String → Chunks) :
    Decidable (AgreeOn record chunks chunks') := by
  unfold AgreeOn
  infer_instance

/-- If both have the same record, they agree on it. -/
def Held.Agree (leader follower : Held) : Prop :=
  ∀ record, leader.record = some record → follower.record = some record →
    AgreeOn record leader.chunks follower.chunks

/-- Writing a chunk at the leader. -/
theorem AgreeOn.write_left {record : DataRecord} {chunks chunks' : String → Chunks} {index : ℕ}
    {data : List UInt8} (h : AgreeOn record chunks chunks')
    (hdata : ∀ old ∈ chunks' record.kind index, data = old) :
    AgreeOn record (Dataset.write chunks record.kind index data) chunks' := by
  intro i hi new hnew old hold
  unfold Dataset.write at hnew
  rw [Function.update_self] at hnew
  by_cases hi' : i = index
  · subst hi'
    rw [Function.update_self] at hnew
    cases hnew
    exact hdata old hold
  · rw [Function.update_of_ne hi'] at hnew
    exact h i hi new hnew old hold

/-- Writing a chunk at a follower. -/
theorem AgreeOn.write_right {record : DataRecord} {chunks chunks' : String → Chunks} {index : ℕ}
    {data : List UInt8} (h : AgreeOn record chunks chunks')
    (hdata : ∀ old ∈ chunks record.kind index, old = data) :
    AgreeOn record chunks (Dataset.write chunks' record.kind index data) := by
  intro i hi old hold new hnew
  unfold Dataset.write at hnew
  rw [Function.update_self] at hnew
  by_cases hi' : i = index
  · subst hi'
    rw [Function.update_self] at hnew
    cases hnew
    exact hdata old hold
  · rw [Function.update_of_ne hi'] at hnew
    exact h i hi old hold new hnew

namespace DataStore

variable {B : DataBackends} {s t : DataStore} {key k : RecordKey} {now : ℚ}

/-- What is held under a key. -/
def held (s : DataStore) (key : RecordKey) : Held where
  record := s.catalog.lookup key
  chunks := fun kind i => s.chunk kind key i

theorem held_congr (hcatalog : t.catalog = s.catalog) (hblobs : t.blobs = s.blobs) :
    t.held k = s.held k := by
  unfold held chunk
  rw [hcatalog, hblobs]

theorem held_afterStatus : (s.afterStatus B key).held k = s.held k := by
  unfold afterStatus
  rcases hstatus : s.status B key with e | ⟨t, st⟩
  · rfl
  · exact held_congr (status_ok hstatus).1 (status_ok hstatus).2.1

/-- A registration changes the record of its own key. -/
theorem held_putRecord {record : DataRecord} :
    (s.putRecord key record now).1.held k =
      if k = key then { s.held k with record := some record } else s.held k := by
  unfold held chunk
  by_cases hk : k = key
  · subst hk
    simp [putRecord]
  · simp [putRecord, hk]

/-- A chunk that is put changes the chunks of its own key. -/
theorem held_putChunk {record : DataRecord} {index : ℤ} {data : List UInt8} (hindex : 0 ≤ index) :
    (s.putChunk key record index data now).1.held k =
      if k = key then
        { s.held k with
          chunks := Dataset.write (s.held k).chunks record.kind index.toNat data }
      else s.held k := by
  have hblobs : (s.putChunk key record index data now).1.blobs =
      s.blobs.insert (chunkKey record.kind key index.toNat) data := by
    simp [putChunk, Int.toNat_of_nonneg hindex]
  have hchunks := chunks_insert (k := k) hblobs
  unfold held
  rw [hchunks]
  by_cases hk : k = key <;> simp [putChunk, hk]

/-- A put of a chunk is refused, and changes nothing, or it is accepted. -/
theorem held_handleChunkPut (s : DataStore) (key : RecordKey) (index : ℤ) (data : List UInt8)
    (now : ℚ) :
    (∀ k, (s.handleChunkPut B key index data now).held k = s.held k) ∨
      ∃ record, s.catalog.lookup key = some record ∧ Dataset.Accepts B record index data ∧
        ∀ k, (s.handleChunkPut B key index data now).held k =
          if k = key then
            { s.held k with
              chunks := Dataset.write (s.held k).chunks record.kind index.toNat data }
          else s.held k := by
  unfold handleChunkPut
  rcases hrecord : s.catalog.lookup key with _ | record
  · rw [storeChunk, hrecord]
    exact .inl fun _ => rfl
  by_cases haccepts : Dataset.Accepts B record index data
  · rw [storeChunk_of_accepts hrecord haccepts]
    refine .inr ⟨record, rfl, haccepts, fun k => ?_⟩
    dsimp only
    rw [held_afterStatus, held_putChunk haccepts.1]
  · obtain ⟨e, he⟩ := storeChunk_refused now hrecord haccepts
    rw [he]
    exact .inl fun _ => rfl

/-- What a deletion leaves. -/
def Held.dropped (B : DataBackends) (held : Held) (record : DataRecord) : Held where
  record := none
  chunks := Dataset.drop B held.chunks record

theorem held_delete {events : List DataEvent} (h : s.delete B key now = .ok (t, events)) :
    ∃ record, s.catalog.lookup key = some record ∧
      ∀ k, t.held k = if k = key then Held.dropped B (s.held k) record else s.held k := by
  unfold delete at h
  rcases hrecord : s.catalog.lookup key with _ | record <;> rw [hrecord] at h <;> cases h
  refine ⟨record, rfl, fun k => ?_⟩
  have hblobs : ({ s with
      catalog := s.catalog.erase key
      blobs := s.dropChunks B key record
      completedUploads := s.completedUploads.erase key
      hashCache := s.hashCache.erase key } : DataStore).blobs = s.dropChunks B key record := rfl
  unfold held
  rw [chunks_dropChunks (k := k) hblobs]
  by_cases hk : k = key
  · subst hk
    simp [Held.dropped]
  · simp [hk]

theorem delete_error {e : DataFailure} (h : s.delete B key now = .error e) :
    s.catalog.lookup key = none := by
  unfold delete at h
  rcases hrecord : s.catalog.lookup key with _ | record
  · rfl
  · rw [hrecord] at h
    cases h

/-- What an entry of a push makes of what is held under its key. -/
def Held.enter (B : DataBackends) (held : Held) : Blob DataRecord → Held
  | .record record => { held with record := some record }
  | .tombstone =>
    match held.record with
    | none => held
    | some record => Held.dropped B held record

/-- An entry changes what is held under its own key. -/
theorem held_applyEntry {key : CombinedKey} {blob : Blob DataRecord} :
    (s.applyEntry B now key blob).held k =
      if k = key.key then Held.enter B (s.held k) blob else s.held k := by
  cases blob with
  | record record =>
    unfold applyEntry held chunk
    by_cases hk : k = key.key
    · subst hk
      simp [Held.enter]
    · simp [hk]
  | tombstone =>
    unfold applyEntry
    rcases hdelete : s.delete B key.key now with e | ⟨t, events⟩
    · have hnone : (s.held key.key).record = none := delete_error hdelete
      by_cases hk : k = key.key
      · subst hk
        rw [if_pos rfl, Held.enter, hnone]
      · rw [if_neg hk]
    · obtain ⟨record, hrecord, hheld⟩ := held_delete hdelete
      have hsome : (s.held key.key).record = some record := hrecord
      dsimp only
      rw [hheld k]
      by_cases hk : k = key.key
      · subst hk
        rw [if_pos rfl, if_pos rfl, Held.enter, hsome]
      · rw [if_neg hk, if_neg hk]

/-- A push changes what is held under the keys that it names. -/
theorem held_applyIncoming {dataChanges : Dict CombinedKey (Blob DataRecord)} :
    (s.applyIncoming B dataChanges now).held k =
      (dataChanges.lookup (.of k)).elim (s.held k) fun blob => Held.enter B (s.held k) blob := by
  have hfold := Dict.foldl_entries (fun (s : DataStore) (key : CombinedKey) => s.held key.key)
    (fun s key blob => s.applyEntry B now key blob) (fun _ blob held => Held.enter B held blob)
    (fun s key blob => by rw [held_applyEntry, if_pos rfl])
    (fun s key blob key' hne => by
      rw [held_applyEntry, if_neg]
      intro hkey
      exact hne (by rw [← CombinedKey.of_key key', hkey, CombinedKey.of_key]))
    dataChanges s (.of k)
  simpa [applyIncoming] using hfold

/-! ### Reading -/

/-- Loops over functions that agree on the list. -/
theorem mapM_congr_left {f g : ℕ → Except DataFailure (List UInt8)} {l : List ℕ}
    (h : ∀ i ∈ l, f i = g i) : l.mapM f = l.mapM g := by
  induction l with
  | nil => rfl
  | cons i l ih =>
    rw [List.mapM_cons, List.mapM_cons, h i List.mem_cons_self,
      ih fun j hj => h j (List.mem_cons_of_mem i hj)]

/-- Registries that hold the same chunks of a record read the same. -/
theorem readWhole_congr {record : DataRecord} (hs : s.catalog.lookup key = some record)
    (ht : t.catalog.lookup key = some record)
    (hchunks : ∀ i ∈ chunkRange record.totalChunks,
      s.chunk record.kind key i = t.chunk record.kind key i) :
    s.readWhole B key = t.readWhole B key := by
  unfold readWhole
  rw [hs, ht]
  dsimp only
  congr 1
  refine mapM_congr_left fun i hi => ?_
  unfold readChunk
  rw [hs, ht]
  dsimp only
  rw [hchunks i hi]

/-- When the status says that a dataset is complete, every chunk of the record is there. -/
theorem present_of_complete {record : DataRecord} {st : DataStatus}
    (hrecord : s.catalog.lookup key = some record) (hstatus : s.status B key = .ok (t, st))
    (hcomplete : st.complete = true) :
    ∀ i ∈ chunkRange record.totalChunks, (s.chunk record.kind key i).isSome := by
  have hlength : ((s.present B key record).length : ℤ) = record.totalChunks := by
    unfold status at hstatus
    rw [hrecord] at hstatus
    dsimp only at hstatus
    split_ifs at hstatus with hbase
    · exact of_decide_eq_true hbase
    · cases hstatus
      exact absurd hcomplete hbase
  intro i hi
  by_cases hkind : record.kind ∈ B.kinds
  · exact ((complete_iff hkind).1 hlength).2 i (mem_chunkRange.1 hi)
  · rw [present, if_neg hkind, List.length_nil] at hlength
    have hlt := mem_chunkRange.1 hi
    omega

end DataStore

namespace ReplicaCluster

variable (B : DataBackends) (cfg : ReplicatorConfig) (members : List EndpointId)

/-- Under every key, each member agrees with the leader if it has the leader's record. -/
def Agreeing (s : ReplicaCluster) : Prop :=
  ∀ f ∈ members, ∀ key, (s.leader.held key).Agree ((s.followers f).held key)

/-- What a step needs so that no member with the leader's record gets, or keeps, other bytes. -/
def AgreeGuard (s : ReplicaCluster) : ReplicaAction → Prop
  | .register key format kind totalSize chunkBytes now contentHash contentHashAlgo =>
    Dataset.Registers B kind totalSize chunkBytes →
      let record := DataStore.newRecord key format kind totalSize chunkBytes now contentHash
        contentHashAlgo
      ∀ f ∈ members, (s.followers f).catalog.lookup key = some record →
        AgreeOn record (s.leader.held key).chunks ((s.followers f).held key).chunks
  | .chunkPut key index data _ =>
    ∀ record ∈ s.leader.catalog.lookup key, Dataset.Accepts B record index data →
      ∀ f ∈ members, (s.followers f).catalog.lookup key = some record →
        ∀ old ∈ (s.followers f).chunk record.kind key index.toNat, data = old
  | .handlePush f _ =>
    f ∈ members → ∀ dataChanges ∈ (s.metadata f).head?, ∀ e ∈ dataChanges.entries,
      ∀ record ∈ s.leader.catalog.lookup e.1.key, e.2 = .record record →
        AgreeOn record (s.leader.held e.1.key).chunks ((s.followers f).held e.1.key).chunks
  | .deliverChunk n _ =>
    ∀ push ∈ s.chunkPushes[n]?, push.peer ∈ members →
      ∀ record ∈ (s.followers push.peer).catalog.lookup push.key,
        Dataset.Accepts B record push.index push.data →
          s.leader.catalog.lookup push.key = some record →
            ∀ data ∈ s.leader.chunk record.kind push.key push.index, data = push.data
  | .delete .. | .flush | .startTick .. | .nextRecord | .nextMember .. | .nextChunk
  | .loseChunk _ => True

instance (s : ReplicaCluster) (action : ReplicaAction) :
    Decidable (s.AgreeGuard B members action) := by
  cases action <;> unfold AgreeGuard <;> infer_instance

/-- Besides, the registrations are of datasets that share no chunk file. -/
def SameBytesGuard (N : DatasetNames) (s : ReplicaCluster) (action : ReplicaAction) : Prop :=
  action.Within N ∧ s.AgreeGuard B members action

instance (N : DatasetNames) [DecidablePred (· ∈ N.keys)] (s : ReplicaCluster)
    (action : ReplicaAction) : Decidable (s.SameBytesGuard B members N action) :=
  inferInstanceAs (Decidable (_ ∧ _))

variable {B cfg members} {s t : ReplicaCluster}

theorem Agreeing.congr (h : s.Agreeing members) (hleader : ∀ k, t.leader.held k = s.leader.held k)
    (hfollowers : ∀ f k, (t.followers f).held k = (s.followers f).held k) :
    t.Agreeing members := by
  intro f hf key
  rw [hleader, hfollowers]
  exact h f hf key

/-! ### The leader's handlers -/

theorem agreeing_register (h : s.Agreeing members) {key : RecordKey} {format kind : String}
    {totalSize chunkBytes : ℤ} {now : ℚ} {contentHash : Option String} {contentHashAlgo : String}
    (hguard : s.AgreeGuard B members (.register key format kind totalSize chunkBytes now
      contentHash contentHashAlgo))
    (hstep : step B cfg members s (.register key format kind totalSize chunkBytes now contentHash
      contentHashAlgo) = some t) : t.Agreeing members := by
  by_cases hregisters : Dataset.Registers B kind totalSize chunkBytes
  · simp only [step, DataStore.register_of_registers hregisters, Option.some.injEq] at hstep
    subst hstep
    intro f hf k
    simp only [DataStore.held_putRecord]
    by_cases hk : k = key
    · subst hk
      rw [if_pos rfl]
      intro record hleader hfollower
      obtain rfl := Option.some.inj hleader
      exact hguard hregisters f hf hfollower
    · rw [if_neg hk]
      exact h f hf k
  · obtain ⟨e, he⟩ := s.leader.register_refused key format now contentHash contentHashAlgo
      hregisters
    simp only [step, he, Option.some.injEq] at hstep
    exact hstep ▸ h

theorem agreeing_chunkPut (h : s.Agreeing members) {key : RecordKey} {index : ℤ}
    {data : List UInt8} {now : ℚ} (hguard : s.AgreeGuard B members (.chunkPut key index data now))
    (hstep : step B cfg members s (.chunkPut key index data now) = some t) :
    t.Agreeing members := by
  obtain rfl := Option.some.inj hstep
  rcases s.leader.held_handleChunkPut (B := B) key index data now with hsame | ⟨record, hrecord, haccepts, hheld⟩
  · exact h.congr hsame fun _ _ => rfl
  · intro f hf k
    simp only [hheld]
    by_cases hk : k = key
    · subst hk
      rw [if_pos rfl]
      intro record' hleader hfollower
      obtain rfl : record = record' := Option.some.inj (hrecord.symm.trans hleader)
      exact AgreeOn.write_left (h f hf k record hrecord hfollower)
        (hguard record hrecord haccepts f hf hfollower)
    · rw [if_neg hk]
      exact h f hf k

theorem agreeing_delete (h : s.Agreeing members) {key : RecordKey} {now : ℚ}
    (hstep : step B cfg members s (.delete key now) = some t) : t.Agreeing members := by
  rcases hdelete : s.leader.delete B key now with e | ⟨leader, events⟩ <;>
    simp only [step, hdelete, Option.some.injEq] at hstep <;> subst hstep
  · exact h
  · obtain ⟨record, -, hheld⟩ := DataStore.held_delete hdelete
    intro f hf k
    simp only [hheld]
    by_cases hk : k = key
    · rw [if_pos hk]
      intro _ hnone
      cases hnone
    · rw [if_neg hk]
      exact h f hf k

/-! ### The followers' handlers -/

@[simp] theorem followers_setFollower_self (s : ReplicaCluster) (f : EndpointId)
    (store : DataStore) : (s.setFollower f store).followers f = store := Function.update_self ..

theorem followers_setFollower_of_ne (s : ReplicaCluster) {f f' : EndpointId} (store : DataStore)
    (hne : f' ≠ f) : (s.setFollower f store).followers f' = s.followers f' :=
  Function.update_of_ne hne ..

/-- One follower changes, and agrees with the leader afterwards. -/
theorem Agreeing.setFollower (h : s.Agreeing members) {f : EndpointId} {store : DataStore}
    (hf : f ∈ members → ∀ key, (s.leader.held key).Agree (store.held key)) :
    (s.setFollower f store).Agreeing members := by
  intro f' hf' key
  by_cases heq : f' = f
  · subst heq
    rw [followers_setFollower_self]
    exact hf hf' key
  · rw [followers_setFollower_of_ne s store heq]
    exact h f' hf' key

theorem agreeing_handlePush (h : s.Agreeing members) {f : EndpointId} {now : ℚ}
    (hguard : s.AgreeGuard B members (.handlePush f now))
    (hstep : step B cfg members s (.handlePush f now) = some t) : t.Agreeing members := by
  rcases hmetadata : s.metadata f with _ | ⟨dataChanges, rest⟩ <;>
    simp only [step, hmetadata] at hstep
  · cases hstep
  · obtain rfl := Option.some.inj hstep
    refine h.setFollower fun hf key => ?_
    rw [DataStore.held_applyIncoming]
    rcases hentry : dataChanges.lookup (CombinedKey.of key) with _ | blob
    · exact h f hf key
    cases blob with
    | tombstone =>
      intro record hleader hfollower
      rcases hold : ((s.followers f).held key).record with _ | old
      · simp only [Option.elim_some, DataStore.Held.enter, hold] at hfollower
        cases hfollower
      · simp only [Option.elim_some, DataStore.Held.enter, hold] at hfollower
        cases hfollower
    | record record =>
      intro record' hleader hfollower
      obtain rfl := Option.some.inj hfollower
      have hmem := AList.mem_lookup_iff.1 hentry
      have hleader' : s.leader.catalog.lookup (CombinedKey.of key).key = some record := by
        rw [CombinedKey.key_of]
        exact hleader
      have hagree := hguard hf dataChanges (by rw [hmetadata]; rfl) _ hmem record hleader' rfl
      dsimp only at hagree
      rw [CombinedKey.key_of] at hagree
      exact hagree

theorem agreeing_deliverChunk (h : s.Agreeing members) {n : ℕ} {now : ℚ}
    (hguard : s.AgreeGuard B members (.deliverChunk n now))
    (hstep : step B cfg members s (.deliverChunk n now) = some t) : t.Agreeing members := by
  rcases hpush : s.chunkPushes[n]? with _ | push <;> simp only [step, hpush] at hstep
  · cases hstep
  · obtain rfl := Option.some.inj hstep
    refine h.setFollower fun hf key => ?_
    rcases (s.followers push.peer).held_handleChunkPut (B := B) push.key push.index push.data
      now with hsame | ⟨record, hrecord, haccepts, hheld⟩
    · rw [hsame]
      exact h push.peer hf key
    · rw [hheld]
      by_cases hk : key = push.key
      · subst hk
        rw [if_pos rfl]
        intro record' hleader hfollower
        obtain rfl : record = record' := Option.some.inj (hrecord.symm.trans hfollower)
        exact AgreeOn.write_right (h push.peer hf push.key record hleader hrecord)
          (hguard push hpush hf record hrecord haccepts hleader)
      · rw [if_neg hk]
        exact h push.peer hf key

/-! ### The replicator -/

theorem held_considerRecord (tick : ReplicatorTick) (k : RecordKey) :
    (s.considerRecord B cfg members tick).leader.held k = s.leader.held k := by
  unfold considerRecord
  rcases tick.records with _ | ⟨record, records⟩
  · rfl
  dsimp only
  by_cases hkind : record.kind ∈ cfg.enabledKinds
  swap
  · rw [if_pos hkind]
  rw [if_neg (not_not.2 hkind)]
  rcases hstatus : s.leader.status B record.key with e | ⟨leader, st⟩ <;> dsimp only
  split_ifs with hcomplete
  · exact DataStore.held_congr (DataStore.status_ok hstatus).1 (DataStore.status_ok hstatus).2.1
  · exact DataStore.held_congr (DataStore.status_ok hstatus).1 (DataStore.status_ok hstatus).2.1

theorem followers_considerRecord (tick : ReplicatorTick) :
    (s.considerRecord B cfg members tick).followers = s.followers := by
  unfold considerRecord
  rcases tick.records with _ | ⟨record, records⟩
  · rfl
  dsimp only
  by_cases hkind : record.kind ∈ cfg.enabledKinds
  swap
  · rw [if_pos hkind]
  rw [if_neg (not_not.2 hkind)]
  rcases s.leader.status B record.key with e | ⟨leader, st⟩ <;> dsimp only
  split_ifs <;> rfl

theorem leader_askMember (tick : ReplicatorTick) (record : DataRecord) (leaderPresent : List ℕ)
    (f : EndpointId) (latencyMs now : ℚ) :
    (s.askMember B tick record leaderPresent f latencyMs now).leader = s.leader := by
  unfold askMember
  rcases (s.followers f).status B record.key with e | ⟨store, st⟩ <;> dsimp only
  split_ifs <;> rfl

theorem held_askMember (tick : ReplicatorTick) (record : DataRecord) (leaderPresent : List ℕ)
    (f : EndpointId) (latencyMs now : ℚ) (f' : EndpointId) (k : RecordKey) :
    ((s.askMember B tick record leaderPresent f latencyMs now).followers f').held k =
      (s.followers f').held k := by
  unfold askMember
  rcases hstatus : (s.followers f).status B record.key with e | ⟨store, st⟩ <;> dsimp only
  have hset : ((s.setFollower f store).followers f').held k = (s.followers f').held k := by
    by_cases heq : f' = f
    · subst heq
      rw [followers_setFollower_self]
      exact DataStore.held_congr (DataStore.status_ok hstatus).1 (DataStore.status_ok hstatus).2.1
    · rw [followers_setFollower_of_ne s store heq]
  split_ifs with hcomplete
  · exact hset
  · exact hset

theorem leader_sendChunk (tick : ReplicatorTick) (record : DataRecord) (f : EndpointId) (index : ℕ)
    (rest : List ℕ) : (s.sendChunk B cfg tick record f index rest).leader = s.leader := by
  unfold sendChunk
  split_ifs
  · rfl
  · rcases s.leader.readChunk B record.key index with e | data <;> rfl

theorem followers_sendChunk (tick : ReplicatorTick) (record : DataRecord) (f : EndpointId)
    (index : ℕ) (rest : List ℕ) :
    (s.sendChunk B cfg tick record f index rest).followers = s.followers := by
  unfold sendChunk
  split_ifs
  · rfl
  · rcases s.leader.readChunk B record.key index with e | data <;> rfl

/-- A step that meets the guard keeps the invariant. -/
theorem agreeing_step {action : ReplicaAction} (h : s.Agreeing members)
    (hguard : s.AgreeGuard B members action) (hstep : step B cfg members s action = some t) :
    t.Agreeing members := by
  cases action with
  | register => exact agreeing_register h hguard hstep
  | chunkPut => exact agreeing_chunkPut h hguard hstep
  | delete => exact agreeing_delete h hstep
  | flush =>
    simp only [step] at hstep
    split_ifs at hstep
    cases hstep
    exact h
  | handlePush => exact agreeing_handlePush h hguard hstep
  | startTick =>
    simp only [step] at hstep
    split_ifs at hstep
    cases hstep
    exact h
  | nextRecord =>
    simp only [step] at hstep
    split at hstep
    · cases hstep
    · split at hstep
      · cases hstep
        exact h.congr (held_considerRecord _) fun _ _ => by rw [followers_considerRecord]
      · cases hstep
        exact h.congr (held_considerRecord _) fun _ _ => by rw [followers_considerRecord]
      · cases hstep
  | nextMember answered latencyMs now =>
    simp only [step] at hstep
    split at hstep
    · cases hstep
    · split at hstep
      · split_ifs at hstep
        · cases hstep
          exact h
        · cases hstep
          exact h.congr (fun _ => by rw [leader_askMember]) (held_askMember _ _ _ _ _ _)
      · cases hstep
  | nextChunk =>
    simp only [step] at hstep
    split at hstep
    · cases hstep
    · split at hstep
      · cases hstep
        exact h
      · cases hstep
        exact h.congr (fun _ => by rw [leader_sendChunk]) fun _ _ => by rw [followers_sendChunk]
      · cases hstep
  | deliverChunk => exact agreeing_deliverChunk h hguard hstep
  | loseChunk =>
    simp only [step] at hstep
    split_ifs at hstep
    cases hstep
    exact h

/-- In a run whose steps meet the guard, a member that has the leader's record and is complete
reads the same bytes as the leader, if the leader is complete too, in every state reached. -/
theorem sameBytes_of_reach {N : DatasetNames}
    (hreach : Reach (step B cfg members) (SameBytesGuard B members N) {} s) {f : EndpointId} (hf : f ∈ members) {key : RecordKey} {record : DataRecord}
    {leader follower : DataStore} {leaderStatus followerStatus : DataStatus}
    (hleader : s.leader.catalog.lookup key = some record)
    (hfollower : (s.followers f).catalog.lookup key = some record)
    (hleaderStatus : s.leader.status B key = .ok (leader, leaderStatus))
    (hfollowerStatus : (s.followers f).status B key = .ok (follower, followerStatus))
    (hleaderComplete : leaderStatus.complete = true)
    (hfollowerComplete : followerStatus.complete = true) :
    (s.followers f).readWhole B key = s.leader.readWhole B key := by
  have hinv : s.Agreeing members := by
    refine Reach.invariant (I := fun s => s.Agreeing members) ?_
      (fun _ _ _ h hguard hstep => agreeing_step h hguard.2 hstep) hreach
    intro f _ key record hnone
    cases hnone
  refine (DataStore.readWhole_congr hleader hfollower fun i hi => ?_).symm
  obtain ⟨data, hdata⟩ := Option.isSome_iff_exists.1
    (DataStore.present_of_complete hleader hleaderStatus hleaderComplete i hi)
  obtain ⟨data', hdata'⟩ := Option.isSome_iff_exists.1
    (DataStore.present_of_complete hfollower hfollowerStatus hfollowerComplete i hi)
  rw [hdata, hdata', hinv f hf key record hleader hfollower i hi data hdata data' hdata']

open DataHistory (plainBackends plainKey)

/-- A replicator without a rate limit. -/
def plainConfig : ReplicatorConfig where
  rateLimitBytesPerSecond := 0
  enabledKinds := ["fs"]
  recheckSeconds := 60

/-- The record of the dataset. -/
def plainRecord (totalSize : ℤ) : DataRecord :=
  DataStore.newRecord plainKey "raw" "fs" totalSize 2 0 none "sha256"

/-- The follower has this record too, and both are complete. -/
def bothComplete (s : ReplicaCluster) (record : DataRecord) : Bool :=
  decide (s.leader.catalog.lookup plainKey = some record) &&
    decide ((s.followers "a").catalog.lookup plainKey = some record) &&
    (match s.leader.status plainBackends plainKey,
        (s.followers "a").status plainBackends plainKey with
      | .ok (_, st), .ok (_, st') => st.complete && st'.complete
      | _, _ => false)

/-- What is read of a complete dataset on both sides. -/
theorem bothComplete_iff {s : ReplicaCluster} {record : DataRecord} :
    s.bothComplete record = true ↔
      s.leader.catalog.lookup plainKey = some record ∧
      (s.followers "a").catalog.lookup plainKey = some record ∧
      ∃ leader follower leaderStatus followerStatus,
        s.leader.status plainBackends plainKey = .ok (leader, leaderStatus) ∧
        (s.followers "a").status plainBackends plainKey = .ok (follower, followerStatus) ∧
        leaderStatus.complete = true ∧ followerStatus.complete = true := by
  unfold bothComplete
  rw [Bool.and_eq_true, Bool.and_eq_true, decide_eq_true_eq, decide_eq_true_eq, and_assoc]
  refine and_congr_right fun _ => and_congr_right fun _ => ?_
  rcases s.leader.status plainBackends plainKey with e | ⟨leader, st⟩
  · simp
  · rcases (s.followers "a").status plainBackends plainKey with e | ⟨follower, st'⟩
    · simp
    · simp

/-- A chunk push is lost, and the next tick sends that chunk again. -/
theorem sameBytes_lostPush : ∃ s,
    Reach (step plainBackends plainConfig ["a"]) (SameBytesGuard plainBackends ["a"] .plain) {} s ∧
      (s.followers "a").readWhole plainBackends plainKey =
        s.leader.readWhole plainBackends plainKey := by
  obtain ⟨s, hreach, htest⟩ := exists_reach_of_guarded_run
    (step plainBackends plainConfig ["a"]) (SameBytesGuard plainBackends ["a"] .plain) {}
    (fun s => s.bothComplete (plainRecord 3))
    [.register plainKey "raw" "fs" 3 2 0 none "sha256", .chunkPut plainKey 0 [1, 2] 0,
      .chunkPut plainKey 1 [3] 0, .flush, .handlePush "a" 1,
      .startTick [plainRecord 3] 2 1, .nextRecord, .nextMember true 0 2, .nextChunk, .nextChunk,
      .nextChunk, .nextRecord, .loseChunk 1, .deliverChunk 0 3,
      .startTick [plainRecord 3] 62 60, .nextRecord, .nextMember true 0 62, .nextChunk,
      .nextChunk, .nextRecord, .deliverChunk 0 63]
    (by decide +kernel)
  obtain ⟨hleader, hfollower, _, _, _, _, hstatus, hstatus', hcomplete, hcomplete'⟩ :=
    bothComplete_iff.1 htest
  exact ⟨s, hreach, sameBytes_of_reach hreach (by decide) hleader hfollower hstatus hstatus'
    hcomplete hcomplete'⟩

/-- The leader's chunk is replaced after the follower has it. -/
theorem otherBytes_replacedChunk : ∃ s record leader follower leaderStatus followerStatus,
    Reach (step plainBackends plainConfig ["a"]) Always {} s ∧
      s.leader.catalog.lookup plainKey = some record ∧
      (s.followers "a").catalog.lookup plainKey = some record ∧
      s.leader.status plainBackends plainKey = .ok (leader, leaderStatus) ∧
      (s.followers "a").status plainBackends plainKey = .ok (follower, followerStatus) ∧
      leaderStatus.complete = true ∧ followerStatus.complete = true ∧
      (s.followers "a").readWhole plainBackends plainKey ≠
        s.leader.readWhole plainBackends plainKey := by
  obtain ⟨s, hreach, htest⟩ := exists_reach_of_run (step plainBackends plainConfig ["a"]) {}
    (fun s => s.bothComplete (plainRecord 2) &&
      decide (((s.followers "a").readWhole plainBackends plainKey).toOption ≠
        (s.leader.readWhole plainBackends plainKey).toOption))
    [.register plainKey "raw" "fs" 2 2 0 none "sha256", .chunkPut plainKey 0 [1, 2] 0, .flush,
      .handlePush "a" 1, .startTick [plainRecord 2] 2 1, .nextRecord, .nextMember true 0 2,
      .nextChunk, .deliverChunk 0 3, .chunkPut plainKey 0 [5, 6] 4, .nextChunk, .nextRecord,
      .startTick [plainRecord 2] 62 60, .nextRecord, .nextMember true 0 62, .nextRecord]
    (by decide +kernel)
  rw [Bool.and_eq_true] at htest
  obtain ⟨hboth, hne⟩ := htest
  obtain ⟨hleader, hfollower, leader, follower, leaderStatus, followerStatus, hstatus, hstatus',
    hcomplete, hcomplete'⟩ := bothComplete_iff.1 hboth
  refine ⟨s, plainRecord 2, leader, follower, leaderStatus, followerStatus, hreach, hleader,
    hfollower, hstatus, hstatus', hcomplete, hcomplete', fun hsame => ?_⟩
  exact of_decide_eq_true hne (congrArg Except.toOption hsame)

end ReplicaCluster

end Axo
