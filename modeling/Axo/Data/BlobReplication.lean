import Axo.Data.FileBlobs

/-!
# Replication of the chunks

A stable leader with its followers, after `service/blob_replication.py` and, of `core/consensus`,
`data_sync.py`.

* Records and tombstones travel by state pushes, in the order in which they were flushed;
* chunks travel by `DATA_CHUNK_PUT`, which may be late, out of order or lost;
* a tick of the `BlobReplicator` works in steps, with steps of the leader's handlers in between:
  for each record it takes the leader's own status, and for each member the member's, and then
  reads and sends what the member lacks.
-/

namespace Axo

open Transition

namespace DataStore

variable (B : DataBackends)

/-- One round of the loop of `apply_incoming`. -/
def applyEntry (now : ℚ) (s : DataStore) (key : CombinedKey) : Blob DataRecord → DataStore
  | .tombstone =>
    match s.delete B key.key now with
    | .error _ => s
    | .ok (s, _) => s
  | .record record => { s with catalog := s.catalog.insert key.key record }

/-- `apply_incoming`. -/
def applyIncoming (s : DataStore) (dataChanges : Dict CombinedKey (Blob DataRecord)) (now : ℚ) :
    DataStore :=
  dataChanges.entries.foldl (fun s e => s.applyEntry B now e.1 e.2) s

/-- The registry after it was asked for the status of a dataset. -/
def afterStatus (s : DataStore) (key : RecordKey) : DataStore :=
  match s.status B key with
  | .error _ => s
  | .ok (s, _) => s

/-- `DataChunkPutHandler.handle`: the chunk is stored, and the status is asked for. -/
def handleChunkPut (s : DataStore) (key : RecordKey) (index : ℤ) (data : List UInt8) (now : ℚ) :
    DataStore :=
  match s.storeChunk B key index data now with
  | .error _ => s
  | .ok (s, _, _) => s.afterStatus B key

/-- The catalog of a follower is the one that the bridge's own loop leaves. -/
theorem catalog_applyEntry (now : ℚ) (s : DataStore) (tracker : DirtyTracker) (key : CombinedKey)
    (blob : Blob DataRecord) :
    (s.applyEntry B now key blob).catalog =
      (DataRegistrySyncBridge.applyEntry now (s.catalog, tracker) key blob).1 := by
  cases blob with
  | record record => rfl
  | tombstone =>
    rcases hrecord : s.catalog.lookup key.key with _ | record <;>
      simp only [applyEntry, delete, DataRegistrySyncBridge.applyEntry, DataRegistry.delete, hrecord]

end DataStore

/-- `PeerSyncInfo`. -/
structure PeerSyncInfo where
  complete : Bool
  presentChunks : ℕ
  totalChunks : ℤ
  latencyMs : ℚ
  lastSyncedAt : ℚ

/-- The configuration of the `BlobReplicator`. -/
structure ReplicatorConfig where
  rateLimitBytesPerSecond : ℚ
  enabledKinds : List String
  recheckSeconds : ℚ

/-- A chunk on its way to a member. -/
structure ChunkPush where
  peer : EndpointId
  key : RecordKey
  index : ℕ
  data : List UInt8
  deriving DecidableEq

/-- A tick of the replicator in progress. -/
structure ReplicatorTick where
  now : ℚ
  byteBudget : ℚ
  bytesSent : ℚ := 0
  /-- the records that are yet to be considered -/
  records : List DataRecord
  /-- the record that is considered, the leader's chunks of it, and the members yet to be asked -/
  current : Option (DataRecord × List ℕ × List EndpointId) := none
  /-- the member that is sent chunks, and their indices -/
  pushes : Option (EndpointId × List ℕ) := none

/-- A leader, its followers, and what is on its way between them. -/
structure ReplicaCluster where
  leader : DataStore := {}
  dirtyTracker : DirtyTracker := {}
  followers : EndpointId → DataStore := fun _ => {}
  /-- the state pushes that each follower has yet to handle, the first one first -/
  metadata : EndpointId → List (Dict CombinedKey (Blob DataRecord)) := fun _ => []
  chunkPushes : List ChunkPush := []
  peerStatus : Dict (RecordKey × EndpointId) PeerSyncInfo := ∅
  tick : Option ReplicatorTick := none

/-- The steps of the cluster. -/
inductive ReplicaAction
  | register (key : RecordKey) (format kind : String) (totalSize chunkBytes : ℤ) (now : ℚ)
      (contentHash : Option String) (contentHashAlgo : String)
  | chunkPut (key : RecordKey) (index : ℤ) (data : List UInt8) (now : ℚ)
  | delete (key : RecordKey) (now : ℚ)
  /-- what is dirty is pushed to every member -/
  | flush
  /-- a follower handles its next state push -/
  | handlePush (follower : EndpointId) (now : ℚ)
  /-- a tick begins; `list_records` is in no particular order -/
  | startTick (records : List DataRecord) (now elapsedSeconds : ℚ)
  /-- the tick goes on to its next record -/
  | nextRecord
  /-- the tick goes on to the next member, which may not answer -/
  | nextMember (answered : Bool) (latencyMs now : ℚ)
  /-- the tick reads the next chunk and sends it -/
  | nextChunk
  | deliverChunk (n : ℕ) (now : ℚ)
  | loseChunk (n : ℕ)

/-- A registration is of one of the datasets whose chunks are files of their own; the followers'
records, and the chunks of all, are of what was registered. -/
def ReplicaAction.Within (N : DatasetNames) : ReplicaAction → Prop
  | .register key .. => key ∈ N.keys
  | _ => True

instance (N : DatasetNames) [DecidablePred (· ∈ N.keys)] : DecidablePred (ReplicaAction.Within N)
  | .register key .. => inferInstanceAs (Decidable (key ∈ N.keys))
  | .chunkPut .. | .delete .. | .flush | .handlePush .. | .startTick .. | .nextRecord
  | .nextMember .. | .nextChunk | .deliverChunk .. | .loseChunk .. => isTrue trivial

namespace ReplicaCluster

variable (B : DataBackends) (cfg : ReplicatorConfig) (members : List EndpointId)

/-- The cluster with one follower changed. -/
def setFollower (s : ReplicaCluster) (f : EndpointId) (store : DataStore) : ReplicaCluster :=
  { s with followers := Function.update s.followers f store }

/-- The tick goes on to its next record, if that is enabled and complete here. -/
def considerRecord (s : ReplicaCluster) (tick : ReplicatorTick) : ReplicaCluster :=
  match tick.records with
  | [] => { s with tick := none }
  | record :: records =>
    let tick := { tick with records := records, current := none }
    if record.kind ∉ cfg.enabledKinds then { s with tick := some tick }
    else
      match s.leader.status B record.key with
      | .error _ => { s with tick := none }
      | .ok (leader, st) =>
        if st.complete then
          { s with
            leader := leader
            tick := some { tick with current := some (record, st.presentChunkIndices, members) } }
        else { s with leader := leader, tick := some tick }

/-- The member was found complete a short while ago. -/
def recentlyComplete (s : ReplicaCluster) (tick : ReplicatorTick) (key : RecordKey)
    (f : EndpointId) : Bool :=
  match s.peerStatus.lookup (key, f) with
  | none => false
  | some cached => cached.complete && decide (tick.now - cached.lastSyncedAt < cfg.recheckSeconds)

/-- The tick asks a member for its status of the record. -/
def askMember (s : ReplicaCluster) (tick : ReplicatorTick) (record : DataRecord)
    (leaderPresent : List ℕ) (f : EndpointId) (latencyMs now : ℚ) : ReplicaCluster :=
  match (s.followers f).status B record.key with
  | .error _ => { s with tick := some tick }
  | .ok (store, st) =>
    let info : PeerSyncInfo :=
      { complete := st.complete
        presentChunks := st.presentChunkIndices.length
        totalChunks := record.totalChunks
        latencyMs := latencyMs
        lastSyncedAt := now }
    let s := s.setFollower f store
    let s := { s with peerStatus := s.peerStatus.insert (record.key, f) info }
    if st.complete then { s with tick := some tick }
    else
      { s with
        tick := some { tick with
          pushes := some (f, leaderPresent.filter fun i => i ∉ st.presentChunkIndices) } }

/-- The tick reads a chunk of the record and sends it, unless the budget is spent. -/
def sendChunk (s : ReplicaCluster) (tick : ReplicatorTick) (record : DataRecord) (f : EndpointId)
    (index : ℕ) (rest : List ℕ) : ReplicaCluster :=
  if 0 < cfg.rateLimitBytesPerSecond ∧ tick.byteBudget ≤ tick.bytesSent then
    { s with tick := some { tick with pushes := none } }
  else
    match s.leader.readChunk B record.key index with
    | .error _ => { s with tick := some { tick with pushes := some (f, rest) } }
    | .ok data =>
      { s with
        chunkPushes := s.chunkPushes ++
          [{ peer := f, key := record.key, index := index, data := data }]
        tick := some { tick with
          pushes := some (f, rest)
          bytesSent := tick.bytesSent + data.length } }

/-- One step. -/
def step (s : ReplicaCluster) : ReplicaAction → Option ReplicaCluster
  | .register key format kind totalSize chunkBytes now contentHash contentHashAlgo =>
    match s.leader.register B key format kind totalSize chunkBytes now contentHash
      contentHashAlgo with
    | .error _ => some s
    | .ok (leader, _, _) =>
      some { s with
        leader := leader
        dirtyTracker :=
          DataRegistrySyncBridge.onDataEvent leader.catalog s.dirtyTracker key now }
  | .chunkPut key index data now =>
    some { s with leader := s.leader.handleChunkPut B key index data now }
  | .delete key now =>
    match s.leader.delete B key now with
    | .error _ => some s
    | .ok (leader, _) =>
      some { s with
        leader := leader
        dirtyTracker := DataRegistrySyncBridge.onDataDeleted s.dirtyTracker key now }
  | .flush =>
    if s.dirtyTracker.pendingCount = 0 then none
    else
      let (mutation, tracker) := s.dirtyTracker.drain
      some { s with
        dirtyTracker := tracker
        metadata := fun f =>
          if f ∈ members then s.metadata f ++ [mutation.dataChanges] else s.metadata f }
  | .handlePush f now =>
    match s.metadata f with
    | [] => none
    | dataChanges :: rest =>
      some { s.setFollower f ((s.followers f).applyIncoming B dataChanges now) with
        metadata := Function.update s.metadata f rest }
  | .startTick records now elapsedSeconds =>
    if s.tick.isNone ∧ members ≠ [] ∧ records.Perm s.leader.catalog.values then
      some { s with
        tick := some {
          now := now
          byteBudget := cfg.rateLimitBytesPerSecond * elapsedSeconds
          records := records } }
    else none
  | .nextRecord =>
    match s.tick with
    | none => none
    | some tick =>
      match tick.current, tick.pushes with
      | none, none | some (_, _, []), none => some (s.considerRecord B cfg members tick)
      | _, _ => none
  | .nextMember answered latencyMs now =>
    match s.tick with
    | none => none
    | some tick =>
      match tick.current, tick.pushes with
      | some (record, leaderPresent, f :: rest), none =>
        let tick := { tick with current := some (record, leaderPresent, rest) }
        if s.recentlyComplete cfg tick record.key f = true ∨ answered = false then
          some { s with tick := some tick }
        else some (s.askMember B tick record leaderPresent f latencyMs now)
      | _, _ => none
  | .nextChunk =>
    match s.tick with
    | none => none
    | some tick =>
      match tick.current, tick.pushes with
      | some _, some (_, []) => some { s with tick := some { tick with pushes := none } }
      | some (record, _, _), some (f, index :: rest) =>
        some (s.sendChunk B cfg tick record f index rest)
      | _, _ => none
  | .deliverChunk n now =>
    match s.chunkPushes[n]? with
    | none => none
    | some push =>
      some { s.setFollower push.peer
          ((s.followers push.peer).handleChunkPut B push.key push.index push.data now) with
        chunkPushes := s.chunkPushes.eraseIdx n }
  | .loseChunk n =>
    if n < s.chunkPushes.length then some { s with chunkPushes := s.chunkPushes.eraseIdx n }
    else none

end ReplicaCluster

end Axo
