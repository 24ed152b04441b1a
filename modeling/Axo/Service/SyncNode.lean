import Axo.Consensus.Replication
import Axo.Service.ConsensusLoop

/-!
# An endpoint that replicates

The registries, the tracker, the cluster state and the elector of one endpoint together, with
what happens to them: a registry call, the flush at the end of `run_consensus_tick`,
`StateSyncPushHandler.handle` and `App._pull_state_sync`.

A registry call is its write (`SyncNode.write`) and, if it emits an event, the bridge that the
event reaches (`SyncNode.notify`); the event bus is synchronous.
-/

namespace Axo

/-- What an endpoint is configured with; `sha256` is the digest of the standard library. -/
structure SyncConfig where
  blobBackends : List String
  maxDirtyCount : ℤ
  idleSeconds : ℚ
  sha256 : List UInt8 → String

/-- The stores and the consensus state of an endpoint. -/
structure SyncNode where
  functions : FunctionStore := ∅
  catalog : DataCatalog := ∅
  buckets : BucketCatalog := ∅
  streams : Dict RecordKey OpenStream := ∅
  dirtyTracker : DirtyTracker := {}
  state : ClusterState := {}
  elector : BullyLeaderElector
  deriving DecidableEq

/-- A call of one of the registries. -/
inductive RegistryOp
  | registerFunction (functionId name : String) (code : List UInt8)
      (runtimeSpec : Option RuntimeSpec) (codeFormat : String) (paramsSchema : List ParamSpec)
  | updateFunction (key : RecordKey) (paramsSchema : List ParamSpec)
      (envVars : Dict String String)
  | deleteFunction (key : RecordKey)
  | registerData (key : RecordKey) (format kind : String) (totalSize chunkBytes : ℤ)
      (contentHash : Option String) (contentHashAlgo : String)
  | openStream (key : RecordKey) (format kind : String) (chunkBytes : ℤ)
  | appendChunk (key : RecordKey) (data : List UInt8)
  | finalizeStream (key : RecordKey)
  | deleteData (key : RecordKey)
  | registerBucket (name : String) (quotaBytes : ℤ)

/-- The payload and the envelope of a `STATE_SYNC_PUSH`. -/
structure StatePush where
  term : ℕ
  leaderIds : Finset EndpointId
  members : Finset EndpointId
  functionChanges : Dict CombinedKey (Blob FunctionDoc)
  dataChanges : Dict CombinedKey (Blob DataRecord)
  bucketChanges : Dict String DataBucket
  deriving DecidableEq

/-- `_push_state_sync`: what is sent of a flush. -/
def StatePush.ofMutation (view : LeaderView) (members : Finset EndpointId)
    (mutation : StateMutation) : StatePush where
  term := view.term
  leaderIds := view.leaderIds
  members := members
  functionChanges := mutation.functionChanges
  dataChanges := mutation.dataChanges
  bucketChanges := mutation.bucketChanges

/-- The state that a push is merged into before it is applied. -/
def StatePush.incoming (push : StatePush) (localState : ClusterState) : ClusterState where
  term := push.term
  leaderIds := push.leaderIds
  members := push.members
  functions := push.functionChanges ∪ localState.functions
  data := push.dataChanges ∪ localState.data
  buckets := push.bucketChanges ∪ localState.buckets
  version := localState.version + 1

/-- `StaleTermError`. -/
def staleTermError (term localTerm : ℕ) : AxoError :=
  { code := 6002
    name := "STALE_TERM"
    message := "push term " ++ term.repr ++ " is older than local term " ++ localTerm.repr
    context := [("incoming_term", .int term), ("local_term", .int localTerm)] }

namespace SyncNode

/-- An endpoint that has just booted. -/
def boot (selfId : EndpointId) : SyncNode := { elector := .new selfId }

/-- `is_leader(self_id)`. -/
def isLeader (n : SyncNode) : Bool := n.elector.isLeader n.elector.selfId

/-! ### Registry calls -/

/-- A registry call up to the event it emits. -/
def write (cfg : SyncConfig) (n : SyncNode) (now : ℚ) :
    RegistryOp → Except AxoError (SyncNode × Option RegistryEvent)
  | .registerFunction functionId name code runtimeSpec codeFormat paramsSchema =>
    let (functions, event) := FunctionRegistry.register n.functions functionId name code now
      runtimeSpec codeFormat paramsSchema
    .ok ({ n with functions := functions }, some event)
  | .updateFunction key paramsSchema envVars => do
    let (functions, event) ← FunctionRegistry.update n.functions key paramsSchema envVars
    return ({ n with functions := functions }, some event)
  | .deleteFunction key => do
    let (functions, event) ← FunctionRegistry.delete n.functions key
    return ({ n with functions := functions }, some event)
  | .registerData key format kind totalSize chunkBytes contentHash contentHashAlgo => do
    let (catalog, event) ← DataRegistry.register cfg.blobBackends n.catalog key format kind
      totalSize chunkBytes now contentHash contentHashAlgo
    return ({ n with catalog := catalog }, some event)
  | .openStream key format kind chunkBytes =>
    .ok ({ n with streams := DataRegistry.openStream n.streams key format kind chunkBytes }, none)
  | .appendChunk key data => do
    let streams ← DataRegistry.appendChunk cfg.blobBackends n.streams key data
    return ({ n with streams := streams }, none)
  | .finalizeStream key => do
    let (streams, catalog, event) ←
      DataRegistry.finalizeStream cfg.sha256 n.streams n.catalog key now
    return ({ n with streams := streams, catalog := catalog }, some event)
  | .deleteData key => do
    let (catalog, event) ← DataRegistry.delete n.catalog key
    return ({ n with catalog := catalog }, some event)
  | .registerBucket name quotaBytes => do
    let (buckets, event) ← BucketRegistry.register n.buckets name quotaBytes now
    return ({ n with buckets := buckets }, some event)

/-- The bridge that is subscribed to an event. -/
def notify (n : SyncNode) (now : ℚ) : RegistryEvent → SyncNode
  | .functionRegistered key | .functionUpdated key =>
    { n with
      dirtyTracker := RegistrySyncBridge.onFunctionEvent n.functions n.dirtyTracker key now }
  | .functionDeleted key =>
    { n with dirtyTracker := RegistrySyncBridge.onFunctionDeleted n.dirtyTracker key now }
  | .dataRegistered key =>
    { n with dirtyTracker := DataRegistrySyncBridge.onDataEvent n.catalog n.dirtyTracker key now }
  | .dataDeleted key =>
    { n with dirtyTracker := DataRegistrySyncBridge.onDataDeleted n.dirtyTracker key now }
  | .bucketRegistered name =>
    { n with
      dirtyTracker := BucketRegistrySyncBridge.onBucketEvent n.buckets n.dirtyTracker name now }

/-- A whole registry call; one that fails changes nothing. -/
def perform (cfg : SyncConfig) (n : SyncNode) (op : RegistryOp) (now : ℚ) : SyncNode :=
  match n.write cfg now op with
  | .error _ => n
  | .ok (n', none) => n'
  | .ok (n', some event) => n'.notify now event

/-! ### Ticks -/

/-- The end of `run_consensus_tick` when a flush is due: the tracker is drained into the cluster
state, and what it held is pushed to every member. -/
def flush (n : SyncNode) (members : List EndpointId) : SyncNode × List (EndpointId × StatePush) :=
  let (mutation, tracker) := n.dirtyTracker.drain
  let n' := { n with dirtyTracker := tracker, state := n.state.applyLocal mutation }
  let push := StatePush.ofMutation n.elector.view
    (memberIdsOf n.elector.selfId members).toFinset mutation
  (n', if mutation.isEmpty then [] else members.map fun member => (member, push))

/-- `elector.recompute(members, now)`. -/
def recompute (n : SyncNode) (members : List EndpointId) : SyncNode :=
  { n with elector := n.elector.recompute members }

/-- `run_consensus_tick`: the view is recomputed, and a leader flushes when it is due. -/
def tick (cfg : SyncConfig) (n : SyncNode) (members : List EndpointId) (now : ℚ) :
    SyncNode × List (EndpointId × StatePush) :=
  if (n.recompute members).isLeader ∧
      n.dirtyTracker.shouldFlush cfg.maxDirtyCount now cfg.idleSeconds then
    (n.recompute members).flush members
  else (n.recompute members, [])

/-- The elector is left as `runConsensusTick` leaves it. -/
theorem tick_elector (cfg : SyncConfig) (n : SyncNode) (members : List EndpointId) (now : ℚ)
    (highWaterMark : ℕ) (previous : Option (List EndpointId)) :
    (n.tick cfg members now).1.elector =
      (runConsensusTick n.elector members n.elector.selfId highWaterMark previous).elector := by
  unfold tick
  split_ifs <;> rfl

/-! ### Pushes and pulls -/

/-- `apply_incoming` of the functions. -/
def applyFunctions (n : SyncNode) (changes : Dict CombinedKey (Blob FunctionDoc)) : SyncNode :=
  { n with functions := RegistrySyncBridge.applyIncoming n.functions changes }

/-- `apply_incoming` of the datasets. -/
def applyData (n : SyncNode) (changes : Dict CombinedKey (Blob DataRecord)) (now : ℚ) : SyncNode :=
  let (catalog, tracker) :=
    DataRegistrySyncBridge.applyIncoming n.catalog n.dirtyTracker changes now
  { n with catalog := catalog, dirtyTracker := tracker }

/-- `apply_incoming` of the buckets. -/
def applyBuckets (n : SyncNode) (changes : Dict String DataBucket) : SyncNode :=
  { n with buckets := BucketRegistrySyncBridge.applyIncoming n.buckets changes }

/-- The three `apply_incoming` calls. -/
def applyIncoming (n : SyncNode) (functions : Dict CombinedKey (Blob FunctionDoc))
    (data : Dict CombinedKey (Blob DataRecord)) (buckets : Dict String DataBucket) (now : ℚ) :
    SyncNode :=
  ((n.applyFunctions functions).applyData data now).applyBuckets buckets

/-- `StateSyncPushHandler.handle`; the result of `apply_remote` is not looked at. -/
def handlePush (n : SyncNode) (push : StatePush) (now : ℚ) : Except AxoError SyncNode :=
  if push.term < n.state.term then .error (staleTermError push.term n.state.term)
  else
    let n' := { n with state := (n.state.applyRemote (push.incoming n.state)).1 }
    .ok (n'.applyIncoming push.functionChanges push.dataChanges push.bucketChanges now)

/-- `_pull_state_sync`, with the state that the peer has sent. -/
def pullFrom (n : SyncNode) (incoming : ClusterState) (now : ℚ) : SyncNode :=
  match n.state.applyRemote incoming with
  | (_, false) => n
  | (state, true) =>
    let n' := { n with state := state }
    n'.applyIncoming incoming.functions incoming.data incoming.buckets now

end SyncNode

end Axo
