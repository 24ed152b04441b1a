import Axo.Choreography.RunChoreography
import Axo.Data.ClientUpload
import Axo.Data.FileBlobs
import Axo.Wire.PyValues

/-!
# Results in buckets

`_write_fn_to_bucket_edges` of `run_choreography.py`, with the `DATA_REGISTER` and `DATA_CHUNK_PUT`
that it sends to an endpoint, `service/handlers/leader_proxy.py` in front of the first of them, and
any number of nodes of any number of runs that write side by side.

* `RegistryOps` is what an endpoint's data registry answers, `fileOps` over its files;
* `ResultWriter` is one call of `_write_fn_to_bucket_edges`, up to the `COMPLETED` of its node;
  `BucketCluster` is all of them, with the data registry of every endpoint;
* a command is under way until its endpoint takes it; when its sender has given up by then it is
  `late`, and may be taken at any time or never;
* `Kept` is what should hold of a completed node, and `Lands` is what its steps need for that.

What the read model answers, which leader an endpoint believes in, and the bucket registries are
given with each step.
-/

namespace Axo

open Transition

/-! ### What is written where -/

/-- `f"{target.bucket_name}/{choreography.name}-{node.node_id}"`. -/
def resultName (bucket choreography nodeId : String) : String :=
  bucket ++ "/" ++ choreography ++ "-" ++ nodeId

/-- The buckets that the outbound edges of a node lead to; an edge whose target is missing or has no
bucket name is passed over. -/
def ChoreographyGraph.resultBuckets (graph : ChoreographyGraph) (nodeId : String) :
    List (Option String) :=
  (graph.edges.filter fun e => e.sourceNodeId = nodeId ∧ e.kind = .fnToBucket).map fun e =>
    ((graph.findNode e.targetNodeId).bind ChoreographyNode.bucketName).filter (· ≠ "")

/-- `(max(existing_versions) + 1) if existing_versions else 1`. -/
def nextResultVersion (items : List DataItem) (name : String) : ℤ :=
  match ((items.filter fun item => item.name = name).map DataItem.version).max? with
  | none => 1
  | some version => version + 1

/-- The endpoint that the commands are sent to: that of the function, if both are known. -/
def writeTarget (endpointIds : Option (List String)) (routerBind : String → Option String) :
    Option String :=
  match endpointIds.bind List.head? with
  | none => none
  | some endpointId => if ((routerBind endpointId).filter (· ≠ "")).isSome then endpointId else none

/-- `len(payload) or 1`. -/
def resultChunkBytes (payload : List UInt8) : ℕ := if payload = [] then 1 else payload.length

/-- The envelope of the `DATA_REGISTER`. -/
def resultEnvelope (key : RecordKey) (payload : List UInt8) : DataEnvelope :=
  AxoEndpointClient.registerEnvelope key payload.length (resultChunkBytes payload) "raw" "fs"

/-- `json.dumps(value).encode("utf-8")`. -/
def resultPayload (json : JsonLib) (value : Value) : List UInt8 := utf8Encode (json.dumps value)

/-- A node that is executed in a run. -/
structure NodeExecution where
  /-- `choreography.name` -/
  choreography : String
  graph : ChoreographyGraph
  node : ChoreographyNode
  inputs : RunInputs
  nodeResults : Dict String Value

/-- What `_run_node` leaves under the node, which it then writes; there is none for a node that has
failed. -/
def NodeExecution.result? (execution : NodeExecution) : Option Value :=
  (execution.inputs.runNode execution.graph execution.node execution.nodeResults).stored

/-- The buckets that the result is for. -/
def NodeExecution.buckets (execution : NodeExecution) : List (Option String) :=
  execution.graph.resultBuckets execution.node.nodeId

/-! ### `LeaderProxyHandler` -/

/-- `LeaderUnreachableError`. -/
def leaderUnreachableError (message : String) (context : List (String × Value)) : AxoError :=
  { code := 6001, name := "LEADER_UNREACHABLE", message := message, context := context }

/-- What a command meets where it arrives. -/
structure Meeting where
  /-- whom each endpoint takes for the leader, the empty text for nobody -/
  leaderOf : String → String
  /-- `resolve_leader_rpc_uri` -/
  rpcUri : String → Option String
  /-- the error of the forwarding, unless it is answered in time -/
  forwardError : Option String := none
  /-- the bucket registry of each endpoint -/
  buckets : String → Option BucketCatalog := fun _ => none
  ownRpcUri : String := "tcp://0.0.0.0:5555"
  now : ℚ := 0

/-- Where `handle` leads to. -/
inductive ProxyRoute
  | here
  | refused (error : AxoError)
  | forward (leaderId rpcUri : String)

/-- `LeaderProxyHandler.handle`, up to the handler that it wraps. -/
def proxyRoute (m : Meeting) (selfId : String) (forwarded : Bool) : ProxyRoute :=
  if m.leaderOf selfId = selfId then .here
  else if forwarded then
    .refused (leaderUnreachableError "leader view unresolved after one forward hop" [])
  else
    match m.rpcUri (m.leaderOf selfId) with
    | none =>
      .refused (leaderUnreachableError
        ("no known address for leader " ++ (Value.str (m.leaderOf selfId)).pyRepr)
        [("leader_id", .str (m.leaderOf selfId))])
    | some uri => .forward (m.leaderOf selfId) uri

/-! ### The registry of an endpoint -/

/-- What the two handlers make of a data registry, and what is read from it. -/
structure RegistryOps (σ : Type) where
  backends : DataBackends
  /-- all but the bytes -/
  registry : σ → DataStore
  register : String → Option BucketCatalog → σ → DataEnvelope → ℚ → σ × Option CommandResult
  chunkPut : σ → DataEnvelope → List UInt8 → ℚ → σ × Option CommandResult
  status : σ → RecordKey → Except DataFailure (σ × DataStatus)
  readWhole : σ → RecordKey → Except DataFailure (List UInt8)

/-- `DataChunkPutHandler.handle` over files. -/
def FileStore.handleChunkPut (B : DataBackends) (s : FileStore) (envelope : DataEnvelope)
    (payload : List UInt8) (now : ℚ) : FileStore × Option CommandResult :=
  match envelope.key, envelope.chunkIndex with
  | some key, some index =>
    match s.storeChunk B key index payload now with
    | .error (.raised _) => (s, none)
    | .error (.err err) => (s, some (.fromError err))
    | .ok (s, _, _) =>
      -- the chunk is stored already when the status raises
      match s.status B key with
      | .error _ => (s, none)
      | .ok (s, st) => (s, some { ok := true, metadata := DataChunkPutHandler.metadata key st })
  | _, _ =>
    (s, some (fieldsMissing "name, version, and chunk_index are required"
      ["name", "version", "chunk_index"]))

/-- The registry over the files of the endpoint. -/
def fileOps (B : DataBackends) : RegistryOps FileStore where
  backends := B
  registry := FileStore.registry
  register uri buckets s envelope now :=
    let handled := DataRegisterHandler.handle B uri buckets s.registry envelope now
    ({ s with registry := handled.store }, handled.reply)
  chunkPut s envelope payload now := s.handleChunkPut B envelope payload now
  status s key := s.status B key
  readWhole s key := s.readWhole B key

/-- The registry over blobs. -/
def blobOps (B : DataBackends) : RegistryOps DataStore where
  backends := B
  registry := id
  register uri buckets s envelope now :=
    let handled := DataRegisterHandler.handle B uri buckets s envelope now
    (handled.store, handled.reply)
  chunkPut s envelope payload now :=
    let handled := DataChunkPutHandler.handle B s envelope payload now
    (handled.store, handled.reply)
  status s key := s.status B key
  readWhole s key := s.readWhole B key

/-! ### The system -/

/-- A run and a node of it. -/
abbrev WriterId := String × String

/-- How far a write has come; the reply of a command that was taken is none when there is none. -/
inductive WriteStage
  /-- before the next edge -/
  | choosing
  /-- `DATA_REGISTER` is under way -/
  | registering (key : RecordKey)
  | registered (key : RecordKey) (reply : Option CommandResult)
  /-- `DATA_CHUNK_PUT` is under way -/
  | putting (key : RecordKey)
  | put (key : RecordKey) (reply : Option CommandResult)
  /-- the node is saved as `COMPLETED` -/
  | completed

/-- A call of `_write_fn_to_bucket_edges`. -/
structure ResultWriter where
  execution : NodeExecution
  payload : List UInt8
  target : Option String
  /-- for each edge so far the dataset that was chosen -/
  handled : List (Option RecordKey) := []
  stage : WriteStage := .choosing

/-- A command that was sent. -/
structure SentWrite where
  sender : WriterId
  isPut : Bool
  key : RecordKey
  payload : List UInt8
  endpointId : String
  forwarded : Bool := false

/-- The cluster, with those that write to it. -/
structure BucketCluster (σ : Type) where
  stores : String → σ
  writers : Dict WriterId ResultWriter := ∅
  late : List SentWrite := []
  /-- whose results the leader has stored, and as what -/
  log : List (WriterId × RecordKey) := []

inductive BucketAct
  /-- a node's jobs have ended, and its result is to be written -/
  | begin (id : WriterId) (execution : NodeExecution) (endpointIds : Option (List String))
      (routerBind : String → Option String)
  /-- the next edge, with what `list_by_bucket` answers -/
  | look (id : WriterId) (items : List DataItem)
  /-- the endpoint takes the command that is under way -/
  | take (id : WriterId) (m : Meeting)
  /-- its reply arrives -/
  | answer (id : WriterId)
  /-- `send_command` gives up -/
  | timeOut (id : WriterId)
  /-- the node is saved as `COMPLETED` -/
  | complete (id : WriterId)
  /-- an endpoint takes a command whose sender has given up -/
  | takeLate (index : ℕ) (m : Meeting)

namespace ResultWriter

variable (writer : ResultWriter)

/-- The dataset that is worked on. -/
def current? : Option RecordKey :=
  match writer.stage with
  | .registering key | .registered key _ | .putting key | .put key _ => some key
  | .choosing | .completed => none

/-- The datasets that were chosen. -/
def keys : List RecordKey := writer.handled.reduceOption ++ writer.current?.toList

/-- The bucket of the next edge; the inner one is none when the edge is passed over. -/
def nextBucket? : Option (Option String) := writer.execution.buckets[writer.handled.length]?

/-- The dataset that is chosen in a bucket. -/
def nextKey (items : List DataItem) (bucket : String) : RecordKey :=
  let name := resultName bucket writer.execution.choreography writer.execution.node.nodeId
  { id := name, version := nextResultVersion items name }

/-- On to the next edge. -/
def moveOn (key : Option RecordKey) : ResultWriter :=
  { writer with handled := writer.handled ++ [key], stage := .choosing }

/-- The chunk of the result was taken. -/
def chunkTaken : Bool :=
  match writer.stage with
  | .put _ _ => true
  | _ => false

/-- The command that is under way. -/
def sent? (id : WriterId) : Option SentWrite :=
  match writer.target, writer.stage with
  | some target, .registering key => some ⟨id, false, key, writer.payload, target, false⟩
  | some target, .putting key => some ⟨id, true, key, writer.payload, target, false⟩
  | _, _ => none

end ResultWriter

namespace BucketCluster

variable {σ : Type} (R : RegistryOps σ) (json : JsonLib) (leader : String) (s : BucketCluster σ)

/-- An endpoint registers a result. -/
def registerAt (m : Meeting) (endpointId : String) (key : RecordKey) (payload : List UInt8) :
    BucketCluster σ × Option CommandResult :=
  let (store, reply) := R.register m.ownRpcUri (m.buckets endpointId) (s.stores endpointId)
    (resultEnvelope key payload) m.now
  ({ s with stores := Function.update s.stores endpointId store }, reply)

/-- An endpoint stores the chunk of a result. -/
def putAt (m : Meeting) (sent : SentWrite) : BucketCluster σ × Option CommandResult :=
  let (store, reply) := R.chunkPut (s.stores sent.endpointId)
    (AxoEndpointClient.chunkEnvelope sent.key 0) sent.payload m.now
  ({ s with
    stores := Function.update s.stores sent.endpointId store
    log := if sent.endpointId = leader ∧ reply.any CommandResult.ok
      then s.log ++ [(sent.sender, sent.key)] else s.log }, reply)

/-- A `DATA_REGISTER` that is not handled where it was sent to. -/
def forward (m : Meeting) (sent : SentWrite) (leaderId uri : String) :
    BucketCluster σ × Option CommandResult :=
  let failed (text : String) := CommandResult.fromError (leaderUnreachableError text
    [("leader_id", .str leaderId), ("rpc_uri", .str uri)])
  match m.forwardError with
  | some text =>
    ({ s with late := s.late ++ [{ sent with endpointId := leaderId, forwarded := true }] },
      some (failed text))
  | none =>
    match proxyRoute m leaderId true with
    | .here =>
      let (s, reply) := s.registerAt R m leaderId sent.key sent.payload
      (s, reply.or (some (failed "timed out")))
    | .refused error => (s, some (.fromError error))
    | .forward .. => (s, none)

/-- An endpoint takes a command. -/
def taken (m : Meeting) (sent : SentWrite) : BucketCluster σ × Option CommandResult :=
  if sent.isPut then s.putAt R leader m sent
  else
    match proxyRoute m sent.endpointId sent.forwarded with
    | .here => s.registerAt R m sent.endpointId sent.key sent.payload
    | .refused error => (s, some (.fromError error))
    | .forward leaderId uri => s.forward R m sent leaderId uri

/-- A write is at another place. -/
def setWriter (id : WriterId) (writer : ResultWriter) : BucketCluster σ :=
  { s with writers := s.writers.insert id writer }

/-- The sender of a command has given up. -/
def lose (sent : SentWrite) : BucketCluster σ := { s with late := s.late ++ [sent] }

/-- One step. -/
def step : BucketAct → Option (BucketCluster σ)
  | .begin id execution endpointIds routerBind =>
    match s.writers.lookup id, execution.result? with
    | none, some value =>
      s.setWriter id
        { execution := execution
          payload := resultPayload json value
          target := writeTarget endpointIds routerBind }
    | _, _ => none
  | .look id items => do
    let writer ← s.writers.lookup id
    match writer.stage, writer.target, writer.nextBucket? with
    | .choosing, some _, some none => s.setWriter id (writer.moveOn none)
    | .choosing, some _, some (some bucket) =>
      s.setWriter id { writer with stage := .registering (writer.nextKey items bucket) }
    | _, _, _ => none
  | .take id m => do
    let writer ← s.writers.lookup id
    let sent ← writer.sent? id
    let (s, reply) := s.taken R leader m sent
    s.setWriter id
      { writer with
        stage := if sent.isPut then .put sent.key reply else .registered sent.key reply }
  | .answer id => do
    let writer ← s.writers.lookup id
    match writer.stage with
    | .registered key (some reply) =>
      if reply.ok then s.setWriter id { writer with stage := .putting key }
      else s.setWriter id (writer.moveOn key)
    | .put key (some _) => s.setWriter id (writer.moveOn key)
    | _ => none
  | .timeOut id => do
    let writer ← s.writers.lookup id
    match writer.stage with
    | .registering key | .putting key =>
      let sent ← writer.sent? id
      (s.lose sent).setWriter id (writer.moveOn key)
    | .registered key _ | .put key _ => s.setWriter id (writer.moveOn key)
    | _ => none
  | .complete id => do
    let writer ← s.writers.lookup id
    match writer.stage with
    | .choosing =>
      -- without an endpoint nothing is written
      if writer.target = none ∨ writer.nextBucket? = none then
        s.setWriter id { writer with stage := .completed }
      else none
    | _ => none
  | .takeLate index m => do
    let sent ← s.late[index]?
    return ({ s with late := s.late.eraseIdx index }.taken R leader m sent).1

/-- Nothing is written yet. -/
def init (stores : String → σ) : BucketCluster σ where
  stores := stores

/-! ### What should hold -/

/-- For an edge the leader holds a complete dataset of the bucket's name, with the text of the result,
and nobody else's result was stored as that version. -/
def EdgeKept (id : WriterId) (execution : NodeExecution) (value : Value) (bucket : Option String)
    (handled : Option RecordKey) : Prop :=
  ∃ name key, bucket = some name ∧ handled = some key ∧
    key.id = resultName name execution.choreography execution.node.nodeId ∧
    (∃ store st, R.status (s.stores leader) key = .ok (store, st) ∧ st.complete = true) ∧
    R.readWhole (s.stores leader) key = .ok (resultPayload json value) ∧
    ∀ entry ∈ s.log, entry.2 = key → entry.1 = id

/-- The result of every completed node is in its buckets. -/
def Kept : Prop :=
  ∀ id writer, s.writers.lookup id = some writer → writer.stage = .completed →
    ∃ value, writer.execution.result? = some value ∧
      List.Forall₂ (s.EdgeKept R json leader id writer.execution value) writer.execution.buckets
        writer.handled

/-- Nobody else has chosen the dataset. -/
def Free (id : WriterId) (key : RecordKey) : Prop :=
  ∀ other writer, s.writers.lookup other = some writer → key ∈ writer.keys → other = id

/-- What the steps need: the endpoint is the leader and every edge leads to a bucket; the version is
not that of another result; the leader knows that it leads and accepts the registration; no reply of
a registration is given up on, nor one of a chunk that is not stored yet. -/
def Lands : BucketAct → Prop
  | .begin _ execution endpointIds routerBind =>
    execution.buckets ≠ [] →
      writeTarget endpointIds routerBind = some leader ∧ none ∉ execution.buckets
  | .look id items =>
    ∀ writer ∈ s.writers.lookup id, ∀ bucket ∈ writer.nextBucket?, ∀ name ∈ bucket,
      s.Free id (writer.nextKey items name)
  | .take id m =>
    ∀ writer ∈ s.writers.lookup id, ∀ sent ∈ writer.sent? id, sent.isPut = false →
      m.leaderOf leader = leader ∧
        DataRegisterHandler.Accepts R.backends (m.buckets leader) (R.registry (s.stores leader))
          (resultEnvelope sent.key sent.payload) sent.key sent.payload.length
          (resultChunkBytes sent.payload)
  | .timeOut id => ∀ writer ∈ s.writers.lookup id, writer.chunkTaken = true
  | .answer _ | .complete _ | .takeLate .. => True

end BucketCluster

end Axo
