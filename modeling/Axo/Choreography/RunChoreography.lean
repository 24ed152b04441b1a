import Axo.Choreography.GraphOps
import Axo.Functions.ParamsValidation

/-!
# Running a choreography

`RunChoreographyUseCase._execute_run` and `_run_node` of `run_choreography.py`, for a run that is
not cancelled.

* `resolveBucketItems`, `baseParams`, `itemParams`: what a node is dispatched with;
* `runNode`: one execution of a node, from the stored results of its sources;
* `RunInputs` is what a run meets outside: the final outcome of each dispatch with its retries, the
  items that a node finds in a bucket, and the order in which the threads of a wave come to an end;
* `runWave` and `executeRun`: the run.

The nodes of a wave run in threads of their own.  Each writes its own state and its own result only,
so that a wave is the executions of its nodes in any order.  What `_write_fn_to_bucket_edges` sends to
a bucket does not touch the run.
-/

namespace Axo

/-- The status of a node or of a run. -/
inductive RunStatus
  | pending
  | queued
  | running
  | completed
  | failed
  | cancelled
  deriving DecidableEq, Repr

/-- A `NodeRunState`, without what the polling of a job notes in it. -/
structure NodeRunState where
  nodeId : String
  status : RunStatus := .pending
  error : Option String := none
  deriving DecidableEq

inductive ItemStatus
  | pending
  | ready
  deriving DecidableEq

/-- A `DataItem` of a bucket. -/
structure DataItem where
  name : String
  version : ℤ
  format : String
  kind : String
  status : ItemStatus
  deriving DecidableEq

/-- What `_dispatch_with_retries` returns in the end. -/
inductive DispatchOutcome
  | success (value : Value)
  | failure (error : String)
  deriving DecidableEq

def DispatchOutcome.ok : DispatchOutcome → Bool
  | .success _ => true
  | .failure _ => false

def DispatchOutcome.value? : DispatchOutcome → Option Value
  | .success value => some value
  | .failure _ => none

def DispatchOutcome.error? : DispatchOutcome → Option String
  | .success _ => none
  | .failure error => some error

/-- A call of `_dispatch_with_retries`. -/
structure NodeDispatch where
  nodeId : String
  params : Params
  outcome : DispatchOutcome
  deriving DecidableEq

/-- What a run meets outside. -/
structure RunInputs where
  /-- The outcome of a dispatch: of which node, for which of its bucket edges and which item. -/
  outcome : String → ℕ → ℕ → Params → DispatchOutcome
  /-- What `list_by_bucket` answers a node for one of its bucket edges. -/
  listByBucket : String → ℕ → List DataItem
  /-- The order in which the threads of a wave do their work. -/
  order : List String → List String
  order_perm : ∀ runnable, (order runnable).Perm runnable

/-! ### One node -/

/-- A dictionary that is built from values by their keys has the last one of each key. -/
theorem lookup_foldl_insert {α : Type} (key : α → String) (as : List α) (m : Dict String α)
    (k : String) :
    (as.foldl (fun m a => m.insert (key a) a) m).lookup k =
      (as.filter fun a => key a = k).getLast?.or (m.lookup k) := by
  induction as generalizing m with
  | nil => rfl
  | cons a as ih =>
    rw [List.foldl_cons, ih]
    by_cases hkey : key a = k
    · rw [List.filter_cons_of_pos (by simpa using hkey), List.getLast?_cons, ← hkey,
        AList.lookup_insert, Option.some_or]
      cases (as.filter fun b => key b = key a).getLast? <;> rfl
    · rw [List.filter_cons_of_neg (by simpa using hkey), AList.lookup_insert_ne (Ne.symm hkey)]

namespace ChoreographyGraph

variable (graph : ChoreographyGraph)

/-- The inbound edges of a node of one kind. -/
def inbound (kind : EdgeKind) (nodeId : String) : List ChoreographyEdge :=
  graph.edges.filter fun e => e.targetNodeId = nodeId ∧ e.kind = kind

/-- `bucket_edges`. -/
def bucketEdges (nodeId : String) : List ChoreographyEdge := graph.inbound .bucketToFn nodeId

/-- `fn_edges`. -/
def fnEdges (nodeId : String) : List ChoreographyEdge := graph.inbound .fnToFn nodeId

/-- `{n.node_id: n for n in choreography.graph.nodes}`. -/
def nodesById : Dict String ChoreographyNode :=
  graph.nodes.foldl (fun m n => m.insert n.nodeId n) ∅

/-- The first node with the id. -/
def findNode (nodeId : String) : Option ChoreographyNode :=
  graph.nodes.find? fun n => n.nodeId = nodeId

variable {graph} {nodeId : String} {node : ChoreographyNode}

/-- `nodes_by_id` has the last node with each id. -/
theorem lookup_nodesById :
    graph.nodesById.lookup nodeId =
      (graph.nodes.filter fun n => n.nodeId = nodeId).getLast? := by
  rw [nodesById, lookup_foldl_insert, AList.lookup_empty, Option.or_none]

theorem mem_of_nodesById (h : graph.nodesById.lookup nodeId = some node) :
    node ∈ graph.nodes ∧ node.nodeId = nodeId := by
  rw [lookup_nodesById] at h
  have hmem := List.mem_filter.1 (List.mem_of_getLast? h)
  exact ⟨hmem.1, of_decide_eq_true hmem.2⟩

/-- Every declared id has a node. -/
theorem exists_nodesById (h : nodeId ∈ graph.nodeIds) :
    ∃ node, graph.nodesById.lookup nodeId = some node ∧ node.nodeId = nodeId := by
  obtain ⟨node, hnode, hid⟩ := List.mem_map.1 h
  have hne : (graph.nodes.filter fun n => n.nodeId = nodeId) ≠ [] :=
    List.ne_nil_of_mem (List.mem_filter.2 ⟨hnode, decide_eq_true hid⟩)
  have hlookup := @lookup_nodesById graph nodeId
  rw [List.getLast?_eq_some_getLast hne] at hlookup
  exact ⟨_, hlookup, (mem_of_nodesById hlookup).2⟩

end ChoreographyGraph

/-- The `target_param` of an edge when it has one. -/
def ChoreographyEdge.param? (edge : ChoreographyEdge) : Option String :=
  edge.targetParam.filter (· ≠ "")

/-- `base_params`: what the sources of the node's `fn_to_fn` edges left. -/
def baseParams (graph : ChoreographyGraph) (nodeResults : Dict String Value) (nodeId : String) :
    Params :=
  (graph.fnEdges nodeId).foldl
    (fun params edge =>
      match edge.param? with
      | some param => params.insert param (Dict.getD nodeResults edge.sourceNodeId .none)
      | none => params)
    ∅

/-- `_resolve_bucket_items`; an empty selection means all items. -/
def resolveBucketItems (items : List DataItem) (bucketName : Option String)
    (source : Option ChoreographyNode) : List DataItem :=
  match bucketName.filter (· ≠ "") with
  | none => []
  | some _ =>
    let selected := (source.bind ChoreographyNode.selectedItems).getD []
    let wanted :=
      if selected = [] then items
      else items.filter fun item => ⟨item.name, item.version⟩ ∈ selected
    wanted.filter fun item => item.status = .ready

/-- `params` of `_process_item`. -/
def itemParams (base : Params) (param : String) (item : DataItem) : Params :=
  base.insert param
    (.dict [("kind", .str item.kind), ("location", .str item.name), ("format", .str item.format)])

/-- The execution of a node: its dispatches, and what it writes when it ends. -/
structure NodeRun where
  ok : Bool
  /-- `state.error` -/
  error : Option String
  /-- what is stored under the node in `node_results` -/
  stored : Option Value
  dispatches : List NodeDispatch

def NodeRun.status (run : NodeRun) : RunStatus := if run.ok then .completed else .failed

namespace RunInputs

variable (inputs : RunInputs) (graph : ChoreographyGraph)

/-- One call of `_dispatch_with_retries`. -/
def dispatch (nodeId : String) (edgeNo itemNo : ℕ) (params : Params) : NodeDispatch :=
  ⟨nodeId, params, inputs.outcome nodeId edgeNo itemNo params⟩

/-- The dispatches for one `bucket_to_fn` edge. -/
def edgeDispatches (nodeId : String) (base : Params) (edgeNo : ℕ) (edge : ChoreographyEdge) :
    List NodeDispatch :=
  let source := graph.findNode edge.sourceNodeId
  let items := resolveBucketItems (inputs.listByBucket nodeId edgeNo)
    (source.bind ChoreographyNode.bucketName) source
  match edge.param? with
  | none => []
  | some param =>
    items.mapIdx fun itemNo item => inputs.dispatch nodeId edgeNo itemNo (itemParams base param item)

/-- `_run_node`. -/
def runNode (node : ChoreographyNode) (nodeResults : Dict String Value) : NodeRun :=
  match node.kind with
  | .bucket => { ok := true, error := none, stored := none, dispatches := [] }
  | .function =>
    let base := baseParams graph nodeResults node.nodeId
    if graph.bucketEdges node.nodeId = [] then
      let only := inputs.dispatch node.nodeId 0 0 base
      { ok := only.outcome.ok
        error := some (only.outcome.error?.getD "")
        stored := only.outcome.value?
        dispatches := [only] }
    else
      let all := ((graph.bucketEdges node.nodeId).mapIdx
        (inputs.edgeDispatches graph node.nodeId base)).flatten
      let allOk := all.all fun d => d.outcome.ok
      { ok := allOk
        error := (all.filterMap fun d => d.outcome.error?).getLast?
        -- the list of the item results, in the order of the items
        stored := if allOk then some (.list (all.filterMap fun d => d.outcome.value?)) else none
        dispatches := all }

end RunInputs

/-! ### The run -/

/-- A `ChoreographyRun` with the local variables of `_execute_run`, and what was executed and
dispatched so far. -/
structure RunState where
  status : RunStatus
  nodeStates : Dict String NodeRunState
  nodeResults : Dict String Value := ∅
  cancelledOrFailed : Finset String := ∅
  anyFailed : Bool := false
  executed : List String := []
  dispatched : List NodeDispatch := []

namespace RunState

/-- The status of a node in the run. -/
def statusOf (run : RunState) (nodeId : String) : Option RunStatus :=
  (run.nodeStates.lookup nodeId).map NodeRunState.status

/-- The dispatches of a node so far. -/
def dispatchesOf (run : RunState) (nodeId : String) : List NodeDispatch :=
  run.dispatched.filter fun d => d.nodeId = nodeId

/-- `node_results[node.node_id] = value`, by an execution that leaves a result. -/
def storeResult (nodeResults : Dict String Value) (nodeId : String) :
    Option Value → Dict String Value
  | some value => nodeResults.insert nodeId value
  | none => nodeResults

/-- One thread of a wave.  Every node of a wave is declared; an undeclared one would be a
`KeyError`. -/
def executeNode (inputs : RunInputs) (graph : ChoreographyGraph) (run : RunState)
    (nodeId : String) : RunState :=
  match graph.nodesById.lookup nodeId with
  | none => run
  | some node =>
    let result := inputs.runNode graph node run.nodeResults
    { run with
      nodeStates := run.nodeStates.insert nodeId ⟨nodeId, result.status, result.error⟩
      nodeResults := storeResult run.nodeResults nodeId result.stored
      executed := run.executed ++ [nodeId]
      dispatched := run.dispatched ++ result.dispatches }

/-- `state.status = CANCELLED`, when the node is still pending. -/
def cancelNode (states : Dict String NodeRunState) (nodeId : String) : Dict String NodeRunState :=
  match states.lookup nodeId with
  | some state =>
    if state.status = .pending then states.insert nodeId { state with status := .cancelled }
    else states
  | none => states

/-- What is done with the result of a node's future, which is whether the node is `COMPLETED`. -/
def collect (graph : ChoreographyGraph) (run : RunState) (nodeId : String) : RunState :=
  if run.statusOf nodeId = some .failed then
    let newlyCancelled := downstreamOf graph nodeId \ run.cancelledOrFailed
    { run with
      anyFailed := true
      nodeStates := (newlyCancelled.sort (· ≤ ·)).foldl cancelNode run.nodeStates
      cancelledOrFailed := run.cancelledOrFailed ∪ newlyCancelled }
  else run

/-- One round of the loop over the waves. -/
def runWave (inputs : RunInputs) (graph : ChoreographyGraph) (run : RunState)
    (wave : List String) : RunState :=
  let runnable := wave.filter (· ∉ run.cancelledOrFailed)
  runnable.foldl (collect graph) ((inputs.order runnable).foldl (executeNode inputs graph) run)

/-- The run as `execute` makes it and `_execute_run` begins with it. -/
def start (graph : ChoreographyGraph) : RunState where
  status := .running
  nodeStates := graph.nodeIds.foldl (fun m nodeId => m.insert nodeId { nodeId := nodeId }) ∅

end RunState

open RunState

/-- `_execute_run`, without a cancel request. -/
def executeRun (inputs : RunInputs) (graph : ChoreographyGraph) : RunState :=
  let ended :=
    match topologicalWaves graph with
    | .ok waves => waves.foldl (runWave inputs graph) (start graph)
    | .error _ => { start graph with anyFailed := true }
  { ended with status := if ended.anyFailed then .failed else .completed }

end Axo
