import Axo.Choreography.RunLifecycle
import Axo.Choreography.Waves
import Axo.Wire.PyValues

/-!
# Which runs come to an end

`_execute_run` of `run_choreography.py` with what it calls down to one poll of a job, for every graph
that the models accept, and `next_delay_seconds` of `retry_policy.py`.  What may raise is in
`Except PyException`: nothing between `_run_node` and the thread of the run catches an exception, and
a thread that ends so leaves its run `RUNNING`.

* `AcceptedGraph` is a graph as the models accept it, in which an item that is selected is any dict;
* `RunAnswers` is what a run meets outside: when it is stopped, what the attempts of each dispatch
  come to, and what lies in the buckets;
* `dispatchWithRetries`, `runNode`, `runWave` and `executeRun` are the code;
* `NothingRaises` is the condition under which every wave that is reached passes, and
  `settled_iff_nothingRaises` the result: with it and only with it the run ends with a terminal status
  and without its stop flag and its table of live jobs.

The submission of a job is caught as a whole.  It is assumed that `send_command` returns a result for
every exchange, as it says of itself (`sock.connect` is outside its `try`, and refuses an address that
is none), and that a repository does not fail.  Of `stop_flags` and `live_jobs_by_run` the keys are kept.
-/

namespace Axo

/-! ### Accepted graphs -/

/-- A `ChoreographyNode` as the model accepts it. -/
structure AcceptedNode where
  nodeId : String
  kind : NodeKind
  functionId : Option String := none
  functionVersion : Option ℤ := none
  maxRetries : ℤ := 3
  retryPolicy : RetryPolicy := .constant
  bucketName : Option String := none
  /-- `Optional[List[Dict[str, Any]]]` -/
  selectedItems : Option (List (List (String × Value))) := none
  deriving DecidableEq

/-- The node without its selection. -/
def AcceptedNode.shape (node : AcceptedNode) : ChoreographyNode where
  nodeId := node.nodeId
  kind := node.kind
  functionId := node.functionId
  functionVersion := node.functionVersion
  maxRetries := node.maxRetries
  retryPolicy := node.retryPolicy
  bucketName := node.bucketName

structure AcceptedGraph where
  nodes : List AcceptedNode := []
  edges : List ChoreographyEdge := []
  deriving DecidableEq

namespace AcceptedGraph

variable (graph : AcceptedGraph)

/-- What `graph_ops` looks at. -/
def shape : ChoreographyGraph where
  nodes := graph.nodes.map AcceptedNode.shape
  edges := graph.edges

/-- `{n.node_id: n for n in choreography.graph.nodes}`. -/
def nodesById : Dict String AcceptedNode :=
  graph.nodes.foldl (fun m n => m.insert n.nodeId n) ∅

/-- The first node with the id. -/
def findNode (nodeId : String) : Option AcceptedNode :=
  graph.nodes.find? fun n => n.nodeId = nodeId

end AcceptedGraph

/-! ### Selected items -/

namespace Value

/-- `v == n`. -/
def eqInt (floats : PyFloats) (n : ℤ) : Value → Bool
  | .int m => m = n
  | .bool b => b.toInt = n
  | .float text => floats.value text = some (n : ℚ)
  | _ => false

end Value

/-- `(s["name"], s["version"])`, as an element of a set. -/
def wantedOf (selected : List (String × Value)) : Except PyException (Value × Value) := do
  let name ← (Value.dict selected).item "name"
  let version ← (Value.dict selected).item "version"
  if name.hashable ∧ version.hashable then return (name, version) else .error .typeError

/-- `(item.name, item.version) in wanted`. -/
def isWanted (floats : PyFloats) (wanted : List (Value × Value)) (item : DataItem) : Bool :=
  wanted.any fun pair => pair.1 = .str item.name ∧ pair.2.eqInt floats item.version

/-- `_resolve_bucket_items`, of which `resolveBucketItems` is the case of a selection that the canvas
makes. -/
def resolveAcceptedItems (floats : PyFloats) (items : List DataItem) (bucketName : Option String)
    (source : Option AcceptedNode) : Except PyException (List DataItem) :=
  match bucketName.filter (· ≠ "") with
  | none => .ok []
  | some _ => do
    let selected := (source.bind AcceptedNode.selectedItems).getD []
    let wanted ← selected.mapM wantedOf
    let items := if selected = [] then items else items.filter (isWanted floats wanted)
    return items.filter fun item => item.status = .ready

/-! ### One dispatch -/

/-- `base_seconds * (2 ** (attempt - 1))`; `2 ** 1024` is an integer that is not a float. -/
def grownDelay (attempt : ℕ) : Except PyException ℚ :=
  if attempt - 1 < 1024 then .ok (2 ^ (attempt - 1)) else .error .overflowError

/-- `next_delay_seconds` with its defaults; `fraction` is the random number of `jitter`. -/
def nextDelaySeconds (policy : RetryPolicy) (attempt : ℕ) (fraction : ℚ) : Except PyException ℚ :=
  match policy with
  | .constant => .ok (min 1 30)
  | .exponentialBackoff => do return min (← grownDelay attempt) 30
  | .jitter => do return min (fraction * (← grownDelay attempt)) 30

/-- What one turn of the loop of `_poll_until_terminal` meets. -/
inductive PollTurn
  /-- the stop flag is set -/
  | stopped
  /-- `send_command` returns an `Err` -/
  | unanswered (error : String)
  | pending
  | completed (value : Value)
  | ended (error : String)
  deriving DecidableEq

/-- `_poll_until_terminal`, with the turns that there are before the deadline. -/
def pollUntilTerminal (jobTimeoutSeconds : String) : List PollTurn → DispatchOutcome
  | [] => .failure ("job exceeded job_timeout_seconds=" ++ jobTimeoutSeconds)
  | .stopped :: _ => .failure "cancelled"
  | .unanswered error :: _ => .failure error
  | .pending :: turns => pollUntilTerminal jobTimeoutSeconds turns
  | .completed value :: _ => .success value
  | .ended error :: _ => .failure error

/-- What becomes of a submission. -/
inductive Submission
  /-- the use case raises -/
  | refused (error : String)
  /-- the endpoint is not known or has no `router_bind` -/
  | unreachable (endpointId : String)
  | accepted (turns : List PollTurn)
  deriving DecidableEq

/-- What one turn of the loop of `_dispatch_with_retries` meets. -/
structure Attempt where
  /-- the stop flag is set -/
  stopped : Bool := false
  submission : Submission
  /-- what `random.uniform` draws -/
  fraction : ℚ := 0
  deriving DecidableEq

/-- `_dispatch_once`. -/
def dispatchOnce (jobTimeoutSeconds : String) : Submission → DispatchOutcome
  | .refused error => .failure error
  | .unreachable endpointId =>
    .failure ("endpoint " ++ endpointId ++ " has no known router_bind")
  | .accepted turns => pollUntilTerminal jobTimeoutSeconds turns

/-- `_dispatch_with_retries` from an attempt on, with the retries that are left. -/
def dispatchWithRetries (jobTimeoutSeconds : String) (policy : RetryPolicy)
    (attempts : ℕ → Attempt) : ℕ → ℕ → Except PyException DispatchOutcome
  | attempt, 0 =>
    if (attempts attempt).stopped then .ok (.failure "cancelled")
    else .ok (dispatchOnce jobTimeoutSeconds (attempts attempt).submission)
  | attempt, retries + 1 =>
    if (attempts attempt).stopped then .ok (.failure "cancelled")
    else
      match dispatchOnce jobTimeoutSeconds (attempts attempt).submission with
      | .success value => .ok (.success value)
      | .failure _ => do
        let _ ← nextDelaySeconds policy (attempt + 1) (attempts attempt).fraction
        dispatchWithRetries jobTimeoutSeconds policy attempts (attempt + 1) retries

/-! ### One node -/

/-- What a run meets outside. -/
structure RunAnswers where
  /-- `stop_flag.is_set()` before a wave -/
  stopped : ℕ → Bool := fun _ => false
  /-- and after the last one -/
  stoppedAtEnd : Bool := false
  /-- The attempts of a dispatch: of which node, for which of its bucket edges and which item. -/
  attempts : String → ℕ → ℕ → Params → ℕ → Attempt
  /-- What `list_by_bucket` answers a node for one of its bucket edges. -/
  listByBucket : String → ℕ → List DataItem := fun _ _ => []
  /-- `job_timeout_seconds`, as a text. -/
  jobTimeoutSeconds : String := "60.0"

namespace RunAnswers

variable (floats : PyFloats) (answers : RunAnswers) (graph : AcceptedGraph)

/-- One call of `_dispatch_with_retries`. -/
def dispatch (node : AcceptedNode) (edgeNo itemNo : ℕ) (params : Params) :
    Except PyException NodeDispatch := do
  let outcome ← dispatchWithRetries answers.jobTimeoutSeconds node.retryPolicy
    (answers.attempts node.nodeId edgeNo itemNo params) 0 node.maxRetries.toNat
  return ⟨node.nodeId, params, outcome⟩

/-- The items that a `bucket_to_fn` edge of a node is for. -/
def itemsOf (nodeId : String) (edge : ChoreographyEdge) (edgeNo : ℕ) :
    Except PyException (List DataItem) :=
  let source := graph.findNode edge.sourceNodeId
  resolveAcceptedItems floats (answers.listByBucket nodeId edgeNo)
    (source.bind AcceptedNode.bucketName) source

/-- The dispatches for one `bucket_to_fn` edge. -/
def edgeDispatches (node : AcceptedNode) (base : Params) (edge : ChoreographyEdge × ℕ) :
    Except PyException (List NodeDispatch) := do
  let items ← answers.itemsOf floats graph node.nodeId edge.1 edge.2
  match edge.1.param? with
  | none => return []
  | some param =>
    items.zipIdx.mapM fun item =>
      answers.dispatch node edge.2 item.2 (itemParams base param item.1)

/-- `_run_node`. -/
def runNode (nodeResults : Dict String Value) (node : AcceptedNode) :
    Except PyException (String × NodeRun) :=
  match node.kind with
  | .bucket =>
    return (node.nodeId, { ok := true, error := none, stored := none, dispatches := [] })
  | .function => do
    let base := baseParams graph.shape nodeResults node.nodeId
    let edges := graph.shape.bucketEdges node.nodeId
    if edges = [] then
      let only ← answers.dispatch node 0 0 base
      return (node.nodeId,
        { ok := only.outcome.ok
          error := some (only.outcome.error?.getD "")
          stored := only.outcome.value?
          dispatches := [only] })
    else
      let all := (← edges.zipIdx.mapM (answers.edgeDispatches floats graph node base)).flatten
      let allOk := all.all fun d => d.outcome.ok
      return (node.nodeId,
        { ok := allOk
          error := (all.filterMap fun d => d.outcome.error?).getLast?
          stored := if allOk then some (.list (all.filterMap fun d => d.outcome.value?)) else none
          dispatches := all })

/-! ### The run -/

/-- What the thread of a node leaves in the run. -/
def settleNode (run : RunState) (result : String × NodeRun) : RunState :=
  { run with
    nodeStates := run.nodeStates.insert result.1 ⟨result.1, result.2.status, result.2.error⟩
    nodeResults := RunState.storeResult run.nodeResults result.1 result.2.stored
    executed := run.executed ++ [result.1]
    dispatched := run.dispatched ++ result.2.dispatches }

/-- `nodes_by_id[nid]`. -/
def nodeById (nodeId : String) : Except PyException AcceptedNode :=
  match graph.nodesById.lookup nodeId with
  | some node => .ok node
  | none => .error .keyError

/-- One round of the loop over the waves.  A node reads the results of its sources only, which are of
waves before its own, so that each of the threads finds the results that the wave starts with. -/
def runWave (run : RunState) (wave : List String) : Except PyException RunState := do
  let runnable := wave.filter (· ∉ run.cancelledOrFailed)
  let nodes ← runnable.mapM (nodeById graph)
  let results ← nodes.mapM (answers.runNode floats graph run.nodeResults)
  return runnable.foldl (RunState.collect graph.shape) (results.foldl settleNode run)

/-- The loop over the waves, from the given one on. -/
def runWaves : ℕ → RunState → List (List String) → Except PyException RunState
  | _, run, [] => .ok run
  | waveNo, run, wave :: waves =>
    if answers.stopped waveNo then .ok run
    else do
      let next ← answers.runWave floats graph run wave
      runWaves (waveNo + 1) next waves

/-- What `_execute_run` does between its first save and the decision on the final status. -/
def runGraph : Except PyException RunState :=
  match topologicalWaves graph.shape with
  | .ok waves => answers.runWaves floats graph 0 (.start graph.shape) waves
  | .error _ => .ok { RunState.start graph.shape with anyFailed := true }

/-- The status that the run ends with. -/
def finalStatus (run : RunState) : RunStatus :=
  if answers.stoppedAtEnd then .cancelled
  else if run.anyFailed then .failed
  else .completed

end RunAnswers

/-- A stored run, with the status that it has. -/
structure StoredRun where
  choreographyId : String
  status : RunStatus
  deriving DecidableEq

/-- A run that `execute` has started. -/
structure StartedRun where
  runId : String
  choreographyId : String
  deriving DecidableEq

/-- The stored runs, with what `RunChoreographyUseCase` holds beside them. -/
structure RunTables where
  runs : Dict String StoredRun := ∅
  /-- the keys of `stop_flags` -/
  stopFlags : Finset String := ∅
  /-- the keys of `live_jobs_by_run` -/
  liveJobs : Finset String := ∅

namespace RunTables

variable (tables : RunTables)

/-- `self._runs.save(run)`. -/
def save (run : StartedRun) (status : RunStatus) : RunTables :=
  { tables with runs := tables.runs.insert run.runId ⟨run.choreographyId, status⟩ }

/-- What `execute` does before it starts the thread. -/
def launch (run : StartedRun) : RunTables :=
  { tables.save run .pending with
    stopFlags := insert run.runId tables.stopFlags
    liveJobs := insert run.runId tables.liveJobs }

/-- The last lines of `_execute_run`. -/
def finish (run : StartedRun) (status : RunStatus) : RunTables :=
  { tables.save run status with
    stopFlags := tables.stopFlags.erase run.runId
    liveJobs := tables.liveJobs.erase run.runId }

/-- `_execute_run`: an exception ends the thread where it is raised. -/
def executeRun (floats : PyFloats) (answers : RunAnswers) (graph : AcceptedGraph)
    (run : StartedRun) : RunTables :=
  match answers.runGraph floats graph with
  | .ok ended => (tables.save run .running).finish run (answers.finalStatus ended)
  | .error _ => tables.save run .running

/-- A stored run is an active one of a choreography. -/
def ActiveRun (choreographyId runId : String) : Prop :=
  ∃ stored, tables.runs.lookup runId = some stored ∧
    stored.choreographyId = choreographyId ∧ stored.status.IsActive

/-- A run has come to its end: its status is terminal, nothing is held for it, and if its choreography
is busy then with another run. -/
structure Settled (run : StartedRun) : Prop where
  status : ∃ status, tables.runs.lookup run.runId = some ⟨run.choreographyId, status⟩ ∧
    status.IsTerminal
  stopFlag : run.runId ∉ tables.stopFlags
  liveJobs : run.runId ∉ tables.liveJobs
  free : ∀ runId, tables.ActiveRun run.choreographyId runId → runId ≠ run.runId

end RunTables

/-! ### Where nothing raises -/

/-- A dict that has a name and a version, both of which may be in a set. -/
def Selectable (selected : List (String × Value)) : Prop :=
  ∃ name version, selected.lookup "name" = some name ∧ selected.lookup "version" = some version ∧
    name.hashable ∧ version.hashable

/-- The turn of an attempt that asks for another one. -/
def Attempt.Fails (jobTimeoutSeconds : String) (attempt : Attempt) : Prop :=
  attempt.stopped = false ∧ (dispatchOnce jobTimeoutSeconds attempt.submission).ok = false

/-- The delays grow beyond a float: the node has more than 1024 retries, which do not come at a
constant rate, and the first 1025 attempts fail. -/
def Overflows (jobTimeoutSeconds : String) (policy : RetryPolicy) (maxRetries : ℤ)
    (attempts : ℕ → Attempt) : Prop :=
  policy ≠ .constant ∧ 1024 < maxRetries ∧ ∀ n ≤ 1024, (attempts n).Fails jobTimeoutSeconds

namespace RunAnswers

variable (floats : PyFloats) (answers : RunAnswers) (graph : AcceptedGraph)

/-- A dispatch comes to its outcome. -/
def DispatchPasses (node : AcceptedNode) (edgeNo itemNo : ℕ) (params : Params) : Prop :=
  ¬ Overflows answers.jobTimeoutSeconds node.retryPolicy node.maxRetries
    (answers.attempts node.nodeId edgeNo itemNo params)

/-- The selection of an edge's source can be read, and the dispatches for its items pass. -/
def EdgePasses (node : AcceptedNode) (base : Params) (edge : ChoreographyEdge × ℕ) : Prop :=
  let source := graph.findNode edge.1.sourceNodeId
  ((source.bind AcceptedNode.bucketName).filter (· ≠ "") ≠ none →
    ∀ selected ∈ (source.bind AcceptedNode.selectedItems).getD [], Selectable selected) ∧
  ∀ items, answers.itemsOf floats graph node.nodeId edge.1 edge.2 = .ok items →
    ∀ param ∈ edge.1.param?, ∀ item ∈ items.zipIdx,
      answers.DispatchPasses node edge.2 item.2 (itemParams base param item.1)

/-- Every dispatch that the node is executed with passes. -/
def NodePasses (nodeResults : Dict String Value) (node : AcceptedNode) : Prop :=
  node.kind = .function →
    let base := baseParams graph.shape nodeResults node.nodeId
    let edges := graph.shape.bucketEdges node.nodeId
    if edges = [] then answers.DispatchPasses node 0 0 base
    else ∀ edge ∈ edges.zipIdx, answers.EdgePasses floats graph node base edge

/-- What is left of the wave is declared, and every node of it passes. -/
def WavePasses (run : RunState) (wave : List String) : Prop :=
  ∀ nodeId ∈ wave, nodeId ∉ run.cancelledOrFailed →
    ∃ node, graph.nodesById.lookup nodeId = some node ∧
      answers.NodePasses floats graph run.nodeResults node

/-- Every wave that is reached passes. -/
def WavesPass : ℕ → RunState → List (List String) → Prop
  | _, _, [] => True
  | waveNo, run, wave :: waves =>
    answers.stopped waveNo = false →
      answers.WavePasses floats graph run wave ∧
        ∀ next, answers.runWave floats graph run wave = .ok next → WavesPass (waveNo + 1) next waves

/-- A graph with a cycle has no waves. -/
def NothingRaises : Prop :=
  ∀ waves, topologicalWaves graph.shape = .ok waves →
    answers.WavesPass floats graph 0 (.start graph.shape) waves

end RunAnswers

/-! ### What returns -/

section

variable {selected : List (String × Value)} {policy : RetryPolicy} {attempts : ℕ → Attempt}
  {jobTimeoutSeconds : String}

theorem returns_wantedOf : Returns (wantedOf selected) ↔ Selectable selected := by
  unfold wantedOf Selectable
  simp only [returns_bind, Value.item_dict_eq_ok]
  constructor
  · rintro ⟨name, hname, version, hversion, hreturns⟩
    refine ⟨name, version, hname, hversion, ?_⟩
    split_ifs at hreturns with hhashable
    · exact hhashable
    · exact absurd hreturns (not_returns_error _)
  · rintro ⟨name, version, hname, hversion, hhashable⟩
    refine ⟨name, hname, version, hversion, ?_⟩
    rw [if_pos hhashable]
    exact returns_ok _

theorem returns_resolveAcceptedItems (floats : PyFloats) (items : List DataItem)
    (bucketName : Option String) (source : Option AcceptedNode) :
    Returns (resolveAcceptedItems floats items bucketName source) ↔
      (bucketName.filter (· ≠ "") ≠ none →
        ∀ selected ∈ (source.bind AcceptedNode.selectedItems).getD [], Selectable selected) := by
  unfold resolveAcceptedItems
  cases bucketName.filter (· ≠ "") with
  | none => exact iff_of_true (returns_ok _) fun h => absurd rfl h
  | some name =>
    simp only [returns_bind, ne_eq, reduceCtorEq, not_false_eq_true, forall_const]
    simp only [← returns_wantedOf, ← returns_mapM]
    constructor
    · rintro ⟨wanted, hwanted, -⟩
      exact ⟨wanted, hwanted⟩
    · rintro ⟨wanted, hwanted⟩
      exact ⟨wanted, hwanted, returns_ok _⟩

theorem returns_grownDelay {attempt : ℕ} : Returns (grownDelay (attempt + 1)) ↔ attempt < 1024 := by
  rw [grownDelay, Nat.add_sub_cancel]
  split_ifs with h
  · exact iff_of_true (returns_ok _) h
  · exact iff_of_false (not_returns_error _) h

theorem returns_nextDelaySeconds {attempt : ℕ} {fraction : ℚ} :
    Returns (nextDelaySeconds policy (attempt + 1) fraction) ↔
      policy = .constant ∨ attempt < 1024 := by
  have hgrown (f : ℚ → ℚ) : Returns (do return f (← grownDelay (attempt + 1))) ↔ attempt < 1024 := by
    rw [returns_bind, ← returns_grownDelay]
    exact exists_congr fun delay => and_iff_left (returns_ok _)
  cases policy with
  | constant => exact iff_of_true (returns_ok _) (.inl rfl)
  | exponentialBackoff => exact (hgrown fun delay => min delay 30).trans (by simp)
  | jitter => exact (hgrown fun delay => min (fraction * delay) 30).trans (by simp)

/-- A dispatch raises at a turn from the 1025th on, when all the turns before it have failed. -/
theorem not_returns_dispatchWithRetries (attempt retries : ℕ) :
    ¬ Returns (dispatchWithRetries jobTimeoutSeconds policy attempts attempt retries) ↔
      policy ≠ .constant ∧ ∃ n, 1024 ≤ n ∧ attempt ≤ n ∧ n < attempt + retries ∧
        ∀ k, attempt ≤ k → k ≤ n → (attempts k).Fails jobTimeoutSeconds := by
  induction retries generalizing attempt with
  | zero =>
    refine iff_of_false (fun h => h ?_) ?_
    · rw [dispatchWithRetries]
      split_ifs
      · exact returns_ok _
      · exact returns_ok _
    · rintro ⟨-, n, -, hle, hlt, -⟩
      omega
  | succ retries ih =>
    -- a turn that does not fail ends the loop
    have hends : ¬ (attempts attempt).Fails jobTimeoutSeconds →
        ¬ (policy ≠ .constant ∧ ∃ n, 1024 ≤ n ∧ attempt ≤ n ∧ n < attempt + (retries + 1) ∧
          ∀ k, attempt ≤ k → k ≤ n → (attempts k).Fails jobTimeoutSeconds) := by
      rintro hfails ⟨-, n, -, hle, -, hall⟩
      exact hfails (hall attempt le_rfl hle)
    rw [dispatchWithRetries]
    cases hstopped : (attempts attempt).stopped with
    | true =>
      refine iff_of_false (fun h => h (returns_ok _)) (hends fun hfails => ?_)
      rw [hfails.1] at hstopped
      cases hstopped
    | false =>
      simp only [Bool.false_eq_true, if_false]
      cases honce : dispatchOnce jobTimeoutSeconds (attempts attempt).submission with
      | success value =>
        refine iff_of_false (fun h => h (returns_ok _)) (hends fun hfails => ?_)
        rw [Attempt.Fails, honce] at hfails
        exact absurd hfails.2 (by simp [DispatchOutcome.ok])
      | failure error =>
        have hfails : (attempts attempt).Fails jobTimeoutSeconds :=
          ⟨hstopped, by rw [honce]; rfl⟩
        by_cases hdelay : policy = .constant ∨ attempt < 1024
        · obtain ⟨delay, hreturns⟩ := returns_nextDelaySeconds.2 hdelay
          rw [hreturns]
          refine (ih (attempt + 1)).trans (and_congr_right fun hpolicy => exists_congr fun n => ?_)
          have hlt : attempt < 1024 := hdelay.resolve_left hpolicy
          constructor
          · rintro ⟨hn, hle, hbound, hall⟩
            refine ⟨hn, by omega, by omega, fun k hk hkn => ?_⟩
            obtain rfl | hk := hk.eq_or_lt
            · exact hfails
            · exact hall k hk hkn
          · rintro ⟨hn, hle, hbound, hall⟩
            exact ⟨hn, by omega, by omega, fun k hk hkn => hall k (by omega) hkn⟩
        · have hraises : ¬ Returns (nextDelaySeconds policy (attempt + 1)
              (attempts attempt).fraction) := mt returns_nextDelaySeconds.1 hdelay
          push Not at hdelay
          refine iff_of_true (fun h => ?_) ⟨hdelay.1, attempt, hdelay.2, le_rfl, by omega, ?_⟩
          · obtain ⟨delay, hdelay, -⟩ := returns_bind.1 h
            exact hraises ⟨delay, hdelay⟩
          · intro k hk hkn
            rw [le_antisymm hkn hk]
            exact hfails

theorem returns_dispatchWithRetries (maxRetries : ℤ) :
    Returns (dispatchWithRetries jobTimeoutSeconds policy attempts 0 maxRetries.toNat) ↔
      ¬ Overflows jobTimeoutSeconds policy maxRetries attempts := by
  rw [← not_iff_not, not_not, not_returns_dispatchWithRetries]
  refine and_congr_right fun _ => ?_
  constructor
  · rintro ⟨n, hn, -, hbound, hall⟩
    exact ⟨by omega, fun k hk => hall k (Nat.zero_le k) (hk.trans hn)⟩
  · rintro ⟨hretries, hall⟩
    exact ⟨1024, le_rfl, Nat.zero_le _, by omega, fun k _ hk => hall k hk⟩

end

namespace RunAnswers

variable {floats : PyFloats} {answers : RunAnswers} {graph : AcceptedGraph} {run : RunState}
  {nodeResults : Dict String Value} {node : AcceptedNode}

theorem returns_dispatch {edgeNo itemNo : ℕ} {params : Params} :
    Returns (answers.dispatch node edgeNo itemNo params) ↔
      answers.DispatchPasses node edgeNo itemNo params := by
  rw [dispatch, returns_bind, DispatchPasses, ← returns_dispatchWithRetries]
  exact exists_congr fun outcome => and_iff_left (returns_ok _)

theorem returns_edgeDispatches {base : Params} {edge : ChoreographyEdge × ℕ} :
    Returns (answers.edgeDispatches floats graph node base edge) ↔
      answers.EdgePasses floats graph node base edge := by
  have hitems : Returns (answers.itemsOf floats graph node.nodeId edge.1 edge.2) ↔ _ :=
    returns_resolveAcceptedItems floats _ _ _
  -- once the items are there, each of them is dispatched, where the edge has a parameter
  have hrest (items : List DataItem) : Returns (match edge.1.param? with
        | none => return []
        | some param => items.zipIdx.mapM fun item =>
            answers.dispatch node edge.2 item.2 (itemParams base param item.1)) ↔
      ∀ param ∈ edge.1.param?, ∀ item ∈ items.zipIdx,
        answers.DispatchPasses node edge.2 item.2 (itemParams base param item.1) := by
    cases edge.1.param? with
    | none => exact iff_of_true (returns_ok _) (by simp)
    | some param => simp only [returns_mapM, returns_dispatch, Option.mem_some_iff, forall_eq']
  rw [edgeDispatches, returns_bind, EdgePasses, ← hitems]
  constructor
  · rintro ⟨items, hreturns, hdispatches⟩
    refine ⟨⟨items, hreturns⟩, fun items' hreturns' => ?_⟩
    rw [hreturns] at hreturns'
    obtain rfl := Except.ok.inj hreturns'
    exact (hrest items).1 hdispatches
  · rintro ⟨⟨items, hreturns⟩, hdispatches⟩
    exact ⟨items, hreturns, (hrest items).2 (hdispatches items hreturns)⟩

theorem returns_runNode :
    Returns (answers.runNode floats graph nodeResults node) ↔
      answers.NodePasses floats graph nodeResults node := by
  unfold runNode NodePasses
  cases node.kind with
  | bucket => exact iff_of_true (returns_ok _) (by simp)
  | function =>
    simp only [forall_const]
    split_ifs
    · rw [returns_bind, ← returns_dispatch]
      exact exists_congr fun only => and_iff_left (returns_ok _)
    · rw [returns_bind]
      simp only [← returns_edgeDispatches, ← returns_mapM]
      exact exists_congr fun all => and_iff_left (returns_ok _)

theorem nodeById_eq_ok {nodeId : String} :
    nodeById graph nodeId = .ok node ↔ graph.nodesById.lookup nodeId = some node := by
  unfold nodeById
  cases graph.nodesById.lookup nodeId with
  | none => simp
  | some other => simp

theorem returns_runWave {wave : List String} :
    Returns (answers.runWave floats graph run wave) ↔
      answers.WavePasses floats graph run wave := by
  have hnodes (runnable : List String) :
      (∃ nodes, runnable.mapM (nodeById graph) = .ok nodes ∧
        ∀ node ∈ nodes, answers.NodePasses floats graph run.nodeResults node) ↔
      ∀ nodeId ∈ runnable, ∃ node, graph.nodesById.lookup nodeId = some node ∧
        answers.NodePasses floats graph run.nodeResults node := by
    simp only [exists_mapM_forall_iff, nodeById_eq_ok]
  have hrunnable : answers.WavePasses floats graph run wave ↔
      ∀ nodeId ∈ wave.filter (· ∉ run.cancelledOrFailed), ∃ node,
        graph.nodesById.lookup nodeId = some node ∧
          answers.NodePasses floats graph run.nodeResults node := by
    simp only [WavePasses, List.mem_filter, decide_eq_true_eq, and_imp]
  rw [hrunnable, ← hnodes, runWave, returns_bind]
  refine exists_congr fun nodes => and_congr_right fun _ => ?_
  simp only [← returns_runNode, ← returns_mapM]
  rw [returns_bind]
  exact exists_congr fun results => and_iff_left (returns_ok _)

/-- The waves return together when each returns from where the ones before it lead. -/
theorem returns_runWaves (waveNo : ℕ) (waves : List (List String)) :
    Returns (answers.runWaves floats graph waveNo run waves) ↔
      answers.WavesPass floats graph waveNo run waves := by
  induction waves generalizing waveNo run with
  | nil => exact iff_of_true (returns_ok _) trivial
  | cons wave waves ih =>
    rw [runWaves, WavesPass]
    cases answers.stopped waveNo with
    | true => exact iff_of_true (returns_ok _) (by simp)
    | false =>
      simp only [Bool.false_eq_true, if_false, forall_const]
      rw [returns_bind, ← returns_runWave]
      constructor
      · rintro ⟨next, hnext, hrest⟩
        refine ⟨⟨next, hnext⟩, fun next' hnext' => ?_⟩
        rw [hnext] at hnext'
        obtain rfl := Except.ok.inj hnext'
        exact (ih _).1 hrest
      · rintro ⟨⟨next, hnext⟩, hrest⟩
        exact ⟨next, hnext, (ih _).2 (hrest next hnext)⟩

theorem returns_runGraph :
    Returns (answers.runGraph floats graph) ↔ answers.NothingRaises floats graph := by
  unfold runGraph NothingRaises
  cases topologicalWaves graph.shape with
  | error error => exact iff_of_true (returns_ok _) (by simp)
  | ok waves => simp only [returns_runWaves, Except.ok.injEq, forall_eq']

theorem isTerminal_finalStatus : (answers.finalStatus run).IsTerminal := by
  unfold finalStatus
  split_ifs
  · exact .inr (.inr rfl)
  · exact .inr (.inl rfl)
  · exact .inl rfl

end RunAnswers

/-! ### Graphs in which nothing raises -/

namespace AcceptedGraph

/-- A graph as the canvas draws it: the ends of the edges are nodes, what is selected has a name and a
version, and the retries stay below those that make a delay too long. -/
structure Drawn (graph : AcceptedGraph) : Prop where
  declared : graph.shape.Declared
  selectable : ∀ node ∈ graph.nodes, ∀ selected ∈ node.selectedItems.getD [], Selectable selected
  retries : ∀ node ∈ graph.nodes, node.retryPolicy = .constant ∨ node.maxRetries ≤ 1024

variable {graph : AcceptedGraph} {nodeId : String}

theorem exists_nodesById (h : nodeId ∈ graph.shape.nodeIds) :
    ∃ node ∈ graph.nodes, graph.nodesById.lookup nodeId = some node := by
  have hnodeId : nodeId ∈ graph.nodes.map AcceptedNode.nodeId := by
    simpa [shape, ChoreographyGraph.nodeIds, AcceptedNode.shape] using h
  obtain ⟨node, hnode, hid⟩ := List.mem_map.1 hnodeId
  have hne : (graph.nodes.filter fun n => n.nodeId = nodeId) ≠ [] :=
    List.ne_nil_of_mem (List.mem_filter.2 ⟨hnode, decide_eq_true hid⟩)
  refine ⟨_, List.mem_of_mem_filter (List.getLast_mem hne), ?_⟩
  rw [nodesById, lookup_foldl_insert, AList.lookup_empty, Option.or_none,
    List.getLast?_eq_some_getLast hne]

namespace Drawn

variable {floats : PyFloats} {answers : RunAnswers} {node : AcceptedNode}

theorem dispatchPasses (h : graph.Drawn) (hnode : node ∈ graph.nodes) (edgeNo itemNo : ℕ)
    (params : Params) : answers.DispatchPasses node edgeNo itemNo params := by
  rintro ⟨hpolicy, hretries, -⟩
  have := (h.retries node hnode).resolve_left hpolicy
  omega

theorem nodePasses (h : graph.Drawn) (hnode : node ∈ graph.nodes)
    (nodeResults : Dict String Value) : answers.NodePasses floats graph nodeResults node := by
  intro _
  dsimp only
  split_ifs
  · exact h.dispatchPasses hnode 0 0 _
  · rintro ⟨edge, edgeNo⟩ -
    refine ⟨fun _ selected hselected => ?_, fun _ _ _ _ _ _ => h.dispatchPasses hnode _ _ _⟩
    cases hsource : graph.findNode edge.sourceNodeId with
    | none => simp [hsource] at hselected
    | some source =>
      rw [hsource] at hselected
      exact h.selectable source (List.mem_of_find?_eq_some hsource) selected hselected

theorem wavesPass (h : graph.Drawn) (waveNo : ℕ) (run : RunState) (waves : List (List String))
    (hwaves : ∀ wave ∈ waves, ∀ nodeId ∈ wave, nodeId ∈ graph.shape.nodeIds) :
    answers.WavesPass floats graph waveNo run waves := by
  induction waves generalizing waveNo run with
  | nil => trivial
  | cons wave waves ih =>
    rw [List.forall_mem_cons] at hwaves
    refine fun _ => ⟨fun nodeId hnodeId _ => ?_, fun next _ => ih _ next hwaves.2⟩
    obtain ⟨node, hnode, hlookup⟩ := exists_nodesById (hwaves.1 nodeId hnodeId)
    exact ⟨node, hlookup, h.nodePasses hnode _⟩

theorem nothingRaises (h : graph.Drawn) : answers.NothingRaises floats graph := by
  intro waves hwaves
  obtain ⟨error, herror, -⟩ | ⟨layers, hlayers, hlayering⟩ := topologicalWaves_spec h.declared
  · rw [herror] at hwaves
    cases hwaves
  · rw [hlayers] at hwaves
    obtain rfl := Except.ok.inj hwaves
    exact h.wavesPass 0 _ layers fun wave hwave nodeId hnodeId =>
      (hlayering.mem_flatten nodeId).1 (List.mem_flatten.2 ⟨wave, hwave, hnodeId⟩)

end Drawn

end AcceptedGraph

/-! ### The result -/

namespace RunTables

variable {tables : RunTables} {run : StartedRun} {status : RunStatus}

theorem settled_finish (h : status.IsTerminal) : (tables.finish run status).Settled run where
  status := ⟨status, AList.lookup_insert _, h⟩
  stopFlag := Finset.notMem_erase _ _
  liveJobs := Finset.notMem_erase _ _
  free := by
    rintro runId ⟨stored, hlookup, -, hactive⟩ rfl
    have hstored : some stored = some ⟨run.choreographyId, status⟩ :=
      hlookup.symm.trans (AList.lookup_insert _)
    obtain rfl := Option.some.inj hstored
    exact h.not_isActive hactive

/-- The run comes to its end when its thread does. -/
theorem settled_executeRun (floats : PyFloats) (answers : RunAnswers) (graph : AcceptedGraph)
    (tables : RunTables) (run : StartedRun) :
    ((tables.launch run).executeRun floats answers graph run).Settled run ↔
      Returns (answers.runGraph floats graph) := by
  rw [executeRun]
  cases answers.runGraph floats graph with
  | ok ended =>
    exact iff_of_true (settled_finish RunAnswers.isTerminal_finalStatus) (returns_ok _)
  | error raised =>
    refine iff_of_false (fun h => h.stopFlag ?_) (not_returns_error _)
    exact Finset.mem_insert_self _ _

/-- A run that was started comes to its end exactly when nothing raises: in each wave that is reached
every runnable id is that of a node, the selections that are read are of names and versions, and no
delay between two attempts grows beyond a float.  That a poll raises is left out: `send_command` is
taken to return. -/
theorem settled_iff_nothingRaises (floats : PyFloats) (answers : RunAnswers) (graph : AcceptedGraph)
    (tables : RunTables) (run : StartedRun) :
    ((tables.launch run).executeRun floats answers graph run).Settled run ↔
      answers.NothingRaises floats graph :=
  (settled_executeRun floats answers graph tables run).trans RunAnswers.returns_runGraph

/-- Every run of a graph that the canvas draws comes to its end. -/
theorem settled_of_drawn {graph : AcceptedGraph} (h : graph.Drawn) (floats : PyFloats)
    (answers : RunAnswers) (tables : RunTables) (run : StartedRun) :
    ((tables.launch run).executeRun floats answers graph run).Settled run :=
  (settled_executeRun floats answers graph tables run).2
    (RunAnswers.returns_runGraph.2 h.nothingRaises)

/-- One function with an edge to a node that is not there. -/
def danglingEdge : AcceptedGraph where
  nodes := [{ nodeId := "a", kind := .function }]
  edges := [⟨"e", "a", "b", .fnToFn, none, 1⟩]

/-- Every job completes at once. -/
def completing : RunAnswers where
  attempts _ _ _ _ _ := { submission := .accepted [.completed .none] }

/-- The wave after that of the function is the missing node alone. -/
theorem unsettled_danglingEdge :
    ¬ ((({} : RunTables).launch ⟨"r", "c"⟩).executeRun default completing danglingEdge
      ⟨"r", "c"⟩).Settled ⟨"r", "c"⟩ := by
  intro h
  exact h.stopFlag (by decide +kernel)

end RunTables

end Axo
