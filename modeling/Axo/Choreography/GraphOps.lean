import Mathlib.Data.String.Basic
import Mathlib.Data.List.Sort
import Axo.Lib.Adjacency
import Axo.Lib.Layering

/-!
# Graph operations of choreographies

`ChoreographyNode`, `ChoreographyEdge` and `ChoreographyGraph` of `axo_shared/events/models.py`, and
`domain/choreography/graph_ops.py`.

* `dependenciesOf` and `dependentsOf`: the two dictionaries of neighbours;
* `topologicalWaves`: the nodes in waves, or the `CycleError` of a graph with a cycle;
* `downstreamOf`: the walk over the nodes that depend on a node.

A set that is iterated over is a list without repetition; a `CycleError` is the `ValueError` with the
node ids that its text lists.
-/

namespace Axo

/-- What a node of the canvas is. -/
inductive NodeKind
  | function
  | bucket
  deriving DecidableEq, Repr

/-- Which kinds of nodes an edge joins. -/
inductive EdgeKind
  | fnToFn
  | fnToBucket
  | bucketToFn
  deriving DecidableEq, Repr

/-- `next_delay_seconds` knows these policies. -/
inductive RetryPolicy
  | constant
  | exponentialBackoff
  | jitter
  deriving DecidableEq, Repr

/-- An item chosen at design time: `{"name": …, "version": …}`. -/
structure SelectedItem where
  name : String
  version : ℤ
  deriving DecidableEq, Repr

structure ChoreographyNode where
  nodeId : String
  kind : NodeKind
  functionId : Option String := none
  functionVersion : Option ℤ := none
  maxRetries : ℤ := 3
  retryPolicy : RetryPolicy := .constant
  bucketName : Option String := none
  selectedItems : Option (List SelectedItem) := none
  deriving DecidableEq, Repr

structure ChoreographyEdge where
  edgeId : String
  sourceNodeId : String
  targetNodeId : String
  kind : EdgeKind
  targetParam : Option String := none
  parallelism : ℤ := 1
  deriving DecidableEq, Repr

structure ChoreographyGraph where
  nodes : List ChoreographyNode := []
  edges : List ChoreographyEdge := []
  deriving DecidableEq, Repr

namespace ChoreographyGraph

open Adjacency

/-- The node ids, as often as they are declared. -/
def nodeIds (graph : ChoreographyGraph) : List String := graph.nodes.map ChoreographyNode.nodeId

/-- An edge leads from `a` to `b`. -/
def Feeds (graph : ChoreographyGraph) (a b : String) : Prop :=
  ∃ e ∈ graph.edges, e.sourceNodeId = a ∧ e.targetNodeId = b

/-- The ends of every edge are declared. -/
def Declared (graph : ChoreographyGraph) : Prop :=
  ∀ e ∈ graph.edges, e.sourceNodeId ∈ graph.nodeIds ∧ e.targetNodeId ∈ graph.nodeIds

instance (graph : ChoreographyGraph) : Decidable graph.Declared :=
  inferInstanceAs (Decidable (∀ e ∈ graph.edges,
    e.sourceNodeId ∈ graph.nodeIds ∧ e.targetNodeId ∈ graph.nodeIds))

end ChoreographyGraph

open Adjacency

/-- `node_id -> the set of node_ids that must complete before it can start`. -/
def dependenciesOf (graph : ChoreographyGraph) : Dict String (List String) :=
  adjacency graph.nodeIds (graph.edges.map fun e => (e.targetNodeId, e.sourceNodeId))

/-- `node_id -> the set of node_ids that depend directly on it`. -/
def dependentsOf (graph : ChoreographyGraph) : Dict String (List String) :=
  adjacency graph.nodeIds (graph.edges.map fun e => (e.sourceNodeId, e.targetNodeId))

/-- The `ValueError` of a graph with a cycle. -/
structure CycleError where
  among : List String
  deriving DecidableEq, Repr

/-- `[node_id for node_id, deps in remaining.items() if deps <= done]`. -/
def ready (remaining : Dict String (List String)) (done : Finset String) : List String :=
  remaining.keys.filter fun nodeId => ∀ dep ∈ neighbours remaining nodeId, dep ∈ done

theorem ready_subset_keys (remaining : Dict String (List String)) (done : Finset String) :
    ∀ nodeId ∈ ready remaining done, nodeId ∈ remaining := fun _ h => List.mem_of_mem_filter h

/-- The loop of `topological_waves`. -/
def wavesLoop (remaining : Dict String (List String)) (waves : List (List String))
    (done : Finset String) : Except CycleError (List (List String)) :=
  if Dict.size remaining = 0 then .ok waves
  else if ready remaining done = [] then
    .error ⟨remaining.keys.insertionSort (· ≤ ·)⟩
  else
    wavesLoop (Dict.eraseAll remaining (ready remaining done))
      (waves ++ [(ready remaining done).insertionSort (· ≤ ·)])
      (done ∪ (ready remaining done).toFinset)
termination_by Dict.size remaining
decreasing_by
  exact Dict.size_eraseAll_lt (ready_subset_keys remaining done) ‹_›

/-- Groups node ids into ordered waves: everything in a wave has all its dependencies satisfied by
the end of the wave before. -/
def topologicalWaves (graph : ChoreographyGraph) : Except CycleError (List (List String)) :=
  wavesLoop (dependenciesOf graph) [] ∅

/-- Every node id transitively dependent on the node. -/
def downstreamOf (graph : ChoreographyGraph) (nodeId : String) : Finset String :=
  walk (dependentsOf graph) (neighbours (dependentsOf graph) nodeId) ∅

end Axo
