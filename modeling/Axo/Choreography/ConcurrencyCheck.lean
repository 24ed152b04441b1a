import Axo.Choreography.RunChoreography
import Axo.Choreography.Waves

/-!
# The concurrency check

`check_concurrency` of `domain/choreography/concurrency_check.py`, and
`RunChoreographyUseCase.validate`, which calls it with what the read model knows.

* `requiredConcurrency` is the sum over the inbound edges of one node;
* `width` is how many jobs the threads of one node can have at a time;
* `WavesFit` says that the widths of the nodes of a wave, added up for each version of a function,
  stay within the limit of the version;
* `wavesFit_of_validate`: the check means this when no two nodes have one function.
-/

namespace Axo

/-- A version of a function. -/
structure FunctionVersionId where
  functionId : String
  version : Option ℤ
  deriving DecidableEq, Repr

/-- A `Function` of the read model, with the `max_concurrency` of its `runtime_spec`, if it has a
spec that says one. -/
structure FunctionReadModel where
  maxConcurrency : Option ℤ
  deriving DecidableEq

/-- `FunctionRepository.get`. -/
abbrev FunctionReads := FunctionVersionId → Option FunctionReadModel

/-- `(spec or {}).get("max_concurrency", 1)`. -/
def FunctionReads.maxConcurrency (functions : FunctionReads) (v : FunctionVersionId) : ℤ :=
  ((functions v).bind FunctionReadModel.maxConcurrency).getD 1

/-- How many jobs of a version may be in flight. -/
def FunctionReads.limit (functions : FunctionReads) (v : FunctionVersionId) : ℕ :=
  (functions.maxConcurrency v).toNat

/-- The version that a function node runs. -/
def ChoreographyNode.version? (node : ChoreographyNode) : Option FunctionVersionId :=
  match node.kind, node.functionId with
  | .function, some functionId => some ⟨functionId, node.functionVersion⟩
  | _, _ => none

/-! ### The check -/

structure ConcurrencyViolation where
  nodeId : String
  functionId : String
  requiredConcurrency : ℤ
  maxConcurrency : ℤ
  deriving DecidableEq, Repr

/-- How many invocations an inbound edge stands for. -/
def ChoreographyEdge.invocations (edge : ChoreographyEdge) : ℤ :=
  match edge.kind with
  | .fnToFn => 1
  | .bucketToFn => max 1 edge.parallelism
  | .fnToBucket => 0

/-- `concurrency` of a node; one without inbound edges still runs once. -/
def requiredConcurrency (graph : ChoreographyGraph) (nodeId : String) : ℤ :=
  max (((graph.edges.filter fun e => e.targetNodeId = nodeId).map
    ChoreographyEdge.invocations).sum) 1

/-- `node.function_id`, when the node is a function with an id that is not empty. -/
def ChoreographyNode.checkedFunctionId? (node : ChoreographyNode) : Option String :=
  match node.kind with
  | .function => node.functionId.filter (· ≠ "")
  | .bucket => none

def checkNode (graph : ChoreographyGraph) (maxByFunction : Dict String ℤ)
    (node : ChoreographyNode) : Option ConcurrencyViolation :=
  match node.checkedFunctionId? with
  | none => none
  | some functionId =>
    let concurrency := requiredConcurrency graph node.nodeId
    let maxAllowed := Dict.getD maxByFunction functionId 1
    if maxAllowed < concurrency then
      some ⟨node.nodeId, functionId, concurrency, maxAllowed⟩
    else none

/-- `check_concurrency`. -/
def checkConcurrency (graph : ChoreographyGraph) (maxByFunction : Dict String ℤ) :
    List ConcurrencyViolation :=
  graph.nodes.filterMap (checkNode graph maxByFunction)

/-- `max_concurrency_by_function` of `validate`: the last node of a function decides. -/
def maxConcurrencyByFunction (functions : FunctionReads) (graph : ChoreographyGraph) :
    Dict String ℤ :=
  graph.nodes.foldl
    (fun m node =>
      match node.checkedFunctionId? with
      | none => m
      | some functionId =>
        m.insert functionId (functions.maxConcurrency ⟨functionId, node.functionVersion⟩))
    ∅

/-- `RunChoreographyUseCase.validate`. -/
def validate (functions : FunctionReads) (graph : ChoreographyGraph) :
    List ConcurrencyViolation :=
  checkConcurrency graph (maxConcurrencyByFunction functions graph)

/-! ### What a wave can start -/

/-- How many jobs an edge from a bucket keeps going at a time: none when it names no parameter or
has no bucket. -/
def edgeWidth (graph : ChoreographyGraph) (edge : ChoreographyEdge) : ℕ :=
  match edge.param?, ((graph.findNode edge.sourceNodeId).bind ChoreographyNode.bucketName).filter
      (· ≠ "") with
  | some _, some _ => (max 1 edge.parallelism).toNat
  | _, _ => 0

/-- How many jobs the threads of a node can have at a time.  The bucket edges of a node are gone
through one after the other. -/
def width (graph : ChoreographyGraph) (node : ChoreographyNode) : ℕ :=
  match node.kind with
  | .bucket => 0
  | .function =>
    if graph.bucketEdges node.nodeId = [] then 1
    else ((graph.bucketEdges node.nodeId).map (edgeWidth graph)).foldr max 0

/-- The widths of the nodes that run one version, added up over a wave. -/
def waveWidth (graph : ChoreographyGraph) (wave : List String) (v : FunctionVersionId) : ℕ :=
  ((wave.filterMap fun nodeId => graph.nodesById.lookup nodeId).map fun node =>
    if node.version? = some v then width graph node else 0).sum

/-- Every wave stays within the limit of every version, all of its nodes taken together. -/
def WavesFit (functions : FunctionReads) (graph : ChoreographyGraph) : Prop :=
  ∀ waves, topologicalWaves graph = .ok waves → ∀ wave ∈ waves, ∀ v,
    waveWidth graph wave v ≤ functions.limit v

/-! ### What the check means -/

/-- No two nodes have one function, and every function node has one. -/
structure OwnFunctions (graph : ChoreographyGraph) : Prop where
  own : ∀ a ∈ graph.nodes, ∀ b ∈ graph.nodes, a.kind = .function → b.kind = .function →
    a.functionId = b.functionId → a = b
  named : ∀ a ∈ graph.nodes, a.functionId ≠ some ""

section

variable {functions : FunctionReads} {graph : ChoreographyGraph} {node : ChoreographyNode}

theorem invocations_nonneg (edge : ChoreographyEdge) : 0 ≤ edge.invocations := by
  unfold ChoreographyEdge.invocations
  split
  · exact zero_le_one
  · exact zero_le_one.trans (le_max_left _ _)
  · exact le_rfl

theorem edgeWidth_le (edge : ChoreographyEdge) :
    edgeWidth graph edge ≤ (max 1 edge.parallelism).toNat := by
  unfold edgeWidth
  split
  · exact le_rfl
  · exact Nat.zero_le _

/-- The check counts at least as much as a node can start by itself. -/
theorem width_le_requiredConcurrency :
    (width graph node : ℤ) ≤ requiredConcurrency graph node.nodeId := by
  have hone : (1 : ℤ) ≤ requiredConcurrency graph node.nodeId := le_max_right _ _
  unfold width
  split
  · exact zero_le_one.trans hone
  · split_ifs with hnone
    · exact hone
    · have hle : ((graph.bucketEdges node.nodeId).map (edgeWidth graph)).foldr max 0 ≤
          (requiredConcurrency graph node.nodeId).toNat := by
        refine List.max_le_of_forall_le _ _ fun w hw => ?_
        obtain ⟨edge, hedge, rfl⟩ := List.mem_map.1 hw
        obtain ⟨hmem, hof⟩ := List.mem_filter.1 hedge
        obtain ⟨htarget, hkind⟩ := of_decide_eq_true hof
        -- the edge is one of the terms of the sum
        have hterm : edge.invocations ≤ requiredConcurrency graph node.nodeId := by
          refine le_trans (List.single_le_sum ?_ _ ?_) (le_max_left _ _)
          · intro n hn
            obtain ⟨e, -, rfl⟩ := List.mem_map.1 hn
            exact invocations_nonneg e
          · exact List.mem_map_of_mem (List.mem_filter.2 ⟨hmem, decide_eq_true htarget⟩)
        have hinvocations : edge.invocations = max 1 edge.parallelism := by
          rw [ChoreographyEdge.invocations, hkind]
        rw [hinvocations] at hterm
        exact (edgeWidth_le edge).trans (Int.toNat_le_toNat hterm)
      omega

theorem checkedFunctionId?_eq_some {functionId : String} :
    node.checkedFunctionId? = some functionId ↔
      node.kind = .function ∧ node.functionId = some functionId ∧ functionId ≠ "" := by
  unfold ChoreographyNode.checkedFunctionId?
  cases node.kind with
  | bucket => simp
  | function => simp [Option.filter_eq_some_iff]

/-- What `validate` looks up for a function that one node has. -/
theorem lookup_maxConcurrencyByFunction (hown : OwnFunctions graph) {functionId : String}
    (hnode : node ∈ graph.nodes) (hid : node.checkedFunctionId? = some functionId) :
    (maxConcurrencyByFunction functions graph).lookup functionId =
      some (functions.maxConcurrency ⟨functionId, node.functionVersion⟩) := by
  have hloop : ∀ (nodes : List ChoreographyNode) (m : Dict String ℤ),
      (∀ n ∈ nodes, n ∈ graph.nodes) →
      (node ∈ nodes ∨ m.lookup functionId =
        some (functions.maxConcurrency ⟨functionId, node.functionVersion⟩)) →
      (nodes.foldl
        (fun m node =>
          match node.checkedFunctionId? with
          | none => m
          | some functionId =>
            m.insert functionId (functions.maxConcurrency ⟨functionId, node.functionVersion⟩))
        m).lookup functionId =
          some (functions.maxConcurrency ⟨functionId, node.functionVersion⟩) := by
    intro nodes
    induction nodes with
    | nil => exact fun m _ h => h.resolve_left List.not_mem_nil
    | cons n nodes ih =>
      intro m hnodes h
      rw [List.foldl_cons]
      refine ih _ (fun n hn => hnodes n (List.mem_cons_of_mem _ hn)) ?_
      by_cases hn : n.checkedFunctionId? = some functionId
      · -- the node is the only one with the function
        have heq : n = node := by
          obtain ⟨hkind, hfunction, -⟩ := checkedFunctionId?_eq_some.1 hn
          obtain ⟨hkind', hfunction', -⟩ := checkedFunctionId?_eq_some.1 hid
          exact hown.own n (hnodes n List.mem_cons_self) node hnode hkind hkind'
            (hfunction.trans hfunction'.symm)
        subst heq
        rw [hn]
        exact Or.inr (AList.lookup_insert m)
      · rcases h with h | h
        · rcases List.mem_cons.1 h with rfl | h
          · exact absurd hid hn
          · exact Or.inl h
        · refine Or.inr ?_
          cases hother : n.checkedFunctionId? with
          | none => exact h
          | some other =>
            rw [hother] at hn
            simp only
            rw [AList.lookup_insert_ne fun heq => hn (by rw [heq])]
            exact h
  exact hloop graph.nodes ∅ (fun _ hn => hn) (Or.inl hnode)

theorem function_of_version {v : FunctionVersionId} (hv : node.version? = some v) :
    node.kind = .function ∧ node.functionId = some v.functionId := by
  unfold ChoreographyNode.version? at hv
  split at hv
  · rename_i functionId hkind hfunction
    cases hv
    exact ⟨hkind, hfunction⟩
  · cases hv

theorem requiredConcurrency_le_of_validate (hvalid : validate functions graph = [])
    (hown : OwnFunctions graph) {v : FunctionVersionId} (hnode : node ∈ graph.nodes)
    (hv : node.version? = some v) :
    requiredConcurrency graph node.nodeId ≤ functions.maxConcurrency v := by
  unfold ChoreographyNode.version? at hv
  split at hv
  · rename_i functionId hkind hfunction
    cases hv
    have hid : node.checkedFunctionId? = some functionId := checkedFunctionId?_eq_some.2
      ⟨hkind, hfunction, fun heq => hown.named node hnode (by rw [hfunction, heq])⟩
    have hnone : checkNode graph (maxConcurrencyByFunction functions graph) node = none :=
      List.filterMap_eq_nil_iff.1 hvalid node hnode
    unfold checkNode at hnone
    rw [hid] at hnone
    simp only at hnone
    split_ifs at hnone with hlt
    rw [Dict.getD, lookup_maxConcurrencyByFunction hown hnode hid, Option.getD_some] at hlt
    exact not_lt.1 hlt
  · cases hv

/-- A sum in which one entry at most counts. -/
theorem sum_ite_le {α : Type*} (p : α → Prop) [DecidablePred p] (f : α → ℕ) {l : List α} {a : α}
    (hnodup : l.Nodup) (h : ∀ x ∈ l, p x → x = a) :
    (l.map fun x => if p x then f x else 0).sum ≤ f a := by
  induction l with
  | nil => exact Nat.zero_le _
  | cons x l ih =>
    obtain ⟨hnotMem, hnodup⟩ := List.nodup_cons.1 hnodup
    rw [List.map_cons, List.sum_cons]
    by_cases hx : p x
    · have heq := h x List.mem_cons_self hx
      have hrest : (l.map fun x => if p x then f x else 0).sum = 0 := by
        refine List.sum_eq_zero fun n hn => ?_
        obtain ⟨y, hy, rfl⟩ := List.mem_map.1 hn
        refine if_neg fun hpy => hnotMem ?_
        rw [heq, ← h y (List.mem_cons_of_mem x hy) hpy]
        exact hy
      rw [if_pos hx, hrest, heq, Nat.add_zero]
    · rw [if_neg hx, Nat.zero_add]
      exact ih hnodup fun y hy => h y (List.mem_cons_of_mem x hy)

/-- The check is right about graphs in which no two nodes have one function. -/
theorem wavesFit_of_validate (hdeclared : graph.Declared) (hown : OwnFunctions graph)
    (hvalid : validate functions graph = []) : WavesFit functions graph := by
  intro waves hwaves wave hwave v
  have hlayering := (topologicalWaves_spec hdeclared).resolve_left (by
    rintro ⟨error, herror, -⟩
    rw [hwaves] at herror
    cases herror)
  obtain ⟨waves', hwaves', hlayering⟩ := hlayering
  cases hwaves.symm.trans hwaves'
  have hnodup : (wave.filterMap fun nodeId => graph.nodesById.lookup nodeId).Nodup := by
    refine ((List.nodup_flatten.1 hlayering.nodup).1 wave hwave).filterMap ?_
    intro a b node ha hb
    exact (ChoreographyGraph.mem_of_nodesById ha).2.symm.trans
      (ChoreographyGraph.mem_of_nodesById hb).2
  have hmem : ∀ node ∈ wave.filterMap fun nodeId => graph.nodesById.lookup nodeId,
      node ∈ graph.nodes := by
    intro node hnode
    obtain ⟨nodeId, -, hlookup⟩ := List.mem_filterMap.1 hnode
    exact (ChoreographyGraph.mem_of_nodesById hlookup).1
  unfold waveWidth
  by_cases hsome : ∃ node ∈ wave.filterMap fun nodeId => graph.nodesById.lookup nodeId,
      node.version? = some v
  · obtain ⟨node, hnode, hv⟩ := hsome
    have honly : ∀ other ∈ wave.filterMap fun nodeId => graph.nodesById.lookup nodeId,
        other.version? = some v → other = node := by
      intro other hother hv'
      obtain ⟨hkind, hfunction⟩ := function_of_version hv
      obtain ⟨hkind', hfunction'⟩ := function_of_version hv'
      exact hown.own other (hmem other hother) node (hmem node hnode) hkind' hkind
        (hfunction'.trans hfunction.symm)
    have hsum := sum_ite_le (fun node => node.version? = some v) (width graph) hnodup honly
    have hwidth := @width_le_requiredConcurrency graph node
    have hrequired := requiredConcurrency_le_of_validate hvalid hown (hmem node hnode) hv
    unfold FunctionReads.limit
    omega
  · push Not at hsome
    refine le_of_eq_of_le (List.sum_eq_zero fun n hn => ?_) (Nat.zero_le _)
    obtain ⟨node, hnode, rfl⟩ := List.mem_map.1 hn
    exact if_neg (hsome node hnode)

end

end Axo
