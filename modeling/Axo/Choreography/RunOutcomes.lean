import Axo.Choreography.Waves
import Axo.Choreography.RunChoreography

/-!
# What a run executes

For every graph whose waves exist and every outcome of every dispatch: which nodes `executeRun`
executes, with what, and how it ends.

* `Sound` holds at every moment: an executed node is as `runNode` left it, any other node is pending
  or cancelled; `sound_executeNode` and `sound_collect` are its steps;
* `Between` holds between two waves: what is cancelled is what is downstream of a failed node;
  `between_runWave` is one round of the loop;
* `executeRun_outcome` is the result, `RunOutcome` what it says.
-/

namespace Axo

open Relation Layering RunState ChoreographyGraph

variable {inputs : RunInputs} {graph : ChoreographyGraph} {run : RunState} {a b n m : String}

/-! ### What an execution reads -/

theorem baseParams_congr {results results' : Dict String Value} {nodeId : String}
    (h : ∀ a, graph.Feeds a nodeId → results.lookup a = results'.lookup a) :
    baseParams graph results nodeId = baseParams graph results' nodeId := by
  unfold baseParams
  refine List.foldl_ext _ _ _ fun params edge hedge => ?_
  have hmem := List.mem_filter.1 hedge
  have htarget : edge.targetNodeId = nodeId := (of_decide_eq_true hmem.2).1
  have hlookup := h edge.sourceNodeId ⟨edge, hmem.1, rfl, htarget⟩
  rw [Dict.getD, Dict.getD, hlookup]

/-- An execution depends on the stored results of the sources only. -/
theorem runNode_congr {results results' : Dict String Value} {node : ChoreographyNode}
    (h : ∀ a, graph.Feeds a node.nodeId → results.lookup a = results'.lookup a) :
    inputs.runNode graph node results = inputs.runNode graph node results' := by
  unfold RunInputs.runNode
  rw [baseParams_congr h]

/-- What a node is dispatched with: what its sources left, and for a bucket edge an item besides. -/
theorem dispatch_cases {d : NodeDispatch} {node : ChoreographyNode} {results : Dict String Value}
    (h : d ∈ (inputs.runNode graph node results).dispatches) :
    d.nodeId = node.nodeId ∧ (d.params = baseParams graph results node.nodeId ∨
      ∃ edge ∈ graph.bucketEdges node.nodeId, ∃ param, edge.param? = some param ∧
        ∃ item, d.params = itemParams (baseParams graph results node.nodeId) param item) := by
  unfold RunInputs.runNode at h
  cases hkind : node.kind with
  | bucket =>
    simp only [hkind] at h
    exact absurd h List.not_mem_nil
  | function =>
    by_cases hbuckets : graph.bucketEdges node.nodeId = []
    · simp only [hkind, if_pos hbuckets] at h
      rw [List.mem_singleton.1 h]
      exact ⟨rfl, Or.inl rfl⟩
    · simp only [hkind, if_neg hbuckets] at h
      obtain ⟨l, hl, hd⟩ := List.mem_flatten.1 h
      obtain ⟨i, hi, rfl⟩ := List.mem_mapIdx.1 hl
      unfold RunInputs.edgeDispatches at hd
      cases hparam : ((graph.bucketEdges node.nodeId)[i]).param? with
      | none =>
        simp only [hparam] at hd
        exact absurd hd List.not_mem_nil
      | some param =>
        simp only [hparam] at hd
        obtain ⟨j, hj, rfl⟩ := List.mem_mapIdx.1 hd
        exact ⟨rfl, Or.inr ⟨_, List.getElem_mem hi, param, hparam, _, rfl⟩⟩

/-- An execution fails exactly when one of its dispatches does. -/
theorem runNode_ok (node : ChoreographyNode) (results : Dict String Value) :
    (inputs.runNode graph node results).ok =
      (inputs.runNode graph node results).dispatches.all fun d => d.outcome.ok := by
  unfold RunInputs.runNode
  cases hkind : node.kind with
  | bucket => rfl
  | function =>
    by_cases hbuckets : graph.bucketEdges node.nodeId = []
    · simp only [if_pos hbuckets]
      rw [List.all_cons, List.all_nil, Bool.and_true]
    · simp only [if_neg hbuckets]

/-! ### The first states -/

theorem lookup_foldl_start (ids : List String) (m : Dict String NodeRunState) (k : String) :
    (ids.foldl (fun m nodeId => m.insert nodeId { nodeId := nodeId }) m).lookup k =
      if k ∈ ids then some { nodeId := k } else m.lookup k := by
  induction ids generalizing m with
  | nil => rfl
  | cons nodeId ids ih =>
    rw [List.foldl_cons, ih]
    rcases eq_or_ne k nodeId with rfl | hne
    · simp
    · simp [hne, AList.lookup_insert_ne hne]

theorem statusOf_start (nodeId : String) :
    (start graph).statusOf nodeId = if nodeId ∈ graph.nodeIds then some .pending else none := by
  unfold start statusOf
  rw [lookup_foldl_start]
  split_ifs <;> rfl

/-! ### At every moment -/

/-- The states of the nodes at any moment of a run. -/
structure Sound (inputs : RunInputs) (graph : ChoreographyGraph) (run : RunState) : Prop where
  executed_declared : ∀ n ∈ run.executed, n ∈ graph.nodeIds
  executed_nodup : run.executed.Nodup
  /-- A node is executed after its sources. -/
  sources : ∀ n ∈ run.executed, ∀ a, graph.Feeds a n → a ∈ run.executed
  /-- An executed node is as its execution left it: to execute it once more, with the results as
  they are now, would give the same. -/
  ran : ∀ n ∈ run.executed, ∃ node, graph.nodesById.lookup n = some node ∧ node.nodeId = n ∧
    run.statusOf n = some (inputs.runNode graph node run.nodeResults).status ∧
    run.nodeResults.lookup n = (inputs.runNode graph node run.nodeResults).stored ∧
    run.dispatchesOf n = (inputs.runNode graph node run.nodeResults).dispatches
  idle : ∀ n, n ∉ run.executed → run.nodeResults.lookup n = none ∧ run.dispatchesOf n = []
  waiting : ∀ n ∈ graph.nodeIds, n ∉ run.executed →
    run.statusOf n = some (if n ∈ run.cancelledOrFailed then .cancelled else .pending)
  undeclared : ∀ n, n ∉ graph.nodeIds → run.statusOf n = none

theorem sound_start : Sound inputs graph (start graph) where
  executed_declared n hn := absurd hn List.not_mem_nil
  executed_nodup := List.nodup_nil
  sources n hn := absurd hn List.not_mem_nil
  ran n hn := absurd hn List.not_mem_nil
  idle n _ := ⟨AList.lookup_empty n, rfl⟩
  waiting n hn _ := by
    rw [statusOf_start, if_pos hn]
    rfl
  undeclared n hn := by rw [statusOf_start, if_neg hn]

/-- The step of a thread, when its node is declared. -/
theorem executeNode_eq {node : ChoreographyNode} (hnode : graph.nodesById.lookup n = some node) :
    executeNode inputs graph run n =
      { run with
        nodeStates := run.nodeStates.insert n
          ⟨n, (inputs.runNode graph node run.nodeResults).status,
            (inputs.runNode graph node run.nodeResults).error⟩
        nodeResults :=
          storeResult run.nodeResults n (inputs.runNode graph node run.nodeResults).stored
        executed := run.executed ++ [n]
        dispatched := run.dispatched ++ (inputs.runNode graph node run.nodeResults).dispatches } := by
  simp only [executeNode, hnode]

theorem lookup_storeResult_ne {results : Dict String Value} (stored : Option Value) (h : m ≠ n) :
    (storeResult results n stored).lookup m = results.lookup m := by
  cases stored with
  | none => rfl
  | some value => exact AList.lookup_insert_ne h

theorem lookup_storeResult_self {results : Dict String Value} (stored : Option Value)
    (h : results.lookup n = none) : (storeResult results n stored).lookup n = stored := by
  cases stored with
  | none => exact h
  | some value => exact AList.lookup_insert results

/-- A node with executed sources would do the same after a node that was not executed. -/
theorem runNode_storeResult {node : ChoreographyNode} (stored : Option Value)
    (hnew : n ∉ run.executed) (hsources : ∀ a, graph.Feeds a node.nodeId → a ∈ run.executed) :
    inputs.runNode graph node run.nodeResults =
      inputs.runNode graph node (storeResult run.nodeResults n stored) := by
  refine runNode_congr fun a ha => (lookup_storeResult_ne _ fun heq => hnew ?_).symm
  rw [← heq]
  exact hsources a ha

theorem dispatchesOf_append_ne {dispatches : List NodeDispatch} (hall : ∀ d ∈ dispatches, d.nodeId = n)
    (h : m ≠ n) :
    (run.dispatched ++ dispatches).filter (fun d => d.nodeId = m) = run.dispatchesOf m := by
  have hnone : dispatches.filter (fun d => d.nodeId = m) = [] := by
    refine List.filter_eq_nil_iff.2 fun d hd => ?_
    simpa [hall d hd] using h.symm
  rw [List.filter_append, hnone, List.append_nil, dispatchesOf]

theorem dispatchesOf_append_self {dispatches : List NodeDispatch}
    (hall : ∀ d ∈ dispatches, d.nodeId = n) (hnone : run.dispatchesOf n = []) :
    (run.dispatched ++ dispatches).filter (fun d => d.nodeId = n) = dispatches := by
  have hsame : dispatches.filter (fun d => d.nodeId = n) = dispatches := by
    refine List.filter_eq_self.2 fun d hd => ?_
    simpa using hall d hd
  rw [List.filter_append, hsame, ← dispatchesOf, hnone, List.nil_append]

/-- One thread keeps the moment sound when its node was not executed, is not cancelled, and has only
executed sources. -/
theorem sound_executeNode (h : Sound inputs graph run) (hn : n ∈ graph.nodeIds)
    (hnew : n ∉ run.executed) (hsources : ∀ a, graph.Feeds a n → a ∈ run.executed) :
    Sound inputs graph (executeNode inputs graph run n) := by
  obtain ⟨node, hnode, hid⟩ := exists_nodesById hn
  rw [executeNode_eq hnode]
  set result := inputs.runNode graph node run.nodeResults with hresult
  have hdispatched : ∀ d ∈ result.dispatches, d.nodeId = n := fun d hd =>
    (dispatch_cases hd).1.trans hid
  obtain ⟨hnoResult, hnoDispatch⟩ := h.idle n hnew
  refine ⟨?_, ?_, ?_, ?_, ?_, ?_, ?_⟩
  · intro m hm
    rcases List.mem_append.1 hm with hm | hm
    · exact h.executed_declared m hm
    · rw [List.mem_singleton.1 hm]
      exact hn
  · refine List.nodup_append'.2 ⟨h.executed_nodup, List.nodup_singleton n, ?_⟩
    exact List.disjoint_singleton.2 hnew
  · intro m hm a ha
    rcases List.mem_append.1 hm with hm | hm
    · exact List.mem_append_left _ (h.sources m hm a ha)
    · rw [List.mem_singleton.1 hm] at ha
      exact List.mem_append_left _ (hsources a ha)
  · intro m hm
    rcases List.mem_append.1 hm with hm | hm
    · -- an earlier node: its sources were executed before, so the new result is not among them
      obtain ⟨node', hnode', hid', hstatus, hstored, hof⟩ := h.ran m hm
      have hne : m ≠ n := fun heq => hnew (heq ▸ hm)
      have hsame := @runNode_storeResult inputs graph run n node' result.stored hnew
        fun a ha => h.sources m hm a (hid' ▸ ha)
      refine ⟨node', hnode', hid', ?_, ?_, ?_⟩
      · rw [← hsame, ← hstatus]
        simp only [statusOf, AList.lookup_insert_ne hne]
      · rw [← hsame, ← hstored]
        exact lookup_storeResult_ne _ hne
      · rw [← hsame, ← hof]
        exact dispatchesOf_append_ne hdispatched hne
    · rw [List.mem_singleton.1 hm]
      have hsame := @runNode_storeResult inputs graph run n node result.stored hnew
        fun a ha => hsources a (hid ▸ ha)
      refine ⟨node, hnode, hid, ?_, ?_, ?_⟩
      · rw [← hsame]
        simp only [statusOf, AList.lookup_insert, Option.map_some]
        rfl
      · rw [← hsame]
        exact lookup_storeResult_self _ hnoResult
      · rw [← hsame]
        exact dispatchesOf_append_self hdispatched hnoDispatch
  · intro m hm
    have hold : m ∉ run.executed := fun h => hm (List.mem_append_left _ h)
    have hne : m ≠ n := fun heq => hm (List.mem_append_right _ (List.mem_singleton.2 heq))
    obtain ⟨hresultM, hdispatchM⟩ := h.idle m hold
    exact ⟨(lookup_storeResult_ne _ hne).trans hresultM,
      (dispatchesOf_append_ne hdispatched hne).trans hdispatchM⟩
  · intro m hm hnot
    have hold : m ∉ run.executed := fun h => hnot (List.mem_append_left _ h)
    have hne : m ≠ n := fun heq => hnot (List.mem_append_right _ (List.mem_singleton.2 heq))
    rw [← h.waiting m hm hold]
    simp only [statusOf, AList.lookup_insert_ne hne]
  · intro m hm
    have hne : m ≠ n := fun heq => hm (heq ▸ hn)
    rw [← h.undeclared m hm]
    simp only [statusOf, AList.lookup_insert_ne hne]

/-- The threads of a wave, in any order. -/
theorem sound_foldl_executeNode {l : List String} (h : Sound inputs graph run) (hnodup : l.Nodup)
    (hl : ∀ n ∈ l, n ∈ graph.nodeIds ∧ n ∉ run.executed ∧
      ∀ a, graph.Feeds a n → a ∈ run.executed) :
    Sound inputs graph (l.foldl (executeNode inputs graph) run) ∧
      (l.foldl (executeNode inputs graph) run).executed = run.executed ++ l := by
  induction l generalizing run with
  | nil => exact ⟨h, (List.append_nil _).symm⟩
  | cons n l ih =>
    obtain ⟨hnotMem, hnodup⟩ := List.nodup_cons.1 hnodup
    obtain ⟨hn, hnew, hsources⟩ := hl n List.mem_cons_self
    obtain ⟨node, hnode, -⟩ := exists_nodesById hn
    have hexecuted : (executeNode inputs graph run n).executed = run.executed ++ [n] := by
      rw [executeNode_eq hnode]
    obtain ⟨hsound, heq⟩ := ih (sound_executeNode h hn hnew hsources) hnodup (by
      intro m hm
      obtain ⟨hdeclared, hnewM, hsourcesM⟩ := hl m (List.mem_cons_of_mem n hm)
      rw [hexecuted]
      refine ⟨hdeclared, fun hmem => ?_, fun a ha => List.mem_append_left _ (hsourcesM a ha)⟩
      rcases List.mem_append.1 hmem with hmem | hmem
      · exact hnewM hmem
      · exact hnotMem (List.mem_singleton.1 hmem ▸ hm))
    refine ⟨hsound, heq.trans ?_⟩
    rw [hexecuted, List.append_assoc, List.singleton_append]

/-- The threads of a wave leave the states of the other nodes, and what is cancelled, alone. -/
theorem foldl_executeNode_frame (l : List String) (run : RunState) :
    (∀ m, m ∉ l →
      (l.foldl (executeNode inputs graph) run).statusOf m = run.statusOf m) ∧
      (l.foldl (executeNode inputs graph) run).cancelledOrFailed = run.cancelledOrFailed ∧
      (l.foldl (executeNode inputs graph) run).anyFailed = run.anyFailed := by
  induction l generalizing run with
  | nil => exact ⟨fun _ _ => rfl, rfl, rfl⟩
  | cons n l ih =>
    obtain ⟨hstatus, hcancelled, hfailed⟩ := ih (executeNode inputs graph run n)
    have hone : (∀ m, m ≠ n → (executeNode inputs graph run n).statusOf m = run.statusOf m) ∧
        (executeNode inputs graph run n).cancelledOrFailed = run.cancelledOrFailed ∧
        (executeNode inputs graph run n).anyFailed = run.anyFailed := by
      cases hnode : graph.nodesById.lookup n with
      | none => simp only [executeNode, hnode, implies_true, and_self]
      | some node =>
        rw [executeNode_eq hnode]
        refine ⟨fun m hm => ?_, rfl, rfl⟩
        simp only [statusOf, AList.lookup_insert_ne hm]
    obtain ⟨hstatusOne, hcancelledOne, hfailedOne⟩ := hone
    refine ⟨fun m hm => ?_, hcancelled.trans hcancelledOne, hfailed.trans hfailedOne⟩
    rw [List.mem_cons, not_or] at hm
    exact (hstatus m hm.2).trans (hstatusOne m hm.1)

/-! ### Cancelling -/

theorem lookup_cancelNode (states : Dict String NodeRunState) (k m : String) :
    (cancelNode states k).lookup m =
      (states.lookup m).map fun state =>
        if m = k ∧ state.status = .pending then { state with status := .cancelled } else state := by
  unfold cancelNode
  rcases eq_or_ne m k with rfl | hne
  · cases hstate : states.lookup m with
    | none => simp only [hstate, Option.map_none]
    | some state =>
      by_cases hpending : state.status = .pending
      · simp only [hpending, if_true, AList.lookup_insert, Option.map_some, and_self]
      · simp only [hpending, if_false, hstate, Option.map_some, and_false]
  · simp only [hne, false_and, if_false, Option.map_id']
    split
    · split_ifs
      · exact AList.lookup_insert_ne hne
      · rfl
    · rfl

/-- Cancelling turns the pending ones of the nodes listed into cancelled ones. -/
theorem lookup_foldl_cancelNode (l : List String) (states : Dict String NodeRunState)
    (m : String) :
    (l.foldl cancelNode states).lookup m =
      (states.lookup m).map fun state =>
        if m ∈ l ∧ state.status = .pending then { state with status := .cancelled } else state := by
  induction l generalizing states with
  | nil => simp
  | cons k l ih =>
    rw [List.foldl_cons, ih, lookup_cancelNode, Option.map_map]
    congr 1
    funext state
    by_cases hpending : state.status = .pending
    · by_cases hk : m = k
      · simp [hk, hpending]
      · simp [hk, hpending]
    · simp [hpending]

theorem collect_of_not_failed (h : run.statusOf n ≠ some .failed) : collect graph run n = run := by
  rw [collect, if_neg h]

/-- What collecting a failed node does to the statuses. -/
theorem statusOf_collect (h : run.statusOf n = some .failed) (m : String) :
    (collect graph run n).statusOf m =
      (run.statusOf m).map fun status =>
        if m ∈ downstreamOf graph n ∧ m ∉ run.cancelledOrFailed ∧ status = .pending then .cancelled
        else status := by
  rw [collect, if_pos h]
  simp only [statusOf]
  rw [lookup_foldl_cancelNode, Option.map_map, Option.map_map]
  congr 1
  funext state
  simp only [Function.comp_apply, Finset.mem_sort, Finset.mem_sdiff, and_assoc]
  split_ifs <;> rfl

/-- The future of one node keeps the moment sound, when nothing downstream of the node was
executed. -/
theorem sound_collect (h : Sound inputs graph run)
    (hdown : ∀ m, TransGen graph.Feeds n m → m ∉ run.executed) :
    Sound inputs graph (collect graph run n) ∧
      (collect graph run n).executed = run.executed ∧
      ∀ m ∈ run.executed, (collect graph run n).statusOf m = run.statusOf m := by
  by_cases hfailed : run.statusOf n = some .failed
  swap
  · rw [collect_of_not_failed hfailed]
    exact ⟨h, rfl, fun _ _ => rfl⟩
  have hstatus : ∀ m, (collect graph run n).statusOf m =
      (run.statusOf m).map fun status =>
        if m ∈ downstreamOf graph n ∧ m ∉ run.cancelledOrFailed ∧ status = .pending then .cancelled
        else status := statusOf_collect hfailed
  have hkept : ∀ m ∈ run.executed, (collect graph run n).statusOf m = run.statusOf m := by
    intro m hm
    have hnot : m ∉ downstreamOf graph n := fun hmem => hdown m (mem_downstreamOf.1 hmem) hm
    rw [hstatus]
    simp only [hnot, false_and, if_false, Option.map_id']
  have hcollect : collect graph run n =
      { run with
        anyFailed := true
        nodeStates := (collect graph run n).nodeStates
        cancelledOrFailed := run.cancelledOrFailed ∪ downstreamOf graph n } := by
    rw [collect, if_pos hfailed]
    simp only [Finset.union_sdiff_self_eq_union]
  have hexecuted : (collect graph run n).executed = run.executed := by rw [hcollect]
  have hresults : (collect graph run n).nodeResults = run.nodeResults := by rw [hcollect]
  have hdispatched : (collect graph run n).dispatched = run.dispatched := by rw [hcollect]
  have hcancelled : (collect graph run n).cancelledOrFailed =
      run.cancelledOrFailed ∪ downstreamOf graph n := by rw [hcollect]
  refine ⟨⟨?_, ?_, ?_, ?_, ?_, ?_, ?_⟩, hexecuted, hkept⟩
  · rw [hexecuted]
    exact h.executed_declared
  · rw [hexecuted]
    exact h.executed_nodup
  · rw [hexecuted]
    exact h.sources
  · intro m hm
    rw [hexecuted] at hm
    rw [hkept m hm, hresults, dispatchesOf, hdispatched]
    exact h.ran m hm
  · intro m hm
    rw [hexecuted] at hm
    rw [hresults, dispatchesOf, hdispatched]
    exact h.idle m hm
  · intro m hm hnot
    rw [hexecuted] at hnot
    rw [hstatus, h.waiting m hm hnot, hcancelled]
    by_cases hold : m ∈ run.cancelledOrFailed
    · simp [hold]
    · by_cases hnew : m ∈ downstreamOf graph n <;> simp [hold, hnew]
  · intro m hm
    rw [hstatus, h.undeclared m hm, Option.map_none]

/-- The futures of a wave, one after the other. -/
theorem foldl_collect_spec {l : List String} (h : Sound inputs graph run)
    (hl : ∀ n ∈ l, n ∈ run.executed)
    (hdown : ∀ n ∈ l, ∀ m, TransGen graph.Feeds n m → m ∉ run.executed) :
    Sound inputs graph (l.foldl (collect graph) run) ∧
      (l.foldl (collect graph) run).executed = run.executed ∧
      (∀ m ∈ run.executed, (l.foldl (collect graph) run).statusOf m = run.statusOf m) ∧
      (∀ m, m ∈ (l.foldl (collect graph) run).cancelledOrFailed ↔ m ∈ run.cancelledOrFailed ∨
        ∃ n ∈ l, run.statusOf n = some .failed ∧ TransGen graph.Feeds n m) ∧
      ((l.foldl (collect graph) run).anyFailed = true ↔
        run.anyFailed = true ∨ ∃ n ∈ l, run.statusOf n = some .failed) := by
  induction l generalizing run with
  | nil => exact ⟨h, rfl, fun _ _ => rfl, by simp, by simp⟩
  | cons n l ih =>
    obtain ⟨hsound, hexecuted, hkept⟩ :=
      sound_collect h (hdown n List.mem_cons_self)
    have hcancelledOne : ∀ m, m ∈ (collect graph run n).cancelledOrFailed ↔
        m ∈ run.cancelledOrFailed ∨ (run.statusOf n = some .failed ∧ TransGen graph.Feeds n m) := by
      intro m
      by_cases hfailed : run.statusOf n = some .failed
      · rw [collect, if_pos hfailed]
        simp only [Finset.union_sdiff_self_eq_union, Finset.mem_union, mem_downstreamOf, hfailed,
          true_and]
      · rw [collect_of_not_failed hfailed]
        simp only [hfailed, false_and, or_false]
    have hfailedOne : (collect graph run n).anyFailed = true ↔
        run.anyFailed = true ∨ run.statusOf n = some .failed := by
      by_cases hfailed : run.statusOf n = some .failed
      · rw [collect, if_pos hfailed]
        simp only [hfailed, or_true]
      · rw [collect_of_not_failed hfailed]
        simp only [hfailed, or_false]
    have hstatus : ∀ k ∈ l, (collect graph run n).statusOf k = run.statusOf k := fun k hk =>
      hkept k (hl k (List.mem_cons_of_mem n hk))
    obtain ⟨hsound', hexecuted', hkept', hcancelled', hfailed'⟩ := ih hsound
      (fun k hk => hexecuted ▸ hl k (List.mem_cons_of_mem n hk))
      (fun k hk => hexecuted ▸ hdown k (List.mem_cons_of_mem n hk))
    refine ⟨hsound', hexecuted'.trans hexecuted, fun m hm => ?_, fun m => ?_, ?_⟩
    · exact (hkept' m (hexecuted ▸ hm)).trans (hkept m hm)
    · rw [List.foldl_cons, hcancelled', hcancelledOne, or_assoc, List.exists_mem_cons_iff]
      refine or_congr_right (or_congr_right (exists_congr fun k => ?_))
      exact and_congr_right fun hk => by rw [hstatus k hk]
    · rw [List.foldl_cons, hfailed', hfailedOne, or_assoc, List.exists_mem_cons_iff]
      refine or_congr_right (or_congr_right (exists_congr fun k => ?_))
      exact and_congr_right fun hk => by rw [hstatus k hk]

/-! ### Between two waves -/

/-- The run after the waves of the nodes `past`. -/
structure Between (inputs : RunInputs) (graph : ChoreographyGraph) (past : List String)
    (run : RunState) : Prop where
  sound : Sound inputs graph run
  executed_past : ∀ n ∈ run.executed, n ∈ past
  covered : ∀ n ∈ past, n ∈ run.executed ∨ n ∈ run.cancelledOrFailed
  not_cancelled : ∀ n ∈ run.executed, n ∉ run.cancelledOrFailed
  /-- Cancelled is what is downstream of a failed node. -/
  cancelled_iff : ∀ n, n ∈ run.cancelledOrFailed ↔
    ∃ m ∈ run.executed, run.statusOf m = some .failed ∧ TransGen graph.Feeds m n
  anyFailed_iff : run.anyFailed = true ↔ ∃ m ∈ run.executed, run.statusOf m = some .failed

theorem between_start : Between inputs graph [] (start graph) where
  sound := sound_start
  executed_past n hn := absurd hn List.not_mem_nil
  covered n hn := absurd hn List.not_mem_nil
  not_cancelled n hn := absurd hn List.not_mem_nil
  cancelled_iff n := by simp [start]
  anyFailed_iff := by simp [start]

/-- What the layering says of the next wave. -/
structure NextWave (graph : ChoreographyGraph) (past wave : List String) : Prop where
  declared : ∀ n ∈ wave, n ∈ graph.nodeIds
  nodup : wave.Nodup
  disjoint : ∀ n ∈ wave, n ∉ past
  sources : ∀ n ∈ wave, ∀ a, graph.Feeds a n → a ∈ past
  down : ∀ n ∈ wave, ∀ m, TransGen graph.Feeds n m → m ∉ past ∧ m ∉ wave

/-- The sources of a node that may run were executed, for a cancelled one would cancel the node. -/
theorem Between.sources_executed {past wave : List String} (hnext : NextWave graph past wave)
    (h : Between inputs graph past run) (hn : n ∈ wave) (hnot : n ∉ run.cancelledOrFailed)
    {a : String} (ha : graph.Feeds a n) : a ∈ run.executed := by
  rcases h.covered a (hnext.sources n hn a ha) with hexecuted | hcancelled
  · exact hexecuted
  · obtain ⟨m, hm, hfailed, hma⟩ := (h.cancelled_iff a).1 hcancelled
    exact absurd ((h.cancelled_iff n).2 ⟨m, hm, hfailed, hma.tail ha⟩) hnot

/-- A failed node is one that failed in an earlier wave, or in this one. -/
theorem exists_failed_iff {ran after : RunState} {wave : List String} (P : String → Prop)
    (hexecuted : ∀ n, n ∈ after.executed ↔ n ∈ run.executed ∨ n ∈ wave)
    (hafter : ∀ n ∈ after.executed, after.statusOf n = ran.statusOf n)
    (hold : ∀ n ∈ run.executed, ran.statusOf n = run.statusOf n) :
    (∃ m ∈ after.executed, after.statusOf m = some .failed ∧ P m) ↔
      (∃ m ∈ run.executed, run.statusOf m = some .failed ∧ P m) ∨
        ∃ m ∈ wave, ran.statusOf m = some .failed ∧ P m := by
  constructor
  · rintro ⟨m, hm, hfailed, hP⟩
    rw [hafter m hm] at hfailed
    rcases (hexecuted m).1 hm with hm' | hm'
    · rw [hold m hm'] at hfailed
      exact Or.inl ⟨m, hm', hfailed, hP⟩
    · exact Or.inr ⟨m, hm', hfailed, hP⟩
  · rintro (⟨m, hm, hfailed, hP⟩ | ⟨m, hm, hfailed, hP⟩)
    · have hm' := (hexecuted m).2 (Or.inl hm)
      exact ⟨m, hm', by rwa [hafter m hm', hold m hm], hP⟩
    · have hm' := (hexecuted m).2 (Or.inr hm)
      exact ⟨m, hm', by rwa [hafter m hm'], hP⟩

/-- One round of the loop over the waves. -/
theorem between_runWave {past wave : List String}
    (hnext : NextWave graph past wave) (h : Between inputs graph past run) :
    Between inputs graph (past ++ wave) (runWave inputs graph run wave) := by
  set runnable := wave.filter (· ∉ run.cancelledOrFailed) with hrunnable
  have hmem : ∀ n, n ∈ runnable ↔ n ∈ wave ∧ n ∉ run.cancelledOrFailed := fun n => by
    rw [hrunnable, List.mem_filter, decide_eq_true_eq]
  have hperm := inputs.order_perm runnable
  have hnew : ∀ n ∈ wave, n ∉ run.executed := fun n hn hexecuted =>
    hnext.disjoint n hn (h.executed_past n hexecuted)
  obtain ⟨hsound, hexecuted⟩ := sound_foldl_executeNode (l := inputs.order runnable) h.sound
    (hperm.nodup_iff.2 (hnext.nodup.filter _)) (by
      intro n hn
      obtain ⟨hwave, hnot⟩ := (hmem n).1 (hperm.mem_iff.1 hn)
      exact ⟨hnext.declared n hwave, hnew n hwave, fun _ => h.sources_executed hnext hwave hnot⟩)
  obtain ⟨hstatus, hcancelled, hfailed⟩ :=
    @foldl_executeNode_frame inputs graph (inputs.order runnable) run
  have hwave_eq : runWave inputs graph run wave = runnable.foldl (collect graph)
      ((inputs.order runnable).foldl (executeNode inputs graph) run) := rfl
  set ran := (inputs.order runnable).foldl (executeNode inputs graph) run with hran
  have hmemExecuted : ∀ n, n ∈ ran.executed ↔ n ∈ run.executed ∨ n ∈ runnable := fun n => by
    rw [hexecuted, List.mem_append, hperm.mem_iff]
  have hold : ∀ n ∈ run.executed, ran.statusOf n = run.statusOf n := fun n hn =>
    hstatus n fun hmemOrder => hnew n ((hmem n).1 (hperm.mem_iff.1 hmemOrder)).1 hn
  have hdown : ∀ n ∈ runnable, ∀ m, TransGen graph.Feeds n m → m ∉ ran.executed := by
    intro n hn m hnm hmExecuted
    obtain ⟨hnotPast, hnotWave⟩ := hnext.down n ((hmem n).1 hn).1 m hnm
    rcases (hmemExecuted m).1 hmExecuted with hm | hm
    · exact hnotPast (h.executed_past m hm)
    · exact hnotWave ((hmem m).1 hm).1
  obtain ⟨hsound', hexecuted', hkept', hcancelled', hfailed'⟩ := foldl_collect_spec
    hsound (l := runnable) (fun n hn => (hmemExecuted n).2 (Or.inr hn)) hdown
  rw [hwave_eq]
  set after := runnable.foldl (collect graph) ran
  have hmemAfter : ∀ n, n ∈ after.executed ↔ n ∈ run.executed ∨ n ∈ runnable := fun n => by
    rw [hexecuted', hmemExecuted]
  have hfailedIff (P : String → Prop) := exists_failed_iff P hmemAfter
    (fun n hn => hkept' n (hexecuted' ▸ hn)) hold
  have hcancelledIff : ∀ n, n ∈ after.cancelledOrFailed ↔
      ∃ m ∈ after.executed, after.statusOf m = some .failed ∧ TransGen graph.Feeds m n :=
    fun n => by rw [hcancelled', hcancelled, h.cancelled_iff, hfailedIff]
  refine ⟨hsound', ?_, ?_, ?_, hcancelledIff, ?_⟩
  · intro n hn
    rcases (hmemAfter n).1 hn with hn | hn
    · exact List.mem_append_left wave (h.executed_past n hn)
    · exact List.mem_append_right past ((hmem n).1 hn).1
  · intro n hn
    rcases List.mem_append.1 hn with hn | hn
    · rcases h.covered n hn with hn | hn
      · exact Or.inl ((hmemAfter n).2 (Or.inl hn))
      · exact Or.inr ((hcancelled' n).2 (Or.inl (hcancelled ▸ hn)))
    · by_cases hmemCancelled : n ∈ run.cancelledOrFailed
      · exact Or.inr ((hcancelled' n).2 (Or.inl (hcancelled ▸ hmemCancelled)))
      · exact Or.inl ((hmemAfter n).2 (Or.inr ((hmem n).2 ⟨hn, hmemCancelled⟩)))
  · intro n hn hmemCancelled
    rcases (hcancelled' n).1 hmemCancelled with hbefore | ⟨m, hm, -, hmn⟩
    · rw [hcancelled] at hbefore
      rcases (hmemAfter n).1 hn with hn | hn
      · exact h.not_cancelled n hn hbefore
      · exact ((hmem n).1 hn).2 hbefore
    · exact hdown m hm n hmn (hexecuted' ▸ hn)
  · rw [hfailed', hfailed, h.anyFailed_iff]
    simpa using (hfailedIff fun _ => True).symm

theorem IsLayering.nextWave {waves past rest : List (List String)} {wave : List String}
    (hdeclared : graph.Declared) (h : IsLayering graph waves)
    (hsplit : waves = past ++ wave :: rest) : NextWave graph past.flatten wave := by
  have hwave : waves[past.length]? = some wave := by
    rw [hsplit, List.getElem?_append_right le_rfl, Nat.sub_self, List.getElem?_cons_zero]
  have hmemWave : wave ∈ waves := List.mem_of_getElem? hwave
  have hheight : ∀ n ∈ wave, Height graph.Feeds past.length n := fun n hn =>
    h.height past.length wave n hwave hn
  -- a node of an earlier wave has a smaller height
  have hpast : ∀ n ∈ past.flatten, ∃ i < past.length, Height graph.Feeds i n := by
    intro n hn
    obtain ⟨earlier, hearlier, hn⟩ := List.mem_flatten.1 hn
    obtain ⟨i, hi, rfl⟩ := List.mem_iff_getElem.1 hearlier
    refine ⟨i, hi, h.height i past[i] n ?_ hn⟩
    rw [hsplit, List.getElem?_append_left hi, List.getElem?_eq_getElem hi]
  have hin : ∀ n ∈ wave, n ∈ graph.nodeIds := fun n hn =>
    (h.mem_flatten n).1 (List.mem_flatten_of_mem hmemWave hn)
  refine ⟨hin, (List.nodup_flatten.1 h.nodup).1 wave hmemWave, ?_, ?_, ?_⟩
  · intro n hn hnPast
    obtain ⟨i, hi, hin⟩ := hpast n hnPast
    have heq := hin.unique (hheight n hn)
    omega
  · intro n hn a ha
    have hadeclared : a ∈ waves.flatten := (h.mem_flatten a).2 (hdeclared.source_mem ha)
    rw [hsplit, List.flatten_append, List.mem_append] at hadeclared
    refine hadeclared.resolve_right fun hlater => ?_
    obtain ⟨later, hlater, hamem⟩ := List.mem_flatten.1 hlater
    obtain ⟨j, hj, rfl⟩ := List.mem_iff_getElem.1 hlater
    have hjwave : waves[past.length + j]? = some (wave :: rest)[j] := by
      rw [hsplit, List.getElem?_append_right (Nat.le_add_right _ _), Nat.add_sub_cancel_left,
        List.getElem?_eq_getElem hj]
    have hlt := Height.lt ha (h.height _ _ a hjwave hamem) (hheight n hn)
    omega
  · intro n hn m hnm
    constructor
    · intro hm
      obtain ⟨i, hi, him⟩ := hpast m hm
      have hlt := Height.lt_of_transGen hnm (hheight n hn) him
      omega
    · intro hm
      exact lt_irrefl _ (Height.lt_of_transGen hnm (hheight n hn) (hheight m hm))

/-- The whole loop. -/
theorem between_waves {waves past rest : List (List String)} (hdeclared : graph.Declared)
    (h : IsLayering graph waves) (hsplit : waves = past ++ rest)
    (hbetween : Between inputs graph past.flatten run) :
    Between inputs graph waves.flatten (rest.foldl (runWave inputs graph) run) := by
  induction rest generalizing past run with
  | nil =>
    rw [List.append_nil] at hsplit
    rw [hsplit]
    exact hbetween
  | cons wave rest ih =>
    have hround : Between inputs graph (past ++ [wave]).flatten (runWave inputs graph run wave) := by
      rw [List.flatten_append, List.flatten_singleton]
      exact between_runWave (h.nextWave hdeclared hsplit) hbetween
    exact ih (by rw [hsplit, List.append_assoc, List.singleton_append]) hround

/-! ### The result -/

/-- The edge is the one that gives its parameter to its target: no later edge gives it the result of
another node, and no bucket edge an item. -/
def ChoreographyGraph.Delivers (graph : ChoreographyGraph) (edge : ChoreographyEdge) : Prop :=
  (∃ before after, graph.edges = before ++ edge :: after ∧
    ∀ later ∈ after, later.targetNodeId = edge.targetNodeId → later.kind = .fnToFn →
      later.param? = edge.param? → later.sourceNodeId = edge.sourceNodeId) ∧
  ∀ bucketEdge ∈ graph.bucketEdges edge.targetNodeId, bucketEdge.param? ≠ edge.param?

/-- What holds of a run that has ended. -/
structure RunOutcome (inputs : RunInputs) (graph : ChoreographyGraph) (run : RunState) : Prop where
  executed_nodup : run.executed.Nodup
  /-- A node was executed iff everything that leads to it completed. -/
  executed_iff : ∀ n ∈ graph.nodeIds, n ∈ run.executed ↔
    ∀ m, TransGen graph.Feeds m n → run.statusOf m = some .completed
  /-- An executed node is completed or failed by the outcomes of its own dispatches. -/
  own_outcome : ∀ n ∈ run.executed,
    (run.statusOf n = some .completed ∧ ∀ d ∈ run.dispatchesOf n, d.outcome.ok = true) ∨
      (run.statusOf n = some .failed ∧ ∃ d ∈ run.dispatchesOf n, d.outcome.ok = false)
  not_executed : ∀ n ∈ graph.nodeIds, n ∉ run.executed → run.statusOf n = some .cancelled ∧
    ∃ m, run.statusOf m = some .failed ∧ TransGen graph.Feeds m n
  not_pending : ∀ n ∈ graph.nodeIds, run.statusOf n = some .completed ∨
    run.statusOf n = some .failed ∨ run.statusOf n = some .cancelled
  /-- The result stored under a node is what its execution left. -/
  stored : ∀ n ∈ run.executed, ∃ node, graph.nodesById.lookup n = some node ∧
    run.nodeResults.lookup n = (inputs.runNode graph node run.nodeResults).stored
  /-- A consumer got the stored result of its source for the parameter. -/
  given : ∀ edge ∈ graph.edges, edge.kind = .fnToFn → graph.Delivers edge →
    ∀ param, edge.param? = some param → ∀ d ∈ run.dispatchesOf edge.targetNodeId,
      d.params.lookup param = some (Dict.getD run.nodeResults edge.sourceNodeId .none)
  completed_iff : run.status = .completed ↔
    ∀ n ∈ graph.nodeIds, run.statusOf n = some .completed
  completed_or_failed : run.status = .completed ∨ run.status = .failed

/-- The last edge that names a parameter fills it. -/
theorem lookup_baseParams {results : Dict String Value} {edge : ChoreographyEdge} {param : String}
    (hkind : edge.kind = .fnToFn) (hparam : edge.param? = some param)
    (h : graph.Delivers edge) :
    (baseParams graph results edge.targetNodeId).lookup param =
      some (Dict.getD results edge.sourceNodeId .none) := by
  obtain ⟨⟨before, after, hedges, hlater⟩, -⟩ := h
  rw [baseParams, ChoreographyGraph.fnEdges, ChoreographyGraph.inbound, hedges,
    List.filter_append, List.filter_cons_of_pos (by simp [hkind]), List.foldl_append,
    List.foldl_cons, hparam]
  -- the later edges that name the parameter fill it from the same source
  refine List.foldlRecOn (motive := fun params : Params =>
    params.lookup param = some (Dict.getD results edge.sourceNodeId .none)) _ _
    (AList.lookup_insert _) fun params hparams e he => ?_
  obtain ⟨hmem, hof⟩ := List.mem_filter.1 he
  obtain ⟨htarget, hfn⟩ := of_decide_eq_true hof
  cases hname : e.param? with
  | none => exact hparams
  | some name =>
    simp only
    rcases eq_or_ne param name with rfl | hne
    · rw [AList.lookup_insert, hlater e hmem htarget hfn (hname.trans hparam.symm)]
    · rw [AList.lookup_insert_ne hne, hparams]

theorem NodeRun.status_eq_completed {result : NodeRun} (h : result.ok = true) :
    result.status = .completed := by
  rw [NodeRun.status, if_pos h]

theorem NodeRun.status_eq_failed {result : NodeRun} (h : result.ok = false) :
    result.status = .failed := by
  rw [NodeRun.status, h]
  rfl

theorem Sound.own_outcome (h : Sound inputs graph run) (hn : n ∈ run.executed) :
    (run.statusOf n = some .completed ∧ ∀ d ∈ run.dispatchesOf n, d.outcome.ok = true) ∨
      (run.statusOf n = some .failed ∧ ∃ d ∈ run.dispatchesOf n, d.outcome.ok = false) := by
  obtain ⟨node, -, -, hstatus, -, hdispatches⟩ := h.ran n hn
  have hok := @runNode_ok inputs graph node run.nodeResults
  rw [hstatus, hdispatches]
  cases hcase : (inputs.runNode graph node run.nodeResults).ok with
  | true =>
    rw [hcase] at hok
    refine Or.inl ⟨by rw [NodeRun.status_eq_completed hcase], fun d hd => ?_⟩
    exact List.all_eq_true.1 hok.symm d hd
  | false =>
    rw [hcase] at hok
    obtain ⟨d, hd, hfalse⟩ := List.all_eq_false.1 hok.symm
    exact Or.inr ⟨by rw [NodeRun.status_eq_failed hcase], d, hd, Bool.eq_false_iff.2 hfalse⟩

/-- A run that came through all its waves. -/
theorem Between.runOutcome {waves : List (List String)} (hdeclared : graph.Declared)
    (hlayering : IsLayering graph waves) (h : Between inputs graph waves.flatten run)
    (hstatus : run.status = if run.anyFailed then .failed else .completed) :
    RunOutcome inputs graph run := by
  have hcases : ∀ n ∈ graph.nodeIds, n ∈ run.executed ∨ n ∈ run.cancelledOrFailed := fun n hn =>
    h.covered n ((hlayering.mem_flatten n).2 hn)
  have hnotExecuted : ∀ n ∈ graph.nodeIds, n ∉ run.executed → run.statusOf n = some .cancelled ∧
      ∃ m, run.statusOf m = some .failed ∧ TransGen graph.Feeds m n := by
    intro n hn hnot
    have hcancelled := (hcases n hn).resolve_left hnot
    obtain ⟨m, -, hfailed, hmn⟩ := (h.cancelled_iff n).1 hcancelled
    exact ⟨by rw [h.sound.waiting n hn hnot, if_pos hcancelled], m, hfailed, hmn⟩
  have hexecuted_of_failed : ∀ m, run.statusOf m = some .failed → m ∈ run.executed := by
    intro m hm
    by_contra hnot
    by_cases hdecl : m ∈ graph.nodeIds
    · rw [(hnotExecuted m hdecl hnot).1] at hm
      cases hm
    · rw [h.sound.undeclared m hdecl] at hm
      cases hm
  have hcompletedIff : run.status = .completed ↔
      ∀ n ∈ graph.nodeIds, run.statusOf n = some .completed := by
    have hiff : run.status = .completed ↔ ¬ run.anyFailed = true := by
      rw [hstatus]
      split_ifs with hany <;> simp [hany]
    rw [hiff, h.anyFailed_iff]
    constructor
    · intro hnone n hn
      rcases hcases n hn with hexec | hcancelled
      · rcases h.sound.own_outcome hexec with hown | hown
        · exact hown.1
        · exact absurd ⟨n, hexec, hown.1⟩ hnone
      · obtain ⟨m, hm, hfailed, -⟩ := (h.cancelled_iff n).1 hcancelled
        exact absurd ⟨m, hm, hfailed⟩ hnone
    · rintro hall ⟨m, hm, hfailed⟩
      rw [hall m (h.sound.executed_declared m hm)] at hfailed
      cases hfailed
  refine ⟨h.sound.executed_nodup, ?_, fun n hn => h.sound.own_outcome hn, hnotExecuted, ?_, ?_, ?_,
    hcompletedIff, ?_⟩
  · intro n hn
    constructor
    · intro hexec m hmn
      rcases hcases m (hdeclared.mem_of_transGen hmn) with hmexec | hmcancelled
      · rcases h.sound.own_outcome hmexec with hown | hown
        · exact hown.1
        · exact absurd ((h.cancelled_iff n).2 ⟨m, hmexec, hown.1, hmn⟩) (h.not_cancelled n hexec)
      · obtain ⟨k, hk, hfailed, hkm⟩ := (h.cancelled_iff m).1 hmcancelled
        exact absurd ((h.cancelled_iff n).2 ⟨k, hk, hfailed, hkm.trans hmn⟩)
          (h.not_cancelled n hexec)
    · intro hall
      by_contra hnot
      obtain ⟨-, m, hfailed, hmn⟩ := hnotExecuted n hn hnot
      rw [hall m hmn] at hfailed
      cases hfailed
  · intro n hn
    by_cases hexec : n ∈ run.executed
    · rcases h.sound.own_outcome hexec with hown | hown
      · exact Or.inl hown.1
      · exact Or.inr (Or.inl hown.1)
    · exact Or.inr (Or.inr (hnotExecuted n hn hexec).1)
  · intro n hn
    obtain ⟨node, hnode, -, -, hstored, -⟩ := h.sound.ran n hn
    exact ⟨node, hnode, hstored⟩
  · intro edge hedge hkind hdelivers param hparam d hd
    have hexec : edge.targetNodeId ∈ run.executed := by
      by_contra hnot
      rw [(h.sound.idle _ hnot).2] at hd
      exact List.not_mem_nil hd
    obtain ⟨node, -, hid, -, -, hdispatches⟩ := h.sound.ran _ hexec
    rw [hdispatches] at hd
    obtain ⟨-, hbase | ⟨bucketEdge, hbucket, name, hname, item, hitem⟩⟩ := dispatch_cases hd
    · rw [hbase, hid]
      exact lookup_baseParams hkind hparam hdelivers
    · have hne : param ≠ name := by
        rintro rfl
        exact hdelivers.2 bucketEdge (hid ▸ hbucket) (hname.trans hparam.symm)
      rw [hitem, itemParams, AList.lookup_insert_ne hne, hid]
      exact lookup_baseParams hkind hparam hdelivers
  · rw [hstatus]
    split_ifs
    · exact Or.inr rfl
    · exact Or.inl rfl

theorem Between.withStatus {past : List String} {status : RunStatus}
    (h : Between inputs graph past run) :
    Between inputs graph past { run with status := status } :=
  ⟨⟨h.sound.executed_declared, h.sound.executed_nodup, h.sound.sources, h.sound.ran, h.sound.idle,
    h.sound.waiting, h.sound.undeclared⟩, h.executed_past, h.covered, h.not_cancelled,
    h.cancelled_iff, h.anyFailed_iff⟩

/-- A run of an acyclic graph executes exactly the nodes it may. -/
theorem executeRun_outcome (inputs : RunInputs) (graph : ChoreographyGraph)
    (hdeclared : graph.Declared) (hacyclic : ¬ ∃ a, TransGen graph.Feeds a a) :
    RunOutcome inputs graph (executeRun inputs graph) := by
  rcases topologicalWaves_spec hdeclared with ⟨error, -, hcycle⟩ | ⟨waves, hwaves, hlayering⟩
  · exact absurd hcycle hacyclic
  · have hstart : Between inputs graph ([] : List (List String)).flatten (start graph) :=
      between_start
    have hbetween := between_waves hdeclared hlayering rfl hstart
    rw [executeRun, hwaves]
    exact hbetween.withStatus.runOutcome hdeclared hlayering rfl

/-- Every node succeeds with its own name, but for those listed. -/
def failing (nodeIds : List String) : RunInputs where
  outcome nodeId _ _ _ := if nodeId ∈ nodeIds then .failure "failed" else .success (.str nodeId)
  listByBucket _ _ := []
  order := id
  order_perm _ := List.Perm.refl _

/-- In the diamond the bucket is cancelled when one of its writers fails. -/
theorem executeRun_diamond :
    (executeRun (failing ["b"]) diamond).executed = ["a", "b", "c"] ∧
      (executeRun (failing ["b"]) diamond).statusOf "d" = some .cancelled ∧
      RunOutcome (failing ["b"]) diamond (executeRun (failing ["b"]) diamond) :=
  ⟨by decide +kernel, by decide +kernel,
    executeRun_outcome (failing ["b"]) diamond (by decide)
      (@acyclic_of_waves diamond [["a"], ["b", "c"], ["d"]] (by decide) (by decide +kernel))⟩

/-- Two functions whose results go to one parameter of a third. -/
def twoSources : ChoreographyGraph where
  nodes := [⟨"a", .function, some "f", some 1, 3, .constant, none, none⟩,
    ⟨"b", .function, some "g", some 1, 3, .constant, none, none⟩,
    ⟨"c", .function, some "h", some 1, 3, .constant, none, none⟩]
  edges := [⟨"e1", "a", "c", .fnToFn, some "x", 1⟩, ⟨"e2", "b", "c", .fnToFn, some "x", 1⟩]

/-- The consumer is not given what the first of them left. -/
theorem lostResult_twoSources :
    twoSources.Declared ∧ topologicalWaves twoSources = .ok [["a", "b"], ["c"]] ∧
      ∃ edge ∈ twoSources.edges, edge.kind = .fnToFn ∧ edge.param? = some "x" ∧
        edge.targetNodeId ∈ (executeRun (failing []) twoSources).executed ∧
        ∃ d ∈ (executeRun (failing []) twoSources).dispatchesOf edge.targetNodeId,
          d.params.lookup "x" ≠ some (Dict.getD (executeRun (failing []) twoSources).nodeResults
            edge.sourceNodeId .none) := by
  decide +kernel

end Axo
