import Axo.Choreography.GraphOps

/-!
# The waves of a choreography

What `topologicalWaves` returns, for every graph whose edges join declared nodes.

* `Layered` is the invariant of the loop: the wave of a node is its height, and every node that
  remains ends a chain as long as the number of waves;
* `layered_step`: one round keeps it; `exists_cycle_of_stuck`: a round without ready nodes means a
  cycle; `wavesLoop_spec` is the loop from any state that meets the invariant;
* `topologicalWaves_layering` is the result.
-/

namespace Axo

open Relation Layering Adjacency

variable {graph : ChoreographyGraph} {remaining : Dict String (List String)}
  {waves : List (List String)} {done : Finset String} {a b n : String}

/-! ### Dependencies -/

theorem mem_dependenciesOf_neighbours :
    a ∈ neighbours (dependenciesOf graph) b ↔ graph.Feeds a b := by
  rw [dependenciesOf, mem_neighbours_adjacency, ChoreographyGraph.Feeds]
  simp only [List.mem_map, Prod.mk.injEq]
  constructor
  · rintro ⟨e, he, htarget, hsource⟩
    exact ⟨e, he, hsource, htarget⟩
  · rintro ⟨e, he, hsource, htarget⟩
    exact ⟨e, he, htarget, hsource⟩

theorem next_dependentsOf : Next (dependentsOf graph) = graph.Feeds := by
  funext a b
  refine propext ?_
  rw [Next, dependentsOf, mem_neighbours_adjacency, ChoreographyGraph.Feeds]
  simp only [List.mem_map, Prod.mk.injEq]

/-- With declared ends the dictionary has the declared nodes as its keys. -/
theorem mem_dependenciesOf (hdeclared : graph.Declared) :
    n ∈ dependenciesOf graph ↔ n ∈ graph.nodeIds := by
  rw [dependenciesOf, mem_adjacency, or_iff_left_iff_imp]
  rintro ⟨e, he, rfl⟩
  obtain ⟨edge, hedge, rfl⟩ := List.mem_map.1 he
  exact (hdeclared edge hedge).2

theorem ChoreographyGraph.Declared.source_mem (hdeclared : graph.Declared)
    (h : graph.Feeds a b) : a ∈ graph.nodeIds := by
  obtain ⟨e, he, rfl, -⟩ := h
  exact (hdeclared e he).1

/-- Every node of a cycle is declared. -/
theorem ChoreographyGraph.Declared.mem_of_transGen (hdeclared : graph.Declared)
    (h : TransGen graph.Feeds a b) : a ∈ graph.nodeIds := by
  obtain ⟨c, hac, -⟩ := TransGen.head'_iff.1 h
  exact hdeclared.source_mem hac

/-- `downstream_of` is forward reachability. -/
theorem mem_downstreamOf : b ∈ downstreamOf graph a ↔ TransGen graph.Feeds a b := by
  rw [downstreamOf, mem_walk_neighbours, next_dependentsOf]

/-! ### The loop -/

/-- The loop invariant of `topological_waves`. -/
structure Layered (graph : ChoreographyGraph) (remaining : Dict String (List String))
    (waves : List (List String)) (done : Finset String) : Prop where
  /-- What remains are the declared nodes that are not done, each with its dependencies. -/
  mem_remaining : ∀ n, n ∈ remaining ↔ n ∈ graph.nodeIds ∧ n ∉ done
  deps : ∀ b ∈ remaining, ∀ a, a ∈ neighbours remaining b ↔ graph.Feeds a b
  mem_done : ∀ n, n ∈ done ↔ n ∈ waves.flatten
  declared : ∀ n ∈ done, n ∈ graph.nodeIds
  nonempty : ∀ wave ∈ waves, wave ≠ []
  nodup : waves.flatten.Nodup
  height : ∀ i wave, waves[i]? = some wave → ∀ n ∈ wave, Height graph.Feeds i n
  chain : ∀ n ∈ remaining, ChainTo graph.Feeds waves.length n

theorem layered_start (hdeclared : graph.Declared) :
    Layered graph (dependenciesOf graph) [] ∅ where
  mem_remaining n := by simp [mem_dependenciesOf hdeclared]
  deps b _ a := mem_dependenciesOf_neighbours
  mem_done n := by simp
  declared n hn := absurd hn (Finset.notMem_empty n)
  nonempty wave hwave := absurd hwave List.not_mem_nil
  nodup := List.nodup_nil
  height i wave hwave := by simp at hwave
  chain n _ := ChainTo.zero n

theorem Layered.height_of_done (h : Layered graph remaining waves done) (hn : n ∈ done) :
    ∃ j < waves.length, Height graph.Feeds j n := by
  obtain ⟨wave, hwave, hnwave⟩ := List.mem_flatten.1 ((h.mem_done n).1 hn)
  obtain ⟨j, hj, rfl⟩ := List.mem_iff_getElem.1 hwave
  exact ⟨j, hj, h.height j _ (List.getElem?_eq_getElem hj) n hnwave⟩

theorem mem_ready :
    n ∈ ready remaining done ↔ n ∈ remaining ∧ ∀ dep ∈ neighbours remaining n, dep ∈ done := by
  rw [ready, List.mem_filter, decide_eq_true_eq, AList.mem_keys]

/-- A ready node has the number of the wave it goes into as its height. -/
theorem Layered.height_of_ready (h : Layered graph remaining waves done)
    (hn : n ∈ ready remaining done) : Height graph.Feeds waves.length n := by
  obtain ⟨hmem, hdeps⟩ := mem_ready.1 hn
  refine height_of_preds (h.chain n hmem) fun a ha => ?_
  exact h.height_of_done (hdeps a ((h.deps n hmem a).2 ha))

/-- A node that is not ready waits for another that remains. -/
theorem Layered.exists_pred_of_not_ready (hdeclared : graph.Declared)
    (h : Layered graph remaining waves done) (hmem : n ∈ remaining)
    (hn : n ∉ ready remaining done) : ∃ a ∈ remaining, graph.Feeds a n := by
  have hdep : ∃ a ∈ neighbours remaining n, a ∉ done := by
    by_contra hall
    push Not at hall
    exact hn (mem_ready.2 ⟨hmem, hall⟩)
  obtain ⟨a, ha, hnotDone⟩ := hdep
  have hfeeds : graph.Feeds a n := (h.deps n hmem a).1 ha
  exact ⟨a, (h.mem_remaining a).2 ⟨hdeclared.source_mem hfeeds, hnotDone⟩, hfeeds⟩

theorem exists_cycle_of_stuck (hdeclared : graph.Declared)
    (h : Layered graph remaining waves done) (hne : Dict.size remaining ≠ 0)
    (hstuck : ready remaining done = []) : ∃ a, TransGen graph.Feeds a a := by
  have hnonempty : {n | n ∈ remaining}.Nonempty := by
    obtain ⟨n, hn⟩ := List.exists_mem_of_length_pos (Nat.pos_of_ne_zero hne)
    exact ⟨n, hn⟩
  have hfin : {n | n ∈ remaining}.Finite := List.finite_toSet remaining.keys
  obtain ⟨a, -, ha⟩ := exists_cycle_of_preds hfin hnonempty fun b hb =>
    h.exists_pred_of_not_ready hdeclared hb (by rw [hstuck]; exact List.not_mem_nil)
  exact ⟨a, ha⟩

theorem mem_eraseAll {ks : List String} :
    n ∈ Dict.eraseAll remaining ks ↔ n ∈ remaining ∧ n ∉ ks := by
  rw [← AList.lookup_isSome, Dict.lookup_eraseAll, ← AList.lookup_isSome]
  split_ifs with hn <;> simp [hn]

theorem neighbours_eraseAll {ks : List String} (hn : n ∉ ks) :
    neighbours (Dict.eraseAll remaining ks) n = neighbours remaining n := by
  rw [neighbours, Dict.getD, Dict.lookup_eraseAll, if_neg hn, neighbours, Dict.getD]

/-- One round of the loop. -/
theorem layered_step (hdeclared : graph.Declared) (h : Layered graph remaining waves done)
    (hready : ready remaining done ≠ []) :
    Layered graph (Dict.eraseAll remaining (ready remaining done))
      (waves ++ [(ready remaining done).insertionSort (· ≤ ·)])
      (done ∪ (ready remaining done).toFinset) where
  mem_remaining n := by
    rw [mem_eraseAll, h.mem_remaining, Finset.mem_union, List.mem_toFinset]
    tauto
  deps b hb a := by
    obtain ⟨hmem, hnotReady⟩ := mem_eraseAll.1 hb
    rw [neighbours_eraseAll hnotReady]
    exact h.deps b hmem a
  mem_done n := by
    rw [Finset.mem_union, List.mem_toFinset, h.mem_done, List.flatten_append, List.mem_append,
      List.flatten_singleton, List.mem_insertionSort]
  declared n hn := by
    rcases Finset.mem_union.1 hn with hn | hn
    · exact h.declared n hn
    · exact ((h.mem_remaining n).1 (mem_ready.1 (List.mem_toFinset.1 hn)).1).1
  nonempty wave hwave := by
    rcases List.mem_append.1 hwave with hwave | hwave
    · exact h.nonempty wave hwave
    · rw [List.mem_singleton.1 hwave]
      intro hnil
      exact hready (List.eq_nil_of_length_eq_zero
        ((List.length_insertionSort _ _).symm.trans (congrArg List.length hnil)))
  nodup := by
    rw [List.flatten_append, List.flatten_singleton, List.nodup_append']
    refine ⟨h.nodup, ?_, fun n hn hready => ?_⟩
    · exact (List.perm_insertionSort _ _).nodup_iff.2 (remaining.keys_nodup.filter _)
    · have hmem := (mem_ready.1 ((List.mem_insertionSort _).1 hready)).1
      exact ((h.mem_remaining n).1 hmem).2 ((h.mem_done n).2 hn)
  height i wave hwave n hn := by
    by_cases hi : i < waves.length
    · rw [List.getElem?_append_left hi] at hwave
      exact h.height i wave hwave n hn
    · rw [List.getElem?_append_right (by omega), List.getElem?_singleton] at hwave
      split_ifs at hwave with hzero
      have hlen : i = waves.length := by omega
      rw [hlen]
      rw [← Option.some.inj hwave, List.mem_insertionSort] at hn
      exact h.height_of_ready hn
  chain n hn := by
    obtain ⟨hmem, hnotReady⟩ := mem_eraseAll.1 hn
    obtain ⟨a, ha, hfeeds⟩ := h.exists_pred_of_not_ready hdeclared hmem hnotReady
    rw [List.length_append, List.length_singleton]
    exact (h.chain a ha).succ hfeeds

/-- The loop ends with a cycle, or with nothing remaining. -/
theorem wavesLoop_spec (hdeclared : graph.Declared) (h : Layered graph remaining waves done) :
    (∃ error, wavesLoop remaining waves done = .error error ∧ ∃ a, TransGen graph.Feeds a a) ∨
      ∃ all finished, wavesLoop remaining waves done = .ok all ∧ Layered graph ∅ all finished := by
  fun_induction wavesLoop remaining waves done with
  | case1 remaining waves done hzero =>
    refine Or.inr ⟨waves, done, rfl, ?_⟩
    have hempty : remaining = ∅ := by
      refine AList.ext ?_
      exact List.map_eq_nil_iff.1 (List.eq_nil_of_length_eq_zero hzero)
    rwa [hempty] at h
  | case2 remaining waves done hzero hstuck =>
    exact Or.inl ⟨_, rfl, exists_cycle_of_stuck hdeclared h hzero hstuck⟩
  | case3 remaining waves done hzero hready ih =>
    exact ih (layered_step hdeclared h hready)

/-! ### The result -/

/-- What a list of waves is for a graph. -/
structure IsLayering (graph : ChoreographyGraph) (waves : List (List String)) : Prop where
  nonempty : ∀ wave ∈ waves, wave ≠ []
  nodup : waves.flatten.Nodup
  mem_flatten : ∀ n, n ∈ waves.flatten ↔ n ∈ graph.nodeIds
  /-- Edges go from earlier to strictly later waves. -/
  edge_lt : ∀ e ∈ graph.edges, ∀ (i j : ℕ) (wave wave' : List String), waves[i]? = some wave →
    waves[j]? = some wave' → e.sourceNodeId ∈ wave → e.targetNodeId ∈ wave' → i < j
  /-- The number of a node's wave is the length of the longest chain that ends in the node. -/
  height : ∀ (i : ℕ) (wave : List String) (n : String), waves[i]? = some wave → n ∈ wave →
    Height graph.Feeds i n

theorem Layered.isLayering (h : Layered graph ∅ waves done) : IsLayering graph waves where
  nonempty := h.nonempty
  nodup := h.nodup
  mem_flatten n := by
    rw [← h.mem_done]
    refine ⟨h.declared n, fun hn => ?_⟩
    by_contra hnotDone
    exact AList.notMem_empty n ((h.mem_remaining n).2 ⟨hn, hnotDone⟩)
  edge_lt e he i j wave wave' hi hj hsource htarget :=
    Height.lt ⟨e, he, rfl, rfl⟩ (h.height i wave hi _ hsource) (h.height j wave' hj _ htarget)
  height i wave n hi hn := h.height i wave hi n hn

theorem IsLayering.exists_height (h : IsLayering graph waves) (hn : n ∈ graph.nodeIds) :
    ∃ i, Height graph.Feeds i n := by
  obtain ⟨wave, hwave, hnwave⟩ := List.mem_flatten.1 ((h.mem_flatten n).2 hn)
  obtain ⟨i, hi, rfl⟩ := List.mem_iff_getElem.1 hwave
  exact ⟨i, h.height i _ n (List.getElem?_eq_getElem hi) hnwave⟩

theorem IsLayering.acyclic (h : IsLayering graph waves) (hdeclared : graph.Declared) :
    ¬ ∃ a, TransGen graph.Feeds a a := by
  rintro ⟨a, ha⟩
  obtain ⟨i, hi⟩ := h.exists_height (hdeclared.mem_of_transGen ha)
  exact hi.not_transGen_self ha

theorem topologicalWaves_spec (hdeclared : graph.Declared) :
    (∃ error, topologicalWaves graph = .error error ∧ ∃ a, TransGen graph.Feeds a a) ∨
      ∃ waves, topologicalWaves graph = .ok waves ∧ IsLayering graph waves := by
  rcases wavesLoop_spec hdeclared (layered_start hdeclared) with herror | ⟨waves, done, hok, h⟩
  · exact Or.inl herror
  · exact Or.inr ⟨waves, hok, h.isLayering⟩

/-- A graph with waves has no cycle. -/
theorem acyclic_of_waves (hdeclared : graph.Declared) (h : topologicalWaves graph = .ok waves) :
    ¬ ∃ a, TransGen graph.Feeds a a := by
  rcases topologicalWaves_spec hdeclared with ⟨error, herror, -⟩ | ⟨waves', hok, hlayering⟩
  · rw [h] at herror
    cases herror
  · exact hlayering.acyclic hdeclared

/-- `topological_waves` raises exactly for a cycle, and otherwise returns the layers of the graph. -/
theorem topologicalWaves_layering (graph : ChoreographyGraph) (hdeclared : graph.Declared) :
    ((∃ error, topologicalWaves graph = .error error) ↔ ∃ a, TransGen graph.Feeds a a) ∧
      ∀ waves, topologicalWaves graph = .ok waves → IsLayering graph waves := by
  rcases topologicalWaves_spec hdeclared with ⟨error, herror, hcycle⟩ | ⟨waves, hok, h⟩
  · refine ⟨⟨fun _ => hcycle, fun _ => ⟨error, herror⟩⟩, fun waves hwaves => ?_⟩
    rw [herror] at hwaves
    cases hwaves
  · refine ⟨⟨?_, fun hcycle => absurd hcycle (h.acyclic hdeclared)⟩, fun waves' hwaves' => ?_⟩
    · rintro ⟨error, herror⟩
      rw [hok] at herror
      cases herror
    · rw [hok] at hwaves'
      cases hwaves'
      exact h

/-- Two functions between a source and a bucket; one of the edges is drawn twice. -/
def diamond : ChoreographyGraph where
  nodes := [⟨"d", .bucket, none, none, 3, .constant, none, none⟩,
    ⟨"c", .function, some "g", some 1, 3, .constant, none, none⟩,
    ⟨"b", .function, some "f", some 1, 3, .constant, none, none⟩,
    ⟨"a", .function, some "f", some 1, 3, .constant, none, none⟩]
  edges := [⟨"e1", "a", "b", .fnToFn, none, 1⟩, ⟨"e2", "a", "c", .fnToFn, none, 1⟩,
    ⟨"e3", "a", "c", .fnToFn, none, 1⟩, ⟨"e4", "b", "d", .fnToBucket, none, 1⟩,
    ⟨"e5", "c", "d", .fnToBucket, none, 1⟩]

theorem topologicalWaves_diamond :
    topologicalWaves diamond = .ok [["a"], ["b", "c"], ["d"]] ∧
      IsLayering diamond [["a"], ["b", "c"], ["d"]] :=
  ⟨by decide +kernel,
    (topologicalWaves_layering diamond (by decide)).2 _ (by decide +kernel)⟩

end Axo
