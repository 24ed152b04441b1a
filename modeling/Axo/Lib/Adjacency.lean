import Mathlib.Logic.Relation
import Mathlib.Algebra.BigOperators.Group.Finset.Basic
import Mathlib.Algebra.BigOperators.Ring.Finset
import Axo.Lib.Dict

/-!
# Graphs as dictionaries of neighbours

* `adjacency vs es`: for every vertex the list, without repetition, of the ends of the edges that
  begin in it;
* `walk`: the vertices met by a search from a list of vertices, with `mem_walk` and
  `mem_walk_neighbours`: these are the vertices that the edges lead to.
-/

namespace Adjacency

open Relation

variable {α : Type*} [DecidableEq α]

/-- A dictionary whose values are sets, each listed without repetition. -/
abbrev Graph (α : Type*) := Dict α (List α)

/-- The neighbours of a vertex. -/
def neighbours (m : Graph α) (a : α) : List α := Dict.getD m a []

/-- `m.setdefault(a, set()).add(b)`. -/
def addTo (m : Graph α) (a b : α) : Graph α := m.insert a ((neighbours m a).insert b)

/-- The neighbours along the edges, with an entry for every vertex given. -/
def adjacency (vs : List α) (es : List (α × α)) : Graph α :=
  es.foldl (fun m e => addTo m e.1 e.2) (vs.foldl (fun m v => m.insert v []) ∅)

/-! ### What the dictionary holds -/

theorem mem_neighbours_addTo (m : Graph α) (a b x y : α) :
    y ∈ neighbours (addTo m a b) x ↔ (x = a ∧ y = b) ∨ y ∈ neighbours m x := by
  unfold neighbours addTo
  rcases eq_or_ne x a with rfl | hne
  · rw [Dict.getD_insert, List.mem_insert_iff]
    simp [neighbours]
  · rw [Dict.getD_insert_ne m _ _ hne]
    simp [hne]

theorem mem_addTo (m : Graph α) (a b x : α) : x ∈ addTo m a b ↔ x = a ∨ x ∈ m :=
  AList.mem_insert m

theorem mem_foldl_insert (vs : List α) (m : Graph α) (x : α) :
    x ∈ vs.foldl (fun m v => m.insert v []) m ↔ x ∈ vs ∨ x ∈ m := by
  induction vs generalizing m with
  | nil => simp
  | cons v vs ih =>
    rw [List.foldl_cons, ih, AList.mem_insert, List.mem_cons]
    tauto

theorem neighbours_foldl_insert (vs : List α) (m : Graph α) (hm : ∀ x, neighbours m x = [])
    (x : α) : neighbours (vs.foldl (fun m v => m.insert v []) m) x = [] := by
  induction vs generalizing m with
  | nil => exact hm x
  | cons v vs ih =>
    refine ih _ fun y => ?_
    rcases eq_or_ne y v with rfl | hne
    · exact Dict.getD_insert m y [] []
    · exact (Dict.getD_insert_ne m [] [] hne).trans (hm y)

theorem mem_neighbours_foldl_addTo (es : List (α × α)) (m : Graph α) (x y : α) :
    y ∈ neighbours (es.foldl (fun m e => addTo m e.1 e.2) m) x ↔
      (x, y) ∈ es ∨ y ∈ neighbours m x := by
  induction es generalizing m with
  | nil => simp
  | cons e es ih =>
    rw [List.foldl_cons, ih, mem_neighbours_addTo, List.mem_cons, Prod.ext_iff]
    tauto

theorem mem_foldl_addTo (es : List (α × α)) (m : Graph α) (x : α) :
    x ∈ es.foldl (fun m e => addTo m e.1 e.2) m ↔ (∃ e ∈ es, e.1 = x) ∨ x ∈ m := by
  induction es generalizing m with
  | nil => simp
  | cons e es ih =>
    rw [List.foldl_cons, ih, mem_addTo, List.exists_mem_cons_iff, @eq_comm α x e.1]
    exact or_left_comm.trans or_assoc.symm

theorem mem_neighbours_adjacency (vs : List α) (es : List (α × α)) (x y : α) :
    y ∈ neighbours (adjacency vs es) x ↔ (x, y) ∈ es := by
  have hempty : neighbours (vs.foldl (fun m v => m.insert v []) (∅ : Graph α)) x = [] :=
    neighbours_foldl_insert vs ∅ (fun _ => rfl) x
  rw [adjacency, mem_neighbours_foldl_addTo, hempty]
  simp

/-- The vertices given and the beginnings of the edges have entries. -/
theorem mem_adjacency (vs : List α) (es : List (α × α)) (x : α) :
    x ∈ adjacency vs es ↔ x ∈ vs ∨ ∃ e ∈ es, e.1 = x := by
  have hempty : x ∉ (∅ : Graph α) := AList.notMem_empty x
  rw [adjacency, mem_foldl_addTo, mem_foldl_insert, or_iff_left hempty, or_comm]

/-! ### Searching -/

/-- What a search has still to do: the vertices of the frontier, and for each vertex that was not
met its neighbours. -/
def workLeft (m : Graph α) (frontier : List α) (met : Finset α) : ℕ :=
  ∑ a ∈ m.keys.toFinset \ met, ((neighbours m a).length + 1) + frontier.length

/-- Meeting a vertex for the first time is progress, though its neighbours join the frontier. -/
theorem workLeft_meet_lt (m : Graph α) (a : α) (frontier : List α) {met : Finset α}
    (ha : a ∉ met) :
    workLeft m (neighbours m a ++ frontier) (insert a met) < workLeft m (a :: frontier) met := by
  unfold workLeft
  rw [Finset.sdiff_insert, List.length_append, List.length_cons]
  by_cases hkey : a ∈ m.keys.toFinset
  · have hmem : a ∈ m.keys.toFinset \ met := Finset.mem_sdiff.2 ⟨hkey, ha⟩
    have hsum := Finset.add_sum_erase (m.keys.toFinset \ met)
      (fun a => (neighbours m a).length + 1) hmem
    omega
  · have hnone : neighbours m a = [] := by
      have hlookup : m.lookup a = none :=
        AList.lookup_eq_none.2 fun h => hkey (List.mem_toFinset.2 h)
      rw [neighbours, Dict.getD, hlookup, Option.getD_none]
    have hnotMem : a ∉ m.keys.toFinset \ met := fun h => hkey (Finset.mem_sdiff.1 h).1
    rw [hnone, Finset.erase_eq_of_notMem hnotMem, List.length_nil]
    omega

/-- The vertices met by a search that goes on from the frontier, whose head is looked at next. -/
def walk (m : Graph α) (frontier : List α) (met : Finset α) : Finset α :=
  match frontier with
  | [] => met
  | a :: frontier =>
    if a ∈ met then walk m frontier met
    else walk m (neighbours m a ++ frontier) (insert a met)
termination_by workLeft m frontier met
decreasing_by
  · exact Nat.lt_succ_self _
  · exact workLeft_meet_lt m a frontier ‹_›

/-- `b` is a neighbour of `a`. -/
def Next (m : Graph α) (a b : α) : Prop := b ∈ neighbours m a

/-- From what was met, the edges lead to what was met or through the frontier. -/
theorem met_or_frontier {m : Graph α} {frontier : List α} {met : Finset α}
    (hclosed : ∀ a ∈ met, ∀ b, Next m a b → b ∈ met ∨ b ∈ frontier) {a x : α} (ha : a ∈ met)
    (h : ReflTransGen (Next m) a x) : x ∈ met ∨ ∃ f ∈ frontier, ReflTransGen (Next m) f x := by
  induction h with
  | refl => exact Or.inl ha
  | tail _ hbc ih =>
    rcases ih with hb | ⟨f, hf, hfb⟩
    · rcases hclosed _ hb _ hbc with hc | hc
      · exact Or.inl hc
      · exact Or.inr ⟨_, hc, .refl⟩
    · exact Or.inr ⟨f, hf, hfb.tail hbc⟩

/-- A search meets, besides what it met before, what the edges lead to from the frontier. -/
theorem mem_walk (m : Graph α) (frontier : List α) (met : Finset α)
    (hclosed : ∀ a ∈ met, ∀ b, Next m a b → b ∈ met ∨ b ∈ frontier) (x : α) :
    x ∈ walk m frontier met ↔ x ∈ met ∨ ∃ f ∈ frontier, ReflTransGen (Next m) f x := by
  fun_induction walk m frontier met with
  | case1 met => simp
  | case2 met a frontier ha ih =>
    have hrest : ∀ b ∈ met, ∀ c, Next m b c → c ∈ met ∨ c ∈ frontier := by
      intro b hb c hbc
      rcases hclosed b hb c hbc with hc | hc
      · exact Or.inl hc
      · rcases List.mem_cons.1 hc with rfl | hc
        · exact Or.inl ha
        · exact Or.inr hc
    rw [ih hrest]
    constructor
    · rintro (hx | ⟨f, hf, hfx⟩)
      · exact Or.inl hx
      · exact Or.inr ⟨f, List.mem_cons_of_mem a hf, hfx⟩
    · rintro (hx | ⟨f, hf, hfx⟩)
      · exact Or.inl hx
      · rcases List.mem_cons.1 hf with rfl | hf
        · exact met_or_frontier hrest ha hfx
        · exact Or.inr ⟨f, hf, hfx⟩
  | case3 met a frontier ha ih =>
    have hmeet : ∀ b ∈ insert a met, ∀ c, Next m b c →
        c ∈ insert a met ∨ c ∈ neighbours m a ++ frontier := by
      intro b hb c hbc
      rcases Finset.mem_insert.1 hb with rfl | hb
      · exact Or.inr (List.mem_append_left frontier hbc)
      · rcases hclosed b hb c hbc with hc | hc
        · exact Or.inl (Finset.mem_insert_of_mem hc)
        · rcases List.mem_cons.1 hc with rfl | hc
          · exact Or.inl (Finset.mem_insert_self c met)
          · exact Or.inr (List.mem_append_right _ hc)
    rw [ih hmeet]
    constructor
    · rintro (hx | ⟨f, hf, hfx⟩)
      · rcases Finset.mem_insert.1 hx with rfl | hx
        · exact Or.inr ⟨x, List.mem_cons_self, .refl⟩
        · exact Or.inl hx
      · rcases List.mem_append.1 hf with hf | hf
        · exact Or.inr ⟨a, List.mem_cons_self, .head hf hfx⟩
        · exact Or.inr ⟨f, List.mem_cons_of_mem a hf, hfx⟩
    · rintro (hx | ⟨f, hf, hfx⟩)
      · exact Or.inl (Finset.mem_insert_of_mem hx)
      · rcases List.mem_cons.1 hf with rfl | hf
        · rcases ReflTransGen.cases_head hfx with rfl | ⟨b, hab, hbx⟩
          · exact Or.inl (Finset.mem_insert_self f met)
          · exact Or.inr ⟨b, List.mem_append_left frontier hab, hbx⟩
        · exact Or.inr ⟨f, List.mem_append_right _ hf, hfx⟩

/-- A search from the neighbours of a vertex meets what the edges lead to from the vertex. -/
theorem mem_walk_neighbours (m : Graph α) (a x : α) :
    x ∈ walk m (neighbours m a) ∅ ↔ TransGen (Next m) a x := by
  rw [mem_walk m _ ∅ (fun b hb => absurd hb (Finset.notMem_empty b)), TransGen.head'_iff]
  simp [Next]

end Adjacency
