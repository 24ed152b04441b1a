import Axo.Lib.Documents
import Mathlib.Data.List.Sort

/-!
# Queries over a collection

* `Collection.rows`: the documents with their keys;
* `Collection.deleteMany` deletes the documents that meet a condition, `deletedCount` counts them;
* `Ranking` is how a query sorts: among documents of the same rank it may take any order, and
  `Ranking.first` is the document that comes first of a group.
-/

namespace Collection

variable {ι δ : Type*} [DecidableEq ι] {c : Collection ι δ} {i : ι} {doc : δ}

omit [DecidableEq ι] in
/-- The documents, each with its key. -/
def rows (c : Collection ι δ) : List (ι × δ) := c.entries.map fun e => (e.1, e.2)

theorem mem_rows : (i, doc) ∈ c.rows ↔ c.lookup i = some doc := by
  unfold rows
  rw [List.mem_map, ← Option.mem_def, AList.mem_lookup_iff]
  constructor
  · rintro ⟨⟨j, d⟩, hmem, heq⟩
    cases heq
    exact hmem
  · intro hmem
    exact ⟨⟨i, doc⟩, hmem, rfl⟩

omit [DecidableEq ι] in
/-- The documents that meet the condition are deleted. -/
def deleteMany (c : Collection ι δ) (p : ι → δ → Bool) : Collection ι δ :=
  ⟨c.entries.filter fun e => !p e.1 e.2, List.NodupKeys.sublist List.filter_sublist c.nodupKeys⟩

omit [DecidableEq ι] in
/-- `deleted_count`. -/
def deletedCount (c : Collection ι δ) (p : ι → δ → Bool) : ℕ := c.rows.countP fun e => p e.1 e.2

theorem lookup_deleteMany_eq_some {p : ι → δ → Bool} :
    (c.deleteMany p).lookup i = some doc ↔ c.lookup i = some doc ∧ p i doc = false := by
  rw [← Option.mem_def, AList.mem_lookup_iff, ← Option.mem_def, AList.mem_lookup_iff]
  unfold deleteMany
  rw [List.mem_filter]
  simp

/-- Nothing is deleted where nothing meets the condition. -/
theorem deleteMany_eq_self {p : ι → δ → Bool}
    (h : ∀ i doc, c.lookup i = some doc → p i doc = false) : c.deleteMany p = c := by
  refine AList.ext (List.filter_eq_self.2 fun e he => ?_)
  have hlookup : c.lookup e.1 = some e.2 := AList.mem_lookup_iff.2 he
  rw [h _ _ hlookup]
  rfl

end Collection

/-- A sort by rank, the highest first. -/
structure Ranking (τ : Type*) where
  rank : τ → ℤ
  sort : List τ → List τ
  perm : ∀ l, (sort l).Perm l
  sorted : ∀ l, (sort l).Pairwise fun a b => rank b ≤ rank a

namespace Ranking

variable {τ : Type*} (R : Ranking τ) {l : List τ} {p : τ → Bool} {a b : τ}

/-- The first in the order among those that meet the condition. -/
def first (l : List τ) (p : τ → Bool) : Option τ := (R.sort l).find? p

theorem mem_of_first (h : R.first l p = some a) : a ∈ l ∧ p a = true :=
  ⟨(R.perm l).mem_iff.1 (List.mem_of_find?_eq_some h), List.find?_some h⟩

/-- Whatever comes first of a group is of the highest rank in it. -/
theorem rank_le_of_first (h : R.first l p = some a) (hb : b ∈ l) (hp : p b = true) :
    R.rank b ≤ R.rank a := by
  obtain ⟨-, before, after, hsplit, hbefore⟩ := List.find?_eq_some_iff_append.1 h
  have hmem : b ∈ before ++ a :: after := hsplit ▸ (R.perm l).mem_iff.2 hb
  have hsorted : (before ++ a :: after).Pairwise fun a b => R.rank b ≤ R.rank a :=
    hsplit ▸ R.sorted l
  rcases List.mem_append.1 hmem with hearly | hlate
  · have := hbefore b hearly
    rw [hp] at this
    cases this
  · rcases List.mem_cons.1 hlate with rfl | hlate
    · exact le_rfl
    · exact (List.pairwise_cons.1 (List.pairwise_append.1 hsorted).2.1).1 b hlate

theorem exists_first (hb : b ∈ l) (hp : p b = true) : ∃ a, R.first l p = some a := by
  refine Option.isSome_iff_exists.1 (List.find?_isSome.2 ⟨b, (R.perm l).mem_iff.2 hb, hp⟩)

/-- The order of an insertion sort. -/
def insertion (rank : τ → ℤ) : Ranking τ where
  rank := rank
  sort := List.insertionSort fun a b => rank b ≤ rank a
  perm := List.perm_insertionSort _
  sorted := by
    have : Std.Total fun a b : τ => rank b ≤ rank a := ⟨fun a b => le_total (rank b) (rank a)⟩
    have : IsTrans τ fun a b => rank b ≤ rank a := ⟨fun _ _ _ hab hbc => hbc.trans hab⟩
    exact List.pairwise_insertionSort _

end Ranking
