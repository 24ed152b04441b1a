import Mathlib.Data.List.Basic
import Mathlib.Tactic.Ring

/-!
# Slices of a list

A list is cut into pieces of one length, the last of which may be shorter.

* `slice k l i` is the `i`-th piece of length `k`;
* `flatten_slices`: the first `n` pieces together are the first `n * k` elements;
* `flatMap_eq_iff_of_length`: pieces of given lengths are determined by the whole;
* `append_cons_inj`: the last separator of a list determines what stands before and after it;
* `concat_eq_append_cons`: where an element stands in a list with one more at the end;
* `takeWhile_append_prefix`: the list begins with what stands before the first separator.
-/

namespace Slices

variable {α : Type*}

/-- The `i`-th piece of length `k`. -/
def slice (k : ℕ) (l : List α) (i : ℕ) : List α := (l.drop (i * k)).take k

@[simp] theorem length_slice (k : ℕ) (l : List α) (i : ℕ) :
    (slice k l i).length = min k (l.length - i * k) := by
  simp [slice]

theorem take_append_slice (k : ℕ) (l : List α) (n : ℕ) :
    l.take (n * k) ++ slice k l n = l.take ((n + 1) * k) := by
  rw [slice, show (n + 1) * k = n * k + k by ring, List.take_add]

/-- The first pieces, one after the other. -/
theorem flatten_slices (k : ℕ) (l : List α) (n : ℕ) :
    ((List.range n).map (slice k l)).flatten = l.take (n * k) := by
  induction n with
  | zero => simp
  | succ n ih =>
    rw [List.range_succ, List.map_append, List.flatten_append, ih, ← take_append_slice]
    simp

/-- Enough pieces are the whole list. -/
theorem flatten_slices_eq {k n : ℕ} {l : List α} (h : l.length ≤ n * k) :
    ((List.range n).map (slice k l)).flatten = l := by
  rw [flatten_slices, List.take_of_length_le h]

/-- Pieces of the same lengths make up the same list only if they are the same. -/
theorem flatMap_eq_iff_of_length {ι : Type*} {f g : ι → List α} {l : List ι}
    (hlength : ∀ i ∈ l, (f i).length = (g i).length) :
    l.flatMap f = l.flatMap g ↔ ∀ i ∈ l, f i = g i := by
  induction l with
  | nil => simp
  | cons i l ih =>
    have hi := hlength i List.mem_cons_self
    have hl := ih fun j hj => hlength j (List.mem_cons_of_mem i hj)
    rw [List.flatMap_cons, List.flatMap_cons, List.forall_mem_cons, ← hl]
    constructor
    · intro h
      exact List.append_inj h hi
    · rintro ⟨h, hrest⟩
      rw [h, hrest]

/-- What stands before and after the last separator of a list. -/
theorem append_cons_inj {a : α} {l l' r r' : List α} (hr : a ∉ r) (hr' : a ∉ r') :
    l ++ a :: r = l' ++ a :: r' ↔ l = l' ∧ r = r' := by
  constructor
  · intro h
    rcases List.append_eq_append_iff.1 h with ⟨m, hl, hm⟩ | ⟨m, hl, hm⟩ <;>
      rcases m with _ | ⟨b, m⟩
    · simp_all
    · obtain ⟨-, hm⟩ := List.cons.inj hm
      exact absurd (hm ▸ List.mem_append_right m List.mem_cons_self) hr
    · simp_all
    · obtain ⟨-, hm⟩ := List.cons.inj hm
      exact absurd (hm ▸ List.mem_append_right m List.mem_cons_self) hr'
  · rintro ⟨rfl, rfl⟩
    rfl

/-- What stands after the last separator. -/
theorem takeWhile_reverse_append_cons [DecidableEq α] {a : α} {l r : List α} (h : a ∉ r) :
    (l ++ a :: r).reverse.takeWhile (· ≠ a) = r.reverse := by
  have hreverse : (l ++ a :: r).reverse = r.reverse ++ a :: l.reverse := by simp
  have hne : ∀ b ∈ r.reverse, decide (b ≠ a) = true := by
    intro b hb
    rw [List.mem_reverse] at hb
    simpa using fun heq : b = a => h (heq ▸ hb)
  rw [hreverse, List.takeWhile_append_of_pos hne]
  simp

/-- A list with one more at the end is cut at that, or before it. -/
theorem concat_eq_append_cons {l front back : List α} {x y : α}
    (h : l ++ [x] = front ++ y :: back) :
    (front = l ∧ y = x) ∨ ∃ rest, l = front ++ y :: rest := by
  rcases List.eq_nil_or_concat back with rfl | ⟨rest, z, rfl⟩
  · obtain ⟨hl, hxy⟩ := List.append_inj' h rfl
    exact Or.inl ⟨hl.symm, (List.singleton_inj.1 hxy).symm⟩
  · rw [List.concat_eq_append, ← List.cons_append, ← List.append_assoc] at h
    exact Or.inr ⟨rest, (List.append_inj' h rfl).1⟩

/-- What stands before the first separator, and the separator. -/
theorem takeWhile_append_prefix [DecidableEq α] {a : α} {l : List α} (h : a ∈ l) :
    l.takeWhile (· ≠ a) ++ [a] <+: l := by
  induction l with
  | nil => cases h
  | cons b l ih =>
    by_cases hb : b = a
    · subst hb
      simp
    · have hmem : a ∈ l := (List.mem_cons.1 h).resolve_left fun hab => hb hab.symm
      rw [List.takeWhile_cons_of_pos (by simpa using hb), List.cons_append]
      exact List.cons_prefix_cons.2 ⟨rfl, ih hmem⟩

end Slices
