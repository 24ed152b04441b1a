import Mathlib.Logic.Relation
import Mathlib.Order.WellFoundedSet

/-!
# Heights of a relation

`r a b` is read "`a` must come before `b`".

* `ChainTo r k b`: a chain of `k` steps ends at `b`;
* `Height r k b`: the longest chain that ends at `b` has `k` steps;
* `height_of_preds`: the height of an element from those of what comes before it, the rule by which
  elements are taken off layer by layer;
* `exists_cycle_of_preds`: a finite set in which everything has something before it in the set
  contains a cycle.
-/

namespace Layering

open Relation

variable {α : Type*} {r : α → α → Prop} {a b : α} {i j k : ℕ}

/-- A chain of `k` steps of the relation ends at the element. -/
inductive ChainTo (r : α → α → Prop) : ℕ → α → Prop
  | zero (a : α) : ChainTo r 0 a
  | succ {k : ℕ} {a b : α} : ChainTo r k a → r a b → ChainTo r (k + 1) b

/-- The longest chain that ends at the element has `k` steps. -/
structure Height (r : α → α → Prop) (k : ℕ) (a : α) : Prop where
  chain : ChainTo r k a
  longest : ∀ j, ChainTo r j a → j ≤ k

theorem Height.unique (hi : Height r i a) (hj : Height r j a) : i = j :=
  le_antisymm (hj.longest i hi.chain) (hi.longest j hj.chain)

/-- What comes before has the smaller height. -/
theorem Height.lt (h : r a b) (hi : Height r i a) (hj : Height r j b) : i < j :=
  hj.longest (i + 1) (hi.chain.succ h)

/-- A chain can be led on along the relation. -/
theorem ChainTo.transGen (hk : ChainTo r k a) (h : TransGen r a b) :
    ∃ m, k < m ∧ ChainTo r m b := by
  induction h with
  | single hab => exact ⟨k + 1, Nat.lt_succ_self k, hk.succ hab⟩
  | tail _ hbc ih =>
    obtain ⟨m, hkm, hm⟩ := ih
    exact ⟨m + 1, by omega, hm.succ hbc⟩

/-- What comes before through others has the smaller height too. -/
theorem Height.lt_of_transGen (h : TransGen r a b) (hi : Height r i a) (hj : Height r j b) :
    i < j := by
  obtain ⟨m, him, hm⟩ := hi.chain.transGen h
  exact him.trans_le (hj.longest m hm)

/-- An element with a height lies on no cycle. -/
theorem Height.not_transGen_self (hk : Height r k a) : ¬ TransGen r a a := by
  intro h
  exact lt_irrefl k (hk.lt_of_transGen h hk)

/-- What ends a chain of `i` steps, and has only elements of smaller heights before it, has the
height `i`. -/
theorem height_of_preds (hchain : ChainTo r i b)
    (hpreds : ∀ a, r a b → ∃ j < i, Height r j a) : Height r i b := by
  refine ⟨hchain, fun k hk => ?_⟩
  cases hk with
  | zero => exact Nat.zero_le i
  | succ hk hab =>
    obtain ⟨j, hji, hj⟩ := hpreds _ hab
    have hkj := hj.longest _ hk
    omega

/-- A finite set in which everything has something before it in the set contains a cycle. -/
theorem exists_cycle_of_preds {s : Set α} (hfin : s.Finite) (hne : s.Nonempty)
    (hpreds : ∀ b ∈ s, ∃ a ∈ s, r a b) : ∃ a ∈ s, TransGen r a a := by
  by_contra hno
  push Not at hno
  -- without a cycle "comes before" is a strict order on the set, which is then well founded
  have hwf : s.WellFoundedOn (TransGen fun a b => r a b ∧ a ∈ s ∧ b ∈ s) := by
    have : IsStrictOrder α (TransGen fun a b => r a b ∧ a ∈ s ∧ b ∈ s) :=
      { irrefl := by
          intro a ha
          obtain ⟨b, hab, -⟩ := TransGen.head'_iff.1 ha
          exact hno a hab.2.1 (TransGen.mono (fun _ _ h => h.1) a a ha)
        trans := fun _ _ _ hxy hyz => hxy.trans hyz }
    exact hfin.wellFoundedOn
  obtain ⟨b, hb⟩ := hne
  refine Set.WellFoundedOn.induction hwf (P := fun _ => False) hb fun b hb ih => ?_
  obtain ⟨a, ha, hab⟩ := hpreds b hb
  exact ih a ha (TransGen.single ⟨hab, ha, hb⟩)

end Layering
