import Mathlib.Logic.Relation
import Mathlib.Logic.Function.Basic
import Mathlib.Data.Set.Finite.Basic
import Mathlib.Order.WellFoundedSet

/-!
# Graphs of who waits for whom

Every node waits for at most one other, so the graph is a function `w : α → Option α`.

* `Waits w a b`: `a` waits for `b`; `Leads w a b`: the chain of waits from `a` comes to `b`;
* `NoCircle w`: no chain of waits comes back to where it started;
* `Rising height w`: everybody waits for a higher one, and then there is no circle;
* `exists_end`: without circles, and with finitely many waiting, each chain ends at somebody who
  waits for nobody.
-/

namespace WaitGraph

open Relation

variable {α : Type*} {w w' : α → Option α} {a b c : α}

/-- `a` waits for `b`. -/
def Waits (w : α → Option α) (a b : α) : Prop := w a = some b

/-- The chain of waits from `a` comes to `b`. -/
def Leads (w : α → Option α) : α → α → Prop := ReflTransGen (Waits w)

/-- Nobody waits, through others, for himself. -/
def NoCircle (w : α → Option α) : Prop := ∀ a, ¬ TransGen (Waits w) a a

theorem Leads.refl (a : α) : Leads w a a := ReflTransGen.refl

theorem Leads.tail (h : Leads w a b) (hbc : w b = some c) : Leads w a c := ReflTransGen.tail h hbc

section Rising

variable {β : Type*} [Preorder β] {height : α → β}

/-- Everybody waits for a higher one. -/
def Rising (height : α → β) (w : α → Option α) : Prop := ∀ a b, w a = some b → height a < height b

theorem rising_none : Rising height fun _ => none := by
  rintro a b ⟨⟩

/-- Where everybody waits for a higher one, there is no circle. -/
theorem Rising.noCircle (h : Rising height w) : NoCircle w := by
  have hlt : ∀ a b, TransGen (Waits w) a b → height a < height b := by
    intro a b hab
    induction hab with
    | single hab => exact h _ _ hab
    | tail _ hbc ih => exact ih.trans (h _ _ hbc)
  exact fun a ha => lt_irrefl _ (hlt a a ha)

variable [DecidableEq α]

/-- A wait that ends. -/
theorem Rising.update_none (h : Rising height w) (a : α) :
    Rising height (Function.update w a none) := by
  intro x y hxy
  rcases eq_or_ne x a with rfl | hne
  · rw [Function.update_self] at hxy
    cases hxy
  · rw [Function.update_of_ne hne] at hxy
    exact h x y hxy

/-- A wait that begins, for a higher one. -/
theorem Rising.update_some (h : Rising height w) (hab : height a < height b) :
    Rising height (Function.update w a (some b)) := by
  intro x y hxy
  rcases eq_or_ne x a with rfl | hne
  · rw [Function.update_self] at hxy
    cases hxy
    exact hab
  · rw [Function.update_of_ne hne] at hxy
    exact h x y hxy

end Rising

/-- Without circles, and with finitely many waiting, every chain ends. -/
theorem exists_end (h : NoCircle w) (hfin : {a | w a ≠ none}.Finite) (a : α) :
    ∃ b, Leads w a b ∧ w b = none := by
  -- along the chains the waiting nodes are well founded
  have hwf : {a | w a ≠ none}.WellFoundedOn fun x y => TransGen (Waits w) y x := by
    have : IsStrictOrder α fun x y => TransGen (Waits w) y x :=
      { irrefl := h
        trans := fun _ _ _ hxy hyz => hyz.trans hxy }
    exact hfin.wellFoundedOn
  by_cases ha : w a = none
  · exact ⟨a, .refl a, ha⟩
  refine Set.WellFoundedOn.induction hwf (P := fun a => ∃ b, Leads w a b ∧ w b = none) ha ?_
  intro x hx ih
  obtain ⟨y, hxy⟩ := Option.ne_none_iff_exists'.1 hx
  by_cases hy : w y = none
  · exact ⟨y, (Leads.refl x).tail hxy, hy⟩
  · obtain ⟨b, hyb, hb⟩ := ih y hy (TransGen.single hxy)
    exact ⟨b, ReflTransGen.head hxy hyb, hb⟩

end WaitGraph
