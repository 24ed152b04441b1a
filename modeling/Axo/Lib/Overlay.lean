import Mathlib.Logic.Function.Basic
import Mathlib.Data.List.Basic
import Mathlib.Data.Option.Basic

/-!
# Diffs laid over a map

A diff gives some keys of a map a new value and leaves the others alone.  A store, the changes
that wait to be sent and the changes on their way are a map and diffs of it.

* `Diff.apply` lays a diff over a map, `Diff.andThen` puts a later diff after an earlier one and
  `Diff.joined` joins a list of them: the last word on a key stands (`joined_eq_getLast?`);
* `Diff.Describes d m` says that `d` says nothing but what already holds in `m`;
* `Diff.Related R d e` says that two diffs name the same keys, and of each related things.
-/

variable {κ β : Type*}

/-- A new value for some of the keys. -/
abbrev Diff (κ β : Type*) := κ → Option β

namespace Diff

/-- The diff that changes nothing. -/
def empty : Diff κ β := fun _ => none

/-- The map after the diff. -/
def apply (d : Diff κ β) (m : κ → β) : κ → β := fun k => (d k).getD (m k)

/-- One diff and then another: the later word on a key stands. -/
def andThen (d e : Diff κ β) : Diff κ β := fun k => (e k).or (d k)

/-- The diffs of a list, the first one first. -/
def joined : List (Diff κ β) → Diff κ β
  | [] => empty
  | d :: ds => andThen d (joined ds)

/-- The change of one key. -/
def single [DecidableEq κ] (k : κ) (b : β) : Diff κ β := Function.update empty k (some b)

/-- What `d` says of the keys that `e` names. -/
def on {γ : Type*} (d : Diff κ β) (e : Diff κ γ) : Diff κ β :=
  fun k => if (e k).isSome then d k else none

/-- The diff says nothing but what already holds. -/
def Describes (d : Diff κ β) (m : κ → β) : Prop := ∀ k b, d k = some b → m k = b

/-- The two diffs name the same keys, and what they say of each is related. -/
def Related {γ : Type*} (R : κ → β → γ → Prop) (d : Diff κ β) (e : Diff κ γ) : Prop :=
  ∀ k, Option.Rel (R k) (d k) (e k)

variable {d e : Diff κ β} {m : κ → β} {k : κ} {b : β}

/-! ### Laying diffs over a map -/

theorem apply_of_some (h : d k = some b) : apply d m k = b := by
  rw [apply, h, Option.getD_some]

theorem apply_of_none (h : d k = none) : apply d m k = m k := by
  rw [apply, h, Option.getD_none]

@[simp] theorem apply_empty (m : κ → β) : apply empty m = m := rfl

@[simp] theorem apply_andThen (d e : Diff κ β) (m : κ → β) :
    apply (andThen d e) m = apply e (apply d m) := by
  funext k
  cases he : e k with
  | none => simp only [apply, andThen, he, Option.none_or, Option.getD_none]
  | some b => simp only [apply, andThen, he, Option.some_or, Option.getD_some]

@[simp] theorem empty_andThen (d : Diff κ β) : andThen empty d = d := by
  funext k
  exact Option.or_none

@[simp] theorem andThen_empty (d : Diff κ β) : andThen d empty = d := by
  funext k
  exact Option.none_or

theorem andThen_assoc (d e f : Diff κ β) :
    andThen (andThen d e) f = andThen d (andThen e f) := by
  funext k
  exact Option.or_assoc.symm

@[simp] theorem joined_nil : joined ([] : List (Diff κ β)) = empty := rfl

@[simp] theorem joined_cons (d : Diff κ β) (ds : List (Diff κ β)) :
    joined (d :: ds) = andThen d (joined ds) := rfl

@[simp] theorem joined_append (ds es : List (Diff κ β)) :
    joined (ds ++ es) = andThen (joined ds) (joined es) := by
  induction ds with
  | nil => rw [List.nil_append, joined_nil, empty_andThen]
  | cons d ds ih => rw [List.cons_append, joined_cons, ih, joined_cons, andThen_assoc]

/-- The last word on a key stands. -/
theorem joined_eq_getLast? (ds : List (Diff κ β)) (k : κ) :
    joined ds k = (ds.filterMap fun d => d k).getLast? := by
  induction ds with
  | nil => rfl
  | cons d ds ih =>
    rw [joined_cons, andThen, ih, List.filterMap_cons]
    cases d k with
    | none => rw [Option.or_none]
    | some b =>
      rw [List.getLast?_cons]
      cases (ds.filterMap fun d => d k).getLast? <;> rfl

section Single

variable [DecidableEq κ]

@[simp] theorem single_self (k : κ) (b : β) : single k b k = some b := Function.update_self ..

theorem single_of_ne {k k' : κ} (h : k' ≠ k) (b : β) : single k b k' = none :=
  Function.update_of_ne h ..

@[simp] theorem apply_single (k : κ) (b : β) (m : κ → β) :
    apply (single k b) m = Function.update m k b := by
  funext k'
  by_cases hk : k' = k
  · subst hk
    rw [apply_of_some (single_self k' b), Function.update_self]
  · rw [apply_of_none (single_of_ne hk b), Function.update_of_ne hk]

/-- A change of one key after a diff replaces what the diff says about it. -/
theorem andThen_single (d : Diff κ β) (k : κ) (b : β) :
    andThen d (single k b) = Function.update d k (some b) := by
  funext k'
  by_cases hk : k' = k
  · subst hk
    rw [andThen, single_self, Option.some_or, Function.update_self]
  · rw [andThen, single_of_ne hk, Option.none_or, Function.update_of_ne hk]

end Single

/-! ### Related diffs -/

section Related

variable {γ : Type*} {R S : κ → β → γ → Prop} {d' e' : Diff κ γ}

theorem related_empty : Related R empty (empty : Diff κ γ) := fun _ => .none

/-- Both say nothing about a key, or related things. -/
theorem Related.cases (h : Related R d d') (k : κ) :
    d k = none ∧ d' k = none ∨ ∃ b c, d k = some b ∧ d' k = some c ∧ R k b c := by
  have hk := h k
  cases hd : d k with
  | none =>
    cases hd' : d' k with
    | none => exact Or.inl ⟨rfl, rfl⟩
    | some c =>
      rw [hd, hd'] at hk
      exact absurd hk Option.not_rel_none_some
  | some b =>
    cases hd' : d' k with
    | none =>
      rw [hd, hd'] at hk
      exact absurd hk Option.not_rel_some_none
    | some c =>
      rw [hd, hd'] at hk
      exact Or.inr ⟨b, c, rfl, rfl, Option.rel_some_some.1 hk⟩

theorem Related.andThen (hd : Related R d d') (he : Related R e e') :
    Related R (d.andThen e) (d'.andThen e') := by
  intro k
  unfold Diff.andThen
  rcases he.cases k with ⟨hnone, hnone'⟩ | ⟨b, c, hb, hc, hbc⟩
  · rw [hnone, hnone', Option.none_or, Option.none_or]
    exact hd k
  · rw [hb, hc, Option.some_or, Option.some_or]
    exact .some hbc

theorem related_single [DecidableEq κ] {b : β} {c : γ} (h : R k b c) :
    Related R (single k b) (single k c) := by
  intro k'
  by_cases hk : k' = k
  · subst hk
    rw [single_self, single_self]
    exact .some h
  · rw [single_of_ne hk, single_of_ne hk]
    exact .none

theorem Related.mono (hRS : ∀ k b c, R k b c → S k b c) (h : Related R d d') :
    Related S d d' := by
  intro k
  rcases h.cases k with ⟨hnone, hnone'⟩ | ⟨b, c, hb, hc, hbc⟩
  · rw [hnone, hnone']
    exact .none
  · rw [hb, hc]
    exact .some (hRS k b c hbc)

/-- What the first says of a key, the second says in its own way. -/
theorem Related.of_left {b : β} (h : Related R d d') (hd : d k = some b) :
    ∃ c, d' k = some c ∧ R k b c := by
  rcases h.cases k with ⟨hnone, -⟩ | ⟨b', c, hb', hc, hbc⟩
  · rw [hd] at hnone
    cases hnone
  · rw [hd] at hb'
    cases hb'
    exact ⟨c, hc, hbc⟩

theorem Related.of_right {c : γ} (h : Related R d d') (hd' : d' k = some c) :
    ∃ b, d k = some b ∧ R k b c := by
  rcases h.cases k with ⟨-, hnone⟩ | ⟨b, c', hb, hc', hbc⟩
  · rw [hd'] at hnone
    cases hnone
  · rw [hd'] at hc'
    cases hc'
    exact ⟨b, hb, hbc⟩

end Related

end Diff
