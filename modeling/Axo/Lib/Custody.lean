import Mathlib.Data.List.Count
import Mathlib.Data.List.Nodup

/-!
# Things in custody

Things are taken in, pass from hand to hand, and are handed out in the end.

* `held holds parties`: all that the parties hold, each one what `holds` says;
* `Balanced taken returned kept`: what was taken in has been handed out or is still kept;
* one lemma for each way the parties change, and what balance says at any time and at the end.
-/

namespace Custody

variable {π τ : Type*} {holds : π → List τ} {parties : List π} {x y : π} {a : τ}

/-- What all the parties hold. -/
def held (holds : π → List τ) (parties : List π) : List τ := parties.flatMap holds

@[simp] theorem held_nil (holds : π → List τ) : held holds [] = [] := rfl

@[simp] theorem held_cons (holds : π → List τ) (x : π) (parties : List π) :
    held holds (x :: parties) = holds x ++ held holds parties := rfl

@[simp] theorem held_append (holds : π → List τ) (ps qs : List π) :
    held holds (ps ++ qs) = held holds ps ++ held holds qs := List.flatMap_append

theorem mem_held : a ∈ held holds parties ↔ ∃ x ∈ parties, a ∈ holds x := List.mem_flatMap

/-- The parties after one of them has changed. -/
theorem getElem?_set_of_some {i : ℕ} (h : parties[i]? = some x) (y : π) :
    (parties.set i y)[i]? = some y := by
  obtain ⟨hi, -⟩ := List.getElem?_eq_some_iff.1 h
  rw [List.getElem?_set_self hi]

theorem getElem?_set_cases {i k : ℕ} {z : π} (h : parties[i]? = some x)
    (hk : (parties.set i y)[k]? = some z) : k = i ∧ z = y ∨ k ≠ i ∧ parties[k]? = some z := by
  rcases eq_or_ne k i with rfl | hne
  · rw [getElem?_set_of_some h] at hk
    exact Or.inl ⟨rfl, (Option.some.inj hk).symm⟩
  · rw [List.getElem?_set_ne hne.symm] at hk
    exact Or.inr ⟨hne, hk⟩

/-- The parties after one has joined. -/
theorem getElem?_append_of_some {i : ℕ} (h : parties[i]? = some x) :
    (parties ++ [y])[i]? = some x := by
  obtain ⟨hi, -⟩ := List.getElem?_eq_some_iff.1 h
  rwa [List.getElem?_append_left hi]

theorem getElem?_append_cases {i : ℕ} (h : (parties ++ [y])[i]? = some x) :
    parties[i]? = some x ∨ y = x := by
  rcases Nat.lt_or_ge i parties.length with hlt | hge
  · rw [List.getElem?_append_left hlt] at h
    exact Or.inl h
  · rw [List.getElem?_append_right hge] at h
    exact Or.inr (List.mem_singleton.1 (List.mem_of_getElem? h)).symm

section Count

variable [DecidableEq τ]

/-- One party changes. -/
theorem count_held_set (holds : π → List τ) {i : ℕ} (h : parties[i]? = some x) (y : π) (a : τ) :
    (held holds (parties.set i y)).count a + (holds x).count a =
      (held holds parties).count a + (holds y).count a := by
  induction parties generalizing i with
  | nil => simp at h
  | cons p parties ih =>
    cases i with
    | zero =>
      obtain rfl : p = x := by simpa using h
      simp only [List.set_cons_zero, held_cons, List.count_append]
      omega
    | succ i =>
      have := ih (by simpa using h)
      simp only [List.set_cons_succ, held_cons, List.count_append]
      omega

/-- No party holds more than all of them. -/
theorem count_le_held (holds : π → List τ) (h : x ∈ parties) (a : τ) :
    (holds x).count a ≤ (held holds parties).count a := by
  obtain ⟨front, back, rfl⟩ := List.append_of_mem h
  simp only [held_append, held_cons, List.count_append]
  omega

/-- One party leaves. -/
theorem count_held_erase [DecidableEq π] (holds : π → List τ) (h : x ∈ parties) (a : τ) :
    (held holds (parties.erase x)).count a + (holds x).count a =
      (held holds parties).count a := by
  have hperm := (List.perm_cons_erase h).flatMap_right holds
  rw [held, held, hperm.count_eq, List.flatMap_cons, List.count_append, Nat.add_comm]

/-- What was taken in has been handed out or is kept. -/
def Balanced (taken returned kept : List τ) : Prop :=
  ∀ a, taken.count a = returned.count a + kept.count a

variable {taken returned kept : List τ}

theorem Balanced.count_le (h : Balanced taken returned kept) (a : τ) :
    returned.count a ≤ taken.count a := by
  rw [h a]
  exact Nat.le_add_right _ _

/-- What has not been handed out is kept. -/
theorem Balanced.mem_kept (h : Balanced taken returned kept)
    (hlt : returned.count a < taken.count a) : a ∈ kept := by
  have := h a
  exact List.count_pos_iff.1 (by omega)

theorem Balanced.count_eq_of_notMem (h : Balanced taken returned kept) (ha : a ∉ kept) :
    returned.count a = taken.count a := by
  rw [h a, List.count_eq_zero_of_not_mem ha, Nat.add_zero]

end Count

end Custody
