import Mathlib.Data.List.Flatten
import Mathlib.Algebra.Order.Group.Nat
import Mathlib.Algebra.BigOperators.Group.List.Basic
import Mathlib.Algebra.Ring.Nat

/-!
# Loops in rounds

* `runEach round s xs` is a loop over a list that an exception may end, and `runEach_iff_at` and
  `runEach_iff` are its rules: what one round needs and keeps, the whole loop needs and keeps;
* `spend` is what is paid for of a list, one thing after the other, until a budget is spent.
-/

namespace Rounds

/-! ### Loops that an exception may end -/

section RunEach

variable {σ α ε : Type*} (round : σ → α → σ × Option ε)

/-- A round for each element, up to the first exception. -/
def runEach (s : σ) : List α → σ × Option ε
  | [] => (s, none)
  | x :: xs =>
    match round s x with
    | (t, some e) => (t, some e)
    | (t, none) => runEach t xs

variable {round} {s : σ}

theorem runEach_cons_of_ok {x : α} {xs : List α} (h : (round s x).2 = none) :
    runEach round s (x :: xs) = runEach round (round s x).1 xs := by
  rw [runEach]
  cases hround : round s x with
  | mk t e =>
    rw [hround] at h
    cases h
    rfl

theorem runEach_cons_of_raised {x : α} {xs : List α} (h : (round s x).2 ≠ none) :
    runEach round s (x :: xs) = round s x := by
  rw [runEach]
  cases hround : round s x with
  | mk t e =>
    rw [hround] at h
    cases e with
    | none => exact absurd rfl h
    | some e => rfl

/-- What holds of every element of a list, given what stands before it. -/
theorem forall_split_cons {P : List α → α → Prop} {x : α} {xs : List α} :
    (∀ before y after, x :: xs = before ++ y :: after → P before y) ↔
      P [] x ∧ ∀ before y after, xs = before ++ y :: after → P (x :: before) y := by
  constructor
  · intro h
    exact ⟨h [] x xs rfl, fun before y after heq => h (x :: before) y after (by rw [heq]; rfl)⟩
  · rintro ⟨hx, hxs⟩ before y after heq
    cases before with
    | nil =>
      obtain ⟨rfl, -⟩ := List.cons.inj heq
      exact hx
    | cons z before =>
      obtain ⟨rfl, hrest⟩ := List.cons.inj heq
      exact hxs before y after hrest

variable (round s) in
/-- The rule for a loop: when a round ends without an exception exactly under a condition on its
element and the elements before it, and then keeps the invariant, the same is true of the whole
loop. -/
theorem runEach_iff_at (I : List α → σ → Prop) (G : List α → α → Prop) (done xs : List α)
    (h0 : I done s)
    (hround : ∀ before x after t, done ++ xs = before ++ x :: after → I before t →
      ((round t x).2 = none ↔ G before x) ∧ (G before x → I (before ++ [x]) (round t x).1)) :
    ((runEach round s xs).2 = none ↔
        ∀ before x after, xs = before ++ x :: after → G (done ++ before) x) ∧
      ((∀ before x after, xs = before ++ x :: after → G (done ++ before) x) →
        I (done ++ xs) (runEach round s xs).1) := by
  induction xs generalizing done s with
  | nil =>
    refine ⟨iff_of_true rfl fun before x after h => ?_, fun _ => by rwa [List.append_nil]⟩
    exact absurd h.symm (List.append_ne_nil_of_right_ne_nil before (List.cons_ne_nil x after))
  | cons x xs ih =>
    obtain ⟨hok, hnext⟩ := hround done x xs s rfl h0
    rw [forall_split_cons, List.append_nil]
    by_cases hG : G done x
    · obtain ⟨hrest, hlast⟩ := ih _ (done ++ [x]) (hnext hG) fun before y after t heq => by
        refine hround before y after t ?_
        rwa [List.append_assoc] at heq
      simp only [List.append_assoc, List.singleton_append] at hrest hlast
      rw [runEach_cons_of_ok (hok.2 hG), and_iff_right hG]
      exact ⟨hrest, hlast⟩
    · rw [runEach_cons_of_raised fun h => hG (hok.1 h)]
      exact ⟨iff_of_false (fun h => hG (hok.1 h)) fun h => hG h.1, fun h => absurd h.1 hG⟩

variable (round s) in
/-- The rule where the condition is on the elements alone. -/
theorem runEach_iff (I : List α → σ → Prop) (G : α → Prop) (done xs : List α) (h0 : I done s)
    (hround : ∀ before x after t, done ++ xs = before ++ x :: after → I before t →
      ((round t x).2 = none ↔ G x) ∧ (G x → I (before ++ [x]) (round t x).1)) :
    ((runEach round s xs).2 = none ↔ ∀ x ∈ xs, G x) ∧
      ((∀ x ∈ xs, G x) → I (done ++ xs) (runEach round s xs).1) := by
  have hsplit : (∀ before x after, xs = before ++ x :: after → G x) ↔ ∀ x ∈ xs, G x := by
    constructor
    · intro h x hx
      obtain ⟨before, after, heq⟩ := List.append_of_mem hx
      exact h before x after heq
    · rintro h before x after rfl
      exact h x (List.mem_append_right before List.mem_cons_self)
  rw [← hsplit]
  exact runEach_iff_at round s I (fun _ => G) done xs h0 hround

end RunEach

/-! ### Budgets -/

section Spend

variable {α : Type*} (spent : ℕ → Prop) [DecidablePred spent] (cost : α → ℕ)

/-- What is paid for after `n` was paid: nothing more once the budget is spent. -/
def spend (n : ℕ) : List α → List α
  | [] => []
  | x :: xs => if spent n then [] else x :: spend (n + cost x) xs

/-- What a list costs. -/
def total (xs : List α) : ℕ := (xs.map cost).sum

variable {spent cost} {n : ℕ} {xs ys : List α}

@[simp] theorem total_nil : total cost [] = 0 := rfl

@[simp] theorem total_append : total cost (xs ++ ys) = total cost xs + total cost ys := by
  rw [total, List.map_append, List.sum_append]
  rfl

@[simp] theorem total_cons {x : α} : total cost (x :: xs) = cost x + total cost xs := rfl

theorem spend_of_spent (h : spent n) (xs : List α) : spend spent cost n xs = [] := by
  cases xs with
  | nil => rfl
  | cons x xs => exact if_pos h

theorem spend_cons (h : ¬ spent n) (x : α) (xs : List α) :
    spend spent cost n (x :: xs) = x :: spend spent cost (n + cost x) xs := if_neg h

theorem spend_begins (n : ℕ) (xs : List α) : spend spent cost n xs <+: xs := by
  induction xs generalizing n with
  | nil => exact List.nil_prefix
  | cons x xs ih =>
    by_cases hn : spent n
    · rw [spend_of_spent hn]
      exact List.nil_prefix
    · rw [spend_cons hn]
      exact List.cons_prefix_cons.2 ⟨rfl, ih _⟩

/-- A budget that is never spent. -/
theorem spend_eq_self (h : ∀ n, ¬ spent n) (n : ℕ) (xs : List α) : spend spent cost n xs = xs := by
  induction xs generalizing n with
  | nil => rfl
  | cons x xs ih => rw [spend_cons (h n), ih]

/-- A budget that is not spent yet pays for something. -/
theorem spend_ne_nil (h : ¬ spent n) (hxs : xs ≠ []) : spend spent cost n xs ≠ [] := by
  cases xs with
  | nil => exact absurd rfl hxs
  | cons x xs =>
    rw [spend_cons h]
    exact List.cons_ne_nil _ _

/-- Before the last thing is paid for, the budget is not spent. -/
theorem not_spent_of_last {before : List α} {last : α}
    (h : spend spent cost n xs = before ++ [last]) : ¬ spent (n + total cost before) := by
  induction xs generalizing n before with
  | nil => exact absurd h.symm (by simp [spend])
  | cons x xs ih =>
    by_cases hn : spent n
    · rw [spend_of_spent hn] at h
      exact absurd h.symm (by simp)
    · rw [spend_cons hn] at h
      cases before with
      | nil => exact hn
      | cons y before =>
        obtain ⟨rfl, hrest⟩ := List.cons.inj h
        rw [total_cons, ← Nat.add_assoc]
        exact ih hrest

variable (hmono : ∀ m n, spent m → m ≤ n → spent n)

include hmono

/-- One list after the other. -/
theorem spend_append (n : ℕ) (xs ys : List α) :
    spend spent cost n (xs ++ ys) =
      spend spent cost n xs ++
        spend spent cost (n + total cost (spend spent cost n xs)) ys := by
  induction xs generalizing n with
  | nil => rfl
  | cons x xs ih =>
    rw [List.cons_append]
    by_cases hn : spent n
    · rw [spend_of_spent hn, spend_of_spent hn, spend_of_spent (hmono _ _ hn (Nat.le_add_right _ _))]
      rfl
    · rw [spend_cons hn, spend_cons hn, ih, List.cons_append, total_cons, Nat.add_assoc]

/-- What is paid for of some kind is the first of what would be paid for of that kind alone. -/
theorem filter_spend_begins (p : α → Bool) {m n : ℕ} (hle : m ≤ n) (xs : List α) :
    (spend spent cost n xs).filter p <+: spend spent cost m (xs.filter p) := by
  induction xs generalizing m n with
  | nil => exact List.nil_prefix
  | cons x xs ih =>
    by_cases hn : spent n
    · rw [spend_of_spent hn]
      exact List.nil_prefix
    · have hm : ¬ spent m := fun h => hn (hmono m n h hle)
      rw [spend_cons hn]
      by_cases hx : p x = true
      · rw [List.filter_cons_of_pos hx, List.filter_cons_of_pos hx, spend_cons hm]
        exact List.cons_prefix_cons.2 ⟨rfl, ih (Nat.add_le_add_right hle _)⟩
      · rw [List.filter_cons_of_neg hx, List.filter_cons_of_neg hx]
        exact ih (Nat.le_add_right_of_le hle)

end Spend

end Rounds
