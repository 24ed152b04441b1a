import Mathlib.Data.List.Basic
import Mathlib.Data.Nat.Basic
import Mathlib.Tactic.Ring

/-!
# A cursor that goes round a list

A cursor goes round a list in turns of up to `c` positions; the list may be longer at each turn than
at the one before.

* `Turn c n p` are the positions of one turn over a list of length `n` that begins at `p`, and
  `afterTurn c n p` is where the next turn begins;
* `Passed c p ns` are the positions of the turns over lists of the lengths `ns`;
* `lengthAtEnd c p ns` is the length of the list at the turn that comes to its end first;
* `passed_iff` says which positions are passed, from the start, the length at the end and the number
  of turns alone; `passed_of_constant` is the case of a list that does not change.
-/

namespace Rotation

variable {c n p i : ℕ} {ns : List ℕ}

/-- The positions of a turn. -/
def Turn (c n p i : ℕ) : Prop := ∃ j < min c n, i = (p + j) % n

/-- Where the next turn begins. -/
def afterTurn (c n p : ℕ) : ℕ := (p + min c n) % n

/-- The positions of a number of turns. -/
def Passed (c : ℕ) : ℕ → List ℕ → ℕ → Prop
  | _, [], _ => False
  | p, n :: ns, i => Turn c n (p % n) i ∨ Passed c (afterTurn c n (p % n)) ns i

/-- The length of the list when its end is reached for the first time. -/
def lengthAtEnd (c : ℕ) : ℕ → List ℕ → Option ℕ
  | _, [] => none
  | p, n :: ns => if n ≤ p + c then some n else lengthAtEnd c (p + c) ns

/-! ### One turn -/

/-- A turn that does not come to the end. -/
theorem turn_iff_of_lt (h : p + c < n) : Turn c n p i ↔ p ≤ i ∧ i < p + c := by
  have hmin : min c n = c := min_eq_left (by omega)
  unfold Turn
  rw [hmin]
  constructor
  · rintro ⟨j, hj, rfl⟩
    rw [Nat.mod_eq_of_lt (by omega)]
    omega
  · intro hi
    exact ⟨i - p, by omega, by rw [Nat.mod_eq_of_lt (by omega)]; omega⟩

/-- A turn that does. -/
theorem turn_iff_of_le (hp : p < n) (hi : i < n) (h : n ≤ p + c) :
    Turn c n p i ↔ p ≤ i ∨ i + n < p + c := by
  unfold Turn
  constructor
  · rintro ⟨j, hj, rfl⟩
    by_cases hend : p + j < n
    · rw [Nat.mod_eq_of_lt hend]
      omega
    · rw [Nat.mod_eq_sub_mod (by omega), Nat.mod_eq_of_lt (by omega)]
      omega
  · intro hpassed
    by_cases hle : p ≤ i
    · exact ⟨i - p, by omega, by rw [Nat.mod_eq_of_lt (by omega)]; omega⟩
    · refine ⟨i + n - p, by omega, ?_⟩
      rw [Nat.mod_eq_sub_mod (by omega), Nat.mod_eq_of_lt (by omega)]
      omega

theorem afterTurn_of_lt (h : p + c < n) : afterTurn c n p = p + c := by
  rw [afterTurn, min_eq_left (by omega), Nat.mod_eq_of_lt h]

theorem afterTurn_of_le (hp : p < n) (hc : c < n) (h : n ≤ p + c) :
    afterTurn c n p = p + c - n := by
  rw [afterTurn, min_eq_left (by omega), Nat.mod_eq_sub_mod h, Nat.mod_eq_of_lt (by omega)]

/-! ### Turns over a list that may grow -/

theorem passed_cons (hp : p < n) :
    Passed c p (n :: ns) i ↔ Turn c n p i ∨ Passed c (afterTurn c n p) ns i := by
  rw [Passed, Nat.mod_eq_of_lt hp]

/-- The turns begin within the list. -/
theorem passed_mod : Passed c (p % n) (n :: ns) i ↔ Passed c p (n :: ns) i := by
  rw [Passed, Passed, Nat.mod_mod]

/-- A position is passed if it stands from the start on and is among the first that the turns come
to, or if they come back to it after the end. -/
theorem passed_iff (hgrows : ns.Pairwise (· ≤ ·)) (hp : ∀ n ∈ ns, p < n) (hi : ∀ n ∈ ns, i < n) :
    Passed c p ns i ↔ (p ≤ i ∧ i < p + ns.length * c) ∨
      ∃ e, lengthAtEnd c p ns = some e ∧ i + e < p + ns.length * c := by
  induction ns generalizing p with
  | nil =>
    refine iff_of_false (fun h => h) ?_
    rintro (⟨hle, hlt⟩ | ⟨e, he, -⟩)
    · simp at hlt
      omega
    · cases he
  | cons n ns ih =>
    obtain ⟨hfirst, hrest⟩ := List.pairwise_cons.1 hgrows
    have hpn : p < n := hp n List.mem_cons_self
    have hin : i < n := hi n List.mem_cons_self
    have hin' (m : ℕ) (hm : m ∈ ns) : i < m := hi m (List.mem_cons_of_mem n hm)
    have hlength : (n :: ns).length * c = c + ns.length * c := by rw [List.length_cons]; ring
    rw [passed_cons hpn, hlength]
    by_cases hend : n ≤ p + c
    · -- the end is reached at this turn
      rw [turn_iff_of_le hpn hin hend, lengthAtEnd, if_pos hend]
      simp only [Option.some.injEq, exists_eq_left']
      by_cases hc : n ≤ c
      · refine iff_of_true (Or.inl ?_) ?_
        · omega
        · omega
      · rw [afterTurn_of_le hpn (not_le.1 hc) hend,
          ih hrest (fun m hm => by have := hfirst m hm; omega) hin']
        constructor
        · rintro ((hle | hlt) | ⟨hle, hlt⟩ | ⟨e, -, hlt⟩)
          · exact Or.inl (by omega)
          · exact Or.inr (by omega)
          · exact Or.inr (by omega)
          · exact Or.inr (by omega)
        · rintro (⟨hle, -⟩ | hlt)
          · exact Or.inl (Or.inl hle)
          · by_cases hback : i + n < p + c
            · exact Or.inl (Or.inr hback)
            · exact Or.inr (Or.inl (by omega))
    · have hlt : p + c < n := not_le.1 hend
      rw [turn_iff_of_lt hlt, afterTurn_of_lt hlt, lengthAtEnd, if_neg hend,
        ih hrest (fun m hm => lt_of_lt_of_le hlt (hfirst m hm)) hin', Nat.add_assoc]
      constructor
      · rintro (h | ⟨hle, hpassed⟩ | h)
        · exact Or.inl (by omega)
        · exact Or.inl ⟨by omega, hpassed⟩
        · exact Or.inr h
      · rintro (⟨hle, hpassed⟩ | h)
        · by_cases hturn : i < p + c
          · exact Or.inl ⟨hle, hturn⟩
          · exact Or.inr (Or.inl ⟨by omega, hpassed⟩)
        · exact Or.inr (Or.inr h)

/-! ### A list that does not change -/

theorem lengthAtEnd_replicate (k : ℕ) (hk : 0 < k) (h : n ≤ p + k * c) :
    lengthAtEnd c p (List.replicate k n) = some n := by
  induction k generalizing p with
  | zero => omega
  | succ k ih =>
    rw [List.replicate_succ, lengthAtEnd]
    by_cases hend : n ≤ p + c
    · rw [if_pos hend]
    · rw [if_neg hend]
      have hsum : p + (k + 1) * c = p + c + k * c := by ring
      have hk' : 0 < k := by
        by_contra hzero
        obtain rfl : k = 0 := by omega
        omega
      exact ih hk' (by omega)

/-- As many turns as make up its length pass every position, wherever they begin. -/
theorem passed_of_constant (k : ℕ) (hi : i < n) (h : n ≤ k * c) :
    Passed c p (List.replicate k n) i := by
  have hk : 0 < k := by
    by_contra hzero
    obtain rfl : k = 0 := by omega
    omega
  have hmod : p % n < n := Nat.mod_lt _ (by omega)
  have hsame (m : ℕ) (hm : m ∈ List.replicate k n) : m = n := List.eq_of_mem_replicate hm
  have hgrows : (List.replicate k n).Pairwise (· ≤ ·) :=
    List.pairwise_replicate.2 (Or.inr le_rfl)
  have hpassed : Passed c (p % n) (List.replicate k n) i := by
    rw [passed_iff hgrows (fun m hm => by rw [hsame m hm]; exact hmod)
      (fun m hm => by rw [hsame m hm]; exact hi), List.length_replicate,
      lengthAtEnd_replicate k hk (by omega)]
    by_cases hle : p % n ≤ i
    · exact Or.inl ⟨hle, by omega⟩
    · exact Or.inr ⟨n, rfl, by omega⟩
  obtain ⟨k, rfl⟩ := Nat.exists_eq_add_one_of_ne_zero hk.ne'
  rw [List.replicate_succ] at hpassed ⊢
  exact passed_mod.1 hpassed

end Rotation
