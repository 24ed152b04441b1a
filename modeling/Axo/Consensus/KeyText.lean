import Axo.Consensus.Concurrency

/-!
# The text of a key

An id and a version are written as one text, with a colon between them, and read back by
splitting it.

* `intOfStr_repr`: `int` reads what `str` writes for an integer;
* `rpartition` is `text.rpartition(":")`, which splits at the last colon.
-/

namespace Axo

/-! ### The decimal form of an integer -/

theorem isDigit_of_mem_repr {n : ℕ} {c : Char} (hc : c ∈ n.repr.toList) : c.isDigit = true := by
  rw [Nat.toList_repr] at hc
  exact Nat.isDigit_of_mem_toDigits (by decide) (by decide) hc

theorem not_isSpace_of_isDigit {c : Char} (hc : c.isDigit = true) : isSpace c = false := by
  have hrange : 48 ≤ c.toNat ∧ c.toNat ≤ 57 := by
    simp only [Char.isDigit, Bool.and_eq_true, decide_eq_true_eq] at hc
    exact ⟨hc.1, hc.2⟩
  have hblank : c ≠ ' ' := by
    rintro rfl
    exact absurd hc (by decide)
  simp only [isSpace, hblank, decide_false, Bool.false_or, Bool.or_eq_false_iff,
    Bool.and_eq_false_iff, decide_eq_false_iff_not, List.mem_cons, List.not_mem_nil, or_false]
  omega

/-- Nothing is stripped from a text without blanks. -/
theorem strip_eq_self {cs : List Char} (h : ∀ c ∈ cs, isSpace c = false) : strip cs = cs := by
  have hdrop (l : List Char) (hl : ∀ c ∈ l, isSpace c = false) : l.dropWhile isSpace = l := by
    cases l with
    | nil => rfl
    | cons c l => exact List.dropWhile_cons_of_neg (by simp [hl c List.mem_cons_self])
  rw [strip, hdrop cs h, hdrop cs.reverse fun c hc => h c (List.mem_reverse.1 hc),
    List.reverse_reverse]

/-- Digits alone are read as they stand. -/
theorem decimal_digits {ds : List Char} {prev : Bool} {acc : ℕ} (h : ∀ c ∈ ds, c.isDigit = true)
    (hprev : prev = true ∨ ds ≠ []) : decimal prev acc ds = some (Nat.ofDigitChars 10 ds acc) := by
  induction ds generalizing prev acc with
  | nil =>
    obtain rfl : prev = true := hprev.resolve_right fun hnil => hnil rfl
    rfl
  | cons c ds ih =>
    have hc := h c List.mem_cons_self
    have hunderscore : c ≠ '_' := by
      rintro rfl
      exact absurd hc (by decide)
    have hvalue : digitValue c = some (c.toNat - 48) := if_pos hc
    have hstep : decimal prev acc (c :: ds) = decimal true (10 * acc + (c.toNat - 48)) ds := by
      rw [decimal.eq_3 prev acc c ds hunderscore, hvalue]
    rw [hstep, ih (fun d hd => h d (List.mem_cons_of_mem _ hd)) (Or.inl rfl)]
    rfl

theorem decimal_repr (n : ℕ) : decimal false 0 n.repr.toList = some n := by
  have hne : n.repr.toList ≠ [] := by
    rw [Nat.toList_repr]
    exact Nat.toDigits_ne_nil
  rw [decimal_digits (fun c hc => isDigit_of_mem_repr hc) (Or.inr hne), Nat.toList_repr,
    Nat.ofDigitChars_toDigits (by decide) (by decide)]

/-- `int(str(n))`. -/
theorem intOfStr_repr (n : ℤ) : intOfStr n.repr.toList = some n := by
  have hspace (n : ℕ) : ∀ c ∈ n.repr.toList, isSpace c = false := fun c hc =>
    not_isSpace_of_isDigit (isDigit_of_mem_repr hc)
  cases n with
  | ofNat n =>
    have hrepr : (Int.ofNat n).repr = n.repr := rfl
    rw [intOfStr, hrepr, strip_eq_self (hspace n)]
    split
    · rename_i digits htext
      exact absurd (isDigit_of_mem_repr (n := n) (c := '-') (by rw [htext]; simp)) (by decide)
    · rename_i digits htext
      exact absurd (isDigit_of_mem_repr (n := n) (c := '+') (by rw [htext]; simp)) (by decide)
    · rw [decimal_repr]
      rfl
  | negSucc n =>
    have hrepr : (Int.negSucc n).repr.toList = '-' :: (n + 1).repr.toList := by
      simp [Int.repr]
    have hminus : ∀ c ∈ '-' :: (n + 1).repr.toList, isSpace c = false := by
      rintro c (_ | ⟨_, hc⟩)
      · decide
      · exact hspace _ c hc
    rw [intOfStr, hrepr, strip_eq_self hminus]
    simp only [decimal_repr]
    rfl

theorem colon_notMem_repr (n : ℤ) : ':' ∉ n.repr.toList := by
  have hnat (n : ℕ) : ':' ∉ n.repr.toList := fun h =>
    absurd (isDigit_of_mem_repr h) (by decide)
  cases n with
  | ofNat n => exact hnat n
  | negSucc n =>
    simp only [Int.repr, String.toList_append, List.mem_append, not_or]
    exact ⟨by decide, hnat _⟩

/-! ### Partition -/

/-- `text.rpartition(":")`, without the separator. -/
def rpartition (text : String) : String × String :=
  if ':' ∈ text.toList then
    let tail := text.toList.reverse.takeWhile (· ≠ ':')
    (String.ofList (text.toList.take (text.toList.length - (tail.length + 1))),
      String.ofList tail.reverse)
  else ("", text)

/-- A text is split at the last colon. -/
theorem rpartition_append (head : String) {tail : String} (h : ':' ∉ tail.toList) :
    rpartition (head ++ ":" ++ tail) = (head, tail) := by
  have htail : (tail.toList.reverse ++ ':' :: head.toList.reverse).takeWhile (· ≠ ':') =
      tail.toList.reverse := by
    rw [List.takeWhile_append_of_pos (by
      intro c hc
      rw [List.mem_reverse] at hc
      simpa using fun hcs : c = ':' => h (hcs ▸ hc))]
    simp
  have htext : (head ++ ":" ++ tail).toList = head.toList ++ ':' :: tail.toList := by simp
  have hmem : ':' ∈ (head ++ ":" ++ tail).toList := by simp
  rw [rpartition, if_pos hmem, htext]
  have hreverse : (head.toList ++ ':' :: tail.toList).reverse =
      tail.toList.reverse ++ ':' :: head.toList.reverse := by simp
  rw [hreverse]
  simp only [htail, List.length_append, List.length_cons, List.length_reverse,
    List.reverse_reverse, String.ofList_toList, Prod.mk.injEq, and_true]
  rw [show head.toList.length + (tail.toList.length + 1) - (tail.toList.length + 1) =
    head.toList.length by omega, List.take_left', String.ofList_toList]
  rfl

example : rpartition "a:b:12" = ("a:b", "12") := by decide

end Axo
