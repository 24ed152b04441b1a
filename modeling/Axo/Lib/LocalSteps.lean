import Mathlib.Data.List.Basic
import Mathlib.Logic.Basic

/-!
# Steps that touch parts of a state

A state is looked at part by part, and each step touches some of the parts: it leaves the others
alone, and what it makes of its own depends on these only.

* `Local` says so of a step function;
* steps that share no part commute, and equal states are led to equal states: `Local.step_step`,
  `Local.foldl_congr`;
* `Local.foldl_eq_of_filter_eq`: two orders of steps in which the steps that touch a part come in the
  same order, for each part, lead to the same state.
-/

namespace LocalSteps

variable {σ ε κ : Type*} {δ : κ → Type*}

/-- What a step may do, where `view` is the look at one part. -/
structure Local (view : σ → ∀ k, δ k) (touches : ε → κ → Bool) (step : σ → ε → σ) : Prop where
  frame : ∀ s e k, touches e k = false → view (step s e) k = view s k
  depends : ∀ s t e, (∀ k, touches e k = true → view s k = view t k) →
    ∀ k, touches e k = true → view (step s e) k = view (step t e) k

/-- The steps share no part. -/
def Apart (touches : ε → κ → Bool) (a b : ε) : Prop :=
  ∀ k, touches a k = true → touches b k = false

theorem Apart.symm {touches : ε → κ → Bool} {a b : ε} (h : Apart touches a b) :
    Apart touches b a := fun k hb => by
  by_contra ha
  rw [h k (Bool.of_not_eq_false ha)] at hb
  cases hb

/-- The steps that touch a part. -/
def atPart (touches : ε → κ → Bool) (k : κ) (l : List ε) : List ε := l.filter fun e => touches e k

namespace Local

variable {view : σ → ∀ k, δ k} {touches : ε → κ → Bool} {step : σ → ε → σ} {s t : σ} {a b : ε}

/-- States that look the same look the same after a step. -/
theorem step_congr (h : Local view touches step) (hst : view s = view t) (e : ε) :
    view (step s e) = view (step t e) := by
  funext k
  by_cases hk : touches e k = true
  · exact h.depends s t e (fun j _ => congrFun hst j) k hk
  · have hk := Bool.of_not_eq_true hk
    rw [h.frame s e k hk, h.frame t e k hk, hst]

theorem foldl_congr (h : Local view touches step) (hst : view s = view t) (l : List ε) :
    view (l.foldl step s) = view (l.foldl step t) := by
  induction l generalizing s t with
  | nil => exact hst
  | cons e l ih => exact ih (h.step_congr hst e)

/-- Steps that share no part commute. -/
theorem step_step (h : Local view touches step) (hab : Apart touches a b) (s : σ) :
    view (step (step s a) b) = view (step (step s b) a) := by
  have hone : ∀ {a b : ε}, Apart touches a b → ∀ k, touches a k = true →
      view (step (step s a) b) k = view (step (step s b) a) k := by
    intro a b hab k ha
    have hsame : view (step (step s b) a) k = view (step s a) k :=
      h.depends _ _ a (fun j hj => h.frame s b j (hab j hj)) k ha
    rw [h.frame (step s a) b k (hab k ha), hsame]
  funext k
  by_cases ha : touches a k = true
  · exact hone hab k ha
  · by_cases hb : touches b k = true
    · exact (hone hab.symm k hb).symm
    · have ha := Bool.of_not_eq_true ha
      have hb := Bool.of_not_eq_true hb
      rw [h.frame _ b k hb, h.frame _ a k ha, h.frame _ a k ha, h.frame _ b k hb]

/-- A step that shares no part with those before it may come first. -/
theorem foldl_append_cons (h : Local view touches step) {before : List ε}
    (hbefore : ∀ b ∈ before, Apart touches b a) (after : List ε) (s : σ) :
    view ((before ++ a :: after).foldl step s) = view ((a :: (before ++ after)).foldl step s) := by
  induction before generalizing s with
  | nil => rfl
  | cons b before ih =>
    have hfirst : view (step (step s b) a) = view (step (step s a) b) :=
      h.step_step (hbefore b List.mem_cons_self) s
    calc view ((b :: before ++ a :: after).foldl step s)
        = view ((before ++ after).foldl step (step (step s b) a)) :=
          ih (fun c hc => hbefore c (List.mem_cons_of_mem b hc)) (step s b)
      _ = view ((before ++ after).foldl step (step (step s a) b)) := h.foldl_congr hfirst _

/-- The first of some steps comes, among others in the same order at each part, after steps with
which it shares no part. -/
theorem exists_append_cons (htouches : ∀ e, ∃ k, touches e k = true) {l l' : List ε}
    (hl : ∀ k, atPart touches k (a :: l) = atPart touches k l') :
    ∃ before after, l' = before ++ a :: after ∧ (∀ b ∈ before, Apart touches b a) ∧
      ∀ k, atPart touches k l = atPart touches k (before ++ after) := by
  obtain ⟨k₀, hk₀⟩ := htouches a
  have hfirst : ∀ k, touches a k = true → atPart touches k l' = a :: atPart touches k l := by
    intro k hk
    rw [← hl k]
    exact List.filter_cons_of_pos (p := fun e => touches e k) hk
  have hsplit : ∃ before after, l' = before ++ a :: after ∧ ∀ b ∈ before, touches b k₀ = false := by
    obtain ⟨before, after, rfl, hbefore, -, -⟩ := List.filter_eq_cons_iff.1 (hfirst k₀ hk₀)
    exact ⟨before, after, rfl, fun b hb => Bool.of_not_eq_true (hbefore b hb)⟩
  obtain ⟨before, after, rfl, hbefore⟩ := hsplit
  have hnotMem : a ∉ before := fun ha => by
    rw [hbefore a ha] at hk₀
    cases hk₀
  -- what comes before it at one of its parts would be the step itself
  have hapart : ∀ k, touches a k = true → atPart touches k before = [] := by
    intro k hk
    have heq := hfirst k hk
    unfold atPart at heq ⊢
    rw [List.filter_append] at heq
    rcases hnil : before.filter (fun e => touches e k) with - | ⟨b, rest⟩
    · rfl
    · rw [hnil, List.cons_append] at heq
      injection heq with hba
      have hmem : b ∈ before.filter fun e => touches e k := hnil ▸ List.mem_cons_self
      exact absurd (hba ▸ (List.mem_filter.1 hmem).1) hnotMem
  refine ⟨before, after, rfl, fun b hb k hbk => ?_, fun k => ?_⟩
  · by_contra hak
    have hmem : b ∈ atPart touches k before := List.mem_filter.2 ⟨hb, hbk⟩
    rw [hapart k (Bool.of_not_eq_false hak)] at hmem
    cases hmem
  · have heq := hl k
    unfold atPart at heq ⊢
    by_cases hk : touches a k = true
    · have hnil : before.filter (fun e => touches e k) = [] := hapart k hk
      rw [List.filter_append, List.filter_cons_of_pos (p := fun e => touches e k) hk,
        List.filter_cons_of_pos (p := fun e => touches e k) hk, hnil,
        List.nil_append] at heq
      rw [List.filter_append, hnil, List.nil_append]
      exact List.tail_eq_of_cons_eq heq
    · rwa [List.filter_append, List.filter_cons_of_neg (p := fun e => touches e k) hk,
        List.filter_cons_of_neg (p := fun e => touches e k) hk,
        ← List.filter_append] at heq

/-- The order of the steps at each part is all that matters. -/
theorem foldl_eq_of_filter_eq (h : Local view touches step)
    (htouches : ∀ e, ∃ k, touches e k = true) {l l' : List ε}
    (hl : ∀ k, atPart touches k l = atPart touches k l') (s : σ) :
    view (l.foldl step s) = view (l'.foldl step s) := by
  induction l generalizing l' s with
  | nil =>
    have hnil : l' = [] := by
      rcases l' with - | ⟨b, l'⟩
      · rfl
      · obtain ⟨k, hk⟩ := htouches b
        have := hl k
        unfold atPart at this
        rw [List.filter_nil, List.filter_cons_of_pos (p := fun e => touches e k) hk] at this
        cases this
    rw [hnil]
  | cons a l ih =>
    obtain ⟨before, after, rfl, hbefore, hrest⟩ := exists_append_cons htouches hl
    rw [h.foldl_append_cons hbefore]
    exact ih hrest (step s a)

end Local

end LocalSteps
