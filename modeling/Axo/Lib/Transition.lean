import Mathlib.Data.Option.Basic
import Mathlib.Data.Nat.Basic
import Mathlib.Order.Basic

/-!
# Transition systems given by a partial step function

A system is a function `step : σ → α → Option σ`: `step s a = some t` when the action `a` is
enabled in `s` and leads to `t`, `none` when it is not enabled.

* `run` executes a list of actions;
* `Reach step G s₀ s` says that `s` is reached from `s₀` by a run each of whose steps is taken
  in a state and with an action that meet the guard `G`; with the guard `Always` these are all
  the runs;
* `Reach.invariant` is the induction rule: what one guarded step preserves holds in every
  state reached;
* `Throughout P` and `EachStep G` speak of all the states and all the steps of one run, and
  `throughout_iff_eachStep` says when they agree;
* `Stops k s` says that no run from `s` takes `k` steps; `not_stops_of_progress` is the rule for
  runs that go on for ever.
-/

namespace Transition

variable {σ α : Type*} {step : σ → α → Option σ} {G H : σ → α → Prop} {s₀ s t : σ}

/-- The state after the actions, when each of them is enabled in turn. -/
def run (step : σ → α → Option σ) (s : σ) : List α → Option σ
  | [] => some s
  | a :: as => (step s a).bind fun t => run step t as

@[simp] theorem run_nil : run step s [] = some s := rfl

theorem run_cons (a : α) (as : List α) :
    run step s (a :: as) = (step s a).bind fun t => run step t as := rfl

theorem run_append (as bs : List α) :
    run step s (as ++ bs) = (run step s as).bind fun t => run step t bs := by
  induction as generalizing s with
  | nil => rfl
  | cons a as ih =>
    rw [List.cons_append, run_cons, run_cons, Option.bind_assoc]
    exact congrArg _ (funext fun t => ih)

/-- The guard that every step meets. -/
def Always : σ → α → Prop := fun _ _ => True

/-- The states reached from `s₀` by runs all of whose steps meet the guard. -/
inductive Reach (step : σ → α → Option σ) (G : σ → α → Prop) (s₀ : σ) : σ → Prop
  | refl : Reach step G s₀ s₀
  | tail {s t : σ} {a : α} :
      Reach step G s₀ s → G s a → step s a = some t → Reach step G s₀ t

/-- The invariant rule: what holds at the start and is preserved by each guarded step holds in
every state reached. -/
theorem Reach.invariant {I : σ → Prop} (h0 : I s₀)
    (hstep : ∀ s a t, I s → G s a → step s a = some t → I t) (h : Reach step G s₀ s) : I s := by
  induction h with
  | refl => exact h0
  | tail _ hg hs ih => exact hstep _ _ _ ih hg hs

theorem Reach.mono (hGH : ∀ s a, G s a → H s a) (h : Reach step G s₀ s) :
    Reach step H s₀ s := by
  induction h with
  | refl => exact .refl
  | tail _ hg hs ih => exact .tail ih (hGH _ _ hg) hs

theorem Reach.trans (h₁ : Reach step G s₀ s) (h₂ : Reach step G s t) : Reach step G s₀ t := by
  induction h₂ with
  | refl => exact h₁
  | tail _ hg hs ih => exact .tail ih hg hs

/-- Whatever a list of actions leads to is reached. -/
theorem reach_of_run {as : List α} (h : run step s as = some t) : Reach step Always s t := by
  induction as generalizing s with
  | nil =>
    cases h
    exact .refl
  | cons a as ih =>
    rw [run_cons] at h
    obtain ⟨u, hu, hrest⟩ := Option.bind_eq_some_iff.1 h
    exact (Reach.tail .refl trivial hu).trans (ih hrest)

/-- The step function cut down to the steps that meet the guard. -/
def guarded (step : σ → α → Option σ) (G : σ → α → Prop) [∀ s a, Decidable (G s a)] (s : σ)
    (a : α) : Option σ :=
  if G s a then step s a else none

/-- Whatever a list of guarded actions leads to is reached by guarded steps. -/
theorem reach_of_guarded_run [∀ s a, Decidable (G s a)] {as : List α}
    (h : run (guarded step G) s as = some t) : Reach step G s t := by
  have hreach := reach_of_run h
  clear h
  induction hreach with
  | refl => exact .refl
  | tail _ _ hs ih =>
    unfold guarded at hs
    split_ifs at hs with hg
    exact .tail ih hg hs

theorem guarded_eq_some [∀ s a, Decidable (G s a)] {a : α} :
    guarded step G s a = some t ↔ G s a ∧ step s a = some t := by
  unfold guarded
  split_ifs with hg
  · exact (and_iff_right hg).symm
  · exact ⟨False.elim, fun h => hg h.1⟩

/-- Where each action can be taken and keeps an invariant, so can a list of them. -/
theorem exists_run {I : σ → Prop} (hstep : ∀ s a, I s → ∃ t, step s a = some t ∧ I t) (hs : I s)
    (as : List α) : ∃ t, run step s as = some t ∧ I t := by
  induction as generalizing s with
  | nil => exact ⟨s, rfl, hs⟩
  | cons a as ih =>
    obtain ⟨u, hu, hinv⟩ := hstep s a hs
    obtain ⟨t, ht, htinv⟩ := ih hinv
    exact ⟨t, by rw [run_cons, hu, Option.bind_some, ht], htinv⟩

/-- A run of guarded actions is a run. -/
theorem run_of_guarded_run [∀ s a, Decidable (G s a)] {as : List α}
    (h : run (guarded step G) s as = some t) : run step s as = some t := by
  induction as generalizing s with
  | nil => exact h
  | cons a as ih =>
    rw [run_cons] at h ⊢
    obtain ⟨u, hu, hrest⟩ := Option.bind_eq_some_iff.1 h
    rw [(guarded_eq_some.1 hu).2]
    exact ih hrest

/-- A test passed where a list of actions leads to is passed in a state reached. -/
theorem exists_reach_of_run (step : σ → α → Option σ) (s : σ) (P : σ → Bool) (as : List α)
    (h : (run step s as).any P = true) :
    ∃ t, Reach step Always s t ∧ P t = true := by
  cases ht : run step s as with
  | none => simp [ht] at h
  | some t => exact ⟨t, reach_of_run ht, by simpa [ht] using h⟩

theorem exists_reach_of_guarded_run (step : σ → α → Option σ) (G : σ → α → Prop)
    [∀ s a, Decidable (G s a)] (s : σ) (P : σ → Bool) (as : List α)
    (h : (run (guarded step G) s as).any P = true) : ∃ t, Reach step G s t ∧ P t = true := by
  cases ht : run (guarded step G) s as with
  | none => simp [ht] at h
  | some t => exact ⟨t, reach_of_guarded_run ht, by simpa [ht] using h⟩

/-- Two lists of actions, one after the other: a test of where the first leads, and of both
states. -/
theorem exists_reach_reach_of_run (step : σ → α → Option σ) (s : σ) (P : σ → Bool)
    (Q : σ → σ → Bool) (as bs : List α)
    (h : ((run step s as).any fun t => P t && (run step t bs).any (Q t)) = true) :
    ∃ t u, Reach step Always s t ∧ Reach step Always t u ∧ P t = true ∧ Q t u = true := by
  obtain ⟨t, ht, htest⟩ := exists_reach_of_run step s _ as h
  obtain ⟨hP, hQ⟩ := Bool.and_eq_true_iff.1 htest
  obtain ⟨u, hu, hQu⟩ := exists_reach_of_run step t _ bs hQ
  exact ⟨t, u, ht, hu, hP, hQu⟩

theorem exists_reach_reach_of_guarded_run (step : σ → α → Option σ) (G : σ → α → Prop)
    [∀ s a, Decidable (G s a)] (s : σ) (P : σ → Bool) (Q : σ → σ → Bool) (as bs : List α)
    (h : ((run (guarded step G) s as).any fun t =>
      P t && (run (guarded step G) t bs).any (Q t)) = true) :
    ∃ t u, Reach step G s t ∧ Reach step G t u ∧ P t = true ∧ Q t u = true := by
  obtain ⟨t, ht, htest⟩ := exists_reach_of_guarded_run step G s _ as h
  obtain ⟨hP, hQ⟩ := Bool.and_eq_true_iff.1 htest
  obtain ⟨u, hu, hQu⟩ := exists_reach_of_guarded_run step G t _ bs hQ
  exact ⟨t, u, ht, hu, hP, hQu⟩

/-! ### Runs all of whose states have a property -/

/-- Every state of the run has the property. -/
def Throughout (step : σ → α → Option σ) (P : σ → Prop) (s : σ) : List α → Prop
  | [] => P s
  | a :: as => P s ∧ ∀ t, step s a = some t → Throughout step P t as

/-- Every step of the run meets the guard. -/
def EachStep (step : σ → α → Option σ) (G : σ → α → Prop) (s : σ) : List α → Prop
  | [] => True
  | a :: as => G s a ∧ ∀ t, step s a = some t → EachStep step G t as

theorem Throughout.head {P : σ → Prop} {as : List α} (h : Throughout step P s as) : P s := by
  cases as with
  | nil => exact h
  | cons a as => exact h.1

/-- The states of a run whose steps meet the guard are reached by such steps. -/
theorem EachStep.reach {as : List α} (h : EachStep step G s as) (hrun : run step s as = some t) :
    Reach step G s t := by
  induction as generalizing s with
  | nil =>
    cases hrun
    exact .refl
  | cons a as ih =>
    rw [run_cons] at hrun
    obtain ⟨u, hu, hrest⟩ := Option.bind_eq_some_iff.1 hrun
    exact (Reach.tail .refl h.1 hu).trans (ih (h.2 u hu) hrest)

/-- A guard that the actions meet in any state. -/
theorem eachStep_of_forall {as : List α} (h : ∀ a ∈ as, ∀ s, G s a) : EachStep step G s as := by
  induction as generalizing s with
  | nil => exact trivial
  | cons a as ih =>
    exact ⟨h a List.mem_cons_self s, fun t _ => ih fun b hb => h b (List.mem_cons_of_mem _ hb)⟩

theorem eachStep_of_guarded_run [∀ s a, Decidable (G s a)] {as : List α}
    (h : run (guarded step G) s as = some t) : EachStep step G s as := by
  induction as generalizing s with
  | nil => exact trivial
  | cons a as ih =>
    rw [run_cons] at h
    obtain ⟨u, hu, hrest⟩ := Option.bind_eq_some_iff.1 h
    obtain ⟨hguard, hstep⟩ := guarded_eq_some.1 hu
    refine ⟨hguard, fun v hv => ?_⟩
    obtain rfl := Option.some.inj (hstep.symm.trans hv)
    exact ih hrest

/-- A test passed where a list of guarded actions leads to is passed where the list leads to, and each
of its steps meets the guard. -/
theorem exists_eachStep_of_guarded_run (step : σ → α → Option σ) (G : σ → α → Prop)
    [∀ s a, Decidable (G s a)] (s : σ) (P : σ → Bool) (as : List α)
    (h : (run (guarded step G) s as).any P = true) :
    ∃ t, run step s as = some t ∧ EachStep step G s as ∧ P t = true := by
  cases ht : run (guarded step G) s as with
  | none => simp [ht] at h
  | some t =>
    exact ⟨t, run_of_guarded_run ht, eachStep_of_guarded_run ht, by simpa [ht] using h⟩

/-- A guard that is met by a run is met by its first part, and by what follows that. -/
theorem EachStep.append {as bs : List α} (h : EachStep step G s (as ++ bs))
    (hrun : run step s as = some t) : EachStep step G s as ∧ EachStep step G t bs := by
  induction as generalizing s with
  | nil =>
    cases hrun
    exact ⟨trivial, h⟩
  | cons a as ih =>
    rw [run_cons] at hrun
    obtain ⟨u, hu, hrest⟩ := Option.bind_eq_some_iff.1 hrun
    obtain ⟨hfirst, hlast⟩ := ih (h.2 u hu) hrest
    refine ⟨⟨h.1, fun v hv => ?_⟩, hlast⟩
    obtain rfl := Option.some.inj (hu.symm.trans hv)
    exact hfirst

/-- A property of all states is one of the first and of what each step leads to. -/
theorem throughout_iff {P : σ → Prop} {as : List α} (hrun : run step s as = some t) :
    Throughout step P s as ↔
      P s ∧ EachStep step (fun s a => ∀ t, step s a = some t → P t) s as := by
  induction as generalizing s with
  | nil => exact (and_iff_left trivial).symm
  | cons a as ih =>
    rw [run_cons] at hrun
    obtain ⟨u, hu, hrest⟩ := Option.bind_eq_some_iff.1 hrun
    have hnext (Q : σ → Prop) : (∀ v, step s a = some v → Q v) ↔ Q u :=
      ⟨fun h => h u hu, fun h v hv => Option.some.inj (hu.symm.trans hv) ▸ h⟩
    unfold Throughout EachStep
    rw [hnext, hnext, hnext, ih hrest]

theorem eachStep_and {as : List α} :
    EachStep step (fun s a => G s a ∧ H s a) s as ↔ EachStep step G s as ∧ EachStep step H s as := by
  induction as generalizing s with
  | nil => exact (and_iff_left trivial).symm
  | cons a as ih =>
    unfold EachStep
    simp only [ih]
    constructor
    · rintro ⟨⟨hG, hH⟩, hrest⟩
      exact ⟨⟨hG, fun t ht => (hrest t ht).1⟩, hH, fun t ht => (hrest t ht).2⟩
    · rintro ⟨⟨hG, hrestG⟩, hH, hrestH⟩
      exact ⟨⟨hG, hH⟩, fun t ht => ⟨hrestG t ht, hrestH t ht⟩⟩

/-- Two guards that agree where an invariant holds are met by the same runs, when steps that meet
them keep the invariant. -/
theorem eachStep_congr {I : σ → Prop} (hstep : ∀ s a t, I s → G s a → step s a = some t → I t)
    (hiff : ∀ s a t, I s → step s a = some t → (H s a ↔ G s a)) {as : List α} (h0 : I s)
    (hrun : run step s as = some t) : EachStep step H s as ↔ EachStep step G s as := by
  induction as generalizing s with
  | nil => exact Iff.rfl
  | cons a as ih =>
    rw [run_cons] at hrun
    obtain ⟨u, hu, hrest⟩ := Option.bind_eq_some_iff.1 hrun
    unfold EachStep
    rw [hiff s a u h0 hu]
    refine and_congr_right fun hguard => forall_congr' fun v => ?_
    refine imp_congr_right fun hv => ?_
    obtain rfl := Option.some.inj (hu.symm.trans hv)
    exact ih (hstep s a u h0 hguard hu) hrest

/-- When the guard is what a step needs to keep the property, the runs that have the property
throughout are those whose steps meet the guard. -/
theorem throughout_iff_eachStep {P I : σ → Prop} (hP : ∀ s, I s → P s)
    (hstep : ∀ s a t, I s → G s a → step s a = some t → I t)
    (hexact : ∀ s a t, I s → step s a = some t → P t → G s a) {as : List α} (h0 : I s)
    (hrun : run step s as = some t) : Throughout step P s as ↔ EachStep step G s as := by
  rw [throughout_iff hrun, and_iff_right (hP s h0)]
  refine eachStep_congr hstep (fun s a t hI ht => ?_) h0 hrun
  exact ⟨fun hnext => hexact s a t hI ht (hnext t ht),
    fun hguard u hu => hP u (hstep s a u hI hguard hu)⟩

/-! ### Runs that end -/

/-- No run from `s` takes `k` steps. -/
def Stops (step : σ → α → Option σ) (k : ℕ) (s : σ) : Prop :=
  ∀ as : List α, as.length = k → run step s as = none

theorem not_stops_zero (s : σ) : ¬ Stops step 0 s := fun h =>
  Option.some_ne_none s (h [] rfl)

/-- A run of `k + 1` steps is a first step and a run of `k`. -/
theorem stops_succ_iff {k : ℕ} :
    Stops step (k + 1) s ↔ ∀ a t, step s a = some t → Stops step k t := by
  constructor
  · intro h a t ht as hlen
    have hrun := h (a :: as) (by rw [List.length_cons, hlen])
    rwa [run_cons, ht, Option.bind_some] at hrun
  · intro h as hlen
    obtain ⟨a, as, rfl⟩ := List.exists_cons_of_length_eq_add_one hlen
    rw [run_cons]
    cases ht : step s a with
    | none => rfl
    | some t => exact h a t ht as (by simpa using hlen)

theorem Stops.succ {k : ℕ} (h : Stops step k s) : Stops step (k + 1) s := by
  induction k generalizing s with
  | zero => exact absurd h (not_stops_zero s)
  | succ k ih => exact stops_succ_iff.2 fun a t ht => ih (stops_succ_iff.1 h a t ht)

theorem Stops.mono {k n : ℕ} (hkn : k ≤ n) (h : Stops step k s) : Stops step n s := by
  induction n, hkn using Nat.le_induction with
  | base => exact h
  | succ n _ ih => exact ih.succ

/-- A state that no action leaves. -/
theorem stops_of_stuck (k : ℕ) (h : ∀ a, step s a = none) : Stops step (k + 1) s :=
  stops_succ_iff.2 fun a t ht => absurd (ht.symm.trans (h a)) (Option.some_ne_none t)

/-- A state that every action leaves for the same one. -/
theorem stops_succ_of_forced [Nonempty α] (k : ℕ) (h : ∀ a, step s a = some t) :
    Stops step (k + 1) s ↔ Stops step k t := by
  rw [stops_succ_iff]
  refine ⟨fun hall => Nonempty.elim ‹Nonempty α› fun a => hall a t (h a), fun ht a u hu => ?_⟩
  rw [h a] at hu
  exact Option.some.inj hu ▸ ht

/-- From a set of states in each of which some step leads back into the set, runs never end. -/
theorem not_stops_of_progress {I : σ → Prop}
    (hprogress : ∀ s, I s → ∃ a t, step s a = some t ∧ I t) (k : ℕ) (hs : I s) :
    ¬ Stops step k s := by
  induction k generalizing s with
  | zero => exact not_stops_zero s
  | succ k ih =>
    obtain ⟨a, t, ht, hIt⟩ := hprogress s hs
    exact fun h => ih hIt (stops_succ_iff.1 h a t ht)

end Transition
