import Mathlib.Data.List.Dedup
import Mathlib.Tactic

/-!
# A log of which parts are read again

A reader goes through a log and falls back now and then: it reads entries again, maybe several
times, and stops in the middle of it.

* `Overridden` says of an aspect of the reader's state that an entry overrides, when it is read
  again, what it made of the state before; `overridden_of_writes` gives a simple case of that;
* `ReadsAlong` says how far a reader has come, with the falls back: `ReadsAlong.fallBack`,
  `ReadsAlong.next`;
* `Overridden.eq_of_readsAlong`: once a reader has come to everything again that it had read
  before, the aspect is as if it had read each entry once.
-/

namespace Replay

variable {S V E : Type*}

/-! ### What is done again -/

/-- An entry that comes again overrides what it did before, whatever came in between. -/
def Overrides (g : V → E → V) : Prop :=
  ∀ (e : E) (l : List E) (v : V), g (l.foldl g (g v e)) e = g (l.foldl g v) e

/-- An aspect of a state: what a step makes of it depends on it only, and is overridden when the
step is done again. -/
def Overridden (f : S → E → S) (aspect : S → V) : Prop :=
  ∃ g : V → E → V, (∀ s e, aspect (f s e) = g (aspect s) e) ∧ Overrides g

/-- A step gives the aspect a value that depends on nothing, or leaves it alone. -/
def Writes (f : S → E → S) (aspect : S → V) : Prop :=
  ∀ e, (∃ v, ∀ s, aspect (f s e) = v) ∨ ∀ s, aspect (f s e) = aspect s

variable {f : S → E → S} {aspect : S → V} {g : V → E → V} {l : List E}

/-- Of the readings of an entry the last one counts. -/
theorem Overrides.foldl_dedup [DecidableEq E] (h : Overrides g) (l : List E) (v : V) :
    l.dedup.foldl g v = l.foldl g v := by
  induction l generalizing v with
  | nil => rfl
  | cons e l ih =>
    by_cases hmem : e ∈ l
    · obtain ⟨before, after, rfl⟩ := List.append_of_mem hmem
      rw [List.dedup_cons_of_mem hmem, ih, List.foldl_cons, List.foldl_append, List.foldl_append,
        List.foldl_cons, List.foldl_cons, h]
    · rw [List.dedup_cons_of_notMem hmem, List.foldl_cons, List.foldl_cons, ih]

theorem overrides_of_writes (h : ∀ e, (∃ w, ∀ v, g v e = w) ∨ ∀ v, g v e = v) : Overrides g := by
  intro e l v
  rcases h e with ⟨w, hw⟩ | hkeep
  · rw [hw, hw]
  · rw [hkeep v]

/-- What is written or left alone is overridden. -/
theorem overridden_of_writes (h : Writes f aspect) : Overridden f aspect := by
  classical
  let g (v : V) (e : E) : V := if hw : ∃ w, ∀ s, aspect (f s e) = w then hw.choose else v
  refine ⟨g, fun s e => ?_, overrides_of_writes fun e => ?_⟩
  · by_cases hw : ∃ w, ∀ s, aspect (f s e) = w
    · simp only [g, dif_pos hw]
      exact hw.choose_spec s
    · simp only [g, dif_neg hw]
      exact (h e).resolve_left hw s
  · by_cases hw : ∃ w, ∀ s, aspect (f s e) = w
    · exact .inl ⟨hw.choose, fun v => dif_pos hw⟩
    · exact .inr fun v => dif_neg hw

theorem Overridden.foldl_dedup [DecidableEq E] (h : Overridden f aspect) (l : List E) (s : S) :
    aspect (l.dedup.foldl f s) = aspect (l.foldl f s) := by
  obtain ⟨g, hstep, hover⟩ := h
  have hfold (l : List E) : aspect (l.foldl f s) = l.foldl g (aspect s) :=
    (List.foldl_hom aspect fun s e => (hstep s e).symm).symm
  rw [hfold, hfold, hover.foldl_dedup]

/-! ### How far a reader has come -/

variable [DecidableEq E] {log read before after : List E} {e : E} {passed passed' : E → Bool}

theorem dedup_concat (l : List E) (e : E) :
    (l ++ [e]).dedup = (l.dedup.filter fun a => decide (a ≠ e)) ++ [e] := by
  induction l with
  | nil => simp
  | cons a l ih =>
    by_cases hmem : a ∈ l
    · rw [List.cons_append, List.dedup_cons_of_mem (List.mem_append_left _ hmem),
        List.dedup_cons_of_mem hmem, ih]
    · rw [List.dedup_cons_of_notMem hmem, List.cons_append]
      by_cases hae : a = e
      · subst hae
        rw [List.dedup_cons_of_mem (List.mem_append_right _ (List.mem_singleton_self a)), ih,
          List.filter_cons_of_neg (by simp)]
      · have hnot : a ∉ l ++ [e] := by simp [hmem, hae]
        rw [List.dedup_cons_of_notMem hnot, ih, List.filter_cons_of_pos (by simpa using hae),
          List.cons_append]

/-- A reader has passed these entries of the log: the last readings of them are in the order of the
log.  Of the entries that it has fallen back behind, there is nothing to say. -/
structure ReadsAlong (log read : List E) (passed : E → Bool) : Prop where
  mem : ∀ e ∈ read, e ∈ log
  last : read.dedup.filter passed = log.filter passed

namespace ReadsAlong

/-- A reader that has read nothing. -/
theorem start (hpassed : ∀ e, passed e = false) : ReadsAlong log [] passed := by
  refine ⟨fun e he => absurd he List.not_mem_nil, ?_⟩
  rw [List.dedup_nil, List.filter_nil]
  exact (List.filter_eq_nil_iff.2 fun e _ => by simp [hpassed e]).symm

/-- A reader falls back. -/
theorem fallBack (h : ReadsAlong log read passed)
    (hback : ∀ e, passed' e = true → passed e = true) : ReadsAlong log read passed' := by
  refine ⟨h.mem, ?_⟩
  have hboth (l : List E) : (l.filter passed).filter passed' = l.filter passed' := by
    rw [List.filter_filter]
    refine List.filter_congr fun e _ => ?_
    cases he : passed' e with
    | true => rw [hback e he, Bool.and_self]
    | false => rw [Bool.false_and]
  rw [← hboth, h.last, hboth]

/-- A reader goes on to the next entry. -/
theorem next (h : ReadsAlong log read passed) (hlog : log = before ++ e :: after)
    (hnodup : log.Nodup) (hnew : passed e = false) (hafter : ∀ a ∈ after, passed a = false)
    (hnext : ∀ a ∈ log, passed' a = (passed a || decide (a = e))) :
    ReadsAlong log (read ++ [e]) passed' := by
  have he : e ∈ log := hlog ▸ List.mem_append_right _ List.mem_cons_self
  have hpasses : passed' e = true := by simp [hnext e he]
  refine ⟨fun a ha => ?_, ?_⟩
  · rcases List.mem_append.1 ha with hold | hlast
    · exact h.mem a hold
    · exact List.mem_singleton.1 hlast ▸ he
  · have hread : (read.dedup.filter fun a => decide (a ≠ e)).filter passed' =
        read.dedup.filter passed := by
      rw [List.filter_filter]
      refine List.filter_congr fun a ha => ?_
      by_cases hae : a = e
      · simp [hae, hnew]
      · simp [hnext a (h.mem a (List.mem_dedup.1 ha)), hae]
    have hbefore : before.filter passed' = before.filter passed := by
      refine List.filter_congr fun a ha => ?_
      have hae : a ≠ e := fun heq => by
        rw [hlog] at hnodup
        exact (List.nodup_append.1 hnodup).2.2 a ha e List.mem_cons_self heq
      simp [hnext a (hlog ▸ List.mem_append_left _ ha), hae]
    have hrest : after.filter passed' = [] := by
      refine List.filter_eq_nil_iff.2 fun a ha => ?_
      have hae : a ≠ e := fun heq => by
        rw [hlog] at hnodup
        exact (List.nodup_cons.1 (List.nodup_append.1 hnodup).2.1).1 (heq ▸ ha)
      have hmem : a ∈ log := hlog ▸ List.mem_append_right _ (List.mem_cons_of_mem _ ha)
      simp [hnext a hmem, hafter a ha, hae]
    have hold : after.filter passed = [] :=
      List.filter_eq_nil_iff.2 fun a ha => by simp [hafter a ha]
    have hlast := h.last
    rw [hlog, List.filter_append, List.filter_cons_of_neg (by simp [hnew]), hold,
      List.append_nil] at hlast
    rw [dedup_concat, List.filter_append, hread, hlast, hlog, List.filter_append, hbefore,
      List.filter_cons_of_pos hpasses, List.filter_cons_of_pos hpasses, hrest, List.filter_nil]

/-- The log grows. -/
theorem grow (h : ReadsAlong log read passed) (hnew : ∀ a ∈ after, passed a = false) :
    ReadsAlong (log ++ after) read passed := by
  refine ⟨fun a ha => List.mem_append_left _ (h.mem a ha), ?_⟩
  have hnone : after.filter passed = [] :=
    List.filter_eq_nil_iff.2 fun a ha => by simp [hnew a ha]
  rw [List.filter_append, hnone, List.append_nil, h.last]

/-- A reader that has come to everything again that it had read before. -/
theorem dedup_eq (h : ReadsAlong log read passed) (hall : ∀ e ∈ read, passed e = true) :
    read.dedup = log.filter passed := by
  rw [← h.last]
  exact (List.filter_eq_self.2 fun e he => hall e (List.mem_dedup.1 he)).symm

end ReadsAlong

/-- Then it is as if each entry had been read once. -/
theorem Overridden.eq_of_readsAlong (h : Overridden f aspect) (hread : ReadsAlong log read passed)
    (hall : ∀ e ∈ read, passed e = true) (s : S) :
    aspect (read.foldl f s) = aspect ((log.filter passed).foldl f s) := by
  rw [← hread.dedup_eq hall, h.foldl_dedup]

end Replay
