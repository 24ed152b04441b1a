import Axo.Service.HandleLife

/-!
# Dead handles

When `CRASHED` and `DISMISSED` are final.

* `Final` is what may become of a handle that is dead, and `Heeds` what each write of a status has to
  find for that;
* `final_iff_heeds` is the one step, `Sound` the invariant that a container which has left the pool
  does not run;
* `staysFinal_iff` is the result for whole runs.
-/

namespace Axo

open Transition

/-! ### The writes -/

/-- What the thread that starts the container has to find. -/
def BootStage.Heeds (status : ContainerStatus) : BootStage → Prop
  | .launched | .answered => status.dead = false
  | .unlaunched | .overdue => status ≠ .dismissed
  | .building | .launching | .polling | .asking | .releasing | .done => True

/-- What a job on its way to the queue has to find. -/
def DispatchStage.Heeds (status : ContainerStatus) : DispatchStage → Prop
  | .marking => status.dead = false
  | .putting => status ≠ .dismissed
  | .placed | .claiming | .waiting | .failed | .ensuring | .looking | .creating => True

/-- What the pump thread has to find. -/
def PumpStage.Heeds (status : ContainerStatus) : PumpStage → Prop
  | .finishing => status.dead = false
  | .taken _ | .crashing _ => status ≠ .dismissed
  | _ => True

/-- What a call of `cancel` has to find. -/
def CancelStage.Heeds (status : ContainerStatus) : CancelStage → Prop
  | .found _ => status ≠ .dismissed
  | _ => True

instance (status : ContainerStatus) (stage : BootStage) : Decidable (stage.Heeds status) :=
  match stage with
  | .launched | .answered => inferInstanceAs (Decidable (_ = _))
  | .unlaunched | .overdue => inferInstanceAs (Decidable (_ ≠ _))
  | .building | .launching | .polling | .asking | .releasing | .done => isTrue trivial

instance (status : ContainerStatus) (stage : DispatchStage) : Decidable (stage.Heeds status) :=
  match stage with
  | .marking => inferInstanceAs (Decidable (_ = _))
  | .putting => inferInstanceAs (Decidable (_ ≠ _))
  | .placed | .claiming | .waiting | .failed | .ensuring | .looking | .creating => isTrue trivial

instance (status : ContainerStatus) (stage : PumpStage) : Decidable (stage.Heeds status) :=
  match stage with
  | .finishing => inferInstanceAs (Decidable (_ = _))
  | .taken _ | .crashing _ => inferInstanceAs (Decidable (_ ≠ _))
  | .starting | .creating | .looping | .getting _ | .inFlight _ | .completing _ | .dismissing .. |
    .settling _ | .emptying | .draining .. | .reporting _ | .leaving | .ended => isTrue trivial

instance (status : ContainerStatus) (stage : CancelStage) : Decidable (stage.Heeds status) :=
  match stage with
  | .found _ => inferInstanceAs (Decidable (_ ≠ _))
  | .checking _ | .dismissing .. | .settling _ | .emptying | .draining .. | .reporting _ |
    .looking _ | .rebuilding .. | .restoring .. => isTrue trivial

namespace HandleFields

/-- A dead handle stays as it is, but that a crashed one is dismissed; a dismissed one is given no
job, and none is queued for it or sent to it. -/
def Final (f f' : HandleFields) : Prop :=
  (f.status = .dismissed → f'.status = .dismissed) ∧
    (f.status = .crashed → f'.status = .crashed ∨ f'.status = .dismissed) ∧
    (f.status = .dismissed →
      f'.assigned = f.assigned ∧ f'.enqueued = f.enqueued ∧ f'.sent = f.sent)

variable {f g k : HandleFields}

theorem Final.refl (f : HandleFields) : Final f f := ⟨id, Or.inl, fun _ => ⟨rfl, rfl, rfl⟩⟩

theorem Final.trans (hfg : Final f g) (hgk : Final g k) : Final f k := by
  refine ⟨fun h => hgk.1 (hfg.1 h), fun h => ?_, fun h => ?_⟩
  · exact (hfg.2.1 h).elim hgk.2.1 fun hg => Or.inr (hgk.1 hg)
  · obtain ⟨hassigned, henqueued, hsent⟩ := hfg.2.2 h
    rw [← hassigned, ← henqueued, ← hsent]
    exact hgk.2.2 (hfg.1 h)

/-- What is written over the status, with the jobs left alone. -/
def SameJobs (f g : HandleFields) : Prop :=
  g.assigned = f.assigned ∧ g.enqueued = f.enqueued ∧ g.sent = f.sent

theorem final_iff_of_sameJobs (h : SameJobs f g) :
    Final f g ↔ (f.status = .dismissed → g.status = .dismissed) ∧
      (f.status = .crashed → g.status = .crashed ∨ g.status = .dismissed) :=
  ⟨fun hfinal => ⟨hfinal.1, hfinal.2.1⟩, fun hstatus => ⟨hstatus.1, hstatus.2, fun _ => h⟩⟩

theorem final_of_sameJobs (h : SameJobs f g) (hstatus : g.status = f.status) : Final f g :=
  (final_iff_of_sameJobs h).2 ⟨hstatus.trans, fun hf => Or.inl (hstatus.trans hf)⟩

theorem final_live_iff (h : SameJobs f g) (hlive : g.status.dead = false) :
    Final f g ↔ f.status.dead = false := by
  rw [final_iff_of_sameJobs h]
  cases hg : g.status <;> cases hf : f.status <;> simp_all [ContainerStatus.dead]

theorem final_crashed_iff (h : SameJobs f g) (hcrashed : g.status = .crashed) :
    Final f g ↔ f.status ≠ .dismissed := by
  rw [final_iff_of_sameJobs h, hcrashed]
  simp

theorem final_dismissed (h : SameJobs f g) (hdismissed : g.status = .dismissed) : Final f g :=
  (final_iff_of_sameJobs h).2 ⟨fun _ => hdismissed, fun _ => Or.inr hdismissed⟩

/-- One more job is given to the handle. -/
theorem final_given_iff {job : JobId} (hstatus : g.status = f.status)
    (hgiven : g.enqueued = f.enqueued ++ [job] ∨ g.sent = f.sent ++ [job]) :
    Final f g ↔ f.status ≠ .dismissed := by
  constructor
  · intro h hdismissed
    obtain ⟨-, henqueued, hsent⟩ := h.2.2 hdismissed
    rcases hgiven with hgiven | hgiven
    · simp [henqueued] at hgiven
    · simp [hsent] at hgiven
  · intro hlive
    exact ⟨hstatus.trans, fun hf => Or.inl (hstatus.trans hf), fun hf => absurd hf hlive⟩

/-! ### The threads -/

theorem pop_eq_some {queue : ℕ} {job : JobId} (h : f.pop queue = some (job, g)) :
    ∃ jobQueues, g = { f with jobQueues := jobQueues } := by
  unfold pop at h
  split at h
  · cases h
    exact ⟨_, rfl⟩
  · cases h

theorem final_pop {queue : ℕ} {job : JobId} (h : f.pop queue = some (job, g)) : Final f g := by
  obtain ⟨jobQueues, rfl⟩ := pop_eq_some h
  exact final_of_sameJobs ⟨rfl, rfl, rfl⟩ rfl

theorem final_bootStep (ok : Bool) (stage : BootStage) :
    Final f (f.bootStep ok stage).1 ↔ stage.Heeds f.status := by
  cases stage with
  | launched | answered => exact final_live_iff ⟨rfl, rfl, rfl⟩ rfl
  | unlaunched | overdue => exact final_crashed_iff ⟨rfl, rfl, rfl⟩ rfl
  | launching =>
    refine iff_of_true ?_ trivial
    unfold bootStep
    split_ifs <;> exact final_of_sameJobs ⟨rfl, rfl, rfl⟩ rfl
  | building | polling | asking | releasing | done =>
    exact iff_of_true (final_of_sameJobs ⟨rfl, rfl, rfl⟩ rfl) trivial

theorem final_dismissStep (ok : Bool) (stage : DismissStage) :
    Final f (f.dismissStep ok stage).1 := by
  cases stage with
  | marking => exact final_dismissed ⟨rfl, rfl, rfl⟩ rfl
  | stopping =>
    unfold dismissStep
    split_ifs <;> exact final_of_sameJobs ⟨rfl, rfl, rfl⟩ rfl
  | removing => exact final_of_sameJobs ⟨rfl, rfl, rfl⟩ rfl

theorem final_jobStep (t : JobThread) : Final f (f.jobStep t).1 ↔ t.stage.Heeds f.status := by
  obtain ⟨job, cold, stage⟩ := t
  cases stage with
  | marking => exact final_live_iff ⟨rfl, rfl, rfl⟩ rfl
  | putting => exact final_given_iff rfl (Or.inl rfl)
  | claiming =>
    refine iff_of_true ?_ trivial
    by_cases hdead : f.status.dead = true
    · exact final_of_sameJobs ⟨rfl, rfl, rfl⟩ (if_pos hdead)
    · refine (@final_live_iff f (f.jobStep ⟨job, cold, .claiming⟩).1 ⟨rfl, rfl, rfl⟩ ?_).2
        (by simpa using hdead)
      show (if f.status.dead = true then f.status else .busy : ContainerStatus).dead = false
      rw [if_neg hdead]
      rfl
  | placed | waiting | failed | ensuring | looking | creating =>
    exact iff_of_true (final_of_sameJobs ⟨rfl, rfl, rfl⟩ rfl) trivial

theorem final_pumpStep {stage : PumpStage} {p : ContainerStep} {r : HandleFields × PumpStage}
    (h : f.pumpStep stage p = some r) :
    Final f r.1 ↔ p = .fault .unsent ∨ stage.Heeds f.status := by
  cases stage with
  | finishing =>
    cases p <;> cases h
    rw [or_iff_right (by nofun)]
    exact final_live_iff ⟨rfl, rfl, rfl⟩ rfl
  | crashing job =>
    cases p <;> cases h
    rw [or_iff_right (by nofun)]
    exact final_crashed_iff ⟨rfl, rfl, rfl⟩ rfl
  | taken job =>
    cases p with
    | go =>
      cases h
      rw [or_iff_right (by nofun)]
      exact final_given_iff rfl (Or.inr rfl)
    | fault fault =>
      cases fault <;> cases h
      exact iff_of_true (final_of_sameJobs ⟨rfl, rfl, rfl⟩ rfl) (Or.inl rfl)
    | expire | result _ | io | crash | timeout | stopped _ => cases h
  | getting queue =>
    refine iff_of_true ?_ (Or.inr trivial)
    cases p with
    | go =>
      obtain ⟨⟨job, g⟩, hpop, rfl⟩ := Option.map_eq_some_iff.1 h
      exact final_pop hpop
    | expire =>
      simp only [pumpStep] at h
      split_ifs at h with hpop hbusy
      · cases h
        exact (@final_live_iff f { f with status := .idle } ⟨rfl, rfl, rfl⟩ rfl).2
          (by rw [hbusy]; rfl)
      · cases h
        exact Final.refl f
    | result _ | io | fault _ | crash | timeout | stopped _ => cases h
  | inFlight job =>
    refine iff_of_true ?_ (Or.inr trivial)
    cases p with
    | timeout =>
      simp only [pumpStep] at h
      split_ifs at h <;> cases h <;> exact Final.refl f
    | result _ | io | crash =>
      cases h
      exact final_of_sameJobs ⟨rfl, rfl, rfl⟩ rfl
    | fault fault =>
      cases fault <;> cases h <;> exact Final.refl f
    | go | expire | stopped _ => cases h
  | dismissing stage job =>
    cases p <;> cases h
    exact iff_of_true (final_dismissStep _ stage) (Or.inr trivial)
  | draining queue pending =>
    refine iff_of_true ?_ (Or.inr trivial)
    cases p with
    | go =>
      simp only [pumpStep] at h
      split at h
      · next hpop =>
        cases h
        exact final_pop hpop
      · cases h
        exact Final.refl f
    | expire | result _ | io | fault _ | crash | timeout | stopped _ => cases h
  | reporting pending =>
    cases pending <;> cases p <;> cases h <;>
      exact iff_of_true (final_of_sameJobs ⟨rfl, rfl, rfl⟩ rfl) (Or.inr trivial)
  | starting | creating | looping | completing _ | settling _ | emptying | leaving | ended =>
    cases p <;> cases h <;>
      exact iff_of_true (final_of_sameJobs ⟨rfl, rfl, rfl⟩ rfl) (Or.inr trivial)

theorem final_cancelStep (ok : Bool) (stage : CancelStage) :
    Final f (f.cancelStep ok stage).1 ↔ stage.Heeds f.status := by
  cases stage with
  | found job => exact final_crashed_iff ⟨rfl, rfl, rfl⟩ rfl
  | dismissing stage job => exact iff_of_true (final_dismissStep ok stage) trivial
  | draining queue pending =>
    refine iff_of_true ?_ trivial
    simp only [cancelStep]
    split
    · next hpop => exact final_pop hpop
    · exact Final.refl f
  | rebuilding queue job isFound remaining =>
    refine iff_of_true ?_ trivial
    simp only [cancelStep]
    split
    · next hpop => split_ifs <;> exact final_pop hpop
    · exact Final.refl f
  | restoring queue job isFound remaining =>
    cases remaining <;> exact iff_of_true (final_of_sameJobs ⟨rfl, rfl, rfl⟩ rfl) trivial
  | reporting pending =>
    cases pending <;> exact iff_of_true (final_of_sameJobs ⟨rfl, rfl, rfl⟩ rfl) trivial
  | checking _ | settling _ | emptying | looking _ =>
    exact iff_of_true (final_of_sameJobs ⟨rfl, rfl, rfl⟩ rfl) trivial

end HandleFields

/-! ### The handle -/

namespace HandleLife

variable {maxInvocations : ℕ} {h t : HandleLife}

/-- What a step has to find; a job that cannot be sent is not sent. -/
def Heeds (h : HandleLife) : HandleAct → Prop
  | .boot _ => h.boot.Heeds h.fields.status
  | .job thread _ => thread.stage.Heeds h.fields.status
  | .pump p => p = .fault .unsent ∨ h.pump.Heeds h.fields.status
  | .cancelStep stage _ => stage.Heeds h.fields.status
  | .assign .. | .select _ | .dismiss .. | .cancel _ => True

instance (h : HandleLife) (act : HandleAct) : Decidable (h.Heeds act) :=
  match act with
  | .boot _ => inferInstanceAs (Decidable (h.boot.Heeds h.fields.status))
  | .job thread _ => inferInstanceAs (Decidable (thread.stage.Heeds h.fields.status))
  | .pump p => inferInstanceAs (Decidable (p = .fault .unsent ∨ h.pump.Heeds h.fields.status))
  | .cancelStep stage _ => inferInstanceAs (Decidable (stage.Heeds h.fields.status))
  | .assign .. | .select _ | .dismiss .. | .cancel _ => isTrue trivial

/-- A step leaves a dead handle as it should exactly when it heeds the status. -/
theorem final_iff_heeds {act : HandleAct} (ht : step maxInvocations h act = some t) :
    h.fields.Final t.fields ↔ h.Heeds act := by
  cases act with
  | boot ok =>
    simp only [step, Option.ite_none_left_eq_some, Option.some.injEq] at ht
    obtain ⟨-, rfl⟩ := ht
    exact HandleFields.final_bootStep ok h.boot
  | job thread nameTaken =>
    simp only [step, Option.ite_none_right_eq_some, Option.some.injEq] at ht
    obtain ⟨-, rfl⟩ := ht
    exact HandleFields.final_jobStep thread
  | pump p =>
    obtain ⟨r, hr, rfl⟩ := Option.map_eq_some_iff.1 ht
    exact HandleFields.final_pumpStep hr
  | cancelStep stage ok =>
    simp only [step, Option.ite_none_right_eq_some, Option.some.injEq] at ht
    obtain ⟨-, rfl⟩ := ht
    exact HandleFields.final_cancelStep ok stage
  | dismiss stage ok =>
    simp only [step, Option.ite_none_right_eq_some, Option.some.injEq] at ht
    obtain ⟨-, rfl⟩ := ht
    exact iff_of_true (HandleFields.final_dismissStep ok stage) trivial
  | assign job asAvailable =>
    simp only [step, Option.ite_none_right_eq_some, Option.some.injEq] at ht
    obtain ⟨⟨⟨-, hlive⟩, -⟩, rfl⟩ := ht
    refine iff_of_true ⟨id, Or.inl, fun hdismissed => ?_⟩ trivial
    rw [hdismissed] at hlive
    cases hlive
  | select reason | cancel job =>
    simp only [step, Option.ite_none_right_eq_some, Option.some.injEq] at ht
    obtain ⟨-, rfl⟩ := ht
    exact iff_of_true (HandleFields.Final.refl _) trivial

end HandleLife

/-! ### Containers that are left running -/

/-- Where the call of `dismiss` is that the pump thread makes. -/
def PumpStage.dismissal? : PumpStage → Option DismissStage
  | .dismissing stage _ => some stage
  | _ => none

/-- Where the call of `dismiss` is that a call of `cancel` makes. -/
def CancelStage.dismissal? : CancelStage → Option DismissStage
  | .dismissing stage _ => some stage
  | _ => none

namespace HandleFields

variable {f g : HandleFields}

theorem inPool_dismissStep {d : DismissStage} (ok : Bool) (hd : d ≠ .removing) :
    (f.dismissStep ok d).1.inPool = f.inPool := by
  cases d with
  | marking => rfl
  | stopping =>
    unfold HandleFields.dismissStep
    split_ifs <;> rfl
  | removing => exact absurd rfl hd

theorem inPool_bootStep (f : HandleFields) (ok : Bool) (stage : BootStage) :
    (f.bootStep ok stage).1.inPool = f.inPool := by
  cases stage <;> try rfl
  unfold HandleFields.bootStep
  split_ifs <;> rfl

/-- The container is left alone. -/
def SameContainer (f g : HandleFields) : Prop :=
  g.running = f.running ∧ g.hasId = f.hasId ∧ g.inPool = f.inPool

theorem sameContainer_pop {queue : ℕ} {job : JobId} (h : f.pop queue = some (job, g)) :
    SameContainer f g := by
  obtain ⟨jobQueues, rfl⟩ := pop_eq_some h
  exact ⟨rfl, rfl, rfl⟩

theorem sameContainer_jobStep (thread : JobThread) : SameContainer f (f.jobStep thread).1 := by
  obtain ⟨job, cold, stage⟩ := thread
  cases stage <;> exact ⟨rfl, rfl, rfl⟩

/-- The pump thread leaves the container alone, but for its call of `dismiss`. -/
theorem container_pumpStep {stage : PumpStage} {p : ContainerStep} {r : HandleFields × PumpStage}
    (h : f.pumpStep stage p = some r) :
    (SameContainer f r.1 ∧ ∀ d, r.2.dismissal? = some d → d = .marking) ∨
      ∃ d job ok, stage = .dismissing d job ∧ r.1 = (f.dismissStep ok d).1 ∧
        r.2.dismissal? = (f.dismissStep ok d).2 := by
  cases stage with
  | dismissing d job =>
    cases p <;> cases h
    refine Or.inr ⟨d, job, _, rfl, rfl, ?_⟩
    cases (f.dismissStep _ d).2 <;> rfl
  | getting queue =>
    refine Or.inl ?_
    cases p with
    | go =>
      obtain ⟨⟨job, g⟩, hpop, rfl⟩ := Option.map_eq_some_iff.1 h
      exact ⟨sameContainer_pop hpop, fun d hd => by cases hd⟩
    | expire =>
      simp only [pumpStep, Option.ite_none_right_eq_some, Option.some.injEq] at h
      obtain ⟨-, rfl⟩ := h
      exact ⟨⟨rfl, rfl, rfl⟩, fun d hd => by cases hd⟩
    | result _ | io | fault _ | crash | timeout | stopped _ => cases h
  | inFlight job =>
    refine Or.inl ?_
    cases p with
    | timeout =>
      simp only [pumpStep, Option.ite_none_right_eq_some, Option.some.injEq] at h
      obtain ⟨-, rfl⟩ := h
      refine ⟨⟨rfl, rfl, rfl⟩, fun d hd => ?_⟩
      split_ifs at hd <;> cases hd
    | crash =>
      cases h
      refine ⟨⟨rfl, rfl, rfl⟩, fun d hd => ?_⟩
      dsimp only at hd
      split_ifs at hd <;> cases hd
    | result _ | io =>
      cases h
      exact ⟨⟨rfl, rfl, rfl⟩, fun d hd => by cases hd⟩
    | fault fault =>
      cases fault <;> cases h <;> exact ⟨⟨rfl, rfl, rfl⟩, fun d hd => by cases hd⟩
    | go | expire | stopped _ => cases h
  | draining queue pending =>
    refine Or.inl ?_
    cases p with
    | go =>
      simp only [pumpStep] at h
      split at h
      · next hpop =>
        cases h
        exact ⟨sameContainer_pop hpop, fun d hd => by cases hd⟩
      · cases h
        exact ⟨⟨rfl, rfl, rfl⟩, fun d hd => by cases hd⟩
    | expire | result _ | io | fault _ | crash | timeout | stopped _ => cases h
  | crashing job =>
    cases p <;> cases h
    exact Or.inl ⟨⟨rfl, rfl, rfl⟩, fun d hd => (Option.some.inj hd).symm⟩
  | starting | looping =>
    cases p <;> cases h
    refine Or.inl ⟨⟨rfl, rfl, rfl⟩, fun d hd => ?_⟩
    dsimp only at hd
    split_ifs at hd <;> cases hd
  | reporting pending =>
    cases pending <;> cases p <;> cases h <;>
      exact Or.inl ⟨⟨rfl, rfl, rfl⟩, fun d hd => by cases hd⟩
  | taken job =>
    cases p with
    | fault fault =>
      cases fault <;> cases h
      exact Or.inl ⟨⟨rfl, rfl, rfl⟩, fun d hd => by cases hd⟩
    | go =>
      cases h
      exact Or.inl ⟨⟨rfl, rfl, rfl⟩, fun d hd => by cases hd⟩
    | expire | result _ | io | crash | timeout | stopped _ => cases h
  | creating | completing _ | finishing | settling _ | emptying | leaving | ended =>
    cases p <;> cases h <;> exact Or.inl ⟨⟨rfl, rfl, rfl⟩, fun d hd => by cases hd⟩

/-- So does a call of `cancel`. -/
theorem container_cancelStep (ok : Bool) (stage : CancelStage) :
    (SameContainer f (f.cancelStep ok stage).1 ∧
        ∀ d, (f.cancelStep ok stage).2.bind CancelStage.dismissal? = some d → d = .marking) ∨
      ∃ d job, stage = .dismissing d job ∧
        (f.cancelStep ok stage).1 = (f.dismissStep ok d).1 ∧
        (f.cancelStep ok stage).2.bind CancelStage.dismissal? = (f.dismissStep ok d).2 := by
  cases stage with
  | dismissing d job =>
    refine Or.inr ⟨d, job, rfl, rfl, ?_⟩
    simp only [cancelStep, Option.bind_some]
    cases (f.dismissStep ok d).2 <;> rfl
  | found job => exact Or.inl ⟨⟨rfl, rfl, rfl⟩, fun d hd => (Option.some.inj hd).symm⟩
  | draining queue pending =>
    refine Or.inl ?_
    simp only [cancelStep]
    split
    · next hpop => exact ⟨sameContainer_pop hpop, fun d hd => by cases hd⟩
    · exact ⟨⟨rfl, rfl, rfl⟩, fun d hd => by cases hd⟩
  | rebuilding queue job isFound remaining =>
    refine Or.inl ?_
    simp only [cancelStep]
    split
    · next hpop =>
      split_ifs <;> exact ⟨sameContainer_pop hpop, fun d hd => by cases hd⟩
    · exact ⟨⟨rfl, rfl, rfl⟩, fun d hd => by cases hd⟩
  | restoring queue job isFound remaining =>
    refine Or.inl ?_
    cases remaining with
    | cons other remaining => exact ⟨⟨rfl, rfl, rfl⟩, fun d hd => by cases hd⟩
    | nil =>
      refine ⟨⟨rfl, rfl, rfl⟩, fun d hd => ?_⟩
      cases isFound <;> cases hd
  | checking job =>
    refine Or.inl ⟨⟨rfl, rfl, rfl⟩, fun d hd => ?_⟩
    simp only [cancelStep, Option.bind_some] at hd
    split_ifs at hd <;> cases hd
  | looking job =>
    refine Or.inl ⟨⟨rfl, rfl, rfl⟩, fun d hd => ?_⟩
    simp only [cancelStep] at hd
    split_ifs at hd <;> cases hd
  | reporting pending =>
    cases pending <;> exact Or.inl ⟨⟨rfl, rfl, rfl⟩, fun d hd => by cases hd⟩
  | settling _ | emptying => exact Or.inl ⟨⟨rfl, rfl, rfl⟩, fun d hd => by cases hd⟩

end HandleFields

namespace HandleLife

variable {maxInvocations : ℕ} {h t : HandleLife}

/-- Where the running calls of `dismiss` are. -/
def dismissing (h : HandleLife) : List DismissStage :=
  h.dismissals ++ h.pump.dismissal?.toList ++ h.cancels.filterMap CancelStage.dismissal?

/-- The handle is dismissed, and its container is stopped or has not been written down. -/
def Stopped (h : HandleLife) : Prop :=
  h.fields.status = .dismissed ∧ (h.fields.running = true → h.boot = .launched)

/-- What a call of `dismiss` has done. -/
def DismissSound (h : HandleLife) : DismissStage → Prop
  | .marking => True
  | .stopping => h.fields.status = .dismissed
  | .removing => h.Stopped

/-- The invariant. -/
structure Sound (h : HandleLife) : Prop where
  hasId : h.fields.running = true → h.fields.hasId = true ∨ h.boot = .launched
  dismissing : ∀ d ∈ h.dismissing, h.DismissSound d
  gone : h.fields.inPool = false → h.Stopped

/-- A dismissed handle that has left the pool, and whose start is over, has no running container. -/
def NotLeftRunning (h : HandleLife) : Prop :=
  h.fields.status = .dismissed → h.fields.inPool = false → h.boot = .done →
    h.fields.running = false

theorem Sound.notLeftRunning (H : Sound h) : h.NotLeftRunning := by
  intro _ hgone hdone
  have hstopped := (H.gone hgone).2
  rw [hdone] at hstopped
  cases hrunning : h.fields.running with
  | false => rfl
  | true => cases hstopped hrunning

theorem sound_start (maxDurationSeconds : ℤ) :
    Sound { fields := { maxDurationSeconds := maxDurationSeconds } } where
  hasId hrunning := by cases hrunning
  dismissing d hd := by cases hd
  gone hgone := by cases hgone

theorem DismissSound.mono {d : DismissStage} (hd : h.DismissSound d)
    (hstatus : h.fields.status = .dismissed → t.fields.status = .dismissed)
    (hstopped : h.Stopped → t.Stopped) : t.DismissSound d := by
  cases d with
  | marking => trivial
  | stopping => exact hstatus hd
  | removing => exact hstopped hd

/-- A step that leaves the container alone. -/
theorem Sound.of_same (H : Sound h) (hfinal : h.fields.Final t.fields)
    (hsame : h.fields.SameContainer t.fields) (hboot : t.boot = h.boot)
    (hdismissing : ∀ d ∈ t.dismissing, d ∈ h.dismissing ∨ d = .marking) : Sound t := by
  obtain ⟨hrunning, hid, hpool⟩ := hsame
  have hstopped : h.Stopped → t.Stopped := fun hs =>
    ⟨hfinal.1 hs.1, by rw [hrunning, hboot]; exact hs.2⟩
  refine ⟨by rw [hrunning, hid, hboot]; exact H.hasId, fun d hd => ?_, fun hgone => ?_⟩
  · rcases hdismissing d hd with hold | rfl
    · exact (H.dismissing d hold).mono hfinal.1 hstopped
    · trivial
  · exact hstopped (H.gone (hpool.symm.trans hgone))

/-- A step of a call of `dismiss`. -/
theorem Sound.of_dismiss (H : Sound h) (ok : Bool) {d : DismissStage} (hd : h.DismissSound d)
    (hfields : t.fields = (h.fields.dismissStep ok d).1) (hboot : t.boot = h.boot)
    (hdismissing : ∀ d' ∈ t.dismissing,
      d' ∈ h.dismissing ∨ (h.fields.dismissStep ok d).2 = some d') : Sound t := by
  have hfinal : h.fields.Final t.fields := by
    rw [hfields]
    exact HandleFields.final_dismissStep ok d
  -- the container may stop, and the handle leaves the pool only when it has
  have hstep : (t.fields.running = true → h.fields.running = true) ∧
      t.fields.hasId = h.fields.hasId ∧
      (t.fields.inPool = false → h.fields.inPool = true → d = .removing) ∧
      ∀ d', (h.fields.dismissStep ok d).2 = some d' → t.DismissSound d' := by
    cases d with
    | marking =>
      refine ⟨by rw [hfields]; exact id, by rw [hfields]; rfl, fun hgone hpool => ?_,
        fun d' hd' => ?_⟩
      · rw [hfields] at hgone
        exact absurd (hpool.symm.trans hgone) (by decide)
      · cases hd'
        show t.fields.status = .dismissed
        rw [hfields]
        rfl
    | stopping =>
      have hstatus : t.fields.status = .dismissed := hfinal.1 hd
      simp only [HandleFields.dismissStep] at hfields ⊢
      split_ifs at hfields ⊢ with hid hok
      · refine ⟨fun hrunning => ?_, by rw [hfields], fun hgone hpool => ?_, fun d' hd' => ?_⟩
        · rw [hfields] at hrunning
          cases hrunning
        · rw [hfields] at hgone
          exact absurd (hpool.symm.trans hgone) (by decide)
        · cases hd'
          refine ⟨hstatus, fun hrunning => ?_⟩
          rw [hfields] at hrunning
          cases hrunning
      · rw [hfields]
        exact ⟨id, rfl, fun hgone hpool => absurd (hpool.symm.trans hgone) (by decide),
          fun d' hd' => by cases hd'⟩
      · refine ⟨by rw [hfields]; exact id, by rw [hfields], fun hgone hpool => ?_, fun d' hd' => ?_⟩
        · rw [hfields] at hgone
          exact absurd (hpool.symm.trans hgone) (by decide)
        · cases hd'
          refine ⟨hstatus, fun hrunning => ?_⟩
          rw [hfields] at hrunning
          rw [hboot]
          exact (H.hasId hrunning).resolve_left hid
    | removing =>
      exact ⟨by rw [hfields]; exact id, by rw [hfields]; rfl, fun _ _ => rfl,
        fun d' hd' => by cases hd'⟩
  obtain ⟨hrunning, hid, hgone, hnext⟩ := hstep
  have hstopped : h.Stopped → t.Stopped := fun hs =>
    ⟨hfinal.1 hs.1, fun hr => hboot.trans (hs.2 (hrunning hr))⟩
  refine ⟨fun hr => ?_, fun d' hd' => ?_, fun hpool => ?_⟩
  · rw [hid, hboot]
    exact H.hasId (hrunning hr)
  · rcases hdismissing d' hd' with hold | hnew
    · exact (H.dismissing d' hold).mono hfinal.1 hstopped
    · exact hnext d' hnew
  · cases hbefore : h.fields.inPool with
    | false => exact hstopped (H.gone hbefore)
    | true =>
      obtain rfl := hgone hpool hbefore
      exact hstopped hd

/-- The thread that starts the container. -/
theorem Sound.bootStep (H : Sound h) (hheeds : h.boot.Heeds h.fields.status) (ok : Bool)
    (hfields : t.fields = (h.fields.bootStep ok h.boot).1)
    (hboot : t.boot = (h.fields.bootStep ok h.boot).2) (hdismissing : t.dismissing = h.dismissing) :
    Sound t := by
  have hfinal : h.fields.Final t.fields := by
    rw [hfields]
    exact (HandleFields.final_bootStep ok h.boot).2 hheeds
  have hpool : t.fields.inPool = h.fields.inPool := by
    rw [hfields]
    cases h.boot <;> try rfl
    unfold HandleFields.bootStep
    split_ifs <;> rfl
  have hstopped : h.Stopped → t.Stopped := by
    rintro ⟨hstatus, hrun⟩
    refine ⟨hfinal.1 hstatus, fun hrunning => ?_⟩
    rw [hfields] at hrunning
    rw [hboot]
    cases hstage : h.boot with
    | launched =>
      rw [hstage] at hheeds
      have hlive : h.fields.status.dead = false := hheeds
      rw [hstatus] at hlive
      cases hlive
    | launching =>
      rw [hstage] at hrunning hrun
      cases ok with
      | true => rfl
      | false => cases hrun hrunning
    | building | unlaunched | polling | asking | answered | overdue | releasing | done =>
      rw [hstage] at hrunning hrun
      cases hrun hrunning
  refine ⟨fun hrunning => ?_, fun d hd => ?_, fun hgone => hstopped (H.gone (hpool ▸ hgone))⟩
  · rw [hfields] at hrunning ⊢
    rw [hboot]
    have hid := H.hasId
    cases hstage : h.boot with
    | launched => exact Or.inl rfl
    | launching =>
      rw [hstage] at hrunning hid
      cases ok with
      | true => exact Or.inr rfl
      | false => exact Or.inl ((hid hrunning).resolve_right (by decide))
    | building | unlaunched | polling | asking | answered | overdue | releasing | done =>
      rw [hstage] at hrunning hid
      exact Or.inl ((hid hrunning).resolve_right (by decide))
  · rw [hdismissing] at hd
    exact (H.dismissing d hd).mono hfinal.1 hstopped

theorem mem_dismissing {d : DismissStage} :
    d ∈ h.dismissing ↔ d ∈ h.dismissals ∨ h.pump.dismissal? = some d ∨
      ∃ c ∈ h.cancels, c.dismissal? = some d := by
  simp only [dismissing, List.mem_append, Option.mem_toList, List.mem_filterMap, or_assoc]

/-- One step that heeds the status keeps the invariant. -/
theorem Sound.step (H : Sound h) {act : HandleAct} (hheeds : h.Heeds act)
    (ht : HandleLife.step maxInvocations h act = some t) : Sound t := by
  have hfinal := (final_iff_heeds ht).2 hheeds
  cases act with
  | boot ok =>
    simp only [HandleLife.step, Option.ite_none_left_eq_some, Option.some.injEq] at ht
    obtain ⟨-, rfl⟩ := ht
    exact H.bootStep hheeds ok rfl rfl rfl
  | assign job asAvailable =>
    simp only [HandleLife.step, Option.ite_none_right_eq_some, Option.some.injEq] at ht
    obtain ⟨-, rfl⟩ := ht
    exact H.of_same hfinal ⟨rfl, rfl, rfl⟩ rfl fun d hd => Or.inl hd
  | job thread nameTaken =>
    simp only [HandleLife.step, Option.ite_none_right_eq_some, Option.some.injEq] at ht
    obtain ⟨-, rfl⟩ := ht
    refine H.of_same hfinal (HandleFields.sameContainer_jobStep thread) rfl fun d hd => Or.inl ?_
    rw [mem_dismissing] at hd ⊢
    refine hd.imp_right (Or.imp_left fun hpump => ?_)
    simp only [ensurePump] at hpump
    split_ifs at hpump
    · cases hpump
    · exact hpump
  | pump p =>
    obtain ⟨r, hr, rfl⟩ := Option.map_eq_some_iff.1 ht
    rcases HandleFields.container_pumpStep hr with ⟨hsame, hmarking⟩ | ⟨d, job, ok, hstage, hfields, hnext⟩
    · refine H.of_same hfinal hsame rfl fun d hd => ?_
      rw [mem_dismissing] at hd ⊢
      rcases hd with hd | hd | hd
      · exact Or.inl (Or.inl hd)
      · exact Or.inr (hmarking d hd)
      · exact Or.inl (Or.inr (Or.inr hd))
    · have hd : d ∈ h.dismissing := mem_dismissing.2 (Or.inr (Or.inl (by rw [hstage]; rfl)))
      refine H.of_dismiss ok (H.dismissing d hd) hfields rfl fun d' hd' => ?_
      rw [mem_dismissing] at hd' ⊢
      rcases hd' with hd' | hd' | hd'
      · exact Or.inl (Or.inl hd')
      · exact Or.inr (hnext.symm.trans hd')
      · exact Or.inl (Or.inr (Or.inr hd'))
  | select reason =>
    simp only [HandleLife.step, Option.ite_none_right_eq_some, Option.some.injEq] at ht
    obtain ⟨-, rfl⟩ := ht
    refine H.of_same hfinal ⟨rfl, rfl, rfl⟩ rfl fun d hd => ?_
    rw [mem_dismissing, List.mem_cons] at hd
    rw [mem_dismissing]
    rcases hd with (hnew | hold) | hd
    · exact Or.inr hnew
    · exact Or.inl (Or.inl hold)
    · exact Or.inl (Or.inr hd)
  | dismiss d ok =>
    simp only [HandleLife.step, Option.ite_none_right_eq_some, Option.some.injEq] at ht
    obtain ⟨hmem, rfl⟩ := ht
    refine H.of_dismiss ok (H.dismissing d (mem_dismissing.2 (Or.inl hmem))) rfl rfl
      fun d' hd' => ?_
    rw [mem_dismissing, List.mem_append, Option.mem_toList] at hd'
    rw [mem_dismissing]
    rcases hd' with (hnew | hold) | hd'
    · exact Or.inr hnew
    · exact Or.inl (Or.inl (List.mem_of_mem_erase hold))
    · exact Or.inl (Or.inr hd')
  | cancel job =>
    simp only [HandleLife.step, Option.ite_none_right_eq_some, Option.some.injEq] at ht
    obtain ⟨-, rfl⟩ := ht
    refine H.of_same hfinal ⟨rfl, rfl, rfl⟩ rfl fun d hd => Or.inl ?_
    rw [mem_dismissing] at hd ⊢
    refine hd.imp_right (Or.imp_right ?_)
    rintro ⟨c, hc, hdismissal⟩
    rcases List.mem_cons.1 hc with rfl | hc
    · cases hdismissal
    · exact ⟨c, hc, hdismissal⟩
  | cancelStep stage ok =>
    simp only [HandleLife.step, Option.ite_none_right_eq_some, Option.some.injEq] at ht
    obtain ⟨hmem, rfl⟩ := ht
    rcases HandleFields.container_cancelStep ok stage with
      ⟨hsame, hmarking⟩ | ⟨d, job, rfl, hfields, hnext⟩
    · refine H.of_same hfinal hsame rfl fun d hd => ?_
      rw [mem_dismissing] at hd ⊢
      rcases hd with hd | hd | ⟨c, hc, hdismissal⟩
      · exact Or.inl (Or.inl hd)
      · exact Or.inl (Or.inr (Or.inl hd))
      · rcases List.mem_append.1 hc with hnew | hold
        · exact Or.inr (hmarking d
            (Option.bind_eq_some_iff.2 ⟨c, Option.mem_toList.1 hnew, hdismissal⟩))
        · exact Or.inl (Or.inr (Or.inr ⟨c, List.mem_of_mem_erase hold, hdismissal⟩))
    · have hd : d ∈ h.dismissing := mem_dismissing.2 (Or.inr (Or.inr ⟨_, hmem, rfl⟩))
      refine H.of_dismiss ok (H.dismissing d hd) hfields rfl fun d' hd' => ?_
      rw [mem_dismissing] at hd' ⊢
      rcases hd' with hd' | hd' | ⟨c, hc, hdismissal⟩
      · exact Or.inl (Or.inl hd')
      · exact Or.inl (Or.inr (Or.inl hd'))
      · rcases List.mem_append.1 hc with hnew | hold
        · exact Or.inr (hnext.symm.trans
            (Option.bind_eq_some_iff.2 ⟨c, Option.mem_toList.1 hnew, hdismissal⟩))
        · exact Or.inl (Or.inr (Or.inr ⟨c, List.mem_of_mem_erase hold, hdismissal⟩))

/-! ### Runs -/

/-- A handle that has just been reserved. -/
def reserved (maxDurationSeconds : ℤ) : HandleLife :=
  { fields := { maxDurationSeconds := maxDurationSeconds } }

/-- Between any two moments of the run what is dead stays dead, and at no moment is a container left
running. -/
def StaysFinal (maxInvocations : ℕ) (h : HandleLife) (acts : List HandleAct) : Prop :=
  ∀ before after later u v, acts = before ++ (after ++ later) →
    run (HandleLife.step maxInvocations) h before = some u →
      run (HandleLife.step maxInvocations) u after = some v →
        u.fields.Final v.fields ∧ v.NotLeftRunning

theorem final_of_reach (hreach : Reach (HandleLife.step maxInvocations) Heeds h t) :
    h.fields.Final t.fields :=
  Reach.invariant (I := fun u => h.fields.Final u.fields) (HandleFields.Final.refl _)
    (fun _ _ _ hfinal hheeds ht => hfinal.trans ((final_iff_heeds ht).2 hheeds)) hreach

theorem sound_of_reach (H : Sound h)
    (hreach : Reach (HandleLife.step maxInvocations) Heeds h t) : Sound t :=
  hreach.invariant H fun _ _ _ hsound hheeds ht => hsound.step hheeds ht

/-- In a run that keeps what is dead dead, each step heeds the status. -/
theorem eachStep_of_staysFinal {acts : List HandleAct}
    (hrun : run (HandleLife.step maxInvocations) h acts = some t)
    (hfinal : StaysFinal maxInvocations h acts) :
    EachStep (HandleLife.step maxInvocations) Heeds h acts := by
  induction acts generalizing h with
  | nil => trivial
  | cons act acts ih =>
    rw [run_cons] at hrun
    obtain ⟨u, hu, hrest⟩ := Option.bind_eq_some_iff.1 hrun
    have hone : run (HandleLife.step maxInvocations) h [act] = some u := by
      rw [run_cons, hu]
      rfl
    refine ⟨(final_iff_heeds hu).1 (hfinal [] [act] acts h u rfl rfl hone).1, fun v hv => ?_⟩
    obtain rfl := Option.some.inj (hu.symm.trans hv)
    refine ih hrest fun before after later w x hacts hw hx => ?_
    refine hfinal (act :: before) after later w x (by rw [hacts]; rfl) ?_ hx
    rw [run_cons, hu]
    exact hw

/-- A run keeps what is dead dead exactly when each of its steps heeds the status. -/
theorem staysFinal_iff (maxInvocations : ℕ) (maxDurationSeconds : ℤ) (acts : List HandleAct)
    {t : HandleLife}
    (hrun : run (HandleLife.step maxInvocations) (reserved maxDurationSeconds) acts = some t) :
    StaysFinal maxInvocations (reserved maxDurationSeconds) acts ↔
      EachStep (HandleLife.step maxInvocations) Heeds (reserved maxDurationSeconds) acts := by
  refine ⟨eachStep_of_staysFinal hrun, fun h before after later u v hacts hu hv => ?_⟩
  subst hacts
  obtain ⟨hbefore, hrest⟩ := h.append hu
  have hreach := (hrest.append hv).1.reach hv
  exact ⟨final_of_reach hreach, (sound_of_reach (sound_start maxDurationSeconds)
    ((hbefore.reach hu).trans hreach)).notLeftRunning⟩

/-! ### Two runs -/

/-- A container is started, and takes a job. -/
def firstJob : List HandleAct :=
  [.boot true, .boot true, .boot true, .boot true, .boot true, .boot true, .boot true,
    .assign "j" true, .job ⟨"j", false, .placed⟩ false, .job ⟨"j", false, .ensuring⟩ false,
    .job ⟨"j", false, .looking⟩ false, .job ⟨"j", false, .creating⟩ false,
    .job ⟨"j", false, .marking⟩ false, .job ⟨"j", false, .putting⟩ false,
    .pump .go, .pump .go, .pump .go, .pump .go]

/-- The job is done before the container is dismissed for its number of jobs. -/
def doneThenDismissed : List HandleAct :=
  firstJob ++ [.pump (.result true), .pump .go, .pump .go, .select .maxInvocations,
    .dismiss .marking true, .dismiss .stopping true, .dismiss .removing true, .pump .go, .pump .go]

theorem staysFinal_doneThenDismissed :
    StaysFinal 1 (reserved 0) doneThenDismissed ∧
      ∃ t, run (HandleLife.step 1) (reserved 0) doneThenDismissed = some t ∧
        t.fields.status = .dismissed ∧ t.fields.sent = ["j"] := by
  obtain ⟨t, ht, hmeets, hend⟩ := exists_eachStep_of_guarded_run (HandleLife.step 1) Heeds
    (reserved 0) (fun t => decide (t.fields.status = .dismissed ∧ t.fields.sent = ["j"]))
    doneThenDismissed (by decide +kernel)
  exact ⟨(staysFinal_iff 1 0 doneThenDismissed ht).2 hmeets, t, ht, of_decide_eq_true hend⟩

/-- The container is dismissed while it has the job, whose result then puts it back to `IDLE`. -/
theorem not_staysFinal_dismissedInFlight :
    ¬ ∀ acts, StaysFinal 1 (reserved 0) acts := by
  intro hall
  have htest : ((run (HandleLife.step 1) (reserved 0)
      (firstJob ++ [.select .maxInvocations, .dismiss .marking true])).any fun u =>
        decide (u.fields.status = .dismissed) &&
          (run (HandleLife.step 1) u [.pump (.result true), .pump .go, .pump .go]).any fun v =>
            decide (v.fields.status = .idle)) = true := by
    decide +kernel
  obtain ⟨u, hu, htest⟩ := (Option.any_eq_true _ _).1 htest
  obtain ⟨hdismissed, htest⟩ := Bool.and_eq_true_iff.1 htest
  obtain ⟨v, hv, hidle⟩ := (Option.any_eq_true _ _).1 htest
  have hfinal := (hall _ _ _ [] u v rfl hu hv).1.1 (of_decide_eq_true hdismissed)
  rw [of_decide_eq_true hidle] at hfinal
  cases hfinal

end HandleLife

end Axo
