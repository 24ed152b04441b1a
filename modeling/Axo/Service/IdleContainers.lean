import Axo.Service.DeadHandles
import Mathlib.Data.List.MinMax

/-!
# Idle containers

Whether a container that looks available has nothing to do: what `find_idle`, the first branch of
`summon` and `pool_summary` of `service/container/spawner.py` read off the statuses, against the
jobs that `invoke` was given the handles for.

* `HandlePool.step` is one step of a handle, or one call that looks at all of them;
* `HandleLife.Watchable` and `HandleLife.LeavesBusy` are the guard: when the handles may be looked at,
  and what the pump has to leave;
* `IdleSound` says where the jobs of a handle are, and `Covered` what the `BUSY` of a call that is on
  its way to the queue is worth: the invariant of a handle;
* `reallyIdle_of_reach` is the result for whole runs.
-/

namespace Axo

open Transition

namespace HandleFields

variable (f : HandleFields)

/-- Every job that was put into a queue is finished. -/
def Served : Prop := ∀ job ∈ f.enqueued, job ∈ f.settled

/-- Every job for which the handle was given is finished. -/
def Free : Prop := ∀ job ∈ f.assigned, job ∈ f.settled

/-- The jobs that are not finished of those for which the handle was given as available. -/
def reusedNow : List JobId := f.reused.filter fun job => job ∉ f.settled

instance : Decidable f.Served := inferInstanceAs (Decidable (∀ job ∈ f.enqueued, job ∈ f.settled))

instance : Decidable f.Free := inferInstanceAs (Decidable (∀ job ∈ f.assigned, job ∈ f.settled))

variable {f} {g k : HandleFields}

theorem available_iff :
    f.available = true ↔ f.status.dead = false ∧ f.status ≠ .busy ∧ f.status ≠ .starting := by
  unfold available
  simp only [Bool.and_eq_true, Bool.not_eq_true', decide_eq_true_eq, and_assoc]

/-- Whether a handle looks available is in its status. -/
theorem available_congr (h : g.status = f.status) : g.available = f.available := by
  unfold available
  rw [h]

theorem available_of_countsIdle (h : f.countsIdle = true) : f.available = true := by
  unfold countsIdle at h
  rw [Bool.or_eq_true, decide_eq_true_eq, decide_eq_true_eq] at h
  rw [available_iff]
  rcases h with h | h
  · rw [h]
    exact ⟨rfl, by decide, by decide⟩
  · rw [h]
    exact ⟨rfl, by decide, by decide⟩

/-! ### What the threads leave alone -/

/-- A step that gives no job and puts none, after which the handle looks available only if it did
before, or if every job put is finished. -/
structure Quiet (f g : HandleFields) : Prop where
  assigned : g.assigned = f.assigned
  reused : g.reused = f.reused
  enqueued : g.enqueued = f.enqueued
  isReady : g.isReady = f.isReady
  settled : f.settled ⊆ g.settled
  available : g.available = true → f.available = true ∨ f.Served

theorem Quiet.refl (f : HandleFields) : Quiet f f :=
  ⟨rfl, rfl, rfl, rfl, List.Subset.refl _, .inl⟩

/-- The status is set, to one that does not look available or when every job put is finished. -/
theorem quiet_status {status : ContainerStatus}
    (h : { f with status := status }.available = true → f.available = true ∨ f.Served) :
    Quiet f { f with status := status } :=
  ⟨rfl, rfl, rfl, rfl, List.Subset.refl _, h⟩

theorem quiet_settle (f : HandleFields) (job : JobId) : Quiet f (f.settle job) :=
  ⟨rfl, rfl, rfl, rfl, List.subset_append_left _ _, .inl⟩

theorem quiet_pop {queue : ℕ} {job : JobId} (h : f.pop queue = some (job, g)) : Quiet f g := by
  obtain ⟨jobQueues, rfl⟩ := pop_eq_some h
  exact ⟨rfl, rfl, rfl, rfl, List.Subset.refl _, .inl⟩

theorem quiet_dismissStep (ok : Bool) (stage : DismissStage) :
    Quiet f (f.dismissStep ok stage).1 := by
  cases stage with
  | marking => exact quiet_status fun h => by cases h
  | stopping =>
    simp only [dismissStep]
    split_ifs
    · exact ⟨rfl, rfl, rfl, rfl, List.Subset.refl _, .inl⟩
    · exact .refl f
    · exact .refl f
  | removing => exact ⟨rfl, rfl, rfl, rfl, List.Subset.refl _, .inl⟩

theorem quiet_cancelStep (ok : Bool) (stage : CancelStage) :
    Quiet f (f.cancelStep ok stage).1 := by
  cases stage with
  | checking job | emptying | looking job => exact .refl f
  | found job => exact quiet_status fun h => by cases h
  | dismissing stage job => exact quiet_dismissStep ok stage
  | settling job => exact quiet_settle f job
  | draining queue pending =>
    simp only [cancelStep]
    split
    · next hpop => exact quiet_pop hpop
    · exact .refl f
  | reporting pending =>
    cases pending with
    | nil => exact .refl f
    | cons job pending => exact quiet_settle f job
  | rebuilding queue job isFound remaining =>
    simp only [cancelStep]
    split
    · next hpop =>
      split_ifs
      · exact quiet_pop hpop
      · exact quiet_pop hpop
    · exact .refl f
  | restoring queue job isFound remaining =>
    cases remaining with
    | nil => exact .refl f
    | cons other remaining => exact ⟨rfl, rfl, rfl, rfl, List.Subset.refl _, .inl⟩

/-! ### Looking available -/

/-- A step that leaves what was written, and after which the handle looks available only if it did
before. -/
structure Dims (f g : HandleFields) : Prop where
  overwritten : g.overwritten = f.overwritten
  isReady : g.isReady = f.isReady
  available : g.available = true → f.available = true

theorem Dims.refl (f : HandleFields) : Dims f f := ⟨rfl, rfl, id⟩

theorem dims_pop {queue : ℕ} {job : JobId} (h : f.pop queue = some (job, g)) : Dims f g := by
  obtain ⟨jobQueues, rfl⟩ := pop_eq_some h
  exact ⟨rfl, rfl, id⟩

theorem dims_dismissStep (ok : Bool) (stage : DismissStage) :
    Dims f (f.dismissStep ok stage).1 := by
  cases stage with
  | marking => exact ⟨rfl, rfl, fun h => by cases h⟩
  | stopping =>
    simp only [dismissStep]
    split_ifs
    · exact ⟨rfl, rfl, id⟩
    · exact .refl f
    · exact .refl f
  | removing => exact ⟨rfl, rfl, id⟩

theorem dims_cancelStep (ok : Bool) (stage : CancelStage) :
    Dims f (f.cancelStep ok stage).1 := by
  cases stage with
  | checking job | emptying | looking job => exact .refl f
  | found job => exact ⟨rfl, rfl, fun h => by cases h⟩
  | dismissing stage job => exact dims_dismissStep ok stage
  | settling job => exact ⟨rfl, rfl, id⟩
  | draining queue pending =>
    simp only [cancelStep]
    split
    · next hpop => exact dims_pop hpop
    · exact .refl f
  | reporting pending =>
    cases pending with
    | nil => exact .refl f
    | cons job pending => exact ⟨rfl, rfl, id⟩
  | rebuilding queue job isFound remaining =>
    simp only [cancelStep]
    split
    · next hpop =>
      split_ifs
      · exact dims_pop hpop
      · exact dims_pop hpop
    · exact .refl f
  | restoring queue job isFound remaining =>
    cases remaining with
    | nil => exact .refl f
    | cons other remaining => exact ⟨rfl, rfl, id⟩

end HandleFields

/-! ### Steps that keep the status -/

/-- The pump writes `IDLE`. -/
def PumpStage.writesIdle (f : HandleFields) : PumpStage → ContainerStep → Bool
  | .finishing, .go => true
  | .getting _, .expire => f.status = .busy
  | _, _ => false

namespace HandleFields

variable {f : HandleFields}

theorem quiet_pumpStep {stage : PumpStage} {p : ContainerStep} {r : HandleFields × PumpStage}
    (hkeeps : stage.writesIdle f p = true → f.Served) (h : f.pumpStep stage p = some r) : Quiet f r.1 := by
  cases stage with
  | starting | creating | looping | emptying | leaving =>
    cases p <;> cases h
    exact ⟨rfl, rfl, rfl, rfl, List.Subset.refl _, .inl⟩
  | getting queue =>
    cases p with
    | go =>
      obtain ⟨⟨job, g⟩, hpop, rfl⟩ := Option.map_eq_some_iff.1 h
      exact quiet_pop hpop
    | expire =>
      simp only [pumpStep] at h
      split_ifs at h with hempty hbusy
      · cases h
        exact quiet_status fun _ => .inr (hkeeps (decide_eq_true hbusy))
      · cases h
        exact .refl f
    | _ => cases h
  | taken job =>
    cases p with
    | go =>
      cases h
      exact ⟨rfl, rfl, rfl, rfl, List.Subset.refl _, .inl⟩
    | fault fault =>
      cases fault <;> cases h
      exact ⟨rfl, rfl, rfl, rfl, List.Subset.refl _, .inl⟩
    | _ => cases h
  | inFlight job =>
    cases p with
    | result ok =>
      cases h
      exact ⟨rfl, rfl, rfl, rfl, List.Subset.refl _, .inl⟩
    | io | crash =>
      cases h
      exact .refl f
    | fault fault =>
      cases fault <;> cases h <;> exact .refl f
    | timeout =>
      simp only [pumpStep] at h
      split_ifs at h
      · cases h
        exact .refl f
      · cases h
        exact .refl f
    | _ => cases h
  | completing job =>
    cases p <;> cases h
    exact quiet_settle f job
  | finishing =>
    cases p with
    | go =>
      cases h
      exact quiet_status fun _ => .inr (hkeeps rfl)
    | _ => cases h
  | crashing job =>
    cases p <;> cases h
    exact quiet_status fun havailable => by cases havailable
  | dismissing stage job =>
    cases p <;> cases h
    exact quiet_dismissStep _ stage
  | settling job =>
    cases p <;> cases h
    exact quiet_settle f job
  | draining queue pending =>
    cases p with
    | go =>
      simp only [pumpStep] at h
      split at h
      · next hpop =>
        cases h
        exact quiet_pop hpop
      · cases h
        exact .refl f
    | _ => cases h
  | reporting pending =>
    cases pending with
    | nil =>
      cases p <;> cases h
      exact .refl f
    | cons job pending =>
      cases p <;> cases h
      exact quiet_settle f job
  | ended => cases p <;> cases h

/-- The pump leaves what was written, and the handle looks available after its step only if it did
before, or if it has written `IDLE`. -/
theorem dims_of_pumpStep {stage : PumpStage} {p : ContainerStep} {r : HandleFields × PumpStage}
    (h : f.pumpStep stage p = some r) :
    r.1.overwritten = f.overwritten ∧ (stage.writesIdle f p = false → Dims f r.1) := by
  cases stage with
  | starting | creating | looping | emptying | leaving =>
    cases p <;> cases h
    exact ⟨rfl, fun _ => ⟨rfl, rfl, id⟩⟩
  | getting queue =>
    cases p with
    | go =>
      obtain ⟨⟨job, g⟩, hpop, rfl⟩ := Option.map_eq_some_iff.1 h
      exact ⟨(dims_pop hpop).overwritten, fun _ => dims_pop hpop⟩
    | expire =>
      simp only [pumpStep] at h
      split_ifs at h with hempty hbusy
      · cases h
        exact ⟨rfl, fun hnot => absurd hbusy (of_decide_eq_false hnot)⟩
      · cases h
        exact ⟨rfl, fun _ => .refl f⟩
    | _ => cases h
  | taken job =>
    cases p with
    | go =>
      cases h
      exact ⟨rfl, fun _ => ⟨rfl, rfl, id⟩⟩
    | fault fault =>
      cases fault <;> cases h
      exact ⟨rfl, fun _ => ⟨rfl, rfl, id⟩⟩
    | _ => cases h
  | inFlight job =>
    cases p with
    | result ok =>
      cases h
      exact ⟨rfl, fun _ => ⟨rfl, rfl, id⟩⟩
    | io | crash =>
      cases h
      exact ⟨rfl, fun _ => .refl f⟩
    | fault fault =>
      cases fault <;> cases h <;> exact ⟨rfl, fun _ => .refl f⟩
    | timeout =>
      simp only [pumpStep] at h
      split_ifs at h
      · cases h
        exact ⟨rfl, fun _ => .refl f⟩
      · cases h
        exact ⟨rfl, fun _ => .refl f⟩
    | _ => cases h
  | completing job | settling job =>
    cases p <;> cases h
    exact ⟨rfl, fun _ => ⟨rfl, rfl, id⟩⟩
  | finishing =>
    cases p with
    | go =>
      cases h
      exact ⟨rfl, fun hnot => by cases hnot⟩
    | _ => cases h
  | crashing job =>
    cases p <;> cases h
    exact ⟨rfl, fun _ => ⟨rfl, rfl, fun havailable => by cases havailable⟩⟩
  | dismissing stage job =>
    cases p <;> cases h
    exact ⟨(dims_dismissStep _ stage).overwritten, fun _ => dims_dismissStep _ stage⟩
  | draining queue pending =>
    cases p with
    | go =>
      simp only [pumpStep] at h
      split at h
      · next hpop =>
        cases h
        exact ⟨(dims_pop hpop).overwritten, fun _ => dims_pop hpop⟩
      · cases h
        exact ⟨rfl, fun _ => .refl f⟩
    | _ => cases h
  | reporting pending =>
    cases pending with
    | nil =>
      cases p <;> cases h
      exact ⟨rfl, fun _ => .refl f⟩
    | cons job pending =>
      cases p <;> cases h
      exact ⟨rfl, fun _ => ⟨rfl, rfl, id⟩⟩
  | ended => cases p <;> cases h

end HandleFields

/-- `ready_event` has not been found set. -/
def DispatchStage.awaitsReady : DispatchStage → Bool
  | .placed | .claiming | .waiting | .failed => true
  | .ensuring | .looking | .creating | .marking | .putting => false

/-- The call has set the status to `BUSY`. -/
def JobThread.hasMarked (t : JobThread) : Bool := t.cold || decide (t.stage = .putting)

/-- The thread that starts the container has not set the status. -/
def BootStage.unwritten : BootStage → Bool
  | .building | .launching | .launched | .unlaunched => true
  | .polling | .asking | .answered | .overdue | .releasing | .done => false

/-- `invoke` is given the handle. -/
def HandleAct.isAssign : HandleAct → Bool
  | .assign _ _ => true
  | _ => false

namespace HandleLife

/-- The handle is given as available only when no call of `invoke` has it, the pump writes `IDLE` only
when every job that was put is finished, and a job is put only while the handle looks taken. -/
def KeepsBusy (h : HandleLife) : HandleAct → Prop
  | .assign _ asAvailable => asAvailable = true → h.jobs = []
  | .job t _ => t.stage = .putting → h.fields.available = false
  | .pump p => h.pump.writesIdle h.fields p = true → h.fields.Served
  | .boot _ | .select _ | .dismiss .. | .cancel _ | .cancelStep .. => True

/-- Where the jobs of a handle are, and what its status tells of those that were put. -/
structure IdleSound (h : HandleLife) : Prop where
  located : ∀ job ∈ h.fields.assigned,
    job ∈ h.fields.settled ∨ job ∈ h.fields.enqueued ∨ ∃ t ∈ h.jobs, t.job = job
  truthful : h.fields.available = true → h.fields.Served
  unready : h.fields.isReady = false →
    h.fields.enqueued = [] ∧ ∀ t ∈ h.jobs, t.stage.awaitsReady = true
  booting : h.boot ≠ .done → h.fields.isReady = false
  given : h.fields.reused ⊆ h.fields.assigned
  once : h.fields.reusedNow.length ≤ 1

variable {maxInvocations : ℕ} {h t : HandleLife}

theorem idleSound_reserved (maxDurationSeconds : ℤ) : IdleSound (reserved maxDurationSeconds) where
  located job hjob := by cases hjob
  truthful havailable := by cases havailable
  unready _ := ⟨rfl, fun t ht => by cases ht⟩
  booting _ := rfl
  given job hjob := by cases hjob
  once := Nat.zero_le 1

/-- A handle that looks available, and that no call of `invoke` has, is free. -/
theorem IdleSound.free (H : IdleSound h) (havailable : h.fields.available = true)
    (hjobs : h.jobs = []) : h.fields.Free := by
  intro job hjob
  rcases H.located job hjob with hsettled | henqueued | ⟨t, ht, -⟩
  · exact hsettled
  · exact H.truthful havailable job henqueued
  · rw [hjobs] at ht
    cases ht

/-- What remains of the jobs that were given as available does not grow as jobs are finished. -/
theorem reusedNow_le {f g : HandleFields} (hreused : g.reused = f.reused)
    (hsettled : f.settled ⊆ g.settled) : g.reusedNow.length ≤ f.reusedNow.length := by
  unfold HandleFields.reusedNow
  rw [hreused, ← List.countP_eq_length_filter, ← List.countP_eq_length_filter]
  refine List.countP_mono_left fun job _ hjob => ?_
  rw [decide_eq_true_eq] at hjob ⊢
  exact fun hmem => hjob (hsettled hmem)

theorem IdleSound.of_quiet (H : IdleSound h) (hquiet : h.fields.Quiet t.fields)
    (hjobs : t.jobs = h.jobs) (hboot : t.boot = h.boot) : IdleSound t where
  located job hjob := by
    rw [hquiet.assigned] at hjob
    rw [hquiet.enqueued, hjobs]
    exact (H.located job hjob).imp_left fun hsettled => hquiet.settled hsettled
  truthful havailable job hjob := by
    rw [hquiet.enqueued] at hjob
    refine hquiet.settled ?_
    rcases hquiet.available havailable with hbefore | hserved
    · exact H.truthful hbefore job hjob
    · exact hserved job hjob
  unready hready := by
    rw [hquiet.isReady] at hready
    rw [hquiet.enqueued, hjobs]
    exact H.unready hready
  booting hdone := by
    rw [hboot] at hdone
    rw [hquiet.isReady]
    exact H.booting hdone
  given := by
    rw [hquiet.reused, hquiet.assigned]
    exact H.given
  once := (reusedNow_le hquiet.reused hquiet.settled).trans H.once

/-- Before the handle is ready, no job has been put. -/
theorem IdleSound.served_of_booting (H : IdleSound h) (hboot : h.boot ≠ .done) : h.fields.Served := by
  intro job hjob
  rw [(H.unready (H.booting hboot)).1] at hjob
  cases hjob

theorem IdleSound.boot (H : IdleSound h) (hboot : h.boot ≠ .done) (ok : Bool) :
    IdleSound
      { h with
        fields := (h.fields.bootStep ok h.boot).1
        boot := (h.fields.bootStep ok h.boot).2 } := by
  have hserved := H.served_of_booting hboot
  have hready := H.booting hboot
  -- what sets no event
  have hquiet (g : HandleFields) (stage : BootStage) (hg : h.fields.Quiet g) :
      IdleSound { h with fields := g, boot := stage } := by
    have hsame : IdleSound { h with fields := g } := H.of_quiet hg rfl rfl
    exact ⟨hsame.located, hsame.truthful, hsame.unready, fun _ => hg.isReady.trans hready,
      hsame.given, hsame.once⟩
  cases hstage : h.boot with
  | building | polling | asking => exact hquiet _ _ (.refl _)
  | launching =>
    cases ok with
    | false => exact hquiet _ _ (.refl _)
    | true => exact hquiet _ _ ⟨rfl, rfl, rfl, rfl, List.Subset.refl _, .inl⟩
  | launched => exact hquiet _ _ ⟨rfl, rfl, rfl, rfl, List.Subset.refl _, fun _ => .inr hserved⟩
  | unlaunched | answered | overdue =>
    exact hquiet _ _ ⟨rfl, rfl, rfl, rfl, List.Subset.refl _, fun _ => .inr hserved⟩
  | releasing =>
    exact ⟨H.located, H.truthful, fun hunready => (by cases hunready),
      fun hdone => absurd rfl hdone, H.given, H.once⟩
  | done => exact absurd hstage hboot

/-- A thread goes on with its job, or the job is finished or put. -/
theorem jobStep_spec (f : HandleFields) (t : JobThread) :
    (∃ t', (f.jobStep t).2 = some t' ∧ t'.job = t.job) ∨
      (f.jobStep t).2 = none ∧
        (t.job ∈ (f.jobStep t).1.settled ∨ t.job ∈ (f.jobStep t).1.enqueued) := by
  unfold HandleFields.jobStep
  cases t.stage with
  | failed => exact .inr ⟨rfl, .inl (List.mem_append_right _ List.mem_cons_self)⟩
  | putting => exact .inr ⟨rfl, .inr (List.mem_append_right _ List.mem_cons_self)⟩
  | _ => exact .inl ⟨_, rfl, rfl⟩

/-- A thread that puts no job. -/
theorem quiet_jobStep {f : HandleFields} {thread : JobThread} (hstage : thread.stage ≠ .putting) :
    f.Quiet (f.jobStep thread).1 := by
  unfold HandleFields.jobStep
  cases hs : thread.stage with
  | placed | waiting | ensuring | looking => exact .refl f
  | claiming =>
    refine ⟨rfl, rfl, rfl, rfl, List.Subset.refl _, fun havailable => ?_⟩
    by_cases hdead : f.status.dead = true
    · rw [HandleFields.available_congr (if_pos hdead)] at havailable
      exact .inl havailable
    · rw [HandleFields.available_iff] at havailable
      exact absurd (if_neg hdead) havailable.2.1
  | failed => exact HandleFields.quiet_settle f thread.job
  | creating => exact ⟨rfl, rfl, rfl, rfl, List.Subset.refl _, .inl⟩
  | marking =>
    exact ⟨rfl, rfl, rfl, rfl, List.Subset.refl _, fun havailable => by cases havailable⟩
  | putting => exact absurd hs hstage

/-- Before the handle is ready, a thread waits. -/
theorem awaitsReady_jobStep {f : HandleFields} {thread : JobThread} (hready : f.isReady = false)
    (hstage : thread.stage.awaitsReady = true) :
    ∀ t ∈ (f.jobStep thread).2, t.stage.awaitsReady = true := by
  intro t ht
  have husable : ¬ (f.isReady = true ∧ f.status.dead = false) := fun h => by
    rw [hready] at h
    cases h.1
  unfold HandleFields.jobStep at ht
  cases hs : thread.stage with
  | placed | waiting =>
    simp only [hs, if_neg husable] at ht
    cases ht
    rfl
  | claiming =>
    simp only [hs] at ht
    cases ht
    rfl
  | failed =>
    simp only [hs] at ht
    cases ht
  | _ =>
    rw [hs] at hstage
    cases hstage

theorem IdleSound.jobStep (H : IdleSound h) {thread : JobThread} (hthread : thread ∈ h.jobs)
    (hkeeps : thread.stage = .putting → h.fields.available = false) (pump : PumpStage) :
    IdleSound
      { h with
        fields := (h.fields.jobStep thread).1
        jobs := (h.fields.jobStep thread).2.toList ++ h.jobs.erase thread
        pump := pump } := by
  by_cases hstage : thread.stage = .putting
  · -- the job is put while the handle looks taken
    have hput : h.fields.jobStep thread =
        ({ h.fields.push h.fields.jobQueue thread.job with
          enqueued := h.fields.enqueued ++ [thread.job] }, none) := by
      unfold HandleFields.jobStep
      rw [hstage]
    have hready : h.fields.isReady = true := by
      by_contra hready
      have hawaits := (H.unready (Bool.not_eq_true _ ▸ hready)).2 thread hthread
      rw [hstage] at hawaits
      cases hawaits
    rw [hput]
    refine ⟨fun job hjob => ?_, fun havailable => ?_, fun hunready => ?_, H.booting, H.given,
      H.once⟩
    · rcases H.located job hjob with hsettled | henqueued | ⟨u, hu, rfl⟩
      · exact .inl hsettled
      · exact .inr (.inl (List.mem_append_left _ henqueued))
      · by_cases hsame : u = thread
        · subst hsame
          exact .inr (.inl (List.mem_append_right _ List.mem_cons_self))
        · exact .inr (.inr ⟨u, (List.mem_erase_of_ne hsame).2 hu, rfl⟩)
    · exact absurd ((hkeeps hstage).symm.trans havailable) (by decide)
    · exact absurd (hunready.symm.trans hready) (by decide)
  · have hquiet := quiet_jobStep (f := h.fields) hstage
    refine ⟨fun job hjob => ?_, fun havailable job hjob => ?_, fun hunready => ?_, fun hdone => ?_,
      ?_, (reusedNow_le hquiet.reused hquiet.settled).trans H.once⟩
    · rw [hquiet.assigned] at hjob
      rw [hquiet.enqueued]
      rcases H.located job hjob with hsettled | henqueued | ⟨u, hu, rfl⟩
      · exact .inl (hquiet.settled hsettled)
      · exact .inr (.inl henqueued)
      · by_cases hsame : u = thread
        · subst hsame
          rcases jobStep_spec h.fields u with ⟨u', hu', hjob'⟩ | ⟨-, hend⟩
          · refine .inr (.inr ⟨u', List.mem_append_left _ ?_, hjob'⟩)
            rw [hu']
            exact List.mem_cons_self
          · rw [hquiet.enqueued] at hend
            exact hend.imp_right .inl
        · exact .inr (.inr ⟨u, List.mem_append_right _ ((List.mem_erase_of_ne hsame).2 hu), rfl⟩)
    · rw [hquiet.enqueued] at hjob
      rcases hquiet.available havailable with hbefore | hserved
      · exact hquiet.settled (H.truthful hbefore job hjob)
      · exact hquiet.settled (hserved job hjob)
    · rw [hquiet.isReady] at hunready
      obtain ⟨hempty, hawaits⟩ := H.unready hunready
      refine ⟨hquiet.enqueued.trans hempty, fun u hu => ?_⟩
      rcases List.mem_append.1 hu with hnew | hold
      · exact awaitsReady_jobStep hunready (hawaits thread hthread) u (Option.mem_toList.1 hnew)
      · exact hawaits u (List.mem_of_mem_erase hold)
    · exact hquiet.isReady.trans (H.booting hdone)
    · rw [hquiet.reused, hquiet.assigned]
      exact H.given

/-- The handle is given to a call of `invoke`. -/
theorem IdleSound.assign (H : IdleSound h) {job : JobId} {asAvailable : Bool}
    (hkeeps : asAvailable = true → h.jobs = [])
    (havailable : asAvailable = true → h.fields.available = true) :
    IdleSound
      { h with
        fields := { h.fields with
          assigned := h.fields.assigned ++ [job]
          reused := h.fields.reused ++ if asAvailable = true then [job] else [] }
        jobs := h.jobs ++ [⟨job, false, .placed⟩] } := by
  refine ⟨fun j hj => ?_, H.truthful, fun hunready => ?_, H.booting, ?_, ?_⟩
  · rcases List.mem_append.1 hj with hold | hnew
    · refine (H.located j hold).imp_right fun hrest => hrest.imp_right fun ⟨u, hu, heq⟩ => ?_
      exact ⟨u, List.mem_append_left _ hu, heq⟩
    · rw [List.mem_singleton.1 hnew]
      exact .inr (.inr ⟨_, List.mem_append_right _ List.mem_cons_self, rfl⟩)
  · obtain ⟨hempty, hawaits⟩ := H.unready hunready
    refine ⟨hempty, fun u hu => ?_⟩
    rcases List.mem_append.1 hu with hold | hnew
    · exact hawaits u hold
    · rw [List.mem_singleton.1 hnew]
      rfl
  · intro j hj
    rcases List.mem_append.1 hj with hold | hnew
    · exact List.mem_append_left _ (H.given hold)
    · refine List.mem_append_right _ ?_
      cases asAvailable with
      | false => cases hnew
      | true => exact hnew
  · cases asAvailable with
    | false =>
      refine le_trans (le_of_eq ?_) H.once
      unfold HandleFields.reusedNow
      dsimp only
      rw [if_neg (by decide), List.append_nil]
    | true =>
      have hfree := H.free (havailable rfl) (hkeeps rfl)
      unfold HandleFields.reusedNow
      dsimp only
      rw [if_pos rfl, List.filter_append,
        List.filter_eq_nil_iff.2 fun j hj => by simpa using hfree j (H.given hj), List.nil_append]
      exact List.length_filter_le _ _

theorem IdleSound.step (H : IdleSound h) {act : HandleAct} (hkeeps : h.KeepsBusy act)
    (hstep : HandleLife.step maxInvocations h act = some t) : IdleSound t := by
  cases act with
  | assign job asAvailable =>
    simp only [HandleLife.step, Option.ite_none_right_eq_some, Option.some.injEq] at hstep
    obtain ⟨⟨-, -, havailable⟩, rfl⟩ := hstep
    exact H.assign hkeeps havailable
  | boot ok =>
    simp only [HandleLife.step] at hstep
    split_ifs at hstep with hdone
    cases hstep
    exact H.boot hdone ok
  | job thread nameTaken =>
    simp only [HandleLife.step] at hstep
    split_ifs at hstep with hthread
    cases hstep
    exact H.jobStep hthread hkeeps _
  | pump p =>
    obtain ⟨r, hr, rfl⟩ := Option.map_eq_some_iff.1 hstep
    exact H.of_quiet (HandleFields.quiet_pumpStep hkeeps hr) rfl rfl
  | select reason =>
    simp only [HandleLife.step] at hstep
    split_ifs at hstep
    cases hstep
    exact H.of_quiet (.refl _) rfl rfl
  | dismiss stage ok =>
    simp only [HandleLife.step] at hstep
    split_ifs at hstep
    cases hstep
    exact H.of_quiet (HandleFields.quiet_dismissStep ok stage) rfl rfl
  | cancel job =>
    simp only [HandleLife.step] at hstep
    split_ifs at hstep
    cases hstep
    exact H.of_quiet (.refl _) rfl rfl
  | cancelStep stage ok =>
    simp only [HandleLife.step] at hstep
    split_ifs at hstep
    cases hstep
    exact H.of_quiet (HandleFields.quiet_cancelStep ok stage) rfl rfl

/-! ### When the status tells of jobs on their way -/

/-- Each call of `invoke` that is on its way to the queue has set the status to `BUSY`, and the thread
that starts the container has not set it since; or that thread has not set it at all. -/
def Watchable (h : HandleLife) : Prop :=
  h.boot.unwritten = true ∨ ∀ t ∈ h.jobs, t.hasMarked = true ∧ h.fields.overwritten = false

instance (h : HandleLife) : Decidable h.Watchable :=
  inferInstanceAs (Decidable (_ ∨ ∀ t ∈ h.jobs, _ ∧ _))

/-- The pump writes `IDLE` only when every job that was put is finished, and no call of `invoke` is
between the `BUSY` that it has set and the queue. -/
def LeavesBusy (h : HandleLife) : HandleAct → Prop
  | .pump p => h.pump.writesIdle h.fields p = true →
      h.fields.Served ∧ ∀ t ∈ h.jobs, t.hasMarked = false
  | _ => True

instance (h : HandleLife) : ∀ act, Decidable (h.LeavesBusy act)
  | .pump _ => inferInstanceAs (Decidable (_ → h.fields.Served ∧ ∀ t ∈ h.jobs, _))
  | .assign _ _ | .job _ _ | .boot _ | .select _ | .dismiss _ _ | .cancel _ | .cancelStep _ _ =>
    isTrue trivial

/-- The handle does not look available while it is reserved, nor after a `BUSY` that stands. -/
structure Covered (h : HandleLife) : Prop where
  marked : h.fields.overwritten = false → (∃ t ∈ h.jobs, t.hasMarked = true) →
    h.fields.available = false
  reserved : h.boot.unwritten = true → h.fields.available = false
  asleep : h.fields.isReady = false → h.pump = .ended
  putting : ∀ t ∈ h.jobs, t.stage = .putting → h.fields.overwritten = false

theorem covered_reserved (maxDurationSeconds : ℤ) : Covered (reserved maxDurationSeconds) where
  marked _ := fun ⟨t, ht, _⟩ => by cases ht
  reserved _ := rfl
  asleep _ := rfl
  putting t ht := by cases ht

/-- A handle that looks available while it may be looked at has no call of `invoke` on its way. -/
theorem Covered.jobs_eq_nil (C : Covered h) (hwatch : h.Watchable)
    (havailable : h.fields.available = true) : h.jobs = [] := by
  rcases hwatch with hunwritten | hmarked
  · exact absurd (havailable.symm.trans (C.reserved hunwritten)) (by decide)
  · by_contra hjobs
    obtain ⟨t, ht⟩ := List.exists_mem_of_ne_nil h.jobs hjobs
    obtain ⟨hmark, hstands⟩ := hmarked t ht
    exact absurd (havailable.symm.trans (C.marked hstands ⟨t, ht, hmark⟩)) (by decide)

/-- A job is put while the `BUSY` of its call stands. -/
theorem Covered.available_of_putting (C : Covered h) {thread : JobThread}
    (hthread : thread ∈ h.jobs) (hstage : thread.stage = .putting) :
    h.fields.available = false := by
  refine C.marked (C.putting thread hthread hstage) ⟨thread, hthread, ?_⟩
  rw [JobThread.hasMarked, hstage]
  exact Bool.or_true _

/-- Another thread leaves the jobs alone, and the handle does not begin to look available. -/
theorem Covered.of_dims (C : Covered h) (hdims : h.fields.Dims t.fields) (hjobs : t.jobs = h.jobs)
    (hboot : t.boot = h.boot) (hpump : h.fields.isReady = false → t.pump = .ended) :
    Covered t := by
  have hdark (hno : h.fields.available = false) : t.fields.available = false := by
    by_contra hyes
    exact absurd (hno.symm.trans (hdims.available (Bool.not_eq_false _ ▸ hyes))) (by decide)
  refine ⟨fun hstands hmark => ?_, fun hunwritten => ?_, fun hready => ?_, fun u hu hstage => ?_⟩
  · rw [hdims.overwritten] at hstands
    rw [hjobs] at hmark
    exact hdark (C.marked hstands hmark)
  · rw [hboot] at hunwritten
    exact hdark (C.reserved hunwritten)
  · exact hpump (hdims.isReady.symm.trans hready)
  · rw [hjobs] at hu
    exact hdims.overwritten.trans (C.putting u hu hstage)

theorem Covered.boot (C : Covered h) (H : IdleSound h) (hboot : h.boot ≠ .done) (ok : Bool) :
    Covered
      { h with
        fields := (h.fields.bootStep ok h.boot).1
        boot := (h.fields.bootStep ok h.boot).2 } := by
  have hready := H.booting hboot
  have hpump := C.asleep hready
  have hputting : ∀ t ∈ h.jobs, t.stage ≠ .putting := fun t ht hstage => by
    have hawaits := (H.unready hready).2 t ht
    rw [hstage] at hawaits
    cases hawaits
  -- the status is left, or set to `CRASHED`
  have hdims (g : HandleFields) (stage : BootStage) (hg : h.fields.Dims g)
      (hstage : stage.unwritten = true → h.boot.unwritten = true) :
      Covered { h with fields := g, boot := stage } := by
    have hsame : Covered { h with fields := g } := C.of_dims hg rfl rfl C.asleep
    exact ⟨hsame.marked, fun hunwritten => hsame.reserved (hstage hunwritten), hsame.asleep,
      hsame.putting⟩
  -- the status is set to one that looks available
  have hwritten (g : HandleFields) (stage : BootStage) (hover : g.overwritten = true)
      (hstage : stage.unwritten = false) : Covered { h with fields := g, boot := stage } :=
    ⟨fun hstands => absurd (hover.symm.trans hstands) (by decide),
      fun hunwritten => absurd (hstage.symm.trans hunwritten) (by decide), fun _ => hpump,
      fun t ht hput => absurd hput (hputting t ht)⟩
  cases hstage : h.boot with
  | building | launching => cases ok <;> exact hdims _ _ ⟨rfl, rfl, id⟩ fun _ => by rw [hstage]; rfl
  | launched | answered => exact hwritten _ _ rfl rfl
  | unlaunched | overdue => exact hdims _ _ ⟨rfl, rfl, fun h => by cases h⟩ fun h => by cases h
  | polling =>
    refine hdims _ _ (.refl _) fun hunwritten => ?_
    simp only [HandleFields.bootStep] at hunwritten
    split_ifs at hunwritten <;> cases hunwritten
  | asking => cases ok <;> exact hdims _ _ (.refl _) fun h => by cases h
  | releasing =>
    exact ⟨C.marked, fun hunwritten => (by cases hunwritten), fun hunready => (by cases hunready),
      C.putting⟩
  | done => exact absurd hstage hboot

/-- The call of `invoke` that goes on has marked the handle only if it had before, or if it has set
`BUSY` in this step. -/
theorem hasMarked_jobStep {f : HandleFields} {thread t : JobThread}
    (ht : (f.jobStep thread).2 = some t) (hmark : t.hasMarked = true) :
    thread.hasMarked = true ∨ (f.jobStep thread).1.available = false := by
  unfold HandleFields.jobStep at ht ⊢
  cases hs : thread.stage with
  | placed | waiting =>
    simp only [hs, Option.some.injEq] at ht
    subst ht
    refine .inl ?_
    simp only [JobThread.hasMarked] at hmark ⊢
    split_ifs at hmark <;> simpa [hs] using hmark
  | claiming =>
    refine .inr ?_
    simp only [HandleFields.available]
    by_cases hdead : f.status.dead = true
    · rw [if_pos hdead, hdead]
      rfl
    · rw [if_neg hdead]
      rfl
  | marking => exact .inr rfl
  | failed | putting => simp [hs] at ht
  | ensuring =>
    simp only [hs, Option.some.injEq] at ht
    subst ht
    exact .inl (by simpa [JobThread.hasMarked, hs] using hmark)
  | looking =>
    simp only [hs, Option.some.injEq] at ht
    subst ht
    refine .inl ?_
    simp only [JobThread.hasMarked] at hmark ⊢
    split_ifs at hmark <;> simpa [hs] using hmark
  | creating =>
    simp only [hs, Option.some.injEq] at ht
    subst ht
    exact .inl (by simpa [JobThread.hasMarked, hs] using hmark)

/-- `BUSY` stands, or what was written over it does. -/
theorem overwritten_jobStep (f : HandleFields) (thread : JobThread) :
    (f.jobStep thread).1.overwritten = f.overwritten ∨
      (f.jobStep thread).1.overwritten = false ∧ (f.jobStep thread).1.available = false := by
  unfold HandleFields.jobStep
  cases thread.stage with
  | claiming =>
    by_cases hdead : f.status.dead = true
    · exact .inl (if_pos hdead)
    · refine .inr ⟨if_neg hdead, ?_⟩
      simp only [HandleFields.available]
      rw [if_neg hdead]
      rfl
  | marking => exact .inr ⟨rfl, rfl⟩
  | _ => exact .inl rfl

theorem available_jobStep {f : HandleFields} {thread : JobThread} (hno : f.available = false) :
    (f.jobStep thread).1.available = false := by
  unfold HandleFields.jobStep
  cases thread.stage with
  | claiming =>
    simp only [HandleFields.available]
    by_cases hdead : f.status.dead = true
    · rw [if_pos hdead, hdead]
      rfl
    · rw [if_neg hdead]
      rfl
  | marking => rfl
  | _ => exact hno

theorem isReady_jobStep (f : HandleFields) (thread : JobThread) :
    (f.jobStep thread).1.isReady = f.isReady := by
  unfold HandleFields.jobStep
  cases thread.stage <;> rfl

/-- A call that is about to put its job has just set `BUSY`. -/
theorem overwritten_of_putting {f : HandleFields} {thread t : JobThread}
    (ht : (f.jobStep thread).2 = some t) (hstage : t.stage = .putting) :
    (f.jobStep thread).1.overwritten = false := by
  unfold HandleFields.jobStep at ht ⊢
  cases hs : thread.stage with
  | marking => rfl
  | failed | putting => simp [hs] at ht
  | placed | waiting | looking =>
    simp only [hs, Option.some.injEq] at ht
    subst ht
    dsimp only at hstage
    split_ifs at hstage
  | claiming | ensuring | creating =>
    simp only [hs, Option.some.injEq] at ht
    subst ht
    cases hstage

theorem Covered.jobStep (C : Covered h) (H : IdleSound h) {thread : JobThread}
    (hthread : thread ∈ h.jobs) (nameTaken : Bool) :
    Covered
      { h with
        fields := (h.fields.jobStep thread).1
        jobs := (h.fields.jobStep thread).2.toList ++ h.jobs.erase thread
        pump := h.ensurePump thread nameTaken } := by
  refine ⟨fun hstands ⟨u, hu, hmark⟩ => ?_, fun hunwritten => ?_, fun hready => ?_,
    fun u hu hstage => ?_⟩
  · have hbefore : (h.fields.jobStep thread).1.available = false ∨
        ∃ u ∈ h.jobs, u.hasMarked = true := by
      rcases List.mem_append.1 hu with hnew | hold
      · rcases hasMarked_jobStep (Option.mem_toList.1 hnew) hmark with hthread' | hno
        · exact .inr ⟨thread, hthread, hthread'⟩
        · exact .inl hno
      · exact .inr ⟨u, List.mem_of_mem_erase hold, hmark⟩
    rcases hbefore with hno | hexists
    · exact hno
    · rcases overwritten_jobStep h.fields thread with hsame | ⟨-, hno⟩
      · exact available_jobStep (C.marked (hsame.symm.trans hstands) hexists)
      · exact hno
  · exact available_jobStep (C.reserved hunwritten)
  · have hready' : h.fields.isReady = false := (isReady_jobStep ..).symm.trans hready
    have hstage : thread.stage ≠ .ensuring := fun hstage => by
      have hawaits := (H.unready hready').2 thread hthread
      rw [hstage] at hawaits
      cases hawaits
    show h.ensurePump thread nameTaken = .ended
    rw [ensurePump, if_neg fun hcond => hstage hcond.1]
    exact C.asleep hready'
  · rcases List.mem_append.1 hu with hnew | hold
    · exact overwritten_of_putting (Option.mem_toList.1 hnew) hstage
    · have hstands := C.putting u (List.mem_of_mem_erase hold) hstage
      rcases overwritten_jobStep h.fields thread with hsame | ⟨hstands', -⟩
      · exact hsame.trans hstands
      · exact hstands'

theorem Covered.pump (C : Covered h) (H : IdleSound h) {p : ContainerStep}
    {r : HandleFields × PumpStage} (hleaves : h.LeavesBusy (.pump p))
    (hr : h.fields.pumpStep h.pump p = some r) :
    Covered { h with fields := r.1, pump := r.2 } := by
  have hawake : h.fields.isReady = true := by
    by_contra hready
    rw [C.asleep (Bool.not_eq_true _ ▸ hready)] at hr
    cases p <;> cases hr
  cases hidle : h.pump.writesIdle h.fields p with
  | false =>
    exact C.of_dims ((HandleFields.dims_of_pumpStep hr).2 hidle) rfl rfl fun hready =>
      absurd (hready.symm.trans hawake) (by decide)
  | true =>
    obtain ⟨-, hnone⟩ := hleaves hidle
    have hquiet := HandleFields.quiet_pumpStep (fun _ => (hleaves hidle).1) hr
    have hover : r.1.overwritten = h.fields.overwritten := (HandleFields.dims_of_pumpStep hr).1
    refine ⟨fun _ ⟨t, ht, hmark⟩ => ?_, fun hunwritten => ?_, fun hready => ?_, fun t ht hstage => ?_⟩
    · exact absurd ((hnone t ht).symm.trans hmark) (by decide)
    · have hboot : h.boot ≠ .done := fun hdone => by
        replace hunwritten : h.boot.unwritten = true := hunwritten
        rw [hdone] at hunwritten
        cases hunwritten
      exact absurd ((H.booting hboot).symm.trans hawake) (by decide)
    · exact absurd ((hquiet.isReady.symm.trans hready).symm.trans hawake) (by decide)
    · exact hover.trans (C.putting t ht hstage)

theorem Covered.step (C : Covered h) (H : IdleSound h) {act : HandleAct}
    (hleaves : h.LeavesBusy act) (hstep : HandleLife.step maxInvocations h act = some t) :
    Covered t := by
  cases act with
  | assign job asAvailable =>
    simp only [HandleLife.step, Option.ite_none_right_eq_some, Option.some.injEq] at hstep
    obtain ⟨-, rfl⟩ := hstep
    have hold {u : JobThread} (hu : u ∈ h.jobs ++ [⟨job, false, .placed⟩])
        (hmark : u.hasMarked = true) : u ∈ h.jobs := by
      rcases List.mem_append.1 hu with hu | hu
      · exact hu
      · rw [List.mem_singleton.1 hu] at hmark
        cases hmark
    refine ⟨fun hstands hexists => ?_, C.reserved, C.asleep, fun u hu hstage => C.putting u
      (hold hu (by rw [JobThread.hasMarked, hstage]; exact Bool.or_true _)) hstage⟩
    obtain ⟨u, hu, hmark⟩ := hexists
    exact C.marked hstands ⟨u, hold hu hmark, hmark⟩
  | boot ok =>
    simp only [HandleLife.step] at hstep
    split_ifs at hstep with hdone
    cases hstep
    exact C.boot H hdone ok
  | job thread nameTaken =>
    simp only [HandleLife.step] at hstep
    split_ifs at hstep with hthread
    cases hstep
    exact C.jobStep H hthread nameTaken
  | pump p =>
    obtain ⟨r, hr, rfl⟩ := Option.map_eq_some_iff.1 hstep
    exact C.pump H hleaves hr
  | select reason =>
    simp only [HandleLife.step] at hstep
    split_ifs at hstep
    cases hstep
    exact C.of_dims (.refl _) rfl rfl C.asleep
  | dismiss stage ok =>
    simp only [HandleLife.step] at hstep
    split_ifs at hstep
    cases hstep
    exact C.of_dims (HandleFields.dims_dismissStep ok stage) rfl rfl C.asleep
  | cancel job =>
    simp only [HandleLife.step] at hstep
    split_ifs at hstep
    cases hstep
    exact C.of_dims (.refl _) rfl rfl C.asleep
  | cancelStep stage ok =>
    simp only [HandleLife.step] at hstep
    split_ifs at hstep
    cases hstep
    exact C.of_dims (HandleFields.dims_cancelStep ok stage) rfl rfl C.asleep

/-- What the pool's steps need of a handle. -/
theorem keepsBusy_of_leavesBusy (C : Covered h) {act : HandleAct} (hleaves : h.LeavesBusy act)
    (hassign : act.isAssign = false) (hstep : HandleLife.step maxInvocations h act = some t) :
    h.KeepsBusy act := by
  cases act with
  | assign job asAvailable => cases hassign
  | job thread nameTaken =>
    simp only [HandleLife.step] at hstep
    split_ifs at hstep with hthread
    exact fun hstage => C.available_of_putting hthread hstage
  | pump p => exact fun hidle => (hleaves hidle).1
  | boot | select | dismiss | cancel | cancelStep => trivial

end HandleLife

/-! ### The handles of an endpoint -/

/-- A handle with its function and version. -/
structure PoolMember where
  functionId : String
  version : ℤ
  life : HandleLife

/-- The handles, in the order in which they were reserved. -/
abbrev HandlePool := List PoolMember

/-- The steps. -/
inductive PoolAct
  /-- `find_idle`, or the first branch of `summon`, finds a handle for a call of `invoke` -/
  | reuse (functionId : String) (version : ℤ) (job : JobId)
  /-- `summon` or `summon_at` reserves a handle for it -/
  | grow (functionId : String) (version maxDurationSeconds : ℤ) (job : JobId)
  /-- the last branch of `summon`, or `least_busy`, picks a handle for it -/
  | queueUp (functionId : String) (version : ℤ) (job : JobId)
  | poolSummary
  /-- a thread of a handle goes on -/
  | thread (i : ℕ) (act : HandleAct)

namespace HandlePool

variable (maxInvocations : ℕ) (s : HandlePool)

/-- The live handles of a version, with their positions. -/
def live (functionId : String) (version : ℤ) : List (PoolMember × ℕ) :=
  s.zipIdx.filter fun e =>
    decide (e.1.functionId = functionId ∧ e.1.version = version) &&
      (e.1.life.fields.inPool && !e.1.life.fields.status.dead)

/-- `find_idle`. -/
def findIdle (functionId : String) (version : ℤ) : Option (PoolMember × ℕ) :=
  (s.live functionId version).find? fun e => e.1.life.fields.available

/-- `least_busy`. -/
def leastBusy (functionId : String) (version : ℤ) : Option (PoolMember × ℕ) :=
  (s.live functionId version).argmin fun e => e.1.life.fields.invocationCount

/-- The handles that `pool_summary` counts as idle. -/
def idle : List PoolMember :=
  s.filter fun m => m.life.fields.inPool && m.life.fields.countsIdle

/-- A step of one handle. -/
def perform (i : ℕ) (act : HandleAct) : Option HandlePool :=
  s[i]?.bind fun m =>
    (m.life.step maxInvocations act).map fun life => s.set i { m with life := life }

/-- One step. -/
def step : PoolAct → Option HandlePool
  | .reuse functionId version job =>
    (s.findIdle functionId version).bind fun e => s.perform maxInvocations e.2 (.assign job true)
  | .grow functionId version maxDurationSeconds job =>
    ((HandleLife.reserved maxDurationSeconds).step maxInvocations (.assign job false)).map
      fun life => s ++ [⟨functionId, version, life⟩]
  | .queueUp functionId version job =>
    (s.leastBusy functionId version).bind fun e => s.perform maxInvocations e.2 (.assign job false)
  | .poolSummary => some s
  | .thread i act => if act.isAssign = true then none else s.perform maxInvocations i act

/-- What is reported as available is free. -/
def ReportsRight : PoolAct → Prop
  | .reuse functionId version _ => ∀ e ∈ s.findIdle functionId version, e.1.life.fields.Free
  | .poolSummary => ∀ m ∈ s.idle, m.life.fields.Free
  | .grow .. | .queueUp .. | .thread .. => True

/-- No two jobs that are not finished were both given the same handle as available. -/
def GivenOnce : Prop := ∀ m ∈ s, m.life.fields.reusedNow.length ≤ 1

/-- The handles are looked at while every call of `invoke` that is on its way to one of them has set it
to `BUSY` and this stands, and the pump leaves it. -/
def Guard : PoolAct → Prop
  | .reuse functionId version _ => ∀ m ∈ s, m.functionId = functionId ∧ m.version = version →
      m.life.fields.inPool = true → m.life.Watchable
  | .poolSummary => ∀ m ∈ s, m.life.fields.inPool = true → m.life.Watchable
  | .thread i act => ∀ m ∈ s[i]?, m.life.LeavesBusy act
  | .grow .. | .queueUp .. => True

variable {maxInvocations s} {t : HandlePool}

theorem mem_of_live {functionId : String} {version : ℤ} {e : PoolMember × ℕ}
    (h : e ∈ s.live functionId version) : s[e.2]? = some e.1 :=
  List.mem_zipIdx_iff_getElem?.1 (List.mem_of_mem_filter h)

theorem mem_of_findIdle {functionId : String} {version : ℤ} {e : PoolMember × ℕ}
    (h : s.findIdle functionId version = some e) :
    s[e.2]? = some e.1 ∧ e.1.life.fields.available = true :=
  ⟨mem_of_live (List.mem_of_find?_eq_some h), (List.find?_eq_some_iff_append.1 h).1⟩

theorem of_mem_live {functionId : String} {version : ℤ} {e : PoolMember × ℕ}
    (h : e ∈ s.live functionId version) :
    (e.1.functionId = functionId ∧ e.1.version = version) ∧ e.1.life.fields.inPool = true := by
  have hcond := List.of_mem_filter h
  simp only [Bool.and_eq_true, decide_eq_true_eq] at hcond
  exact ⟨hcond.1, hcond.2.1⟩

/-- What `find_idle` finds while it may look has no call of `invoke` on its way. -/
theorem jobs_of_findIdle (H : ∀ m ∈ s, m.life.IdleSound ∧ m.life.Covered) {functionId : String}
    {version : ℤ} {job : JobId} {e : PoolMember × ℕ} (hguard : s.Guard (.reuse functionId version job))
    (he : s.findIdle functionId version = some e) : e.1.life.jobs = [] := by
  obtain ⟨hget, havailable⟩ := mem_of_findIdle he
  obtain ⟨hversion, hpool⟩ := of_mem_live (List.mem_of_find?_eq_some he)
  have hmem := List.mem_of_getElem? hget
  exact (H e.1 hmem).2.jobs_eq_nil (hguard e.1 hmem hversion hpool) havailable

/-- One handle takes a step. -/
theorem sound_perform (H : ∀ m ∈ s, m.life.IdleSound ∧ m.life.Covered) {i : ℕ} {act : HandleAct}
    (hkeeps : ∀ m ∈ s[i]?, ∀ life, m.life.step maxInvocations act = some life →
      m.life.KeepsBusy act)
    (hleaves : ∀ m ∈ s[i]?, m.life.LeavesBusy act)
    (hstep : s.perform maxInvocations i act = some t) :
    ∀ m ∈ t, m.life.IdleSound ∧ m.life.Covered := by
  obtain ⟨m, hm, hstep⟩ := Option.bind_eq_some_iff.1 hstep
  obtain ⟨life, hlife, rfl⟩ := Option.map_eq_some_iff.1 hstep
  intro m' hm'
  rcases List.mem_or_eq_of_mem_set hm' with hold | rfl
  · exact H m' hold
  · obtain ⟨hsound, hcovered⟩ := H m (List.mem_of_getElem? hm)
    exact ⟨hsound.step (hkeeps m hm life hlife) hlife,
      hcovered.step hsound (hleaves m hm) hlife⟩

theorem sound_step (H : ∀ m ∈ s, m.life.IdleSound ∧ m.life.Covered) {act : PoolAct}
    (hguard : s.Guard act) (hstep : s.step maxInvocations act = some t) :
    ∀ m ∈ t, m.life.IdleSound ∧ m.life.Covered := by
  cases act with
  | reuse functionId version job =>
    simp only [step] at hstep
    obtain ⟨e, he, hstep⟩ := Option.bind_eq_some_iff.1 hstep
    refine sound_perform H ?_ ?_ hstep
    · intro m hm life _ _
      rw [(mem_of_findIdle he).1] at hm
      cases hm
      exact jobs_of_findIdle H hguard he
    · exact fun m hm => trivial
  | grow functionId version maxDurationSeconds job =>
    simp only [step] at hstep
    obtain ⟨life, hlife, rfl⟩ := Option.map_eq_some_iff.1 hstep
    have hkeeps : (HandleLife.reserved maxDurationSeconds).KeepsBusy (.assign job false) := by
      intro hfalse
      cases hfalse
    have hleaves : (HandleLife.reserved maxDurationSeconds).LeavesBusy (.assign job false) := trivial
    have hsound := HandleLife.idleSound_reserved maxDurationSeconds
    intro m hm
    rcases List.mem_append.1 hm with hold | hnew
    · exact H m hold
    · rw [List.mem_singleton.1 hnew]
      exact ⟨hsound.step hkeeps hlife,
        (HandleLife.covered_reserved maxDurationSeconds).step hsound hleaves hlife⟩
  | queueUp functionId version job =>
    simp only [step] at hstep
    obtain ⟨e, -, hstep⟩ := Option.bind_eq_some_iff.1 hstep
    refine sound_perform H ?_ ?_ hstep
    · intro m hm life _ hfalse
      cases hfalse
    · exact fun m hm => trivial
  | poolSummary =>
    cases hstep
    exact H
  | thread i act =>
    simp only [step] at hstep
    split_ifs at hstep with hassign
    refine sound_perform H (fun m hm life hlife => ?_) hguard hstep
    exact HandleLife.keepsBusy_of_leavesBusy (H m (List.mem_of_getElem? hm)).2 (hguard m hm)
      (Bool.eq_false_iff.2 hassign) hlife

/-- In every run in which the pump leaves a `BUSY` that stands for a job, and the handles are looked at
while every call of `invoke` that is on its way has a `BUSY` that stands: what is reported as available
is free, and no handle is given as available to two jobs at once. -/
theorem reallyIdle_of_reach (hreach : Reach (step maxInvocations) Guard [] s) :
    (∀ act, s.Guard act → s.ReportsRight act) ∧ s.GivenOnce := by
  have H : ∀ m ∈ s, m.life.IdleSound ∧ m.life.Covered :=
    hreach.invariant (fun m hm => by cases hm) fun _ _ _ h hguard hstep => sound_step h hguard hstep
  refine ⟨fun act hguard => ?_, fun m hm => (H m hm).1.once⟩
  cases act with
  | reuse functionId version job =>
    intro e he
    obtain ⟨hget, havailable⟩ := mem_of_findIdle he
    exact (H e.1 (List.mem_of_getElem? hget)).1.free havailable (jobs_of_findIdle H hguard he)
  | poolSummary =>
    intro m hm
    obtain ⟨hmem, hidle⟩ := List.mem_filter.1 hm
    obtain ⟨hpool, hcounts⟩ := (Bool.and_eq_true_iff).1 hidle
    have havailable := HandleFields.available_of_countsIdle hcounts
    obtain ⟨hsound, hcovered⟩ := H m hmem
    exact hsound.free havailable (hcovered.jobs_eq_nil (hguard m hmem hpool) havailable)
  | grow | queueUp | thread => trivial

/-! ### A cold start -/

instance (s : HandlePool) : ∀ act, Decidable (s.Guard act)
  | .reuse _ _ _ => inferInstanceAs (Decidable (∀ m ∈ s, _ ∧ _ → _ = true → m.life.Watchable))
  | .poolSummary => inferInstanceAs (Decidable (∀ m ∈ s, _ = true → m.life.Watchable))
  | .thread i act => inferInstanceAs (Decidable (∀ m ∈ s[i]?, m.life.LeavesBusy act))
  | .grow _ _ _ _ | .queueUp _ _ _ => isTrue trivial

instance (s : HandlePool) : ∀ act, Decidable (s.ReportsRight act)
  | .reuse functionId version _ =>
    inferInstanceAs (Decidable (∀ e ∈ s.findIdle functionId version, e.1.life.fields.Free))
  | .poolSummary => inferInstanceAs (Decidable (∀ m ∈ s.idle, m.life.fields.Free))
  | .grow _ _ _ _ | .queueUp _ _ _ | .thread _ _ => isTrue trivial

instance (s : HandlePool) : Decidable s.GivenOnce :=
  inferInstanceAs (Decidable (∀ m ∈ s, m.life.fields.reusedNow.length ≤ 1))

/-- A container is reserved for a job, and claimed before it is ready. -/
def coldStart : List PoolAct :=
  .grow "f1" 1 0 "j1" ::
    [DispatchStage.placed, .claiming].map fun stage => .thread 0 (.job ⟨"j1", false, stage⟩ false)

/-- The handles are looked at while the container is started; the job is put when it is ready, sent and
done. -/
def firstDone : List PoolAct :=
  coldStart ++ [.poolSummary] ++ List.replicate 7 (.thread 0 (.boot true)) ++
    ([DispatchStage.waiting, .ensuring, .looking, .creating, .marking, .putting].map fun stage =>
      .thread 0 (.job ⟨"j1", true, stage⟩ false)) ++
    [.go, .go, .go, .go, .result true, .go, .go].map fun p => .thread 0 (.pump p)

/-- A second job is given the container when the first one is done. -/
theorem reallyIdle_afterFirst : ∃ s t, Reach (step 0) Guard [] s ∧
    s.step 0 (.reuse "f1" 1 "j2") = some t ∧ s.ReportsRight (.reuse "f1" 1 "j2") ∧
      s.idle.length = 1 := by
  obtain ⟨s, hreach, htest⟩ := exists_reach_of_guarded_run (step 0) Guard []
    (fun s => decide (s.Guard (.reuse "f1" 1 "j2")) &&
      ((s.step 0 (.reuse "f1" 1 "j2")).isSome && decide (s.idle.length = 1))) firstDone
    (by decide +kernel)
  simp only [Bool.and_eq_true, decide_eq_true_eq] at htest
  obtain ⟨hguard, hsome, hidle⟩ := htest
  obtain ⟨t, ht⟩ := Option.isSome_iff_exists.1 hsome
  exact ⟨s, t, hreach, ht, (reallyIdle_of_reach hreach).1 _ hguard, hidle⟩

/-- The status that claims the container for a job is overwritten when it is spawned, and two more
jobs are given it as available. -/
theorem notIdle_spawned : ∃ s t u, Reach (step 0) Always [] s ∧
    s.step 0 (.reuse "f1" 1 "j2") = some t ∧ ¬ s.ReportsRight (.reuse "f1" 1 "j2") ∧
      t.step 0 (.reuse "f1" 1 "j3") = some u ∧ ¬ u.GivenOnce := by
  obtain ⟨s, hreach, htest⟩ := exists_reach_of_run (step 0) []
    (fun s => !decide (s.ReportsRight (.reuse "f1" 1 "j2")) &&
      (s.step 0 (.reuse "f1" 1 "j2")).any fun t =>
        (t.step 0 (.reuse "f1" 1 "j3")).any fun u => !decide u.GivenOnce)
    (coldStart ++ List.replicate 3 (.thread 0 (.boot true))) (by decide +kernel)
  rw [Bool.and_eq_true, Bool.not_eq_true', decide_eq_false_iff_not] at htest
  obtain ⟨hwrong, htest⟩ := htest
  obtain ⟨t, ht, htest⟩ := (Option.any_eq_true _ _).1 htest
  obtain ⟨u, hu, htwice⟩ := (Option.any_eq_true _ _).1 htest
  rw [Bool.not_eq_true', decide_eq_false_iff_not] at htwice
  exact ⟨s, t, u, hreach, ht, hwrong, hu, htwice⟩

end HandlePool

end Axo
