import Axo.Lib.Transition
import Mathlib.Tactic

/-!
# The subscription of the projector

`KurrentSubscriber` of `infrastructure/database/kurrent/subscriber.py` with `MongoCheckpointStore`
of `infrastructure/database/mongo/checkpoint_store.py`.

* a subscription delivers the records of the taxonomy's streams, in the order of their commit
  positions, from the one after the stored checkpoint on, and those appended while it lasts;
* `KurrentSubscriber.step`: `apply_record` with each way it can end, the end of a subscription (the
  connection is lost, the watchdog fires, the process stops or dies) and the next one;
* `Covered` says that nothing up to the checkpoint was skipped; `HeedsFailures` is what a step needs
  to keep it: `covered_iff_heedsFailures`.

`applied` is kept for reference only: the records on which `on_event` has returned.
-/

namespace Axo

open Transition

/-- A record of the `$all` stream. -/
structure RecordedEvent where
  streamName : String
  commitPosition : ℕ
  deriving DecidableEq

/-- `_STREAM_NAME_PREFIXES`. -/
def streamNamePrefixes : List String :=
  ["endpoints-", "functions-", "consensus-", "activity-", "user-profiles-",
    "virtual-environments-", "buckets-", "choreographies-"]

/-- The filter of the subscription lets the record through. -/
def RecordedEvent.Included (record : RecordedEvent) : Prop :=
  ∃ start ∈ streamNamePrefixes, start.toList <+: record.streamName.toList

instance (record : RecordedEvent) : Decidable record.Included :=
  inferInstanceAs (Decidable (∃ start ∈ streamNamePrefixes, start.toList <+: record.streamName.toList))

/-- A `subscribe_to_all` that goes on. -/
structure Subscription where
  /-- the position it stands at: that of the record delivered last, at first the checkpoint -/
  position : Option ℕ
  /-- the positions of the records it has delivered that `on_event` has failed on -/
  failed : List ℕ := []
  deriving DecidableEq

/-- The record comes after the position; without a position, every record does. -/
def RecordedEvent.After (record : RecordedEvent) : Option ℕ → Prop
  | none => True
  | some position => position < record.commitPosition

instance (record : RecordedEvent) : ∀ position, Decidable (record.After position)
  | none => .isTrue trivial
  | some position => inferInstanceAs (Decidable (position < record.commitPosition))

/-- How `apply_record` ends. -/
inductive ApplyOutcome
  /-- the record cannot be decoded, or `on_event` raises -/
  | eventFails
  /-- `set_position` raises -/
  | checkpointFails
  | applied
  deriving DecidableEq, Repr

/-- The event store and the projector. -/
structure KurrentSubscriber where
  stream : List RecordedEvent := []
  checkpoint : Option ℕ := none
  subscription : Option Subscription := none
  applied : List ℕ := []

inductive SubscriberAction
  | append (record : RecordedEvent)
  | connect
  | deliver (outcome : ApplyOutcome)
  | leave

namespace KurrentSubscriber

/-- The record that a subscription delivers next. -/
def next (s : KurrentSubscriber) (subscription : Subscription) : Option RecordedEvent :=
  s.stream.find? fun record => record.Included ∧ record.After subscription.position

/-- `apply_record`, and the `except` around it. -/
def applyRecord (s : KurrentSubscriber) (subscription : Subscription) (record : RecordedEvent) :
    ApplyOutcome → KurrentSubscriber
  | .eventFails =>
    { s with
      subscription := some
        { position := some record.commitPosition
          failed := record.commitPosition :: subscription.failed } }
  | .checkpointFails =>
    { s with
      subscription := some { subscription with position := some record.commitPosition }
      applied := record.commitPosition :: s.applied }
  | .applied =>
    { s with
      checkpoint := some record.commitPosition
      subscription := some { subscription with position := some record.commitPosition }
      applied := record.commitPosition :: s.applied }

/-- A step of the event store or of the projector. -/
def step (s : KurrentSubscriber) : SubscriberAction → Option KurrentSubscriber
  | .append record =>
    if ∀ earlier ∈ s.stream, earlier.commitPosition < record.commitPosition then
      some { s with stream := s.stream ++ [record] }
    else none
  | .connect =>
    match s.subscription with
    | none => some { s with subscription := some { position := s.checkpoint } }
    | some _ => none
  | .deliver outcome =>
    s.subscription.bind fun subscription =>
      (s.next subscription).map fun record => s.applyRecord subscription record outcome
  | .leave => some { s with subscription := none }

/-- No record up to the checkpoint was skipped. -/
def Covered (s : KurrentSubscriber) : Prop :=
  ∀ position, s.checkpoint = some position → ∀ record ∈ s.stream, record.Included →
    record.commitPosition ≤ position → record.commitPosition ∈ s.applied

/-- A record goes through only when all those that the subscription has failed on were applied by
then, in an earlier subscription. -/
def HeedsFailures (s : KurrentSubscriber) : SubscriberAction → Prop
  | .deliver .applied =>
    ∀ subscription ∈ s.subscription, ∀ position ∈ subscription.failed, position ∈ s.applied
  | _ => True

instance (s : KurrentSubscriber) : ∀ action, Decidable (s.HeedsFailures action)
  | .deliver .applied =>
    inferInstanceAs (Decidable
      (∀ subscription ∈ s.subscription, ∀ position ∈ subscription.failed, position ∈ s.applied))
  | .deliver .eventFails | .deliver .checkpointFails | .append _ | .connect | .leave =>
    .isTrue trivial

/-! ### The invariant -/

variable {s t : KurrentSubscriber} {action : SubscriberAction} {subscription : Subscription}
  {record : RecordedEvent}

/-- What holds of a subscription: the records it has passed are applied, or noted as failed. -/
structure Passed (s : KurrentSubscriber) (subscription : Subscription) : Prop where
  stands : ∀ position, subscription.position = some position →
    ∃ record ∈ s.stream, record.commitPosition = position
  passed : ∀ record ∈ s.stream, record.Included → ¬ record.After subscription.position →
    record.commitPosition ∈ s.applied ∨ record.commitPosition ∈ subscription.failed
  failed : ∀ position ∈ subscription.failed, ∃ record ∈ s.stream, record.Included ∧
    record.commitPosition = position ∧ ¬ record.After subscription.position

structure Inv (s : KurrentSubscriber) : Prop where
  sorted : s.stream.Pairwise fun r r' => r.commitPosition < r'.commitPosition
  covered : s.Covered
  stored : ∀ position, s.checkpoint = some position →
    ∃ record ∈ s.stream, record.commitPosition = position
  session : ∀ subscription, s.subscription = some subscription → s.Passed subscription

theorem inv_init : Inv {} where
  sorted := .nil
  covered _ h := by cases h
  stored _ h := by cases h
  session _ h := by cases h

/-- What the next record of a subscription is. -/
theorem next_cases (hsorted : s.stream.Pairwise fun r r' => r.commitPosition < r'.commitPosition)
    (h : s.next subscription = some record) :
    record ∈ s.stream ∧ record.Included ∧ record.After subscription.position ∧
      ∀ other ∈ s.stream, other.Included → other.After subscription.position →
        record.commitPosition ≤ other.commitPosition := by
  obtain ⟨htest, before, behind, hstream, hbefore⟩ := List.find?_eq_some_iff_append.1 h
  obtain ⟨hincluded, hafter⟩ := of_decide_eq_true htest
  refine ⟨List.mem_of_find?_eq_some h, hincluded, hafter, fun other hother hin hlater => ?_⟩
  rw [hstream] at hother hsorted
  rcases List.mem_append.1 hother with hmem | hmem
  · have hnot := hbefore other hmem
    simp [hin, hlater] at hnot
  · rcases List.mem_cons.1 hmem with rfl | hmem
    · exact le_rfl
    · have htail := (List.pairwise_append.1 hsorted).2.1
      exact ((List.pairwise_cons.1 htail).1 other hmem).le

/-- What has been passed once the record is delivered. -/
theorem not_after_iff (h : record.After subscription.position) (other : RecordedEvent)
    (hnext : other.After subscription.position → record.commitPosition ≤ other.commitPosition) :
    ¬ other.After (some record.commitPosition) ↔
      ¬ other.After subscription.position ∨ other.commitPosition = record.commitPosition := by
  cases hposition : subscription.position with
  | none =>
    rw [hposition] at hnext
    have hle := hnext trivial
    simp only [RecordedEvent.After, not_true, false_or, not_lt]
    omega
  | some position =>
    rw [hposition] at hnext h
    simp only [RecordedEvent.After, not_lt] at h hnext ⊢
    omega

/-- A record that is appended comes after everything that was passed. -/
theorem not_passed_of_append (hnew : ∀ earlier ∈ s.stream,
      earlier.commitPosition < record.commitPosition) {position : ℕ}
    (h : ∃ old ∈ s.stream, old.commitPosition = position) : position < record.commitPosition := by
  obtain ⟨old, hold, rfl⟩ := h
  exact hnew old hold

theorem inv_append (h : s.Inv) (hnew : ∀ earlier ∈ s.stream,
      earlier.commitPosition < record.commitPosition) :
    Inv { s with stream := s.stream ++ [record] } where
  sorted := by
    refine List.pairwise_append.2 ⟨h.sorted, List.pairwise_singleton .., fun old hold new hmem => ?_⟩
    obtain rfl := List.mem_singleton.1 hmem
    exact hnew old hold
  covered position hposition other hother hin hle := by
    rcases List.mem_append.1 hother with hold | hmem
    · exact h.covered position hposition other hold hin hle
    · obtain rfl := List.mem_singleton.1 hmem
      have hlt := not_passed_of_append hnew (h.stored position hposition)
      omega
  stored position hposition := by
    obtain ⟨old, hold, heq⟩ := h.stored position hposition
    exact ⟨old, List.mem_append_left _ hold, heq⟩
  session subscription hsub := by
    have hpassed := h.session subscription hsub
    constructor
    · intro position hposition
      obtain ⟨old, hold, heq⟩ := hpassed.stands position hposition
      exact ⟨old, List.mem_append_left _ hold, heq⟩
    · intro other hother hin hafter
      rcases List.mem_append.1 hother with hold | hmem
      · exact hpassed.passed other hold hin hafter
      · obtain rfl := List.mem_singleton.1 hmem
        refine absurd ?_ hafter
        cases hposition : subscription.position with
        | none => trivial
        | some position => exact not_passed_of_append hnew (hpassed.stands position hposition)
    · intro position hfailed
      obtain ⟨old, hold, hold'⟩ := hpassed.failed position hfailed
      exact ⟨old, List.mem_append_left _ hold, hold'⟩

/-- A new subscription has passed what the checkpoint covers. -/
theorem passed_connect (h : s.Inv) : s.Passed { position := s.checkpoint } where
  stands := h.stored
  passed other hother hin hafter := by
    cases hcheckpoint : s.checkpoint with
    | none =>
      rw [hcheckpoint] at hafter
      exact absurd trivial hafter
    | some position =>
      rw [hcheckpoint] at hafter
      exact .inl (h.covered position hcheckpoint other hother hin (not_lt.1 hafter))
  failed _ hfailed := absurd hfailed List.not_mem_nil

/-- Once a record is delivered, it has been passed as well. -/
theorem passed_deliver (h : s.Inv) (hsub : s.subscription = some subscription)
    (hnext : s.next subscription = some record) {failed applied : List ℕ}
    (hfailed : subscription.failed ⊆ failed) (happlied : s.applied ⊆ applied)
    (hrecord : record.commitPosition ∈ applied ∨ record.commitPosition ∈ failed)
    (hnoted : ∀ position ∈ failed, position ∈ subscription.failed ∨
      position = record.commitPosition) (hstream : t.stream = s.stream) (ht : t.applied = applied) :
    t.Passed { position := some record.commitPosition, failed := failed } := by
  subst ht
  obtain ⟨hmem, hincluded, hafter, hleast⟩ := next_cases h.sorted hnext
  have hpassed := h.session subscription hsub
  constructor
  · intro position hposition
    obtain rfl := Option.some.inj hposition
    exact ⟨record, hstream ▸ hmem, rfl⟩
  · intro other hother hin hnot
    rw [hstream] at hother
    rcases (not_after_iff hafter other (hleast other hother hin)).1 hnot with hearlier | heq
    · exact (hpassed.passed other hother hin hearlier).imp (@happlied _) (@hfailed _)
    · rw [heq]
      exact hrecord
  · intro position hposition
    rw [hstream]
    rcases hnoted position hposition with hold | rfl
    · obtain ⟨other, hother, hin, heq, hearlier⟩ := hpassed.failed position hold
      have hnot := (not_after_iff hafter other (hleast other hother hin)).2 (.inl hearlier)
      exact ⟨other, hother, hin, heq, hnot⟩
    · exact ⟨record, hmem, hincluded, rfl, lt_irrefl _⟩

/-- What a delivery keeps, whatever becomes of the record. -/
theorem inv_deliver (h : s.Inv) (hsub : s.subscription = some subscription)
    (hnext : s.next subscription = some record) (outcome : ApplyOutcome)
    (hcovered : (s.applyRecord subscription record outcome).Covered) :
    (s.applyRecord subscription record outcome).Inv := by
  have hmem := (next_cases h.sorted hnext).1
  cases outcome with
  | eventFails =>
    refine ⟨h.sorted, hcovered, h.stored, fun _ hnew => ?_⟩
    obtain rfl := Option.some.inj hnew
    exact passed_deliver h hsub hnext (List.subset_cons_self ..) (List.Subset.refl _)
      (.inr List.mem_cons_self) (fun _ hp => (List.mem_cons.1 hp).symm) rfl rfl
  | checkpointFails =>
    refine ⟨h.sorted, hcovered, h.stored, fun _ hnew => ?_⟩
    obtain rfl := Option.some.inj hnew
    exact passed_deliver h hsub hnext (List.Subset.refl _) (List.subset_cons_self ..)
      (.inl List.mem_cons_self) (fun _ => .inl) rfl rfl
  | applied =>
    refine ⟨h.sorted, hcovered, fun position hposition => ?_, fun _ hnew => ?_⟩
    · obtain rfl := Option.some.inj hposition
      exact ⟨record, hmem, rfl⟩
    · obtain rfl := Option.some.inj hnew
      exact passed_deliver h hsub hnext (List.Subset.refl _) (List.subset_cons_self ..)
        (.inl List.mem_cons_self) (fun _ => .inl) rfl rfl

/-- A record goes through without a gap when the earlier failures have been made good, and only
then. -/
theorem covered_applied_iff (h : s.Inv) (hsub : s.subscription = some subscription)
    (hnext : s.next subscription = some record) :
    (s.applyRecord subscription record .applied).Covered ↔
      ∀ position ∈ subscription.failed, position ∈ s.applied := by
  obtain ⟨-, hincluded, hafter, hleast⟩ := next_cases h.sorted hnext
  have hpassed := h.session subscription hsub
  constructor
  · intro hcovered position hposition
    obtain ⟨other, hother, hin, rfl, hearlier⟩ := hpassed.failed position hposition
    have hlt : other.commitPosition < record.commitPosition := by
      cases hp : subscription.position with
      | none => exact absurd (hp ▸ trivial) hearlier
      | some p =>
        rw [hp] at hafter hearlier
        exact (not_lt.1 hearlier).trans_lt hafter
    have happlied := hcovered record.commitPosition rfl other hother hin hlt.le
    exact (List.mem_cons.1 happlied).resolve_left hlt.ne
  · intro hmade position hposition other hother hin hle
    obtain rfl := Option.some.inj hposition
    by_cases heq : other.commitPosition = record.commitPosition
    · exact heq ▸ List.mem_cons_self
    · have hearlier : ¬ other.After subscription.position := fun hlater => by
        have hge := hleast other hother hin hlater
        omega
      refine List.mem_cons_of_mem _ ?_
      exact (hpassed.passed other hother hin hearlier).elim id (hmade _)

/-- What a step can do. -/
theorem step_cases (hstep : s.step action = some t) :
    (∃ record, action = .append record ∧
      (∀ earlier ∈ s.stream, earlier.commitPosition < record.commitPosition) ∧
      t = { s with stream := s.stream ++ [record] }) ∨
    (action = .connect ∧ t = { s with subscription := some { position := s.checkpoint } }) ∨
    (∃ outcome subscription record, action = .deliver outcome ∧
      s.subscription = some subscription ∧ s.next subscription = some record ∧
      t = s.applyRecord subscription record outcome) ∨
    (action = .leave ∧ t = { s with subscription := none }) := by
  cases action with
  | append record =>
    simp only [step] at hstep
    split_ifs at hstep with hnew
    exact .inl ⟨record, rfl, hnew, (Option.some.inj hstep).symm⟩
  | connect =>
    simp only [step] at hstep
    split at hstep
    · exact .inr (.inl ⟨rfl, (Option.some.inj hstep).symm⟩)
    · cases hstep
  | deliver outcome =>
    obtain ⟨subscription, hsub, hdeliver⟩ := Option.bind_eq_some_iff.1 hstep
    obtain ⟨record, hnext, rfl⟩ := Option.map_eq_some_iff.1 hdeliver
    exact .inr (.inr (.inl ⟨outcome, subscription, record, rfl, hsub, hnext, rfl⟩))
  | leave => exact .inr (.inr (.inr ⟨rfl, (Option.some.inj hstep).symm⟩))

/-- A step keeps `Covered` exactly when it heeds the failures. -/
theorem covered_step_iff (h : s.Inv) (hstep : s.step action = some t) :
    t.Covered ↔ s.HeedsFailures action := by
  obtain ⟨record, rfl, hnew, rfl⟩ | ⟨rfl, rfl⟩ |
    ⟨outcome, subscription, record, rfl, hsub, hnext, rfl⟩ | ⟨rfl, rfl⟩ := step_cases hstep
  · exact iff_of_true (inv_append h hnew).covered trivial
  · exact iff_of_true h.covered trivial
  · cases outcome with
    | eventFails => exact iff_of_true h.covered trivial
    | checkpointFails =>
      refine iff_of_true (fun position hposition other hother hin hle => ?_) trivial
      exact List.mem_cons_of_mem _ (h.covered position hposition other hother hin hle)
    | applied =>
      rw [covered_applied_iff h hsub hnext]
      refine ⟨fun hmade other hother => ?_, fun hheeds => hheeds subscription hsub⟩
      obtain rfl := Option.some.inj (hsub.symm.trans hother)
      exact hmade
  · exact iff_of_true h.covered trivial

theorem inv_step (h : s.Inv) (hheeds : s.HeedsFailures action) (hstep : s.step action = some t) :
    t.Inv := by
  have hcovered := (covered_step_iff h hstep).2 hheeds
  obtain ⟨record, rfl, hnew, rfl⟩ | ⟨rfl, rfl⟩ |
    ⟨outcome, subscription, record, rfl, hsub, hnext, rfl⟩ | ⟨rfl, rfl⟩ := step_cases hstep
  · exact inv_append h hnew
  · refine ⟨h.sorted, h.covered, h.stored, fun _ hnew => ?_⟩
    obtain rfl := Option.some.inj hnew
    have hpassed := passed_connect h
    exact ⟨hpassed.stands, hpassed.passed, hpassed.failed⟩
  · exact inv_deliver h hsub hnext outcome hcovered
  · exact ⟨h.sorted, h.covered, h.stored, fun _ hnew => by cases hnew⟩

/-- In a run of the projector nothing up to the checkpoint is ever skipped if and only if, whenever
a record goes through, the records that its subscription has failed on have been applied. -/
theorem covered_throughout_iff {actions : List SubscriberAction}
    (hrun : run step {} actions = some t) :
    Throughout step Covered {} actions ↔ EachStep step HeedsFailures {} actions :=
  throughout_iff_eachStep (fun _ h => h.covered) (fun _ _ _ => inv_step)
    (fun _ _ _ h hstep => (covered_step_iff h hstep).1) inv_init hrun

/-- Two records, the first of which fails once and is applied by the next subscription. -/
def retryRun : List SubscriberAction :=
  [.append ⟨"activity-f", 1⟩, .append ⟨"activity-f", 2⟩, .connect, .deliver .eventFails, .leave,
    .connect, .deliver .applied, .deliver .applied]

theorem covered_throughout_retry : Throughout step Covered {} retryRun := by
  have hruns : (run (guarded step HeedsFailures) {} retryRun).isSome = true := by decide
  obtain ⟨t, ht⟩ := Option.isSome_iff_exists.1 hruns
  exact (covered_throughout_iff (run_of_guarded_run ht)).2 (eachStep_of_guarded_run ht)

/-- The subscription goes on after a failure, and the next record moves the checkpoint past it. -/
theorem skipped_record :
    ∃ s, Reach step Always {} s ∧ ¬ s.Covered := by
  obtain ⟨s, hs, htest⟩ := exists_reach_of_run step {}
    (fun s => s.checkpoint = some 2 ∧ 1 ∉ s.applied ∧ ⟨"activity-f", 1⟩ ∈ s.stream)
    [.append ⟨"activity-f", 1⟩, .append ⟨"activity-f", 2⟩, .connect, .deliver .eventFails,
      .deliver .applied] (by decide)
  obtain ⟨hcheckpoint, hskipped, hrecord⟩ := of_decide_eq_true htest
  exact ⟨s, hs, fun hcovered => hskipped (hcovered 2 hcheckpoint _ hrecord (by decide) (by decide))⟩

end KurrentSubscriber

end Axo
