import Axo.Choreography.RunChoreography
import Axo.Lib.Transition

/-!
# Runs side by side

`RunChoreographyUseCase.execute` and the saves of `_execute_run` in `run_choreography.py`,
`CancelChoreographyRunUseCase.execute` in `cancel_choreography_run.py`, and `has_active_run` and
`save` of `choreography_run_repository.py`, with every repository call a step of its own.

* `RunRecord` is one run: its stored status, its stop flag and the threads that are about it;
  `RunRecord.act` is what one of them does next;
* `Orchestration.step` adds the `execute` requests, which check for an active run and insert their
  own in two steps;
* `OneActive` and `Kept` are what should hold: one active run of a choreography, and terminal
  statuses that stay;
* `runs_right_iff`: they hold exactly in the runs whose steps come `InOrder`.

Of a stored document only the choreography and the status are kept: every save writes the whole of
it.
-/

namespace Axo

open Transition

/-- `ACTIVE_RUN_STATUSES`. -/
def RunStatus.IsActive (status : RunStatus) : Prop := status = .pending ∨ status = .running

/-- The statuses that a run ends with. -/
def RunStatus.IsTerminal (status : RunStatus) : Prop :=
  status = .completed ∨ status = .failed ∨ status = .cancelled

instance (status : RunStatus) : Decidable status.IsActive :=
  inferInstanceAs (Decidable (_ ∨ _))

instance (status : RunStatus) : Decidable status.IsTerminal :=
  inferInstanceAs (Decidable (_ ∨ _ ∨ _))

theorem RunStatus.IsTerminal.not_isActive {status : RunStatus} (h : status.IsTerminal) :
    ¬ status.IsActive := by
  obtain rfl | rfl | rfl := h <;> decide

/-- How far the thread of a run has come. -/
inductive OrchestratorStage
  /-- the run is inserted, its thread is not started -/
  | inserted
  | launched
  /-- the nodes are executed -/
  | executing
  /-- the final status is in memory -/
  | decided (status : RunStatus)
  /-- it is saved -/
  | ended (status : RunStatus)
  /-- the stop flag is dropped -/
  | done (status : RunStatus)
  deriving DecidableEq

/-- A run, with what is about it in `stop_flags` and the threads. -/
structure RunRecord where
  choreographyId : String
  /-- the stored status -/
  status : RunStatus := .pending
  stage : OrchestratorStage := .inserted
  /-- whether the stop flag is set, none where there is none -/
  stopFlag : Option Bool := none
  /-- how many cancel requests have read the run -/
  reading : ℕ := 0
  /-- how many have set the stop flag since -/
  signalled : ℕ := 0
  /-- whether one of them has saved the run -/
  cancelSaved : Bool := false
  deriving DecidableEq

/-- What a thread does with a run. -/
inductive RunAct
  /-- `execute` makes the stop flag and starts the thread -/
  | launch
  /-- the thread saves `RUNNING` -/
  | begin
  /-- the state of a node is saved, with the run that is in memory -/
  | saveNode
  /-- the thread decides on the final status -/
  | decide (anyFailed : Bool)
  /-- it saves it -/
  | finish
  /-- it drops the stop flag -/
  | cleanUp
  /-- a cancel request reads the run -/
  | read
  /-- it sets the stop flag, if there is one -/
  | signal
  /-- it saves its copy as `CANCELLED` -/
  | saveCancelled

namespace RunRecord

/-- The final status. -/
def finalStatus (record : RunRecord) (anyFailed : Bool) : RunStatus :=
  if record.stopFlag = some true then .cancelled
  else if anyFailed then .failed
  else .completed

/-- One step of a thread. -/
def act (record : RunRecord) : RunAct → Option RunRecord
  | .launch =>
    match record.stage with
    | .inserted => some { record with stopFlag := some false, stage := .launched }
    | _ => none
  | .begin =>
    match record.stage with
    | .launched => some { record with status := .running, stage := .executing }
    | _ => none
  | .saveNode =>
    match record.stage with
    | .executing => some { record with status := .running }
    | _ => none
  | .decide anyFailed =>
    match record.stage with
    | .executing => some { record with stage := .decided (record.finalStatus anyFailed) }
    | _ => none
  | .finish =>
    match record.stage with
    | .decided status => some { record with status := status, stage := .ended status }
    | _ => none
  | .cleanUp =>
    match record.stage with
    | .ended status => some { record with stopFlag := none, stage := .done status }
    | _ => none
  | .read =>
    -- a run that is not active is a ConflictError
    if record.status.IsActive then some { record with reading := record.reading + 1 }
    else some record
  | .signal =>
    match record.reading with
    | 0 => none
    | reading + 1 =>
      some
        { record with
          reading := reading
          signalled := record.signalled + 1
          stopFlag := record.stopFlag.map fun _ => true }
  | .saveCancelled =>
    match record.signalled with
    | 0 => none
    | signalled + 1 =>
      some { record with signalled := signalled, status := .cancelled, cancelSaved := true }

/-- The final status that the thread has saved. -/
def savedFinal? (record : RunRecord) : Option RunStatus :=
  match record.stage with
  | .ended status | .done status => some status
  | _ => none

/-- Where a thread may go on: the thread of the run saves nothing after a cancel request has, except
for `CANCELLED` in the end; a cancel request does not save what has ended otherwise. -/
def InOrder (record : RunRecord) : RunAct → Prop
  | .begin | .saveNode => record.cancelSaved = false
  | .finish => record.cancelSaved = true → record.stage = .decided .cancelled
  | .saveCancelled => ∀ status ∈ record.savedFinal?, status = .cancelled
  | .launch | .decide _ | .cleanUp | .read | .signal => True

/-- The stored status that the thread has left. -/
def ownStatus (record : RunRecord) : RunStatus :=
  match record.stage with
  | .inserted | .launched => .pending
  | .executing | .decided _ => .running
  | .ended status | .done status => status

/-- What is stored, once the threads have come in order. -/
structure Sound (record : RunRecord) : Prop where
  status : record.status = if record.cancelSaved then .cancelled else record.ownStatus
  decided : ∀ status, record.stage = .decided status → status.IsTerminal
  final : ∀ status ∈ record.savedFinal?,
    status.IsTerminal ∧ (record.cancelSaved = true → status = .cancelled)

variable {record record' : RunRecord} {runAct : RunAct}

theorem isTerminal_finalStatus (record : RunRecord) (anyFailed : Bool) :
    (record.finalStatus anyFailed).IsTerminal := by
  unfold finalStatus
  split_ifs
  · exact .inr (.inr rfl)
  · exact .inr (.inl rfl)
  · exact .inl rfl

/-- What a step does: it reads or writes nothing that counts, or it is a save. -/
theorem act_cases (hact : record.act runAct = some record') :
    (record'.status = record.status ∧ record'.cancelSaved = record.cancelSaved ∧
      record.InOrder runAct ∧
      (record'.stage = record.stage ∨
        (record.stage = .inserted ∧ record'.stage = .launched) ∨
        (∃ anyFailed, record.stage = .executing ∧
          record'.stage = .decided (record.finalStatus anyFailed)) ∨
        ∃ status, record.stage = .ended status ∧ record'.stage = .done status)) ∨
    ((runAct = .begin ∧ record.stage = .launched ∨ runAct = .saveNode ∧ record.stage = .executing) ∧
      record' = { record with status := .running, stage := .executing }) ∨
    (runAct = .finish ∧ ∃ status, record.stage = .decided status ∧
      record' = { record with status := status, stage := .ended status }) ∨
    (runAct = .saveCancelled ∧ record'.status = .cancelled ∧ record'.cancelSaved = true ∧
      record'.stage = record.stage) := by
  cases runAct with
  | launch =>
    simp only [act] at hact
    split at hact
    · rename_i hstage
      obtain rfl := Option.some.inj hact
      exact .inl ⟨rfl, rfl, trivial, .inr (.inl ⟨hstage, rfl⟩)⟩
    · cases hact
  | begin =>
    simp only [act] at hact
    split at hact
    · rename_i hstage
      exact .inr (.inl ⟨.inl ⟨rfl, hstage⟩, (Option.some.inj hact).symm⟩)
    · cases hact
  | saveNode =>
    simp only [act] at hact
    split at hact
    · rename_i hstage
      obtain rfl := Option.some.inj hact
      exact .inr (.inl ⟨.inr ⟨rfl, hstage⟩, by rw [← hstage]⟩)
    · cases hact
  | decide anyFailed =>
    simp only [act] at hact
    split at hact
    · rename_i hstage
      obtain rfl := Option.some.inj hact
      exact .inl ⟨rfl, rfl, trivial, .inr (.inr (.inl ⟨anyFailed, hstage, rfl⟩))⟩
    · cases hact
  | finish =>
    simp only [act] at hact
    split at hact
    · rename_i status hstage
      exact .inr (.inr (.inl ⟨rfl, status, hstage, (Option.some.inj hact).symm⟩))
    · cases hact
  | cleanUp =>
    simp only [act] at hact
    split at hact
    · rename_i status hstage
      obtain rfl := Option.some.inj hact
      exact .inl ⟨rfl, rfl, trivial, .inr (.inr (.inr ⟨status, hstage, rfl⟩))⟩
    · cases hact
  | read =>
    simp only [act] at hact
    split_ifs at hact
    · obtain rfl := Option.some.inj hact
      exact .inl ⟨rfl, rfl, trivial, .inl rfl⟩
    · obtain rfl := Option.some.inj hact
      exact .inl ⟨rfl, rfl, trivial, .inl rfl⟩
  | signal =>
    simp only [act] at hact
    split at hact
    · cases hact
    · obtain rfl := Option.some.inj hact
      exact .inl ⟨rfl, rfl, trivial, .inl rfl⟩
  | saveCancelled =>
    simp only [act] at hact
    split at hact
    · cases hact
    · obtain rfl := Option.some.inj hact
      exact .inr (.inr (.inr ⟨rfl, rfl, rfl, rfl⟩))

theorem choreographyId_act (hact : record.act runAct = some record') :
    record'.choreographyId = record.choreographyId := by
  cases runAct
  all_goals
    simp only [act] at hact
    split at hact
    all_goals
      first
      | obtain rfl := Option.some.inj hact
        rfl
      | cases hact

theorem ownStatus_of_savedFinal {status : RunStatus} (h : record.savedFinal? = some status) :
    record.ownStatus = status := by
  unfold savedFinal? at h
  unfold ownStatus
  split at h
  · rename_i hstage
    rw [hstage]
    exact Option.some.inj h
  · rename_i hstage
    rw [hstage]
    exact Option.some.inj h
  · cases h

theorem isActive_ownStatus (h : record.savedFinal? = none) : record.ownStatus.IsActive := by
  unfold savedFinal? at h
  unfold ownStatus RunStatus.IsActive
  cases hstage : record.stage with
  | inserted => exact .inl rfl
  | launched => exact .inl rfl
  | executing => exact .inr rfl
  | decided status => exact .inr rfl
  | ended status =>
    rw [hstage] at h
    cases h
  | done status =>
    rw [hstage] at h
    cases h

theorem savedFinal?_of_running
    (h : runAct = .begin ∧ record.stage = .launched ∨
      runAct = .saveNode ∧ record.stage = .executing) : record.savedFinal? = none := by
  unfold savedFinal?
  obtain ⟨-, hstage⟩ | ⟨-, hstage⟩ := h
  · rw [hstage]
  · rw [hstage]

/-- The stored status once a cancel request has saved the run. -/
theorem Sound.status_of_cancelSaved (h : record.Sound) (hsaved : record.cancelSaved = true) :
    record.status = .cancelled := by
  rw [h.status, if_pos hsaved]

theorem Sound.status_of_not_cancelSaved (h : record.Sound)
    (hsaved : record.cancelSaved = false) : record.status = record.ownStatus := by
  rw [h.status, if_neg (by rw [hsaved]; exact Bool.false_ne_true)]

/-- A step that comes in order leaves what it should. -/
theorem Sound.act (h : record.Sound) (hact : record.act runAct = some record')
    (horder : record.InOrder runAct) : record'.Sound := by
  obtain ⟨hstatus, hsaved, -, hstage⟩ | ⟨hrunning, rfl⟩ | ⟨rfl, status, hstage, rfl⟩ |
    ⟨rfl, hstatus, hsaved, hstage⟩ := act_cases hact
  · -- nothing is saved
    have hown : record'.ownStatus = record.ownStatus ∧ record'.savedFinal? = record.savedFinal? ∧
        ∀ status, record'.stage = .decided status → status.IsTerminal := by
      unfold ownStatus savedFinal?
      obtain hstage | ⟨hstage, hstage'⟩ | ⟨anyFailed, hstage, hstage'⟩ | ⟨status, hstage, hstage'⟩ :=
        hstage
      · rw [hstage]
        exact ⟨rfl, rfl, h.decided⟩
      · rw [hstage, hstage']
        exact ⟨rfl, rfl, fun _ hne => by cases hne⟩
      · rw [hstage, hstage']
        refine ⟨rfl, rfl, fun status hstatus => ?_⟩
        cases hstatus
        exact isTerminal_finalStatus record anyFailed
      · rw [hstage, hstage']
        exact ⟨rfl, rfl, fun _ hne => by cases hne⟩
    obtain ⟨hown, hfinal, hdecided⟩ := hown
    exact
      { status := by rw [hstatus, hsaved, hown]; exact h.status
        decided := hdecided
        final := by rw [hfinal, hsaved]; exact h.final }
  · have hsaved : record.cancelSaved = false := by
      obtain ⟨rfl, -⟩ | ⟨rfl, -⟩ := hrunning
      · exact horder
      · exact horder
    exact
      { status := by rw [hsaved]; rfl
        decided := fun _ hne => by cases hne
        final := fun _ hne => by cases hne }
  · have hcancelled (hsaved : record.cancelSaved = true) : status = .cancelled := by
      have hdecided := hstage.symm.trans (horder hsaved)
      cases hdecided
      rfl
    refine
      { status := ?_
        decided := fun _ hne => by cases hne
        final := fun status' hstatus' => ?_ }
    · dsimp only
      split_ifs with hsaved
      · exact hcancelled hsaved
      · rfl
    · cases hstatus'
      exact ⟨h.decided status hstage, hcancelled⟩
  · refine
      { status := by rw [hstatus, hsaved]; rfl
        decided := fun status hdecided => h.decided status (hstage ▸ hdecided)
        final := fun status hfinal => ?_ }
    have hfinal' : record.savedFinal? = some status := by
      unfold savedFinal? at hfinal ⊢
      rw [← hstage]
      exact hfinal
    exact ⟨(h.final status hfinal').1, fun _ => horder status hfinal'⟩

/-- A save keeps a terminal status exactly when it comes in order. -/
theorem Sound.kept_iff (h : record.Sound) (hact : record.act runAct = some record') :
    (record.status.IsTerminal → record'.status = record.status) ↔ record.InOrder runAct := by
  obtain ⟨hstatus, -, horder, -⟩ | ⟨hrunning, rfl⟩ | ⟨rfl, status, hstage, rfl⟩ |
    ⟨rfl, hstatus, -, -⟩ := act_cases hact
  · exact iff_of_true (fun _ => hstatus) horder
  · have horder : record.InOrder runAct ↔ record.cancelSaved = false := by
      obtain ⟨rfl, -⟩ | ⟨rfl, -⟩ := hrunning
      · exact Iff.rfl
      · exact Iff.rfl
    rw [horder]
    cases hsaved : record.cancelSaved with
    | true =>
      rw [h.status_of_cancelSaved hsaved]
      simp [RunStatus.IsTerminal]
    | false =>
      refine iff_of_true (fun hterminal => ?_) rfl
      rw [h.status_of_not_cancelSaved hsaved] at hterminal
      exact absurd (isActive_ownStatus (savedFinal?_of_running hrunning)) hterminal.not_isActive
  · unfold InOrder
    rw [hstage, OrchestratorStage.decided.injEq]
    cases hsaved : record.cancelSaved with
    | true =>
      rw [h.status_of_cancelSaved hsaved]
      exact ⟨fun hkept _ => hkept (.inr (.inr rfl)), fun horder _ => horder rfl⟩
    | false =>
      refine iff_of_true (fun hterminal => ?_) fun hne => by cases hne
      have hfinal : record.savedFinal? = none := by
        unfold savedFinal?
        rw [hstage]
      rw [h.status_of_not_cancelSaved hsaved] at hterminal
      exact absurd (isActive_ownStatus hfinal) hterminal.not_isActive
  · unfold InOrder
    rw [hstatus]
    cases hsaved : record.cancelSaved with
    | true =>
      rw [h.status_of_cancelSaved hsaved]
      exact iff_of_true (fun _ => rfl) fun status hfinal => (h.final status hfinal).2 hsaved
    | false =>
      rw [h.status_of_not_cancelSaved hsaved]
      cases hfinal : record.savedFinal? with
      | none =>
        refine iff_of_true (fun hterminal => ?_) fun _ hne => by cases hne
        exact absurd (isActive_ownStatus hfinal) hterminal.not_isActive
      | some status =>
        rw [ownStatus_of_savedFinal hfinal]
        constructor
        · rintro hkept status' hstatus'
          cases hstatus'
          exact (hkept (h.final status hfinal).1).symm
        · exact fun horder _ => (horder status rfl).symm

/-- No step that comes in order makes a run active. -/
theorem Sound.active_of_act (h : record.Sound) (hact : record.act runAct = some record')
    (horder : record.InOrder runAct) (hactive : record'.status.IsActive) :
    record.status.IsActive := by
  obtain ⟨hstatus, -, -, -⟩ | ⟨hrunning, rfl⟩ | ⟨rfl, status, hstage, rfl⟩ | ⟨rfl, hstatus, -, -⟩ :=
    act_cases hact
  · rwa [hstatus] at hactive
  · have hsaved : record.cancelSaved = false := by
      obtain ⟨rfl, -⟩ | ⟨rfl, -⟩ := hrunning
      · exact horder
      · exact horder
    rw [h.status_of_not_cancelSaved hsaved]
    exact isActive_ownStatus (savedFinal?_of_running hrunning)
  · exact absurd hactive (h.decided status hstage).not_isActive
  · rw [hstatus] at hactive
    exact absurd hactive (by decide)

end RunRecord

/-! ### All runs -/

/-- The runs that are stored, and the choreographies of the `execute` requests that have found no
active run and not inserted theirs yet. -/
structure Orchestration where
  runs : Dict String RunRecord
  checked : List String

/-- What happens. -/
inductive OrchestrationAction
  /-- an `execute` request asks for an active run -/
  | check (choreographyId : String)
  /-- its validation fails -/
  | refuse (choreographyId : String)
  /-- it saves the run that it has made -/
  | insert (choreographyId runId : String)
  | act (runId : String) (runAct : RunAct)

namespace Orchestration

/-- No run is stored. -/
def init : Orchestration where
  runs := ∅
  checked := []

/-- `has_active_run`. -/
def HasActiveRun (s : Orchestration) (choreographyId : String) : Prop :=
  ∃ record ∈ Dict.values s.runs,
    record.choreographyId = choreographyId ∧ record.status.IsActive

instance (s : Orchestration) (choreographyId : String) :
    Decidable (s.HasActiveRun choreographyId) :=
  inferInstanceAs (Decidable (∃ record ∈ Dict.values s.runs, _ ∧ _))

/-- One step. -/
def step (s : Orchestration) : OrchestrationAction → Option Orchestration
  | .check choreographyId =>
    -- an active run is a ConflictError
    if s.HasActiveRun choreographyId then some s
    else some { s with checked := choreographyId :: s.checked }
  | .refuse choreographyId =>
    if choreographyId ∈ s.checked then
      some { s with checked := s.checked.erase choreographyId }
    else none
  | .insert choreographyId runId =>
    -- a run id is a new uuid
    if choreographyId ∈ s.checked ∧ runId ∉ s.runs then
      some
        { runs := s.runs.insert runId { choreographyId := choreographyId }
          checked := s.checked.erase choreographyId }
    else none
  | .act runId runAct =>
    match s.runs.lookup runId with
    | none => none
    | some record =>
      (record.act runAct).map fun record' => { s with runs := s.runs.insert runId record' }

/-- A choreography has one active run at most. -/
def OneActive (s : Orchestration) : Prop :=
  ∀ a b record record', s.runs.lookup a = some record → s.runs.lookup b = some record' →
    record.choreographyId = record'.choreographyId →
    record.status.IsActive → record'.status.IsActive → a = b

/-- Whatever the action leads to, a terminal status is still stored afterwards. -/
def KeepsTerminal (s : Orchestration) (action : OrchestrationAction) : Prop :=
  ∀ t, step s action = some t → ∀ runId record, s.runs.lookup runId = some record →
    record.status.IsTerminal →
    (t.runs.lookup runId).map RunRecord.status = some record.status

/-- A request inserts its run only while no run of the choreography is active, and the saves of one
run come in order. -/
def InOrder (s : Orchestration) : OrchestrationAction → Prop
  | .insert choreographyId _ => ¬ s.HasActiveRun choreographyId
  | .act runId runAct => ∀ record ∈ s.runs.lookup runId, record.InOrder runAct
  | .check _ | .refuse _ => True

/-- Every run is as its threads should leave it, and one of each choreography is active. -/
structure Sound (s : Orchestration) : Prop where
  runs : ∀ runId record, s.runs.lookup runId = some record → record.Sound
  oneActive : s.OneActive

variable {s t : Orchestration} {action : OrchestrationAction}

theorem sound_init : Sound init where
  runs runId record h := by cases h
  oneActive a b record record' h := by cases h

/-- A step leaves the runs alone, inserts one, or is a step of a thread of one of them. -/
theorem step_cases (hstep : step s action = some t) :
    (t.runs = s.runs ∧ s.InOrder action) ∨
    (∃ choreographyId runId, action = .insert choreographyId runId ∧ runId ∉ s.runs ∧
      t.runs = s.runs.insert runId { choreographyId := choreographyId }) ∨
    ∃ runId runAct record record', action = .act runId runAct ∧
      s.runs.lookup runId = some record ∧ record.act runAct = some record' ∧
      t.runs = s.runs.insert runId record' := by
  cases action with
  | check choreographyId =>
    simp only [step] at hstep
    split_ifs at hstep
    · obtain rfl := Option.some.inj hstep
      exact .inl ⟨rfl, trivial⟩
    · obtain rfl := Option.some.inj hstep
      exact .inl ⟨rfl, trivial⟩
  | refuse choreographyId =>
    simp only [step] at hstep
    split_ifs at hstep
    obtain rfl := Option.some.inj hstep
    exact .inl ⟨rfl, trivial⟩
  | insert choreographyId runId =>
    simp only [step] at hstep
    split_ifs at hstep with hnew
    obtain rfl := Option.some.inj hstep
    exact .inr (.inl ⟨choreographyId, runId, rfl, hnew.2, rfl⟩)
  | act runId runAct =>
    simp only [step] at hstep
    cases hlookup : s.runs.lookup runId with
    | none =>
      simp only [hlookup] at hstep
      cases hstep
    | some record =>
      simp only [hlookup] at hstep
      obtain ⟨record', hact, rfl⟩ := Option.map_eq_some_iff.1 hstep
      exact .inr (.inr ⟨runId, runAct, record, record', rfl, hlookup, hact, rfl⟩)

theorem hasActiveRun_iff {choreographyId : String} :
    s.HasActiveRun choreographyId ↔ ∃ runId record, s.runs.lookup runId = some record ∧
      record.choreographyId = choreographyId ∧ record.status.IsActive := by
  unfold HasActiveRun
  constructor
  · rintro ⟨record, hrecord, hid, hactive⟩
    obtain ⟨runId, hlookup⟩ := Dict.mem_values.1 hrecord
    exact ⟨runId, record, hlookup, hid, hactive⟩
  · rintro ⟨runId, record, hlookup, hid, hactive⟩
    exact ⟨record, Dict.mem_values.2 ⟨runId, hlookup⟩, hid, hactive⟩

/-- The run that is inserted is the only active one when there was none. -/
theorem oneActive_insert_iff {choreographyId runId : String} (h : s.OneActive)
    (hnew : runId ∉ s.runs)
    (ht : t.runs = s.runs.insert runId { choreographyId := choreographyId }) :
    t.OneActive ↔ ¬ s.HasActiveRun choreographyId := by
  rw [hasActiveRun_iff]
  unfold OneActive
  rw [ht]
  constructor
  · rintro hone ⟨b, record, hlookup, hid, hactive⟩
    have hne : b ≠ runId := by
      rintro rfl
      exact hnew (Dict.mem_of_lookup hlookup)
    refine hne (hone b runId record _ ?_ (AList.lookup_insert _) hid hactive (.inl rfl))
    rw [AList.lookup_insert_ne hne, hlookup]
  · intro hnone a b record record' ha hb hid hactive hactive'
    by_cases ha' : a = runId
    · by_cases hb' : b = runId
      · rw [ha', hb']
      · rw [AList.lookup_insert_ne hb'] at hb
        rw [ha', AList.lookup_insert] at ha
        obtain rfl := Option.some.inj ha
        exact absurd ⟨b, record', hb, hid.symm, hactive'⟩ hnone
    · rw [AList.lookup_insert_ne ha'] at ha
      by_cases hb' : b = runId
      · rw [hb', AList.lookup_insert] at hb
        obtain rfl := Option.some.inj hb
        exact absurd ⟨a, record, ha, hid, hactive⟩ hnone
      · rw [AList.lookup_insert_ne hb'] at hb
        exact h a b record record' ha hb hid hactive hactive'

/-- A step of a thread that does not make its run active keeps one active run. -/
theorem OneActive.act {runId : String} {record record' : RunRecord} (h : s.OneActive)
    (hlookup : s.runs.lookup runId = some record)
    (hid : record'.choreographyId = record.choreographyId)
    (hactive : record'.status.IsActive → record.status.IsActive)
    (ht : t.runs = s.runs.insert runId record') : t.OneActive := by
  -- what is active now was active before
  have hold : ∀ a now, t.runs.lookup a = some now → ∃ old, s.runs.lookup a = some old ∧
      now.choreographyId = old.choreographyId ∧ (now.status.IsActive → old.status.IsActive) := by
    intro a now hnow
    rw [ht] at hnow
    by_cases ha : a = runId
    · subst ha
      rw [AList.lookup_insert] at hnow
      obtain rfl := Option.some.inj hnow
      exact ⟨record, hlookup, hid, hactive⟩
    · rw [AList.lookup_insert_ne ha] at hnow
      exact ⟨now, hnow, rfl, id⟩
  intro a b now now' ha hb hids hactive hactive'
  obtain ⟨old, hold_a, hid_a, hactive_a⟩ := hold a now ha
  obtain ⟨old', hold_b, hid_b, hactive_b⟩ := hold b now' hb
  exact h a b old old' hold_a hold_b (by rw [← hid_a, ← hid_b, hids]) (hactive_a hactive)
    (hactive_b hactive')

/-- A step that comes in order leaves every run as it should be. -/
theorem Sound.step (h : s.Sound) (horder : s.InOrder action)
    (hstep : Orchestration.step s action = some t) : t.Sound := by
  obtain ⟨hsame, -⟩ | ⟨choreographyId, runId, rfl, hnew, ht⟩ |
    ⟨runId, runAct, record, record', rfl, hlookup, hact, ht⟩ := step_cases hstep
  · exact
      { runs := by rw [hsame]; exact h.runs
        oneActive := by unfold OneActive; rw [hsame]; exact h.oneActive }
  · refine
      { runs := fun a now hnow => ?_
        oneActive := (oneActive_insert_iff h.oneActive hnew ht).2 horder }
    rw [ht] at hnow
    by_cases ha : a = runId
    · subst ha
      rw [AList.lookup_insert] at hnow
      obtain rfl := Option.some.inj hnow
      exact
        { status := rfl
          decided := fun _ hne => by cases hne
          final := fun _ hne => by cases hne }
    · rw [AList.lookup_insert_ne ha] at hnow
      exact h.runs a now hnow
  · have hrecord := h.runs runId record hlookup
    have horder' : record.InOrder runAct := horder record hlookup
    refine
      { runs := fun a now hnow => ?_
        oneActive := h.oneActive.act hlookup (RunRecord.choreographyId_act hact)
          (hrecord.active_of_act hact horder') ht }
    rw [ht] at hnow
    by_cases ha : a = runId
    · subst ha
      rw [AList.lookup_insert] at hnow
      obtain rfl := Option.some.inj hnow
      exact hrecord.act hact horder'
    · rw [AList.lookup_insert_ne ha] at hnow
      exact h.runs a now hnow

/-- Only the run of the thread can lose a terminal status. -/
theorem keepsTerminal_act_iff {runId : String} {runAct : RunAct} {record record' : RunRecord}
    (hstep : Orchestration.step s (.act runId runAct) = some t)
    (hlookup : s.runs.lookup runId = some record) (ht : t.runs = s.runs.insert runId record') :
    s.KeepsTerminal (.act runId runAct) ↔
      (record.status.IsTerminal → record'.status = record.status) := by
  constructor
  · intro hkeeps hterminal
    have hkept := hkeeps t hstep runId record hlookup hterminal
    rw [ht, AList.lookup_insert] at hkept
    exact Option.some.inj hkept
  · intro hkept u hu a old hold hterminal
    obtain rfl := Option.some.inj (hstep.symm.trans hu)
    rw [ht]
    by_cases ha : a = runId
    · subst ha
      obtain rfl := Option.some.inj (hlookup.symm.trans hold)
      rw [AList.lookup_insert]
      exact congrArg some (hkept hterminal)
    · rw [AList.lookup_insert_ne ha, hold]
      rfl

/-- A step keeps one active run and the terminal statuses exactly when it comes in order. -/
theorem Sound.kept_iff (h : s.Sound) (hstep : Orchestration.step s action = some t) :
    ((∀ t, Orchestration.step s action = some t → t.OneActive) ∧ s.KeepsTerminal action) ↔
      s.InOrder action := by
  have hnext : (∀ t, Orchestration.step s action = some t → t.OneActive) ↔ t.OneActive :=
    ⟨fun hall => hall t hstep, fun hone u hu => Option.some.inj (hstep.symm.trans hu) ▸ hone⟩
  rw [hnext]
  obtain ⟨hsame, horder⟩ | ⟨choreographyId, runId, rfl, hnew, ht⟩ |
    ⟨runId, runAct, record, record', rfl, hlookup, hact, ht⟩ := step_cases hstep
  · refine iff_of_true ⟨(h.step horder hstep).oneActive, fun u hu a old hold _ => ?_⟩ horder
    obtain rfl := Option.some.inj (hstep.symm.trans hu)
    rw [hsame, hold]
    rfl
  · rw [oneActive_insert_iff h.oneActive hnew ht]
    refine and_iff_left fun u hu a old hold _ => ?_
    obtain rfl := Option.some.inj (hstep.symm.trans hu)
    have hne : a ≠ runId := by
      rintro rfl
      exact hnew (Dict.mem_of_lookup hold)
    rw [ht, AList.lookup_insert_ne hne, hold]
    rfl
  · have hrecord := h.runs runId record hlookup
    have horder : s.InOrder (.act runId runAct) ↔ record.InOrder runAct :=
      ⟨fun hall => hall record hlookup,
        fun hone old hold => Option.some.inj (hlookup.symm.trans hold) ▸ hone⟩
    rw [keepsTerminal_act_iff hstep hlookup ht, hrecord.kept_iff hact, horder]
    exact and_iff_right_of_imp fun hone =>
      h.oneActive.act hlookup (RunRecord.choreographyId_act hact)
        (hrecord.active_of_act hact hone) ht

/-- In a run a choreography never has two active runs and no terminal status is overwritten exactly
when the steps come in order. -/
theorem runs_right_iff {actions : List OrchestrationAction}
    (hrun : run step init actions = some t) :
    (Throughout step OneActive init actions ∧ EachStep step KeepsTerminal init actions) ↔
      EachStep step InOrder init actions := by
  rw [throughout_iff hrun, and_iff_right sound_init.oneActive, ← eachStep_and]
  exact eachStep_congr (I := Sound) (fun _ _ _ h horder hstep => h.step horder hstep)
    (fun _ _ _ h hstep => h.kept_iff hstep) sound_init hrun

instance (record : RunRecord) : ∀ runAct, Decidable (record.InOrder runAct)
  | .begin | .saveNode => inferInstanceAs (Decidable (record.cancelSaved = false))
  | .finish =>
    inferInstanceAs (Decidable (record.cancelSaved = true → record.stage = .decided .cancelled))
  | .saveCancelled =>
    inferInstanceAs (Decidable (∀ status ∈ record.savedFinal?, status = .cancelled))
  | .launch | .decide _ | .cleanUp | .read | .signal => inferInstanceAs (Decidable True)

instance (s : Orchestration) : ∀ action, Decidable (s.InOrder action)
  | .insert choreographyId _ => inferInstanceAs (Decidable (¬ s.HasActiveRun choreographyId))
  | .act runId runAct =>
    inferInstanceAs (Decidable (∀ record ∈ s.runs.lookup runId, record.InOrder runAct))
  | .check _ | .refuse _ => inferInstanceAs (Decidable True)

/-- A request that makes the run `r1` and starts its thread. -/
def startRun : List OrchestrationAction :=
  [.check "c", .insert "c" "r1", .act "r1" .launch, .act "r1" .begin]

/-- The run is cancelled, its thread sees the stop flag and ends before the cancel request saves;
then another run is started. -/
def cancelledThenStarted : List OrchestrationAction :=
  startRun ++ [.act "r1" .saveNode, .act "r1" .read, .act "r1" .signal, .act "r1" (.decide true),
    .act "r1" .finish, .act "r1" .saveCancelled, .act "r1" .cleanUp, .check "c",
    .insert "c" "r2"]

theorem runs_right_cancelledThenStarted :
    Throughout step OneActive init cancelledThenStarted ∧
      EachStep step KeepsTerminal init cancelledThenStarted := by
  obtain ⟨t, ht⟩ := Option.isSome_iff_exists.1
    (show (run (guarded step InOrder) init cancelledThenStarted).isSome = true by decide +kernel)
  exact (runs_right_iff (run_of_guarded_run ht)).2 (eachStep_of_guarded_run ht)

/-- Two requests check before either inserts its run; and a node that is still executed is saved,
with its run as it is in memory, after the cancel request has saved the run. -/
theorem two_active_and_revived :
    (∃ s, run step init [.check "c", .check "c", .insert "c" "r1", .insert "c" "r2"] = some s ∧
      ¬ s.OneActive) ∧
    ∃ s, run step init (startRun ++ [.act "r1" .read, .act "r1" .signal,
        .act "r1" .saveCancelled]) = some s ∧
      ¬ s.KeepsTerminal (.act "r1" .saveNode) := by
  constructor
  · obtain ⟨s, hs, htest⟩ : ∃ s, run step init
        [.check "c", .check "c", .insert "c" "r1", .insert "c" "r2"] = some s ∧
        s.runs.lookup "r1" = some { choreographyId := "c" } ∧
        s.runs.lookup "r2" = some { choreographyId := "c" } := ⟨_, rfl, by decide +kernel⟩
    refine ⟨s, hs, fun hone => ?_⟩
    have hsame := hone "r1" "r2" _ _ htest.1 htest.2 rfl (.inl rfl) (.inl rfl)
    exact absurd hsame (by decide)
  · obtain ⟨s, t, hs, ht, htest⟩ : ∃ s t, run step init (startRun ++ [.act "r1" .read,
        .act "r1" .signal, .act "r1" .saveCancelled]) = some s ∧
        step s (.act "r1" .saveNode) = some t ∧
        (s.runs.lookup "r1").map RunRecord.status = some .cancelled ∧
        (t.runs.lookup "r1").map RunRecord.status = some .running :=
      ⟨_, _, rfl, rfl, by decide +kernel⟩
    refine ⟨s, hs, fun hkeeps => ?_⟩
    obtain ⟨record, hlookup, hstatus⟩ := Option.map_eq_some_iff.1 htest.1
    have hkept := hkeeps t ht "r1" record hlookup (by rw [hstatus]; decide)
    rw [htest.2, hstatus] at hkept
    exact absurd hkept (by decide)

end Orchestration

end Axo
