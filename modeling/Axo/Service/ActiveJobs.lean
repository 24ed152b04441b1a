import Axo.Lib.Transition
import Axo.Service.JobResults
import Mathlib.Data.Finset.Basic

/-!
# The active jobs of an endpoint

`App._active_job_ids`, which the events `JOB_SUBMITTED`, `JOB_COMPLETED` and `JOB_FAILED` keep, beside
the results that `submit_job`, `on_complete` and the receivers of replicated results store, and the
handler of `VIRTUAL_ENV_ASSIGN` that asks for the set.

* `JobEndpoint.step` is one endpoint: the receive loop goes through the effects of `submitJob` one
  by one, the threads that report jobs save a result first and emit the event later;
* `ActiveGuard` excludes what leaves the set behind: a job that the runtime does not take, and a
  result that arrives for a job that counts as active;
* `HalfFinished` says that the result of an active job is saved and its event is still to come;
* `activeExact_of_reach` is the result for whole runs: the set is exact but for such jobs.
-/

namespace Axo

open Transition

/-- `EndpointBusyError`. -/
def endpointBusyError : AxoError :=
  { code := 2004
    name := "ENDPOINT_BUSY"
    message := "endpoint has active jobs, cannot reassign its virtual environment" }

/-- What the runtime's `invoke` does with a job. -/
inductive RuntimeAnswer
  | here
  | elsewhere
  | refused (error : String)
  deriving DecidableEq

/-- The result of `invoke`. -/
def RuntimeAnswer.toExcept : RuntimeAnswer → Except String Unit
  | .here | .elsewhere => .ok ()
  | .refused error => .error error

/-- An endpoint, as far as its active jobs are concerned. -/
structure JobEndpoint where
  results : Dict String JobResult
  activeJobIds : Finset String
  /-- the jobs that the runtime has taken at some time -/
  taken : Finset String
  /-- what the receive loop still has to do for the command in hand -/
  remaining : List JobEffect
  /-- the job of that command is taken here -/
  takesHere : Bool
  /-- the jobs whose result is saved and whose event is still to come -/
  finishing : List String
  virtualEnvironmentId : Option String

/-- The steps of an endpoint. -/
inductive JobEndpointAction
  /-- `JobSubmitHandler.handle`, with the id it mints -/
  | submit (registry : StorageKey → Option FunctionRecord) (envelope : JobEnvelope)
      (jobId : String) (answer : RuntimeAnswer)
  /-- `JobForwardHandler.handle` -/
  | forward (registry : StorageKey → Option FunctionRecord) (envelope : JobEnvelope)
      (answer : RuntimeAnswer)
  /-- the receive loop goes on -/
  | next
  /-- `on_complete` saves a result -/
  | complete (jobId : String) (completion : Completion)
  /-- `on_complete` emits `JOB_COMPLETED` or `JOB_FAILED` -/
  | finish (jobId : String)
  /-- `JobResultSyncHandler.handle` or `JobResultReplicateHandler.handle` -/
  | receive (jobId : String) (doc : ResultDoc) (hashFits : Bool)
  /-- `VirtualEnvAssignHandler.handle` -/
  | assign (virtualEnvironmentId : Option String)

namespace JobEndpoint

/-- An endpoint that has just started. -/
def init (virtualEnvironmentId : Option String) : JobEndpoint where
  results := ∅
  activeJobIds := ∅
  taken := ∅
  remaining := []
  takesHere := false
  finishing := []
  virtualEnvironmentId := virtualEnvironmentId

/-- `results.put`. -/
def store (s : JobEndpoint) (jobId : String) (result : JobResult) : JobEndpoint :=
  { s with results := s.results.insert jobId result }

/-- One effect of `submit_job`. -/
def perform (s : JobEndpoint) : JobEffect → JobEndpoint
  | .put key result => s.store key.id { toFunctionResult := result }
  | .emit jobId _ _ _ => { s with activeJobIds := insert jobId s.activeJobIds }
  | .invoke _ jobId _ => if s.takesHere = true then { s with taken := insert jobId s.taken } else s

/-- `VirtualEnvAssignHandler.handle`. -/
def virtualEnvAssign (s : JobEndpoint) (virtualEnvironmentId : Option String) :
    CommandResult × JobEndpoint :=
  if s.activeJobIds = ∅ then
    ({ ok := true }, { s with virtualEnvironmentId := virtualEnvironmentId })
  else (.fromError endpointBusyError, s)

/-- One step. -/
def step (s : JobEndpoint) : JobEndpointAction → Option JobEndpoint
  | .submit registry envelope jobId answer =>
    if s.remaining.isEmpty = true ∧ (s.results.lookup jobId).isNone = true then
      some { s with
        remaining := (submitJob registry (fun _ _ _ => answer.toExcept) envelope jobId).2
        takesHere := answer = .here }
    else none
  | .forward registry envelope answer =>
    if s.remaining.isEmpty = true then
      some { s with
        remaining := (jobForward registry (fun _ _ _ => answer.toExcept) envelope).2
        takesHere := answer = .here }
    else none
  | .next =>
    match s.remaining with
    | effect :: remaining => some ({ s with remaining := remaining }.perform effect)
    | [] => none
  | .complete jobId completion =>
    if jobId ∈ s.taken then
      some { s.store jobId (completion.result jobId) with finishing := jobId :: s.finishing }
    else none
  | .finish jobId =>
    if jobId ∈ s.finishing then
      some { s with
        activeJobIds := s.activeJobIds.erase jobId
        finishing := s.finishing.erase jobId }
    else none
  | .receive jobId doc hashFits =>
    if hashFits = true then
      match JobResult.decode doc with
      | some result => some (s.store jobId result)
      | none => some s
    else some s
  | .assign virtualEnvironmentId =>
    if s.remaining.isEmpty = true then some (s.virtualEnvAssign virtualEnvironmentId).2 else none

/-- The endpoint stores the job as pending. -/
def storesPending (s : JobEndpoint) (jobId : String) : Bool :=
  (s.results.lookup jobId).any JobResult.isPending

/-- `JOB_SUBMITTED` is still to be emitted for the job. -/
def announces (s : JobEndpoint) (jobId : String) : Bool :=
  s.remaining.any fun
    | .emit jobId' _ _ _ => jobId' = jobId
    | .put _ _ | .invoke _ _ _ => false

/-- The job is to be active, once all that has begun is done. -/
def toBeActive (s : JobEndpoint) (jobId : String) : Bool :=
  jobId ∉ s.finishing && (decide (jobId ∈ s.activeJobIds) || s.announces jobId)

/-- The guard on the steps: the runtime takes the jobs that are submitted, no job is recorded
while a result of it is being saved, no error has the text of a pending job, and a result that
arrives is one that the active set expects. -/
def ActiveGuard (s : JobEndpoint) : JobEndpointAction → Prop
  | .submit _ _ _ answer => answer = .here ∨ answer = .elsewhere
  | .forward _ envelope answer =>
    (answer = .here ∨ answer = .elsewhere) ∧
      (envelope.jobId.all fun jobId => jobId ∉ s.finishing) = true
  | .complete jobId completion =>
    (completion.result jobId).isPending = false ∧ s.announces jobId = false
  | .receive jobId doc hashFits =>
    hashFits = true → ((JobResult.decode doc).all fun result =>
      result.isPending = s.toBeActive jobId) = true
  | .next | .finish _ | .assign _ => True

instance (s : JobEndpoint) : (a : JobEndpointAction) → Decidable (s.ActiveGuard a)
  | .submit _ _ _ answer => inferInstanceAs (Decidable (answer = .here ∨ answer = .elsewhere))
  | .forward _ envelope answer =>
    inferInstanceAs (Decidable ((answer = .here ∨ answer = .elsewhere) ∧
      (envelope.jobId.all fun jobId => jobId ∉ s.finishing) = true))
  | .complete jobId completion =>
    inferInstanceAs (Decidable ((completion.result jobId).isPending = false ∧
      s.announces jobId = false))
  | .receive jobId doc hashFits =>
    inferInstanceAs (Decidable (hashFits = true → ((JobResult.decode doc).all fun result =>
      result.isPending = s.toBeActive jobId) = true))
  | .next | .finish _ | .assign _ => inferInstanceAs (Decidable True)

/-- No command is in hand. -/
def Between (s : JobEndpoint) : Prop := s.remaining = []

/-- The job is active, though a result of it is saved: a thread has still to emit the event. -/
def HalfFinished (s : JobEndpoint) (jobId : String) : Prop :=
  jobId ∈ s.finishing ∧ jobId ∈ s.activeJobIds

/-- The active jobs are those that are stored as pending. -/
def ActiveExact (s : JobEndpoint) : Prop :=
  ∀ jobId, jobId ∈ s.activeJobIds ↔ s.storesPending jobId = true

/-! ### The invariant -/

variable {s t : JobEndpoint} {job : String}

/-- How far the receive loop is with a submission. -/
inductive Recording (s : JobEndpoint) : List JobEffect → Prop
  | done : Recording s []
  | invoking {job ref params} : Recording s [.invoke ref job params]
  | announcing {job functionId version ref params} (hjob : job ∉ s.finishing)
      (hpending : s.storesPending job = true) :
      Recording s [.emit job functionId version params, .invoke ref job params]
  | recording {job functionId version ref params} (hjob : job ∉ s.finishing) :
      Recording s [.put { id := job } { jobId := job, ok := false, error := "PENDING" },
        .emit job functionId version params, .invoke ref job params]

/-- The set is exact but for the jobs that are being recorded or finished. -/
structure ActiveInv (s : JobEndpoint) : Prop where
  recording : Recording s s.remaining
  saved : ∀ job ∈ s.finishing, ∃ r, s.results.lookup job = some r ∧ r.isPending = false
  exact : ∀ job, job ∉ s.finishing → s.announces job = false →
    (job ∈ s.activeJobIds ↔ s.storesPending job = true)

@[simp] theorem storesPending_store (r : JobResult) :
    (s.store job r).storesPending job = r.isPending := by
  simp [storesPending, store]

theorem storesPending_store_ne {job' : String} (r : JobResult) (h : job' ≠ job) :
    (s.store job r).storesPending job' = s.storesPending job' := by
  rw [storesPending, store, AList.lookup_insert_ne h, storesPending]

theorem Recording.mono {effects : List JobEffect} (h : Recording s effects)
    (hfin : ∀ job, job ∉ s.finishing → job ∉ t.finishing)
    (hpending : ∀ job, s.storesPending job = true → t.storesPending job = true) :
    Recording t effects := by
  cases h with
  | done => exact .done
  | invoking => exact .invoking
  | announcing hjob hp => exact .announcing (hfin _ hjob) (hpending _ hp)
  | recording hjob => exact .recording (hfin _ hjob)

theorem Recording.notMem_finishing {effects : List JobEffect} (h : Recording s effects)
    (heq : s.remaining = effects) (hann : s.announces job = true) : job ∉ s.finishing := by
  rw [announces, heq] at hann
  cases h with
  | done | invoking => cases hann
  | announcing hjob | recording hjob =>
    obtain rfl : _ = job := by simpa using hann
    exact hjob

/-- A result is stored that is pending, or is not for the job that is being recorded. -/
theorem Recording.store {effects : List JobEffect} {r : JobResult} (h : Recording s effects)
    (heq : s.remaining = effects) (hr : r.isPending = true ∨ s.announces job = false) :
    Recording (s.store job r) effects := by
  cases h with
  | done => exact .done
  | invoking => exact .invoking
  | @announcing job' functionId version ref params hfin hpending =>
    refine .announcing hfin ?_
    rcases eq_or_ne job' job with rfl | hne
    · rw [storesPending_store]
      exact hr.resolve_right (by simp [announces, heq])
    · rwa [storesPending_store_ne _ hne]
  | recording hfin => exact .recording hfin

/-- A job that is not being recorded is finished. -/
theorem Recording.finishing {effects : List JobEffect} (h : Recording s effects)
    (heq : s.remaining = effects) (hann : s.announces job = false) :
    Recording { s with finishing := job :: s.finishing } effects := by
  cases h with
  | done => exact .done
  | invoking => exact .invoking
  | @announcing job' functionId version ref params hfin hpending =>
    have hne : job' ≠ job := by
      rintro rfl
      simp [announces, heq] at hann
    exact .announcing (by simpa [hne] using hfin) hpending
  | @recording job' functionId version ref params hfin =>
    have hne : job' ≠ job := by
      rintro rfl
      simp [announces, heq] at hann
    exact .recording (by simpa [hne] using hfin)

namespace ActiveInv

theorem init (virtualEnvironmentId : Option String) :
    ActiveInv (init virtualEnvironmentId) where
  recording := .done
  saved := fun job h => by cases h
  exact := fun job _ _ => by simp [JobEndpoint.init, storesPending]

/-- A submission begins. -/
theorem begin {effects : List JobEffect} {takesHere : Bool} (h : ActiveInv s)
    (hidle : s.remaining = [])
    (heffects : effects = [] ∨ ∃ job functionId version ref params, job ∉ s.finishing ∧ effects =
      [.put { id := job } { jobId := job, ok := false, error := "PENDING" },
        .emit job functionId version params, .invoke ref job params]) :
    ActiveInv { s with remaining := effects, takesHere := takesHere } where
  recording := by
    rcases heffects with rfl | ⟨job, functionId, version, ref, params, hjob, rfl⟩
    · exact .done
    · exact .recording hjob
  saved := h.saved
  exact := fun job hjob _ => h.exact job hjob (by simp [announces, hidle])

/-- The receive loop goes on with a submission. -/
theorem next {effect : JobEffect} {remaining : List JobEffect} (h : ActiveInv s)
    (hs : s.remaining = effect :: remaining) :
    ActiveInv ({ s with remaining := remaining }.perform effect) := by
  obtain ⟨hrecording, hsaved, hexact⟩ := h
  rw [hs] at hrecording
  cases hrecording with
  | @invoking job ref params =>
    have hsame (job' : String) : s.announces job' = false := by simp [announces, hs]
    cases hhere : s.takesHere with
    | true =>
      simp only [perform, if_true]
      exact ⟨.done, hsaved, fun job' hjob' _ => hexact job' hjob' (hsame job')⟩
    | false =>
      simp only [perform]
      exact ⟨.done, hsaved, fun job' hjob' _ => hexact job' hjob' (hsame job')⟩
  | @announcing job functionId version ref params hfin hpending =>
    refine ⟨.invoking, hsaved, fun job' hjob' _ => ?_⟩
    show job' ∈ insert job s.activeJobIds ↔ s.storesPending job' = true
    rcases eq_or_ne job' job with rfl | hne
    · simp [hpending]
    · rw [Finset.mem_insert, or_iff_right hne]
      exact hexact job' hjob' (by simp [announces, hs, hne.symm])
  | @recording job functionId version ref params hfin =>
    have hpending : ({ s with remaining := [.emit job functionId version params,
        .invoke ref job params] }.perform (.put { id := job }
        { jobId := job, ok := false, error := "PENDING" })).storesPending job = true := by
      simp [perform, JobResult.isPending]
    refine ⟨.announcing hfin hpending, fun job' hjob' => ?_, fun job' hjob' hann => ?_⟩
    · have hne : job' ≠ job := fun heq => hfin (heq ▸ hjob')
      obtain ⟨r, hr, hterm⟩ := hsaved job' hjob'
      exact ⟨r, by rw [perform, store, AList.lookup_insert_ne hne, hr], hterm⟩
    · have hne : job' ≠ job := by
        rintro rfl
        simp [announces, perform, store] at hann
      rw [perform, storesPending_store_ne _ hne]
      exact hexact job' hjob' (by simp [announces, hs, hne.symm])

/-- A result of a job is saved, with its event to come. -/
theorem complete {r : JobResult} (h : ActiveInv s) (hterm : r.isPending = false)
    (hann : s.announces job = false) :
    ActiveInv { s.store job r with finishing := job :: s.finishing } where
  recording := (h.recording.store rfl (Or.inr hann)).finishing rfl hann
  saved := by
    intro job' hjob'
    rcases eq_or_ne job' job with rfl | hne
    · exact ⟨r, AList.lookup_insert _, hterm⟩
    · obtain ⟨r', hr', hterm'⟩ := h.saved job' ((List.mem_cons.1 hjob').resolve_left hne)
      exact ⟨r', by rw [store, AList.lookup_insert_ne hne, hr'], hterm'⟩
  exact := by
    intro job' hjob' hann'
    rw [List.mem_cons, not_or] at hjob'
    have hpending : (s.store job r).storesPending job' = s.storesPending job' :=
      storesPending_store_ne r hjob'.1
    exact (h.exact job' hjob'.2 hann').trans (by rw [← hpending]; rfl)

/-- The event of a saved result is emitted. -/
theorem finish (h : ActiveInv s) (hjob : job ∈ s.finishing) :
    ActiveInv { s with
      activeJobIds := s.activeJobIds.erase job
      finishing := s.finishing.erase job } where
  recording := h.recording.mono (fun _ hj hj' => hj (List.mem_of_mem_erase hj')) fun _ hp => hp
  saved := fun job' hjob' => h.saved job' (List.mem_of_mem_erase hjob')
  exact := by
    intro job' hjob' hann
    show job' ∈ s.activeJobIds.erase job ↔ s.storesPending job' = true
    rcases eq_or_ne job' job with rfl | hne
    · obtain ⟨r, hr, hterm⟩ := h.saved job' hjob
      simp [storesPending, hr, hterm]
    · rw [Finset.mem_erase, and_iff_right hne]
      exact h.exact job' (fun hj => hjob' ((List.mem_erase_of_ne hne).2 hj)) hann

/-- A result arrives. -/
theorem receive {r : JobResult} (h : ActiveInv s) (hr : r.isPending = s.toBeActive job) :
    ActiveInv (s.store job r) where
  recording := by
    refine h.recording.store rfl ?_
    by_cases hann : s.announces job = true
    · have hfin := h.recording.notMem_finishing rfl hann
      exact Or.inl (by simp [hr, toBeActive, hann, hfin])
    · exact Or.inr (by simpa using hann)
  saved := by
    intro job' hjob'
    rcases eq_or_ne job' job with rfl | hne
    · have hfin : job' ∈ s.finishing := hjob'
      exact ⟨r, AList.lookup_insert _, by simp [hr, toBeActive, hfin]⟩
    · obtain ⟨r', hr', hterm'⟩ := h.saved job' hjob'
      exact ⟨r', by rw [store, AList.lookup_insert_ne hne, hr'], hterm'⟩
  exact := by
    intro job' hjob' hann
    rcases eq_or_ne job' job with rfl | hne
    · replace hann : s.announces job' = false := hann
      replace hjob' : job' ∉ s.finishing := hjob'
      rw [storesPending_store, hr, toBeActive, hann]
      simp [hjob', store]
    · rw [storesPending_store_ne _ hne]
      exact h.exact job' hjob' hann

end ActiveInv

/-! ### Runs -/

theorem ActiveInv.step {a : JobEndpointAction} (h : ActiveInv s) (hG : s.ActiveGuard a)
    (hstep : s.step a = some t) : ActiveInv t := by
  have hok {answer : RuntimeAnswer} (hanswer : answer = .here ∨ answer = .elsewhere) :
      answer.toExcept = .ok () := by
    rcases hanswer with rfl | rfl <;> rfl
  cases a with
  | submit registry envelope jobId answer =>
    simp only [JobEndpoint.step] at hstep
    split_ifs at hstep with hcond
    cases hstep
    refine h.begin (List.isEmpty_iff.1 hcond.1) ?_
    refine (submitJob_effects envelope jobId fun _ _ _ => hok hG).imp id ?_
    rintro ⟨functionId, version, ref, params, heq⟩
    refine ⟨jobId, functionId, version, ref, params, fun hfin => ?_, heq⟩
    obtain ⟨r, hr, -⟩ := h.saved jobId hfin
    rw [hr] at hcond
    exact absurd hcond.2 (by simp)
  | forward registry envelope answer =>
    simp only [JobEndpoint.step] at hstep
    split_ifs at hstep with hcond
    cases hstep
    refine h.begin (List.isEmpty_iff.1 hcond) ?_
    refine (jobForward_effects envelope fun _ _ _ => hok hG.1).imp id ?_
    rintro ⟨jobId, functionId, version, ref, params, hjob, heq⟩
    refine ⟨jobId, functionId, version, ref, params, ?_, heq⟩
    simpa [hjob] using hG.2
  | next =>
    simp only [JobEndpoint.step] at hstep
    split at hstep
    · rename_i effect remaining heq
      cases hstep
      exact h.next heq
    · cases hstep
  | complete jobId completion =>
    simp only [JobEndpoint.step] at hstep
    split_ifs at hstep
    cases hstep
    exact h.complete hG.1 hG.2
  | finish jobId =>
    simp only [JobEndpoint.step] at hstep
    split_ifs at hstep with hfin
    cases hstep
    exact h.finish hfin
  | receive jobId doc hashFits =>
    simp only [JobEndpoint.step] at hstep
    split_ifs at hstep with hfits
    · split at hstep
      · rename_i result hdecode
        cases hstep
        have hpending := hG hfits
        rw [hdecode] at hpending
        exact h.receive (by simpa using hpending)
      · cases hstep
        exact h
    · cases hstep
      exact h
  | assign virtualEnvironmentId =>
    simp only [JobEndpoint.step] at hstep
    split_ifs at hstep
    cases hstep
    unfold virtualEnvAssign
    split_ifs
    · exact ⟨h.recording.mono (fun _ hj => hj) fun _ hp => hp, h.saved, h.exact⟩
    · exact h

/-- An endpoint without a pending job is given any virtual environment. -/
def AssignsWhenIdle (s : JobEndpoint) : Prop :=
  (∀ job, s.storesPending job = false) → ∀ virtualEnvironmentId,
    (s.virtualEnvAssign virtualEnvironmentId).1.ok = true

/-- A virtual environment is refused as long as a job is active. -/
theorem virtualEnvAssign_ok_iff (virtualEnvironmentId : Option String) :
    (s.virtualEnvAssign virtualEnvironmentId).1.ok = true ↔ ∀ job, job ∉ s.activeJobIds := by
  rw [← Finset.eq_empty_iff_forall_notMem]
  unfold virtualEnvAssign
  split_ifs with hempty
  · exact iff_of_true rfl hempty
  · exact iff_of_false Bool.false_ne_true hempty

theorem ActiveInv.activeExact_iff (h : ActiveInv s) (hb : s.Between) :
    s.ActiveExact ↔ ∀ job, ¬ s.HalfFinished job := by
  refine ⟨fun hexact job ⟨hfin, hactive⟩ => ?_, fun hnone job => ?_⟩
  · -- its result is saved, so it is not stored as pending
    obtain ⟨r, hr, hterm⟩ := h.saved job hfin
    have hpending := (hexact job).1 hactive
    rw [storesPending, hr, Option.any_some, hterm] at hpending
    cases hpending
  · have hann : s.announces job = false := by rw [announces, hb, List.any_nil]
    by_cases hfin : job ∈ s.finishing
    · obtain ⟨r, hr, hterm⟩ := h.saved job hfin
      refine iff_of_false (fun hactive => hnone job ⟨hfin, hactive⟩) ?_
      rw [storesPending, hr, Option.any_some, hterm]
      exact Bool.false_ne_true
    · exact h.exact job hfin hann

theorem ActiveInv.assignsWhenIdle_iff (h : ActiveInv s) (hb : s.Between) :
    s.AssignsWhenIdle ↔
      ((∀ job, s.storesPending job = false) → ∀ job, ¬ s.HalfFinished job) := by
  simp only [AssignsWhenIdle, virtualEnvAssign_ok_iff]
  refine ⟨fun hassigns hidle job hhalf => hassigns hidle none job hhalf.2,
    fun hnone hidle _ job hactive => ?_⟩
  have hpending := ((h.activeExact_iff hb).2 (hnone hidle) job).1 hactive
  rw [hidle job] at hpending
  cases hpending

/-- Between two commands of a guarded run the active jobs are those that are stored as pending,
unless a thread has still to emit the event of one; and an endpoint without a pending job is refused
a virtual environment at such a moment only. -/
theorem activeExact_of_reach {virtualEnvironmentId : Option String}
    (h : Reach step ActiveGuard (JobEndpoint.init virtualEnvironmentId) s) (hb : s.Between) :
    (s.ActiveExact ↔ ∀ job, ¬ s.HalfFinished job) ∧
      (s.AssignsWhenIdle ↔
        ((∀ job, s.storesPending job = false) → ∀ job, ¬ s.HalfFinished job)) := by
  have hinv : ActiveInv s :=
    Reach.invariant (.init virtualEnvironmentId) (fun _ _ _ hs hG hstep => hs.step hG hstep) h
  exact ⟨hinv.activeExact_iff hb, hinv.assignsWhenIdle_iff hb⟩

/-- A job that is taken and completed, one that is forwarded away, and a result that arrives for
another one. -/
theorem activeExact_threeJobs : ∃ s, Reach step ActiveGuard (init none) s ∧ s.Between ∧
    s.activeJobIds = {"b"} ∧ s.ActiveExact ∧ s.AssignsWhenIdle := by
  obtain ⟨s, hs, htest⟩ := exists_reach_of_guarded_run step ActiveGuard (init none)
    (fun s => s.remaining.isEmpty && s.finishing.isEmpty && decide (s.activeJobIds = {"b"}))
    [.submit (fun _ => none) { functionId := "f", functionVersion := some 1 } "a" .here, .next,
      .next, .next,
      .forward (fun _ => none) { functionId := "f", functionVersion := some 1, jobId := "b" }
        .elsewhere, .next, .next,
      .complete "a" ⟨.ok (.json "1"), none, []⟩, .next, .finish "a",
      .receive "c" (failedResult "c" "crashed").encode true] (by decide +kernel)
  simp only [Bool.and_eq_true, List.isEmpty_iff, decide_eq_true_eq] at htest
  obtain ⟨⟨hb, hfin⟩, hactive⟩ := htest
  obtain ⟨hexact, hassigns⟩ := activeExact_of_reach hs hb
  have hnone (job : String) : ¬ s.HalfFinished job := by simp [HalfFinished, hfin]
  exact ⟨s, hs, hb, hactive, hexact.2 hnone, hassigns.2 fun _ => hnone⟩

/-- A job that the runtime does not take stays active, when no event is to come any more, and the
endpoint refuses a virtual environment. -/
theorem activeJob_leaks : ∃ s, Reach step Always (init none) s ∧ s.Between ∧ s.finishing = [] ∧
    ¬ s.ActiveExact ∧ (s.virtualEnvAssign (some "ve")).1.ok = false := by
  obtain ⟨s, hs, htest⟩ := exists_reach_of_run step (init none)
    (fun s => s.remaining.isEmpty && s.finishing.isEmpty && decide ("a" ∈ s.activeJobIds) &&
      !s.storesPending "a")
    [.submit (fun _ => none) { functionId := "f", functionVersion := some 1 } "a"
      (.refused "no container"), .next, .next, .next, .next] (by decide +kernel)
  simp only [Bool.and_eq_true, List.isEmpty_iff, decide_eq_true_eq, Bool.not_eq_true'] at htest
  obtain ⟨⟨⟨hb, hfin⟩, hactive⟩, hpending⟩ := htest
  refine ⟨s, hs, hb, hfin, fun hexact => ?_, ?_⟩
  · rw [hexact, hpending] at hactive
    cases hactive
  · rw [virtualEnvAssign, if_neg (Finset.ne_empty_of_mem hactive)]
    rfl

end JobEndpoint

end Axo
