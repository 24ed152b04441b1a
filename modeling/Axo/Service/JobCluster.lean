import Axo.Lib.Transition
import Axo.Service.JobResults
import Mathlib.Logic.Function.Basic

/-!
# One job in a cluster

A job from its submission to the results stored for it: `submit_job` at the endpoint that takes it
in, the forwards of `_resolve_placement` and `_forward_job_to_endpoint`, the retries of
`_retry_or_finalize` and `_perform_retry`, the completion recorder, and the messages
`JOB_RESULT_SYNC` and `JOB_RESULT_REPLICATE` of `job_result_sync.py`.

* `ForwardCall` is a `JOB_FORWARD` command and the thread that awaits its answer, which may give up
  while the command is still on its way;
* `JobCluster.copies` are the copies of the job that the runtimes hold;
* `JobCluster.invokeAt` is a call of `invoke`, `JobCluster.settle` what its caller does with the
  answer;
* `JobCluster.step` is the system.

Whatever depends on other jobs, the ledger or the containers is chosen by the action: where a
placement leads, when a container fails, what a function returns.  A message that has been sent
may arrive any number of times, or never.
-/

namespace Axo

open Function

/-- Who awaits the answer to a forward. -/
inductive ForwardCaller
  /-- the handler of `JOB_SUBMIT` -/
  | submit
  /-- the handler of the `JOB_FORWARD` that is itself a forward -/
  | forwarded (call : ℕ)
  /-- `_perform_retry` -/
  | retry
  deriving DecidableEq

/-- How far the command of a forward has come. -/
inductive ForwardPhase
  | sent
  | lost
  /-- the target handles it -/
  | handling
  | accepted
  | refused (error : String)
  deriving DecidableEq

/-- A call of `_forward_job_to_endpoint`. -/
structure ForwardCall where
  origin : EndpointId
  target : EndpointId
  caller : ForwardCaller
  phase : ForwardPhase
  /-- the origin still awaits the answer -/
  waiting : Bool
  deriving DecidableEq

/-- Where a copy of the job is in the runtime that holds it. -/
inductive CopyStage
  /-- `_dispatch_once_ready` waits for the container -/
  | starting
  /-- handed to a container -/
  | handed
  /-- its container has failed, and `_perform_retry` is to run -/
  | retrying
  deriving DecidableEq

/-- Where `invoke` leads. -/
inductive InvokeAnswer
  /-- to a container of the endpoint, which may still have to start -/
  | here (cold : Bool)
  | refused (error : String)
  | elsewhere (target : EndpointId)
  deriving DecidableEq

/-- The state of one job. -/
structure JobCluster (η : Type) where
  submitted : Bool
  /-- what each endpoint stores for the job -/
  results : EndpointId → Option JobResult
  copies : List (EndpointId × CopyStage)
  calls : List ForwardCall
  /-- the endpoints whose runtime has taken the job at some time -/
  taken : List EndpointId
  /-- the job's entry in `_attempts` -/
  attempts : EndpointId → ℕ
  /-- how often the job was handed to a container -/
  dispatches : ℕ
  /-- how often its container failed -/
  failures : ℕ
  /-- the results that went to `replicate_fn` -/
  reports : List JobResult
  /-- the payloads and hashes of `JOB_RESULT_REPLICATE` -/
  pushes : List (ResultDoc × η)
  /-- the hashes of the `ResultConsistencyStore` -/
  hashes : EndpointId → Option η

/-- The steps of the system. -/
inductive JobClusterAction
  /-- `JOB_SUBMIT`, past the validation -/
  | submit (e : EndpointId) (answer : InvokeAnswer)
  /-- a `JOB_FORWARD` arrives, and passes the validation -/
  | deliver (call : ℕ) (answer : InvokeAnswer)
  /-- a `JOB_FORWARD` arrives, and fails the validation -/
  | reject (call : ℕ) (error : String)
  | lose (call : ℕ)
  /-- the answer to a `JOB_FORWARD` arrives -/
  | reply (call : ℕ)
  /-- the origin gives up on the answer -/
  | timeout (call : ℕ) (error : String)
  /-- a container has started -/
  | ready (e : EndpointId)
  /-- the runtime reports the job: a result, a cancellation or a failed start, of which some pop
  the entry in `_attempts` -/
  | report (e : EndpointId) (stage : CopyStage) (pops : Bool) (completion : Completion)
  /-- the runtime reports a job that it has reported or does not give up, as when a cancellation
  meets a result on its way -/
  | reportAgain (e : EndpointId) (completion : Completion)
  /-- `_retry_or_finalize`, which may find the function in the registry or not -/
  | fail (e : EndpointId) (known : Bool) (error : String) (durationMs : Option ℚ)
  /-- `_perform_retry` -/
  | retry (e : EndpointId) (answer : InvokeAnswer)
  /-- `JobResultSyncHandler.handle` -/
  | sync (e : EndpointId) (report : ℕ)
  /-- `JobResultReplicateHandler.handle` -/
  | replicate (e : EndpointId) (push : ℕ)
  /-- `reverify`, of the sweep or after a request for this job -/
  | reverify (e : EndpointId)

namespace JobCluster

variable {η : Type}

/-- Before the job is submitted. -/
def init : JobCluster η where
  submitted := false
  results := fun _ => none
  copies := []
  calls := []
  taken := []
  attempts := fun _ => 0
  dispatches := 0
  failures := 0
  reports := []
  pushes := []
  hashes := fun _ => none

/-- `results.put`. -/
def store (s : JobCluster η) (e : EndpointId) (result : JobResult) : JobCluster η :=
  { s with results := update s.results e (some result) }

@[simp] theorem store_results_self (s : JobCluster η) (e : EndpointId) (result : JobResult) :
    (s.store e result).results e = some result :=
  update_self ..

theorem store_results_ne (s : JobCluster η) {e e' : EndpointId} (result : JobResult)
    (h : e' ≠ e) : (s.store e result).results e' = s.results e' :=
  update_of_ne h ..

/-- `on_complete`. -/
def complete (s : JobCluster η) (e : EndpointId) (result : JobResult) : JobCluster η :=
  { s.store e result with reports := s.reports ++ [result] }

/-- `_attempts.pop(job_id, None)`. -/
def popAttempts (s : JobCluster η) (e : EndpointId) : JobCluster η :=
  { s with attempts := update s.attempts e 0 }

/-- A forward has got so far. -/
def setPhase (s : JobCluster η) (call : ℕ) (phase : ForwardPhase) : JobCluster η :=
  { s with calls := s.calls.modify call fun c => { c with phase := phase } }

theorem setPhase_setPhase (s : JobCluster η) (call : ℕ) (phase phase' : ForwardPhase) :
    (s.setPhase call phase).setPhase call phase' = s.setPhase call phase' := by
  simp only [setPhase, List.modify_modify_eq]
  rfl

/-- The origin of a forward stops waiting. -/
def stopWaiting (s : JobCluster η) (call : ℕ) : JobCluster η :=
  { s with calls := s.calls.modify call fun c => { c with waiting := false } }

/-- A copy of the job comes to a runtime, or moves on in one. -/
def addCopy (s : JobCluster η) (e : EndpointId) (stage : CopyStage) : JobCluster η :=
  { s with copies := (e, stage) :: s.copies }

/-- A copy of the job leaves a runtime, or moves on in it. -/
def dropCopy (s : JobCluster η) (e : EndpointId) (stage : CopyStage) : JobCluster η :=
  { s with copies := s.copies.erase (e, stage) }

/-- `_enqueue_job`. -/
def handOver (s : JobCluster η) (e : EndpointId) : JobCluster η :=
  { s.addCopy e .handed with dispatches := s.dispatches + 1 }

/-- `fanout_result_to_peers`. -/
def push (s : JobCluster η) (doc : ResultDoc) (hash : η) : JobCluster η :=
  { s with pushes := s.pushes ++ [(doc, hash)] }

section Step

variable (job : Uuid)

/-- What the caller of `invoke` at an endpoint does with the answer. -/
def settle (s : JobCluster η) (e : EndpointId) (caller : ForwardCaller)
    (answer : Except String Unit) : JobCluster η :=
  match caller, answer with
  | .submit, .ok _ | .retry, .ok _ => s
  | .forwarded call, .ok _ => s.setPhase call .accepted
  | .submit, .error error => s.store e (failedResult job.hex error)
  | .forwarded call, .error error =>
    (s.store e (failedResult job.hex error)).setPhase call (.refused error)
  | .retry, .error error =>
    (s.popAttempts e).complete e ((Completion.unplaced error).result job.hex)

/-- `invoke` at an endpoint, and what its caller does when it returns at once. -/
def invokeAt (s : JobCluster η) (e : EndpointId) (caller : ForwardCaller) :
    InvokeAnswer → JobCluster η
  | .here cold =>
    let s := { s with taken := e :: s.taken }
    (if cold = true then s.addCopy e .starting else s.handOver e).settle job e caller (.ok ())
  | .refused error => s.settle job e caller (.error error)
  | .elsewhere target => { s with calls := s.calls ++ [⟨e, target, caller, .sent, true⟩] }

/-- `submit_job` past the validation. -/
def submitJobAt (s : JobCluster η) (e : EndpointId) (caller : ForwardCaller)
    (answer : InvokeAnswer) : JobCluster η :=
  (s.store e (pendingResult job.hex)).invokeAt job e caller answer

variable [DecidableEq η] (sha256 : ResultDoc → η) (maxRetries : ℤ)

/-- `_max_retries_for`. -/
def maxRetriesFor (known : Bool) : ℕ := if known = true then maxRetries.toNat else 0

/-- `_retry_or_finalize`, of a copy that has been taken from its container. -/
def retryOrFinalize (s : JobCluster η) (e : EndpointId) (known : Bool) (error : String)
    (durationMs : Option ℚ) : JobCluster η :=
  if s.attempts e < maxRetriesFor maxRetries known then
    { s.addCopy e .retrying with attempts := update s.attempts e (s.attempts e + 1) }
  else
    (s.popAttempts e).complete e
      ({ outcome := .error error, durationMs := durationMs : Completion }.result job.hex)

/-- A push whose hash fits is stored, unless its payload cannot be decoded. -/
def receive (s : JobCluster η) (e : EndpointId) (doc : ResultDoc) (hash : η) : JobCluster η :=
  if sha256 doc = hash then
    match JobResult.decode doc with
    | some result => { s.store e result with hashes := update s.hashes e (some hash) }
    | none => s
  else s

/-- One step. -/
def step (s : JobCluster η) : JobClusterAction → Option (JobCluster η)
  | .submit e answer =>
    if s.submitted = true then none
    else some ({ s with submitted := true }.submitJobAt job e .submit answer)
  | .deliver i answer =>
    match s.calls[i]? with
    | some call =>
      if call.phase = .sent then
        some ((s.setPhase i .handling).submitJobAt job call.target (.forwarded i) answer)
      else none
    | none => none
  | .reject i error =>
    match s.calls[i]? with
    | some call => if call.phase = .sent then some (s.setPhase i (.refused error)) else none
    | none => none
  | .lose i =>
    match s.calls[i]? with
    | some call => if call.phase = .sent then some (s.setPhase i .lost) else none
    | none => none
  | .reply i =>
    match s.calls[i]? with
    | some call =>
      if call.waiting = true then
        match call.phase with
        | .accepted => some ((s.stopWaiting i).settle job call.origin call.caller (.ok ()))
        | .refused error =>
          some ((s.stopWaiting i).settle job call.origin call.caller (.error error))
        | .sent | .lost | .handling => none
      else none
    | none => none
  | .timeout i error =>
    match s.calls[i]? with
    | some call =>
      if call.waiting = true then
        some ((s.stopWaiting i).settle job call.origin call.caller (.error error))
      else none
    | none => none
  | .ready e =>
    if (e, .starting) ∈ s.copies then some ((s.dropCopy e .starting).handOver e) else none
  | .report e stage pops completion =>
    if (e, stage) ∈ s.copies ∧ stage ≠ .retrying then
      let s := s.dropCopy e stage
      some ((if pops = true then s.popAttempts e else s).complete e (completion.result job.hex))
    else none
  | .reportAgain e completion =>
    if e ∈ s.taken then some ((s.popAttempts e).complete e (completion.result job.hex)) else none
  | .fail e known error durationMs =>
    if (e, .handed) ∈ s.copies then
      some ({ s.dropCopy e .handed with failures := s.failures + 1 }.retryOrFinalize job maxRetries
        e known error durationMs)
    else none
  | .retry e answer =>
    if (e, .retrying) ∈ s.copies then
      some ((s.dropCopy e .retrying).invokeAt job e .retry answer)
    else none
  | .sync e i =>
    match s.reports[i]? with
    | some result =>
      let doc := result.encode
      match JobResult.decode doc with
      | some _ => some ((s.receive sha256 e doc (sha256 doc)).push doc (sha256 doc))
      | none => some s
    | none => none
  | .replicate e i =>
    match s.pushes[i]? with
    | some (doc, hash) => some (s.receive sha256 e doc hash)
    | none => none
  | .reverify e =>
    match s.results e with
    | some result =>
      let doc := result.encode
      some (s.push doc ((s.hashes e).getD (sha256 doc)))
    | none => none

end Step

/-! ### The list of forwards -/

section Calls

variable {α : Type*} {f : α → α} {l : List α} {i : ℕ} {a b : α}

theorem countP_modify (p : α → Bool) (h : l[i]? = some a) :
    (l.modify i f).countP p + (p a).toNat = l.countP p + (p (f a)).toNat := by
  induction l generalizing i with
  | nil => cases h
  | cons c l ih =>
    cases i with
    | zero =>
      obtain rfl : c = a := by simpa using h
      rw [List.modify_zero_cons, List.countP_cons, List.countP_cons]
      cases p c <;> cases p (f c) <;> simp
    | succ i =>
      rw [List.modify_succ_cons, List.countP_cons, List.countP_cons]
      have := ih (i := i) (by simpa using h)
      omega

theorem countP_modify_le_succ (p : α → Bool) :
    (l.modify i f).countP p ≤ l.countP p + 1 := by
  cases h : l[i]? with
  | none =>
    rw [List.modify_eq_self (List.getElem?_eq_none_iff.1 h)]
    exact Nat.le_succ _
  | some a =>
    have := countP_modify (f := f) p h
    have := Bool.toNat_le (p (f a))
    omega

/-- A change that makes nothing count. -/
theorem countP_modify_le (p : α → Bool) (hf : ∀ a, p (f a) = true → p a = true) :
    (l.modify i f).countP p ≤ l.countP p := by
  cases h : l[i]? with
  | none => rw [List.modify_eq_self (List.getElem?_eq_none_iff.1 h)]
  | some a =>
    have hcount := countP_modify (f := f) p h
    have hle : (p (f a)).toNat ≤ (p a).toNat := by
      cases hfa : p (f a) with
      | false => exact Nat.zero_le _
      | true => rw [hf a hfa]
    omega

theorem mem_modify (h : b ∈ l.modify i f) : b ∈ l ∨ ∃ a ∈ l, b = f a := by
  induction l generalizing i with
  | nil => simp at h
  | cons c l ih =>
    cases i with
    | zero =>
      rw [List.modify_zero_cons] at h
      rcases List.mem_cons.1 h with rfl | h
      · exact Or.inr ⟨c, List.mem_cons_self, rfl⟩
      · exact Or.inl (List.mem_cons_of_mem _ h)
    | succ i =>
      rw [List.modify_succ_cons] at h
      rcases List.mem_cons.1 h with rfl | h
      · exact Or.inl List.mem_cons_self
      · rcases ih h with h | ⟨a, ha, rfl⟩
        · exact Or.inl (List.mem_cons_of_mem _ h)
        · exact Or.inr ⟨a, List.mem_cons_of_mem _ ha, rfl⟩

end Calls

/-! ### What a step does -/

section Spec

variable (job : Uuid) [DecidableEq η] (sha256 : ResultDoc → η) (maxRetries : ℤ)

/-- The steps, with what each of them finds and where it leads. -/
inductive StepTo (s : JobCluster η) : JobClusterAction → JobCluster η → Prop
  | submit {e answer} (hfresh : s.submitted = false) :
      StepTo s (.submit e answer) ({ s with submitted := true }.submitJobAt job e .submit answer)
  | deliver {i answer} {call : ForwardCall} (hcall : s.calls[i]? = some call)
      (hphase : call.phase = .sent) :
      StepTo s (.deliver i answer)
        ((s.setPhase i .handling).submitJobAt job call.target (.forwarded i) answer)
  | reject {i error} {call : ForwardCall} (hcall : s.calls[i]? = some call)
      (hphase : call.phase = .sent) :
      StepTo s (.reject i error) (s.setPhase i (.refused error))
  | lose {i} {call : ForwardCall} (hcall : s.calls[i]? = some call)
      (hphase : call.phase = .sent) : StepTo s (.lose i) (s.setPhase i .lost)
  | accepted {i} {call : ForwardCall} (hcall : s.calls[i]? = some call)
      (hwaiting : call.waiting = true) (hphase : call.phase = .accepted) :
      StepTo s (.reply i) ((s.stopWaiting i).settle job call.origin call.caller (.ok ()))
  | refused {i error} {call : ForwardCall} (hcall : s.calls[i]? = some call)
      (hwaiting : call.waiting = true) (hphase : call.phase = .refused error) :
      StepTo s (.reply i) ((s.stopWaiting i).settle job call.origin call.caller (.error error))
  | timeout {i error} {call : ForwardCall} (hcall : s.calls[i]? = some call)
      (hwaiting : call.waiting = true) :
      StepTo s (.timeout i error)
        ((s.stopWaiting i).settle job call.origin call.caller (.error error))
  | ready {e} (hcopy : (e, .starting) ∈ s.copies) :
      StepTo s (.ready e) ((s.dropCopy e .starting).handOver e)
  | report {e stage pops completion} (hcopy : (e, stage) ∈ s.copies) (hstage : stage ≠ .retrying) :
      StepTo s (.report e stage pops completion)
        ((if pops = true then (s.dropCopy e stage).popAttempts e else s.dropCopy e stage).complete e
          (completion.result job.hex))
  | reportAgain {e completion} (htaken : e ∈ s.taken) :
      StepTo s (.reportAgain e completion)
        ((s.popAttempts e).complete e (completion.result job.hex))
  | fail {e known error durationMs} (hcopy : (e, .handed) ∈ s.copies) :
      StepTo s (.fail e known error durationMs)
        ({ s.dropCopy e .handed with failures := s.failures + 1 }.retryOrFinalize job maxRetries
          e known error durationMs)
  | retry {e answer} (hcopy : (e, .retrying) ∈ s.copies) :
      StepTo s (.retry e answer) ((s.dropCopy e .retrying).invokeAt job e .retry answer)
  | sync {e i} {result : JobResult} (hreport : s.reports[i]? = some result) :
      StepTo s (.sync e i)
        ((s.receive sha256 e result.encode (sha256 result.encode)).push result.encode
          (sha256 result.encode))
  | syncRaises {e i} {result : JobResult} (hreport : s.reports[i]? = some result)
      (hdecode : JobResult.decode result.encode = none) : StepTo s (.sync e i) s
  | replicate {e i} {doc : ResultDoc} {hash : η} (hpush : s.pushes[i]? = some (doc, hash)) :
      StepTo s (.replicate e i) (s.receive sha256 e doc hash)
  | reverify {e} {result : JobResult} (hresult : s.results e = some result) :
      StepTo s (.reverify e)
        (s.push result.encode ((s.hashes e).getD (sha256 result.encode)))

variable {job sha256 maxRetries} {s t : JobCluster η} {a : JobClusterAction}

theorem stepTo_of_step (h : s.step job sha256 maxRetries a = some t) :
    s.StepTo job sha256 maxRetries a t := by
  cases a with
  | submit e answer =>
    simp only [step] at h
    split_ifs at h with hsub
    cases h
    exact .submit (by simpa using hsub)
  | deliver i answer =>
    simp only [step] at h
    split at h
    · rename_i call hcall
      split_ifs at h with hphase
      cases h
      exact .deliver hcall hphase
    · cases h
  | reject i error =>
    simp only [step] at h
    split at h
    · rename_i call hcall
      split_ifs at h with hphase
      cases h
      exact .reject hcall hphase
    · cases h
  | lose i =>
    simp only [step] at h
    split at h
    · rename_i call hcall
      split_ifs at h with hphase
      cases h
      exact .lose hcall hphase
    · cases h
  | reply i =>
    simp only [step] at h
    split at h
    · rename_i call hcall
      split_ifs at h with hwaiting
      split at h
      · rename_i hphase
        cases h
        exact .accepted hcall hwaiting hphase
      · rename_i error hphase
        cases h
        exact .refused hcall hwaiting hphase
      all_goals cases h
    · cases h
  | timeout i error =>
    simp only [step] at h
    split at h
    · rename_i call hcall
      split_ifs at h with hwaiting
      cases h
      exact .timeout hcall hwaiting
    · cases h
  | ready e =>
    simp only [step] at h
    split_ifs at h with hcopy
    cases h
    exact .ready hcopy
  | report e stage pops completion =>
    simp only [step] at h
    split_ifs at h with hcopy hpops
    · cases h
      subst hpops
      exact .report hcopy.1 hcopy.2
    · cases h
      obtain rfl : pops = false := by simpa using hpops
      exact .report hcopy.1 hcopy.2
  | reportAgain e completion =>
    simp only [step] at h
    split_ifs at h with htaken
    cases h
    exact .reportAgain htaken
  | fail e known error durationMs =>
    simp only [step] at h
    split_ifs at h with hcopy
    cases h
    exact .fail hcopy
  | retry e answer =>
    simp only [step] at h
    split_ifs at h with hcopy
    cases h
    exact .retry hcopy
  | sync e i =>
    simp only [step] at h
    split at h
    · rename_i result hreport
      split at h
      · cases h
        exact .sync hreport
      · rename_i hdecode
        cases h
        exact .syncRaises hreport hdecode
    · cases h
  | replicate e i =>
    simp only [step] at h
    split at h
    · rename_i doc hash hpush
      cases h
      exact .replicate hpush
    · cases h
  | reverify e =>
    simp only [step] at h
    split at h
    · rename_i result hresult
      cases h
      exact .reverify hresult
    · cases h

end Spec

/-! ### Before the submission -/

section Submission

variable {job : Uuid} {s t : JobCluster η} {e : EndpointId}

@[simp] theorem settle_submitted (caller : ForwardCaller) (answer : Except String Unit) :
    (s.settle job e caller answer).submitted = s.submitted := by
  cases caller <;> cases answer <;> rfl

@[simp] theorem invokeAt_submitted (caller : ForwardCaller) (answer : InvokeAnswer) :
    (s.invokeAt job e caller answer).submitted = s.submitted := by
  cases answer with
  | here cold => cases cold <;> simp [invokeAt, addCopy, handOver]
  | refused error => simp [invokeAt]
  | elsewhere target => rfl

theorem retryOrFinalize_submitted {maxRetries : ℤ} (known : Bool) (error : String)
    (durationMs : Option ℚ) :
    (s.retryOrFinalize job maxRetries e known error durationMs).submitted = s.submitted := by
  unfold retryOrFinalize
  split_ifs <;> rfl

variable [DecidableEq η] {sha256 : ResultDoc → η} {maxRetries : ℤ} {a : JobClusterAction}

/-- A result that travels well is stored as it was. -/
theorem receive_encode {r : JobResult} (hr : r.Travels) :
    s.receive sha256 e r.encode (sha256 r.encode) =
      { s.store e r with hashes := update s.hashes e (some (sha256 r.encode)) } := by
  rw [receive, if_pos rfl, JobResult.decode_encode hr]

theorem receive_submitted (doc : ResultDoc) (hash : η) :
    (s.receive sha256 e doc hash).submitted = s.submitted := by
  unfold receive
  split_ifs
  · split <;> rfl
  · rfl

/-- After any step the job is submitted, if it was so before or the step is its submission. -/
theorem StepTo.submitted (h : s.StepTo job sha256 maxRetries a t) :
    t.submitted = true ∨ t.submitted = s.submitted := by
  cases h with
  | submit hfresh => exact Or.inl (by simp [submitJobAt, store])
  | deliver hcall hphase => exact Or.inr (by simp [submitJobAt, store, setPhase])
  | accepted | refused | timeout => exact Or.inr (settle_submitted _ _)
  | report =>
    refine Or.inr ?_
    split_ifs <;> rfl
  | fail hcopy => exact Or.inr (retryOrFinalize_submitted _ _ _)
  | retry hcopy => exact Or.inr (invokeAt_submitted _ _)
  | sync hreport => exact Or.inr (receive_submitted _ _)
  | replicate hpush => exact Or.inr (receive_submitted _ _)
  | reject | lose | ready | reportAgain | syncRaises | reverify => exact Or.inr rfl

/-- Nothing happens before the submission. -/
theorem StepTo.submits (h : (init : JobCluster η).StepTo job sha256 maxRetries a t) :
    ∃ e answer, a = .submit e answer := by
  cases h with
  | submit => exact ⟨_, _, rfl⟩
  | deliver hcall | reject hcall | lose hcall | accepted hcall | refused hcall | timeout hcall =>
    cases hcall
  | ready hcopy | report hcopy | fail hcopy | retry hcopy => cases hcopy
  | reportAgain htaken => cases htaken
  | sync hreport | syncRaises hreport => cases hreport
  | replicate hpush => cases hpush
  | reverify hresult => cases hresult

/-- After a step the job is submitted. -/
theorem submitted_of_stepTo (hs : s.submitted = false → s = init)
    (h : s.StepTo job sha256 maxRetries a t) : t.submitted = true := by
  cases hsub : s.submitted with
  | true => exact h.submitted.elim id fun ht => ht.trans hsub
  | false =>
    obtain rfl := hs hsub
    obtain ⟨e, answer, rfl⟩ := h.submits
    cases h
    rw [submitJobAt, invokeAt_submitted]
    rfl

end Submission

end JobCluster

end Axo
