import Axo.Service.JobWriteOnce
import Axo.Service.RouterServer

/-!
# What `JOB_RESULT` says about a job

`JobResultHandler` tells a job that still runs by the error text of its record.  The cluster of one
job is watched here: `writes` is the history of the records that the endpoints store, with what the
record does not say, whether it is an outcome of the job or only notes the job.

* `JobCluster.writesOf` are the writes of a step; `results_eq_of_step` says that the step makes
  these writes and no other;
* `AnswersTruly` says that after each write every endpoint that has a record answers as the
  outcomes stored there ask for;
* `KeptApart` is the condition under which it does: no outcome has the text of the note, and no
  note is written over an outcome.
-/

namespace Axo

open Function Transition

/-- A call of `results.put` for the job. -/
structure ResultWrite where
  endpoint : EndpointId
  result : JobResult
  /-- the record is an outcome of the job; otherwise it notes that the job has come -/
  isOutcome : Bool

/-! ### Histories -/

namespace ResultWrite

variable {x : ResultWrite} {writes : List ResultWrite} {e : EndpointId}

/-- The last write at an endpoint; the newest write stands first. -/
def lastAt (writes : List ResultWrite) (e : EndpointId) : Option ResultWrite :=
  writes.find? (·.endpoint = e)

/-- The outcome recorded at an endpoint, the newest if there are several. -/
def outcomeAt (writes : List ResultWrite) (e : EndpointId) : Option JobResult :=
  (writes.find? fun x => x.endpoint = e ∧ x.isOutcome = true).map (·.result)

/-- What the endpoints store after the writes. -/
def put (writes : List ResultWrite) (results : EndpointId → Option JobResult) :
    EndpointId → Option JobResult :=
  writes.foldr (fun x results => update results x.endpoint (some x.result)) results

@[simp] theorem put_nil (results : EndpointId → Option JobResult) : put [] results = results := rfl

@[simp] theorem put_cons (results : EndpointId → Option JobResult) :
    put (x :: writes) results = update (put writes results) x.endpoint (some x.result) := rfl

theorem put_append (ws : List ResultWrite) (results : EndpointId → Option JobResult) :
    put (ws ++ writes) results = put ws (put writes results) :=
  List.foldr_append

theorem lastAt_cons_self : lastAt (x :: writes) x.endpoint = some x := by
  simp [lastAt]

theorem lastAt_cons_ne (h : x.endpoint ≠ e) : lastAt (x :: writes) e = lastAt writes e := by
  simp [lastAt, h]

theorem put_apply (writes : List ResultWrite) (e : EndpointId) :
    put writes (fun _ => none) e = (lastAt writes e).map (·.result) := by
  induction writes with
  | nil => rfl
  | cons x writes ih =>
    rcases eq_or_ne x.endpoint e with rfl | hne
    · rw [lastAt_cons_self, put_cons, update_self, Option.map_some]
    · rw [lastAt_cons_ne hne, put_cons, update_of_ne hne.symm, ih]

theorem outcomeAt_cons_self (h : x.isOutcome = true) :
    outcomeAt (x :: writes) x.endpoint = some x.result := by
  simp [outcomeAt, h]

theorem outcomeAt_cons_note (h : x.isOutcome = false) (e : EndpointId) :
    outcomeAt (x :: writes) e = outcomeAt writes e := by
  simp [outcomeAt, h]

theorem outcomeAt_cons_ne (h : x.endpoint ≠ e) :
    outcomeAt (x :: writes) e = outcomeAt writes e := by
  simp [outcomeAt, h]

/-- The write that an endpoint's record comes from, and what was written before it. -/
theorem exists_suffix_of_lastAt (h : lastAt writes e = some x) :
    x.endpoint = e ∧ ∃ before, x :: before <:+ writes ∧
      outcomeAt writes e = outcomeAt (x :: before) e := by
  induction writes with
  | nil => cases h
  | cons y writes ih =>
    rcases eq_or_ne y.endpoint e with rfl | hne
    · rw [lastAt_cons_self] at h
      cases h
      exact ⟨rfl, writes, List.suffix_rfl, rfl⟩
    · rw [lastAt_cons_ne hne] at h
      obtain ⟨hend, before, hsuffix, heq⟩ := ih h
      exact ⟨hend, before, hsuffix.trans (List.suffix_cons _ _), by
        rw [outcomeAt_cons_ne hne, heq]⟩

/-- What a write may not do: an outcome has another text than the note, and a note is written where
no outcome has been recorded. -/
def Separate (x : ResultWrite) (before : List ResultWrite) : Prop :=
  (x.isOutcome = true → x.result.error ≠ "PENDING") ∧
    (x.isOutcome = false → outcomeAt before x.endpoint = none)

instance (before : List ResultWrite) : Decidable (x.Separate before) :=
  inferInstanceAs (Decidable (_ ∧ _))

end ResultWrite

open ResultWrite

/-- Every write is kept apart from those before it. -/
def KeptApart : List ResultWrite → Prop
  | [] => True
  | x :: before => x.Separate before ∧ KeptApart before

instance : (writes : List ResultWrite) → Decidable (KeptApart writes)
  | [] => inferInstanceAs (Decidable True)
  | x :: before =>
    have := instDecidableKeptApart before
    inferInstanceAs (Decidable (x.Separate before ∧ KeptApart before))

theorem keptApart_iff {writes : List ResultWrite} :
    KeptApart writes ↔ ∀ x before, x :: before <:+ writes → x.Separate before := by
  induction writes with
  | nil => exact ⟨fun _ x before h => by simp at h, fun _ => trivial⟩
  | cons y writes ih =>
    rw [KeptApart, ih]
    constructor
    · rintro ⟨hhead, htail⟩ x before h
      rcases List.suffix_cons_iff.1 h with heq | h
      · cases heq
        exact hhead
      · exact htail x before h
    · intro h
      exact ⟨h y writes List.suffix_rfl, fun x before hsuffix =>
        h x before (hsuffix.trans (List.suffix_cons _ _))⟩

/-! ### Answers -/

/-- The status that the outcome recorded at an endpoint asks for. -/
def statusFor : Option JobResult → String
  | none => "PENDING"
  | some outcome => outcome.status

theorem JobResult.status_ne_pending (result : JobResult) : result.status ≠ "PENDING" := by
  unfold JobResult.status
  split_ifs <;> decide

/-- The answer about a job that has a record names the status. -/
theorem jobResult_status (floatText : ℚ → String) {results : Dict String JobResult} {jobId : String}
    {result : JobResult} (hid : jobId ≠ "") (h : results.lookup jobId = some result) :
    (jobResult floatText results { jobId := some jobId }).ok = true ∧
      (jobResult floatText results { jobId := some jobId }).metadata.lookup "status" =
        some (.str (if result.error = "PENDING" then "PENDING" else result.status)) := by
  have hfilter : (some jobId).filter (fun id => decide (id ≠ "")) = some jobId := by
    simp [Option.filter, hid]
  simp only [jobResult, hfilter, h]
  by_cases hpending : result.error = "PENDING"
  · have hp : result.isPending = true := by simp [JobResult.isPending, hpending]
    rw [if_pos hp, if_pos hpending]
    exact ⟨rfl, by simp [List.lookup_cons]⟩
  · have hp : ¬ result.isPending = true := by simp [JobResult.isPending, hpending]
    rw [if_neg hp, if_neg hpending]
    exact ⟨rfl, by simp [JobResult.endedReply, List.lookup_cons]⟩

/-- After each of the writes, whoever has a record of the job answers truly about it. -/
def AnswersTruly (floatText : ℚ → String) (job : Uuid) (writes : List ResultWrite) : Prop :=
  ∀ ws, ws <:+ writes → ∀ (e : EndpointId) (results : Dict String JobResult) (result : JobResult),
    put ws (fun _ => none) e = some result → results.lookup job.hex = some result →
    (jobResult floatText results { jobId := some job.hex }).ok = true ∧
      (jobResult floatText results { jobId := some job.hex }).metadata.lookup "status" =
        some (.str (statusFor (outcomeAt ws e)))

/-- The notes all have the text of a note. -/
def NotesPending (writes : List ResultWrite) : Prop :=
  ∀ x ∈ writes, x.isOutcome = false → x.result.error = "PENDING"

/-- A history is answered truly throughout exactly when its writes are kept apart. -/
theorem answersTruly_iff (floatText : ℚ → String) {job : Uuid} (hid : job.hex ≠ "")
    {writes : List ResultWrite} (hnotes : NotesPending writes) :
    AnswersTruly floatText job writes ↔ KeptApart writes := by
  rw [keptApart_iff]
  constructor
  · intro h x before hsuffix
    have hput : put (x :: before) (fun _ => none) x.endpoint = some x.result := by
      rw [put_apply, lastAt_cons_self, Option.map_some]
    have hlookup : (AList.insert job.hex x.result ∅ : Dict String JobResult).lookup job.hex =
        some x.result := AList.lookup_insert _
    have hanswer := (h _ hsuffix x.endpoint _ x.result hput hlookup).2
    rw [(jobResult_status floatText hid hlookup).2] at hanswer
    have hstatus : (if x.result.error = "PENDING" then "PENDING" else x.result.status) =
        statusFor (outcomeAt (x :: before) x.endpoint) := by simpa using hanswer
    refine ⟨fun houtcome hpending => ?_, fun hnote => ?_⟩
    · rw [if_pos hpending, outcomeAt_cons_self houtcome] at hstatus
      exact x.result.status_ne_pending hstatus.symm
    · have hpending := hnotes x (hsuffix.subset List.mem_cons_self) hnote
      rw [if_pos hpending, outcomeAt_cons_note hnote] at hstatus
      cases houtcome : outcomeAt before x.endpoint with
      | none => rfl
      | some outcome =>
        rw [houtcome] at hstatus
        exact absurd hstatus.symm outcome.status_ne_pending
  · intro h ws hws e results result hput hlookup
    obtain ⟨hok, hanswer⟩ := jobResult_status floatText hid hlookup
    refine ⟨hok, ?_⟩
    rw [hanswer]
    rw [put_apply] at hput
    obtain ⟨x, hlast, rfl⟩ := Option.map_eq_some_iff.1 hput
    obtain ⟨rfl, before, hsuffix, houtcome⟩ := exists_suffix_of_lastAt hlast
    have hseparate := h x before (hsuffix.trans hws)
    rw [houtcome]
    cases hkind : x.isOutcome with
    | true => rw [if_neg (hseparate.1 hkind), outcomeAt_cons_self hkind, statusFor]
    | false =>
      have hpending := hnotes x (hws.subset (hsuffix.subset List.mem_cons_self)) hkind
      rw [if_pos hpending, outcomeAt_cons_note hkind, hseparate.2 hkind, statusFor]

theorem JobResult.error_of_decode {doc : ResultDoc} {result : JobResult}
    (h : JobResult.decode doc = some result) : result.error = doc.error := by
  unfold JobResult.decode at h
  obtain ⟨refs, -, rfl⟩ := Option.map_eq_some_iff.1 h
  rfl

/-! ### The watched cluster -/

namespace JobCluster

variable {η : Type} (job : Uuid)

/-- The writes of `submit_job`, the newest first. -/
def submitWrites (e : EndpointId) : InvokeAnswer → List ResultWrite
  | .refused error => [⟨e, failedResult job.hex error, true⟩, ⟨e, pendingResult job.hex, false⟩]
  | .here _ | .elsewhere _ => [⟨e, pendingResult job.hex, false⟩]

/-- The write of a handler that has received a document. -/
def receiveWrites (e : EndpointId) (doc : ResultDoc) (isOutcome : Bool) : List ResultWrite :=
  match JobResult.decode doc with
  | some result => [⟨e, result, isOutcome⟩]
  | none => []

variable [DecidableEq η] (sha256 : ResultDoc → η) (maxRetries : ℤ)

/-- The writes of a step, the newest first; `outcomePush` says of which pushes the record is an
outcome. -/
def writesOf (s : JobCluster η) (outcomePush : ℕ → Bool) : JobClusterAction → List ResultWrite
  | .submit e answer => submitWrites job e answer
  | .deliver i answer =>
    match s.calls[i]? with
    | some call => submitWrites job call.target answer
    | none => []
  | .reply i =>
    match s.calls[i]? with
    | some call =>
      match call.phase with
      | .refused error => [⟨call.origin, failedResult job.hex error, true⟩]
      | .sent | .lost | .handling | .accepted => []
    | none => []
  | .timeout i error =>
    match s.calls[i]? with
    | some call => [⟨call.origin, failedResult job.hex error, true⟩]
    | none => []
  | .report e _ _ completion | .reportAgain e completion =>
    [⟨e, completion.result job.hex, true⟩]
  | .fail e known error durationMs =>
    if s.attempts e < maxRetriesFor maxRetries known then []
    else [⟨e, { outcome := .error error, durationMs := durationMs : Completion }.result job.hex,
      true⟩]
  | .retry e answer =>
    match answer with
    | .refused error => [⟨e, failedResult job.hex error, true⟩]
    | .here _ | .elsewhere _ => []
  | .sync e i =>
    match s.reports[i]? with
    | some result => receiveWrites e result.encode true
    | none => []
  | .replicate e i =>
    match s.pushes[i]? with
    | some (doc, hash) => if sha256 doc = hash then receiveWrites e doc (outcomePush i) else []
    | none => []
  | .reject _ _ | .lose _ | .ready _ | .reverify _ => []

variable {job sha256 maxRetries} {s t : JobCluster η} {a : JobClusterAction} {e : EndpointId}

omit [DecidableEq η] in
theorem submitJobAt_results (caller : ForwardCaller) (answer : InvokeAnswer) :
    (s.submitJobAt job e caller answer).results = put (submitWrites job e answer) s.results := by
  cases answer with
  | here cold => cases caller <;> cases cold <;> rfl
  | refused error => cases caller <;> rfl
  | elsewhere target => rfl

theorem receive_results_eq (doc : ResultDoc) (hash : η) (isOutcome : Bool) :
    (s.receive sha256 e doc hash).results =
      put (if sha256 doc = hash then receiveWrites e doc isOutcome else []) s.results := by
  unfold receive receiveWrites
  split_ifs
  · cases JobResult.decode doc <;> rfl
  · rfl

omit [DecidableEq η] in
theorem retryOrFinalize_results (known : Bool) (error : String) (durationMs : Option ℚ) :
    (s.retryOrFinalize job maxRetries e known error durationMs).results =
      put (if s.attempts e < maxRetriesFor maxRetries known then []
        else [⟨e, { outcome := .error error, durationMs := durationMs : Completion }.result job.hex,
          true⟩]) s.results := by
  unfold retryOrFinalize
  split_ifs <;> rfl

/-- A step makes the writes that are told of it, and no other. -/
theorem results_eq_of_step (outcomePush : ℕ → Bool)
    (h : s.step job sha256 maxRetries a = some t) :
    t.results = put (writesOf job sha256 maxRetries s outcomePush a) s.results := by
  cases stepTo_of_step h with
  | submit hfresh => exact submitJobAt_results _ _
  | deliver hcall hphase =>
    simp only [writesOf, hcall]
    exact submitJobAt_results _ _
  | reject | lose | ready | reverify => rfl
  | accepted hcall hwaiting hphase =>
    simp only [writesOf, hcall, hphase]
    exact settle_ok_results _
  | refused hcall hwaiting hphase =>
    simp only [writesOf, hcall, hphase]
    exact settle_error_results _ _
  | timeout hcall hwaiting =>
    simp only [writesOf, hcall]
    exact settle_error_results _ _
  | @report e stage pops => cases pops <;> rfl
  | reportAgain => rfl
  | fail hcopy => exact retryOrFinalize_results _ _ _
  | @retry e answer hcopy =>
    cases answer with
    | here cold => cases cold <;> rfl
    | refused error => rfl
    | elsewhere target => rfl
  | sync hreport =>
    simp only [writesOf, hreport]
    exact (receive_results_eq _ _ true).trans (by rw [if_pos rfl])
  | syncRaises hreport hdecode =>
    simp only [writesOf, hreport, receiveWrites, hdecode]
    rfl
  | replicate hpush =>
    simp only [writesOf, hpush]
    exact receive_results_eq _ _ _

theorem notesPending_outcome (result : JobResult) : NotesPending [⟨e, result, true⟩] := by
  simp [NotesPending]

theorem notesPending_submitWrites (answer : InvokeAnswer) :
    NotesPending (submitWrites job e answer) := by
  cases answer <;> simp [NotesPending, submitWrites, pendingResult]

theorem notesPending_receiveWrites {doc : ResultDoc} {isOutcome : Bool}
    (h : isOutcome = false → doc.error = "PENDING") :
    NotesPending (receiveWrites e doc isOutcome) := by
  unfold receiveWrites
  cases hdecode : JobResult.decode doc with
  | none => exact fun x hx => by cases hx
  | some result =>
    intro x hx hnote
    obtain rfl := List.mem_singleton.1 hx
    exact (JobResult.error_of_decode hdecode).trans (h hnote)

omit [DecidableEq η] in
theorem settle_pushes (caller : ForwardCaller) (answer : Except String Unit) :
    (s.settle job e caller answer).pushes = s.pushes := by
  cases caller <;> cases answer <;> rfl

theorem receive_pushes (doc : ResultDoc) (hash : η) :
    (s.receive sha256 e doc hash).pushes = s.pushes := by
  unfold receive
  split_ifs
  · split <;> rfl
  · rfl

omit [DecidableEq η] in
theorem invokeAt_pushes (caller : ForwardCaller) (answer : InvokeAnswer) :
    (s.invokeAt job e caller answer).pushes = s.pushes := by
  cases answer with
  | here cold =>
    refine (settle_pushes caller _).trans ?_
    split_ifs <;> rfl
  | refused error => exact settle_pushes caller _
  | elsewhere target => rfl

/-- Only a sync and another verification push. -/
theorem pushes_of_step (h : s.step job sha256 maxRetries a = some t)
    (hsync : ∀ e i, a ≠ .sync e i) (hreverify : ∀ e, a ≠ .reverify e) : t.pushes = s.pushes := by
  cases stepTo_of_step h with
  | submit | deliver | retry => exact invokeAt_pushes _ _
  | reject | lose | ready | reportAgain => rfl
  | accepted | refused | timeout => exact settle_pushes _ _
  | @report e stage pops => cases pops <;> rfl
  | fail hcopy =>
    unfold retryOrFinalize
    split_ifs <;> rfl
  | sync | syncRaises => exact absurd rfl (hsync _ _)
  | replicate hpush => exact receive_pushes _ _
  | reverify => exact absurd rfl (hreverify _)

end JobCluster

/-- A cluster, and the history of what its endpoints have stored for the job. -/
structure WatchedCluster (η : Type) where
  cluster : JobCluster η
  /-- the newest first -/
  writes : List ResultWrite
  /-- of which pushes the record is an outcome -/
  outcomePush : ℕ → Bool

namespace WatchedCluster

variable {η : Type}

def init : WatchedCluster η where
  cluster := .init
  writes := []
  outcomePush := fun _ => false

section Step

variable (job : Uuid) [DecidableEq η] (sha256 : ResultDoc → η) (maxRetries : ℤ)

/-- What is pushed by a step is an outcome after a report, and the record of the endpoint when it
verifies again. -/
def outcomePushAfter (w : WatchedCluster η) : JobClusterAction → ℕ → Bool
  | .sync _ _ => update w.outcomePush w.cluster.pushes.length true
  | .reverify e =>
    update w.outcomePush w.cluster.pushes.length ((lastAt w.writes e).any (·.isOutcome))
  | _ => w.outcomePush

/-- A step of the cluster. -/
def step (w : WatchedCluster η) (a : JobClusterAction) : Option (WatchedCluster η) :=
  (w.cluster.step job sha256 maxRetries a).map fun t =>
    { cluster := t
      writes := w.cluster.writesOf job sha256 maxRetries w.outcomePush a ++ w.writes
      outcomePush := w.outcomePushAfter a }

/-- A push is an outcome, or its record has the text of a note. -/
def PushesPending (pushes : List (ResultDoc × η)) (outcomePush : ℕ → Bool) : Prop :=
  ∀ i push, pushes[i]? = some push → outcomePush i = false → push.1.error = "PENDING"

/-- What the history says of the cluster. -/
structure Told (w : WatchedCluster η) : Prop where
  results : w.cluster.results = put w.writes fun _ => none
  notes : NotesPending w.writes
  pushed : PushesPending w.cluster.pushes w.outcomePush

end Step

theorem Told.init : (init : WatchedCluster η).Told where
  results := rfl
  notes := fun x hx => by cases hx
  pushed := fun i push hpush => by cases hpush

variable {job : Uuid} [DecidableEq η] {sha256 : ResultDoc → η} {maxRetries : ℤ}
  {w w' : WatchedCluster η} {a : JobClusterAction}

/-- The notes of a step have the text of a note. -/
theorem Told.notes_writesOf (h : w.Told) :
    NotesPending (w.cluster.writesOf job sha256 maxRetries w.outcomePush a) := by
  have hnil : NotesPending [] := fun x hx => by cases hx
  cases a with
  | submit e answer => exact JobCluster.notesPending_submitWrites answer
  | deliver i answer =>
    simp only [JobCluster.writesOf]
    split
    · exact JobCluster.notesPending_submitWrites answer
    · exact hnil
  | reply i =>
    simp only [JobCluster.writesOf]
    split
    · split
      · exact JobCluster.notesPending_outcome _
      all_goals exact hnil
    · exact hnil
  | timeout i error =>
    simp only [JobCluster.writesOf]
    split
    · exact JobCluster.notesPending_outcome _
    · exact hnil
  | report e stage pops completion => exact JobCluster.notesPending_outcome _
  | reportAgain e completion => exact JobCluster.notesPending_outcome _
  | fail e known error durationMs =>
    simp only [JobCluster.writesOf]
    split_ifs
    · exact hnil
    · exact JobCluster.notesPending_outcome _
  | retry e answer =>
    cases answer with
    | refused error => exact JobCluster.notesPending_outcome _
    | here | elsewhere => exact hnil
  | sync e i =>
    simp only [JobCluster.writesOf]
    split
    · exact JobCluster.notesPending_receiveWrites fun hk => by cases hk
    · exact hnil
  | replicate e i =>
    simp only [JobCluster.writesOf]
    split
    · rename_i doc hash hpush
      split_ifs
      · exact JobCluster.notesPending_receiveWrites (h.pushed i _ hpush)
      · exact hnil
    · exact hnil
  | reject | lose | ready | reverify => exact hnil

omit [DecidableEq η] in
/-- One more push. -/
theorem PushesPending.append {pushes : List (ResultDoc × η)} {outcomePush : ℕ → Bool}
    (h : PushesPending pushes outcomePush) {push : ResultDoc × η} {isOutcome : Bool}
    (hpush : isOutcome = false → push.1.error = "PENDING") :
    PushesPending (pushes ++ [push]) (update outcomePush pushes.length isOutcome) := by
  intro i p hp hkind
  rcases eq_or_ne i pushes.length with rfl | hne
  · rw [List.getElem?_concat_length] at hp
    rw [update_self] at hkind
    exact Option.some.inj hp ▸ hpush hkind
  · rw [update_of_ne hne] at hkind
    rw [List.getElem?_append] at hp
    split_ifs at hp with hlt
    · exact h i p hp hkind
    · rw [List.getElem?_singleton, if_neg (by omega)] at hp
      cases hp

omit [DecidableEq η] in
/-- The record of an endpoint whose last write is a note. -/
theorem Told.error_of_note {e : EndpointId} {result : JobResult} (h : w.Told)
    (hresult : w.cluster.results e = some result)
    (hnote : (lastAt w.writes e).any (·.isOutcome) = false) : result.error = "PENDING" := by
  rw [h.results, put_apply] at hresult
  obtain ⟨x, hlast, rfl⟩ := Option.map_eq_some_iff.1 hresult
  rw [hlast, Option.any_some] at hnote
  exact h.notes x (List.mem_of_find?_eq_some hlast) hnote

/-- What is pushed by a step is an outcome, or has the text of a note. -/
theorem Told.pushed_of_step {t : JobCluster η} (h : w.Told)
    (ht : w.cluster.step job sha256 maxRetries a = some t) :
    PushesPending t.pushes (w.outcomePushAfter a) := by
  cases a with
  | sync e i =>
    cases JobCluster.stepTo_of_step ht with
    | sync hreport =>
      rw [JobCluster.push, JobCluster.receive_pushes]
      exact h.pushed.append fun hkind => by cases hkind
    | syncRaises hreport hdecode =>
      intro i push hpush hkind
      have hlt := (List.getElem?_eq_some_iff.1 hpush).1
      rw [outcomePushAfter, update_of_ne hlt.ne] at hkind
      exact h.pushed i push hpush hkind
  | reverify e =>
    cases JobCluster.stepTo_of_step ht with
    | reverify hresult => exact h.pushed.append (h.error_of_note hresult)
  | _ =>
    rw [JobCluster.pushes_of_step ht (fun _ _ => by simp) (fun _ => by simp)]
    exact h.pushed

theorem Told.step (h : w.Told) (hstep : w.step job sha256 maxRetries a = some w') : w'.Told := by
  obtain ⟨t, ht, rfl⟩ := Option.map_eq_some_iff.1 hstep
  refine ⟨?_, ?_, h.pushed_of_step ht⟩
  · dsimp only
    rw [JobCluster.results_eq_of_step w.outcomePush ht, h.results, put_append]
  · intro x hx hnote
    rcases List.mem_append.1 hx with hx | hx
    · exact h.notes_writesOf x hx hnote
    · exact h.notes x hx hnote

theorem told_of_watched (h : Reach (WatchedCluster.step job sha256 maxRetries) Always init w) :
    w.Told :=
  h.invariant .init fun _ _ _ hw _ hstep => hw.step hstep

/-- In every run the endpoints store what the history says, and they answer truly after each write
exactly when the writes are kept apart. -/
theorem answersTruly_iff_of_reach (floatText : ℚ → String) (hid : job.hex ≠ "")
    (h : Reach (WatchedCluster.step job sha256 maxRetries) Always init w) :
    (w.cluster.results = put w.writes fun _ => none) ∧
      (AnswersTruly floatText job w.writes ↔ KeptApart w.writes) :=
  have htold := told_of_watched h
  ⟨htold.results, answersTruly_iff floatText hid htold.notes⟩

end WatchedCluster

open JobCluster WatchedCluster

/-- A forwarded job fails once and is retried; its result reaches the origin, and is pushed there
again. -/
theorem answersTruly_forwarded : ∃ w : WatchedCluster ResultDoc,
    Reach (WatchedCluster.step jobA id 1) Always .init w ∧ 1 < w.cluster.pushes.length ∧
      AnswersTruly toString jobA w.writes := by
  obtain ⟨w, hw, htest⟩ := exists_reach_of_run (WatchedCluster.step jobA id 1) .init
    (fun w => decide (1 < w.cluster.pushes.length ∧ KeptApart w.writes))
    [.submit "origin" (.elsewhere "target"), .deliver 0 (.here true), .reply 0, .ready "target",
      .fail "target" true "container disconnected" none, .retry "target" (.here false),
      .report "target" .handed true ⟨.ok (.json "1"), none, []⟩, .sync "target" 0,
      .replicate "origin" 0, .reverify "target", .replicate "origin" 1] (by decide +kernel)
  obtain ⟨hpushes, hapart⟩ := of_decide_eq_true htest
  exact ⟨w, hw, hpushes, (answersTruly_iff_of_reach toString (by decide) hw).2.2 hapart⟩

/-- The function raises an exception with the text of the note. -/
theorem not_answersTruly_pending : ∃ w : WatchedCluster ResultDoc,
    Reach (WatchedCluster.step jobA id 1) Always .init w ∧
      ¬ AnswersTruly toString jobA w.writes := by
  obtain ⟨w, hw, htest⟩ := exists_reach_of_run (WatchedCluster.step jobA id 1) .init
    (fun w => decide ¬ KeptApart w.writes)
    [.submit "e" (.here false), .report "e" .handed true ⟨.error "PENDING", none, []⟩]
    (by decide +kernel)
  refine ⟨w, hw, fun htrue => of_decide_eq_true htest ?_⟩
  exact (answersTruly_iff toString (by decide) (told_of_watched hw).notes).1 htrue

end Axo
