import Axo.Projector.ReadModel

/-!
# The record of a job

What `job_handler.apply` makes of the events about one job, which come from every endpoint that has
accepted it: the one it was submitted to and those it was forwarded to.

* `jobAfter` is the record after a sequence of events, `lookup_jobs_project` its place in the read
  model;
* `JobReports` says what the endpoints' event streams tell of the job;
* `jobRecordRight_iff`: the record is right throughout and in the end exactly when the terminal event
  is projected after all others.
-/

namespace Axo.Projector

variable {jobId : String} {event terminal : DomainEvent} {events : List DomainEvent}

/-! ### The record -/

/-- What an event does to the record of the job. -/
def jobStep (jobId : String) (job : Option Job) (event : DomainEvent) : Option Job :=
  match event.body with
  | .job id functionId payload =>
    if id = jobId then some (jobHandler event.envelope id functionId payload job) else job
  | _ => job

/-- The record after a sequence of events. -/
def jobAfter (jobId : String) (events : List DomainEvent) : Option Job :=
  events.foldl (jobStep jobId) none

theorem lookup_jobs_applyEvent (publishes : Bool) (stamp : EventStamp) (s : ReadModel)
    (event : DomainEvent) :
    (applyEvent publishes stamp s event).1.jobs.lookup jobId =
      jobStep jobId (s.jobs.lookup jobId) event := by
  cases hbody : event.body with
  | job id functionId payload =>
    simp only [applyEvent, handle, hbody, jobStep]
    split_ifs with hid
    · rw [← hid, Collection.lookup_upsert]
    · rw [Collection.lookup_upsert_ne (Ne.symm hid)]
  | consensus term payload =>
    simp only [applyEvent, handle, hbody, applyConsensus, jobStep]
    cases payload.leaderIds? <;> rfl
  | data name payload =>
    simp only [applyEvent, handle, hbody, jobStep]
    cases payload <;> rfl
  | _ => simp only [applyEvent, handle, hbody, jobStep]

/-- The record of a job that the read model did not know. -/
theorem lookup_jobs_project (publishes : Bool) (stamp : DomainEvent → EventStamp) (s : ReadModel)
    (events : List DomainEvent) (hnew : s.jobs.lookup jobId = none) :
    (project publishes stamp s events).jobs.lookup jobId = jobAfter jobId events := by
  unfold jobAfter
  rw [← hnew]
  exact (List.foldl_hom (fun s : ReadModel => s.jobs.lookup jobId)
    fun s event => (lookup_jobs_applyEvent publishes (stamp event) s event).symm).symm

/-! ### The events of a job -/

/-- The payload of an event about the job. -/
def jobPayload? (jobId : String) (event : DomainEvent) : Option JobPayload :=
  match event.body with
  | .job id _ payload => if id = jobId then some payload else none
  | _ => none

/-- How a job event ends the job, and after how long. -/
def JobPayload.outcome? : JobPayload → Option (JobStatus × Option String)
  | .queued _ _ | .started _ _ => none
  | .completed durationMs => some (.completed, durationMs)
  | .failed _ durationMs => some (.failed, durationMs)

/-- The event is about the job. -/
def concernsJob (jobId : String) (event : DomainEvent) : Bool := (jobPayload? jobId event).isSome

/-- The event ends the job. -/
def endsJob (jobId : String) (event : DomainEvent) : Bool :=
  ((jobPayload? jobId event).bind JobPayload.outcome?).isSome

def JobStatus.IsTerminal : JobStatus → Prop
  | .completed | .failed => True
  | .queued | .started => False

instance : ∀ status : JobStatus, Decidable status.IsTerminal
  | .completed | .failed => .isTrue trivial
  | .queued | .started => .isFalse id

/-- The stored status is `COMPLETED` or `FAILED`. -/
def Ended (job : Option Job) : Prop := ∃ record ∈ job, record.status.IsTerminal

/-- What the endpoints' streams tell of a job: an endpoint that reports it has accepted it first,
all of them were given one version and one params, and one event ends the job. -/
structure JobReports (jobId : String) (version : ℤ) (params : Option Fields)
    (terminal : DomainEvent) (streams : String → List DomainEvent) : Prop where
  accepted : ∀ n event, ((streams n).filter (concernsJob jobId)).head? = some event →
    ∃ v p, jobPayload? jobId event = some (.queued v p)
  queued : ∀ n, ∀ event ∈ streams n, ∀ v p, jobPayload? jobId event = some (.queued v p) →
    v = some version ∧ p = params
  started : ∀ n, ∀ event ∈ streams n, ∀ v p, jobPayload? jobId event = some (.started v p) →
    v = none ∨ v = some version
  terminal : ∃ n, (streams n).filter (endsJob jobId) = [terminal] ∧
    ∀ m ≠ n, (streams m).filter (endsJob jobId) = []

/-- The stored status never leaves `COMPLETED` and `FAILED`, and in the end the record is as the
events gave it. `recordAfter` is the record after a sequence of events. -/
structure JobRecordRight (recordAfter : List DomainEvent → Option Job) (jobId : String)
    (version : ℤ) (params : Option Fields) (terminal : DomainEvent) (events : List DomainEvent) :
    Prop where
  stays : ∀ before between after, events = before ++ (between ++ after) →
    Ended (recordAfter before) → Ended (recordAfter (before ++ between))
  ends : ∃ record, recordAfter events = some record ∧
    (jobPayload? jobId terminal).bind JobPayload.outcome? =
      some (record.status, record.durationMs) ∧
    record.functionVersion = some version ∧ record.params = params

/-! ### One event -/

theorem jobStep_of_payload {payload : JobPayload} (job : Option Job)
    (h : jobPayload? jobId event = some payload) :
    ∃ functionId, jobStep jobId job event =
      some (jobHandler event.envelope jobId functionId payload job) := by
  unfold jobPayload? at h
  split at h
  · rename_i id functionId payload' hbody
    split_ifs at h with hid
    obtain rfl := Option.some.inj h
    subst hid
    refine ⟨functionId, ?_⟩
    simp only [jobStep, hbody, if_true]
  · cases h

theorem jobStep_of_not_concerns (job : Option Job) (h : concernsJob jobId event = false) :
    jobStep jobId job event = job := by
  unfold concernsJob jobPayload? at h
  unfold jobStep
  split
  · rename_i id functionId payload hbody
    simp only [hbody] at h
    split_ifs at h ⊢ with hid
    · cases h
    · rfl
  · rfl

/-- Only the events about the job count. -/
theorem jobAfter_filter (jobId : String) (events : List DomainEvent) :
    jobAfter jobId (events.filter (concernsJob jobId)) = jobAfter jobId events := by
  unfold jobAfter
  rw [List.foldl_filter]
  refine List.foldl_ext _ _ _ fun job event _ => ?_
  cases h : concernsJob jobId event with
  | true => rfl
  | false => exact (jobStep_of_not_concerns job h).symm

theorem jobAfter_concat (jobId : String) (events : List DomainEvent) (event : DomainEvent) :
    jobAfter jobId (events ++ [event]) = jobStep jobId (jobAfter jobId events) event := by
  unfold jobAfter
  rw [List.foldl_append]
  rfl

/-- An event that ends the job gives the record its outcome. -/
theorem ended_of_endsJob (job : Option Job) (h : endsJob jobId event = true) :
    Ended (jobStep jobId job event) := by
  unfold endsJob at h
  cases hpayload : jobPayload? jobId event with
  | none =>
    rw [hpayload] at h
    cases h
  | some payload =>
    obtain ⟨functionId, hstep⟩ := jobStep_of_payload job hpayload
    rw [hstep]
    refine ⟨_, rfl, ?_⟩
    rw [hpayload] at h
    cases payload with
    | queued v p => cases h
    | started v p => cases h
    | completed durationMs => exact trivial
    | failed failure durationMs => exact trivial

/-- Any other event about the job takes it back to `QUEUED` or `STARTED`. -/
theorem not_ended_of_concernsJob (job : Option Job) (h : concernsJob jobId event = true)
    (hends : endsJob jobId event = false) : ¬ Ended (jobStep jobId job event) := by
  obtain ⟨payload, hpayload⟩ := Option.isSome_iff_exists.1 h
  obtain ⟨functionId, hstep⟩ := jobStep_of_payload job hpayload
  rw [hstep]
  rintro ⟨record, hrecord, hterminal⟩
  obtain rfl := Option.some.inj hrecord
  unfold endsJob at hends
  rw [hpayload] at hends
  cases payload with
  | queued v p => exact hterminal
  | started v p => exact hterminal
  | completed durationMs => cases hends
  | failed failure durationMs => cases hends

/-! ### What the streams make of the sequence -/

section Reports

variable {version : ℤ} {params : Option Fields} {streams : String → List DomainEvent}

/-- The first event about the job is the `JobQueued` of the endpoint that sent it. -/
theorem JobReports.head_queued (h : JobReports jobId version params terminal streams)
    (hevents : Interleaves streams events)
    (hhead : (events.filter (concernsJob jobId)).head? = some event) :
    ∃ v p, jobPayload? jobId event = some (.queued v p) := by
  obtain ⟨rest, hrest⟩ := List.head?_eq_some_iff.1 hhead
  have hmem : event ∈ events.filter (concernsJob jobId) := List.mem_of_mem_head? hhead
  obtain ⟨n, hn⟩ := hevents.sent event (List.mem_of_mem_filter hmem)
  refine h.accepted n event ?_
  rw [hevents.filter_filter, hrest, streamOf, List.filter_cons_of_pos (by simpa using hn)]
  rfl

/-- One event of the sequence ends the job. -/
theorem JobReports.filter_endsJob (h : JobReports jobId version params terminal streams)
    (hevents : Interleaves streams events) : events.filter (endsJob jobId) = [terminal] := by
  obtain ⟨n, hterminal, hothers⟩ := h.terminal
  rw [← hterminal, hevents.filter_filter, eq_comm, streamOf, List.filter_eq_self]
  intro event hevent
  obtain ⟨hmem, hends⟩ := List.mem_filter.1 hevent
  obtain ⟨m, hm, hstream⟩ := hevents.mem_streams hmem
  by_cases hmn : m = n
  · exact decide_eq_true (hmn ▸ hm)
  · exact absurd hends (List.filter_eq_nil_iff.1 (hothers m hmn) event hstream)

/-! ### The record before the terminal event -/

/-- The record of a job that has not ended. -/
structure Unfinished (version : ℤ) (params : Option Fields) (record : Job) : Prop where
  version : record.functionVersion = some version
  params : record.params = params
  duration : record.durationMs = none
  status : ¬ record.status.IsTerminal

/-- The events say of the job what `JobReports` says of the streams, and none ends it. -/
structure JobPrefix (jobId : String) (version : ℤ) (params : Option Fields)
    (events : List DomainEvent) : Prop where
  concerns : ∀ event ∈ events, concernsJob jobId event = true
  unended : ∀ event ∈ events, endsJob jobId event = false
  head : ∀ event, events.head? = some event →
    ∃ v p, jobPayload? jobId event = some (.queued v p)
  queued : ∀ event ∈ events, ∀ v p, jobPayload? jobId event = some (.queued v p) →
    v = some version ∧ p = params
  started : ∀ event ∈ events, ∀ v p, jobPayload? jobId event = some (.started v p) →
    v = none ∨ v = some version

theorem JobPrefix.mono {before : List DomainEvent} (h : JobPrefix jobId version params events)
    (hbefore : before <+: events) : JobPrefix jobId version params before where
  concerns event hevent := h.concerns event (hbefore.subset hevent)
  unended event hevent := h.unended event (hbefore.subset hevent)
  head event hevent := by
    obtain ⟨after, rfl⟩ := hbefore
    exact h.head event (by rw [List.head?_append, hevent]; rfl)
  queued event hevent := h.queued event (hbefore.subset hevent)
  started event hevent := h.started event (hbefore.subset hevent)

/-- The record while the job is queued or runs. -/
theorem JobPrefix.unfinished (h : JobPrefix jobId version params events) (hne : events ≠ []) :
    ∃ record, jobAfter jobId events = some record ∧ Unfinished version params record := by
  induction events using List.reverseRecOn with
  | nil => exact absurd rfl hne
  | append_singleton before event ih =>
    have hlast : event ∈ before ++ [event] := List.mem_append_right _ (List.mem_singleton_self _)
    obtain ⟨payload, hpayload⟩ := Option.isSome_iff_exists.1 (h.concerns event hlast)
    obtain ⟨functionId, hstep⟩ := jobStep_of_payload (jobAfter jobId before) hpayload
    rw [jobAfter_concat, hstep]
    refine ⟨_, rfl, ?_⟩
    cases payload with
    | queued v p =>
      obtain ⟨rfl, rfl⟩ := h.queued event hlast v p hpayload
      exact { version := rfl, params := rfl, duration := rfl, status := id }
    | started v p =>
      have hbefore : before ≠ [] := by
        rintro rfl
        obtain ⟨v', p', hqueued⟩ := h.head event rfl
        rw [hqueued] at hpayload
        cases hpayload
      obtain ⟨record, hrecord, hun⟩ := ih (h.mono (List.prefix_append _ _)) hbefore
      rw [hrecord]
      refine { version := ?_, params := hun.params, duration := hun.duration, status := id }
      obtain rfl | rfl := h.started event hlast v p hpayload
      · exact hun.version
      · rfl
    | completed durationMs =>
      have hopen := h.unended event hlast
      unfold endsJob at hopen
      rw [hpayload] at hopen
      cases hopen
    | failed failure durationMs =>
      have hopen := h.unended event hlast
      unfold endsJob at hopen
      rw [hpayload] at hopen
      cases hopen

theorem JobPrefix.not_ended (h : JobPrefix jobId version params events) :
    ¬ Ended (jobAfter jobId events) := by
  rintro ⟨record, hrecord, hterminal⟩
  by_cases hne : events = []
  · subst hne
    cases hrecord
  · obtain ⟨record', hrecord', hun⟩ := h.unfinished hne
    rw [Option.mem_def, hrecord'] at hrecord
    obtain rfl := Option.some.inj hrecord
    exact hun.status hterminal

/-! ### The whole sequence -/

theorem concernsJob_of_endsJob (h : endsJob jobId event = true) :
    concernsJob jobId event = true := by
  unfold endsJob at h
  unfold concernsJob
  cases hpayload : jobPayload? jobId event with
  | none =>
    rw [hpayload] at h
    cases h
  | some payload => rfl

/-- The terminal event and the events about the job on both sides of it. -/
theorem JobReports.split_own (h : JobReports jobId version params terminal streams)
    (hevents : Interleaves streams events) :
    ∃ before after, events.filter (concernsJob jobId) = before ++ terminal :: after ∧
      (∀ event ∈ before, endsJob jobId event = false) ∧
      endsJob jobId terminal = true ∧ ∀ event ∈ after, endsJob jobId event = false := by
  have hends : (events.filter (concernsJob jobId)).filter (endsJob jobId) = [terminal] := by
    rw [← h.filter_endsJob hevents, List.filter_filter]
    refine List.filter_congr fun event _ => ?_
    cases hevent : endsJob jobId event with
    | true => rw [concernsJob_of_endsJob hevent, Bool.and_self]
    | false => rw [Bool.false_and]
  obtain ⟨before, after, hown, hbefore, hterminal, hafter⟩ := List.filter_eq_cons_iff.1 hends
  refine ⟨before, after, hown, fun event he => ?_, hterminal, fun event he => ?_⟩
  · exact Bool.eq_false_of_not_eq_true (hbefore event he)
  · exact Bool.eq_false_of_not_eq_true (List.filter_eq_nil_iff.1 hafter event he)

/-- What precedes the terminal event. -/
theorem JobReports.jobPrefix (h : JobReports jobId version params terminal streams)
    (hevents : Interleaves streams events) {before after : List DomainEvent}
    (hown : events.filter (concernsJob jobId) = before ++ terminal :: after)
    (hbefore : ∀ event ∈ before, endsJob jobId event = false) :
    JobPrefix jobId version params before := by
  have hmem : ∀ event ∈ before, event ∈ events ∧ concernsJob jobId event = true := fun event he =>
    List.mem_filter.1 (hown ▸ List.mem_append_left _ he)
  refine
    { concerns := fun event he => (hmem event he).2
      unended := hbefore
      head := fun event hhead => h.head_queued hevents (by rw [hown, List.head?_append, hhead]; rfl)
      queued := fun event he => ?_
      started := fun event he => ?_ }
  · obtain ⟨n, -, hstream⟩ := hevents.mem_streams (hmem event he).1
    exact h.queued n event hstream
  · obtain ⟨n, -, hstream⟩ := hevents.mem_streams (hmem event he).1
    exact h.started n event hstream

/-- The terminal event gives a job that has not ended its outcome and leaves the rest. -/
theorem Unfinished.outcome {record : Job} (hun : Unfinished version params record)
    (hends : endsJob jobId terminal = true) :
    ∃ ended, jobStep jobId (some record) terminal = some ended ∧
      (jobPayload? jobId terminal).bind JobPayload.outcome? =
        some (ended.status, ended.durationMs) ∧
      ended.functionVersion = some version ∧ ended.params = params := by
  obtain ⟨payload, hpayload⟩ := Option.isSome_iff_exists.1 (concernsJob_of_endsJob hends)
  obtain ⟨functionId, hstep⟩ := jobStep_of_payload (some record) hpayload
  rw [hstep, hpayload]
  unfold endsJob at hends
  rw [hpayload] at hends
  cases payload with
  | queued v p => cases hends
  | started v p => cases hends
  | completed durationMs => exact ⟨_, rfl, rfl, hun.version, hun.params⟩
  | failed failure durationMs =>
    refine ⟨_, rfl, ?_, hun.version, hun.params⟩
    simp only [JobPayload.outcome?, Option.bind_some, jobHandler, Option.getD_some, hun.duration,
      Option.or_none]

/-- With the terminal event last, the job stays ended and ends right. -/
theorem right_of_terminal_last {before : List DomainEvent}
    (hlife : JobPrefix jobId version params before) (hne : before ≠ [])
    (hown : events.filter (concernsJob jobId) = before ++ [terminal])
    (hends : endsJob jobId terminal = true) :
    JobRecordRight (jobAfter jobId) jobId version params terminal events where
  stays first between after hsplit hended := by
    rw [← jobAfter_filter] at hended
    have hfirst : first.filter (concernsJob jobId) <+: before ++ [terminal] := by
      rw [← hown, hsplit, List.filter_append]
      exact List.prefix_append _ _
    obtain hwhole | hpart := List.prefix_concat_iff.1 hfirst
    · -- the terminal event is among them, so nothing about the job is left
      have hnothing : between.filter (concernsJob jobId) = [] := by
        rw [hsplit, List.filter_append, List.filter_append, ← List.append_assoc, hwhole] at hown
        have hlen := congrArg List.length hown
        rw [List.length_append, List.length_append] at hlen
        exact List.eq_nil_of_length_eq_zero (by omega)
      rw [← jobAfter_filter, List.filter_append, hnothing, List.append_nil]
      exact hended
    · exact absurd hended (hlife.mono hpart).not_ended
  ends := by
    obtain ⟨record, hrecord, hun⟩ := hlife.unfinished hne
    rw [← jobAfter_filter, hown, jobAfter_concat, hrecord]
    exact hun.outcome hends

/-- An event about the job after the terminal event takes the record out of `COMPLETED` or
`FAILED`. -/
theorem not_right_of_later {before after : List DomainEvent}
    (hown : events.filter (concernsJob jobId) = before ++ terminal :: event :: after)
    (hends : endsJob jobId terminal = true) (hopen : endsJob jobId event = false)
    (hright : JobRecordRight (jobAfter jobId) jobId version params terminal events) : False := by
  have hown' : events.filter (concernsJob jobId) = (before ++ [terminal]) ++ event :: after := by
    rw [hown, List.append_assoc]
    rfl
  obtain ⟨first, rest, rfl, hfirst, hrest⟩ := List.filter_eq_append_iff.1 hown'
  obtain ⟨skipped, last, rfl, hskipped, hconcerns, -⟩ := List.filter_eq_cons_iff.1 hrest
  have hnone : skipped.filter (concernsJob jobId) = [] := List.filter_eq_nil_iff.2 hskipped
  have hended : Ended (jobAfter jobId first) := by
    rw [← jobAfter_filter, hfirst, jobAfter_concat]
    exact ended_of_endsJob _ hends
  have hstays := hright.stays first (skipped ++ [event]) last (by simp) hended
  rw [← List.append_assoc, jobAfter_concat] at hstays
  exact not_ended_of_concernsJob _ hconcerns hopen hstays

end Reports

variable {version : ℤ} {params : Option Fields} {streams : String → List DomainEvent}

/-- The record of a new job is right exactly when nothing about the job is projected after its
terminal event. -/
theorem jobRecordRight_iff (publishes : Bool) (stamp : DomainEvent → EventStamp) (s : ReadModel)
    (hnew : s.jobs.lookup jobId = none)
    (hreports : JobReports jobId version params terminal streams)
    (hevents : Interleaves streams events) :
    JobRecordRight (fun events => (project publishes stamp s events).jobs.lookup jobId) jobId
        version params terminal events ↔
      (events.filter (concernsJob jobId)).getLast? = some terminal := by
  have hproject : (fun events => (project publishes stamp s events).jobs.lookup jobId) =
      jobAfter jobId := funext fun events => lookup_jobs_project publishes stamp s events hnew
  obtain ⟨before, after, hown, hbefore, hends, hafter⟩ := hreports.split_own hevents
  rw [hproject]
  constructor
  · intro hright
    cases after with
    | nil => rw [hown, List.getLast?_concat]
    | cons event after =>
      exact (not_right_of_later hown hends (hafter event (List.mem_cons_self ..)) hright).elim
  · intro hlast
    obtain rfl : after = [] := by
      cases after with
      | nil => rfl
      | cons event after =>
        rw [hown, List.getLast?_append, List.getLast?_cons_cons, List.getLast?_cons,
          Option.some_or] at hlast
        have hmem : terminal ∈ event :: after :=
          List.mem_of_getLast? (by rw [List.getLast?_cons]; exact hlast)
        have hopen := hafter terminal hmem
        exact absurd (hends.symm.trans hopen) Bool.true_eq_false.mp
    have hlife := hreports.jobPrefix hevents hown hbefore
    have hne : before ≠ [] := by
      rintro rfl
      obtain ⟨v, p, hqueued⟩ := hreports.head_queued hevents (by rw [hown]; rfl)
      unfold endsJob at hends
      rw [hqueued] at hends
      cases hends
    exact right_of_terminal_last hlife hne hown hends

/-- An event that the endpoint publishes about the job `j1`. -/
def jobEvent (endpointId : String) (payload : JobPayload) : DomainEvent where
  envelope :=
    { eventId := "e", createdAt := "2024-01-01T00:00:00Z", endpointId := some endpointId }
  body := .job "j1" "f1" payload

/-- The job was submitted to `n1`, which forwarded it to `n2`. -/
def forwardedStreams : String → List DomainEvent
  | "n1" => [jobEvent "n1" (.queued (some 1) none)]
  | "n2" =>
    [jobEvent "n2" (.queued (some 1) none), jobEvent "n2" (.started (some 1) none),
      jobEvent "n2" (.completed (some "12.5"))]
  | _ => []

theorem forwardedStreams_cases (n : String) :
    n = "n1" ∨ n = "n2" ∨ forwardedStreams n = [] := by
  unfold forwardedStreams
  split
  · exact .inl rfl
  · exact .inr (.inl rfl)
  · exact .inr (.inr rfl)

@[simp] theorem jobPayload?_jobEvent (n : String) (payload : JobPayload) :
    jobPayload? "j1" (jobEvent n payload) = some payload := rfl

@[simp] theorem concernsJob_jobEvent (n : String) (payload : JobPayload) :
    concernsJob "j1" (jobEvent n payload) = true := rfl

@[simp] theorem endsJob_jobEvent (n : String) (payload : JobPayload) :
    endsJob "j1" (jobEvent n payload) = payload.outcome?.isSome := rfl

theorem jobReports_forwarded :
    JobReports "j1" 1 none (jobEvent "n2" (.completed (some "12.5"))) forwardedStreams where
  accepted n event hhead := by
    obtain rfl | rfl | hn := forwardedStreams_cases n
    · obtain rfl : jobEvent "n1" (.queued (some 1) none) = event := by
        simpa [forwardedStreams] using hhead
      exact ⟨_, _, rfl⟩
    · obtain rfl : jobEvent "n2" (.queued (some 1) none) = event := by
        simpa [forwardedStreams] using hhead
      exact ⟨_, _, rfl⟩
    · rw [hn] at hhead
      cases hhead
  queued n event hevent v p hpayload := by
    obtain rfl | rfl | hn := forwardedStreams_cases n
    · obtain rfl : event = jobEvent "n1" (.queued (some 1) none) := by
        simpa [forwardedStreams] using hevent
      cases hpayload
      exact ⟨rfl, rfl⟩
    · simp only [forwardedStreams, List.mem_cons, List.not_mem_nil, or_false] at hevent
      obtain rfl | rfl | rfl := hevent <;> cases hpayload
      exact ⟨rfl, rfl⟩
    · rw [hn] at hevent
      cases hevent
  started n event hevent v p hpayload := by
    obtain rfl | rfl | hn := forwardedStreams_cases n
    · obtain rfl : event = jobEvent "n1" (.queued (some 1) none) := by
        simpa [forwardedStreams] using hevent
      cases hpayload
    · simp only [forwardedStreams, List.mem_cons, List.not_mem_nil, or_false] at hevent
      obtain rfl | rfl | rfl := hevent <;> cases hpayload
      exact .inr rfl
    · rw [hn] at hevent
      cases hevent
  terminal := by
    refine ⟨"n2", rfl, fun m hm => ?_⟩
    obtain rfl | rfl | hn := forwardedStreams_cases m
    · rfl
    · exact absurd rfl hm
    · rw [hn]
      rfl

/-- The streams one after the other, in either order. -/
theorem interleaves_forwarded {events : List DomainEvent}
    (hevents : events = forwardedStreams "n1" ++ forwardedStreams "n2" ∨
      events = forwardedStreams "n2" ++ forwardedStreams "n1") :
    Interleaves forwardedStreams events := by
  have hsent : ∀ event ∈ events, event.envelope.endpointId = some "n1" ∨
      event.envelope.endpointId = some "n2" := by
    intro event hevent
    have hmem : event ∈ forwardedStreams "n1" ∨ event ∈ forwardedStreams "n2" := by
      obtain rfl | rfl := hevents
      · exact List.mem_append.1 hevent
      · exact (List.mem_append.1 hevent).symm
    simp only [forwardedStreams, List.mem_cons, List.not_mem_nil, or_false] at hmem
    obtain rfl | rfl | rfl | rfl := hmem
    · exact .inl rfl
    all_goals exact .inr rfl
  refine ⟨fun event hevent => (hsent event hevent).elim (fun h => ⟨_, h⟩) fun h => ⟨_, h⟩, ?_⟩
  intro n
  obtain rfl | rfl | hn := forwardedStreams_cases n
  · obtain rfl | rfl := hevents <;> rfl
  · obtain rfl | rfl := hevents <;> rfl
  · rw [hn, streamOf, List.filter_eq_nil_iff]
    intro event hevent hmatch
    obtain h | h := hsent event hevent
    · rw [Option.some.inj ((of_decide_eq_true hmatch).symm.trans h)] at hn
      cases hn
    · rw [Option.some.inj ((of_decide_eq_true hmatch).symm.trans h)] at hn
      cases hn

/-- The forwarded job when the events of the first endpoint come first. -/
theorem jobRecordRight_forwarded :
    JobRecordRight (fun events => (project true (fun _ => ⟨"s", ""⟩) {} events).jobs.lookup "j1")
      "j1" 1 none (jobEvent "n2" (.completed (some "12.5")))
      (forwardedStreams "n1" ++ forwardedStreams "n2") :=
  (jobRecordRight_iff true (fun _ => ⟨"s", ""⟩) {} rfl jobReports_forwarded
    (interleaves_forwarded (.inl rfl))).2 rfl

/-- When they come last the completed job is queued again, for good. -/
theorem requeued_after_completion :
    JobReports "j1" 1 none (jobEvent "n2" (.completed (some "12.5"))) forwardedStreams ∧
      Interleaves forwardedStreams (forwardedStreams "n2" ++ forwardedStreams "n1") ∧
      ¬ JobRecordRight (fun events => (project true (fun _ => ⟨"s", ""⟩) {} events).jobs.lookup "j1")
        "j1" 1 none (jobEvent "n2" (.completed (some "12.5")))
        (forwardedStreams "n2" ++ forwardedStreams "n1") := by
  refine ⟨jobReports_forwarded, interleaves_forwarded (.inr rfl), fun hright => ?_⟩
  have hqueued : ((project true (fun _ => ⟨"s", ""⟩) {}
      (forwardedStreams "n2" ++ forwardedStreams "n1")).jobs.lookup "j1").map
      (fun job => job.status) = some .queued := by decide +kernel
  obtain ⟨record, hrecord, houtcome, -, -⟩ := hright.ends
  rw [hrecord] at hqueued
  obtain ⟨hstatus, -⟩ := Prod.mk.inj (Option.some.inj houtcome)
  exact absurd (hstatus.trans (Option.some.inj hqueued)) (by decide)

end Axo.Projector
