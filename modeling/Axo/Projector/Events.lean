import Axo.Functions.ParamsValidation

/-!
# The events of the taxonomy

The event models of `axo_shared/events/models.py` that the projector of the control plane knows, with
the dictionaries that `model_dump(mode="json")` makes of them.

* `EventEnvelope` are the fields that every event has, `EventBody` those of its class;
* `DomainEvent.data` is the dictionary, the fields of the class before those of the envelope;
* `Interleaves` says that a sequence of events is made of the streams of the endpoints.

A time is kept by its text in ISO 8601, a float by its `repr`.
-/

namespace Axo.Projector

/-- A JSON object. -/
abbrev Fields := List (String × Value)

/-- An `Optional` field. -/
def optional {α : Type*} (toValue : α → Value) : Option α → Value
  | none => .none
  | some a => toValue a

inductive RuntimeType
  | process
  | container
  deriving DecidableEq, Repr

def RuntimeType.text : RuntimeType → String
  | .process => "process"
  | .container => "container"

/-- `EventEnvelope`. -/
structure EventEnvelope where
  eventId : String
  createdAt : String
  userId : Option String := none
  virtualEnvironmentId : Option String := none
  endpointId : Option String := none
  runtimeType : Option RuntimeType := none

def EventEnvelope.fields (envelope : EventEnvelope) : Fields :=
  [("event_id", .str envelope.eventId), ("created_at", .str envelope.createdAt),
    ("user_id", optional .str envelope.userId),
    ("virtual_environment_id", optional .str envelope.virtualEnvironmentId),
    ("endpoint_id", optional .str envelope.endpointId),
    ("runtime_type", optional (fun t => .str (RuntimeType.text t)) envelope.runtimeType)]

/-- `FailureDetail`. -/
structure FailureDetail where
  errorClass : String
  errorCode : ℤ
  component : String
  message : String
  traceback : Option String := none
  isTransient : Bool := false

def FailureDetail.toValue (failure : FailureDetail) : Value :=
  .dict [("error_class", .str failure.errorClass), ("error_code", .int failure.errorCode),
    ("component", .str failure.component), ("message", .str failure.message),
    ("traceback", optional .str failure.traceback), ("is_transient", .bool failure.isTransient)]

/-! ### Endpoints -/

/-- The endpoint events. -/
inductive EndpointPayload
  | started (routerBind pubBind : String)
  | metricsReported (metrics : Fields)
  | stopped (uptimeMs : String)
  | unreachable (lastSeenAt : Option String)
  | recovered
  | virtualEnvAssigned
  | virtualEnvDetached (previousVirtualEnvironmentId : String)

namespace EndpointPayload

def eventType : EndpointPayload → String
  | .started _ _ => "EndpointStarted"
  | .metricsReported _ => "EndpointMetricsReported"
  | .stopped _ => "EndpointStopped"
  | .unreachable _ => "EndpointUnreachable"
  | .recovered => "EndpointRecovered"
  | .virtualEnvAssigned => "EndpointVirtualEnvironmentAssigned"
  | .virtualEnvDetached _ => "EndpointVirtualEnvironmentDetached"

def fields : EndpointPayload → Fields
  | .started routerBind pubBind => [("router_bind", .str routerBind), ("pub_bind", .str pubBind)]
  | .metricsReported metrics => [("metrics", .dict metrics)]
  | .stopped uptimeMs => [("uptime_ms", .float uptimeMs)]
  | .unreachable lastSeenAt => [("last_seen_at", optional .str lastSeenAt)]
  | .recovered | .virtualEnvAssigned => []
  | .virtualEnvDetached previous => [("previous_virtual_environment_id", .str previous)]

end EndpointPayload

/-! ### Functions -/

inductive StopReason
  | idleTtl
  | maxInvocations
  | dismissed
  deriving DecidableEq, Repr

def StopReason.text : StopReason → String
  | .idleTtl => "idle_ttl"
  | .maxInvocations => "max_invocations"
  | .dismissed => "dismissed"

/-- The function events that a function document is updated with: `FUNCTION_EVENT_TYPES`. -/
inductive FunctionPayload
  | registered (name : Option String) (runtimeSpec : Option Fields)
      (paramsSchema : Option (List Value)) (ownerUserId : Option String)
  | registerFailed (failure : FailureDetail)
  | deployed
  | deployFailed (failure : FailureDetail)
  | activated (jobId : String)
  | deactivated (state : String)
  | updated (paramsSchema : Option (List Value)) (envVars : Option (List (String × String)))
  | stopped (reason : StopReason)
  | crashed

namespace FunctionPayload

def eventType : FunctionPayload → String
  | .registered .. => "FunctionRegistered"
  | .registerFailed _ => "FunctionRegisterFailed"
  | .deployed => "FunctionDeployed"
  | .deployFailed _ => "FunctionDeployFailed"
  | .activated _ => "FunctionActivated"
  | .deactivated _ => "FunctionDeactivated"
  | .updated _ _ => "FunctionUpdated"
  | .stopped _ => "FunctionStopped"
  | .crashed => "FunctionCrashed"

def fields : FunctionPayload → Fields
  | .registered name runtimeSpec paramsSchema ownerUserId =>
    [("name", optional .str name), ("runtime_spec", optional .dict runtimeSpec),
      ("params_schema", optional .list paramsSchema), ("owner_user_id", optional .str ownerUserId)]
  | .registerFailed failure | .deployFailed failure => [("failure", failure.toValue)]
  | .deployed | .crashed => []
  | .activated jobId => [("job_id", .str jobId)]
  | .deactivated state => [("state", .str state)]
  | .updated paramsSchema envVars =>
    [("params_schema", optional .list paramsSchema),
      ("env_vars", optional (fun vars => .dict (vars.map fun var => (var.1, .str var.2))) envVars)]
  | .stopped reason => [("reason", .str reason.text)]

end FunctionPayload

/-- The build events, which only the activity log records. -/
inductive BuildPayload
  | started
  | completed (durationMs : String)
  | failed (failure : FailureDetail)

namespace BuildPayload

def eventType : BuildPayload → String
  | .started => "FunctionBuildStarted"
  | .completed _ => "FunctionBuildCompleted"
  | .failed _ => "FunctionBuildFailed"

def fields : BuildPayload → Fields
  | .started => []
  | .completed durationMs => [("duration_ms", .float durationMs)]
  | .failed failure => [("failure", failure.toValue)]

end BuildPayload

/-! ### Consensus -/

/-- The consensus events, without their `term`. -/
inductive ConsensusPayload
  | leaderElected (leaderIds : List String)
  | viewChanged (wasLeader isLeader : Bool) (leaderIds : List String)
  | quorumLost (memberCount quorumSize : ℤ)
  | quorumRestored (memberCount quorumSize : ℤ)
  | degraded (memberCount quorumSize : ℤ) (evictedPeerId : String)

namespace ConsensusPayload

def eventType : ConsensusPayload → String
  | .leaderElected _ => "LeaderElected"
  | .viewChanged .. => "ConsensusViewChanged"
  | .quorumLost _ _ => "ClusterQuorumLost"
  | .quorumRestored _ _ => "ClusterQuorumRestored"
  | .degraded .. => "ClusterDegraded"

/-- The `leader_ids` of the two kinds that carry them: `_LEADER_BEARING_EVENT_TYPES`. -/
def leaderIds? : ConsensusPayload → Option (List String)
  | .leaderElected leaderIds | .viewChanged _ _ leaderIds => some leaderIds
  | .quorumLost _ _ | .quorumRestored _ _ | .degraded .. => none

def fields : ConsensusPayload → Fields
  | .leaderElected leaderIds => [("leader_ids", .list (leaderIds.map .str))]
  | .viewChanged wasLeader isLeader leaderIds =>
    [("was_leader", .bool wasLeader), ("is_leader", .bool isLeader),
      ("leader_ids", .list (leaderIds.map .str))]
  | .quorumLost memberCount quorumSize | .quorumRestored memberCount quorumSize =>
    [("member_count", .int memberCount), ("quorum_size", .int quorumSize)]
  | .degraded memberCount quorumSize evictedPeerId =>
    [("member_count", .int memberCount), ("quorum_size", .int quorumSize),
      ("evicted_peer_id", .str evictedPeerId)]

end ConsensusPayload

/-! ### Jobs -/

/-- The job events, without their `job_id` and `function_id`. -/
inductive JobPayload
  | queued (version : Option ℤ) (params : Option Fields)
  | started (version : Option ℤ) (params : Option Fields)
  | completed (durationMs : Option String)
  | failed (failure : FailureDetail) (durationMs : Option String)

namespace JobPayload

def eventType : JobPayload → String
  | .queued _ _ => "JobQueued"
  | .started _ _ => "JobStarted"
  | .completed _ => "JobCompleted"
  | .failed _ _ => "JobFailed"

def fields : JobPayload → Fields
  | .queued version params | .started version params =>
    [("version", optional .int version), ("params", optional .dict params)]
  | .completed durationMs => [("duration_ms", optional .float durationMs)]
  | .failed failure durationMs =>
    [("failure", failure.toValue), ("duration_ms", optional .float durationMs)]

end JobPayload

/-! ### Data, users, workspaces and choreographies -/

/-- The data events, without their `name`. -/
inductive DataPayload
  | bucketCreated (quotaBytes : ℤ)
  | registered (version : ℤ) (format kind : String) (totalSize totalChunks : ℤ)
  | uploadCompleted (version : ℤ)
  | deleted (version : ℤ)

namespace DataPayload

def eventType : DataPayload → String
  | .bucketCreated _ => "DataBucketCreated"
  | .registered .. => "DataRegistered"
  | .uploadCompleted _ => "DataUploadCompleted"
  | .deleted _ => "DataDeleted"

def fields : DataPayload → Fields
  | .bucketCreated quotaBytes => [("quota_bytes", .int quotaBytes)]
  | .registered version format kind totalSize totalChunks =>
    [("version", .int version), ("format", .str format), ("kind", .str kind),
      ("total_size", .int totalSize), ("total_chunks", .int totalChunks)]
  | .uploadCompleted version | .deleted version => [("version", .int version)]

end DataPayload

/-- `Preferences`. -/
structure Preferences where
  color : Option String := none
  viewMode : String := "list"
  language : String := "en"
  activityWindowMinutes : ℤ := 60
  endpointPurgeEligibleAfterMinutes : ℤ := 60

def Preferences.toValue (preferences : Preferences) : Value :=
  .dict [("color", optional .str preferences.color), ("view_mode", .str preferences.viewMode),
    ("language", .str preferences.language),
    ("activity_window_minutes", .int preferences.activityWindowMinutes),
    ("endpoint_purge_eligible_after_minutes", .int preferences.endpointPurgeEligibleAfterMinutes)]

/-- The user profile events that the projector knows. -/
inductive UserProfilePayload
  | created (profilePhoto : String) (preferences : Preferences)
  | updated (profilePhoto : String) (preferences : Preferences)
  | deleted

namespace UserProfilePayload

def eventType : UserProfilePayload → String
  | .created _ _ => "UserProfileCreated"
  | .updated _ _ => "UserProfileUpdated"
  | .deleted => "UserProfileDeleted"

def fields : UserProfilePayload → Fields
  | .created profilePhoto preferences | .updated profilePhoto preferences =>
    [("profile_photo", .str profilePhoto), ("preferences", preferences.toValue)]
  | .deleted => []

end UserProfilePayload

/-- `ResourceQuota`. -/
structure ResourceQuota where
  cpu : String
  ram : ℤ
  disk : ℤ
  deriving DecidableEq

def ResourceQuota.toValue (quota : ResourceQuota) : Value :=
  .dict [("cpu", .float quota.cpu), ("ram", .int quota.ram), ("disk", .int quota.disk)]

/-- The workspace events, without their `virtual_environment_id`. -/
inductive VirtualEnvPayload
  | created (name ownerUserId : String) (resourceQuota : ResourceQuota)
  | updated (name : String) (resourceQuota : ResourceQuota)
  | deleted
  | leaderChanged (leaderEndpointId : String)

namespace VirtualEnvPayload

def eventType : VirtualEnvPayload → String
  | .created .. => "VirtualEnvironmentCreated"
  | .updated _ _ => "VirtualEnvironmentUpdated"
  | .deleted => "VirtualEnvironmentDeleted"
  | .leaderChanged _ => "VirtualEnvironmentLeaderChanged"

def fields : VirtualEnvPayload → Fields
  | .created name ownerUserId resourceQuota =>
    [("name", .str name), ("owner_user_id", .str ownerUserId),
      ("resource_quota", resourceQuota.toValue)]
  | .updated name resourceQuota =>
    [("name", .str name), ("resource_quota", resourceQuota.toValue)]
  | .deleted => []
  | .leaderChanged leaderEndpointId => [("leader_endpoint_id", .str leaderEndpointId)]

end VirtualEnvPayload

/-- The choreography events, without their `choreography_id`.  A graph is kept as its dump, which
`model_validate` reads and `model_dump` writes again. -/
inductive ChoreographyPayload
  | created (name ownerUserId : String) (graph : Value)
  | updated (name : String) (graph : Value)
  | deleted

namespace ChoreographyPayload

def eventType : ChoreographyPayload → String
  | .created .. => "ChoreographyCreated"
  | .updated _ _ => "ChoreographyUpdated"
  | .deleted => "ChoreographyDeleted"

def fields : ChoreographyPayload → Fields
  | .created name ownerUserId graph =>
    [("name", .str name), ("owner_user_id", .str ownerUserId), ("graph", graph)]
  | .updated name graph => [("name", .str name), ("graph", graph)]
  | .deleted => []

end ChoreographyPayload

/-! ### Events -/

/-- What an event carries beside its envelope. -/
inductive EventBody
  | endpoint (payload : EndpointPayload)
  | function (functionId : String) (version : ℤ) (payload : FunctionPayload)
  | functionDeleted (functionId : String) (version : ℤ)
  | functionDeleteFailed (functionId : String) (version : ℤ) (failure : FailureDetail)
  | functionEndpointDetached (functionId : String) (version : ℤ)
  | functionBuild (functionId : Option String) (pythonVersion imageTag : String)
      (payload : BuildPayload)
  | consensus (term : ℤ) (payload : ConsensusPayload)
  | job (jobId functionId : String) (payload : JobPayload)
  | data (name : String) (payload : DataPayload)
  | userProfile (payload : UserProfilePayload)
  /-- whose `virtual_environment_id` takes the place of that of the envelope -/
  | virtualEnv (virtualEnvironmentId : String) (payload : VirtualEnvPayload)
  | choreography (choreographyId : String) (payload : ChoreographyPayload)

namespace EventBody

def eventType : EventBody → String
  | .endpoint payload => payload.eventType
  | .function _ _ payload => payload.eventType
  | .functionDeleted _ _ => "FunctionDeleted"
  | .functionDeleteFailed _ _ _ => "FunctionDeleteFailed"
  | .functionEndpointDetached _ _ => "FunctionEndpointDetached"
  | .functionBuild _ _ _ payload => payload.eventType
  | .consensus _ payload => payload.eventType
  | .job _ _ payload => payload.eventType
  | .data _ payload => payload.eventType
  | .userProfile payload => payload.eventType
  | .virtualEnv _ payload => payload.eventType
  | .choreography _ payload => payload.eventType

/-- `function_id` and `version`. -/
def functionKey (functionId : String) (version : ℤ) : Fields :=
  [("function_id", .str functionId), ("version", .int version)]

def fields : EventBody → Fields
  | .endpoint payload => payload.fields
  | .function functionId version payload => functionKey functionId version ++ payload.fields
  | .functionDeleted functionId version | .functionEndpointDetached functionId version =>
    functionKey functionId version
  | .functionDeleteFailed functionId version failure =>
    functionKey functionId version ++ [("failure", failure.toValue)]
  | .functionBuild functionId pythonVersion imageTag payload =>
    [("function_id", optional .str functionId), ("python_version", .str pythonVersion),
      ("image_tag", .str imageTag)] ++ payload.fields
  | .consensus term payload => ("term", .int term) :: payload.fields
  | .job jobId functionId payload =>
    [("job_id", .str jobId), ("function_id", .str functionId)] ++ payload.fields
  | .data name payload => ("name", .str name) :: payload.fields
  | .userProfile payload => payload.fields
  | .virtualEnv virtualEnvironmentId payload =>
    ("virtual_environment_id", .str virtualEnvironmentId) :: payload.fields
  | .choreography choreographyId payload =>
    ("choreography_id", .str choreographyId) :: payload.fields

end EventBody

/-- An event of the taxonomy. -/
structure DomainEvent where
  envelope : EventEnvelope
  body : EventBody

namespace DomainEvent

def eventType (event : DomainEvent) : String := event.body.eventType

/-- `model_dump(mode="json")`. -/
def data (event : DomainEvent) : Fields := event.body.fields ++ event.envelope.fields

end DomainEvent

/-! ### Streams -/

variable {streams : String → List DomainEvent} {events : List DomainEvent} {event : DomainEvent}

/-- The events that an endpoint has sent. -/
def streamOf (events : List DomainEvent) (n : String) : List DomainEvent :=
  events.filter fun event => event.envelope.endpointId = some n

/-- The sequence is made of the streams, each in its own order. -/
structure Interleaves (streams : String → List DomainEvent) (events : List DomainEvent) : Prop where
  sent : ∀ event ∈ events, ∃ n, event.envelope.endpointId = some n
  order : ∀ n, streamOf events n = streams n

theorem Interleaves.mem_streams (h : Interleaves streams events) (hevent : event ∈ events) :
    ∃ n, event.envelope.endpointId = some n ∧ event ∈ streams n := by
  obtain ⟨n, hn⟩ := h.sent event hevent
  refine ⟨n, hn, ?_⟩
  rw [← h.order n]
  exact List.mem_filter.2 ⟨hevent, decide_eq_true hn⟩

/-- A selection from one stream is the selection of that endpoint's events from the sequence. -/
theorem Interleaves.filter_filter (h : Interleaves streams events) (n : String)
    (p : DomainEvent → Bool) :
    (streams n).filter p = streamOf (events.filter p) n := by
  unfold streamOf
  rw [← h.order n, streamOf, List.filter_comm]

theorem streamOf_append (before after : List DomainEvent) (n : String) :
    streamOf (before ++ after) n = streamOf before n ++ streamOf after n := List.filter_append ..

theorem mem_streamOf {n : String} :
    event ∈ streamOf events n ↔ event ∈ events ∧ event.envelope.endpointId = some n := by
  unfold streamOf
  rw [List.mem_filter, decide_eq_true_iff]

/-- The order in which the events were sent. -/
theorem interleaves_self (hsent : ∀ event ∈ events, ∃ n, event.envelope.endpointId = some n) :
    Interleaves (streamOf events) events where
  sent := hsent
  order _ := rfl

/-- The stream of one endpoint may be read after all others. -/
theorem interleaves_last (hsent : ∀ event ∈ events, ∃ n, event.envelope.endpointId = some n)
    (last : String) :
    Interleaves (streamOf events)
      ((events.filter fun event => event.envelope.endpointId ≠ some last) ++
        streamOf events last) where
  sent event hevent := by
    obtain hother | hown := List.mem_append.1 hevent
    · exact hsent event (List.mem_of_mem_filter hother)
    · exact ⟨last, (mem_streamOf.1 hown).2⟩
  order n := by
    rw [streamOf_append]
    unfold streamOf
    rw [List.filter_filter, List.filter_filter]
    by_cases hn : n = last
    · subst hn
      have hother : (events.filter fun event => event.envelope.endpointId = some n &&
          event.envelope.endpointId ≠ some n) = [] := List.filter_eq_nil_iff.2 (by simp)
      rw [hother, List.nil_append]
      exact List.filter_congr fun event _ => Bool.and_self _
    · have hown : (events.filter fun event => event.envelope.endpointId = some n &&
          event.envelope.endpointId = some last) = [] := by
        refine List.filter_eq_nil_iff.2 fun event _ h => ?_
        simp only [Bool.and_eq_true, decide_eq_true_eq] at h
        exact hn (Option.some.inj (h.1.symm.trans h.2))
      rw [hown, List.append_nil]
      refine List.filter_congr fun event _ => ?_
      by_cases h : event.envelope.endpointId = some n
      · simp [h, hn]
      · simp [h]

/-- An interleaving has the events of the streams. -/
theorem Interleaves.mem_iff (hsent : ∀ event ∈ events, ∃ n, event.envelope.endpointId = some n)
    {events' : List DomainEvent} (h : Interleaves (streamOf events) events') :
    event ∈ events' ↔ event ∈ events := by
  constructor
  · intro hevent
    obtain ⟨n, -, hstream⟩ := h.mem_streams hevent
    exact (mem_streamOf.1 hstream).1
  · intro hevent
    obtain ⟨n, hn⟩ := hsent event hevent
    have hstream : event ∈ streamOf events' n := by
      rw [h.order n]
      exact mem_streamOf.2 ⟨hevent, hn⟩
    exact (mem_streamOf.1 hstream).1

end Axo.Projector
