import Axo.Lib.Documents
import Axo.Projector.Events

/-!
# The read model

What the projector writes: `application/projector/dispatcher.py` with its handlers, over the Mongo
repositories of `infrastructure/database/mongo/`.

* a collection is a `Collection`; where the repository always writes the same fields its documents
  are records, and where it sets whatever an event carries they are `Document`s beside the array that
  `$addToSet` and `$pull` work on;
* each `…Handler` is the `apply` of one handler module;
* `applyEvent` is the dispatch of one event, with the event that a change of leader appends to the
  event store.

What is broadcast to browsers and what is logged is left out.
-/

namespace Axo.Projector

/-! ### The documents -/

/-- A row of `unified_activity`.  `created_at` is kept by its text. -/
structure ActivityRow where
  eventType : String
  createdAt : Option Value
  userId : Option Value
  virtualEnvironmentId : Option Value
  endpointId : Option Value
  runtimeType : Option Value
  metaFields : Fields

/-- A function document: its fields, and the array `endpoint_id` when it has one. -/
structure FunctionDocument where
  fields : Document String Value := fun _ => none
  endpointId : Option (List String) := none

/-- A consensus document. -/
structure ConsensusDocument where
  fields : Document String Value := fun _ => none
  reportedBy : List (Option String) := []

inductive JobStatus
  | queued
  | started
  | completed
  | failed
  deriving DecidableEq, Repr

/-- `Job`. -/
structure Job where
  jobId : String
  functionId : String
  status : JobStatus
  functionVersion : Option ℤ := none
  durationMs : Option String := none
  params : Option Fields := none
  endpointId : Option String := none
  createdAt : Option String := none
  deriving DecidableEq

/-- `UserProfile`. -/
structure UserProfile where
  userId : Option String
  profilePhoto : String
  preferences : Preferences

/-- A document of `virtual_environments`; the last two fields are absent or set. -/
structure VirtualEnvironment where
  virtualEnvironmentId : String
  name : String
  ownerUserId : Option String
  capacity : ResourceQuota
  leaderEndpointId : Option String := none
  deletedAt : Option String := none
  deriving DecidableEq

/-- `DataBucket`. -/
structure DataBucket where
  name : String
  quotaBytes : ℤ
  createdAt : String

inductive DataItemStatus
  | pending
  | ready
  deriving DecidableEq, Repr

/-- `DataItem`. -/
structure DataItem where
  name : String
  version : ℤ
  format : String
  kind : String
  totalSize : ℤ
  totalChunks : ℤ
  status : DataItemStatus

/-- A document of `choreographies`. -/
structure Choreography where
  choreographyId : String
  name : String
  ownerUserId : Option String
  graph : Value
  createdAt : String
  updatedAt : String
  deletedAt : Option String := none

/-- The collections. -/
structure ReadModel where
  unifiedActivity : Collection String ActivityRow := ∅
  userProfiles : Collection (Option String) UserProfile := ∅
  virtualEnvironments : Collection String VirtualEnvironment := ∅
  endpoints : Collection (Option String) (Document String Value) := ∅
  functions : Collection String FunctionDocument := ∅
  consensus : Collection ℤ ConsensusDocument := ∅
  jobs : Collection String Job := ∅
  buckets : Collection String DataBucket := ∅
  bucketData : Collection String DataItem := ∅
  choreographies : Collection String Choreography := ∅

/-! ### The activity log -/

/-- The fields that stand beside `meta`: `_ENVELOPE_TOP_LEVEL_FIELDS` and the two of `record`. -/
def topLevelFields : List String :=
  ["user_id", "virtual_environment_id", "endpoint_id", "runtime_type", "event_id", "created_at"]

/-- The row of an event. -/
def activityRow (event : DomainEvent) : ActivityRow where
  eventType := event.eventType
  createdAt := event.data.lookup "created_at"
  userId := event.data.lookup "user_id"
  virtualEnvironmentId := event.data.lookup "virtual_environment_id"
  endpointId := event.data.lookup "endpoint_id"
  runtimeType := event.data.lookup "runtime_type"
  metaFields := event.data.filter fun field => field.1 ∉ topLevelFields

/-- `MongoActivityRepository.record`. -/
def record (rows : Collection String ActivityRow) (event : DomainEvent) :
    Collection String ActivityRow :=
  rows.upsert event.envelope.eventId fun _ => activityRow event

/-! ### `compute_handler` -/

/-- `_ENDPOINT_STATUS_BY_EVENT_TYPE`. -/
def EndpointPayload.status? : EndpointPayload → Option String
  | .started _ _ | .recovered => some "running"
  | .stopped _ => some "stopped"
  | .unreachable _ => some "unreachable"
  | .metricsReported _ | .virtualEnvAssigned | .virtualEnvDetached _ => none

/-- `_FUNCTION_CONTAINER_STATUS_BY_EVENT_TYPE`. -/
def FunctionPayload.containerStatus? : FunctionPayload → Option String
  | .deployed | .activated _ => some "running"
  | .deployFailed _ | .deactivated _ | .stopped _ | .crashed => some "stopped"
  | .registered .. | .registerFailed _ | .updated _ _ => none

/-- `{**data, key: value}`, for a value that is there. -/
def withField (data : Fields) (key : String) : Option String → Fields
  | some value => (key, .str value) :: data
  | none => data

/-- `MongoEndpointRepository.apply_event_data`. -/
def setEndpoint (endpoints : Collection (Option String) (Document String Value))
    (endpointId : Option String) (data : Fields) :
    Collection (Option String) (Document String Value) :=
  endpoints.upsert endpointId fun doc => (doc.getD fun _ => none).set data

/-- The key of a function document. -/
def functionKey (functionId : String) (version : ℤ) : String :=
  functionId ++ ":" ++ version.repr

/-- `$addToSet` on an array that may be missing. -/
def addToSet {α : Type} [DecidableEq α] (array : List α) (element : α) : List α :=
  if element ∈ array then array else array ++ [element]

/-- `MongoFunctionRepository.apply_event_data` on one document. -/
def FunctionDocument.apply (doc : Option FunctionDocument) (data : Fields)
    (endpointId : Option String) : FunctionDocument :=
  let old := doc.getD {}
  { fields := old.fields.set (data.filter fun field => field.1 ≠ "endpoint_id")
    endpointId :=
      match endpointId with
      | some id => some (addToSet (old.endpointId.getD []) id)
      | none => old.endpointId }

/-- `mark_deleted_from_event` on one document. -/
def FunctionDocument.markDeleted (doc : Option FunctionDocument) (createdAt : String) :
    FunctionDocument :=
  let old := doc.getD {}
  { old with fields := old.fields.set [("deleted_at", .str createdAt)] }

/-- `detach_endpoint_from_event` on one document. -/
def FunctionDocument.detach (endpointId : Option String) (doc : FunctionDocument) :
    FunctionDocument :=
  { doc with endpointId := doc.endpointId.map fun ids => ids.filter fun id => some id ≠ endpointId }

/-- `MongoConsensusRepository.record` on one document. -/
def ConsensusDocument.record (endpointId : Option String) (data : Fields)
    (doc : Option ConsensusDocument) : ConsensusDocument :=
  let old := doc.getD {}
  { fields := old.fields.set data
    reportedBy := addToSet old.reportedBy endpointId }

/-- `MongoEndpointRepository.get`, as far as its `virtual_environment_id`. -/
def virtualEnvironmentOf (endpoints : Collection (Option String) (Document String Value))
    (endpointId : Option String) : Option String :=
  match (endpoints.lookup endpointId).bind fun doc => doc "virtual_environment_id" with
  | some (.str virtualEnvironmentId) => some virtualEnvironmentId
  | _ => none

/-- `clear_leader_endpoint_id`, on one document. -/
def VirtualEnvironment.clearLeader (doc : VirtualEnvironment) : VirtualEnvironment :=
  { doc with leaderEndpointId := none }

/-- `set_leader_endpoint_id`, on one document. -/
def VirtualEnvironment.setLeader (leaderEndpointId : String) (doc : VirtualEnvironment) :
    VirtualEnvironment :=
  if doc.deletedAt = none then { doc with leaderEndpointId := some leaderEndpointId } else doc

/-- The id and the time that a new event is made with. -/
structure EventStamp where
  eventId : String
  createdAt : String

/-- `VirtualEnvironmentLeaderChanged` as `_apply_leader_change` makes it. -/
def leaderChanged (stamp : EventStamp) (virtualEnvironmentId leaderEndpointId : String) :
    DomainEvent where
  envelope := { eventId := stamp.eventId, createdAt := stamp.createdAt }
  body := .virtualEnv virtualEnvironmentId (.leaderChanged leaderEndpointId)

/-- The leader of a view and the virtual environment it is in; `_apply_leader_change` does nothing
for a view that has not exactly one leader. -/
def leaderIn (endpoints : Collection (Option String) (Document String Value)) :
    List String → Option (String × Option String)
  | [leaderEndpointId] => some (leaderEndpointId, virtualEnvironmentOf endpoints leaderEndpointId)
  | _ => none

/-- `_apply_leader_change`: the virtual environments, and what is appended to the event store. -/
def applyLeaderChange (publishes : Bool) (stamp : EventStamp)
    (endpoints : Collection (Option String) (Document String Value))
    (virtualEnvironments : Collection String VirtualEnvironment) (leaderIds : List String) :
    Collection String VirtualEnvironment × List DomainEvent :=
  match leaderIn endpoints leaderIds with
  | none => (virtualEnvironments, [])
  | some (_, none) => (virtualEnvironments.updateMany VirtualEnvironment.clearLeader, [])
  | some (leaderEndpointId, some virtualEnvironmentId) =>
    ((virtualEnvironments.updateMany VirtualEnvironment.clearLeader).updateOne virtualEnvironmentId
        (VirtualEnvironment.setLeader leaderEndpointId),
      if publishes then [leaderChanged stamp virtualEnvironmentId leaderEndpointId] else [])

/-- The consensus branch of `compute_handler.apply`. -/
def applyConsensus (publishes : Bool) (stamp : EventStamp) (s : ReadModel) (event : DomainEvent)
    (term : ℤ) (payload : ConsensusPayload) : ReadModel × List DomainEvent :=
  let s' :=
    { s with
      consensus := s.consensus.upsert term
        (ConsensusDocument.record event.envelope.endpointId event.data) }
  match payload.leaderIds? with
  | none => (s', [])
  | some leaderIds =>
    let result := applyLeaderChange publishes stamp s.endpoints s.virtualEnvironments leaderIds
    ({ s' with virtualEnvironments := result.1 }, result.2)

/-! ### `job_handler` -/

/-- What `apply` saves for a job that has a record or none. -/
def jobHandler (envelope : EventEnvelope) (jobId functionId : String) (payload : JobPayload)
    (old : Option Job) : Job :=
  -- without a record, one is made as if the job had been queued
  let job := old.getD { jobId := jobId, functionId := functionId, status := .queued }
  match payload with
  | .queued version params =>
    { jobId := jobId
      functionId := functionId
      status := .queued
      functionVersion := version
      params := params
      endpointId := envelope.endpointId
      createdAt := some envelope.createdAt }
  | .started version _ =>
    { job with functionVersion := version.or job.functionVersion, status := .started }
  | .completed durationMs => { job with status := .completed, durationMs := durationMs }
  | .failed _ durationMs =>
    { job with status := .failed, durationMs := durationMs.or job.durationMs }

/-! ### The other handlers -/

/-- The key of a data item. -/
def dataItemKey (name : String) (version : ℤ) : String := name ++ ":" ++ version.repr

/-- `set_status(name, version, "ready")`, on one document. -/
def DataItem.markReady (item : DataItem) : DataItem := { item with status := .ready }

/-- `bucket_handler.apply`. -/
def bucketHandler (s : ReadModel) (envelope : EventEnvelope) (name : String) :
    DataPayload → ReadModel
  | .bucketCreated quotaBytes =>
    { s with
      buckets := s.buckets.upsert name fun _ =>
        { name := name, quotaBytes := quotaBytes, createdAt := envelope.createdAt } }
  | .registered version format kind totalSize totalChunks =>
    { s with
      bucketData := s.bucketData.upsert (dataItemKey name version) fun _ =>
        { name := name
          version := version
          format := format
          kind := kind
          totalSize := totalSize
          totalChunks := totalChunks
          status := .pending } }
  | .uploadCompleted version =>
    { s with
      bucketData := s.bucketData.updateOne (dataItemKey name version) DataItem.markReady }
  | .deleted version => { s with bucketData := s.bucketData.erase (dataItemKey name version) }

/-- `identity_handler.apply`. -/
def identityHandler (profiles : Collection (Option String) UserProfile)
    (userId : Option String) : UserProfilePayload → Collection (Option String) UserProfile
  | .created profilePhoto preferences | .updated profilePhoto preferences =>
    profiles.upsert userId fun _ =>
      { userId := userId, profilePhoto := profilePhoto, preferences := preferences }
  | .deleted => profiles.erase userId

/-- `MongoVirtualEnvironmentRepository.save`. -/
def VirtualEnvironment.save (id name : String) (ownerUserId : Option String)
    (capacity : ResourceQuota) (doc : Option VirtualEnvironment) : VirtualEnvironment where
  virtualEnvironmentId := id
  name := name
  ownerUserId := ownerUserId
  capacity := capacity
  leaderEndpointId := doc.bind leaderEndpointId
  deletedAt := doc.bind deletedAt

/-- `MongoVirtualEnvironmentRepository.get`. -/
def VirtualEnvironment.get (doc : Option VirtualEnvironment) : Option VirtualEnvironment :=
  doc.filter fun doc => doc.deletedAt = none

/-- `MongoVirtualEnvironmentRepository.soft_delete`, on one document. -/
def VirtualEnvironment.softDelete (now : String) (doc : VirtualEnvironment) : VirtualEnvironment :=
  { doc with deletedAt := some now }

/-- `workspace_handler.apply`. -/
def workspaceHandler (docs : Collection String VirtualEnvironment) (envelope : EventEnvelope)
    (id : String) : VirtualEnvPayload → Collection String VirtualEnvironment
  | .created name ownerUserId resourceQuota =>
    docs.upsert id (VirtualEnvironment.save id name (some ownerUserId) resourceQuota)
  | .updated name resourceQuota =>
    -- the event carries no owner, so that of the stored workspace is kept
    docs.upsert id fun doc =>
      VirtualEnvironment.save id name
        ((VirtualEnvironment.get doc).bind VirtualEnvironment.ownerUserId) resourceQuota doc
  | .deleted => docs.updateOne id (VirtualEnvironment.softDelete envelope.createdAt)
  | .leaderChanged _ => docs

/-- `MongoChoreographyRepository.save`. -/
def Choreography.save (id name : String) (ownerUserId : Option String) (graph : Value)
    (createdAt updatedAt : String) (doc : Option Choreography) : Choreography where
  choreographyId := id
  name := name
  ownerUserId := ownerUserId
  graph := graph
  createdAt := createdAt
  updatedAt := updatedAt
  deletedAt := doc.bind deletedAt

/-- `MongoChoreographyRepository.get`. -/
def Choreography.get (doc : Option Choreography) : Option Choreography :=
  doc.filter fun doc => doc.deletedAt = none

/-- `MongoChoreographyRepository.soft_delete`, on one document. -/
def Choreography.softDelete (now : String) (doc : Choreography) : Choreography :=
  { doc with deletedAt := some now }

/-- `choreography_handler.apply`. -/
def choreographyHandler (docs : Collection String Choreography) (envelope : EventEnvelope)
    (id : String) : ChoreographyPayload → Collection String Choreography
  | .created name ownerUserId graph =>
    docs.upsert id (Choreography.save id name (some ownerUserId) graph envelope.createdAt
      envelope.createdAt)
  | .updated name graph =>
    docs.upsert id fun doc =>
      let existing := Choreography.get doc
      Choreography.save id name (existing.bind Choreography.ownerUserId) graph
        ((existing.map Choreography.createdAt).getD envelope.createdAt) envelope.createdAt doc
  | .deleted => docs.updateOne id (Choreography.softDelete envelope.createdAt)

/-! ### The dispatch -/

/-- What an event does beside its row in the activity log. -/
def handle (publishes : Bool) (stamp : EventStamp) (s : ReadModel) (event : DomainEvent) :
    ReadModel × List DomainEvent :=
  match event.body with
  | .endpoint payload =>
    ({ s with
        endpoints := setEndpoint s.endpoints event.envelope.endpointId
          (withField event.data "status" payload.status?) }, [])
  | .function functionId version payload =>
    ({ s with
        functions := s.functions.upsert (functionKey functionId version) fun doc =>
          FunctionDocument.apply doc
            (withField event.data "container_status" payload.containerStatus?)
            event.envelope.endpointId }, [])
  | .functionDeleted functionId version =>
    ({ s with
        functions := s.functions.upsert (functionKey functionId version) fun doc =>
          FunctionDocument.markDeleted doc event.envelope.createdAt }, [])
  | .functionEndpointDetached functionId version =>
    ({ s with
        functions := s.functions.updateOne (functionKey functionId version)
          (FunctionDocument.detach event.envelope.endpointId) }, [])
  | .functionDeleteFailed _ _ _ | .functionBuild _ _ _ _ => (s, [])
  | .consensus term payload => applyConsensus publishes stamp s event term payload
  | .job jobId functionId payload =>
    ({ s with
        jobs := s.jobs.upsert jobId (jobHandler event.envelope jobId functionId payload) }, [])
  | .data name payload => (bucketHandler s event.envelope name payload, [])
  | .userProfile payload =>
    ({ s with userProfiles := identityHandler s.userProfiles event.envelope.userId payload }, [])
  | .virtualEnv id payload =>
    ({ s with
        virtualEnvironments := workspaceHandler s.virtualEnvironments event.envelope id payload }, [])
  | .choreography id payload =>
    ({ s with
        choreographies := choreographyHandler s.choreographies event.envelope id payload }, [])

/-- `apply_event`: the read model after the event, and what was appended to the event store.
`publishes` says whether there is an `event_publisher`, `stamp` is what a new event is made with. -/
def applyEvent (publishes : Bool) (stamp : EventStamp) (s : ReadModel) (event : DomainEvent) :
    ReadModel × List DomainEvent :=
  handle publishes stamp { s with unifiedActivity := record s.unifiedActivity event } event

/-- The read model after a sequence of events. -/
def project (publishes : Bool) (stamp : DomainEvent → EventStamp) (s : ReadModel)
    (events : List DomainEvent) : ReadModel :=
  events.foldl (fun s event => (applyEvent publishes (stamp event) s event).1) s

theorem project_concat (publishes : Bool) (stamp : DomainEvent → EventStamp) (s : ReadModel)
    (events : List DomainEvent) (event : DomainEvent) :
    project publishes stamp s (events ++ [event]) =
      (applyEvent publishes (stamp event) (project publishes stamp s events) event).1 := by
  unfold project
  rw [List.foldl_append]
  rfl

end Axo.Projector
