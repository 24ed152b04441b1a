import Axo.Projector.ReadModel

/-!
# An event that is delivered twice

After a crash between `apply_event` and the checkpoint the same event is applied again.

* `handle_twice`: what is stored is the same as after the first time, for every event and every read
  model;
* `applyEvent_twice_iff`: the same holds for what is appended to the event store, except where the
  event reports a leader whose virtual environment is known.
-/

namespace Axo.Projector

variable {publishes : Bool} {stamp stamp' : EventStamp} {s : ReadModel} {event : DomainEvent}

/-! ### The handlers -/

theorem record_twice (rows : Collection String ActivityRow) (event : DomainEvent) :
    record (record rows event) event = record rows event :=
  Collection.upsert_upsert fun _ => rfl

theorem setEndpoint_twice (endpoints : Collection (Option String) (Document String Value))
    (endpointId : Option String) (data : Fields) :
    setEndpoint (setEndpoint endpoints endpointId data) endpointId data =
      setEndpoint endpoints endpointId data :=
  Collection.upsert_upsert fun doc => Document.set_set_self (doc.getD fun _ => none) data

/-- An element that is in the array already is not added again. -/
@[simp] theorem addToSet_addToSet {α : Type} [DecidableEq α] (array : List α) (element : α) :
    addToSet (addToSet array element) element = addToSet array element := by
  unfold addToSet
  split_ifs with h h'
  · rfl
  · rfl
  · exact absurd (List.mem_append_right _ (List.mem_singleton_self _)) h'

theorem FunctionDocument.apply_twice (doc : Option FunctionDocument) (data : Fields)
    (endpointId : Option String) :
    apply (some (apply doc data endpointId)) data endpointId = apply doc data endpointId := by
  cases endpointId <;> simp [apply]

theorem FunctionDocument.markDeleted_twice (doc : Option FunctionDocument) (createdAt : String) :
    markDeleted (some (markDeleted doc createdAt)) createdAt = markDeleted doc createdAt := by
  simp [markDeleted]

theorem FunctionDocument.detach_twice (endpointId : Option String) (doc : FunctionDocument) :
    detach endpointId (detach endpointId doc) = detach endpointId doc := by
  unfold detach
  simp [Option.map_map, Function.comp_def, List.filter_filter]

theorem ConsensusDocument.record_twice (endpointId : Option String) (data : Fields)
    (doc : Option ConsensusDocument) :
    record endpointId data (some (record endpointId data doc)) = record endpointId data doc := by
  simp [record]

theorem VirtualEnvironment.clearLeader_setLeader (leaderEndpointId : String)
    (doc : VirtualEnvironment) : clearLeader (setLeader leaderEndpointId doc) = clearLeader doc := by
  unfold setLeader
  split_ifs <;> rfl

/-- The flag of the leader is where it was. -/
theorem applyLeaderChange_twice
    (endpoints : Collection (Option String) (Document String Value))
    (docs : Collection String VirtualEnvironment) (leaderIds : List String) :
    (applyLeaderChange publishes stamp' endpoints
        (applyLeaderChange publishes stamp endpoints docs leaderIds).1 leaderIds).1 =
      (applyLeaderChange publishes stamp endpoints docs leaderIds).1 := by
  unfold applyLeaderChange
  rcases leaderIn endpoints leaderIds with _ | ⟨leaderEndpointId, _ | virtualEnvironmentId⟩
  · rfl
  · refine Dict.ext_keys_lookup (by simp) fun k => ?_
    simp only [Collection.lookup_updateMany, Option.map_map]
    rfl
  · exact Collection.updateOne_updateMany_twice (fun _ => rfl)
      (VirtualEnvironment.clearLeader_setLeader leaderEndpointId)

theorem jobHandler_twice (envelope : EventEnvelope) (jobId functionId : String)
    (payload : JobPayload) (old : Option Job) :
    jobHandler envelope jobId functionId payload
        (some (jobHandler envelope jobId functionId payload old)) =
      jobHandler envelope jobId functionId payload old := by
  cases payload with
  | queued version params => rfl
  | started version params => cases version <;> rfl
  | completed durationMs => rfl
  | failed failure durationMs => cases durationMs <;> rfl

theorem bucketHandler_twice (s : ReadModel) (envelope : EventEnvelope) (name : String)
    (payload : DataPayload) :
    bucketHandler (bucketHandler s envelope name payload) envelope name payload =
      bucketHandler s envelope name payload := by
  cases payload with
  | bucketCreated quotaBytes =>
    simp only [bucketHandler]
    rw [Collection.upsert_upsert]
    exact fun _ => rfl
  | registered version format kind totalSize totalChunks =>
    simp only [bucketHandler]
    rw [Collection.upsert_upsert]
    exact fun _ => rfl
  | uploadCompleted version =>
    simp only [bucketHandler]
    rw [Collection.updateOne_updateOne]
    exact fun _ => rfl
  | deleted version =>
    simp only [bucketHandler, Collection.erase_erase]

theorem identityHandler_twice (profiles : Collection (Option String) UserProfile)
    (userId : Option String) (payload : UserProfilePayload) :
    identityHandler (identityHandler profiles userId payload) userId payload =
      identityHandler profiles userId payload := by
  cases payload with
  | created profilePhoto preferences =>
    simp only [identityHandler]
    rw [Collection.upsert_upsert]
    exact fun _ => rfl
  | updated profilePhoto preferences =>
    simp only [identityHandler]
    rw [Collection.upsert_upsert]
    exact fun _ => rfl
  | deleted => simp only [identityHandler, Collection.erase_erase]

/-- The owner that an update has kept is kept again. -/
theorem VirtualEnvironment.owner_save (id name : String) (capacity : ResourceQuota)
    (doc : Option VirtualEnvironment) :
    (get (some (save id name ((get doc).bind ownerUserId) capacity doc))).bind ownerUserId =
      (get doc).bind ownerUserId := by
  cases doc with
  | none => rfl
  | some doc => cases hdeleted : doc.deletedAt <;> simp [get, save, Option.filter, hdeleted]

theorem workspaceHandler_twice (docs : Collection String VirtualEnvironment)
    (envelope : EventEnvelope) (id : String) (payload : VirtualEnvPayload) :
    workspaceHandler (workspaceHandler docs envelope id payload) envelope id payload =
      workspaceHandler docs envelope id payload := by
  cases payload with
  | created name ownerUserId resourceQuota =>
    simp only [workspaceHandler]
    rw [Collection.upsert_upsert]
    exact fun _ => rfl
  | updated name resourceQuota =>
    simp only [workspaceHandler]
    rw [Collection.upsert_upsert]
    intro doc
    rw [VirtualEnvironment.owner_save]
    rfl
  | deleted =>
    simp only [workspaceHandler]
    rw [Collection.updateOne_updateOne]
    exact fun _ => rfl
  | leaderChanged leaderEndpointId => rfl

/-- So are the owner and the time of creation of a choreography. -/
theorem Choreography.get_save (id name : String) (graph : Value) (now : String)
    (doc : Option Choreography) :
    let saved := some (save id name ((get doc).bind ownerUserId) graph
      (((get doc).map Choreography.createdAt).getD now) now doc)
    (get saved).bind ownerUserId = (get doc).bind ownerUserId ∧
      ((get saved).map Choreography.createdAt).getD now =
        ((get doc).map Choreography.createdAt).getD now := by
  cases doc with
  | none => exact ⟨rfl, rfl⟩
  | some doc => cases hdeleted : doc.deletedAt <;> simp [get, save, Option.filter, hdeleted]

theorem choreographyHandler_twice (docs : Collection String Choreography)
    (envelope : EventEnvelope) (id : String) (payload : ChoreographyPayload) :
    choreographyHandler (choreographyHandler docs envelope id payload) envelope id payload =
      choreographyHandler docs envelope id payload := by
  cases payload with
  | created name ownerUserId graph =>
    simp only [choreographyHandler]
    rw [Collection.upsert_upsert]
    exact fun _ => rfl
  | updated name graph =>
    simp only [choreographyHandler]
    rw [Collection.upsert_upsert]
    intro doc
    obtain ⟨howner, hcreated⟩ := Choreography.get_save id name graph envelope.createdAt doc
    rw [howner, hcreated]
    rfl
  | deleted =>
    simp only [choreographyHandler]
    rw [Collection.updateOne_updateOne]
    exact fun _ => rfl

/-! ### The dispatch -/

/-- What is stored after the second time is what was stored after the first. -/
theorem handle_twice (publishes : Bool) (stamp stamp' : EventStamp) (s : ReadModel)
    (event : DomainEvent) :
    (handle publishes stamp' (handle publishes stamp s event).1 event).1 =
      (handle publishes stamp s event).1 := by
  cases hbody : event.body with
  | endpoint payload => simp only [handle, hbody, setEndpoint_twice]
  | function functionId version payload =>
    simp only [handle, hbody]
    rw [Collection.upsert_upsert]
    exact fun doc => FunctionDocument.apply_twice doc _ _
  | functionDeleted functionId version =>
    simp only [handle, hbody]
    rw [Collection.upsert_upsert]
    exact fun doc => FunctionDocument.markDeleted_twice doc _
  | functionDeleteFailed functionId version failure => simp only [handle, hbody]
  | functionEndpointDetached functionId version =>
    simp only [handle, hbody]
    rw [Collection.updateOne_updateOne]
    exact FunctionDocument.detach_twice _
  | functionBuild functionId pythonVersion imageTag payload => simp only [handle, hbody]
  | consensus term payload =>
    have hrecord : ∀ doc, ConsensusDocument.record event.envelope.endpointId event.data
        (some (ConsensusDocument.record event.envelope.endpointId event.data doc)) =
          ConsensusDocument.record event.envelope.endpointId event.data doc :=
      ConsensusDocument.record_twice _ _
    simp only [handle, hbody, applyConsensus]
    cases payload.leaderIds? with
    | none =>
      dsimp only
      rw [Collection.upsert_upsert hrecord]
    | some leaderIds =>
      dsimp only
      rw [Collection.upsert_upsert hrecord, applyLeaderChange_twice]
  | job jobId functionId payload =>
    simp only [handle, hbody]
    rw [Collection.upsert_upsert]
    exact jobHandler_twice _ jobId functionId payload
  | data name payload => simp only [handle, hbody, bucketHandler_twice]
  | userProfile payload => simp only [handle, hbody, identityHandler_twice]
  | virtualEnv virtualEnvironmentId payload => simp only [handle, hbody, workspaceHandler_twice]
  | choreography choreographyId payload => simp only [handle, hbody, choreographyHandler_twice]

/-- The handlers leave the activity log alone. -/
theorem handle_unifiedActivity (publishes : Bool) (stamp : EventStamp) (s : ReadModel)
    (event : DomainEvent) :
    (handle publishes stamp s event).1.unifiedActivity = s.unifiedActivity := by
  cases hbody : event.body with
  | consensus term payload =>
    simp only [handle, hbody, applyConsensus]
    cases payload.leaderIds? <;> rfl
  | data name payload =>
    simp only [handle, hbody]
    cases payload <;> rfl
  | _ => simp only [handle, hbody]

theorem applyEvent_twice (publishes : Bool) (stamp stamp' : EventStamp) (s : ReadModel)
    (event : DomainEvent) :
    applyEvent publishes stamp' (applyEvent publishes stamp s event).1 event =
      handle publishes stamp' (applyEvent publishes stamp s event).1 event := by
  have hrows : record (applyEvent publishes stamp s event).1.unifiedActivity event =
      (applyEvent publishes stamp s event).1.unifiedActivity := by
    unfold applyEvent
    rw [handle_unifiedActivity, record_twice]
  unfold applyEvent at hrows ⊢
  rw [hrows]

/-- The leader that an event reports, with its virtual environment, when it reports one and that is
known. -/
def reportedLeader (s : ReadModel) (event : DomainEvent) : Option (String × String) :=
  match event.body with
  | .consensus _ payload =>
    (payload.leaderIds?.bind (leaderIn s.endpoints)).bind fun leader =>
      leader.2.map fun virtualEnvironmentId => (virtualEnvironmentId, leader.1)
  | _ => none

/-- What an event appends to the event store. -/
theorem handle_appended (publishes : Bool) (stamp : EventStamp) (s : ReadModel)
    (event : DomainEvent) :
    (handle publishes stamp s event).2 =
      if publishes then
        (reportedLeader s event).toList.map fun leader => leaderChanged stamp leader.1 leader.2
      else [] := by
  have hnil : ([] : List DomainEvent) = if publishes then [] else [] := (ite_self _).symm
  cases hbody : event.body with
  | consensus term payload =>
    simp only [handle, hbody, applyConsensus, reportedLeader]
    cases payload.leaderIds? with
    | none => exact hnil
    | some leaderIds =>
      simp only [applyLeaderChange, Option.bind_some]
      rcases leaderIn s.endpoints leaderIds with _ | ⟨leaderEndpointId, _ | virtualEnvironmentId⟩
      · exact hnil
      · exact hnil
      · rfl
  | _ =>
    simp only [handle, hbody, reportedLeader]
    exact hnil

theorem reportedLeader_applyEvent (publishes : Bool) (stamp : EventStamp) (s : ReadModel)
    (event : DomainEvent) :
    reportedLeader (applyEvent publishes stamp s event).1 event = reportedLeader s event := by
  cases hbody : event.body with
  | consensus term payload =>
    simp only [applyEvent, handle, hbody, applyConsensus, reportedLeader]
    cases payload.leaderIds? <;> rfl
  | _ => simp only [reportedLeader, hbody]

theorem applyEvent_appended (publishes : Bool) (stamp : EventStamp) (s : ReadModel)
    (event : DomainEvent) :
    (applyEvent publishes stamp s event).2 =
      if publishes then
        (reportedLeader s event).toList.map fun leader => leaderChanged stamp leader.1 leader.2
      else [] :=
  handle_appended publishes stamp { s with unifiedActivity := record s.unifiedActivity event } event

/-- An event that is delivered twice in a row leaves the read model and the set of appended events
of one delivery, unless it reports a leader in a known virtual environment: that is announced
again. -/
theorem applyEvent_twice_iff (publishes : Bool) (stamp stamp' : EventStamp) (s : ReadModel)
    (event : DomainEvent) (hfresh : stamp'.eventId ≠ stamp.eventId) :
    ((applyEvent publishes stamp' (applyEvent publishes stamp s event).1 event).1 =
        (applyEvent publishes stamp s event).1 ∧
      ∀ appended, appended ∈ (applyEvent publishes stamp s event).2 ++
          (applyEvent publishes stamp' (applyEvent publishes stamp s event).1 event).2 ↔
        appended ∈ (applyEvent publishes stamp s event).2) ↔
      ¬ (publishes = true ∧ (reportedLeader s event).isSome = true) := by
  have hstored : (applyEvent publishes stamp' (applyEvent publishes stamp s event).1 event).1 =
      (applyEvent publishes stamp s event).1 := by
    rw [applyEvent_twice]
    exact handle_twice publishes stamp stamp' _ event
  rw [and_iff_right hstored, applyEvent_appended, applyEvent_appended, reportedLeader_applyEvent]
  cases publishes with
  | false => simp
  | true =>
    cases reportedLeader s event with
    | none => simp
    | some leader =>
      refine iff_of_false (fun hsame => ?_) (by simp)
      have hagain := (hsame (leaderChanged stamp' leader.1 leader.2)).1 (by simp)
      have heq : leaderChanged stamp' leader.1 leader.2 = leaderChanged stamp leader.1 leader.2 := by
        simpa using hagain
      exact hfresh (congrArg (fun event => event.envelope.eventId) heq)

/-- A leader elected again by a second endpoint. -/
def electedEvent : DomainEvent where
  envelope := { eventId := "e1", createdAt := "2024-01-01T00:00:00Z", endpointId := some "n1" }
  body := .consensus 1 (.leaderElected ["n2"])

/-- The read model once the leader's virtual environment is known. -/
def assignedModel : ReadModel :=
  (applyEvent true ⟨"x", ""⟩ {}
    { envelope :=
        { eventId := "e0"
          createdAt := "2024-01-01T00:00:00Z"
          virtualEnvironmentId := some "v1"
          endpointId := some "n2" }
      body := .endpoint .virtualEnvAssigned }).1

/-- Before the leader's virtual environment is known, the event may come twice. -/
theorem applyEvent_twice_unknown :
    (applyEvent true ⟨"b", ""⟩ (applyEvent true ⟨"a", ""⟩ {} electedEvent).1 electedEvent).1 =
      (applyEvent true ⟨"a", ""⟩ {} electedEvent).1 :=
  ((applyEvent_twice_iff true ⟨"a", ""⟩ ⟨"b", ""⟩ {} electedEvent (by decide)).2
    (by decide +kernel)).1

/-- Afterwards it is announced twice. -/
theorem announced_twice :
    ∃ appended,
      appended ∈ (applyEvent true ⟨"a", ""⟩ assignedModel electedEvent).2 ++
          (applyEvent true ⟨"b", ""⟩
            (applyEvent true ⟨"a", ""⟩ assignedModel electedEvent).1 electedEvent).2 ∧
        appended ∉ (applyEvent true ⟨"a", ""⟩ assignedModel electedEvent).2 := by
  refine ⟨leaderChanged ⟨"b", ""⟩ "v1" "n2", ?_, ?_⟩
  · rw [applyEvent_appended, applyEvent_appended, reportedLeader_applyEvent]
    have hleader : reportedLeader assignedModel electedEvent = some ("v1", "n2") := by
      decide +kernel
    rw [hleader]
    simp
  · have hleader : reportedLeader assignedModel electedEvent = some ("v1", "n2") := by
      decide +kernel
    rw [applyEvent_appended, hleader]
    simp [leaderChanged]

end Axo.Projector
