import Axo.Lib.Ownership
import Axo.Lib.Transition
import Axo.Projector.Redelivery
import Axo.Projector.Retention

/-!
# Whose workspaces and choreographies

The use cases of `application/workspace/` and `application/choreography/` that create, update, delete
and purge, with the projector that takes over what they append.

* `OwnerRequest.execute` is what a use case reads and decides, `Granted` what it then does;
* `OwnerSystem.step` is one step of a request, of the projector or of an endpoint;
* `step_shared`: the system is one of owned records behind a log;
* `creator_of_execute`: whatever is done about a workspace or a choreography, its creator has asked
  for it;
* `intact_throughout_iff`: they keep their owners exactly as long as no update is projected after the
  deletion;
* `lost_of_reach`: one without an owner never gets one back, and nobody can delete or purge it, unless
  its creation is projected again.
-/

namespace Axo.Projector

open Transition Ownership

/-! ### The use cases -/

inductive RequestError
  | notFound
  | notOwner
  | conflict
  deriving DecidableEq

/-- What a use case does when its checks are passed. -/
inductive Granted
  | append (event : DomainEvent)
  | purgeVirtualEnvironment (id : String)
  | purgeChoreography (id : String)

/-- `count_documents({"virtual_environment_id": …})` of the endpoints is not zero. -/
def hasEndpoints (endpoints : Collection (Option String) (Document String Value)) (id : String) :
    Bool :=
  endpoints.rows.any fun e => e.2 "virtual_environment_id" = some (.str id)

/-- `VirtualEnvironment.assert_owner` and `Choreography.assert_owner`. -/
def assertOwner (ownerUserId : Option String) (userId : String) : Except RequestError Unit :=
  if ownerUserId = some userId then .ok () else .error .notOwner

/-- The envelope of an event of the control plane. -/
def EventStamp.envelope (stamp : EventStamp) : EventEnvelope where
  eventId := stamp.eventId
  createdAt := stamp.createdAt

/-- `CreateVirtualEnvironmentUseCase.execute`. -/
def createVirtualEnvironment (stamp : EventStamp) (id name ownerUserId : String)
    (resourceQuota : ResourceQuota) : DomainEvent where
  envelope := stamp.envelope
  body := .virtualEnv id (.created name ownerUserId resourceQuota)

/-- `UpdateVirtualEnvironmentUseCase.execute`. -/
def updateVirtualEnvironment (s : ReadModel) (stamp : EventStamp) (id userId name : String)
    (resourceQuota : ResourceQuota) : Except RequestError Granted :=
  match VirtualEnvironment.get (s.virtualEnvironments.lookup id) with
  | none => .error .notFound
  | some virtualEnvironment => do
    assertOwner virtualEnvironment.ownerUserId userId
    return .append { envelope := stamp.envelope, body := .virtualEnv id (.updated name resourceQuota) }

/-- `DeleteVirtualEnvironmentUseCase.execute`. -/
def deleteVirtualEnvironment (s : ReadModel) (stamp : EventStamp) (id userId : String) :
    Except RequestError Granted :=
  match VirtualEnvironment.get (s.virtualEnvironments.lookup id) with
  | none => .error .notFound
  | some virtualEnvironment => do
    assertOwner virtualEnvironment.ownerUserId userId
    if hasEndpoints s.endpoints id then throw .conflict
    return .append { envelope := stamp.envelope, body := .virtualEnv id .deleted }

/-- `PurgeVirtualEnvironmentUseCase.execute`. -/
def purgeVirtualEnvironment (s : ReadModel) (id userId : String) : Except RequestError Granted :=
  match s.virtualEnvironments.lookup id with
  | none => .error .notFound
  | some doc => do
    assertOwner doc.ownerUserId userId
    if doc.deletedAt = none then throw .conflict
    return .purgeVirtualEnvironment id

/-- `CreateChoreographyUseCase.execute`. -/
def createChoreography (stamp : EventStamp) (id name ownerUserId : String) (graph : Value) :
    DomainEvent where
  envelope := stamp.envelope
  body := .choreography id (.created name ownerUserId graph)

/-- `UpdateChoreographyUseCase.execute`; `hasActiveRun` is what the run repository answers. -/
def updateChoreography (s : ReadModel) (stamp : EventStamp) (id userId name : String) (graph : Value)
    (hasActiveRun : Bool) : Except RequestError Granted :=
  match Choreography.get (s.choreographies.lookup id) with
  | none => .error .notFound
  | some choreography => do
    assertOwner choreography.ownerUserId userId
    if hasActiveRun then throw .conflict
    return .append { envelope := stamp.envelope, body := .choreography id (.updated name graph) }

/-- `DeleteChoreographyUseCase.execute`. -/
def deleteChoreography (s : ReadModel) (stamp : EventStamp) (id userId : String)
    (hasActiveRun : Bool) : Except RequestError Granted :=
  match Choreography.get (s.choreographies.lookup id) with
  | none => .error .notFound
  | some choreography => do
    assertOwner choreography.ownerUserId userId
    if hasActiveRun then throw .conflict
    return .append { envelope := stamp.envelope, body := .choreography id .deleted }

/-- `PurgeChoreographyUseCase.execute`. -/
def purgeChoreography (s : ReadModel) (id userId : String) : Except RequestError Granted :=
  match s.choreographies.lookup id with
  | none => .error .notFound
  | some doc => do
    assertOwner doc.ownerUserId userId
    if doc.deletedAt = none then throw .conflict
    return .purgeChoreography id

/-- A request about something that exists. -/
inductive OwnerRequest
  | updateVirtualEnvironment (id name : String) (resourceQuota : ResourceQuota)
  | deleteVirtualEnvironment (id : String)
  | purgeVirtualEnvironment (id : String)
  | updateChoreography (id name : String) (graph : Value) (hasActiveRun : Bool)
  | deleteChoreography (id : String) (hasActiveRun : Bool)
  | purgeChoreography (id : String)

/-- The use case of a request, up to its last check. -/
def OwnerRequest.execute (s : ReadModel) (stamp : EventStamp) (userId : String) :
    OwnerRequest → Except RequestError Granted
  | .updateVirtualEnvironment id name resourceQuota =>
    Projector.updateVirtualEnvironment s stamp id userId name resourceQuota
  | .deleteVirtualEnvironment id => Projector.deleteVirtualEnvironment s stamp id userId
  | .purgeVirtualEnvironment id => Projector.purgeVirtualEnvironment s id userId
  | .updateChoreography id name graph hasActiveRun =>
    Projector.updateChoreography s stamp id userId name graph hasActiveRun
  | .deleteChoreography id hasActiveRun =>
    Projector.deleteChoreography s stamp id userId hasActiveRun
  | .purgeChoreography id => Projector.purgeChoreography s id userId

/-! ### The system -/

/-- What is owned. -/
inductive OwnedKind
  | virtualEnvironment
  | choreography
  deriving DecidableEq

/-- What a request is about. -/
def OwnerRequest.key : OwnerRequest → OwnedKind × String
  | .updateVirtualEnvironment id _ _ | .deleteVirtualEnvironment id | .purgeVirtualEnvironment id =>
    (.virtualEnvironment, id)
  | .updateChoreography id _ _ _ | .deleteChoreography id _ | .purgeChoreography id =>
    (.choreography, id)

/-- The read model, what is granted but not done, what the event store holds that the projector has not
applied yet, what it has applied, and who has created what. -/
structure OwnerSystem where
  model : ReadModel := {}
  granted : List Granted := []
  pending : List DomainEvent := []
  applied : List DomainEvent := []
  creators : OwnedKind × String → Option String := fun _ => none

/-- What happens. -/
inductive OwnerAct
  | createVirtualEnvironment (stamp : EventStamp) (id name ownerUserId : String)
      (resourceQuota : ResourceQuota)
  | createChoreography (stamp : EventStamp) (id name ownerUserId : String) (graph : Value)
  | request (stamp : EventStamp) (userId : String) (request : OwnerRequest)
  /-- what was granted is done -/
  | perform (k : ℕ)
  | project (stamp : EventStamp)
  /-- the projector has connected again from an older checkpoint and comes to an event again -/
  | projectAgain (stamp : EventStamp) (k : ℕ)
  /-- an event about anything else comes in -/
  | publish (event : DomainEvent)

/-- What an event changes of something owned. -/
def DomainEvent.ownedChange? (event : DomainEvent) :
    Option ((OwnedKind × String) × Change String) :=
  match event.body with
  | .virtualEnv id (.created _ ownerUserId _) => some ((.virtualEnvironment, id), .create ownerUserId)
  | .virtualEnv id (.updated _ _) => some ((.virtualEnvironment, id), .update)
  | .virtualEnv id .deleted => some ((.virtualEnvironment, id), .delete)
  | .choreography id (.created _ ownerUserId _) => some ((.choreography, id), .create ownerUserId)
  | .choreography id (.updated _ _) => some ((.choreography, id), .update)
  | .choreography id .deleted => some ((.choreography, id), .delete)
  | _ => none

namespace OwnerSystem

/-- What was granted is done: the last writes of the use cases. -/
def perform (s : OwnerSystem) (rest : List Granted) : Granted → OwnerSystem
  | .append event => { s with granted := rest, pending := s.pending ++ [event] }
  | .purgeVirtualEnvironment id =>
    { s with
      granted := rest
      model :=
        { s.model with
          virtualEnvironments := s.model.virtualEnvironments.erase id
          unifiedActivity := (purge s.model.unifiedActivity { virtualEnvironmentId := some id }).1 } }
  | .purgeChoreography id =>
    { s with
      granted := rest
      model :=
        { s.model with
          choreographies := s.model.choreographies.erase id
          unifiedActivity := (purge s.model.unifiedActivity { choreographyId := some id }).1 } }

/-- Something is created, under an id that was never given before. -/
def create (s : OwnerSystem) (key : OwnedKind × String) (ownerUserId : String)
    (event : DomainEvent) : Option OwnerSystem :=
  if s.creators key = none then
    some
      { s with
        pending := s.pending ++ [event]
        creators := Function.update s.creators key (some ownerUserId) }
  else none

/-- One step. -/
def step (publishes : Bool) (s : OwnerSystem) : OwnerAct → Option OwnerSystem
  | .createVirtualEnvironment stamp id name ownerUserId resourceQuota =>
    s.create (.virtualEnvironment, id) ownerUserId
      (createVirtualEnvironment stamp id name ownerUserId resourceQuota)
  | .createChoreography stamp id name ownerUserId graph =>
    s.create (.choreography, id) ownerUserId (createChoreography stamp id name ownerUserId graph)
  | .request stamp userId request =>
    match request.execute s.model stamp userId with
    | .ok granted => some { s with granted := s.granted ++ [granted] }
    | .error _ => some s
  | .perform k => (s.granted[k]?).map fun granted => s.perform (s.granted.eraseIdx k) granted
  | .project stamp =>
    match s.pending with
    | [] => none
    | event :: pending =>
      let result := applyEvent publishes stamp s.model event
      some
        { s with
          model := result.1
          pending := pending ++ result.2
          applied := s.applied ++ [event] }
  | .projectAgain stamp k =>
    (s.applied[k]?).map fun event =>
      let result := applyEvent publishes stamp s.model event
      { s with model := result.1, pending := s.pending ++ result.2 }
  | .publish event =>
    if event.ownedChange? = none then some { s with pending := s.pending ++ [event] } else none

end OwnerSystem

/-! ### The owned records of the read model -/

/-- What there is to know of a workspace. -/
def VirtualEnvironment.owned (doc : VirtualEnvironment) : Owned String where
  owner := doc.ownerUserId
  deleted := doc.deletedAt.isSome

/-- What there is to know of a choreography. -/
def Choreography.owned (doc : Choreography) : Owned String where
  owner := doc.ownerUserId
  deleted := doc.deletedAt.isSome

/-- The workspaces and choreographies of the read model. -/
def owned (s : ReadModel) : OwnedKind × String → Option (Owned String)
  | (.virtualEnvironment, id) => (s.virtualEnvironments.lookup id).map VirtualEnvironment.owned
  | (.choreography, id) => (s.choreographies.lookup id).map Choreography.owned

section Records

variable {publishes : Bool} {stamp : EventStamp} {s : ReadModel} {event : DomainEvent}
  {id userId : String} {key : OwnedKind × String}

theorem visible_virtualEnvironment (doc : Option VirtualEnvironment) :
    visible (doc.map VirtualEnvironment.owned) =
      (VirtualEnvironment.get doc).map VirtualEnvironment.owned := by
  cases doc with
  | none => rfl
  | some doc =>
    unfold visible VirtualEnvironment.get VirtualEnvironment.owned
    cases hdeleted : doc.deletedAt <;> simp [Option.filter, hdeleted]

theorem visible_choreography (doc : Option Choreography) :
    visible (doc.map Choreography.owned) = (Choreography.get doc).map Choreography.owned := by
  cases doc with
  | none => rfl
  | some doc =>
    unfold visible Choreography.get Choreography.owned
    cases hdeleted : doc.deletedAt <;> simp [Option.filter, hdeleted]

/-- What `save` keeps of the document that was there. -/
theorem owned_saveVirtualEnvironment (id name : String) (owner : Option String)
    (capacity : ResourceQuota) (doc : Option VirtualEnvironment) :
    (VirtualEnvironment.save id name owner capacity doc).owned =
      ⟨owner, (doc.map VirtualEnvironment.owned).any Owned.deleted⟩ := by
  cases doc <;> rfl

theorem owned_saveChoreography (id name : String) (owner : Option String) (graph : Value)
    (createdAt updatedAt : String) (doc : Option Choreography) :
    (Choreography.save id name owner graph createdAt updatedAt doc).owned =
      ⟨owner, (doc.map Choreography.owned).any Owned.deleted⟩ := by
  cases doc <;> rfl

/-- `workspace_handler.apply` on one workspace. -/
theorem lookup_workspaceHandler (docs : Collection String VirtualEnvironment)
    (envelope : EventEnvelope) (id j : String) (payload : VirtualEnvPayload) :
    ((workspaceHandler docs envelope id payload).lookup j).map VirtualEnvironment.owned =
      match DomainEvent.ownedChange? ⟨envelope, .virtualEnv id payload⟩ with
      | some (_, change) =>
        if j = id then change.apply ((docs.lookup j).map VirtualEnvironment.owned)
        else (docs.lookup j).map VirtualEnvironment.owned
      | none => (docs.lookup j).map VirtualEnvironment.owned := by
  cases payload with
  | created name ownerUserId resourceQuota =>
    dsimp only [workspaceHandler, DomainEvent.ownedChange?]
    split_ifs with hj
    · rw [hj, Collection.lookup_upsert, Option.map_some, owned_saveVirtualEnvironment]
      rfl
    · rw [Collection.lookup_upsert_ne hj]
  | updated name resourceQuota =>
    dsimp only [workspaceHandler, DomainEvent.ownedChange?]
    split_ifs with hj
    · rw [hj, Collection.lookup_upsert, Option.map_some, owned_saveVirtualEnvironment]
      unfold Change.apply
      dsimp only
      rw [visible_virtualEnvironment, Option.bind_map]
      rfl
    · rw [Collection.lookup_upsert_ne hj]
  | deleted =>
    dsimp only [workspaceHandler, DomainEvent.ownedChange?]
    split_ifs with hj
    · rw [hj, Collection.lookup_updateOne]
      cases docs.lookup id <;> rfl
    · rw [Collection.lookup_updateOne_ne hj]
  | leaderChanged leaderEndpointId => rfl

/-- `choreography_handler.apply` on one choreography. -/
theorem lookup_choreographyHandler (docs : Collection String Choreography)
    (envelope : EventEnvelope) (id j : String) (payload : ChoreographyPayload) :
    ((choreographyHandler docs envelope id payload).lookup j).map Choreography.owned =
      match DomainEvent.ownedChange? ⟨envelope, .choreography id payload⟩ with
      | some (_, change) =>
        if j = id then change.apply ((docs.lookup j).map Choreography.owned)
        else (docs.lookup j).map Choreography.owned
      | none => (docs.lookup j).map Choreography.owned := by
  cases payload with
  | created name ownerUserId graph =>
    dsimp only [choreographyHandler, DomainEvent.ownedChange?]
    split_ifs with hj
    · rw [hj, Collection.lookup_upsert, Option.map_some, owned_saveChoreography]
      rfl
    · rw [Collection.lookup_upsert_ne hj]
  | updated name graph =>
    dsimp only [choreographyHandler, DomainEvent.ownedChange?]
    split_ifs with hj
    · rw [hj, Collection.lookup_upsert, Option.map_some, owned_saveChoreography]
      unfold Change.apply
      dsimp only
      rw [visible_choreography, Option.bind_map]
      rfl
    · rw [Collection.lookup_upsert_ne hj]
  | deleted =>
    dsimp only [choreographyHandler, DomainEvent.ownedChange?]
    split_ifs with hj
    · rw [hj, Collection.lookup_updateOne]
      cases docs.lookup id <;> rfl
    · rw [Collection.lookup_updateOne_ne hj]

theorem owned_setLeader (leaderEndpointId : String) (doc : VirtualEnvironment) :
    (doc.setLeader leaderEndpointId).owned = doc.owned := by
  unfold VirtualEnvironment.setLeader
  split_ifs <;> rfl

/-- A change of leader is none of owners. -/
theorem lookup_applyLeaderChange (endpoints : Collection (Option String) (Document String Value))
    (docs : Collection String VirtualEnvironment) (leaderIds : List String) (j : String) :
    ((applyLeaderChange publishes stamp endpoints docs leaderIds).1.lookup j).map
      VirtualEnvironment.owned = (docs.lookup j).map VirtualEnvironment.owned := by
  unfold applyLeaderChange
  split
  · rfl
  · rw [Collection.lookup_updateMany, Option.map_map]
    rfl
  · rename_i leaderEndpointId virtualEnvironmentId hleader
    by_cases hj : j = virtualEnvironmentId
    · rw [hj, Collection.lookup_updateOne, Collection.lookup_updateMany, Option.map_map,
        Option.map_map]
      cases docs.lookup virtualEnvironmentId with
      | none => rfl
      | some doc => exact congrArg some (owned_setLeader leaderEndpointId doc.clearLeader)
    · rw [Collection.lookup_updateOne_ne hj, Collection.lookup_updateMany, Option.map_map]
      rfl

/-- What an event does to what is owned. -/
theorem owned_applyEvent : owned (applyEvent publishes stamp s event).1 =
    match event.ownedChange? with
    | some (key, change) => Function.update (owned s) key (change.apply (owned s key))
    | none => owned s := by
  obtain ⟨envelope, body⟩ := event
  funext ⟨kind, j⟩
  cases body with
  | virtualEnv id payload =>
    have hlookup := lookup_workspaceHandler s.virtualEnvironments envelope id j payload
    cases kind with
    | virtualEnvironment =>
      refine Eq.trans hlookup ?_
      cases payload with
      | leaderChanged leaderEndpointId => rfl
      | _ =>
        dsimp only [DomainEvent.ownedChange?]
        by_cases hj : j = id
        · rw [hj, if_pos rfl, Function.update_self]
          rfl
        · rw [if_neg hj, Function.update_of_ne (by simp [hj])]
          rfl
    | choreography =>
      cases payload with
      | leaderChanged leaderEndpointId => rfl
      | _ => exact (Function.update_of_ne (by simp) ..).symm
  | choreography id payload =>
    have hlookup := lookup_choreographyHandler s.choreographies envelope id j payload
    cases kind with
    | virtualEnvironment => cases payload <;> exact (Function.update_of_ne (by simp) ..).symm
    | choreography =>
      refine Eq.trans hlookup ?_
      cases payload
      all_goals
        dsimp only [DomainEvent.ownedChange?]
        by_cases hj : j = id
        · rw [hj, if_pos rfl, Function.update_self]
          rfl
        · rw [if_neg hj, Function.update_of_ne (by simp [hj])]
          rfl
  | consensus term payload =>
    dsimp only [applyEvent, handle, applyConsensus, DomainEvent.ownedChange?]
    cases payload.leaderIds? with
    | none => cases kind <;> rfl
    | some leaderIds =>
      cases kind with
      | virtualEnvironment => exact lookup_applyLeaderChange ..
      | choreography => rfl
  | data name payload => cases kind <;> cases payload <;> rfl
  | _ => cases kind <;> rfl

/-! ### What is granted -/

/-- What is granted, as a deed. -/
def Granted.deed? : Granted → Option ((OwnedKind × String) × Deed String)
  | .append event => event.ownedChange?.map fun change => (change.1, .change change.2)
  | .purgeVirtualEnvironment id => some ((.virtualEnvironment, id), .purge)
  | .purgeChoreography id => some ((.choreography, id), .purge)

theorem assertOwner_bind_eq_ok {owner : Option String} {next : Unit → Except RequestError Granted}
    {granted : Granted} : (assertOwner owner userId >>= next) = .ok granted ↔
      owner = some userId ∧ next () = .ok granted := by
  unfold assertOwner
  split_ifs with howner
  · exact (and_iff_right howner).symm
  · exact iff_of_false (fun h => by cases h) fun h => howner h.1

theorem unless_eq_ok {condition : Prop} [Decidable condition] {result granted : Granted} :
    (if condition then throw .conflict else pure result : Except RequestError Granted) =
      .ok granted ↔ ¬ condition ∧ result = granted := by
  split_ifs with h
  · exact iff_of_false (fun heq => by cases heq) fun hboth => hboth.1 h
  · rw [and_iff_right h]
    exact ⟨Except.ok.inj, congrArg _⟩

/-- A use case that passes its checks is allowed what it does. -/
theorem allowed_of_execute {request : OwnerRequest} {granted : Granted}
    (h : request.execute s stamp userId = .ok granted) :
    ∃ deed, granted.deed? = some (request.key, deed) ∧
      deed.Allowed (owned s request.key) userId := by
  cases request with
  | updateVirtualEnvironment id name resourceQuota =>
    dsimp only [OwnerRequest.execute, updateVirtualEnvironment] at h
    split at h
    · cases h
    · rename_i doc hget
      obtain ⟨howner, hgranted⟩ := assertOwner_bind_eq_ok.1 h
      cases hgranted
      refine ⟨.change .update, rfl, doc.owned, ?_, howner⟩
      show visible ((s.virtualEnvironments.lookup id).map VirtualEnvironment.owned) = _
      rw [visible_virtualEnvironment, hget, Option.map_some]
  | deleteVirtualEnvironment id =>
    dsimp only [OwnerRequest.execute, deleteVirtualEnvironment] at h
    split at h
    · cases h
    · rename_i doc hget
      obtain ⟨howner, hgranted⟩ := assertOwner_bind_eq_ok.1 h
      obtain ⟨-, rfl⟩ := unless_eq_ok.1 hgranted
      refine ⟨.change .delete, rfl, doc.owned, ?_, howner⟩
      show visible ((s.virtualEnvironments.lookup id).map VirtualEnvironment.owned) = _
      rw [visible_virtualEnvironment, hget, Option.map_some]
  | purgeVirtualEnvironment id =>
    dsimp only [OwnerRequest.execute, purgeVirtualEnvironment] at h
    split at h
    · cases h
    · rename_i doc hlookup
      obtain ⟨howner, hgranted⟩ := assertOwner_bind_eq_ok.1 h
      obtain ⟨hdeleted, rfl⟩ := unless_eq_ok.1 hgranted
      refine ⟨.purge, rfl, doc.owned, ?_, Option.isSome_iff_ne_none.2 hdeleted, howner⟩
      show (s.virtualEnvironments.lookup id).map VirtualEnvironment.owned = _
      rw [hlookup, Option.map_some]
  | updateChoreography id name graph hasActiveRun =>
    dsimp only [OwnerRequest.execute, updateChoreography] at h
    split at h
    · cases h
    · rename_i doc hget
      obtain ⟨howner, hgranted⟩ := assertOwner_bind_eq_ok.1 h
      obtain ⟨-, rfl⟩ := unless_eq_ok.1 hgranted
      refine ⟨.change .update, rfl, doc.owned, ?_, howner⟩
      show visible ((s.choreographies.lookup id).map Choreography.owned) = _
      rw [visible_choreography, hget, Option.map_some]
  | deleteChoreography id hasActiveRun =>
    dsimp only [OwnerRequest.execute, deleteChoreography] at h
    split at h
    · cases h
    · rename_i doc hget
      obtain ⟨howner, hgranted⟩ := assertOwner_bind_eq_ok.1 h
      obtain ⟨-, rfl⟩ := unless_eq_ok.1 hgranted
      refine ⟨.change .delete, rfl, doc.owned, ?_, howner⟩
      show visible ((s.choreographies.lookup id).map Choreography.owned) = _
      rw [visible_choreography, hget, Option.map_some]
  | purgeChoreography id =>
    dsimp only [OwnerRequest.execute, purgeChoreography] at h
    split at h
    · cases h
    · rename_i doc hlookup
      obtain ⟨howner, hgranted⟩ := assertOwner_bind_eq_ok.1 h
      obtain ⟨hdeleted, rfl⟩ := unless_eq_ok.1 hgranted
      refine ⟨.purge, rfl, doc.owned, ?_, Option.isSome_iff_ne_none.2 hdeleted, howner⟩
      show (s.choreographies.lookup id).map Choreography.owned = _
      rw [hlookup, Option.map_some]

end Records

/-! ### Owned records behind a log -/

namespace OwnerSystem

variable {publishes : Bool} {s t : OwnerSystem} {act : OwnerAct} {key : OwnedKind × String}

/-- The system, as far as it is about owners. -/
def shared (s : OwnerSystem) : Shared (OwnedKind × String) String where
  records := owned s.model
  granted := s.granted.filterMap Granted.deed?
  log := s.pending.filterMap DomainEvent.ownedChange?
  taken := s.applied.filterMap DomainEvent.ownedChange?
  creator := s.creators

/-- No update is projected for what is deleted or gone. -/
def timely (s : OwnerSystem) : OwnerAct → Bool
  | .project _ =>
    match s.pending.head?.bind DomainEvent.ownedChange? with
    | some (key, .update) => (visible (owned s.model key)).isSome
    | _ => true
  | .projectAgain _ k =>
    match (s.applied[k]?).bind DomainEvent.ownedChange? with
    | some (key, .update) => (visible (owned s.model key)).isSome
    | _ => true
  | _ => true

theorem ownedChange?_appended {stamp : EventStamp} {model : ReadModel} {event appended : DomainEvent}
    (h : appended ∈ (applyEvent publishes stamp model event).2) : appended.ownedChange? = none := by
  rw [applyEvent_appended] at h
  split_ifs at h
  · obtain ⟨leader, -, rfl⟩ := List.mem_map.1 h
    rfl
  · cases h

theorem shared_create {event : DomainEvent} {ownerUserId : String}
    (hchange : event.ownedChange? = some (key, .create ownerUserId))
    (h : s.create key ownerUserId event = some t) :
    (shared s).Step (.create key ownerUserId) (shared t) := by
  unfold create at h
  split_ifs at h with hnew
  cases h
  have hlog : (s.pending ++ [event]).filterMap DomainEvent.ownedChange? =
      s.pending.filterMap DomainEvent.ownedChange? ++ [(key, .create ownerUserId)] := by
    rw [List.filterMap_append, List.filterMap_cons_some hchange, List.filterMap_nil]
  unfold shared
  rw [hlog]
  exact .create hnew

theorem owned_eraseVirtualEnvironment (model : ReadModel) (id : String)
    (rows : Collection String ActivityRow) :
    owned { model with
        virtualEnvironments := model.virtualEnvironments.erase id
        unifiedActivity := rows } =
      Function.update (owned model) (.virtualEnvironment, id) none := by
  funext ⟨kind, j⟩
  cases kind with
  | virtualEnvironment =>
    by_cases hj : j = id
    · rw [hj, Function.update_self]
      show ((model.virtualEnvironments.erase id).lookup id).map VirtualEnvironment.owned = none
      rw [AList.lookup_erase, Option.map_none]
    · rw [Function.update_of_ne (by simp [hj])]
      show ((model.virtualEnvironments.erase id).lookup j).map VirtualEnvironment.owned = _
      rw [AList.lookup_erase_ne hj]
      rfl
  | choreography =>
    rw [Function.update_of_ne (by simp)]
    rfl

theorem owned_eraseChoreography (model : ReadModel) (id : String)
    (rows : Collection String ActivityRow) :
    owned { model with
        choreographies := model.choreographies.erase id
        unifiedActivity := rows } =
      Function.update (owned model) (.choreography, id) none := by
  funext ⟨kind, j⟩
  cases kind with
  | virtualEnvironment =>
    rw [Function.update_of_ne (by simp)]
    rfl
  | choreography =>
    by_cases hj : j = id
    · rw [hj, Function.update_self]
      show ((model.choreographies.erase id).lookup id).map Choreography.owned = none
      rw [AList.lookup_erase, Option.map_none]
    · rw [Function.update_of_ne (by simp [hj])]
      show ((model.choreographies.erase id).lookup j).map Choreography.owned = _
      rw [AList.lookup_erase_ne hj]
      rfl

theorem shared_perform {granted : Granted} {before after : List Granted}
    (hgranted : s.granted = before ++ granted :: after) :
    shared (s.perform (before ++ after) granted) = shared s ∨
      (shared s).Step .perform (shared (s.perform (before ++ after) granted)) := by
  have hdeed : ∀ deed, granted.deed? = some deed → (shared s).granted =
      before.filterMap Granted.deed? ++ deed :: after.filterMap Granted.deed? := by
    intro deed hsome
    unfold shared
    rw [hgranted, List.filterMap_append, List.filterMap_cons_some hsome]
  cases granted with
  | append event =>
    cases hchange : event.ownedChange? with
    | none =>
      have hnone : (Granted.append event).deed? = none := by
        unfold Granted.deed?
        dsimp only
        rw [hchange]
        rfl
      left
      unfold shared perform
      dsimp only
      rw [hgranted, List.filterMap_append, List.filterMap_append, List.filterMap_append,
        List.filterMap_cons_none hnone, List.filterMap_cons_none hchange, List.filterMap_nil,
        List.append_nil]
    | some change =>
      right
      have hsome : (Granted.append event).deed? = some (change.1, .change change.2) := by
        unfold Granted.deed?
        dsimp only
        rw [hchange]
        rfl
      have hstep := Shared.Step.perform (hdeed _ hsome)
      have hafter : shared (s.perform (before ++ after) (.append event)) = (shared s).perform
          (before.filterMap Granted.deed? ++ after.filterMap Granted.deed?) change.1
          (.change change.2) := by
        unfold shared perform Shared.perform
        dsimp only
        rw [List.filterMap_append, List.filterMap_append, List.filterMap_cons_some hchange,
          List.filterMap_nil]
      rw [hafter]
      exact hstep
  | purgeVirtualEnvironment id =>
    right
    have hstep := Shared.Step.perform (hdeed _ rfl)
    have hafter : shared (s.perform (before ++ after) (.purgeVirtualEnvironment id)) =
        (shared s).perform (before.filterMap Granted.deed? ++ after.filterMap Granted.deed?)
          (.virtualEnvironment, id) .purge := by
      unfold shared perform Shared.perform
      dsimp only
      rw [owned_eraseVirtualEnvironment, List.filterMap_append]
    rw [hafter]
    exact hstep
  | purgeChoreography id =>
    right
    have hstep := Shared.Step.perform (hdeed _ rfl)
    have hafter : shared (s.perform (before ++ after) (.purgeChoreography id)) =
        (shared s).perform (before.filterMap Granted.deed? ++ after.filterMap Granted.deed?)
          (.choreography, id) .purge := by
      unfold shared perform Shared.perform
      dsimp only
      rw [owned_eraseChoreography, List.filterMap_append]
    rw [hafter]
    exact hstep

/-- What the projector appends is about nothing that is owned. -/
theorem filterMap_appended {stamp : EventStamp} {model : ReadModel} {event : DomainEvent}
    (log : List DomainEvent) :
    (log ++ (applyEvent publishes stamp model event).2).filterMap DomainEvent.ownedChange? =
      log.filterMap DomainEvent.ownedChange? := by
  have hnothing : (applyEvent publishes stamp model event).2.filterMap
      DomainEvent.ownedChange? = [] :=
    List.filterMap_eq_nil_iff.2 fun appended happended => ownedChange?_appended happended
  rw [List.filterMap_append, hnothing, List.append_nil]

theorem shared_project {stamp : EventStamp} (h : step publishes s (.project stamp) = some t) :
    (shared t = shared s ∧ s.timely (.project stamp) = true) ∨
      ((shared s).Step .take (shared t) ∧
        (s.timely (.project stamp) = true ↔ (shared s).Timely .take)) := by
  unfold step at h
  dsimp only at h
  split at h
  · cases h
  · rename_i event pending hpending
    cases h
    cases hchange : event.ownedChange? with
    | none =>
      left
      refine ⟨?_, ?_⟩
      · unfold shared
        dsimp only
        rw [filterMap_appended, owned_applyEvent, hchange, hpending,
          List.filterMap_cons_none hchange, List.filterMap_append,
          List.filterMap_cons_none hchange, List.filterMap_nil, List.append_nil]
      · unfold timely
        dsimp only
        rw [hpending, List.head?_cons, Option.bind_some, hchange]
    | some change =>
      obtain ⟨key, change⟩ := change
      have hhead : (shared s).log =
          (key, change) :: pending.filterMap DomainEvent.ownedChange? := by
        unfold shared
        rw [hpending, List.filterMap_cons_some hchange]
      refine .inr ⟨?_, ?_⟩
      · have hstep := Shared.Step.take hhead
        unfold shared at hstep ⊢
        dsimp only
        rw [filterMap_appended, owned_applyEvent, hchange, List.filterMap_append,
          List.filterMap_cons_some hchange, List.filterMap_nil]
        exact hstep
      · unfold timely Shared.Timely
        dsimp only
        rw [hpending, List.head?_cons, Option.bind_some, hchange, hhead]
        cases change with
        | update =>
          dsimp only
          rw [Option.isSome_iff_ne_none]
          constructor
          · rintro hvisible id log ⟨⟩
            exact hvisible
          · exact fun hall => hall _ _ rfl
        | _ => exact iff_of_true rfl fun id log heq => by cases heq

theorem shared_projectAgain {stamp : EventStamp} {k : ℕ}
    (h : step publishes s (.projectAgain stamp k) = some t) :
    (shared t = shared s ∧ s.timely (.projectAgain stamp k) = true) ∨
      ∃ key change, (shared s).Step (.retake key change) (shared t) ∧
        (s.timely (.projectAgain stamp k) = true ↔ (shared s).Timely (.retake key change)) ∧
        ((s.applied[k]?).bind DomainEvent.ownedChange? = some (key, change)) := by
  obtain ⟨event, hk, rfl⟩ := Option.map_eq_some_iff.1 h
  dsimp only
  unfold timely
  dsimp only
  rw [hk, Option.bind_some]
  cases hchange : event.ownedChange? with
  | none =>
    refine .inl ⟨?_, rfl⟩
    unfold shared
    dsimp only
    rw [filterMap_appended, owned_applyEvent, hchange]
  | some change =>
    obtain ⟨key, change⟩ := change
    have htaken : (key, change) ∈ (shared s).taken :=
      List.mem_filterMap.2 ⟨event, List.mem_of_getElem? hk, hchange⟩
    refine .inr ⟨key, change, ?_, ?_, rfl⟩
    · have hstep := Shared.Step.retake htaken
      unfold shared at hstep ⊢
      dsimp only
      rw [filterMap_appended, owned_applyEvent, hchange]
      exact hstep
    · cases change with
      | update => exact Option.isSome_iff_ne_none
      | _ => exact iff_of_true rfl trivial

/-- The creation of `key` is not projected again. -/
def NotRecreated (key : OwnedKind × String) (s : OwnerSystem) (act : OwnerAct) : Prop :=
  ∀ stamp k ownerUserId, act = .projectAgain stamp k →
    (s.applied[k]?).bind DomainEvent.ownedChange? ≠ some (key, .create ownerUserId)

/-- Each step is one of owned records behind a log, or none. -/
theorem step_shared (h : step publishes s act = some t) :
    (shared t = shared s ∧ s.timely act = true) ∨
      ∃ sharedAct, (shared s).Step sharedAct (shared t) ∧
        (s.timely act = true ↔ (shared s).Timely sharedAct) ∧
        ∀ key, NotRecreated key s act → sharedAct.NotRecreated key := by
  cases act with
  | createVirtualEnvironment stamp id name ownerUserId resourceQuota =>
    exact .inr ⟨_, shared_create rfl h, iff_of_true rfl trivial, fun _ _ => trivial⟩
  | createChoreography stamp id name ownerUserId graph =>
    exact .inr ⟨_, shared_create rfl h, iff_of_true rfl trivial, fun _ _ => trivial⟩
  | request stamp userId request =>
    unfold step at h
    dsimp only at h
    split at h
    · rename_i granted hexecute
      cases h
      obtain ⟨deed, hdeed, hallowed⟩ := allowed_of_execute hexecute
      have hlist : (s.granted ++ [granted]).filterMap Granted.deed? =
          s.granted.filterMap Granted.deed? ++ [(request.key, deed)] := by
        rw [List.filterMap_append, List.filterMap_cons_some hdeed, List.filterMap_nil]
      refine .inr ⟨.ask request.key userId deed, ?_, iff_of_true rfl trivial, fun _ _ => trivial⟩
      unfold shared
      rw [hlist]
      exact .ask hallowed
    · cases h
      exact .inl ⟨rfl, rfl⟩
  | perform k =>
    obtain ⟨granted, hk, rfl⟩ := Option.map_eq_some_iff.1 h
    obtain ⟨hlt, hget⟩ := List.getElem?_eq_some_iff.1 hk
    have hsplit : s.granted = s.granted.take k ++ granted :: s.granted.drop (k + 1) := by
      rw [← hget, List.cons_getElem_drop_succ, List.take_append_drop]
    have hrest : s.granted.eraseIdx k = s.granted.take k ++ s.granted.drop (k + 1) :=
      List.eraseIdx_eq_take_drop_succ ..
    rw [hrest]
    rcases shared_perform hsplit with hsame | hstep
    · exact .inl ⟨hsame, rfl⟩
    · exact .inr ⟨_, hstep, iff_of_true rfl trivial, fun _ _ => trivial⟩
  | project stamp =>
    exact (shared_project h).imp_right fun ⟨hstep, htimely⟩ =>
      ⟨_, hstep, htimely, fun _ _ => trivial⟩
  | projectAgain stamp k =>
    rcases shared_projectAgain h with hsame | ⟨j, change, hstep, htimely, hchange⟩
    · exact .inl hsame
    · refine .inr ⟨_, hstep, htimely, fun key hnot => ?_⟩
      cases change with
      | create ownerUserId =>
        rintro rfl
        exact hnot stamp k ownerUserId rfl hchange
      | _ => trivial
  | publish event =>
    unfold step at h
    dsimp only at h
    split_ifs at h with hchange
    cases h
    left
    refine ⟨?_, rfl⟩
    unfold shared
    dsimp only
    rw [List.filterMap_append, List.filterMap_cons_none hchange, List.filterMap_nil,
      List.append_nil]

/-! ### Whose they are -/

theorem sound_step (h : (shared s).Sound) (hstep : step publishes s act = some t) :
    (shared t).Sound := by
  rcases step_shared hstep with ⟨hsame, -⟩ | ⟨sharedAct, hshared, -⟩
  · rw [hsame]
    exact h
  · exact h.step hshared

theorem sound_of_reach (h : Reach (step publishes) Always {} s) : (shared s).Sound := by
  refine h.invariant (I := fun s => (shared s).Sound) ?_ fun _ _ _ hs _ hstep => sound_step hs hstep
  have hinit : shared {} = Shared.init := by
    have hnone : owned {} = fun _ => none := by
      funext ⟨kind, id⟩
      cases kind <;> rfl
    unfold shared Shared.init
    rw [hnone]
    rfl
  rw [hinit]
  exact Shared.sound_init

/-- Whatever users, the projector and the endpoints do, in any order: a workspace or a choreography
belongs to who has created it, or to nobody, and a request to update, delete or purge it passes its
checks only for who has created it. -/
theorem creator_of_execute (h : Reach (step publishes) Always {} s) :
    (∀ key r, owned s.model key = some r → r.owner = none ∨ r.owner = s.creators key) ∧
      ∀ (request : OwnerRequest) (stamp : EventStamp) (userId : String) (granted : Granted),
        request.execute s.model stamp userId = .ok granted →
          s.creators request.key = some userId := by
  have hsound := sound_of_reach h
  refine ⟨hsound.owner, fun request stamp userId granted hexecute => ?_⟩
  obtain ⟨deed, -, hallowed⟩ := allowed_of_execute hexecute
  exact hsound.creator_of_ask (.ask hallowed)

/-- Every workspace and every choreography has its owner. -/
def Intact (s : OwnerSystem) : Prop :=
  ∀ key r, owned s.model key = some r → r.owner = s.creators key

theorem intact_iff_of_step (hsound : (shared s).Sound) (h : s.Intact)
    (hstep : step publishes s act = some t) : t.Intact ↔ s.timely act = true := by
  rcases step_shared hstep with ⟨hsame, htimely⟩ | ⟨sharedAct, hshared, htimely, -⟩
  · refine iff_of_true ?_ htimely
    show (shared t).Intact
    rw [hsame]
    exact h
  · rw [htimely]
    exact Shared.intact_iff_of_step hsound h hshared

/-- In any run, every workspace and every choreography has its owner throughout exactly when no update
is projected, for the first time or again, for one that is deleted or purged by then. -/
theorem intact_throughout_iff {acts : List OwnerAct} (hrun : run (step publishes) {} acts = some t) :
    Throughout (step publishes) Intact {} acts ↔
      EachStep (step publishes) (fun s act => s.timely act = true) {} acts := by
  have hempty : Intact {} := by
    rintro ⟨kind, id⟩ r hr
    cases kind <;> cases hr
  refine throughout_iff_eachStep (I := fun s => (shared s).Sound ∧ s.Intact) (fun s h => h.2)
    ?_ ?_ ⟨sound_of_reach (.refl : Reach (step publishes) Always {} {}), hempty⟩ hrun
  · exact fun s act t h htimely hstep =>
      ⟨sound_step h.1 hstep, (intact_iff_of_step h.1 h.2 hstep).2 htimely⟩
  · exact fun s act t h hstep hintact => (intact_iff_of_step h.1 h.2 hstep).1 hintact

/-- What has lost its owner does not get one back as long as its creation is not projected again:
nobody can update, delete or purge it any more, and it stays, unless its purge had already passed its
checks. -/
theorem lost_of_reach {r : Owned String} (hs : Reach (step publishes) Always {} s)
    (hr : owned s.model key = some r) (howner : r.owner = none)
    (hrun : Reach (step publishes) (NotRecreated key) s t) :
    (∀ r', owned t.model key = some r' → r'.owner = none) ∧
      (∀ (request : OwnerRequest) (stamp : EventStamp) (userId : String) (granted : Granted),
        request.key = key → request.execute t.model stamp userId ≠ .ok granted) ∧
      ((∀ granted ∈ s.granted, granted.deed? ≠ some (key, .purge)) → owned t.model key ≠ none) := by
  have hsound := sound_of_reach hs
  have hlost : (shared t).Sound ∧ (shared t).Lost key ∧
      ((∀ granted ∈ s.granted, granted.deed? ≠ some (key, .purge)) →
        owned t.model key ≠ none ∧ (key, Deed.purge) ∉ (shared t).granted) := by
    refine hrun.invariant (I := fun t => (shared t).Sound ∧ (shared t).Lost key ∧
      ((∀ granted ∈ s.granted, granted.deed? ≠ some (key, .purge)) →
        owned t.model key ≠ none ∧ (key, Deed.purge) ∉ (shared t).granted))
      ⟨hsound, Shared.lost_of_owner hsound hr howner, fun hnone => ⟨?_, fun hmem => ?_⟩⟩ ?_
    · rw [hr]
      exact Option.some_ne_none r
    · obtain ⟨granted, hgranted, hdeed⟩ := List.mem_filterMap.1 hmem
      exact hnone granted hgranted hdeed
    · rintro u act v ⟨hu, hlostu, hstays⟩ hnot hstep
      rcases step_shared hstep with ⟨hsame, -⟩ | ⟨sharedAct, hshared, -, hkept⟩
      · rw [hsame]
        refine ⟨hu, hlostu, fun hnone => ?_⟩
        have hrecords : owned v.model = owned u.model := congrArg Shared.records hsame
        rw [hrecords]
        exact hstays hnone
      · exact ⟨hu.step hshared, hlostu.step hu hshared (hkept key hnot), fun hnone =>
          hlostu.record_step hshared (hstays hnone).1 (hstays hnone).2⟩
  refine ⟨hlost.2.1.owner, ?_, fun hnone => (hlost.2.2 hnone).1⟩
  rintro request stamp userId granted rfl hexecute
  obtain ⟨deed, -, hallowed⟩ := allowed_of_execute hexecute
  exact hlost.2.1.not_allowed hallowed

/-! ### A workspace -/

def projected : OwnerAct := .project ⟨"e", "2024-01-01T00:00:00Z"⟩

def requested (userId : String) (request : OwnerRequest) : OwnerAct :=
  .request ⟨"e", "2024-01-01T00:00:00Z"⟩ userId request

/-- The owner renames a workspace, and another user tries to. -/
def renamed : List OwnerAct :=
  [.createVirtualEnvironment ⟨"e", "2024-01-01T00:00:00Z"⟩ "v" "lab" "u1" ⟨"1.0", 1, 1⟩, projected,
    requested "u1" (.updateVirtualEnvironment "v" "office" ⟨"1.0", 1, 1⟩),
    requested "u2" (.updateVirtualEnvironment "v" "home" ⟨"1.0", 1, 1⟩), .perform 0, projected]

/-- The owner asks to rename the workspace and to delete it, and the deletion comes first. -/
def renamedLate : List OwnerAct :=
  [.createVirtualEnvironment ⟨"e", "2024-01-01T00:00:00Z"⟩ "v" "lab" "u1" ⟨"1.0", 1, 1⟩, projected,
    requested "u1" (.updateVirtualEnvironment "v" "office" ⟨"1.0", 1, 1⟩),
    requested "u1" (.deleteVirtualEnvironment "v"), .perform 1, .perform 0, projected, projected]

theorem creator_of_execute_renamed : ∃ s, run (step true) {} renamed = some s ∧
    (∀ key r, owned s.model key = some r → r.owner = none ∨ r.owner = s.creators key) ∧
    ∀ (request : OwnerRequest) (stamp : EventStamp) (userId : String) (granted : Granted),
      request.execute s.model stamp userId = .ok granted →
        s.creators request.key = some userId := by
  obtain ⟨s, hs⟩ : ∃ s, run (step true) {} renamed = some s := ⟨_, rfl⟩
  exact ⟨s, hs, creator_of_execute (reach_of_run hs)⟩

theorem intact_throughout_renamed : Throughout (step true) Intact {} renamed := by
  obtain ⟨s, hs⟩ : ∃ s, run (guarded (step true) fun s act => s.timely act = true) {} renamed =
      some s := ⟨_, rfl⟩
  exact (intact_throughout_iff (run_of_guarded_run hs)).2 (eachStep_of_guarded_run hs)

/-- The late update has taken the owner away, and the owner cannot purge the workspace. -/
theorem lost_renamedLate : ∃ s, run (step true) {} renamedLate = some s ∧
    ∀ stamp granted, (OwnerRequest.purgeVirtualEnvironment "v").execute s.model stamp "u1" ≠
      .ok granted := by
  obtain ⟨s, r, hs, hr, howner⟩ : ∃ s r, run (step true) {} renamedLate = some s ∧
      owned s.model (.virtualEnvironment, "v") = some r ∧ r.owner = none := ⟨_, _, rfl, rfl, rfl⟩
  exact ⟨s, hs, fun stamp granted =>
    (lost_of_reach (reach_of_run hs) hr howner .refl).2.1 _ stamp "u1" granted rfl⟩

/-- The projector comes to the creation again, and the workspace has its owner back. -/
example : (run (step true) {} (renamedLate ++ [.projectAgain ⟨"e", "2024-01-01T00:00:00Z"⟩ 0])).map
    (fun s => owned s.model (.virtualEnvironment, "v")) = some (some ⟨some "u1", true⟩) := rfl

end OwnerSystem

end Axo.Projector
