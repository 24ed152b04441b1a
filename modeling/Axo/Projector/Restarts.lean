import Axo.Lib.Replay
import Axo.Projector.EndpointPurge
import Axo.Projector.LeaderQuery
import Axo.Projector.Subscriber

/-!
# A projector that is started again

`KurrentSubscriber` with `apply_event` behind it.  A new subscription begins at the stored
checkpoint: after a crash, or when checkpoints could not be stored, events are projected again, some
of them many times, and later ones have been projected already.

* `ProjectorProcess.step` is one step of the event store or of the projector;
* `SameDocuments` compares two read models, but for virtual environments and choreographies;
* `sameDocuments_of_reach`: once a subscription has come to everything again that was projected
  before, the documents are as if each event had been projected once;
* `owner_lost`: that does not go for the workspaces.
-/

namespace Axo.Projector

open Replay Transition

/-- The event store with the subscription, and the read model. -/
structure ProjectorProcess where
  subscriber : KurrentSubscriber := {}
  model : ReadModel := {}

/-- What happens next; the handlers raise nothing, and a crash does not interrupt them. -/
inductive ProcessAct
  | append (record : RecordedEvent)
  | connect
  /-- the next record is applied, and its position is stored or cannot be -/
  | deliver (stored : Bool)
  | leave

/-- What is in the records is given by their commit positions. -/
structure EventStore where
  publishes : Bool
  stamp : DomainEvent → EventStamp
  event : ℕ → DomainEvent

/-- The read model after the event at a position. -/
def EventStore.apply (store : EventStore) (s : ReadModel) (position : ℕ) : ReadModel :=
  (applyEvent store.publishes (store.stamp (store.event position)) s (store.event position)).1

namespace ProjectorProcess

/-- How `apply_record` ends. -/
def outcome (stored : Bool) : ApplyOutcome := if stored then .applied else .checkpointFails

/-- One step. -/
def step (store : EventStore) (s : ProjectorProcess) : ProcessAct → Option ProjectorProcess
  | .append record => (s.subscriber.step (.append record)).map fun t => { s with subscriber := t }
  | .connect => (s.subscriber.step .connect).map fun t => { s with subscriber := t }
  | .deliver stored =>
    s.subscriber.subscription.bind fun subscription =>
      (s.subscriber.next subscription).map fun record =>
        { subscriber := s.subscriber.applyRecord subscription record (outcome stored)
          model := store.apply s.model record.commitPosition }
  | .leave => (s.subscriber.step .leave).map fun t => { s with subscriber := t }

/-- The positions of the records of the taxonomy's streams. -/
def positions (s : KurrentSubscriber) : List ℕ :=
  (s.stream.filter fun record => record.Included).map RecordedEvent.commitPosition

/-- Where the projector stands: without a subscription, where the next one begins. -/
def reached (s : KurrentSubscriber) : Option ℕ :=
  match s.subscription with
  | some subscription => subscription.position
  | none => s.checkpoint

/-- The position is not behind that one. -/
def passed (reached : Option ℕ) (position : ℕ) : Bool := reached.any fun p => decide (position ≤ p)

end ProjectorProcess

/-! ### The documents one by one -/

section Documents

variable {publishes : Bool} {stamp : EventStamp} {s : ReadModel} {event : DomainEvent}

/-- What an event does to the row of an id. -/
def activityStep (id : String) (row : Option ActivityRow) (event : DomainEvent) :
    Option ActivityRow :=
  if event.envelope.eventId = id then some (activityRow event) else row

theorem lookup_unifiedActivity_applyEvent (id : String) :
    (applyEvent publishes stamp s event).1.unifiedActivity.lookup id =
      activityStep id (s.unifiedActivity.lookup id) event := by
  rw [applyEvent, handle_unifiedActivity]
  show (record s.unifiedActivity event).lookup id = _
  unfold record activityStep
  split_ifs with hid
  · rw [← hid, Collection.lookup_upsert]
  · exact Collection.lookup_upsert_ne (Ne.symm hid)

/-- What an event does to the profile of a user. -/
def profileStep (userId : Option String) (profile : Option UserProfile) (event : DomainEvent) :
    Option UserProfile :=
  match event.body with
  | .userProfile payload =>
    if event.envelope.userId = userId then
      match payload with
      | .created profilePhoto preferences | .updated profilePhoto preferences =>
        some { userId := userId, profilePhoto := profilePhoto, preferences := preferences }
      | .deleted => none
    else profile
  | _ => profile

theorem lookup_userProfiles_applyEvent (userId : Option String) :
    (applyEvent publishes stamp s event).1.userProfiles.lookup userId =
      profileStep userId (s.userProfiles.lookup userId) event := by
  cases hbody : event.body with
  | userProfile payload =>
    simp only [applyEvent, handle, hbody, profileStep]
    split_ifs with hid
    · subst hid
      cases payload with
      | created profilePhoto preferences => exact Collection.lookup_upsert ..
      | updated profilePhoto preferences => exact Collection.lookup_upsert ..
      | deleted => exact AList.lookup_erase ..
    · cases payload with
      | created profilePhoto preferences => exact Collection.lookup_upsert_ne (Ne.symm hid)
      | updated profilePhoto preferences => exact Collection.lookup_upsert_ne (Ne.symm hid)
      | deleted => exact AList.lookup_erase_ne (Ne.symm hid)
  | consensus term payload =>
    simp only [applyEvent, handle, hbody, applyConsensus, profileStep]
    cases payload.leaderIds? <;> rfl
  | data name payload =>
    simp only [applyEvent, handle, hbody, profileStep]
    cases payload <;> rfl
  | _ => simp only [applyEvent, handle, hbody, profileStep]

/-- What an event does to the document of an endpoint. -/
def endpointStep (endpointId : Option String) (doc : Option (Document String Value))
    (event : DomainEvent) : Option (Document String Value) :=
  match event.body with
  | .endpoint payload =>
    if event.envelope.endpointId = endpointId then
      some ((doc.getD fun _ => none).set (withField event.data "status" payload.status?))
    else doc
  | _ => doc

theorem lookup_endpoints_endpointStep (endpointId : Option String) :
    (applyEvent publishes stamp s event).1.endpoints.lookup endpointId =
      endpointStep endpointId (s.endpoints.lookup endpointId) event := by
  cases hbody : event.body with
  | endpoint payload =>
    simp only [applyEvent, handle, hbody, endpointStep, setEndpoint]
    split_ifs with hid
    · rw [hid, Collection.lookup_upsert]
    · exact Collection.lookup_upsert_ne (Ne.symm hid)
  | consensus term payload =>
    simp only [applyEvent, handle, hbody, applyConsensus, endpointStep]
    cases payload.leaderIds? <;> rfl
  | data name payload =>
    simp only [applyEvent, handle, hbody, endpointStep]
    cases payload <;> rfl
  | _ => simp only [applyEvent, handle, hbody, endpointStep]

/-- What an event does to the document of a bucket. -/
def bucketStep (name : String) (bucket : Option DataBucket) (event : DomainEvent) :
    Option DataBucket :=
  match event.body with
  | .data name' (.bucketCreated quotaBytes) =>
    if name' = name then
      some { name := name, quotaBytes := quotaBytes, createdAt := event.envelope.createdAt }
    else bucket
  | _ => bucket

theorem lookup_buckets_applyEvent (name : String) :
    (applyEvent publishes stamp s event).1.buckets.lookup name =
      bucketStep name (s.buckets.lookup name) event := by
  cases hbody : event.body with
  | data name' payload =>
    cases payload with
    | bucketCreated quotaBytes =>
      simp only [applyEvent, handle, hbody, bucketHandler, bucketStep]
      split_ifs with hname
      · rw [hname, Collection.lookup_upsert]
      · exact Collection.lookup_upsert_ne (Ne.symm hname)
    | _ => simp only [applyEvent, handle, hbody, bucketHandler, bucketStep]
  | consensus term payload =>
    simp only [applyEvent, handle, hbody, applyConsensus, bucketStep]
    cases payload.leaderIds? <;> rfl
  | _ => simp only [applyEvent, handle, hbody, bucketStep]

/-- What an event does to a data item. -/
def dataItemStep (key : String) (item : Option DataItem) (event : DomainEvent) : Option DataItem :=
  match event.body with
  | .data name (.registered version format kind totalSize totalChunks) =>
    if dataItemKey name version = key then
      some
        { name := name
          version := version
          format := format
          kind := kind
          totalSize := totalSize
          totalChunks := totalChunks
          status := .pending }
    else item
  | .data name (.uploadCompleted version) =>
    if dataItemKey name version = key then item.map DataItem.markReady else item
  | .data name (.deleted version) => if dataItemKey name version = key then none else item
  | _ => item

theorem lookup_bucketData_applyEvent (key : String) :
    (applyEvent publishes stamp s event).1.bucketData.lookup key =
      dataItemStep key (s.bucketData.lookup key) event := by
  cases hbody : event.body with
  | data name payload =>
    cases payload with
    | bucketCreated quotaBytes => simp only [applyEvent, handle, hbody, bucketHandler, dataItemStep]
    | registered version format kind totalSize totalChunks =>
      simp only [applyEvent, handle, hbody, bucketHandler, dataItemStep]
      split_ifs with hkey
      · rw [hkey, Collection.lookup_upsert]
      · exact Collection.lookup_upsert_ne (Ne.symm hkey)
    | uploadCompleted version =>
      simp only [applyEvent, handle, hbody, bucketHandler, dataItemStep]
      split_ifs with hkey
      · rw [hkey, Collection.lookup_updateOne]
      · exact Collection.lookup_updateOne_ne (Ne.symm hkey)
    | deleted version =>
      simp only [applyEvent, handle, hbody, bucketHandler, dataItemStep]
      split_ifs with hkey
      · rw [hkey]
        exact AList.lookup_erase ..
      · exact AList.lookup_erase_ne (Ne.symm hkey)
  | consensus term payload =>
    simp only [applyEvent, handle, hbody, applyConsensus, dataItemStep]
    cases payload.leaderIds? <;> rfl
  | _ => simp only [applyEvent, handle, hbody, dataItemStep]

end Documents

/-! ### What is written and what is left alone -/

section Written

variable {store : EventStore}

/-- A step of one document is a step of the read model. -/
theorem writes_of_lookup {δ V : Type*} {look : ReadModel → δ} {g : δ → DomainEvent → δ}
    {aspect : δ → V} (hlook : ∀ publishes stamp s event,
      look (applyEvent publishes stamp s event).1 = g (look s) event) (h : Writes g aspect) :
    Writes store.apply fun s => aspect (look s) := by
  intro position
  rcases h (store.event position) with ⟨v, hv⟩ | hkeep
  · exact .inl ⟨v, fun s => (congrArg aspect (hlook ..)).trans (hv _)⟩
  · exact .inr fun s => (congrArg aspect (hlook ..)).trans (hkeep _)

/-- A field of a document that may be new is set to what the event says, or left alone. -/
theorem writes_set {δ : Type*} (document : δ → Document String Value) {new : δ}
    (hnew : ∀ k, document new k = none) (fields : Fields) (k : String) :
    (∃ v, ∀ doc : Option δ, (document (doc.getD new)).set fields k = v) ∨
      ∀ doc : Option δ,
        (document (doc.getD new)).set fields k = doc.bind fun doc => document doc k := by
  cases hfield : fields.lookup k with
  | none =>
    refine .inr fun doc => (Document.set_of_lookup_none hfield).trans ?_
    cases doc with
    | none => exact hnew k
    | some doc => rfl
  | some v => exact .inl ⟨some v, fun doc => by simp [Document.set, hfield]⟩

theorem writes_activityStep (id : String) : Writes (activityStep id) fun row => row := by
  intro event
  unfold activityStep
  split_ifs with hid
  · exact .inl ⟨_, fun _ => rfl⟩
  · exact .inr fun _ => rfl

theorem writes_profileStep (userId : Option String) :
    Writes (profileStep userId) fun profile => profile := by
  intro event
  cases hbody : event.body with
  | userProfile payload =>
    by_cases hid : event.envelope.userId = userId
    · refine .inl ⟨profileStep userId none event, fun profile => ?_⟩
      simp only [profileStep, hbody, if_pos hid]
    · exact .inr fun profile => by simp only [profileStep, hbody, if_neg hid]
  | _ => exact .inr fun profile => by simp only [profileStep, hbody]

theorem writes_bucketStep (name : String) : Writes (bucketStep name) fun bucket => bucket := by
  intro event
  unfold bucketStep
  split
  · split_ifs with hname
    · exact .inl ⟨_, fun _ => rfl⟩
    · exact .inr fun _ => rfl
  · exact .inr fun _ => rfl

theorem writes_endpointStep (endpointId : Option String) :
    Writes (endpointStep endpointId) Option.isSome := by
  intro event
  unfold endpointStep
  split
  · split_ifs with hid
    · exact .inl ⟨true, fun _ => rfl⟩
    · exact .inr fun _ => rfl
  · exact .inr fun _ => rfl

theorem writes_endpointStep_field (endpointId : Option String) (k : String) :
    Writes (endpointStep endpointId) fun doc => doc.bind fun doc => doc k := by
  intro event
  unfold endpointStep
  split
  · split_ifs with hid
    · exact writes_set (fun doc => doc) (fun _ => rfl) _ k
    · exact .inr fun _ => rfl
  · exact .inr fun _ => rfl

theorem writes_functionStep (functionId : String) (version : ℤ) :
    Writes (functionStep functionId version) Option.isSome := by
  intro event
  unfold functionStep
  split
  · split_ifs with hkey
    · exact .inl ⟨true, fun _ => rfl⟩
    · exact .inr fun _ => rfl
  · split_ifs with hkey
    · exact .inl ⟨true, fun _ => rfl⟩
    · exact .inr fun _ => rfl
  · split_ifs with hkey
    · exact .inr fun _ => Option.isSome_map
    · exact .inr fun _ => rfl
  · exact .inr fun _ => rfl

theorem writes_functionStep_field (functionId : String) (version : ℤ) (k : String) :
    Writes (functionStep functionId version) fun doc => doc.bind fun doc => doc.fields k := by
  intro event
  unfold functionStep
  split
  · split_ifs with hkey
    · exact writes_set FunctionDocument.fields (fun _ => rfl) _ k
    · exact .inr fun _ => rfl
  · split_ifs with hkey
    · exact writes_set FunctionDocument.fields (fun _ => rfl) _ k
    · exact .inr fun _ => rfl
  · split_ifs with hkey
    · exact .inr fun doc => by cases doc <;> rfl
    · exact .inr fun _ => rfl
  · exact .inr fun _ => rfl

/-- The endpoint is listed in the document of a version. -/
def listed (n : String) (doc : Option FunctionDocument) : Prop :=
  n ∈ (doc.map FunctionDocument.holders).getD []

theorem writes_functionStep_listed (functionId : String) (version : ℤ) (n : String) :
    Writes (functionStep functionId version) (listed n) := by
  intro event
  unfold functionStep
  split
  · split_ifs with hkey
    · unfold listed
      simp only [Option.map_some, Option.getD_some, FunctionDocument.holders_apply]
      cases hsender : event.envelope.endpointId with
      | none => exact .inr fun _ => rfl
      | some id =>
        simp only [Option.toList_some, List.foldl_cons, List.foldl_nil, mem_addToSet]
        by_cases hid : n = id
        · exact .inl ⟨True, fun _ => by simp [hid]⟩
        · exact .inr fun _ => by simp [hid]
    · exact .inr fun _ => rfl
  · split_ifs with hkey
    · exact .inr fun doc => by cases doc <;> rfl
    · exact .inr fun _ => rfl
  · split_ifs with hkey
    · by_cases hsender : some n = event.envelope.endpointId
      · refine .inl ⟨False, fun doc => ?_⟩
        cases doc <;> simp [listed, FunctionDocument.mem_holders_detach, hsender]
      · refine .inr fun doc => ?_
        cases doc <;> simp [listed, FunctionDocument.mem_holders_detach, hsender]
    · exact .inr fun _ => rfl
  · exact .inr fun _ => rfl

theorem writes_consensusStep (term : ℤ) : Writes (consensusStep term) Option.isSome := by
  intro event
  unfold consensusStep
  split
  · split_ifs with hterm
    · exact .inl ⟨true, fun _ => rfl⟩
    · exact .inr fun _ => rfl
  · exact .inr fun _ => rfl

theorem writes_consensusStep_field (term : ℤ) (k : String) :
    Writes (consensusStep term) fun doc => doc.bind fun doc => doc.fields k := by
  intro event
  unfold consensusStep
  split
  · split_ifs with hterm
    · exact writes_set ConsensusDocument.fields (fun _ => rfl) _ k
    · exact .inr fun _ => rfl
  · exact .inr fun _ => rfl

/-- The endpoint has reported something in a term. -/
def reports (n : Option String) (doc : Option ConsensusDocument) : Prop :=
  n ∈ (doc.map ConsensusDocument.reportedBy).getD []

theorem writes_consensusStep_reports (term : ℤ) (n : Option String) :
    Writes (consensusStep term) (reports n) := by
  intro event
  unfold consensusStep
  split
  · split_ifs with hterm
    · by_cases hsender : n = event.envelope.endpointId
      · refine .inl ⟨True, fun doc => ?_⟩
        cases doc <;> simp [reports, ConsensusDocument.record, mem_addToSet, hsender]
      · refine .inr fun doc => ?_
        cases doc <;> simp [reports, ConsensusDocument.record, mem_addToSet, hsender]
    · exact .inr fun _ => rfl
  · exact .inr fun _ => rfl

theorem writes_jobStep {V : Type*} {aspect : Option Job → V} (jobId : String)
    (h : ∀ envelope id functionId payload,
      (∃ v, ∀ old, aspect (some (jobHandler envelope id functionId payload old)) = v) ∨
        ∀ old, aspect (some (jobHandler envelope id functionId payload old)) = aspect old) :
    Writes (jobStep jobId) aspect := by
  intro event
  unfold jobStep
  split
  · split_ifs with hid
    · exact h _ _ _ _
    · exact .inr fun _ => rfl
  · exact .inr fun _ => rfl

/-- What the record of a job tells of its run. -/
structure JobAccount where
  status : JobStatus
  functionVersion : Option ℤ
  durationMs : Option String
  params : Option Fields
  endpointId : Option String
  createdAt : Option String

def Job.account (job : Job) : JobAccount where
  status := job.status
  functionVersion := job.functionVersion
  durationMs := job.durationMs
  params := job.params
  endpointId := job.endpointId
  createdAt := job.createdAt

theorem writes_jobStep_status (jobId : String) :
    Writes (jobStep jobId) fun job => job.map Job.status := by
  refine writes_jobStep jobId fun envelope id functionId payload => .inl ?_
  cases payload with
  | queued version params => exact ⟨some .queued, fun _ => rfl⟩
  | started version params => exact ⟨some .started, fun _ => rfl⟩
  | completed durationMs => exact ⟨some .completed, fun _ => rfl⟩
  | failed failure durationMs => exact ⟨some .failed, fun _ => rfl⟩

theorem writes_jobStep_functionVersion (jobId : String) :
    Writes (jobStep jobId) fun job => job.bind Job.functionVersion := by
  refine writes_jobStep jobId fun envelope id functionId payload => ?_
  cases payload with
  | queued version params => exact .inl ⟨version, fun _ => rfl⟩
  | started version params =>
    cases version with
    | none => exact .inr fun old => by cases old <;> rfl
    | some version => exact .inl ⟨some version, fun _ => rfl⟩
  | _ => exact .inr fun old => by cases old <;> rfl

theorem writes_jobStep_durationMs (jobId : String) :
    Writes (jobStep jobId) fun job => job.bind Job.durationMs := by
  refine writes_jobStep jobId fun envelope id functionId payload => ?_
  cases payload with
  | queued version params => exact .inl ⟨none, fun _ => rfl⟩
  | started version params => exact .inr fun old => by cases old <;> rfl
  | completed durationMs => exact .inl ⟨durationMs, fun _ => rfl⟩
  | failed failure durationMs =>
    cases durationMs with
    | none => exact .inr fun old => by cases old <;> rfl
    | some durationMs => exact .inl ⟨some durationMs, fun _ => rfl⟩

/-- A field that only the acceptance of a job sets. -/
theorem writes_jobStep_queued {V : Type*} (jobId : String) {field : Job → Option V}
    (hnew : ∀ id functionId status,
      field { jobId := id, functionId := functionId, status := status } = none)
    (hkeep : ∀ (job : Job) (version : Option ℤ) (status : JobStatus) (durationMs : Option String),
      field { job with functionVersion := version, status := status, durationMs := durationMs } =
        field job) :
    Writes (jobStep jobId) fun job => job.bind field := by
  refine writes_jobStep jobId fun envelope id functionId payload => ?_
  cases payload with
  | queued version params =>
    exact .inl ⟨field (jobHandler envelope id functionId (.queued version params) none),
      fun _ => rfl⟩
  | _ =>
    refine .inr fun old => (hkeep _ _ _ _).trans ?_
    cases old with
    | none => exact hnew ..
    | some job => rfl

/-- An event gives an item a value, leaves it alone, or makes it ready. -/
theorem dataItemStep_cases (key : String) (event : DomainEvent) :
    (∃ w, ∀ v, dataItemStep key v event = w) ∨ (∀ v, dataItemStep key v event = v) ∨
      ∀ v, dataItemStep key v event = v.map DataItem.markReady := by
  cases hbody : event.body with
  | data name payload =>
    cases payload with
    | bucketCreated quotaBytes => exact .inr (.inl fun v => by simp only [dataItemStep, hbody])
    | registered version format kind totalSize totalChunks =>
      by_cases hkey : dataItemKey name version = key
      · exact .inl
          ⟨some
            { name := name
              version := version
              format := format
              kind := kind
              totalSize := totalSize
              totalChunks := totalChunks
              status := .pending },
            fun v => by simp only [dataItemStep, hbody, if_pos hkey]⟩
      · exact .inr (.inl fun v => by simp only [dataItemStep, hbody, if_neg hkey])
    | uploadCompleted version =>
      by_cases hkey : dataItemKey name version = key
      · exact .inr (.inr fun v => by simp only [dataItemStep, hbody, if_pos hkey])
      · exact .inr (.inl fun v => by simp only [dataItemStep, hbody, if_neg hkey])
    | deleted version =>
      by_cases hkey : dataItemKey name version = key
      · exact .inl ⟨none, fun v => by simp only [dataItemStep, hbody, if_pos hkey]⟩
      · exact .inr (.inl fun v => by simp only [dataItemStep, hbody, if_neg hkey])
  | _ => exact .inr (.inl fun v => by simp only [dataItemStep, hbody])

/-- Only an item that is there becomes ready, and a ready one stays so. -/
theorem overrides_dataItemStep (key : String) : Overrides (dataItemStep key) := by
  have hready (l : List DomainEvent) (item : Option DataItem) :
      (l.foldl (dataItemStep key) (item.map DataItem.markReady)).map DataItem.markReady =
        (l.foldl (dataItemStep key) item).map DataItem.markReady := by
    induction l generalizing item with
    | nil => cases item <;> rfl
    | cons event l ih =>
      rw [List.foldl_cons, List.foldl_cons]
      rcases dataItemStep_cases key event with ⟨w, hw⟩ | hkeep | hmark
      · rw [hw, hw]
      · rw [hkeep, hkeep]
        exact ih item
      · rw [hmark, hmark]
        exact ih (item.map DataItem.markReady)
  intro event l item
  rcases dataItemStep_cases key event with ⟨w, hw⟩ | hkeep | hmark
  · rw [hw, hw]
  · rw [hkeep item]
  · rw [hmark, hmark, hmark]
    exact hready l item

end Written

/-! ### The same documents -/

/-- Two read models with the same documents, but for virtual environments and choreographies.  The
endpoints of a version and of a term may come in another order, and the record of a job may name
another function, if its events do. -/
structure SameDocuments (s t : ReadModel) : Prop where
  unifiedActivity : ∀ id, s.unifiedActivity.lookup id = t.unifiedActivity.lookup id
  userProfiles : ∀ userId, s.userProfiles.lookup userId = t.userProfiles.lookup userId
  endpoints : ∀ endpointId, s.endpoints.lookup endpointId = t.endpoints.lookup endpointId
  functions : ∀ functionId version,
    let doc := s.functions.lookup (functionKey functionId version)
    let doc' := t.functions.lookup (functionKey functionId version)
    doc.map FunctionDocument.fields = doc'.map FunctionDocument.fields ∧
      ∀ n, listed n doc ↔ listed n doc'
  consensus : ∀ term,
    let doc := s.consensus.lookup term
    let doc' := t.consensus.lookup term
    doc.map ConsensusDocument.fields = doc'.map ConsensusDocument.fields ∧
      ∀ n, reports n doc ↔ reports n doc'
  jobs : ∀ jobId, (s.jobs.lookup jobId).map Job.account = (t.jobs.lookup jobId).map Job.account
  buckets : ∀ name, s.buckets.lookup name = t.buckets.lookup name
  bucketData : ∀ key, s.bucketData.lookup key = t.bucketData.lookup key

theorem map_eq_of_bind {δ κ ν : Type*} {a b : Option δ} {f : δ → κ → Option ν}
    (hsome : a.isSome = b.isSome)
    (hfield : ∀ k, (a.bind fun doc => f doc k) = b.bind fun doc => f doc k) :
    a.map f = b.map f := by
  cases a with
  | none =>
    cases b with
    | none => rfl
    | some doc => cases hsome
  | some doc =>
    cases b with
    | none => cases hsome
    | some doc' => exact congrArg some (funext hfield)

theorem account_eq {a b : Option Job} (hstatus : a.map Job.status = b.map Job.status)
    (hversion : a.bind Job.functionVersion = b.bind Job.functionVersion)
    (hduration : a.bind Job.durationMs = b.bind Job.durationMs)
    (hparams : a.bind Job.params = b.bind Job.params)
    (hendpoint : a.bind Job.endpointId = b.bind Job.endpointId)
    (hcreated : a.bind Job.createdAt = b.bind Job.createdAt) :
    a.map Job.account = b.map Job.account := by
  cases a with
  | none =>
    cases b with
    | none => rfl
    | some job => cases hstatus
  | some job =>
    cases b with
    | none => cases hstatus
    | some job' =>
      simp only [Option.map_some, Option.some.injEq, Option.bind_some] at *
      simp only [Job.account, hstatus, hversion, hduration, hparams, hendpoint, hcreated]

/-- What is overridden is all that there is to see of the documents. -/
theorem sameDocuments_of_overridden (store : EventStore) {s t : ReadModel}
    (h : ∀ {V : Type} {aspect : ReadModel → V}, Overridden store.apply aspect →
      aspect s = aspect t) : SameDocuments s t := by
  have hwrites {δ V : Type} {g : δ → DomainEvent → δ} {aspect : δ → V} (look : ReadModel → δ)
      (hlook : ∀ publishes stamp s event,
        look (applyEvent publishes stamp s event).1 = g (look s) event) (hg : Writes g aspect) :
      aspect (look s) = aspect (look t) :=
    h (overridden_of_writes (writes_of_lookup hlook hg))
  constructor
  · intro id
    have hrow := hwrites (fun m => m.unifiedActivity.lookup id)
      (fun _ _ _ _ => lookup_unifiedActivity_applyEvent id) (writes_activityStep id)
    exact hrow
  · intro userId
    have hprofile := hwrites (fun m => m.userProfiles.lookup userId)
      (fun _ _ _ _ => lookup_userProfiles_applyEvent userId) (writes_profileStep userId)
    exact hprofile
  · intro endpointId
    have hdoc {V : Type} {aspect : Option (Document String Value) → V}
        (hg : Writes (endpointStep endpointId) aspect) :
        aspect (s.endpoints.lookup endpointId) = aspect (t.endpoints.lookup endpointId) :=
      hwrites (fun m => m.endpoints.lookup endpointId)
        (fun _ _ _ _ => lookup_endpoints_endpointStep endpointId) hg
    have hsame := map_eq_of_bind (f := fun doc => doc) (hdoc (writes_endpointStep endpointId))
      fun k => hdoc (writes_endpointStep_field endpointId k)
    simpa using hsame
  · intro functionId version
    have hdoc {V : Type} {aspect : Option FunctionDocument → V}
        (hg : Writes (functionStep functionId version) aspect) :
        aspect (s.functions.lookup (functionKey functionId version)) =
          aspect (t.functions.lookup (functionKey functionId version)) :=
      hwrites (fun m => m.functions.lookup (functionKey functionId version))
        (lookup_functions_applyEvent functionId version) hg
    exact ⟨map_eq_of_bind (hdoc (writes_functionStep functionId version))
      fun k => hdoc (writes_functionStep_field functionId version k),
      fun n => iff_of_eq (hdoc (writes_functionStep_listed functionId version n))⟩
  · intro term
    have hdoc {V : Type} {aspect : Option ConsensusDocument → V}
        (hg : Writes (consensusStep term) aspect) :
        aspect (s.consensus.lookup term) = aspect (t.consensus.lookup term) :=
      hwrites (fun m => m.consensus.lookup term) (lookup_consensus_applyEvent term) hg
    exact ⟨map_eq_of_bind (hdoc (writes_consensusStep term))
      fun k => hdoc (writes_consensusStep_field term k),
      fun n => iff_of_eq (hdoc (writes_consensusStep_reports term n))⟩
  · intro jobId
    have hdoc {V : Type} {aspect : Option Job → V} (hg : Writes (jobStep jobId) aspect) :
        aspect (s.jobs.lookup jobId) = aspect (t.jobs.lookup jobId) :=
      hwrites (fun m => m.jobs.lookup jobId) lookup_jobs_applyEvent hg
    have hqueued {V : Type} {field : Job → Option V}
        (hnew : ∀ id functionId status,
          field { jobId := id, functionId := functionId, status := status } = none)
        (hkeep : ∀ (job : Job) (version : Option ℤ) (status : JobStatus)
          (durationMs : Option String),
          field { job with functionVersion := version, status := status, durationMs := durationMs } =
            field job) :
        (s.jobs.lookup jobId).bind field = (t.jobs.lookup jobId).bind field :=
      hdoc (writes_jobStep_queued jobId hnew hkeep)
    exact account_eq (hdoc (writes_jobStep_status jobId))
      (hdoc (writes_jobStep_functionVersion jobId)) (hdoc (writes_jobStep_durationMs jobId))
      (hqueued (fun _ _ _ => rfl) fun _ _ _ _ => rfl)
      (hqueued (fun _ _ _ => rfl) fun _ _ _ _ => rfl)
      (hqueued (fun _ _ _ => rfl) fun _ _ _ _ => rfl)
  · intro name
    have hbucket := hwrites (fun m => m.buckets.lookup name)
      (fun _ _ _ _ => lookup_buckets_applyEvent name) (writes_bucketStep name)
    exact hbucket
  · intro key
    have hitem : Overridden store.apply fun m => m.bucketData.lookup key := by
      refine ⟨fun item position => dataItemStep key item (store.event position),
        fun _ _ => lookup_bucketData_applyEvent key, fun position l item => ?_⟩
      have hagain := overrides_dataItemStep key (store.event position) (l.map store.event) item
      simpa only [List.foldl_map] using hagain
    exact h hitem

/-! ### Whole runs -/

namespace ProjectorProcess

variable {store : EventStore} {s t : ProjectorProcess} {act : ProcessAct}
  {subscription : Subscription} {record : RecordedEvent}

/-- The records are in order, the projector stands at one of them that the checkpoint does not go
beyond, and the read model is that of the events that were projected. -/
structure Sound (store : EventStore) (s : ProjectorProcess) : Prop where
  sorted : s.subscriber.stream.Pairwise fun r r' => r.commitPosition < r'.commitPosition
  stored : ∀ c, s.subscriber.checkpoint = some c →
    ∃ record ∈ s.subscriber.stream, record.commitPosition = c
  stands : ∀ p, reached s.subscriber = some p →
    ∃ record ∈ s.subscriber.stream, record.commitPosition = p
  checkpoint : ∀ c, s.subscriber.checkpoint = some c →
    ∃ p, reached s.subscriber = some p ∧ c ≤ p
  follows : ReadsAlong (positions s.subscriber) s.subscriber.applied.reverse
    (passed (reached s.subscriber))
  model : s.model = s.subscriber.applied.reverse.foldl store.apply {}

theorem mem_positions {s : KurrentSubscriber} {p : ℕ} :
    p ∈ positions s ↔ ∃ record ∈ s.stream, record.Included ∧ record.commitPosition = p := by
  simp [positions, and_assoc]

theorem passed_eq_false_iff {position : Option ℕ} :
    passed position record.commitPosition = false ↔ record.After position := by
  cases position with
  | none => exact iff_of_true rfl trivial
  | some p => simp [passed, RecordedEvent.After]

theorem sound_start : Sound store {} where
  sorted := .nil
  stored _ h := by cases h
  stands _ h := by cases h
  checkpoint _ h := by cases h
  follows := .start fun _ => rfl
  model := rfl

theorem Sound.append (h : s.Sound store) (hnew : ∀ earlier ∈ s.subscriber.stream,
      earlier.commitPosition < record.commitPosition) :
    Sound store
      { s with subscriber := { s.subscriber with stream := s.subscriber.stream ++ [record] } } where
  sorted := by
    refine List.pairwise_append.2
      ⟨h.sorted, List.pairwise_singleton .., fun old hold new hmem => ?_⟩
    obtain rfl := List.mem_singleton.1 hmem
    exact hnew old hold
  stored c hc := by
    obtain ⟨old, hold, heq⟩ := h.stored c hc
    exact ⟨old, List.mem_append_left _ hold, heq⟩
  stands p hp := by
    obtain ⟨old, hold, heq⟩ := h.stands p hp
    exact ⟨old, List.mem_append_left _ hold, heq⟩
  checkpoint := h.checkpoint
  follows := by
    have hlog : positions { s.subscriber with stream := s.subscriber.stream ++ [record] } =
        positions s.subscriber ++
          ([record].filter fun record => record.Included).map RecordedEvent.commitPosition := by
      simp only [positions, List.filter_append, List.map_append]
    rw [hlog]
    refine h.follows.grow fun p hp => ?_
    obtain ⟨new, hnew', rfl⟩ := List.mem_map.1 hp
    obtain rfl := List.mem_singleton.1 (List.mem_filter.1 hnew').1
    refine passed_eq_false_iff.2 ?_
    show new.After (reached s.subscriber)
    cases hreached : reached s.subscriber with
    | none => trivial
    | some p =>
      obtain ⟨old, hold, rfl⟩ := h.stands p hreached
      exact hnew old hold
  model := h.model

/-- Without a subscription, the projector is back at the checkpoint. -/
theorem Sound.leave (h : s.Sound store) :
    Sound store { s with subscriber := { s.subscriber with subscription := none } } where
  sorted := h.sorted
  stored := h.stored
  stands := h.stored
  checkpoint c hc := ⟨c, hc, le_rfl⟩
  follows := by
    refine h.follows.fallBack fun p hp => ?_
    show passed (reached s.subscriber) p = true
    cases hc : s.subscriber.checkpoint with
    | none =>
      have hnone : passed s.subscriber.checkpoint p = true := hp
      rw [hc] at hnone
      cases hnone
    | some c =>
      have hle : passed s.subscriber.checkpoint p = true := hp
      obtain ⟨q, hq, hcq⟩ := h.checkpoint c hc
      rw [hc] at hle
      rw [hq]
      exact decide_eq_true ((of_decide_eq_true hle).trans hcq)
  model := h.model

/-- The next record is projected. -/
theorem Sound.deliver (h : s.Sound store) (hsub : s.subscriber.subscription = some subscription)
    (hnext : s.subscriber.next subscription = some record) (stored : Bool) :
    Sound store
      { subscriber := s.subscriber.applyRecord subscription record (outcome stored)
        model := store.apply s.model record.commitPosition } := by
  obtain ⟨hmem, hincluded, hafter, hleast⟩ := KurrentSubscriber.next_cases h.sorted hnext
  have hreached : reached s.subscriber = subscription.position := by
    unfold reached
    rw [hsub]
  have happlied : (s.subscriber.applyRecord subscription record (outcome stored)).applied =
      record.commitPosition :: s.subscriber.applied := by cases stored <;> rfl
  have hstream : (s.subscriber.applyRecord subscription record (outcome stored)).stream =
      s.subscriber.stream := by cases stored <;> rfl
  have hposition : reached (s.subscriber.applyRecord subscription record (outcome stored)) =
      some record.commitPosition := by cases stored <;> rfl
  have hpositions : positions (s.subscriber.applyRecord subscription record (outcome stored)) =
      positions s.subscriber := by
    unfold positions
    rw [hstream]
  have hin : record.commitPosition ∈ positions s.subscriber :=
    mem_positions.2 ⟨record, hmem, hincluded, rfl⟩
  have hsorted : (positions s.subscriber).Pairwise (· < ·) :=
    List.pairwise_map.2 (h.sorted.filter _)
  have hnew : passed (reached s.subscriber) record.commitPosition = false := by
    rw [hreached]
    exact passed_eq_false_iff.2 hafter
  obtain ⟨before, behind, hlog⟩ := List.append_of_mem hin
  constructor
  · rw [hstream]
    exact h.sorted
  · intro c hc
    rw [hstream]
    cases stored with
    | true => exact ⟨record, hmem, Option.some.inj hc⟩
    | false => exact h.stored c hc
  · intro p hp
    rw [hposition] at hp
    rw [hstream]
    exact ⟨record, hmem, Option.some.inj hp⟩
  · intro c hc
    refine ⟨record.commitPosition, hposition, ?_⟩
    cases stored with
    | true => exact (Option.some.inj hc).ge
    | false =>
      obtain ⟨p, hp, hcp⟩ := h.checkpoint c hc
      rw [hreached] at hp
      rw [hp] at hafter
      exact hcp.trans (le_of_lt hafter)
  · rw [hpositions, hposition, happlied, List.reverse_cons]
    refine h.follows.next hlog hsorted.nodup hnew (fun a ha => ?_) fun a ha => ?_
    · have hlt : record.commitPosition < a := by
        rw [hlog] at hsorted
        exact (List.pairwise_cons.1 (List.pairwise_append.1 hsorted).2.1).1 a ha
      have hmem' : a ∈ positions s.subscriber :=
        hlog ▸ List.mem_append_right _ (List.mem_cons_of_mem _ ha)
      obtain ⟨other, -, -, rfl⟩ := mem_positions.1 hmem'
      rw [hreached]
      refine passed_eq_false_iff.2 ?_
      cases hp : subscription.position with
      | none => trivial
      | some p =>
        rw [hp] at hafter
        exact lt_trans hafter hlt
    · obtain ⟨other, hother, hincluded', rfl⟩ := mem_positions.1 ha
      rw [hreached]
      by_cases hlater : other.After subscription.position
      · rw [passed_eq_false_iff.2 hlater, Bool.false_or]
        have hle := hleast other hother hincluded' hlater
        exact decide_eq_decide.2 ⟨fun hge => le_antisymm hge hle, fun heq => heq.le⟩
      · have hpassed : passed subscription.position other.commitPosition = true := by
          rw [← Bool.not_eq_false, passed_eq_false_iff]
          exact hlater
        rw [hpassed, Bool.true_or]
        refine decide_eq_true ?_
        cases hp : subscription.position with
        | none => exact absurd (hp ▸ trivial) hlater
        | some p =>
          rw [hp] at hafter hlater
          exact (not_lt.1 hlater).trans (le_of_lt hafter)
  · rw [happlied, List.reverse_cons, List.foldl_append, ← h.model]
    rfl

theorem Sound.step (h : s.Sound store) (hstep : step store s act = some t) : t.Sound store := by
  cases act with
  | append record =>
    obtain ⟨u, hu, rfl⟩ := Option.map_eq_some_iff.1 hstep
    simp only [KurrentSubscriber.step] at hu
    split_ifs at hu with hnew
    cases hu
    exact h.append hnew
  | connect =>
    obtain ⟨u, hu, rfl⟩ := Option.map_eq_some_iff.1 hstep
    simp only [KurrentSubscriber.step] at hu
    split at hu
    · rename_i hnone
      cases hu
      have hreached : reached s.subscriber = s.subscriber.checkpoint := by
        unfold reached
        rw [hnone]
      refine ⟨h.sorted, h.stored, h.stored, fun c hc => ⟨c, hc, le_rfl⟩, ?_, h.model⟩
      have hfollows := h.follows
      rw [hreached] at hfollows
      exact hfollows
    · cases hu
  | deliver stored =>
    obtain ⟨subscription, hsub, hdeliver⟩ := Option.bind_eq_some_iff.1 hstep
    obtain ⟨record, hnext, rfl⟩ := Option.map_eq_some_iff.1 hdeliver
    exact h.deliver hsub hnext stored
  | leave =>
    obtain rfl := Option.some.inj hstep
    exact h.leave

/-- However often the projector is started again, and whichever checkpoints could be stored: once it
has come to everything again that it projected before, the documents are those of the events up to
there, each projected once. -/
theorem sameDocuments_of_reach (h : Reach (step store) Always {} s)
    (hcaught : ∀ p ∈ s.subscriber.applied, passed (reached s.subscriber) p = true) :
    SameDocuments s.model (project store.publishes store.stamp {}
      (((positions s.subscriber).filter (passed (reached s.subscriber))).map store.event)) := by
  have hsound : s.Sound store :=
    h.invariant (I := Sound store) sound_start fun _ _ _ hs _ hstep => hs.step hstep
  refine sameDocuments_of_overridden store fun {V aspect} hover => ?_
  have hread : ∀ p ∈ s.subscriber.applied.reverse, passed (reached s.subscriber) p = true :=
    fun p hp => hcaught p (List.mem_reverse.1 hp)
  rw [hsound.model, hover.eq_of_readsAlong hsound.follows hread, project, List.foldl_map]
  rfl

/-- The streams are read up to their third record; then the connection is lost, and two of the three
are projected again. -/
def restartedRun (streamName : String) : List ProcessAct :=
  [.append ⟨streamName, 1⟩, .append ⟨streamName, 2⟩, .append ⟨streamName, 3⟩, .connect,
    .deliver true, .deliver false, .deliver false, .leave, .connect, .deliver true, .deliver true]

/-- A store of three events. -/
def threeEvents (envelope : EventEnvelope) (first second third : EventBody) : EventStore where
  publishes := false
  stamp event := ⟨event.envelope.eventId, event.envelope.createdAt⟩
  event
    | 1 => ⟨envelope, first⟩
    | 2 => ⟨envelope, second⟩
    | _ => ⟨envelope, third⟩

/-- A job is queued, started and completed. -/
def jobStore : EventStore :=
  threeEvents { eventId := "e", createdAt := "2024-01-01T00:00:00Z", endpointId := some "n1" }
    (.job "j1" "f1" (.queued (some 1) none)) (.job "j1" "f1" (.started (some 1) none))
    (.job "j1" "f1" (.completed (some "12.5")))

theorem sameDocuments_of_reach_jobStore :
    ∃ s : ProjectorProcess, s.subscriber.applied = [3, 2, 3, 2, 1] ∧
      SameDocuments s.model (project jobStore.publishes jobStore.stamp {}
        ([1, 2, 3].map jobStore.event)) := by
  obtain ⟨s, hs, htest⟩ := exists_reach_of_run (step jobStore) {}
    (fun s => (∀ p ∈ s.subscriber.applied, passed (reached s.subscriber) p = true) ∧
      (positions s.subscriber).filter (passed (reached s.subscriber)) = [1, 2, 3] ∧
      s.subscriber.applied = [3, 2, 3, 2, 1])
    (restartedRun "activity-f1") (by decide)
  obtain ⟨hcaught, hpositions, happlied⟩ := of_decide_eq_true htest
  have hsame := sameDocuments_of_reach hs hcaught
  rw [hpositions] at hsame
  exact ⟨s, happlied, hsame⟩

/-- A workspace is created, updated and deleted. -/
def workspaceStore : EventStore :=
  threeEvents { eventId := "e", createdAt := "2024-01-01T00:00:00Z", userId := some "u1" }
    (.virtualEnv "v" (.created "lab" "u1" ⟨"1.0", 1, 1⟩))
    (.virtualEnv "v" (.updated "lab" ⟨"1.0", 2, 1⟩)) (.virtualEnv "v" .deleted)

/-- An update that is projected again after the deletion finds no workspace whose owner it could
keep: the owner of the deleted workspace is lost. -/
theorem owner_lost :
    ∃ s : ProjectorProcess, Reach (step workspaceStore) Always {} s ∧
      (∀ p ∈ s.subscriber.applied, passed (reached s.subscriber) p = true) ∧
      (s.model.virtualEnvironments.lookup "v").map VirtualEnvironment.ownerUserId = some none ∧
      ((project workspaceStore.publishes workspaceStore.stamp {}
          (((positions s.subscriber).filter (passed (reached s.subscriber))).map
            workspaceStore.event)).virtualEnvironments.lookup "v").map
        VirtualEnvironment.ownerUserId = some (some "u1") := by
  obtain ⟨s, hs, htest⟩ := exists_reach_of_run (step workspaceStore) {}
    (fun s => (∀ p ∈ s.subscriber.applied, passed (reached s.subscriber) p = true) ∧
      (s.model.virtualEnvironments.lookup "v").map VirtualEnvironment.ownerUserId = some none ∧
      (positions s.subscriber).filter (passed (reached s.subscriber)) = [1, 2, 3])
    (restartedRun "virtual-environments-v") (by decide)
  obtain ⟨hcaught, howner, hpositions⟩ := of_decide_eq_true htest
  refine ⟨s, hs, hcaught, howner, ?_⟩
  rw [hpositions]
  decide

end ProjectorProcess

end Axo.Projector
