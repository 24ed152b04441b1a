import Axo.Lib.LocalSteps
import Axo.Projector.ReadModel

/-!
# Which order of events matters

Every event touches some of the documents of the read model, and a report of a leader touches those
that `_apply_leader_change` reads and writes: all the endpoints and all the virtual environments.

* `Topic` is a document of the read model or the events that the projector appends, and
  `DomainEvent.touches` says which of them an event reads or writes;
* `local_projectStep`: what an event makes of the documents that it touches depends on these only;
* `projectAll_eq_of_topics`: two orders in which the events on each topic come in the same order leave
  the same documents, and append the same events.
-/

namespace Axo.Projector

open LocalSteps

/-- The documents of the read model, and the events that are appended. -/
inductive Topic
  | activity (eventId : String)
  | userProfile (userId : Option String)
  | virtualEnvironment (id : String)
  | endpoint (endpointId : Option String)
  | function (key : String)
  | consensus (term : ℤ)
  | job (jobId : String)
  | bucket (name : String)
  | dataItem (key : String)
  | choreography (id : String)
  | appended

/-- What there is to see of a topic. -/
def Topic.Sight : Topic → Type
  | .activity _ => Option ActivityRow
  | .userProfile _ => Option UserProfile
  | .virtualEnvironment _ => Option VirtualEnvironment
  | .endpoint _ => Option (Document String Value)
  | .function _ => Option FunctionDocument
  | .consensus _ => Option ConsensusDocument
  | .job _ => Option Job
  | .bucket _ => Option DataBucket
  | .dataItem _ => Option DataItem
  | .choreography _ => Option Choreography
  | .appended => List DomainEvent

/-- The read model, and the events appended so far, looked at topic by topic. -/
def sight (s : ReadModel × List DomainEvent) : (topic : Topic) → topic.Sight
  | .activity eventId => s.1.unifiedActivity.lookup eventId
  | .userProfile userId => s.1.userProfiles.lookup userId
  | .virtualEnvironment id => s.1.virtualEnvironments.lookup id
  | .endpoint endpointId => s.1.endpoints.lookup endpointId
  | .function key => s.1.functions.lookup key
  | .consensus term => s.1.consensus.lookup term
  | .job jobId => s.1.jobs.lookup jobId
  | .bucket name => s.1.buckets.lookup name
  | .dataItem key => s.1.bucketData.lookup key
  | .choreography id => s.1.choreographies.lookup id
  | .appended => s.2

/-- The document of a data event, if it is that of a bucket. -/
def DataPayload.touchesBucket : DataPayload → Bool
  | .bucketCreated _ => true
  | .registered .. | .uploadCompleted _ | .deleted _ => false

/-- The version of the data item of a data event. -/
def DataPayload.itemVersion? : DataPayload → Option ℤ
  | .bucketCreated _ => none
  | .registered version _ _ _ _ | .uploadCompleted version | .deleted version => some version

/-- The workspace events that change a document. -/
def VirtualEnvPayload.writes : VirtualEnvPayload → Bool
  | .created .. | .updated _ _ | .deleted => true
  | .leaderChanged _ => false

/-- The topics that are read or written for an event. -/
def DomainEvent.touches (event : DomainEvent) (topic : Topic) : Bool :=
  match topic, event.body with
  | .activity eventId, _ => event.envelope.eventId = eventId
  | .userProfile userId, .userProfile _ => event.envelope.userId = userId
  | .virtualEnvironment id, .virtualEnv id' payload => payload.writes && id' = id
  | .virtualEnvironment _, .consensus _ payload => payload.leaderIds?.isSome
  | .endpoint endpointId, .endpoint _ => event.envelope.endpointId = endpointId
  | .endpoint _, .consensus _ payload => payload.leaderIds?.isSome
  | .function key, .function functionId version _
  | .function key, .functionDeleted functionId version
  | .function key, .functionEndpointDetached functionId version =>
    functionKey functionId version = key
  | .consensus term, .consensus term' _ => term' = term
  | .job jobId, .job jobId' _ _ => jobId' = jobId
  | .bucket name, .data name' payload => payload.touchesBucket && name' = name
  | .dataItem key, .data name payload =>
    payload.itemVersion?.any fun version => dataItemKey name version = key
  | .choreography id, .choreography id' _ => id' = id
  | .appended, .consensus _ payload => payload.leaderIds?.isSome
  | _, _ => false

/-- `apply_event`, with the events appended so far. -/
def projectStep (publishes : Bool) (stamp : DomainEvent → EventStamp)
    (s : ReadModel × List DomainEvent) (event : DomainEvent) : ReadModel × List DomainEvent :=
  let result := applyEvent publishes (stamp event) s.1 event
  (result.1, s.2 ++ result.2)

section Steps

variable {publishes : Bool} {stamp : DomainEvent → EventStamp} {s t : ReadModel × List DomainEvent}
  {event : DomainEvent} {topic : Topic}

/-! ### What an event leaves alone -/

theorem applyConsensus_of_none {r : ReadModel} {eventStamp : EventStamp} {term : ℤ}
    {payload : ConsensusPayload} (h : payload.leaderIds? = none) :
    applyConsensus publishes eventStamp r event term payload =
      ({ r with
          consensus := r.consensus.upsert term
            (ConsensusDocument.record event.envelope.endpointId event.data) }, []) := by
  unfold applyConsensus
  rw [h]

theorem applyConsensus_of_some {r : ReadModel} {eventStamp : EventStamp} {term : ℤ}
    {payload : ConsensusPayload} {leaderIds : List String} (h : payload.leaderIds? = some leaderIds) :
    applyConsensus publishes eventStamp r event term payload =
      ({ r with
          consensus := r.consensus.upsert term
            (ConsensusDocument.record event.envelope.endpointId event.data)
          virtualEnvironments := (applyLeaderChange publishes eventStamp r.endpoints
            r.virtualEnvironments leaderIds).1 },
        (applyLeaderChange publishes eventStamp r.endpoints r.virtualEnvironments leaderIds).2) := by
  unfold applyConsensus
  rw [h]

/-- The handlers leave alone what the event does not touch. -/
theorem sight_handle_of_not_touches (publishes : Bool) (h : event.touches topic = false) (r : ReadModel)
    (eventStamp : EventStamp) (appended : List DomainEvent) :
    sight ((handle publishes eventStamp r event).1, appended) topic = sight (r, appended) topic := by
  obtain ⟨envelope, body⟩ := event
  cases body with
  | endpoint payload =>
    cases topic with
    | endpoint id =>
      exact Collection.lookup_upsert_ne fun heq => by simp [DomainEvent.touches, heq] at h
    | _ => rfl
  | function functionId version payload =>
    cases topic with
    | function key =>
      exact Collection.lookup_upsert_ne fun heq => by simp [DomainEvent.touches, heq] at h
    | _ => rfl
  | functionDeleted functionId version =>
    cases topic with
    | function key =>
      exact Collection.lookup_upsert_ne fun heq => by simp [DomainEvent.touches, heq] at h
    | _ => rfl
  | functionEndpointDetached functionId version =>
    cases topic with
    | function key =>
      exact Collection.lookup_updateOne_ne fun heq => by simp [DomainEvent.touches, heq] at h
    | _ => rfl
  | functionDeleteFailed functionId version failure => rfl
  | functionBuild functionId pythonVersion imageTag payload => rfl
  | consensus term payload =>
    show sight ((applyConsensus publishes eventStamp r _ term payload).1, appended) topic = _
    rcases hleaders : payload.leaderIds? with - | leaderIds
    · rw [applyConsensus_of_none hleaders]
      cases topic with
      | consensus term' =>
        exact Collection.lookup_upsert_ne fun heq => by simp [DomainEvent.touches, heq] at h
      | _ => rfl
    · rw [applyConsensus_of_some hleaders]
      cases topic with
      | consensus term' =>
        exact Collection.lookup_upsert_ne fun heq => by simp [DomainEvent.touches, heq] at h
      | virtualEnvironment id => simp [DomainEvent.touches, hleaders] at h
      | _ => rfl
  | job jobId functionId payload =>
    cases topic with
    | job id => exact Collection.lookup_upsert_ne fun heq => by simp [DomainEvent.touches, heq] at h
    | _ => rfl
  | data name payload =>
    cases payload with
    | bucketCreated quotaBytes =>
      cases topic with
      | bucket name' =>
        exact Collection.lookup_upsert_ne fun heq => by
          simp [DomainEvent.touches, DataPayload.touchesBucket, heq] at h
      | _ => rfl
    | registered version format kind totalSize totalChunks =>
      cases topic with
      | dataItem key =>
        exact Collection.lookup_upsert_ne fun heq => by
          simp [DomainEvent.touches, DataPayload.itemVersion?, heq] at h
      | _ => rfl
    | uploadCompleted version =>
      cases topic with
      | dataItem key =>
        exact Collection.lookup_updateOne_ne fun heq => by
          simp [DomainEvent.touches, DataPayload.itemVersion?, heq] at h
      | _ => rfl
    | deleted version =>
      cases topic with
      | dataItem key =>
        exact AList.lookup_erase_ne fun heq => by
          simp [DomainEvent.touches, DataPayload.itemVersion?, heq] at h
      | _ => rfl
  | userProfile payload =>
    cases topic with
    | userProfile userId =>
      have hne : userId ≠ envelope.userId := fun heq => by simp [DomainEvent.touches, heq] at h
      cases payload with
      | created profilePhoto preferences => exact Collection.lookup_upsert_ne hne
      | updated profilePhoto preferences => exact Collection.lookup_upsert_ne hne
      | deleted => exact AList.lookup_erase_ne hne
    | _ => rfl
  | virtualEnv id payload =>
    cases topic with
    | virtualEnvironment id' =>
      by_cases hwrites : payload.writes = true
      · have hne : id' ≠ id := fun heq => by simp [DomainEvent.touches, hwrites, heq] at h
        cases payload with
        | created name ownerUserId resourceQuota => exact Collection.lookup_upsert_ne hne
        | updated name resourceQuota => exact Collection.lookup_upsert_ne hne
        | deleted => exact Collection.lookup_updateOne_ne hne
        | leaderChanged leaderEndpointId => rfl
      · cases payload with
        | leaderChanged leaderEndpointId => rfl
        | _ => exact absurd rfl hwrites
    | _ => rfl
  | choreography id payload =>
    cases topic with
    | choreography id' =>
      have hne : id' ≠ id := fun heq => by simp [DomainEvent.touches, heq] at h
      cases payload with
      | created name ownerUserId graph => exact Collection.lookup_upsert_ne hne
      | updated name graph => exact Collection.lookup_upsert_ne hne
      | deleted => exact Collection.lookup_updateOne_ne hne
    | _ => rfl

/-- Only the reports of a leader append events. -/
theorem appended_handle (publishes : Bool) (h : event.touches .appended = false) (r : ReadModel)
    (eventStamp : EventStamp) : (handle publishes eventStamp r event).2 = [] := by
  obtain ⟨envelope, body⟩ := event
  cases body with
  | consensus term payload =>
    have hnone : payload.leaderIds? = none := by simpa [DomainEvent.touches] using h
    exact congrArg Prod.snd (applyConsensus_of_none hnone)
  | _ => rfl

/-- An event leaves alone what it does not touch. -/
theorem sight_projectStep_of_not_touches (h : event.touches topic = false) :
    sight (projectStep publishes stamp s event) topic = sight s topic := by
  have hkept := sight_handle_of_not_touches publishes h
    { s.1 with unifiedActivity := record s.1.unifiedActivity event } (stamp event) s.2
  cases topic with
  | activity eventId =>
    refine hkept.trans (Collection.lookup_upsert_ne fun heq => ?_)
    simp [DomainEvent.touches, heq] at h
  | appended =>
    have hnil := appended_handle publishes h
      { s.1 with unifiedActivity := record s.1.unifiedActivity event } (stamp event)
    exact (congrArg (s.2 ++ ·) hnil).trans (List.append_nil _)
  | _ => exact hkept

/-! ### What an event makes of what it touches -/

/-- Documents that are the same are the same after the same update. -/
theorem lookup_upsert_congr {ι δ : Type*} [DecidableEq ι] {c d : Collection ι δ} {i j : ι}
    (f : Option δ → δ) (h : c.lookup j = d.lookup j) :
    (c.upsert i f).lookup j = (d.upsert i f).lookup j := by
  by_cases hij : j = i
  · rw [← hij, Collection.lookup_upsert, Collection.lookup_upsert, h]
  · rw [Collection.lookup_upsert_ne hij, Collection.lookup_upsert_ne hij, h]

theorem lookup_updateOne_congr {ι δ : Type*} [DecidableEq ι] {c d : Collection ι δ} {i j : ι}
    (g : δ → δ) (h : c.lookup j = d.lookup j) :
    (c.updateOne i g).lookup j = (d.updateOne i g).lookup j := by
  by_cases hij : j = i
  · rw [← hij, Collection.lookup_updateOne, Collection.lookup_updateOne, h]
  · rw [Collection.lookup_updateOne_ne hij, Collection.lookup_updateOne_ne hij, h]

theorem lookup_erase_congr {ι δ : Type*} [DecidableEq ι] {c d : Collection ι δ} {i j : ι}
    (h : c.lookup j = d.lookup j) :
    AList.lookup j (c.erase i) = AList.lookup j (d.erase i) := by
  by_cases hij : j = i
  · rw [hij, AList.lookup_erase, AList.lookup_erase]
  · rw [AList.lookup_erase_ne hij, AList.lookup_erase_ne hij, h]

/-- The leader of a view is looked up among the endpoints, and a virtual environment gets or loses
it whatever the others are. -/
theorem applyLeaderChange_congr
    {endpoints endpoints' : Collection (Option String) (Document String Value)}
    {docs docs' : Collection String VirtualEnvironment} (eventStamp : EventStamp)
    (leaderIds : List String) (hendpoints : ∀ id, endpoints.lookup id = endpoints'.lookup id)
    (hdocs : ∀ id, docs.lookup id = docs'.lookup id) :
    (∀ id, (applyLeaderChange publishes eventStamp endpoints docs leaderIds).1.lookup id =
      (applyLeaderChange publishes eventStamp endpoints' docs' leaderIds).1.lookup id) ∧
    (applyLeaderChange publishes eventStamp endpoints docs leaderIds).2 =
      (applyLeaderChange publishes eventStamp endpoints' docs' leaderIds).2 := by
  have hleader : leaderIn endpoints leaderIds = leaderIn endpoints' leaderIds := by
    have hof (id : Option String) : virtualEnvironmentOf endpoints id =
        virtualEnvironmentOf endpoints' id := by
      unfold virtualEnvironmentOf
      rw [hendpoints]
    match leaderIds with
    | [] | _ :: _ :: _ => rfl
    | [leaderEndpointId] => simp only [leaderIn, hof]
  have hcleared (id : String) : (docs.updateMany VirtualEnvironment.clearLeader).lookup id =
      (docs'.updateMany VirtualEnvironment.clearLeader).lookup id := by
    rw [Collection.lookup_updateMany, Collection.lookup_updateMany, hdocs]
  unfold applyLeaderChange
  rw [hleader]
  rcases leaderIn endpoints' leaderIds with - | ⟨leaderEndpointId, - | virtualEnvironmentId⟩
  · exact ⟨hdocs, rfl⟩
  · exact ⟨hcleared, rfl⟩
  · exact ⟨fun id => lookup_updateOne_congr _ (hcleared id), rfl⟩

/-- What the handlers make of a topic depends on it and on what the event touches. -/
theorem sight_handle_congr (publishes : Bool) {r q : ReadModel} (eventStamp : EventStamp) {appended : List DomainEvent}
    (hsame : ∀ topic, event.touches topic = true →
      sight (r, appended) topic = sight (q, appended) topic)
    (htopic : sight (r, appended) topic = sight (q, appended) topic) :
    sight ((handle publishes eventStamp r event).1, appended) topic =
      sight ((handle publishes eventStamp q event).1, appended) topic := by
  obtain ⟨envelope, body⟩ := event
  cases body with
  | endpoint payload =>
    cases topic with
    | endpoint id => exact lookup_upsert_congr _ htopic
    | _ => exact htopic
  | function functionId version payload =>
    cases topic with
    | function key => exact lookup_upsert_congr _ htopic
    | _ => exact htopic
  | functionDeleted functionId version =>
    cases topic with
    | function key => exact lookup_upsert_congr _ htopic
    | _ => exact htopic
  | functionEndpointDetached functionId version =>
    cases topic with
    | function key => exact lookup_updateOne_congr _ htopic
    | _ => exact htopic
  | functionDeleteFailed functionId version failure => exact htopic
  | functionBuild functionId pythonVersion imageTag payload => exact htopic
  | consensus term payload =>
    show sight ((applyConsensus publishes eventStamp r _ term payload).1, appended) topic =
      sight ((applyConsensus publishes eventStamp q _ term payload).1, appended) topic
    rcases hleaders : payload.leaderIds? with - | leaderIds
    · rw [applyConsensus_of_none hleaders, applyConsensus_of_none hleaders]
      cases topic with
      | consensus term' => exact lookup_upsert_congr _ htopic
      | _ => exact htopic
    · rw [applyConsensus_of_some hleaders, applyConsensus_of_some hleaders]
      have hleads : payload.leaderIds?.isSome = true := by rw [hleaders]; rfl
      cases topic with
      | consensus term' => exact lookup_upsert_congr _ htopic
      | virtualEnvironment id =>
        exact (applyLeaderChange_congr eventStamp leaderIds (fun id => hsame (.endpoint id) hleads)
          fun id => hsame (.virtualEnvironment id) hleads).1 id
      | _ => exact htopic
  | job jobId functionId payload =>
    cases topic with
    | job id => exact lookup_upsert_congr _ htopic
    | _ => exact htopic
  | data name payload =>
    cases payload with
    | bucketCreated quotaBytes =>
      cases topic with
      | bucket name' => exact lookup_upsert_congr _ htopic
      | _ => exact htopic
    | registered version format kind totalSize totalChunks =>
      cases topic with
      | dataItem key => exact lookup_upsert_congr _ htopic
      | _ => exact htopic
    | uploadCompleted version =>
      cases topic with
      | dataItem key => exact lookup_updateOne_congr _ htopic
      | _ => exact htopic
    | deleted version =>
      cases topic with
      | dataItem key => exact lookup_erase_congr htopic
      | _ => exact htopic
  | userProfile payload =>
    cases topic with
    | userProfile userId =>
      cases payload with
      | created profilePhoto preferences => exact lookup_upsert_congr _ htopic
      | updated profilePhoto preferences => exact lookup_upsert_congr _ htopic
      | deleted => exact lookup_erase_congr htopic
    | _ => exact htopic
  | virtualEnv id payload =>
    cases topic with
    | virtualEnvironment id' =>
      cases payload with
      | created name ownerUserId resourceQuota => exact lookup_upsert_congr _ htopic
      | updated name resourceQuota =>
        exact lookup_upsert_congr (fun doc => VirtualEnvironment.save id name
          ((VirtualEnvironment.get doc).bind VirtualEnvironment.ownerUserId) resourceQuota doc) htopic
      | deleted => exact lookup_updateOne_congr _ htopic
      | leaderChanged leaderEndpointId => exact htopic
    | _ => exact htopic
  | choreography id payload =>
    cases topic with
    | choreography id' =>
      cases payload with
      | created name ownerUserId graph => exact lookup_upsert_congr _ htopic
      | updated name graph => exact lookup_upsert_congr _ htopic
      | deleted => exact lookup_updateOne_congr _ htopic
    | _ => exact htopic

theorem appended_handle_congr {r q : ReadModel} (eventStamp : EventStamp)
    (hsame : ∀ topic, event.touches topic = true → sight (r, []) topic = sight (q, []) topic) :
    (handle publishes eventStamp r event).2 = (handle publishes eventStamp q event).2 := by
  by_cases h : event.touches .appended = true
  · obtain ⟨envelope, body⟩ := event
    cases body with
    | consensus term payload =>
      show (applyConsensus publishes eventStamp r _ term payload).2 =
        (applyConsensus publishes eventStamp q _ term payload).2
      obtain ⟨leaderIds, hleaders⟩ := Option.isSome_iff_exists.1 h
      rw [applyConsensus_of_some hleaders, applyConsensus_of_some hleaders]
      exact (applyLeaderChange_congr eventStamp leaderIds (fun id => hsame (.endpoint id) h)
        fun id => hsame (.virtualEnvironment id) h).2
    | _ => exact absurd h Bool.false_ne_true
  · have h := Bool.of_not_eq_true h
    rw [appended_handle publishes h, appended_handle publishes h]

variable (publishes stamp) in
/-- An event touches what it touches, and no more. -/
theorem local_projectStep :
    Local sight DomainEvent.touches (projectStep publishes stamp) where
  frame s event topic h := sight_projectStep_of_not_touches h
  depends s t event hsame topic h := by
    -- the row of the event is written before the handlers are called
    have hlogged : ∀ topic, event.touches topic = true → ∀ appended,
        sight (s.1, appended) topic = sight (t.1, appended) topic →
          sight ({ s.1 with unifiedActivity := record s.1.unifiedActivity event }, appended) topic =
            sight ({ t.1 with unifiedActivity := record t.1.unifiedActivity event }, appended)
              topic := by
      intro topic _ appended htopic
      cases topic with
      | activity eventId => exact lookup_upsert_congr _ htopic
      | _ => exact htopic
    have hbare : ∀ appended topic, event.touches topic = true →
        sight ({ s.1 with unifiedActivity := record s.1.unifiedActivity event }, appended) topic =
          sight ({ t.1 with unifiedActivity := record t.1.unifiedActivity event }, appended)
            topic := by
      intro appended topic htouches
      refine hlogged topic htouches appended ?_
      have := hsame topic htouches
      cases topic with
      | appended => rfl
      | _ => exact this
    have hhandled := sight_handle_congr publishes (stamp event) (hbare [])
      (hbare [] topic h)
    cases topic with
    | appended =>
      show s.2 ++ _ = t.2 ++ _
      have hold : s.2 = t.2 := hsame .appended h
      rw [hold]
      exact congrArg (t.2 ++ ·) (appended_handle_congr (stamp event) (hbare []))
    | _ => exact hhandled

end Steps

/-- Every event has a row in the activity log. -/
theorem exists_touches (event : DomainEvent) : ∃ topic, event.touches topic = true :=
  ⟨.activity event.envelope.eventId, decide_eq_true rfl⟩

/-- The read model after a sequence of events, and the events appended meanwhile. -/
def projectAll (publishes : Bool) (stamp : DomainEvent → EventStamp) (s : ReadModel)
    (events : List DomainEvent) : ReadModel × List DomainEvent :=
  events.foldl (projectStep publishes stamp) (s, [])

/-- The documents are those that `project` leaves. -/
theorem fst_projectAll (publishes : Bool) (stamp : DomainEvent → EventStamp) (s : ReadModel)
    (events : List DomainEvent) : (projectAll publishes stamp s events).1 =
      project publishes stamp s events := by
  have hfold : ∀ appended, (events.foldl (projectStep publishes stamp) (s, appended)).1 =
      project publishes stamp s events := by
    induction events generalizing s with
    | nil => exact fun _ => rfl
    | cons event events ih => exact fun appended => ih _ _
  exact hfold []

/-- The order of the events on each topic is all that matters: two sequences that agree on it leave
the same documents, and append the same events. -/
theorem projectAll_eq_of_topics (publishes : Bool) (stamp : DomainEvent → EventStamp) (s : ReadModel)
    {events events' : List DomainEvent}
    (h : ∀ topic, events.filter (fun event => event.touches topic) =
      events'.filter fun event => event.touches topic) :
    sight (projectAll publishes stamp s events) = sight (projectAll publishes stamp s events') :=
  (local_projectStep publishes stamp).foldl_eq_of_filter_eq exists_touches h (s, [])

/-- A report of a leader. -/
def leaderReport : DomainEvent where
  envelope := { eventId := "e1", createdAt := "2024-01-01T00:00:00Z", endpointId := some "n" }
  body := .consensus 1 (.leaderElected ["n"])

/-- A bucket that is made by the same endpoint. -/
def bucketMade : DomainEvent where
  envelope := { eventId := "e2", createdAt := "2024-01-01T00:00:01Z", endpointId := some "n" }
  body := .data "a" (.bucketCreated 5)

theorem apart_leaderReport_bucketMade : Apart DomainEvent.touches leaderReport bucketMade := by
  intro topic h
  cases topic with
  | activity eventId =>
    have hid : "e1" = eventId := of_decide_eq_true h
    subst hid
    rfl
  | bucket name => cases h
  | _ => rfl

/-- The report of a leader may come before the bucket or after it. -/
theorem projectAll_eq_of_topics_bucketMade :
    sight (projectAll true (fun _ => ⟨"s", ""⟩) {} [leaderReport, bucketMade]) =
      sight (projectAll true (fun _ => ⟨"s", ""⟩) {} [bucketMade, leaderReport]) :=
  projectAll_eq_of_topics true _ {} fun topic => by
    have hapart := apart_leaderReport_bucketMade topic
    cases hreport : leaderReport.touches topic with
    | true => simp only [List.filter, hreport, hapart hreport]
    | false => cases hmade : bucketMade.touches topic <;> simp only [List.filter, hreport, hmade]

end Axo.Projector
