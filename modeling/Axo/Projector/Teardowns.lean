import Axo.Projector.FunctionLife
import Axo.Service.DeadHandles
import Axo.Wire.StateRoundTrip

/-!
# Teardowns

What becomes of the end of a container: `dismiss` of `service/container/spawner.py` with all its
callers, the bus events of a container, what `core/external/bridge.py` publishes of them, the
`container_status` that the projector keeps, and `delete_function.py` of the control plane, which
looks at it.

* `StopCause` is what a dismissal is for, `stopReasonOf` the reasons that `FunctionStopped` admits;
* `PooledContainer` is a handle with the reasons of the calls of `dismiss` that are under way;
* `TeardownPool.step` is one step of a container, or one event that is handed over the bus; an event
  comes at any time after what it is about;
* `told_of_reach` is the result for whole runs.
-/

namespace Axo.Projector

open Transition

/-! ### Reasons -/

/-- What `dismiss` is called for: a sweep, the clean-up before a spawn or an operator, and what the
runtime calls it for. -/
inductive StopCause
  | picked (reason : DismissReason)
  | crash
  | timeout
  | cancelled
  deriving DecidableEq

/-- The `reason` that the caller gives. -/
def StopCause.text : StopCause → String
  | .picked .idleTtl => "idle_ttl"
  | .picked .maxInvocations => "max_invocations"
  | .picked .crashed => "crashed"
  | .picked .stale => "stale_before_respawn"
  | .picked .operator => "dismissed"
  | .crash => "crashed"
  | .timeout => "timeout"
  | .cancelled => "cancelled"

/-- The validation of `FunctionStopped.reason`. -/
def stopReasonOf (text : String) : Option StopReason :=
  [StopReason.idleTtl, .maxInvocations, .dismissed].find? fun reason => reason.text = text

theorem text_of_stopReasonOf {text : String} {reason : StopReason}
    (h : stopReasonOf text = some reason) : reason.text = text := by
  unfold stopReasonOf at h
  simpa using List.find?_some h

/-! ### The events of a container -/

/-- What a bus event says of the containers of a version. -/
inductive ContainerNews
  /-- `FUNCTION_STOPPED_EVENT` -/
  | stopped (cause : StopCause)
  /-- `CONTAINER_SPAWNED_EVENT` and `CONTAINER_READY_EVENT` -/
  | deployed
  /-- `CONTAINER_CRASHED_EVENT` -/
  | deployFailed
  /-- `JOB_STARTED_EVENT` -/
  | activated (jobId : JobId)
  deriving DecidableEq

/-- A bus event that is to be emitted. -/
structure BusEvent where
  functionId : String
  version : ℤ
  news : ContainerNews
  deriving DecidableEq

/-- What an endpoint is configured with, and which versions run in containers. -/
structure EndpointSetup where
  endpointId : String
  maxInvocations : ℕ
  readinessTimeoutSeconds : String
  inContainers : String → ℤ → Bool

variable (setup : EndpointSetup)

/-- `on_function_deployed`, `on_function_deploy_failed`, `on_function_stopped`, and the second half
of `on_job_started`; `record` is what the registry of functions has then.  An event that the models
refuse is none. -/
def forwardNews (record : Option StoredFunction) (event : BusEvent) :
    FunctionSystem.Forwarded :=
  match event.news with
  | .stopped cause =>
    match FunctionSystem.runtimeTypeOf record, stopReasonOf cause.text with
    | some runtimeType, some reason =>
      some (.function event.functionId event.version (.stopped reason), runtimeType)
    | _, _ => none
  | .deployed => some (.function event.functionId event.version .deployed, some .container)
  | .deployFailed =>
    some (.function event.functionId event.version (.deployFailed
      { errorClass := "CONTAINER_ERROR"
        errorCode := 0
        component := "container_spawner"
        message := "container did not become ready within " ++ setup.readinessTimeoutSeconds ++
          "s" }), some .container)
  | .activated jobId =>
    (FunctionSystem.runtimeTypeOf record).map fun runtimeType =>
      (.function event.functionId event.version (.activated jobId), runtimeType)

/-- `_publish`. -/
def publishNews (record : Option StoredFunction) (stamp : EventStamp)
    (virtualEnvironmentId : Option String) (event : BusEvent) : Option DomainEvent :=
  (forwardNews setup record event).map fun result =>
    Sending.published
      { virtualEnvironmentId := virtualEnvironmentId
        event :=
          { envelope :=
              { eventId := stamp.eventId
                createdAt := stamp.createdAt
                endpointId := some setup.endpointId
                runtimeType := result.2 }
            body := result.1 } }

/-! ### The containers of an endpoint -/

/-- A handle, with what its calls of `dismiss` are for. -/
structure PooledContainer where
  functionId : String
  version : ℤ
  life : HandleLife := {}
  /-- the calls of the sweeps, of the clean-up before a spawn and of operators -/
  dismissals : List (DismissStage × DismissReason) := []
  /-- what the pump thread gives as a reason -/
  pumpCause : StopCause := .crash
  deriving DecidableEq

/-- A step of a container. -/
inductive ContainerAct
  /-- any step but those of the calls in `dismissals` -/
  | run (act : HandleAct)
  | select (reason : DismissReason)
  | dismiss (stage : DismissStage) (reason : DismissReason) (ok : Bool)

/-- A step of a call in `dismissals`. -/
def isPicked : HandleAct → Bool
  | .select _ | .dismiss _ _ => true
  | _ => false

namespace PooledContainer

variable (c : PooledContainer)

/-- The reason that `_handle_crash` or `_handle_timeout` gives. -/
def causeAfter : HandleAct → StopCause
  | .pump .crash => .crash
  | .pump .timeout => .timeout
  | _ => c.pumpCause

/-- The events that a step has to emit. -/
def emitted : HandleAct → List ContainerNews
  | .boot _ =>
    match c.life.boot with
    | .launched | .answered => [.deployed]
    | .overdue => [.deployFailed]
    | _ => []
  | .pump _ =>
    match c.life.pump with
    | .taken job => [.activated job]
    | .dismissing .removing _ => [.stopped c.pumpCause]
    | _ => []
  | .cancelStep (.dismissing .removing _) _ => [.stopped .cancelled]
  | _ => []

/-- The events of a call of `dismiss`: it has emitted none before the handle is removed. -/
def emittedBy (stage : DismissStage) (reason : DismissReason) : List ContainerNews :=
  if stage = .removing then [.stopped (.picked reason)] else []

/-- One step, with the events that it has to emit. -/
def step (maxInvocations : ℕ) : ContainerAct → Option (PooledContainer × List ContainerNews)
  | .run act =>
    if isPicked act = true then none
    else
      (c.life.step maxInvocations act).map fun life =>
        ({ c with life := life, pumpCause := c.causeAfter act }, c.emitted act)
  | .select reason =>
    (c.life.step maxInvocations (.select reason)).map fun life =>
      ({ c with life := life, dismissals := (.marking, reason) :: c.dismissals }, [])
  | .dismiss stage reason ok =>
    if (stage, reason) ∈ c.dismissals then
      (c.life.step maxInvocations (.dismiss stage ok)).map fun life =>
        let next := (c.life.fields.dismissStep ok stage).2.toList.map fun stage => (stage, reason)
        ({ c with life := life, dismissals := next ++ c.dismissals.erase (stage, reason) },
          emittedBy stage reason)
    else none

end PooledContainer

/-- The containers of an endpoint, the events that are to be emitted, what is published, and the
dismissals that are completed. -/
structure TeardownPool where
  containers : List PooledContainer := []
  pending : List BusEvent := []
  published : List DomainEvent := []
  completed : List BusEvent := []

inductive TeardownAct
  /-- `summon` or `summon_at` adds a handle -/
  | summon (functionId : String) (version maxDurationSeconds : ℤ)
  | container (i : ℕ) (act : ContainerAct)
  /-- an event is emitted, and goes to the bridge -/
  | emit (event : BusEvent) (record : Option StoredFunction) (stamp : EventStamp)
      (virtualEnvironmentId : Option String)
  /-- anything else is published -/
  | other (event : DomainEvent)

/-- A `FunctionStopped`. -/
def ContainerNews.isStopped : ContainerNews → Bool
  | .stopped _ => true
  | _ => false

/-- A `FunctionDeployed`, `FunctionActivated` or `FunctionStopped`. -/
def FunctionPayload.ofContainer : FunctionPayload → Bool
  | .deployed | .activated _ | .stopped _ => true
  | _ => false

/-- An event that the containers of this endpoint do not cause. -/
def isOther (event : DomainEvent) : Bool :=
  match event.body with
  | .function functionId version payload =>
    !setup.inContainers functionId version || !payload.ofContainer
  | _ => true

namespace TeardownPool

/-- A container after a step. -/
def setContainer (s : TeardownPool) (i : ℕ) (c : PooledContainer) (news : List ContainerNews) :
    TeardownPool :=
  let events := news.map fun news => ⟨c.functionId, c.version, news⟩
  { s with
    containers := s.containers.set i c
    pending := s.pending ++ events
    completed := s.completed ++ events.filter fun event => event.news.isStopped }

/-- One step, where it is possible. -/
def step (s : TeardownPool) : TeardownAct → Option TeardownPool
  | .summon functionId version maxDurationSeconds =>
    if setup.inContainers functionId version = true then
      some { s with
        containers := s.containers ++
          [{ functionId := functionId
             version := version
             life := { fields := { maxDurationSeconds := maxDurationSeconds } } }] }
    else none
  | .container i act =>
    match s.containers[i]? with
    | none => none
    | some c =>
      (c.step setup.maxInvocations act).map fun r => s.setContainer i r.1 r.2
  | .emit event record stamp virtualEnvironmentId =>
    if event ∈ s.pending then
      some { s with
        pending := s.pending.erase event
        published := s.published ++
          (publishNews setup record stamp virtualEnvironmentId event).toList }
    else none
  | .other event =>
    if isOther setup event = true then some { s with published := s.published ++ [event] }
    else none

end TeardownPool

/-! ### The control plane -/

/-- The `container_status` of a version, none without it. -/
def containerStatusIn (m : ReadModel) (functionId : String) (version : ℤ) : Option Value :=
  (m.functions.lookup (functionKey functionId version)).bind fun doc =>
    doc.fields "container_status"

/-- The errors of the control plane. -/
inductive ControlPlaneError
  | notFound (message : String)
  | conflict (message : String)
  deriving DecidableEq

def liveContainerError : ControlPlaneError :=
  .conflict "function has a live deployed container -- stop it before deleting"

/-- What `DeleteFunctionUseCase.execute` refuses to delete before it asks an endpoint; `jobs` are
those that `list_by_function` gives. -/
def deleteRefusal (m : ReadModel) (jobs : List Job) (functionId : String) (version : ℤ) :
    Option ControlPlaneError :=
  match m.functions.lookup (functionKey functionId version) with
  | none => some (.notFound "function version not found")
  | some doc =>
    if doc.fields "container_status" = some (.str "running") then some liveContainerError
    else if jobs.any (fun job => job.status = .queued || job.status = .started) = true then
      some (.conflict
        "function has jobs still queued or running -- wait for them to finish before deleting")
    else if doc.endpointId.getD [] = [] then
      some (.conflict "function has no recorded endpoint to route this request to")
    else none

/-- What an event says of the containers of a version. -/
def statusGiven (functionId : String) (version : ℤ) (event : DomainEvent) : Option String :=
  match event.body with
  | .function id v payload =>
    if id = functionId ∧ v = version then payload.containerStatus? else none
  | _ => none

/-- What the last event that says anything says. -/
def lastStatus (functionId : String) (version : ℤ) (events : List DomainEvent) : Option String :=
  (events.filterMap (statusGiven functionId version)).getLast?

/-! ### The status -/

variable {functionId : String} {version : ℤ} {event : DomainEvent}

/-- No event of a function carries the status itself. -/
theorem lookup_data_containerStatus {id : String} {v : ℤ} {payload : FunctionPayload}
    (hbody : event.body = .function id v payload) :
    event.data.lookup "container_status" = none := by
  unfold DomainEvent.data
  rw [hbody, List.lookup_append]
  cases payload <;> rfl

theorem fields_apply_containerStatus {id : String} {v : ℤ} {payload : FunctionPayload}
    (hbody : event.body = .function id v payload) (doc : Option FunctionDocument)
    (status endpointId : Option String) :
    (FunctionDocument.apply doc (withField event.data "container_status" status)
        endpointId).fields "container_status" =
      (status.map Value.str).or ((doc.getD {}).fields "container_status") := by
  unfold FunctionDocument.apply Document.set
  dsimp only
  rw [lookup_filter_ne _ (by decide)]
  cases status with
  | none => rw [withField, lookup_data_containerStatus hbody]; rfl
  | some status => rfl

/-- What an event does to the status. -/
theorem containerStatusIn_applyEvent (publishes : Bool) (stamp : EventStamp) (m : ReadModel)
    (event : DomainEvent) :
    containerStatusIn (applyEvent publishes stamp m event).1 functionId version =
      ((statusGiven functionId version event).map Value.str).or
        (containerStatusIn m functionId version) := by
  unfold containerStatusIn statusGiven
  rw [lookup_functions_applyEvent]
  unfold functionStep
  cases hbody : event.body with
  | function id v payload =>
    by_cases hsame : id = functionId ∧ v = version
    · simp only [hsame, and_self, if_true, Option.bind_some]
      rw [fields_apply_containerStatus hbody]
      cases m.functions.lookup (functionKey functionId version) <;> rfl
    · simp only [hsame, if_false, Option.map_none, Option.none_or]
  | functionDeleted id v =>
    by_cases hsame : id = functionId ∧ v = version
    · simp only [hsame, and_self, if_true, Option.bind_some, Option.map_none, Option.none_or]
      rw [FunctionDocument.fields_markDeleted _ _ (by decide)]
      cases m.functions.lookup (functionKey functionId version) <;> rfl
    · simp only [hsame, if_false, Option.map_none, Option.none_or]
  | functionEndpointDetached id v =>
    by_cases hsame : id = functionId ∧ v = version
    · simp only [hsame, and_self, if_true, Option.map_none, Option.none_or]
      cases m.functions.lookup (functionKey functionId version) <;> rfl
    · simp only [hsame, if_false, Option.map_none, Option.none_or]
  | _ => simp only [Option.map_none, Option.none_or]

theorem lastStatus_concat (functionId : String) (version : ℤ) (events : List DomainEvent)
    (event : DomainEvent) :
    lastStatus functionId version (events ++ [event]) =
      (statusGiven functionId version event).or (lastStatus functionId version events) := by
  unfold lastStatus
  rw [List.filterMap_append, List.getLast?_append]
  cases h : statusGiven functionId version event with
  | none => simp [h]
  | some status => simp [h]

/-- The status is what was said last. -/
theorem containerStatusIn_project (publishes : Bool) (stamp : DomainEvent → EventStamp)
    (m : ReadModel) (events : List DomainEvent) :
    containerStatusIn (project publishes stamp m events) functionId version =
      ((lastStatus functionId version events).map Value.str).or
        (containerStatusIn m functionId version) := by
  induction events using List.reverseRecOn with
  | nil => rfl
  | append_singleton events event ih =>
    rw [project_concat, containerStatusIn_applyEvent, ih, lastStatus_concat]
    cases statusGiven functionId version event <;> rfl

theorem deleteRefusal_ne_of_status {m : ReadModel}
    (h : containerStatusIn m functionId version = some (.str "stopped")) (jobs : List Job) :
    deleteRefusal m jobs functionId version ≠ some liveContainerError := by
  unfold containerStatusIn at h
  unfold deleteRefusal
  cases hdoc : m.functions.lookup (functionKey functionId version) with
  | none => simp [liveContainerError]
  | some doc =>
    rw [hdoc, Option.bind_some] at h
    have hstopped : ¬ doc.fields "container_status" = some (.str "running") := by
      rw [h]
      decide
    dsimp only
    rw [if_neg hstopped]
    split_ifs <;> simp [liveContainerError]

/-! ### What is told -/

/-- The reason in a bus event about the end of a container of the version. -/
def stopText (functionId : String) (version : ℤ) (event : BusEvent) : Option String :=
  match event.news with
  | .stopped cause =>
    if event.functionId = functionId ∧ event.version = version then some cause.text else none
  | _ => none

/-- The reason in a `FunctionStopped` of the version. -/
def publishedStop (functionId : String) (version : ℤ) (event : DomainEvent) : Option String :=
  match event.body with
  | .function id v (.stopped reason) =>
    if id = functionId ∧ v = version then some reason.text else none
  | _ => none

/-- The reasons of the dismissals of a version among bus events. -/
def stopTexts (functionId : String) (version : ℤ) (events : List BusEvent) : List String :=
  events.filterMap (stopText functionId version)

/-- The reasons of the published `FunctionStopped` of a version. -/
def publishedStops (functionId : String) (version : ℤ) (events : List DomainEvent) : List String :=
  events.filterMap (publishedStop functionId version)

namespace TeardownPool

variable (s : TeardownPool)

/-- A container of the version is in the pool, or its `FunctionStopped` is still to come. -/
def Expecting (functionId : String) (version : ℤ) : Prop :=
  (∃ c ∈ s.containers, (c.functionId = functionId ∧ c.version = version) ∧
      c.life.fields.inPool = true) ∨
    stopTexts functionId version s.pending ≠ []

/-- Every completed dismissal is published exactly once, or is still to come; and once the last
container of a version is gone and all its events are projected, the version is shown as stopped
and may be deleted as far as its containers go. -/
structure Told : Prop where
  once : ∀ functionId version, setup.inContainers functionId version = true →
    (publishedStops functionId version s.published ++
        stopTexts functionId version s.pending).Perm
      (stopTexts functionId version s.completed)
  shown : ∀ functionId version, setup.inContainers functionId version = true →
    stopTexts functionId version s.completed ≠ [] →
    (∀ c ∈ s.containers, c.functionId = functionId ∧ c.version = version →
      c.life.fields.inPool = false) →
    (∀ event ∈ s.pending, ¬ (event.functionId = functionId ∧ event.version = version)) →
    ∀ publishes stamp m,
      containerStatusIn (project publishes stamp m s.published) functionId version =
          some (.str "stopped") ∧
        ∀ jobs, deleteRefusal (project publishes stamp m s.published) jobs functionId version ≠
          some liveContainerError

/-- A dismissal is reported with a reason and a runtime that the models admit; and a version is only
reported as deployed or active while the end of one of its containers is still to be reported. -/
def Guard (s : TeardownPool) : TeardownAct → Prop
  | .emit event record _ _ =>
    match event.news with
    | .stopped cause =>
      (stopReasonOf cause.text).isSome = true ∧ (FunctionSystem.runtimeTypeOf record).isSome = true
    | .deployed => s.Expecting event.functionId event.version
    | .activated _ =>
      (FunctionSystem.runtimeTypeOf record).isSome = true →
        s.Expecting event.functionId event.version
    | .deployFailed => True
  | _ => True

/-- What carries `Told`: a version of which a container was dismissed is shown as stopped unless
more is to come. -/
structure Sound : Prop where
  once : ∀ functionId version, setup.inContainers functionId version = true →
    (publishedStops functionId version s.published ++
        stopTexts functionId version s.pending).Perm
      (stopTexts functionId version s.completed)
  last : ∀ functionId version, setup.inContainers functionId version = true →
    stopTexts functionId version s.completed ≠ [] →
    lastStatus functionId version s.published = some "stopped" ∨ s.Expecting functionId version

variable {setup} {s} {t : TeardownPool}

theorem Sound.told (h : s.Sound setup) : s.Told setup := by
  refine ⟨h.once, fun functionId version hcontainers hcompleted hgone hpending => ?_⟩
  intro publishes stamp m
  have hstatus : lastStatus functionId version s.published = some "stopped" := by
    rcases h.last functionId version hcontainers hcompleted with
      hlast | ⟨c, hc, hsame, hpool⟩ | htext
    · exact hlast
    · rw [hgone c hc hsame] at hpool
      cases hpool
    · refine absurd (List.filterMap_eq_nil_iff.2 fun event hevent => ?_) htext
      unfold stopText
      cases event.news with
      | stopped cause => exact if_neg (hpending event hevent)
      | deployed | deployFailed | activated _ => rfl
  have hshown : containerStatusIn (project publishes stamp m s.published) functionId version =
      some (.str "stopped") := by
    rw [containerStatusIn_project, hstatus]
    rfl
  exact ⟨hshown, deleteRefusal_ne_of_status hshown⟩

end TeardownPool

/-! ### Steps of a container -/

namespace PooledContainer

variable {n : ℕ} {c c' : PooledContainer} {news : List ContainerNews} {act : ContainerAct}

/-- A handle that is removed from the pool has its end to report. -/
theorem reported_of_run {act : HandleAct} {life : HandleLife} (hpicked : isPicked act = false)
    (h : c.life.step n act = some life) :
    life.fields.inPool = c.life.fields.inPool ∨ ∃ cause, .stopped cause ∈ c.emitted act := by
  cases act with
  | select reason => cases hpicked
  | dismiss stage ok => cases hpicked
  | assign job asAvailable =>
    simp only [HandleLife.step, Option.ite_none_right_eq_some, Option.some.injEq] at h
    exact .inl (by rw [← h.2])
  | boot ok =>
    simp only [HandleLife.step, Option.ite_none_left_eq_some, Option.some.injEq] at h
    refine .inl ?_
    rw [← h.2]
    exact HandleFields.inPool_bootStep _ _ _
  | job thread nameTaken =>
    simp only [HandleLife.step, Option.ite_none_right_eq_some, Option.some.injEq] at h
    refine .inl ?_
    rw [← h.2]
    exact (HandleFields.sameContainer_jobStep thread).2.2
  | cancel job =>
    simp only [HandleLife.step, Option.ite_none_right_eq_some, Option.some.injEq] at h
    exact .inl (by rw [← h.2])
  | pump p =>
    obtain ⟨r, hr, rfl⟩ := Option.map_eq_some_iff.1 h
    rcases HandleFields.container_pumpStep hr with ⟨hsame, -⟩ | ⟨d, job, ok, hstage, hfields, -⟩
    · exact .inl hsame.2.2
    · by_cases hd : d = .removing
      · refine .inr ⟨c.pumpCause, ?_⟩
        simp [emitted, hstage, hd]
      · refine .inl ?_
        dsimp only
        rw [hfields]
        exact HandleFields.inPool_dismissStep ok hd
  | cancelStep stage ok =>
    simp only [HandleLife.step, Option.ite_none_right_eq_some, Option.some.injEq] at h
    rcases HandleFields.container_cancelStep (f := c.life.fields) ok stage with
      ⟨hsame, -⟩ | ⟨d, job, rfl, hfields, -⟩
    · refine .inl ?_
      rw [← h.2]
      exact hsame.2.2
    · by_cases hd : d = .removing
      · subst hd
        exact .inr ⟨.cancelled, List.mem_singleton_self _⟩
      · refine .inl ?_
        rw [← h.2]
        dsimp only
        rw [hfields]
        exact HandleFields.inPool_dismissStep ok hd

/-- What a step leaves of the version and of the place in the pool. -/
theorem step_spec (h : c.step n act = some (c', news)) :
    (c'.functionId = c.functionId ∧ c'.version = c.version) ∧
      (c'.life.fields.inPool = c.life.fields.inPool ∨ ∃ cause, .stopped cause ∈ news) := by
  cases act with
  | run act =>
    simp only [step, Option.ite_none_left_eq_some, Option.map_eq_some_iff, Prod.mk.injEq] at h
    obtain ⟨hpicked, life, hlife, rfl, rfl⟩ := h
    exact ⟨⟨rfl, rfl⟩, reported_of_run (by simpa using hpicked) hlife⟩
  | select reason =>
    simp only [step, HandleLife.step, Option.map_eq_some_iff, Option.ite_none_right_eq_some,
      Option.some.injEq, Prod.mk.injEq] at h
    obtain ⟨life, ⟨-, rfl⟩, rfl, rfl⟩ := h
    exact ⟨⟨rfl, rfl⟩, .inl rfl⟩
  | dismiss stage reason ok =>
    simp only [step, HandleLife.step, Option.map_eq_some_iff, Option.ite_none_right_eq_some,
      Option.some.injEq, Prod.mk.injEq] at h
    obtain ⟨-, life, ⟨-, rfl⟩, rfl, rfl⟩ := h
    refine ⟨⟨rfl, rfl⟩, ?_⟩
    by_cases hd : stage = .removing
    · exact .inr ⟨.picked reason, by simp [emittedBy, hd]⟩
    · exact .inl (HandleFields.inPool_dismissStep ok hd)

end PooledContainer

/-! ### Steps of the pool -/

theorem stopTexts_append (events events' : List BusEvent) :
    stopTexts functionId version (events ++ events') =
      stopTexts functionId version events ++ stopTexts functionId version events' :=
  List.filterMap_append

/-- Only the events about the end of a container count. -/
theorem stopTexts_filter (events : List BusEvent) :
    stopTexts functionId version (events.filter fun event => event.news.isStopped) =
      stopTexts functionId version events := by
  unfold stopTexts
  rw [List.filterMap_filter]
  refine List.filterMap_congr fun event _ => ?_
  unfold stopText
  cases event.news <;> rfl

variable (functionId version) in
theorem stopTexts_erase {events : List BusEvent} {event : BusEvent} (h : event ∈ events) :
    (stopTexts functionId version events).Perm
      ((stopText functionId version event).toList ++
        stopTexts functionId version (events.erase event)) := by
  have hperm := (List.perm_cons_erase h).filterMap (stopText functionId version)
  unfold stopTexts
  cases htext : stopText functionId version event with
  | none => rwa [List.filterMap_cons_none htext] at hperm
  | some text => rwa [List.filterMap_cons_some htext] at hperm

variable (functionId version) in
theorem publishedStops_append (events : List DomainEvent) (out : Option DomainEvent) :
    publishedStops functionId version (events ++ out.toList) =
      publishedStops functionId version events ++
        (out.bind (publishedStop functionId version)).toList := by
  unfold publishedStops
  rw [List.filterMap_append]
  cases out with
  | none => rfl
  | some event =>
    rw [Option.toList_some, Option.bind_some]
    cases hstop : publishedStop functionId version event with
    | none => rw [List.filterMap_cons_none hstop]; rfl
    | some text => rw [List.filterMap_cons_some hstop]; rfl

theorem lastStatus_append (events : List DomainEvent) (out : Option DomainEvent) :
    lastStatus functionId version (events ++ out.toList) =
      (out.bind (statusGiven functionId version)).or (lastStatus functionId version events) := by
  cases out with
  | none => rw [Option.toList_none, List.append_nil]; rfl
  | some event => exact lastStatus_concat functionId version events event

namespace TeardownPool

variable {s t : TeardownPool} {i : ℕ} {c c' : PooledContainer} {news : List ContainerNews}

/-- A step of a container leaves something to come where there was. -/
theorem expecting_setContainer (hc : s.containers[i]? = some c)
    (hsame : c'.functionId = c.functionId ∧ c'.version = c.version)
    (hpool : c'.life.fields.inPool = c.life.fields.inPool ∨ ∃ cause, .stopped cause ∈ news)
    (h : s.Expecting functionId version) :
    (s.setContainer i c' news).Expecting functionId version := by
  rcases h with ⟨d, hd, hversion, hin⟩ | htexts
  · obtain ⟨j, hj⟩ := List.mem_iff_getElem?.1 hd
    by_cases hij : i = j
    · subst hij
      obtain rfl : c = d := Option.some.inj (hc.symm.trans hj)
      rcases hpool with hstay | ⟨cause, hcause⟩
      · refine .inl ⟨c', ?_, ⟨hsame.1.trans hversion.1, hsame.2.trans hversion.2⟩,
          hstay.trans hin⟩
        obtain ⟨hlt, -⟩ := List.getElem?_eq_some_iff.1 hc
        exact List.mem_set hlt c'
      · refine .inr fun hnil => ?_
        rw [setContainer, stopTexts_append, List.append_eq_nil_iff] at hnil
        have hmem : (⟨c'.functionId, c'.version, .stopped cause⟩ : BusEvent) ∈
            news.map fun news => ⟨c'.functionId, c'.version, news⟩ :=
          List.mem_map_of_mem hcause
        have htext : stopText functionId version ⟨c'.functionId, c'.version, .stopped cause⟩ =
            some cause.text := if_pos ⟨hsame.1.trans hversion.1, hsame.2.trans hversion.2⟩
        have hnone := List.filterMap_eq_nil_iff.1 hnil.2 _ hmem
        rw [htext] at hnone
        cases hnone
    · refine .inl ⟨d, List.mem_iff_getElem?.2 ⟨j, ?_⟩, hversion, hin⟩
      rw [setContainer, List.getElem?_set_ne hij]
      exact hj
  · refine .inr ?_
    rw [setContainer, stopTexts_append]
    exact List.append_ne_nil_of_left_ne_nil htexts _

variable {setup}

/-- A step of a container. -/
theorem Sound.setContainer (h : s.Sound setup) (hc : s.containers[i]? = some c)
    (hsame : c'.functionId = c.functionId ∧ c'.version = c.version)
    (hpool : c'.life.fields.inPool = c.life.fields.inPool ∨ ∃ cause, .stopped cause ∈ news) :
    (s.setContainer i c' news).Sound setup := by
  have hcompleted (functionId : String) (version : ℤ) :
      stopTexts functionId version (s.setContainer i c' news).completed =
        stopTexts functionId version s.completed ++ stopTexts functionId version
          (news.map fun news => ⟨c'.functionId, c'.version, news⟩) := by
    rw [TeardownPool.setContainer, stopTexts_append, stopTexts_filter]
  refine ⟨fun functionId version hcontainers => ?_, fun functionId version hcontainers hne => ?_⟩
  · rw [hcompleted, TeardownPool.setContainer, stopTexts_append, ← List.append_assoc]
    exact (h.once functionId version hcontainers).append_right _
  · rw [hcompleted] at hne
    by_cases hold : stopTexts functionId version s.completed = []
    · refine .inr (.inr ?_)
      rw [TeardownPool.setContainer, stopTexts_append]
      rw [hold, List.nil_append] at hne
      exact List.append_ne_nil_of_right_ne_nil _ hne
    · exact (h.last functionId version hcontainers hold).imp_right
        (expecting_setContainer hc hsame hpool)

/-- What an emitted event has to say for a version, if anything is published of it. -/
structure Heard (s : TeardownPool) (event : BusEvent) (out : Option DomainEvent)
    (functionId : String) (version : ℤ) : Prop where
  stop : out.bind (publishedStop functionId version) = stopText functionId version event
  status : out.bind (statusGiven functionId version) = some "stopped" ∨
    stopText functionId version event = none ∧
      (out.bind (statusGiven functionId version) = none ∨ s.Expecting functionId version)

/-- An event is taken from those that are to be emitted. -/
theorem Sound.emit (h : s.Sound setup) {event : BusEvent} {out : Option DomainEvent}
    (hevent : event ∈ s.pending)
    (hheard : ∀ functionId version, Heard s event out functionId version) :
    Sound setup { s with
      pending := s.pending.erase event
      published := s.published ++ out.toList } := by
  refine ⟨fun functionId version hcontainers => ?_, fun functionId version hcontainers hne => ?_⟩
  · dsimp only
    rw [publishedStops_append, (hheard functionId version).stop, List.append_assoc]
    exact ((stopTexts_erase functionId version hevent).symm.append_left _).trans
      (h.once functionId version hcontainers)
  · dsimp only
    rw [lastStatus_append]
    rcases (hheard functionId version).status with hstopped | ⟨hnone, hstatus⟩
    · rw [hstopped]
      exact .inl rfl
    · have hexpecting (hs : s.Expecting functionId version) :
          Expecting { s with
            pending := s.pending.erase event
            published := s.published ++ out.toList } functionId version := by
        refine hs.imp_right fun htexts hnil => htexts ?_
        have hperm := stopTexts_erase functionId version hevent
        rw [hnone, hnil] at hperm
        exact hperm.eq_nil
      rcases hstatus with hsilent | hs
      · rw [hsilent, Option.none_or]
        exact (h.last functionId version hcontainers hne).imp_right hexpecting
      · exact .inr (hexpecting hs)

/-- What is published of an event that the guard lets pass. -/
theorem heard_of_guard {event : BusEvent} {record : Option StoredFunction} {stamp : EventStamp}
    {virtualEnvironmentId : Option String}
    (hguard : s.Guard (.emit event record stamp virtualEnvironmentId)) (functionId : String)
    (version : ℤ) :
    Heard s event (publishNews setup record stamp virtualEnvironmentId event) functionId
      version := by
  obtain ⟨id, v, news⟩ := event
  cases news with
  | stopped cause =>
    obtain ⟨hreason, hruntime⟩ := hguard
    obtain ⟨reason, hreason⟩ := Option.isSome_iff_exists.1 hreason
    obtain ⟨runtimeType, hruntime⟩ := Option.isSome_iff_exists.1 hruntime
    unfold publishNews forwardNews
    simp only [hruntime, hreason, Option.map_some]
    by_cases hsame : id = functionId ∧ v = version
    · refine ⟨?_, .inl (if_pos hsame)⟩
      refine (if_pos hsame).trans ((congrArg some (text_of_stopReasonOf hreason)).trans ?_)
      exact (if_pos hsame).symm
    · exact ⟨(if_neg hsame).trans (if_neg hsame).symm,
        .inr ⟨if_neg hsame, .inl (if_neg hsame)⟩⟩
  | deployed =>
    by_cases hsame : id = functionId ∧ v = version
    · obtain ⟨rfl, rfl⟩ := hsame
      exact ⟨rfl, .inr ⟨rfl, .inr hguard⟩⟩
    · exact ⟨rfl, .inr ⟨rfl, .inl (if_neg hsame)⟩⟩
  | deployFailed =>
    by_cases hsame : id = functionId ∧ v = version
    · exact ⟨rfl, .inl (if_pos hsame)⟩
    · exact ⟨rfl, .inr ⟨rfl, .inl (if_neg hsame)⟩⟩
  | activated jobId =>
    unfold publishNews forwardNews
    dsimp only
    cases hruntime : FunctionSystem.runtimeTypeOf record with
    | none => exact ⟨rfl, .inr ⟨rfl, .inl rfl⟩⟩
    | some runtimeType =>
      by_cases hsame : id = functionId ∧ v = version
      · obtain ⟨rfl, rfl⟩ := hsame
        exact ⟨rfl, .inr ⟨rfl, .inr (hguard (by rw [hruntime]; rfl))⟩⟩
      · exact ⟨rfl, .inr ⟨rfl, .inl (if_neg hsame)⟩⟩

/-- Something else is published. -/
theorem Sound.other (h : s.Sound setup) {event : DomainEvent}
    (hother : isOther setup event = true) :
    Sound setup { s with published := s.published ++ [event] } := by
  have hsilent (functionId : String) (version : ℤ)
      (hcontainers : setup.inContainers functionId version = true) :
      publishedStop functionId version event = none ∧
        (statusGiven functionId version event = none ∨
          statusGiven functionId version event = some "stopped") := by
    unfold isOther at hother
    unfold publishedStop statusGiven
    cases hbody : event.body with
    | function id v payload =>
      rw [hbody] at hother
      by_cases hsame : id = functionId ∧ v = version
      · obtain ⟨rfl, rfl⟩ := hsame
        simp only [hcontainers, Bool.not_true, Bool.false_or, Bool.not_eq_true'] at hother
        cases payload with
        | deployed | activated _ | stopped _ => cases hother
        | registered _ _ _ _ | registerFailed _ | updated _ _ =>
          exact ⟨rfl, .inl (if_pos ⟨rfl, rfl⟩)⟩
        | deployFailed _ | deactivated _ | crashed => exact ⟨rfl, .inr (if_pos ⟨rfl, rfl⟩)⟩
      · refine ⟨?_, .inl (if_neg hsame)⟩
        cases payload with
        | stopped reason => exact if_neg hsame
        | _ => rfl
    | _ => exact ⟨rfl, .inl rfl⟩
  refine ⟨fun functionId version hcontainers => ?_, fun functionId version hcontainers hne => ?_⟩
  · have happend := publishedStops_append functionId version s.published (some event)
    rw [Option.bind_some, (hsilent functionId version hcontainers).1] at happend
    exact (happend.trans (List.append_nil _)) ▸ h.once functionId version hcontainers
  · dsimp only
    rw [lastStatus_concat]
    rcases (hsilent functionId version hcontainers).2 with hnone | hstopped
    · rw [hnone, Option.none_or]
      exact h.last functionId version hcontainers hne
    · rw [hstopped]
      exact .inl rfl

/-- One step. -/
theorem Sound.step (h : s.Sound setup) {act : TeardownAct} (hguard : s.Guard act)
    (hstep : TeardownPool.step setup s act = some t) : t.Sound setup := by
  cases act with
  | summon functionId version maxDurationSeconds =>
    simp only [TeardownPool.step, Option.ite_none_right_eq_some, Option.some.injEq] at hstep
    obtain ⟨-, rfl⟩ := hstep
    refine ⟨h.once, fun f v hcontainers hne => ?_⟩
    refine (h.last f v hcontainers hne).imp_right fun hs => ?_
    exact hs.imp_left fun ⟨c, hc, hrest⟩ => ⟨c, List.mem_append_left _ hc, hrest⟩
  | container i act =>
    simp only [TeardownPool.step] at hstep
    split at hstep
    · cases hstep
    · next c hc =>
      obtain ⟨⟨c', news⟩, hr, rfl⟩ := Option.map_eq_some_iff.1 hstep
      obtain ⟨hsame, hpool⟩ := PooledContainer.step_spec hr
      exact h.setContainer hc hsame hpool
  | emit event record stamp virtualEnvironmentId =>
    simp only [TeardownPool.step, Option.ite_none_right_eq_some, Option.some.injEq] at hstep
    obtain ⟨hevent, rfl⟩ := hstep
    exact h.emit hevent (heard_of_guard hguard)
  | other event =>
    simp only [TeardownPool.step, Option.ite_none_right_eq_some, Option.some.injEq] at hstep
    obtain ⟨hother, rfl⟩ := hstep
    exact h.other hother

/-- In every run in which dismissals are only reported for a reason that `FunctionStopped` admits,
and no version is reported as deployed or active after the end of its last container: each completed
dismissal is published exactly once, and the read model shows the version as stopped. -/
theorem told_of_reach (setup : EndpointSetup) {s : TeardownPool}
    (hreach : Reach (TeardownPool.step setup) Guard {} s) : s.Told setup := by
  have h0 : Sound setup {} := ⟨fun _ _ _ => .refl _, fun _ _ _ hne => absurd rfl hne⟩
  exact (hreach.invariant h0 fun _ _ _ h hguard hstep => h.step hguard hstep).told

/-! ### One container -/

instance (s : TeardownPool) (functionId : String) (version : ℤ) :
    Decidable (s.Expecting functionId version) := inferInstanceAs (Decidable (_ ∨ _))

instance (s : TeardownPool) : ∀ act, Decidable (s.Guard act)
  | .emit ⟨_, _, .stopped _⟩ _ _ _ => inferInstanceAs (Decidable (_ ∧ _))
  | .emit ⟨functionId, version, .deployed⟩ _ _ _ =>
    inferInstanceAs (Decidable (s.Expecting functionId version))
  | .emit ⟨_, _, .activated _⟩ _ _ _ => inferInstanceAs (Decidable (_ → _))
  | .emit ⟨_, _, .deployFailed⟩ _ _ _ => isTrue trivial
  | .summon _ _ _ | .container _ _ | .other _ => isTrue trivial

/-- All functions run in containers. -/
def addSetup : EndpointSetup where
  endpointId := "axo-1"
  maxInvocations := 0
  readinessTimeoutSeconds := "60"
  inContainers := fun _ _ => true

/-- A step of the first container, and an event about it. -/
def runFirst (act : HandleAct) : TeardownAct := .container 0 (.run act)

def emitFirst (news : ContainerNews) : TeardownAct :=
  .emit ⟨"f1", 1, news⟩ (some addFunction) ⟨"e", "2024-01-01T00:00:00Z"⟩ none

/-- A container is started and given a job, which is sent to it. -/
def servingRun : List TeardownAct :=
  .summon "f1" 1 0 :: ((List.replicate 3 (runFirst (.boot true)) ++ [emitFirst .deployed]) ++
    (List.replicate 4 (runFirst (.boot true)) ++ [emitFirst .deployed]) ++
    (runFirst (.assign "j1" true) ::
      [.placed, .ensuring, .looking, .creating, .marking, .putting].map fun stage =>
        runFirst (.job ⟨"j1", false, stage⟩ false)) ++
    (List.replicate 4 (runFirst (.pump .go)) ++ [emitFirst (.activated "j1")]))

/-- The job is done, and the container is swept when it has been idle for long enough. -/
def idleRun : List TeardownAct :=
  servingRun ++
    [runFirst (.pump (.result true)), runFirst (.pump .go), runFirst (.pump .go),
      .container 0 (.select .idleTtl), .container 0 (.dismiss .marking .idleTtl true),
      .container 0 (.dismiss .stopping .idleTtl true),
      .container 0 (.dismiss .removing .idleTtl true), emitFirst (.stopped (.picked .idleTtl))]

/-- The container crashes with the job. -/
def crashRun : List TeardownAct :=
  servingRun ++
    (runFirst (.pump .crash) :: runFirst (.pump .go) ::
      (List.replicate 3 (runFirst (.pump (.stopped true))) ++ [emitFirst (.stopped .crash)]))

/-- Nothing is left of the containers of the function. -/
def isQuiet (s : TeardownPool) : Bool :=
  decide (s.pending = []) && s.containers.all fun c => !c.life.fields.inPool

/-- The end of an idle container is published. -/
theorem told_idleContainer : ∃ s, Reach (step addSetup) Guard {} s ∧ s.Told addSetup ∧
    publishedStops "f1" 1 s.published = ["idle_ttl"] := by
  obtain ⟨s, hreach, htest⟩ := exists_reach_of_guarded_run (step addSetup) Guard {}
    (fun s => isQuiet s && decide (publishedStops "f1" 1 s.published = ["idle_ttl"])) idleRun
    (by decide +kernel)
  exact ⟨s, hreach, told_of_reach addSetup hreach,
    of_decide_eq_true (Bool.and_eq_true_iff.1 htest).2⟩

/-- That of a crashed one is not, and the function is shown as running for good. -/
theorem not_told_crashedContainer :
    ∃ s, Reach (step addSetup) Always {} s ∧ ¬ s.Told addSetup ∧
      lastStatus "f1" 1 s.published = some "running" ∧ isQuiet s = true := by
  obtain ⟨s, hreach, htest⟩ := exists_reach_of_run (step addSetup) {}
    (fun s => isQuiet s && (decide (stopTexts "f1" 1 s.completed = ["crashed"]) &&
      (decide (publishedStops "f1" 1 s.published = []) &&
        decide (lastStatus "f1" 1 s.published = some "running")))) crashRun (by decide +kernel)
  simp only [Bool.and_eq_true, decide_eq_true_eq] at htest
  obtain ⟨hquiet, hcompleted, hpublished, hstatus⟩ := htest
  refine ⟨s, hreach, fun htold => ?_, hstatus, hquiet⟩
  have hpending : s.pending = [] := of_decide_eq_true (Bool.and_eq_true_iff.1 hquiet).1
  have honce := htold.once "f1" 1 rfl
  rw [hcompleted, hpublished, hpending] at honce
  exact absurd honce.length_eq (by decide)

end TeardownPool

end Axo.Projector
