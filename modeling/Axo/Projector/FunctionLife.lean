import Axo.Functions.FunctionVersions
import Axo.Projector.FunctionDocs
import Axo.Wire.RecordBlobs

/-!
# Deleted functions

The registries of the endpoints, the function events that `core/external/bridge.py` makes of what
happens there, and the documents that the projector keeps of these.

* `FunctionSystem.step` is one operation at one endpoint: a call of its registry, a record or a
  tombstone that `RegistrySyncBridge.apply_incoming` takes over from the leader, or a worker that is
  deployed, used, stopped or lost;
* `Mirrors` says that the documents are marked as deleted where the functions are;
* `mirrored_throughout_iff`: a document is never unmarked, so this holds exactly as long as no
  version is registered after its deletion.
-/

namespace Axo.Projector

open Transition

variable {functionId : String} {version : ℤ}

/-! ### Operations and their events -/

/-- What happens at an endpoint. -/
inductive FunctionOperation
  | call (call : FunctionCall)
  /-- one round of the loop of `apply_incoming`: a record, or a tombstone -/
  | applyEntry (functionId : String) (version : ℤ) (record : Option StoredFunction)
  /-- a worker of the function is deployed, used, stopped or lost -/
  | worker (functionId : String) (version : ℤ) (runtimeType : Option RuntimeType)
      (payload : FunctionPayload)

/-- An operation, with what the events that it publishes are stamped with. -/
structure FunctionAct where
  endpointId : String
  virtualEnvironmentId : Option String := none
  stamp : EventStamp
  operation : FunctionOperation

/-- The registries, and what the endpoints have published so far. -/
structure FunctionSystem where
  registries : String → FunctionBackend
  published : List DomainEvent

namespace FunctionSystem

/-- No function is registered anywhere. -/
def init : FunctionSystem where
  registries := fun _ => .empty
  published := []

/-- The `runtime_type` that an event takes from a record, none where the envelope does not admit the
type of its runtime spec. -/
def runtimeTypeOf (record : Option StoredFunction) : Option (Option RuntimeType) :=
  match record.bind StoredFunction.runtimeSpec with
  | none => some none
  | some spec =>
    if spec.type = "process" then some (some .process)
    else if spec.type = "container" then some (some .container)
    else none

/-- `params_schema_to_list(record.params_schema) if record else None`. -/
def paramsSchemaOf (record : Option StoredFunction) : Option (List Value) :=
  record.map fun record => (record.paramsSchema.getD []).map ParamSpec.toDict

/-- `record.runtime_spec.to_dict() if record and record.runtime_spec else None`. -/
def runtimeSpecOf (floats : PyFloats) (record : Option StoredFunction) : Option Fields :=
  match record.bind StoredFunction.runtimeSpec with
  | none => none
  | some spec =>
    match spec.toDict floats with
    | .dict fields => some fields
    | _ => none

/-- The body and the `runtime_type` of a function event, which is not published when none. -/
abbrev Forwarded := Option (EventBody × Option RuntimeType)

/-- `on_function_event`. -/
def onFunctionEvent (floats : PyFloats) (registry : FunctionBackend) (functionId : String)
    (version : ℤ) : Forwarded :=
  let record := registry.get { id := functionId, version := some version }
  (runtimeTypeOf record).map fun runtimeType =>
    (.function functionId version
      (.registered (record.map StoredFunction.name) (runtimeSpecOf floats record)
        (paramsSchemaOf record) none), runtimeType)

/-- `on_function_updated`. -/
def onFunctionUpdated (registry : FunctionBackend) (functionId : String) (version : ℤ) :
    Forwarded :=
  let record := registry.get { id := functionId, version := some version }
  let envVars := (record.bind StoredFunction.runtimeSpec).map fun spec =>
    spec.envVars.entries.map fun entry => (entry.1, entry.2)
  some (.function functionId version (.updated (paramsSchemaOf record) envVars), none)

/-- What the bridge makes of an event of the registry; an event without a version is refused by the
models. -/
def forward (floats : PyFloats) (registry : FunctionBackend) (event : FunctionEvent) : Forwarded :=
  match event.version with
  | none => none
  | some version =>
    if event.eventType = "REGISTERED" ∨ event.eventType = "FUNCTION_REPLICATED" then
      onFunctionEvent floats registry event.functionId version
    else if event.eventType = "FUNCTION_UPDATED" then
      onFunctionUpdated registry event.functionId version
    else if event.eventType = "FUNCTION_DELETED" then
      some (.functionDeleted event.functionId version, none)
    else none

/-- The registry after a call that may have failed, and the event that the call emits. -/
def afterCall (registry : FunctionBackend) :
    Except AxoError (FunctionBackend × FunctionEvent) → FunctionBackend × Option FunctionEvent
  | .error _ => (registry, none)
  | .ok (registry', event) => (registry', some event)

/-- What an operation does to the registry of the endpoint, and the event that it emits. -/
def perform (registry : FunctionBackend) :
    FunctionOperation → FunctionBackend × Option FunctionEvent
  | .call (.register functionId name code now runtimeSpec codeFormat paramsSchema) =>
    let result := registry.register functionId name code now runtimeSpec codeFormat paramsSchema
    (result.1, some result.2.2)
  | .call (.update key paramsSchema envVars) =>
    afterCall registry (FunctionBackend.update registry key paramsSchema envVars)
  | .call (.transition key target) => afterCall registry (registry.transition key target)
  | .call (.delete key) => afterCall registry (FunctionBackend.delete registry key)
  | .applyEntry functionId version record =>
    let key : StorageKey := { id := functionId, version := version, keyAlias := some functionId }
    match record with
    | none => (InMemoryStorageBackend.delete registry key, none)
    | some record => (registry.put key record, some (FunctionBackend.event "FUNCTION_REPLICATED" key))
  | .worker .. => (registry, none)

/-- The events of workers: those of `FUNCTION_EVENT_TYPES` that no registry emits. -/
def IsWorkerPayload : FunctionPayload → Prop
  | .registered .. | .updated _ _ => False
  | _ => True

instance : ∀ payload : FunctionPayload, Decidable (IsWorkerPayload payload)
  | .registered .. | .updated _ _ => .isFalse id
  | .registerFailed _ | .deployed | .deployFailed _ | .activated _ | .deactivated _ | .stopped _
  | .crashed => .isTrue trivial

/-- The body of the event that an operation publishes. -/
def forwarded (floats : PyFloats) (s : FunctionSystem) (act : FunctionAct) : Forwarded :=
  match act.operation with
  | .worker functionId version runtimeType payload =>
    if IsWorkerPayload payload then some (.function functionId version payload, runtimeType)
    else none
  | operation =>
    let result := perform (s.registries act.endpointId) operation
    result.2.bind (forward floats result.1)

/-- The event that an operation publishes. -/
def event? (floats : PyFloats) (s : FunctionSystem) (act : FunctionAct) : Option DomainEvent :=
  (forwarded floats s act).map fun result =>
    Sending.published
      { virtualEnvironmentId := act.virtualEnvironmentId
        event :=
          { envelope :=
              { eventId := act.stamp.eventId
                createdAt := act.stamp.createdAt
                endpointId := some act.endpointId
                runtimeType := result.2 }
            body := result.1 } }

/-- One operation. -/
def step (floats : PyFloats) (s : FunctionSystem) (act : FunctionAct) : Option FunctionSystem :=
  some
    { registries := Function.update s.registries act.endpointId
        (perform (s.registries act.endpointId) act.operation).1
      published := s.published ++ (event? floats s act).toList }

end FunctionSystem

/-! ### Marks -/

/-- Whether the document has `deleted_at` set, which the listings look for. -/
def FunctionDocument.deleted (doc : FunctionDocument) : Bool :=
  match doc.fields "deleted_at" with
  | none | some .none => false
  | some _ => true

/-- The mark of the document, none without one. -/
def deletedIn (s : ReadModel) (functionId : String) (version : ℤ) : Option Bool :=
  (s.functions.lookup (functionKey functionId version)).map FunctionDocument.deleted

/-- A `FunctionDeleted` of the version. -/
def deletesFunction (functionId : String) (version : ℤ) (event : DomainEvent) : Bool :=
  match event.body with
  | .functionDeleted id v => decide (id = functionId ∧ v = version)
  | _ => false

/-- The version that a `FunctionRegistered` is about. -/
def registered? (event : DomainEvent) : Option (String × ℤ) :=
  match event.body with
  | .function id v (.registered ..) => some (id, v)
  | _ => none

theorem registersFunction_iff {event : DomainEvent} :
    registersFunction functionId version event = true ↔
      registered? event = some (functionId, version) := by
  unfold registersFunction
  split
  · rename_i hbody
    simp [registered?, hbody]
  · rename_i hbody
    refine iff_of_false Bool.false_ne_true fun h => ?_
    unfold registered? at h
    split at h
    · rename_i hregistered
      exact hbody _ _ _ _ _ _ hregistered
    · cases h

/-- Whether a `FunctionRegistered` or `FunctionDeleted` of the version is the latter. -/
def mark? (functionId : String) (version : ℤ) (event : DomainEvent) : Option Bool :=
  if registersFunction functionId version event then some false
  else if deletesFunction functionId version event then some true
  else none

/-- Whether the last of `FunctionRegistered` and `FunctionDeleted` for the version is the latter. -/
def lastMark (functionId : String) (version : ℤ) (events : List DomainEvent) : Option Bool :=
  (events.filterMap (mark? functionId version)).getLast?

theorem lastMark_concat (functionId : String) (version : ℤ) (events : List DomainEvent)
    (event : DomainEvent) :
    lastMark functionId version (events ++ [event]) =
      (mark? functionId version event).or (lastMark functionId version events) := by
  unfold lastMark
  rw [List.filterMap_append, List.getLast?_append]
  cases h : mark? functionId version event with
  | none => simp [h]
  | some deleted => simp [h]

theorem updatesFunction_of_registersFunction {event : DomainEvent}
    (h : registersFunction functionId version event = true) :
    updatesFunction functionId version event = true := by
  unfold registersFunction at h
  unfold updatesFunction
  split at h
  · rename_i hbody
    rw [hbody]
    exact h
  · cases h

theorem not_deletesFunction_of_updatesFunction {event : DomainEvent}
    (h : updatesFunction functionId version event = true) :
    deletesFunction functionId version event = false := by
  unfold updatesFunction at h
  unfold deletesFunction
  split at h
  · rename_i hbody
    rw [hbody]
  · cases h

theorem lookup_data_deletedAt {event : DomainEvent} {id : String} {v : ℤ}
    {payload : FunctionPayload} (hbody : event.body = .function id v payload) :
    event.data.lookup "deleted_at" = none := by
  unfold DomainEvent.data
  rw [hbody, List.lookup_append]
  cases payload <;> rfl

/-- No update of a document changes its mark. -/
theorem FunctionDocument.deleted_apply {event : DomainEvent} {id : String} {v : ℤ}
    {payload : FunctionPayload} (hbody : event.body = .function id v payload)
    (doc : Option FunctionDocument) (status endpointId : Option String) :
    (FunctionDocument.apply doc (withField event.data "container_status" status)
        endpointId).deleted = (doc.map FunctionDocument.deleted).getD false := by
  unfold FunctionDocument.deleted
  rw [FunctionDocument.fields_apply _ _ _ _ (by decide) (by decide), lookup_data_deletedAt hbody,
    Option.none_or]
  cases doc <;> rfl

/-- What an event does to the mark. -/
theorem deletedIn_applyEvent (functionId : String) (version : ℤ) (publishes : Bool)
    (stamp : EventStamp) (s : ReadModel) (event : DomainEvent) :
    deletedIn (applyEvent publishes stamp s event).1 functionId version =
      if updatesFunction functionId version event then
        some ((deletedIn s functionId version).getD false)
      else if deletesFunction functionId version event then some true
      else deletedIn s functionId version := by
  unfold deletedIn updatesFunction deletesFunction
  rw [lookup_functions_applyEvent]
  unfold functionStep
  cases hbody : event.body with
  | function id v payload =>
    by_cases hsame : id = functionId ∧ v = version
    · simp only [hsame, and_self, if_true, decide_true, Option.map_some]
      rw [FunctionDocument.deleted_apply hbody]
    · simp only [hsame, if_false, decide_false, Bool.false_eq_true]
  | functionDeleted id v =>
    by_cases hsame : id = functionId ∧ v = version
    · simp only [hsame, and_self, if_true, decide_true, Bool.false_eq_true, if_false,
        Option.map_some]
      rfl
    · simp only [hsame, if_false, decide_false, Bool.false_eq_true]
  | functionEndpointDetached id v =>
    by_cases hsame : id = functionId ∧ v = version
    · simp only [hsame, and_self, if_true, Bool.false_eq_true, if_false, Option.map_map]
      rfl
    · simp only [hsame, if_false, Bool.false_eq_true]
  | _ => simp only [Bool.false_eq_true, if_false]

theorem mark?_of_registersFunction {event : DomainEvent}
    (h : registersFunction functionId version event = true) :
    mark? functionId version event = some false := if_pos h

theorem mark?_of_deletesFunction {event : DomainEvent}
    (h : deletesFunction functionId version event = true) :
    mark? functionId version event = some true := by
  have hregisters : ¬ registersFunction functionId version event = true := fun hregisters => by
    rw [not_deletesFunction_of_updatesFunction
      (updatesFunction_of_registersFunction hregisters)] at h
    cases h
  unfold mark?
  rw [if_neg hregisters, if_pos h]

theorem mark?_of_not {event : DomainEvent}
    (hregisters : ¬ registersFunction functionId version event = true)
    (hdeletes : ¬ deletesFunction functionId version event = true) :
    mark? functionId version event = none := by
  unfold mark?
  rw [if_neg hregisters, if_neg hdeletes]

/-- The mark of a document is right for what was last said of the version. -/
structure RightMark (mark last : Option Bool) : Prop where
  deleted : mark = some true ↔ last = some true
  listed : last = some false → mark = some false

/-- A mark that is right before an event is wrong after it only when the event registers a version
that was deleted. -/
theorem RightMark.applyEvent_iff {publishes : Bool} {stamp : EventStamp} {s : ReadModel}
    {events : List DomainEvent} {event : DomainEvent}
    (h : RightMark (deletedIn s functionId version) (lastMark functionId version events)) :
    RightMark (deletedIn (applyEvent publishes stamp s event).1 functionId version)
        (lastMark functionId version (events ++ [event])) ↔
      (registersFunction functionId version event = true →
        lastMark functionId version events ≠ some true) := by
  rw [lastMark_concat, deletedIn_applyEvent]
  by_cases hregisters : registersFunction functionId version event = true
  · rw [if_pos (updatesFunction_of_registersFunction hregisters),
      mark?_of_registersFunction hregisters, Option.some_or, Ne, ← h.deleted]
    constructor
    · intro hright _ hdeleted
      have hlisted := hright.listed rfl
      rw [hdeleted] at hlisted
      cases hlisted
    · intro hfresh
      have hlisted : (deletedIn s functionId version).getD false = false := by
        have hne := hfresh hregisters
        cases hmark : deletedIn s functionId version with
        | none => rfl
        | some deleted =>
          rw [hmark] at hne
          cases deleted with
          | true => exact absurd rfl hne
          | false => rfl
      rw [hlisted]
      exact ⟨by simp, fun _ => rfl⟩
  · refine iff_of_true ?_ fun h' => absurd h' hregisters
    by_cases hdeletes : deletesFunction functionId version event = true
    · have hupdates : ¬ updatesFunction functionId version event = true := fun hupdates => by
        rw [not_deletesFunction_of_updatesFunction hupdates] at hdeletes
        cases hdeletes
      rw [if_neg hupdates, if_pos hdeletes, mark?_of_deletesFunction hdeletes, Option.some_or]
      exact ⟨Iff.rfl, fun h' => by cases h'⟩
    · rw [mark?_of_not hregisters hdeletes, Option.none_or, if_neg hdeletes]
      split_ifs
      · refine ⟨Iff.trans ?_ h.deleted, fun hlast => by rw [h.listed hlast]; rfl⟩
        cases deletedIn s functionId version <;> simp
      · exact h

/-! ### Runs -/

namespace FunctionSystem

variable {publishes : Bool} {stamp : DomainEvent → EventStamp} {floats : PyFloats}
  {s t : FunctionSystem} {act : FunctionAct}

/-- The documents are marked as deleted where the functions are, and a registered function is
listed. -/
def Mirrors (publishes : Bool) (stamp : DomainEvent → EventStamp) (s : FunctionSystem) : Prop :=
  ∀ functionId version,
    RightMark (deletedIn (project publishes stamp {} s.published) functionId version)
      (lastMark functionId version s.published)

/-- What the operation registers has not been deleted before. -/
def Fresh (floats : PyFloats) (s : FunctionSystem) (act : FunctionAct) : Prop :=
  match (event? floats s act).bind registered? with
  | none => True
  | some (functionId, version) => lastMark functionId version s.published ≠ some true

instance (floats : PyFloats) (s : FunctionSystem) (act : FunctionAct) :
    Decidable (Fresh floats s act) := by
  unfold Fresh
  split <;> infer_instance

theorem fresh_of_event_none (h : event? floats s act = none) : Fresh floats s act := by
  unfold Fresh
  rw [h]
  exact trivial

theorem fresh_iff_of_event {event : DomainEvent} (h : event? floats s act = some event) :
    Fresh floats s act ↔
      ∀ functionId version, registersFunction functionId version event = true →
        lastMark functionId version s.published ≠ some true := by
  simp only [registersFunction_iff]
  unfold Fresh
  rw [h, Option.bind_some]
  cases hregistered : registered? event with
  | none => simp
  | some key =>
    obtain ⟨id, v⟩ := key
    constructor
    · rintro hfresh functionId version hkey
      cases hkey
      exact hfresh
    · exact fun hfresh => hfresh id v rfl

theorem mirrors_init (publishes : Bool) (stamp : DomainEvent → EventStamp) :
    init.Mirrors publishes stamp := fun _ _ =>
  { deleted := iff_of_false (fun h => by cases h) fun h => by cases h
    listed := fun h => by cases h }

/-- Only the event that an operation publishes matters. -/
theorem published_of_step (h : step floats s act = some t) :
    t.published = s.published ++ (event? floats s act).toList := by
  obtain rfl := Option.some.inj h
  rfl

/-- The documents stay right after an event that registers nothing that was deleted. -/
theorem mirrors_concat_iff {event : DomainEvent} (h : s.Mirrors publishes stamp)
    (ht : t.published = s.published ++ [event]) :
    t.Mirrors publishes stamp ↔
      ∀ functionId version, registersFunction functionId version event = true →
        lastMark functionId version s.published ≠ some true := by
  unfold Mirrors
  rw [ht, project_concat]
  exact forall_congr' fun functionId => forall_congr' fun version =>
    (h functionId version).applyEvent_iff

/-- A run keeps the documents right exactly as long as no version is registered after its
deletion. -/
theorem mirrored_throughout_iff (publishes : Bool) (stamp : DomainEvent → EventStamp)
    (floats : PyFloats) {acts : List FunctionAct} (hrun : run (step floats) init acts = some t) :
    Throughout (step floats) (Mirrors publishes stamp) init acts ↔
      EachStep (step floats) (Fresh floats) init acts := by
  have hnothing : ∀ s act t, step floats s act = some t → event? floats s act = none →
      s.Mirrors publishes stamp → t.Mirrors publishes stamp := by
    intro s act t hstep hevent h
    have ht := published_of_step hstep
    rw [hevent, Option.toList_none, List.append_nil] at ht
    unfold Mirrors
    rw [ht]
    exact h
  refine throughout_iff_eachStep (I := Mirrors publishes stamp) (fun _ h => h) ?_ ?_
    (mirrors_init publishes stamp) hrun
  · intro s act t h hfresh hstep
    cases hevent : event? floats s act with
    | none => exact hnothing s act t hstep hevent h
    | some event =>
      have ht := published_of_step hstep
      rw [hevent] at ht
      exact (mirrors_concat_iff h ht).2 ((fresh_iff_of_event hevent).1 hfresh)
  · intro s act t h hstep hmirrors
    cases hevent : event? floats s act with
    | none => exact fresh_of_event_none hevent
    | some event =>
      have ht := published_of_step hstep
      rw [hevent] at ht
      exact (fresh_iff_of_event hevent).2 ((mirrors_concat_iff h ht).1 hmirrors)

/-- A call at the endpoint `n1`. -/
def callAct (call : FunctionCall) : FunctionAct where
  endpointId := "n1"
  stamp := ⟨"e", "2024-01-01T00:00:00Z"⟩
  operation := .call call

/-- The key that `FUNCTION_DELETE` is given. -/
def deleteKey (version : ℤ) : StorageKey :=
  { id := "f1", version := some version, keyAlias := some "f1" }

/-- A registration of `f1`, which runs in a process. -/
def registerCall : FunctionCall :=
  .register "f1" "f" [120] 0 none "cloudpickle" none

/-- No floats are read. -/
def noFloats : PyFloats where
  ofInt _ := none
  ofStr _ := none
  trunc _ := .error .valueError
  text _ := ""
  value _ := none

/-- A version that is not the latest is deleted, so that its number does not come back. -/
theorem mirrored_firstDeleted :
    Throughout (step noFloats) (Mirrors true fun _ => ⟨"s", ""⟩) init
      [callAct registerCall, callAct registerCall, callAct (.delete (deleteKey 1)),
        callAct registerCall] := by
  obtain ⟨t, ht⟩ := Option.isSome_iff_exists.1 (show (run (guarded (step noFloats) (Fresh noFloats))
    init [callAct registerCall, callAct registerCall, callAct (.delete (deleteKey 1)),
      callAct registerCall]).isSome = true by decide +kernel)
  exact (mirrored_throughout_iff true (fun _ => ⟨"s", ""⟩) noFloats (run_of_guarded_run ht)).2
    (eachStep_of_guarded_run ht)

/-- The latest version is deleted and its number comes back: the function that is registered again
stays marked as deleted. -/
theorem deleted_after_reregistration :
    ∃ t, run (step noFloats) init
        [callAct registerCall, callAct (.delete (deleteKey 1)), callAct registerCall] = some t ∧
      lastMark "f1" 1 t.published = some false ∧
      deletedIn (project true (fun _ => ⟨"s", ""⟩) {} t.published) "f1" 1 = some true := by
  obtain ⟨t, ht⟩ : ∃ t, run (step noFloats) init
      [callAct registerCall, callAct (.delete (deleteKey 1)), callAct registerCall] = some t :=
    ⟨_, rfl⟩
  have hmarks : ((run (step noFloats) init
      [callAct registerCall, callAct (.delete (deleteKey 1)), callAct registerCall]).map fun t =>
        (lastMark "f1" 1 t.published,
          deletedIn (project true (fun _ => ⟨"s", ""⟩) {} t.published) "f1" 1)) =
      some (some false, some true) := by decide +kernel
  rw [ht] at hmarks
  obtain ⟨hlast, hmark⟩ := Prod.mk.inj (Option.some.inj hmarks)
  exact ⟨t, ht, hlast, hmark⟩

end FunctionSystem

end Axo.Projector
