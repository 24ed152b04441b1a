import Axo.Projector.FunctionLife
import Axo.Projector.JobHistory
import Axo.Projector.Redelivery
import Axo.Projector.Retention

/-!
# Purged endpoints

`PurgeEndpointUseCase` of `application/nodes/purge_endpoint.py`, while the projector and the endpoints
go on.

* `PurgeSystem` is the read model, the events that the projector has not come to yet, and the
  requests to purge an endpoint; `step` is one read or write of one of these;
* `not_holds_of_done`, `failed_of_done`: what is left of an endpoint when it is purged;
* `holders_ne_nil_of_reach`: no function loses its last endpoint without being deleted, as long as
  one purge is projected before the next one lists its functions.
-/

namespace Axo.Projector

open Transition

/-! ### What the use case reads -/

/-- `endpoint_id`. -/
def FunctionDocument.holders (doc : FunctionDocument) : List String := doc.endpointId.getD []

/-- A `Function`, as far as the use case looks at it. -/
structure ListedFunction where
  functionId : String
  version : ℤ
  endpointId : List String

/-- The `Function` of a document; there is none without the two fields that it is looked up by. -/
def FunctionDocument.toFunction? (doc : FunctionDocument) : Option ListedFunction :=
  match doc.fields "function_id", doc.fields "version" with
  | some (.str functionId), some (.int version) => some ⟨functionId, version, doc.holders⟩
  | _, _ => none

/-- `list_by_endpoint_id`, none where it raises. -/
def listByEndpointId (functions : Collection String FunctionDocument) (endpointId : String) :
    Option (List ListedFunction) :=
  (functions.rows.filter fun e => decide (endpointId ∈ e.2.holders) && !e.2.deleted).mapM
    fun e => e.2.toFunction?

/-- `created_at` is not earlier; a missing one counts as the earliest. -/
def Job.createdLater (job job' : Job) : Bool :=
  match job.createdAt, job'.createdAt with
  | some createdAt, some createdAt' => decide (createdAt' ≤ createdAt)
  | some _, none | none, none => true
  | none, some _ => false

/-- `list_by_function`. -/
def listByFunction (jobs : Collection String Job) (functionId : String)
    (functionVersion : Option ℤ) : List Job :=
  ((jobs.rows.map Prod.snd).filter fun job =>
    decide (job.functionId = functionId) &&
      functionVersion.all fun version => job.functionVersion = some version).insertionSort
    fun job job' => job.createdLater job' = true

/-- `status.value.lower()`. -/
def JobStatus.lower : JobStatus → String
  | .queued => "queued"
  | .started => "started"
  | .completed => "completed"
  | .failed => "failed"

/-- `job.status in (JobStatus.QUEUED, JobStatus.STARTED)`. -/
def JobStatus.isActive : JobStatus → Bool
  | .queued | .started => true
  | .completed | .failed => false

/-! ### The use case -/

inductive PurgeError
  | notFound
  | conflict
  | keyError
  deriving DecidableEq

/-- A request that has listed the functions. -/
structure PurgeEndpoint where
  endpointId : String
  /-- the functions that it has not come to yet -/
  functions : List ListedFunction
  /-- what is still to be appended for the function that it is at -/
  outbox : List EventBody := []
  functionsMarkedDeleted : ℕ := 0
  functionsDetached : ℕ := 0
  jobsForceFailed : ℕ := 0

/-- What `execute` returns. -/
structure PurgeResult where
  endpointId : String
  purgedActivityCount : ℕ
  functionsMarkedDeleted : ℕ
  functionsDetached : ℕ
  jobsForceFailed : ℕ

/-- How far a request is. -/
inductive PurgeRequest
  | idle
  /-- the endpoint is stopped or unreachable -/
  | checked (endpointId : String)
  | running (purge : PurgeEndpoint)
  /-- the document of the endpoint is deleted -/
  | cleared (purge : PurgeEndpoint)
  | done (result : PurgeResult)
  | failed (error : PurgeError)

/-- The check before a purge. -/
def checkPurge (endpoints : Collection (Option String) (Document String Value))
    (endpointId : String) : PurgeRequest :=
  match endpoints.lookup (some endpointId) with
  | none => .failed .notFound
  | some doc =>
    if doc "status" = some (.str "stopped") ∨ doc "status" = some (.str "unreachable") then
      .checked endpointId
    else .failed .conflict

/-- `JobFailed` for a job that the endpoint cannot finish any more. -/
def purgedJob (endpointId functionId : String) (job : Job) : EventBody :=
  .job job.jobId functionId
    (.failed
      { errorClass := "EndpointPurged"
        errorCode := 0
        component := "axo_vem.purge_endpoint"
        message :=
          "endpoint " ++ endpointId ++ " was purged while this job was still " ++ job.status.lower }
      job.durationMs)

/-- What is appended for one function. -/
def cascade (jobs : Collection String Job) (endpointId : String) (function : ListedFunction) :
    List EventBody :=
  ((listByFunction jobs function.functionId function.version).filter fun job =>
      job.status.isActive && decide (job.endpointId = some endpointId)).map
    (purgedJob endpointId function.functionId) ++
  [if function.endpointId.filter (· ≠ endpointId) = [] then
    .functionDeleted function.functionId function.version
  else .functionEndpointDetached function.functionId function.version]

namespace PurgeEndpoint

/-- `_append` makes the event. -/
def event (purge : PurgeEndpoint) (stamp : EventStamp) (body : EventBody) : DomainEvent where
  envelope :=
    { eventId := stamp.eventId
      createdAt := stamp.createdAt
      endpointId := some purge.endpointId }
  body := body

/-- One event is appended. -/
def appended (purge : PurgeEndpoint) (body : EventBody) (rest : List EventBody) : PurgeEndpoint :=
  match body with
  | .job .. => { purge with outbox := rest, jobsForceFailed := purge.jobsForceFailed + 1 }
  | .functionEndpointDetached .. =>
    { purge with outbox := rest, functionsDetached := purge.functionsDetached + 1 }
  | _ => { purge with outbox := rest, functionsMarkedDeleted := purge.functionsMarkedDeleted + 1 }

variable (purge : PurgeEndpoint) (body : EventBody) (rest : List EventBody)

@[simp] theorem endpointId_appended : (purge.appended body rest).endpointId = purge.endpointId := by
  unfold appended
  split <;> rfl

@[simp] theorem functions_appended : (purge.appended body rest).functions = purge.functions := by
  unfold appended
  split <;> rfl

@[simp] theorem outbox_appended : (purge.appended body rest).outbox = rest := by
  unfold appended
  split <;> rfl

end PurgeEndpoint

/-! ### The system -/

/-- The read model, what the event store holds beyond the projector's checkpoint, and the requests. -/
structure PurgeSystem where
  model : ReadModel := {}
  pending : List DomainEvent := []
  requests : ℕ → PurgeRequest := fun _ => .idle

/-- What happens. -/
inductive PurgeAct
  /-- an event of an endpoint comes in -/
  | publish (event : DomainEvent)
  | project (stamp : EventStamp)
  | check (n : ℕ) (endpointId : String)
  | advance (n : ℕ) (stamp : EventStamp)

namespace PurgeSystem

/-- A request gets to another place. -/
def setRequest (s : PurgeSystem) (n : ℕ) (request : PurgeRequest) : PurgeSystem :=
  { s with requests := Function.update s.requests n request }

/-- The next read or write of a request that has listed its functions. -/
def advancePurge (s : PurgeSystem) (n : ℕ) (stamp : EventStamp) (purge : PurgeEndpoint) :
    PurgeSystem :=
  match purge.outbox, purge.functions with
  | body :: rest, _ =>
    { s with pending := s.pending ++ [purge.event stamp body] }.setRequest n
      (.running (purge.appended body rest))
  | [], function :: functions =>
    s.setRequest n
      (.running
        { purge with
          functions := functions
          outbox := cascade s.model.jobs purge.endpointId function })
  | [], [] =>
    { s with
      model := { s.model with endpoints := s.model.endpoints.erase (some purge.endpointId) }
    }.setRequest n (.cleared purge)

/-- The activity of the endpoint is purged. -/
def finish (s : PurgeSystem) (n : ℕ) (purged : PurgeEndpoint) : PurgeSystem :=
  let result := purge s.model.unifiedActivity { endpointId := some purged.endpointId }
  { s with model := { s.model with unifiedActivity := result.1 } }.setRequest n
    (.done
      { endpointId := purged.endpointId
        purgedActivityCount := result.2
        functionsMarkedDeleted := purged.functionsMarkedDeleted
        functionsDetached := purged.functionsDetached
        jobsForceFailed := purged.jobsForceFailed })

/-- The next read or write of a request. -/
def advance (s : PurgeSystem) (n : ℕ) (stamp : EventStamp) : Option PurgeSystem :=
  match s.requests n with
  | .checked endpointId =>
    some (s.setRequest n
      (match listByEndpointId s.model.functions endpointId with
      | some functions => .running { endpointId := endpointId, functions := functions }
      | none => .failed .keyError))
  | .running purge => some (s.advancePurge n stamp purge)
  | .cleared purge => some (s.finish n purge)
  | .idle | .done _ | .failed _ => none

/-- One step. -/
def step (publishes : Bool) (s : PurgeSystem) : PurgeAct → Option PurgeSystem
  | .publish event => some { s with pending := s.pending ++ [event] }
  | .project stamp =>
    match s.pending with
    | [] => none
    | event :: pending =>
      let result := applyEvent publishes stamp s.model event
      some { s with model := result.1, pending := pending ++ result.2 }
  | .check n endpointId =>
    match s.requests n with
    | .idle => some (s.setRequest n (checkPurge s.model.endpoints endpointId))
    | _ => none
  | .advance n stamp => s.advance n stamp

/-- The steps, each with what it takes. -/
inductive Moves (publishes : Bool) (s : PurgeSystem) : PurgeAct → PurgeSystem → Prop
  | publish (event : DomainEvent) :
      Moves publishes s (.publish event) { s with pending := s.pending ++ [event] }
  | project {stamp : EventStamp} {event : DomainEvent} {pending : List DomainEvent}
      (hpending : s.pending = event :: pending) :
      Moves publishes s (.project stamp)
        { s with
          model := (applyEvent publishes stamp s.model event).1
          pending := pending ++ (applyEvent publishes stamp s.model event).2 }
  | check {n : ℕ} {endpointId : String} (hrequest : s.requests n = .idle) :
      Moves publishes s (.check n endpointId)
        (s.setRequest n (checkPurge s.model.endpoints endpointId))
  | list {n : ℕ} {stamp : EventStamp} {endpointId : String}
      (hrequest : s.requests n = .checked endpointId) :
      Moves publishes s (.advance n stamp)
        (s.setRequest n
          (match listByEndpointId s.model.functions endpointId with
          | some functions => .running { endpointId := endpointId, functions := functions }
          | none => .failed .keyError))
  | append {n : ℕ} {stamp : EventStamp} {purge : PurgeEndpoint} {body : EventBody}
      {rest : List EventBody} (hrequest : s.requests n = .running purge)
      (houtbox : purge.outbox = body :: rest) :
      Moves publishes s (.advance n stamp)
        ({ s with pending := s.pending ++ [purge.event stamp body] }.setRequest n
          (.running (purge.appended body rest)))
  | next {n : ℕ} {stamp : EventStamp} {purge : PurgeEndpoint} {function : ListedFunction}
      {functions : List ListedFunction} (hrequest : s.requests n = .running purge)
      (houtbox : purge.outbox = []) (hfunctions : purge.functions = function :: functions) :
      Moves publishes s (.advance n stamp)
        (s.setRequest n
          (.running
            { purge with
              functions := functions
              outbox := cascade s.model.jobs purge.endpointId function }))
  | clear {n : ℕ} {stamp : EventStamp} {purge : PurgeEndpoint}
      (hrequest : s.requests n = .running purge) (houtbox : purge.outbox = [])
      (hfunctions : purge.functions = []) :
      Moves publishes s (.advance n stamp)
        ({ s with
            model := { s.model with endpoints := s.model.endpoints.erase (some purge.endpointId) }
          }.setRequest n (.cleared purge))
  | finish {n : ℕ} {stamp : EventStamp} {purge : PurgeEndpoint}
      (hrequest : s.requests n = .cleared purge) :
      Moves publishes s (.advance n stamp) (s.finish n purge)

theorem moves_of_step {publishes : Bool} {s t : PurgeSystem} {act : PurgeAct}
    (h : step publishes s act = some t) : Moves publishes s act t := by
  cases act with
  | publish event =>
    cases h
    exact .publish event
  | project stamp =>
    unfold step at h
    dsimp only at h
    split at h
    · cases h
    · rename_i event pending hpending
      cases h
      exact .project hpending
  | check n endpointId =>
    unfold step at h
    dsimp only at h
    split at h
    · rename_i hrequest
      cases h
      exact .check hrequest
    · cases h
  | advance n stamp =>
    unfold step at h
    dsimp only [advance] at h
    split at h
    · rename_i endpointId hrequest
      cases h
      exact .list hrequest
    · rename_i purge hrequest
      cases h
      unfold advancePurge
      split
      · rename_i body rest houtbox
        exact .append hrequest houtbox
      · rename_i function functions houtbox hfunctions
        exact .next hrequest houtbox hfunctions
      · rename_i houtbox hfunctions
        exact .clear hrequest houtbox hfunctions
    · rename_i purge hrequest
      cases h
      exact .finish hrequest
    all_goals cases h

end PurgeSystem

/-! ### The documents of the functions -/

section Documents

variable {publishes : Bool} {stamp : EventStamp} {s : ReadModel} {event : DomainEvent}
  {functionId endpointId : String} {version : ℤ}

/-- The version is not deleted, and the endpoint is listed for it. -/
def Holds (s : ReadModel) (functionId : String) (version : ℤ) (endpointId : String) : Prop :=
  ∃ doc, s.functions.lookup (functionKey functionId version) = some doc ∧ doc.deleted = false ∧
    endpointId ∈ doc.holders

/-- The event takes the version from the endpoint. -/
def EventBody.Settles (body : EventBody) (functionId : String) (version : ℤ) : Prop :=
  body = .functionDeleted functionId version ∨ body = .functionEndpointDetached functionId version

/-- The endpoints of a version after an event that updates it. -/
theorem FunctionDocument.holders_apply (doc : Option FunctionDocument) (data : Fields)
    (endpointId : Option String) :
    (FunctionDocument.apply doc data endpointId).holders =
      endpointId.toList.foldl addToSet ((doc.map FunctionDocument.holders).getD []) := by
  cases endpointId <;> cases doc <;> rfl

theorem mem_addToSet {α : Type} [DecidableEq α] {array : List α} {a b : α} :
    b ∈ addToSet array a ↔ b ∈ array ∨ b = a := by
  unfold addToSet
  split_ifs with h
  · exact ⟨Or.inl, fun hb => hb.elim id fun heq => heq ▸ h⟩
  · rw [List.mem_append, List.mem_singleton]

/-- The endpoints of a version after one of them is detached. -/
theorem FunctionDocument.mem_holders_detach {doc : FunctionDocument} {sender : Option String} :
    endpointId ∈ (doc.detach sender).holders ↔ endpointId ∈ doc.holders ∧ some endpointId ≠ sender := by
  unfold FunctionDocument.detach FunctionDocument.holders
  cases doc.endpointId <;> simp

theorem FunctionDocument.deleted_detach (doc : FunctionDocument) (sender : Option String) :
    (doc.detach sender).deleted = doc.deleted := rfl

/-- What a version becomes that is not deleted by an event. -/
theorem live_functionStep {doc' : FunctionDocument} {doc : Option FunctionDocument}
    (h : functionStep functionId version doc event = some doc') (hlive : doc'.deleted = false) :
    (∃ payload, event.body = .function functionId version payload ∧
        (doc.map FunctionDocument.deleted).getD false = false ∧
        doc'.holders = event.envelope.endpointId.toList.foldl addToSet
          ((doc.map FunctionDocument.holders).getD [])) ∨
      (event.body = .functionEndpointDetached functionId version ∧
        ∃ old, doc = some old ∧ doc' = old.detach event.envelope.endpointId) ∨
      (doc = some doc' ∧ ¬ event.body.Settles functionId version ∧
        ∀ payload, event.body ≠ .function functionId version payload) := by
  unfold functionStep at h
  cases hbody : event.body with
  | function id v payload =>
    simp only [hbody] at h
    split_ifs at h with hsame
    · cases h
      obtain ⟨rfl, rfl⟩ := hsame
      rw [FunctionDocument.deleted_apply hbody] at hlive
      exact .inl ⟨payload, rfl, hlive, FunctionDocument.holders_apply ..⟩
    · refine .inr (.inr ⟨h, ?_, fun payload' heq => hsame ?_⟩)
      · rintro (heq | heq) <;> cases heq
      · cases heq
        exact ⟨rfl, rfl⟩
  | functionDeleted id v =>
    simp only [hbody] at h
    split_ifs at h with hsame
    · cases h
      cases hlive
    · refine .inr (.inr ⟨h, ?_, fun payload' heq => by cases heq⟩)
      rintro (heq | heq) <;> cases heq
      exact hsame ⟨rfl, rfl⟩
  | functionEndpointDetached id v =>
    simp only [hbody] at h
    split_ifs at h with hsame
    · obtain ⟨rfl, rfl⟩ := hsame
      obtain ⟨old, hold, heq⟩ := Option.map_eq_some_iff.1 h
      exact .inr (.inl ⟨rfl, old, hold, heq.symm⟩)
    · refine .inr (.inr ⟨h, ?_, fun payload' heq => by cases heq⟩)
      rintro (heq | heq) <;> cases heq
      exact hsame ⟨rfl, rfl⟩
  | _ =>
    simp only [hbody] at h
    refine .inr (.inr ⟨h, ?_, fun payload' heq => by cases heq⟩)
    rintro (heq | heq) <;> cases heq

/-- An endpoint that is listed after an event has sent it, about that version, or was listed before
and has not been taken off. -/
theorem holds_applyEvent
    (h : Holds (applyEvent publishes stamp s event).1 functionId version endpointId) :
    (event.envelope.endpointId = some endpointId ∧
        ∃ payload, event.body = .function functionId version payload) ∨
      (Holds s functionId version endpointId ∧
        ¬ (event.envelope.endpointId = some endpointId ∧ event.body.Settles functionId version)) := by
  obtain ⟨doc', hlookup, hlive, hmem⟩ := h
  rw [lookup_functions_applyEvent] at hlookup
  rcases live_functionStep hlookup hlive with
    ⟨payload, hbody, hdeleted, hholders⟩ | ⟨hbody, old, hold, rfl⟩ | ⟨hold, hnot, -⟩
  · by_cases hsender : event.envelope.endpointId = some endpointId
    · exact .inl ⟨hsender, payload, hbody⟩
    · refine .inr ⟨?_, fun hboth => hsender hboth.1⟩
      have hbefore : endpointId ∈ ((s.functions.lookup (functionKey functionId version)).map
          FunctionDocument.holders).getD [] := by
        rw [hholders] at hmem
        cases hid : event.envelope.endpointId with
        | none => rwa [hid] at hmem
        | some sender =>
          rw [hid] at hmem hsender
          exact (mem_addToSet.1 hmem).resolve_right fun heq => hsender (congrArg some heq.symm)
      cases hdoc : s.functions.lookup (functionKey functionId version) with
      | none =>
        rw [hdoc] at hbefore
        cases hbefore
      | some doc =>
        rw [hdoc] at hbefore hdeleted
        exact ⟨doc, hdoc, hdeleted, hbefore⟩
  · obtain ⟨hbefore, hsender⟩ := FunctionDocument.mem_holders_detach.1 hmem
    exact .inr ⟨⟨old, hold, hlive, hbefore⟩, fun hboth => hsender hboth.1.symm⟩
  · exact .inr ⟨⟨doc', hold, hlive, hmem⟩, fun hboth => hnot hboth.2⟩

/-- A version that is not deleted is found under its key. -/
def KeyedFunctions (functions : Collection String FunctionDocument) : Prop :=
  ∀ key doc, functions.lookup key = some doc → doc.deleted = false → ∃ functionId version,
    key = functionKey functionId version ∧
      doc.toFunction? = some ⟨functionId, version, doc.holders⟩

theorem lookup_functions_of_ne {key : String}
    (h : ∀ functionId version, key ≠ functionKey functionId version) :
    (applyEvent publishes stamp s event).1.functions.lookup key = s.functions.lookup key := by
  cases hbody : event.body with
  | function id v payload =>
    simp only [applyEvent, handle, hbody]
    exact Collection.lookup_upsert_ne (h id v)
  | functionDeleted id v =>
    simp only [applyEvent, handle, hbody]
    exact Collection.lookup_upsert_ne (h id v)
  | functionEndpointDetached id v =>
    simp only [applyEvent, handle, hbody]
    exact Collection.lookup_updateOne_ne (h id v)
  | consensus term payload =>
    simp only [applyEvent, handle, hbody, applyConsensus]
    cases payload.leaderIds? <;> rfl
  | data name payload =>
    simp only [applyEvent, handle, hbody]
    cases payload <;> rfl
  | _ => simp only [applyEvent, handle, hbody]

theorem FunctionDocument.toFunction?_eq_some {doc : FunctionDocument} {function : ListedFunction} :
    doc.toFunction? = some function ↔ doc.fields "function_id" = some (.str function.functionId) ∧
      doc.fields "version" = some (.int function.version) ∧ doc.holders = function.endpointId := by
  obtain ⟨id, v, holders⟩ := function
  unfold FunctionDocument.toFunction?
  split
  · rename_i id' v' hid hversion
    rw [hid, hversion]
    simp
  · rename_i hnot
    refine iff_of_false (fun h => by cases h) fun h => hnot _ _ h.1 h.2.1

theorem lookup_data_function {id : String} {v : ℤ} {payload : FunctionPayload}
    (hbody : event.body = .function id v payload) :
    event.data.lookup "function_id" = some (.str id) ∧
      event.data.lookup "version" = some (.int v) := by
  unfold DomainEvent.data
  rw [hbody]
  exact ⟨rfl, rfl⟩

theorem keyedFunctions_applyEvent (h : KeyedFunctions s.functions) :
    KeyedFunctions (applyEvent publishes stamp s event).1.functions := by
  intro key doc' hlookup hlive
  by_cases hkey : ∃ functionId version, key = functionKey functionId version
  · obtain ⟨id, v, rfl⟩ := hkey
    refine ⟨id, v, rfl, ?_⟩
    have hkeyed : ∀ doc, s.functions.lookup (functionKey id v) = some doc → doc.deleted = false →
        doc.toFunction? = some ⟨id, v, doc.holders⟩ := by
      intro doc hdoc hdeleted
      obtain ⟨id', v', heq, hfunction⟩ := h _ _ hdoc hdeleted
      obtain ⟨rfl, rfl⟩ := functionKey_injective heq
      exact hfunction
    rw [lookup_functions_applyEvent] at hlookup
    rcases live_functionStep hlookup hlive with
      ⟨payload, hbody, -, -⟩ | ⟨-, old, hold, rfl⟩ | ⟨hold, -, -⟩
    · unfold functionStep at hlookup
      simp only [hbody, and_self, if_true, Option.some.injEq] at hlookup
      subst hlookup
      refine FunctionDocument.toFunction?_eq_some.2 ⟨?_, ?_, rfl⟩
      · rw [FunctionDocument.fields_apply _ _ _ _ (by decide) (by decide),
          (lookup_data_function hbody).1, Option.some_or]
      · rw [FunctionDocument.fields_apply _ _ _ _ (by decide) (by decide),
          (lookup_data_function hbody).2, Option.some_or]
    · have hfunction := FunctionDocument.toFunction?_eq_some.1 (hkeyed old hold hlive)
      exact FunctionDocument.toFunction?_eq_some.2 ⟨hfunction.1, hfunction.2.1, rfl⟩
    · exact hkeyed doc' hold hlive
  · have hne : ∀ functionId version, key ≠ functionKey functionId version := fun id v heq =>
      hkey ⟨id, v, heq⟩
    rw [lookup_functions_of_ne hne] at hlookup
    exact h key doc' hlookup hlive

theorem mapM_of_forall {α β : Type} {f : α → Option β} {g : α → β} {l : List α}
    (h : ∀ a ∈ l, f a = some (g a)) : l.mapM f = some (l.map g) := by
  induction l with
  | nil => rfl
  | cons a l ih =>
    rw [List.mapM_cons, h a List.mem_cons_self, ih fun b hb => h b (List.mem_cons_of_mem _ hb)]
    rfl

/-- `list_by_endpoint_id` gives the versions that the endpoint holds. -/
theorem exists_listByEndpointId (h : KeyedFunctions s.functions) (endpointId : String) :
    ∃ listed, listByEndpointId s.functions endpointId = some listed ∧
      (∀ functionId version, Holds s functionId version endpointId →
        ∃ function ∈ listed, function.functionId = functionId ∧ function.version = version) ∧
      ∀ function ∈ listed, ∃ doc,
        s.functions.lookup (functionKey function.functionId function.version) = some doc ∧
          doc.deleted = false ∧ function.endpointId = doc.holders := by
  let selected := s.functions.rows.filter fun e =>
    decide (endpointId ∈ e.2.holders) && !e.2.deleted
  have hselected : ∀ e ∈ selected, s.functions.lookup e.1 = some e.2 ∧ endpointId ∈ e.2.holders ∧
      e.2.deleted = false := by
    intro e he
    obtain ⟨hrow, hcond⟩ := List.mem_filter.1 he
    simp only [Bool.and_eq_true, decide_eq_true_eq, Bool.not_eq_true'] at hcond
    exact ⟨Collection.mem_rows.1 hrow, hcond⟩
  have hfunction : ∀ e ∈ selected, ∃ functionId version, e.1 = functionKey functionId version ∧
      e.2.toFunction? = some ⟨functionId, version, e.2.holders⟩ := fun e he =>
    h e.1 e.2 (hselected e he).1 (hselected e he).2.2
  refine ⟨selected.map fun e => (e.2.toFunction?).getD ⟨"", 0, []⟩, mapM_of_forall ?_, ?_, ?_⟩
  · intro e he
    obtain ⟨id, v, -, heq⟩ := hfunction e he
    rw [heq]
    rfl
  · rintro id v ⟨doc, hlookup, hlive, hmem⟩
    have he : (functionKey id v, doc) ∈ selected := by
      refine List.mem_filter.2 ⟨Collection.mem_rows.2 hlookup, ?_⟩
      simp only [hmem, hlive, decide_true, Bool.not_false, Bool.and_self]
    obtain ⟨id', v', hkey, heq⟩ := hfunction _ he
    obtain ⟨rfl, rfl⟩ := functionKey_injective hkey
    refine ⟨_, List.mem_map.2 ⟨_, he, rfl⟩, ?_⟩
    dsimp only at heq
    rw [heq]
    exact ⟨rfl, rfl⟩
  · intro function hmem
    obtain ⟨e, he, rfl⟩ := List.mem_map.1 hmem
    obtain ⟨id, v, hkey, heq⟩ := hfunction e he
    refine ⟨e.2, ?_, (hselected e he).2.2, ?_⟩
    · rw [heq, Option.getD_some, ← hkey]
      exact (hselected e he).1
    · rw [heq]
      rfl

end Documents

/-! ### What is appended -/

section Cascade

variable {jobs : Collection String Job} {endpointId : String} {function : ListedFunction}
  {body : EventBody} {job : Job} {jobId : String}

/-- What a purge appends. -/
def EventBody.IsCascade : EventBody → Prop
  | .job _ _ (.failed _ _) | .functionDeleted _ _ | .functionEndpointDetached _ _ => True
  | _ => False

/-- The body fails the job. -/
def EventBody.Fails (body : EventBody) (jobId : String) : Prop :=
  ∃ functionId failure durationMs, body = .job jobId functionId (.failed failure durationMs)

theorem mem_listByFunction {functionId : String} {version : ℤ} :
    job ∈ listByFunction jobs functionId (some version) ↔
      (∃ jobId, jobs.lookup jobId = some job) ∧ job.functionId = functionId ∧
        job.functionVersion = some version := by
  unfold listByFunction
  rw [List.mem_insertionSort, List.mem_filter, List.mem_map]
  simp only [Option.all_some, Bool.and_eq_true, decide_eq_true_eq]
  refine and_congr_left fun _ => ?_
  constructor
  · rintro ⟨e, he, rfl⟩
    exact ⟨e.1, Collection.mem_rows.1 he⟩
  · rintro ⟨jobId, hlookup⟩
    exact ⟨(jobId, job), Collection.mem_rows.2 hlookup, rfl⟩

/-- Every job of the version that the endpoint cannot finish is failed, and the version is taken from
the endpoint. -/
theorem mem_cascade : body ∈ cascade jobs endpointId function ↔
    (∃ job, (∃ jobId, jobs.lookup jobId = some job) ∧ job.functionId = function.functionId ∧
      job.functionVersion = some function.version ∧ job.status.isActive = true ∧
      job.endpointId = some endpointId ∧ body = purgedJob endpointId function.functionId job) ∨
    body = if function.endpointId.filter (· ≠ endpointId) = [] then
        .functionDeleted function.functionId function.version
      else .functionEndpointDetached function.functionId function.version := by
  unfold cascade
  rw [List.mem_append, List.mem_map, List.mem_singleton]
  refine or_congr_left ⟨?_, ?_⟩
  · rintro ⟨job, hjob, rfl⟩
    obtain ⟨hlisted, hcond⟩ := List.mem_filter.1 hjob
    obtain ⟨hlookup, hid, hversion⟩ := mem_listByFunction.1 hlisted
    simp only [Bool.and_eq_true, decide_eq_true_eq] at hcond
    exact ⟨job, hlookup, hid, hversion, hcond.1, hcond.2, rfl⟩
  · rintro ⟨job, hlookup, hid, hversion, hactive, hendpoint, rfl⟩
    refine ⟨job, List.mem_filter.2 ⟨mem_listByFunction.2 ⟨hlookup, hid, hversion⟩, ?_⟩, rfl⟩
    simp only [hactive, hendpoint, decide_true, Bool.and_self]

theorem isCascade_of_mem_cascade (h : body ∈ cascade jobs endpointId function) :
    body.IsCascade := by
  rcases mem_cascade.1 h with ⟨job, -, -, -, -, -, rfl⟩ | rfl
  · exact trivial
  · split_ifs <;> exact trivial

theorem exists_settles_cascade (jobs : Collection String Job) (endpointId : String)
    (function : ListedFunction) : ∃ body ∈ cascade jobs endpointId function,
      body.Settles function.functionId function.version := by
  refine ⟨_, mem_cascade.2 (.inr rfl), ?_⟩
  split_ifs
  · exact .inl rfl
  · exact .inr rfl

end Cascade

/-! ### What one step changes -/

section Events

variable {publishes : Bool} {stamp : EventStamp} {s : ReadModel} {event appended : DomainEvent}
  {jobId : String} {endpointId : Option String}

/-- What the projector appends itself is sent by no endpoint. -/
theorem mem_appended (h : appended ∈ (applyEvent publishes stamp s event).2) :
    appended.envelope.endpointId = none ∧
      ∃ id payload, appended.body = .virtualEnv id payload := by
  rw [applyEvent_appended] at h
  split_ifs at h
  · obtain ⟨leader, -, rfl⟩ := List.mem_map.1 h
    exact ⟨rfl, _, _, rfl⟩
  · cases h

theorem lookup_endpoints_applyEvent
    (h : event.envelope.endpointId = endpointId → ∀ payload, event.body ≠ .endpoint payload) :
    (applyEvent publishes stamp s event).1.endpoints.lookup endpointId =
      s.endpoints.lookup endpointId := by
  cases hbody : event.body with
  | endpoint payload =>
    simp only [applyEvent, handle, hbody]
    exact Collection.lookup_upsert_ne fun heq => h heq.symm payload hbody
  | consensus term payload =>
    simp only [applyEvent, handle, hbody, applyConsensus]
    cases payload.leaderIds? <;> rfl
  | data name payload =>
    simp only [applyEvent, handle, hbody]
    cases payload <;> rfl
  | _ => simp only [applyEvent, handle, hbody]

theorem jobId_jobStep {job : Option Job} (h : ∀ record ∈ job, record.jobId = jobId) :
    ∀ record ∈ jobStep jobId job event, record.jobId = jobId := by
  intro record hrecord
  unfold jobStep at hrecord
  split at hrecord
  · rename_i id functionId payload hbody
    split_ifs at hrecord with hid
    · cases hrecord
      subst hid
      cases job with
      | none => cases payload <;> rfl
      | some job => cases payload <;> first | rfl | exact h job rfl
    · exact h record hrecord
  · exact h record hrecord

/-- The purge of an endpoint leaves no row of it. -/
theorem lookup_purge_endpoint {rows : Collection String ActivityRow} {id endpointId : String}
    {row : ActivityRow}
    (h : (purge rows { endpointId := some endpointId }).1.lookup id = some row) :
    rows.lookup id = some row ∧ row.endpointId ≠ some (.str endpointId) := by
  obtain ⟨hlookup, hcond⟩ := Collection.lookup_deleteMany_eq_some.1 h
  refine ⟨hlookup, fun heq => ?_⟩
  simp [PurgeFilter.selects, heq] at hcond

end Events

namespace PurgeSystem

variable {publishes : Bool} {stamp : EventStamp} {s t u : PurgeSystem} {act : PurgeAct} {n m : ℕ}
  {request : PurgeRequest} {purge : PurgeEndpoint} {endpointId functionId jobId : String}
  {version : ℤ} {job : Job}

theorem requests_setRequest_self (s : PurgeSystem) (n : ℕ) (request : PurgeRequest) :
    (s.setRequest n request).requests n = request := Function.update_self ..

theorem requests_setRequest_ne (s : PurgeSystem) (request : PurgeRequest) (h : m ≠ n) :
    (s.setRequest n request).requests m = s.requests m := Function.update_of_ne h ..

@[simp] theorem model_setRequest : (s.setRequest n request).model = s.model := rfl

@[simp] theorem pending_setRequest : (s.setRequest n request).pending = s.pending := rfl

theorem of_requests_setRequest (h : (s.setRequest n request).requests m = .running purge) :
    (m = n ∧ request = .running purge) ∨ s.requests m = .running purge := by
  by_cases hmn : m = n
  · subst hmn
    rw [requests_setRequest_self] at h
    exact .inl ⟨rfl, h⟩
  · rw [requests_setRequest_ne s request hmn] at h
    exact .inr h

theorem checkPurge_ne_running (endpoints : Collection (Option String) (Document String Value))
    (endpointId : String) (purge : PurgeEndpoint) :
    checkPurge endpoints endpointId ≠ .running purge := by
  unfold checkPurge
  split
  · exact fun h => by cases h
  · split_ifs <;> exact fun h => by cases h

/-- What holds of every state. -/
structure Sound (s : PurgeSystem) : Prop where
  functions : KeyedFunctions s.model.functions
  jobs : ∀ jobId job, s.model.jobs.lookup jobId = some job → job.jobId = jobId
  outbox : ∀ n purge, s.requests n = .running purge → ∀ body ∈ purge.outbox, body.IsCascade

theorem Sound.setRequest (h : s.Sound)
    (hrequest : ∀ purge, request = .running purge → ∀ body ∈ purge.outbox, body.IsCascade) :
    (s.setRequest n request).Sound where
  functions := h.functions
  jobs := h.jobs
  outbox m purge hm := by
    rcases of_requests_setRequest hm with ⟨-, hrunning⟩ | hother
    · exact hrequest purge hrunning
    · exact h.outbox m purge hother

theorem Sound.congr (h : s.Sound) (hfunctions : t.model.functions = s.model.functions)
    (hjobs : t.model.jobs = s.model.jobs) (hrequests : t.requests = s.requests) : t.Sound where
  functions := hfunctions ▸ h.functions
  jobs := hjobs ▸ h.jobs
  outbox := hrequests ▸ h.outbox

theorem Sound.step (h : s.Sound) (hstep : step publishes s act = some t) : t.Sound := by
  cases moves_of_step hstep with
  | publish event => exact ⟨h.functions, h.jobs, h.outbox⟩
  | project hpending =>
    refine ⟨keyedFunctions_applyEvent h.functions, fun jobId job hlookup => ?_, h.outbox⟩
    rw [lookup_jobs_applyEvent] at hlookup
    exact jobId_jobStep (fun record hrecord => h.jobs jobId record hrecord) job hlookup
  | check => exact h.setRequest fun purge heq => absurd heq (checkPurge_ne_running _ _ _)
  | list =>
    refine h.setRequest fun purge heq => ?_
    split at heq
    · cases heq
      exact fun body hbody => absurd hbody List.not_mem_nil
    · cases heq
  | append hrequest houtbox =>
    refine Sound.setRequest (h.congr ?_ ?_ ?_) fun purge heq => ?_
    iterate 3 exact rfl
    cases heq
    rw [PurgeEndpoint.outbox_appended]
    exact fun body hbody => h.outbox _ _ hrequest body (houtbox ▸ List.mem_cons_of_mem _ hbody)
  | next hrequest =>
    refine h.setRequest fun purge heq => ?_
    cases heq
    exact fun body hbody => isCascade_of_mem_cascade hbody
  | clear hrequest =>
    refine Sound.setRequest (h.congr ?_ ?_ ?_) fun purge heq => ?_
    iterate 3 exact rfl
    cases heq
  | finish hrequest =>
    unfold finish
    refine Sound.setRequest (h.congr ?_ ?_ ?_) fun purge heq => ?_
    iterate 3 exact rfl
    cases heq

theorem sound_of_reach (h : Reach (step publishes) Always {} s) : s.Sound := by
  refine h.invariant ⟨?_, ?_, ?_⟩ fun _ _ _ hs _ hstep => hs.step hstep
  · intro key doc hlookup
    cases hlookup
  · intro jobId job hlookup
    cases hlookup
  · intro n purge hrequest
    cases hrequest

/-! ### What is left of the endpoint -/

/-- The activity of the endpoint is that of its purge. -/
def OnlyCascades (rows : Collection String ActivityRow) (endpointId : String) : Prop :=
  ∀ id row, rows.lookup id = some row → row.endpointId = some (.str endpointId) →
    row.eventType ∈ ["JobFailed", "FunctionDeleted", "FunctionEndpointDetached"]

/-- The request has still to take the version from the endpoint, or the projector has. -/
def Owes (s : PurgeSystem) (n : ℕ) (endpointId functionId : String) (version : ℤ) : Prop :=
  (∃ purge, s.requests n = .running purge ∧
    ((∃ function ∈ purge.functions, function.functionId = functionId ∧ function.version = version) ∨
      ∃ body ∈ purge.outbox, body.Settles functionId version)) ∨
  ∃ event ∈ s.pending, event.envelope.endpointId = some endpointId ∧
    event.body.Settles functionId version

/-- How far a request for the endpoint is, once it has listed the functions. -/
def Place (model : ReadModel) (endpointId : String) : PurgeRequest → Prop
  | .running purge => purge.endpointId = endpointId
  | .cleared purge =>
    purge.endpointId = endpointId ∧ model.endpoints.lookup (some endpointId) = none
  | .done _ =>
    model.endpoints.lookup (some endpointId) = none ∧ OnlyCascades model.unifiedActivity endpointId
  | .idle | .checked _ | .failed _ => False

/-- The request purges the endpoint. -/
structure Releases (n : ℕ) (endpointId : String) (s : PurgeSystem) : Prop where
  place : Place s.model endpointId (s.requests n)
  quiet : ∀ event ∈ s.pending, event.envelope.endpointId = some endpointId → event.body.IsCascade
  owed : ∀ functionId version, Holds s.model functionId version endpointId →
    s.Owes n endpointId functionId version

/-- The endpoint is gone: it publishes nothing. -/
def Silent (endpointId : String) (_ : PurgeSystem) : PurgeAct → Prop
  | .publish event => event.envelope.endpointId ≠ some endpointId
  | _ => True

theorem Owes.mono (h : s.Owes n endpointId functionId version)
    (hrequest : t.requests n = s.requests n) (hpending : s.pending ⊆ t.pending) :
    t.Owes n endpointId functionId version := by
  rcases h with ⟨purge, hrunning, hpurge⟩ | ⟨event, hevent, hboth⟩
  · exact .inl ⟨purge, hrequest.trans hrunning, hpurge⟩
  · exact .inr ⟨event, hpending hevent, hboth⟩

theorem Place.mono {model model' : ReadModel} (h : Place model endpointId request)
    (hendpoints : model.endpoints.lookup (some endpointId) = none →
      model'.endpoints.lookup (some endpointId) = none)
    (hactivity : OnlyCascades model.unifiedActivity endpointId →
      OnlyCascades model'.unifiedActivity endpointId) : Place model' endpointId request := by
  cases request with
  | running purge => exact h
  | cleared purge => exact ⟨h.1, hendpoints h.2⟩
  | done result => exact ⟨hendpoints h.1, hactivity h.2⟩
  | _ => exact h

/-- A step of another request. -/
theorem Releases.setRequest_of_ne (h : s.Releases n endpointId) (hmn : n ≠ m) :
    (s.setRequest m request).Releases n endpointId where
  place := (requests_setRequest_ne s request hmn).symm ▸ h.place
  quiet := h.quiet
  owed functionId version hholds :=
    (h.owed functionId version hholds).mono (requests_setRequest_ne s request hmn) fun _ => id

theorem onlyCascades_record {rows : Collection String ActivityRow} {event : DomainEvent}
    (h : OnlyCascades rows endpointId)
    (hevent : event.envelope.endpointId = some endpointId → event.body.IsCascade) :
    OnlyCascades (record rows event) endpointId := by
  intro id row hlookup hendpoint
  by_cases hid : id = event.envelope.eventId
  · subst hid
    unfold record at hlookup
    rw [Collection.lookup_upsert] at hlookup
    cases hlookup
    rw [endpointId_activityRow] at hendpoint
    have hcascade := hevent (optional_str_injective (Option.some.inj hendpoint))
    show event.body.eventType ∈ _
    unfold EventBody.IsCascade at hcascade
    split at hcascade
    · rename_i hbody
      rw [hbody]
      exact List.mem_of_elem_eq_true rfl
    · rename_i hbody
      rw [hbody]
      exact List.mem_of_elem_eq_true rfl
    · rename_i hbody
      rw [hbody]
      exact List.mem_of_elem_eq_true rfl
    · cases hcascade
  · unfold record at hlookup
    rw [Collection.lookup_upsert_ne hid] at hlookup
    exact h id row hlookup hendpoint

/-- An event that is projected. -/
theorem Releases.project (h : s.Releases n endpointId) {event : DomainEvent}
    {pending : List DomainEvent} (hpending : s.pending = event :: pending) :
    Releases n endpointId
      { s with
        model := (applyEvent publishes stamp s.model event).1
        pending := pending ++ (applyEvent publishes stamp s.model event).2 } := by
  have hevent : event.envelope.endpointId = some endpointId → event.body.IsCascade :=
    h.quiet event (hpending ▸ List.mem_cons_self)
  refine ⟨h.place.mono (fun hnone => ?_) fun honly => ?_, fun later hlater hsender => ?_,
    fun functionId version hholds => ?_⟩
  · rw [lookup_endpoints_applyEvent, hnone]
    intro hsender payload hbody
    have hcascade := hevent hsender
    rw [hbody] at hcascade
    exact hcascade
  · show OnlyCascades (handle publishes stamp _ event).1.unifiedActivity endpointId
    rw [handle_unifiedActivity]
    exact onlyCascades_record honly hevent
  · rcases List.mem_append.1 hlater with hold | happended
    · exact h.quiet later (hpending ▸ List.mem_cons_of_mem _ hold) hsender
    · rw [(mem_appended happended).1] at hsender
      cases hsender
  · rcases holds_applyEvent hholds with ⟨hsender, payload, hbody⟩ | ⟨hbefore, hnot⟩
    · have hcascade := hevent hsender
      rw [hbody] at hcascade
      exact hcascade.elim
    · rcases h.owed functionId version hbefore with ⟨purge, hpurge⟩ | ⟨later, hlater, hsettles⟩
      · exact .inl ⟨purge, hpurge⟩
      · rw [hpending] at hlater
        rcases List.mem_cons.1 hlater with rfl | hlater
        · exact absurd hsettles hnot
        · exact .inr ⟨later, List.mem_append_left _ hlater, hsettles⟩

/-- One step while the endpoint is silent. -/
theorem Releases.step (h : s.Releases n endpointId) (hsound : s.Sound)
    (hsilent : Silent endpointId s act) (hstep : step publishes s act = some t) :
    t.Releases n endpointId := by
  cases moves_of_step hstep with
  | publish event =>
    refine ⟨h.place, fun later hlater hsender => ?_, fun functionId version hholds => ?_⟩
    · rcases List.mem_append.1 hlater with hold | hnew
      · exact h.quiet later hold hsender
      · exact absurd (List.mem_singleton.1 hnew ▸ hsender) hsilent
    · exact (h.owed functionId version hholds).mono rfl (List.subset_append_left _ _)
  | project hpending => exact h.project hpending
  | check hidle =>
    refine h.setRequest_of_ne fun heq => ?_
    have hplace := h.place
    rw [heq, hidle] at hplace
    exact hplace
  | list hchecked =>
    refine h.setRequest_of_ne fun heq => ?_
    have hplace := h.place
    rw [heq, hchecked] at hplace
    exact hplace
  | @append m stamp purge body rest hrunning houtbox =>
    have hcascade := hsound.outbox _ _ hrunning body (houtbox ▸ List.mem_cons_self)
    have hquiet : ∀ event ∈ s.pending ++ [purge.event stamp body],
        event.envelope.endpointId = some endpointId → event.body.IsCascade := by
      intro event hevent hsender
      rcases List.mem_append.1 hevent with hold | hnew
      · exact h.quiet event hold hsender
      · rw [List.mem_singleton.1 hnew]
        exact hcascade
    by_cases hmn : n = m
    · subst hmn
      have hplace := h.place
      rw [hrunning] at hplace
      refine ⟨?_, hquiet, fun functionId version hholds => ?_⟩
      · rw [requests_setRequest_self]
        show (purge.appended body rest).endpointId = endpointId
        rw [PurgeEndpoint.endpointId_appended]
        exact hplace
      · rcases h.owed functionId version hholds with ⟨purge', hrunning', hpurge⟩ | ⟨event, hevent, hsettles⟩
        · cases hrunning.symm.trans hrunning'
          rcases hpurge with hfunction | ⟨settling, hsettling, hsettles⟩
          · refine .inl ⟨_, requests_setRequest_self .., .inl ?_⟩
            rw [PurgeEndpoint.functions_appended]
            exact hfunction
          · rw [houtbox] at hsettling
            rcases List.mem_cons.1 hsettling with rfl | hrest
            · exact .inr ⟨_, List.mem_append_right _ List.mem_cons_self,
                congrArg some hplace, hsettles⟩
            · refine .inl ⟨_, requests_setRequest_self .., .inr ⟨settling, ?_, hsettles⟩⟩
              rw [PurgeEndpoint.outbox_appended]
              exact hrest
        · exact .inr ⟨event, List.mem_append_left _ hevent, hsettles⟩
    · have hpublished : Releases n endpointId
          { s with pending := s.pending ++ [purge.event stamp body] } :=
        ⟨h.place, hquiet, fun functionId version hholds =>
          (h.owed functionId version hholds).mono rfl (List.subset_append_left _ _)⟩
      exact hpublished.setRequest_of_ne hmn
  | @next m stamp purge function functions hrunning houtbox hfunctions =>
    by_cases hmn : n = m
    · subst hmn
      have hplace := h.place
      rw [hrunning] at hplace
      refine ⟨?_, h.quiet, fun functionId version hholds => ?_⟩
      · rw [requests_setRequest_self]
        exact hplace
      · rcases h.owed functionId version hholds with ⟨purge', hrunning', hpurge⟩ | hevent
        · cases hrunning.symm.trans hrunning'
          refine .inl ⟨_, requests_setRequest_self .., ?_⟩
          rcases hpurge with ⟨listed, hlisted, rfl, rfl⟩ | ⟨body, hbody, -⟩
          · rw [hfunctions] at hlisted
            rcases List.mem_cons.1 hlisted with rfl | hlater
            · exact .inr (exists_settles_cascade ..)
            · exact .inl ⟨listed, hlater, rfl, rfl⟩
          · rw [houtbox] at hbody
            cases hbody
        · exact .inr hevent
    · exact h.setRequest_of_ne hmn
  | @clear m stamp purge hrunning houtbox hfunctions =>
    have herased : s.model.endpoints.lookup (some endpointId) = none →
        (s.model.endpoints.erase (some purge.endpointId)).lookup (some endpointId) = none := by
      intro hnone
      by_cases hsame : endpointId = purge.endpointId
      · rw [hsame]
        exact AList.lookup_erase ..
      · rw [AList.lookup_erase_ne fun heq => hsame (Option.some.inj heq)]
        exact hnone
    by_cases hmn : n = m
    · subst hmn
      have hplace := h.place
      rw [hrunning] at hplace
      refine ⟨?_, h.quiet, fun functionId version hholds => ?_⟩
      · rw [requests_setRequest_self]
        refine ⟨hplace, ?_⟩
        show (s.model.endpoints.erase (some purge.endpointId)).lookup (some endpointId) = none
        rw [show purge.endpointId = endpointId from hplace]
        exact AList.lookup_erase ..
      · rcases h.owed functionId version hholds with ⟨purge', hrunning', hpurge⟩ | hevent
        · cases hrunning.symm.trans hrunning'
          rw [houtbox, hfunctions] at hpurge
          rcases hpurge with ⟨_, hmem, -⟩ | ⟨_, hmem, -⟩ <;> cases hmem
        · exact .inr hevent
    · refine setRequest_of_ne (s := { s with model := _ }) ?_ hmn
      exact ⟨h.place.mono herased id, h.quiet, fun functionId version hholds =>
        (h.owed functionId version hholds).mono rfl fun _ => id⟩
  | @finish m stamp purge hcleared =>
    by_cases hmn : n = m
    · subst hmn
      have hplace := h.place
      rw [hcleared] at hplace
      refine ⟨?_, h.quiet, fun functionId version hholds => ?_⟩
      · unfold finish
        rw [requests_setRequest_self]
        refine ⟨hplace.2, fun id row hrow hendpoint => ?_⟩
        rw [← hplace.1] at hendpoint
        exact absurd hendpoint (lookup_purge_endpoint hrow).2
      · rcases h.owed functionId version hholds with ⟨purge', hrunning', -⟩ | hevent
        · cases hcleared.symm.trans hrunning'
        · exact .inr hevent
    · unfold finish
      refine setRequest_of_ne (s := { s with model := _ }) ?_ hmn
      refine ⟨h.place.mono id fun honly id row hrow => honly id row (lookup_purge_endpoint hrow).1, h.quiet,
        fun functionId version hholds => (h.owed functionId version hholds).mono rfl fun _ => id⟩

/-- The functions are listed. -/
theorem eq_of_list {listed : List ListedFunction} (hchecked : s.requests n = .checked endpointId)
    (hlisted : listByEndpointId s.model.functions endpointId = some listed)
    (hstep : step publishes s (.advance n stamp) = some t) :
    t = s.setRequest n (.running { endpointId := endpointId, functions := listed }) := by
  unfold step at hstep
  dsimp only [advance] at hstep
  rw [hchecked] at hstep
  dsimp only at hstep
  rw [hlisted] at hstep
  exact (Option.some.inj hstep).symm

theorem releases_of_list (hsound : s.Sound) (hchecked : s.requests n = .checked endpointId)
    (hquiet : ∀ event ∈ s.pending, event.envelope.endpointId = some endpointId →
      event.body.IsCascade)
    (hstep : step publishes s (.advance n stamp) = some t) : t.Releases n endpointId := by
  obtain ⟨listed, hlisted, hall, -⟩ := exists_listByEndpointId hsound.functions endpointId
  rw [eq_of_list hchecked hlisted hstep]
  refine ⟨?_, hquiet, fun functionId version hholds => ?_⟩
  · rw [requests_setRequest_self]
    exact rfl
  · obtain ⟨function, hmem, hid, hversion⟩ := hall functionId version hholds
    exact .inl ⟨_, requests_setRequest_self .., .inl ⟨function, hmem, hid, hversion⟩⟩

/-- A request to purge an endpoint, from the step in which it lists the functions to a state in which
it is done and the projector has come to all that it has appended.  However it, other requests, other
endpoints and the projector take turns: when the endpoint itself publishes nothing any more, then no
version that is not deleted lists it, it has no document, and its activity is that of the purge. -/
theorem not_holds_of_done {result : PurgeResult} (hs : Reach (step publishes) Always {} s)
    (hchecked : s.requests n = .checked endpointId)
    (hquiet : ∀ event ∈ s.pending, event.envelope.endpointId = some endpointId →
      event.body.IsCascade)
    (hstep : step publishes s (.advance n stamp) = some t)
    (hrun : Reach (step publishes) (Silent endpointId) t u) (hdone : u.requests n = .done result)
    (hprojected : ∀ event ∈ u.pending, event.envelope.endpointId ≠ some endpointId) :
    (∀ functionId version, ¬ Holds u.model functionId version endpointId) ∧
      u.model.endpoints.lookup (some endpointId) = none ∧
      OnlyCascades u.model.unifiedActivity endpointId := by
  have hsound := sound_of_reach hs
  have hreleases : u.Sound ∧ u.Releases n endpointId :=
    hrun.invariant (I := fun u => u.Sound ∧ u.Releases n endpointId)
      ⟨hsound.step hstep, releases_of_list hsound hchecked hquiet hstep⟩
      fun _ _ _ h hsilent hstep => ⟨h.1.step hstep, h.2.step h.1 hsilent hstep⟩
  have hplace := hreleases.2.place
  rw [hdone] at hplace
  refine ⟨fun functionId version hholds => ?_, hplace⟩
  rcases hreleases.2.owed functionId version hholds with
    ⟨purge, hrunning, -⟩ | ⟨event, hevent, hsender, -⟩
  · cases hdone.symm.trans hrunning
  · exact hprojected event hevent hsender

/-! ### The jobs of the endpoint -/

/-- The request has still to fail the job, or the projector has. -/
def OwesJob (s : PurgeSystem) (n : ℕ) (endpointId jobId functionId : String) (version : ℤ) : Prop :=
  (∃ purge, s.requests n = .running purge ∧ purge.endpointId = endpointId ∧
    ((∃ function ∈ purge.functions, function.functionId = functionId ∧ function.version = version) ∨
      ∃ body ∈ purge.outbox, body.Fails jobId)) ∨
  ∃ event ∈ s.pending, event.body.Fails jobId

/-- The request fails the job. -/
structure FailsJob (n : ℕ) (endpointId jobId functionId : String) (version : ℤ) (job : Job)
    (s : PurgeSystem) : Prop where
  quiet : ∀ event ∈ s.pending, concernsJob jobId event = true → event.body.Fails jobId
  record : (s.model.jobs.lookup jobId = some job ∧ s.OwesJob n endpointId jobId functionId version) ∨
    ∃ failed, s.model.jobs.lookup jobId = some failed ∧ failed.status = .failed

/-- Nothing is published about the job. -/
def SilentOn (jobId : String) (_ : PurgeSystem) : PurgeAct → Prop
  | .publish event => concernsJob jobId event = false
  | _ => True

theorem OwesJob.mono (h : s.OwesJob n endpointId jobId functionId version)
    (hrequest : t.requests n = s.requests n) (hpending : s.pending ⊆ t.pending) :
    t.OwesJob n endpointId jobId functionId version := by
  rcases h with ⟨purge, hrunning, hpurge⟩ | ⟨event, hevent, hfails⟩
  · exact .inl ⟨purge, hrequest.trans hrunning, hpurge⟩
  · exact .inr ⟨event, hpending hevent, hfails⟩

/-- A step that leaves the record of the job. -/
theorem FailsJob.of_owesJob (h : s.FailsJob n endpointId jobId functionId version job)
    (hquiet : ∀ event ∈ t.pending, concernsJob jobId event = true → event.body.Fails jobId)
    (hjobs : t.model.jobs = s.model.jobs)
    (howes : s.model.jobs.lookup jobId = some job →
      s.OwesJob n endpointId jobId functionId version →
      t.OwesJob n endpointId jobId functionId version) :
    t.FailsJob n endpointId jobId functionId version job := by
  refine ⟨hquiet, ?_⟩
  rcases h.record with ⟨hlookup, howed⟩ | hfailed
  · exact .inl ⟨hjobs ▸ hlookup, howes hlookup howed⟩
  · exact .inr (hjobs ▸ hfailed)

theorem fails_of_isCascade (event : DomainEvent) (hcascade : event.body.IsCascade)
    (hconcerns : concernsJob jobId event = true) : event.body.Fails jobId := by
  unfold concernsJob jobPayload? at hconcerns
  split at hconcerns
  · rename_i id function payload hbody
    split_ifs at hconcerns with hid
    · subst hid
      rw [hbody] at hcascade ⊢
      cases payload with
      | failed failure durationMs => exact ⟨function, failure, durationMs, rfl⟩
      | _ => exact hcascade.elim
    · cases hconcerns
  · cases hconcerns

theorem not_concernsJob_of_mem_appended {model : ReadModel} {event appended : DomainEvent}
    (h : appended ∈ (applyEvent publishes stamp model event).2) : concernsJob jobId appended = false := by
  obtain ⟨-, id, payload, hbody⟩ := mem_appended h
  unfold concernsJob jobPayload?
  rw [hbody]
  rfl

/-- One step while nothing is published about the job. -/
theorem FailsJob.step (h : s.FailsJob n endpointId jobId functionId version job) (hsound : s.Sound)
    (hfunction : job.functionId = functionId) (hversion : job.functionVersion = some version)
    (hactive : job.status.isActive = true) (hendpoint : job.endpointId = some endpointId)
    (hsilent : SilentOn jobId s act) (hstep : step publishes s act = some t) :
    t.FailsJob n endpointId jobId functionId version job := by
  cases moves_of_step hstep with
  | publish event =>
    refine h.of_owesJob (fun later hlater hconcerns => ?_) rfl fun _ howed =>
      howed.mono rfl (List.subset_append_left _ _)
    rcases List.mem_append.1 hlater with hold | hnew
    · exact h.quiet later hold hconcerns
    · rw [List.mem_singleton.1 hnew, show concernsJob jobId event = false from hsilent] at hconcerns
      cases hconcerns
  | @project stamp event pending hpending =>
    have hquiet : ∀ later ∈ pending ++ (applyEvent publishes stamp s.model event).2,
        concernsJob jobId later = true → later.body.Fails jobId := by
      intro later hlater hconcerns
      rcases List.mem_append.1 hlater with hold | happended
      · exact h.quiet later (hpending ▸ List.mem_cons_of_mem _ hold) hconcerns
      · rw [not_concernsJob_of_mem_appended happended] at hconcerns
        cases hconcerns
    refine ⟨hquiet, ?_⟩
    show (AList.lookup jobId (applyEvent publishes stamp s.model event).1.jobs = some job ∧ _) ∨
      ∃ failed, AList.lookup jobId (applyEvent publishes stamp s.model event).1.jobs = some failed ∧ _
    rw [lookup_jobs_applyEvent]
    cases hconcerns : concernsJob jobId event with
    | true =>
      obtain ⟨function, failure, durationMs, hbody⟩ :=
        h.quiet event (hpending ▸ List.mem_cons_self) hconcerns
      right
      unfold jobStep
      rw [hbody]
      dsimp only
      rw [if_pos rfl]
      exact ⟨_, rfl, rfl⟩
    | false =>
      rw [jobStep_of_not_concerns _ hconcerns]
      refine h.record.imp_left fun hrecord => ⟨hrecord.1, ?_⟩
      rcases hrecord.2 with hrunning | ⟨later, hlater, hfails⟩
      · exact .inl hrunning
      · rw [hpending] at hlater
        rcases List.mem_cons.1 hlater with rfl | hlater
        · obtain ⟨function, failure, durationMs, hbody⟩ := hfails
          unfold concernsJob jobPayload? at hconcerns
          rw [hbody] at hconcerns
          simp at hconcerns
        · exact .inr ⟨later, List.mem_append_left _ hlater, hfails⟩
  | @check m _ hidle =>
    refine h.of_owesJob h.quiet rfl fun _ howed => ?_
    rcases howed with ⟨purge, hrunning, hpurge⟩ | hevent
    · refine .inl ⟨purge, ?_, hpurge⟩
      rw [requests_setRequest_ne s _ fun heq => ?_]
      · exact hrunning
      · rw [heq, hidle] at hrunning
        cases hrunning
    · exact .inr hevent
  | @list m _ _ hchecked =>
    refine h.of_owesJob h.quiet rfl fun _ howed => ?_
    rcases howed with ⟨purge, hrunning, hpurge⟩ | hevent
    · refine .inl ⟨purge, ?_, hpurge⟩
      rw [requests_setRequest_ne s _ fun heq => ?_]
      · exact hrunning
      · rw [heq, hchecked] at hrunning
        cases hrunning
    · exact .inr hevent
  | @append m stamp purge body rest hrunning houtbox =>
    refine h.of_owesJob (fun later hlater hconcerns => ?_) rfl fun _ howed => ?_
    · rcases List.mem_append.1 hlater with hold | hnew
      · exact h.quiet later hold hconcerns
      · rw [List.mem_singleton.1 hnew] at hconcerns ⊢
        exact fails_of_isCascade (purge.event stamp body)
          (hsound.outbox _ _ hrunning body (houtbox ▸ List.mem_cons_self)) hconcerns
    · rcases howed with ⟨purge', hrunning', hendpoint', hpurge⟩ | ⟨event, hevent, hfails⟩
      · by_cases hmn : n = m
        · subst hmn
          cases hrunning.symm.trans hrunning'
          rcases hpurge with hlisted | ⟨failing, hfailing, hfails⟩
          · refine .inl ⟨_, requests_setRequest_self .., ?_, .inl ?_⟩
            · rw [PurgeEndpoint.endpointId_appended]
              exact hendpoint'
            · rw [PurgeEndpoint.functions_appended]
              exact hlisted
          · rw [houtbox] at hfailing
            rcases List.mem_cons.1 hfailing with rfl | hrest
            · exact .inr ⟨_, List.mem_append_right _ List.mem_cons_self, hfails⟩
            · refine .inl ⟨_, requests_setRequest_self .., ?_, .inr ⟨failing, ?_, hfails⟩⟩
              · rw [PurgeEndpoint.endpointId_appended]
                exact hendpoint'
              · rw [PurgeEndpoint.outbox_appended]
                exact hrest
        · refine .inl ⟨purge', ?_, hendpoint', hpurge⟩
          rw [requests_setRequest_ne _ _ hmn]
          exact hrunning'
      · exact .inr ⟨event, List.mem_append_left _ hevent, hfails⟩
  | @next m stamp purge function functions hrunning houtbox hfunctions =>
    refine h.of_owesJob h.quiet rfl fun hlookup howed => ?_
    rcases howed with ⟨purge', hrunning', hendpoint', hpurge⟩ | hevent
    · by_cases hmn : n = m
      · subst hmn
        cases hrunning.symm.trans hrunning'
        refine .inl ⟨_, requests_setRequest_self .., hendpoint', ?_⟩
        rcases hpurge with ⟨listed, hlisted, hid, hv⟩ | ⟨body, hbody, -⟩
        · rw [hfunctions] at hlisted
          rcases List.mem_cons.1 hlisted with rfl | hlater
          · refine .inr ⟨_, mem_cascade.2 (.inl ⟨job, ⟨jobId, hlookup⟩, ?_, ?_, hactive, ?_, rfl⟩), ?_⟩
            · rw [hid]
              exact hfunction
            · rw [hv]
              exact hversion
            · rw [hendpoint, hendpoint']
            · unfold purgedJob
              rw [hsound.jobs jobId job hlookup]
              exact ⟨_, _, _, rfl⟩
          · exact .inl ⟨listed, hlater, hid, hv⟩
        · rw [houtbox] at hbody
          cases hbody
      · refine .inl ⟨purge', ?_, hendpoint', hpurge⟩
        rw [requests_setRequest_ne _ _ hmn]
        exact hrunning'
    · exact .inr hevent
  | @clear m stamp purge hrunning houtbox hfunctions =>
    refine h.of_owesJob h.quiet rfl fun _ howed => ?_
    rcases howed with ⟨purge', hrunning', hendpoint', hpurge⟩ | hevent
    · refine .inl ⟨purge', ?_, hendpoint', hpurge⟩
      rw [requests_setRequest_ne _ _ fun heq => ?_]
      · exact hrunning'
      · subst heq
        cases hrunning.symm.trans hrunning'
        rw [houtbox, hfunctions] at hpurge
        rcases hpurge with ⟨_, hmem, -⟩ | ⟨_, hmem, -⟩ <;> cases hmem
    · exact .inr hevent
  | @finish m stamp purge hcleared =>
    unfold finish
    refine h.of_owesJob h.quiet rfl fun _ howed => ?_
    rcases howed with ⟨purge', hrunning', hpurge⟩ | hevent
    · refine .inl ⟨purge', ?_, hpurge⟩
      rw [requests_setRequest_ne _ _ fun heq => ?_]
      · exact hrunning'
      · subst heq
        cases hcleared.symm.trans hrunning'
    · exact .inr hevent

/-- A job of the endpoint that is queued or started when a request to purge the endpoint lists the
functions, and whose version is among them: when the request is done and the projector has come to
all that was published about the job, it has failed, unless something else was published about it. -/
theorem failed_of_done {result : PurgeResult} (hs : Reach (step publishes) Always {} s)
    (hchecked : s.requests n = .checked endpointId)
    (hjob : s.model.jobs.lookup jobId = some job) (hactive : job.status.isActive = true)
    (hendpoint : job.endpointId = some endpointId) (hversion : job.functionVersion = some version)
    (hholds : Holds s.model job.functionId version endpointId)
    (hquiet : ∀ event ∈ s.pending, concernsJob jobId event = false)
    (hstep : step publishes s (.advance n stamp) = some t)
    (hrun : Reach (step publishes) (SilentOn jobId) t u) (hdone : u.requests n = .done result)
    (hprojected : ∀ event ∈ u.pending, concernsJob jobId event = false) :
    ∃ failed, u.model.jobs.lookup jobId = some failed ∧ failed.status = .failed := by
  have hsound := sound_of_reach hs
  have hstart : t.FailsJob n endpointId jobId job.functionId version job := by
    obtain ⟨listed, hlisted, hall, -⟩ := exists_listByEndpointId hsound.functions endpointId
    rw [eq_of_list hchecked hlisted hstep]
    refine ⟨fun event hevent hconcerns => ?_, .inl ⟨hjob, ?_⟩⟩
    · rw [hquiet event hevent] at hconcerns
      cases hconcerns
    · obtain ⟨function, hmem, hid, hv⟩ := hall _ _ hholds
      exact .inl ⟨_, requests_setRequest_self .., rfl, .inl ⟨function, hmem, hid, hv⟩⟩
  have hfails : u.Sound ∧ u.FailsJob n endpointId jobId job.functionId version job :=
    hrun.invariant (I := fun u => u.Sound ∧ u.FailsJob n endpointId jobId job.functionId version job)
      ⟨hsound.step hstep, hstart⟩ fun _ _ _ h hsilent hstep =>
        ⟨h.1.step hstep, h.2.step h.1 rfl hversion hactive hendpoint hsilent hstep⟩
  rcases hfails.2.record with ⟨-, ⟨purge, hrunning, -⟩ | ⟨event, hevent, hfails⟩⟩ | hfailed
  · cases hdone.symm.trans hrunning
  · obtain ⟨function, failure, durationMs, hbody⟩ := hfails
    have hnot := hprojected event hevent
    unfold concernsJob jobPayload? at hnot
    rw [hbody] at hnot
    simp at hnot
  · exact hfailed

/-! ### Functions without an endpoint -/

/-- The version is deleted or held by another endpoint. -/
def Survives (model : ReadModel) (functionId : String) (version : ℤ) (endpointId : String) : Prop :=
  ∃ doc, model.functions.lookup (functionKey functionId version) = some doc ∧
    (doc.deleted = true ∨ ∃ holder ∈ doc.holders, holder ≠ endpointId)

/-- What an endpoint publishes: its function events say who it is, and no endpoint is detached but by
a purge. -/
def Sent (event : DomainEvent) : Prop :=
  match event.body with
  | .function .. => event.envelope.endpointId ≠ none
  | .functionEndpointDetached .. => False
  | _ => True

/-- No request lists the functions while another is not finished with them, or the projector is not
through with what it has appended. -/
def OneByOne (s : PurgeSystem) : PurgeAct → Prop
  | .publish event => Sent event
  | .advance n _ =>
    (∃ endpointId, s.requests n = .checked endpointId) →
      (∀ m purge, s.requests m ≠ .running purge) ∧
        ∀ event ∈ s.pending, ∀ functionId version,
          event.body ≠ .functionEndpointDetached functionId version
  | _ => True

/-- The requests that run, and what they have appended, are all for one endpoint, which is taken only
from versions that survive it. -/
structure OnePurge (s : PurgeSystem) (endpointId : String) : Prop where
  running : ∀ n purge, s.requests n = .running purge → purge.endpointId = endpointId ∧
    (∀ function ∈ purge.functions, function.endpointId.filter (· ≠ endpointId) ≠ [] →
      Survives s.model function.functionId function.version endpointId) ∧
    ∀ functionId version, .functionEndpointDetached functionId version ∈ purge.outbox →
      Survives s.model functionId version endpointId
  pending : ∀ event ∈ s.pending, ∀ functionId version,
    event.body = .functionEndpointDetached functionId version →
      event.envelope.endpointId = some endpointId ∧ Survives s.model functionId version endpointId

/-- Every version that is not deleted has an endpoint. -/
def AllHeld (model : ReadModel) : Prop :=
  ∀ functionId version doc, model.functions.lookup (functionKey functionId version) = some doc →
    doc.deleted = false → doc.holders ≠ []

theorem survives_applyEvent {model : ReadModel} {event : DomainEvent}
    (h : Survives model functionId version endpointId)
    (hdetached : event.body = .functionEndpointDetached functionId version →
      event.envelope.endpointId = some endpointId) :
    Survives (applyEvent publishes stamp model event).1 functionId version endpointId := by
  obtain ⟨doc, hlookup, hdoc⟩ := h
  have hsame : ∀ {doc'}, some doc = some doc' → ∃ doc'', some doc' = some doc'' ∧
      (doc''.deleted = true ∨ ∃ holder ∈ doc''.holders, holder ≠ endpointId) := by
    rintro _ ⟨⟩
    exact ⟨doc, rfl, hdoc⟩
  unfold Survives
  rw [lookup_functions_applyEvent, hlookup]
  unfold functionStep
  cases hbody : event.body with
  | function id v payload =>
    dsimp only
    split_ifs with hversion
    · refine ⟨_, rfl, ?_⟩
      rw [FunctionDocument.deleted_apply hbody, FunctionDocument.holders_apply]
      refine hdoc.imp_right fun ⟨holder, hmem, hne⟩ => ⟨holder, ?_, hne⟩
      cases event.envelope.endpointId with
      | none => exact hmem
      | some sender => exact mem_addToSet.2 (.inl hmem)
    · exact hsame rfl
  | functionDeleted id v =>
    dsimp only
    split_ifs with hversion
    · exact ⟨_, rfl, .inl rfl⟩
    · exact hsame rfl
  | functionEndpointDetached id v =>
    dsimp only
    split_ifs with hversion
    · obtain ⟨rfl, rfl⟩ := hversion
      refine ⟨_, rfl, hdoc.imp_right fun ⟨holder, hmem, hne⟩ => ⟨holder, ?_, hne⟩⟩
      refine FunctionDocument.mem_holders_detach.2 ⟨hmem, fun heq => hne ?_⟩
      exact Option.some.inj (heq.trans (hdetached hbody))
    · exact hsame rfl
  | _ => exact hsame rfl

theorem allHeld_applyEvent {model : ReadModel} {event : DomainEvent} (h : AllHeld model)
    (hsent : ∀ functionId version payload, event.body = .function functionId version payload →
      event.envelope.endpointId ≠ none)
    (hdetached : ∀ functionId version, event.body = .functionEndpointDetached functionId version →
      ∃ endpointId, event.envelope.endpointId = some endpointId ∧
        Survives model functionId version endpointId) :
    AllHeld (applyEvent publishes stamp model event).1 := by
  intro functionId version doc' hlookup hlive
  rw [lookup_functions_applyEvent] at hlookup
  rcases live_functionStep hlookup hlive with
    ⟨payload, hbody, -, hholders⟩ | ⟨hbody, old, hold, rfl⟩ | ⟨hold, -, -⟩
  · obtain ⟨sender, hsender⟩ := Option.ne_none_iff_exists'.1 (hsent _ _ _ hbody)
    rw [hholders, hsender]
    exact List.ne_nil_of_mem (mem_addToSet.2 (.inr rfl))
  · obtain ⟨endpointId, hsender, doc, hdoc, hsurvives⟩ := hdetached _ _ hbody
    cases hold.symm.trans hdoc
    rcases hsurvives with hdeleted | ⟨holder, hmem, hne⟩
    · rw [FunctionDocument.deleted_detach, hdeleted] at hlive
      cases hlive
    · refine List.ne_nil_of_mem (FunctionDocument.mem_holders_detach.2 ⟨hmem, ?_⟩)
      rw [hsender]
      exact fun heq => hne (Option.some.inj heq)
  · exact h _ _ doc' hold hlive

/-- What one purge at a time keeps. -/
structure Held (s : PurgeSystem) : Prop where
  sent : ∀ event ∈ s.pending, ∀ functionId version payload,
    event.body = .function functionId version payload → event.envelope.endpointId ≠ none
  held : AllHeld s.model
  one : ∃ endpointId, s.OnePurge endpointId

/-- A request gets to another place, which is not running or runs as the others do. -/
theorem OnePurge.setRequest (h : s.OnePurge endpointId)
    (hrequest : ∀ purge, request = .running purge → purge.endpointId = endpointId ∧
      (∀ function ∈ purge.functions, function.endpointId.filter (· ≠ endpointId) ≠ [] →
        Survives s.model function.functionId function.version endpointId) ∧
      ∀ functionId version, .functionEndpointDetached functionId version ∈ purge.outbox →
        Survives s.model functionId version endpointId) :
    (s.setRequest n request).OnePurge endpointId where
  running m purge hm := by
    rcases of_requests_setRequest hm with ⟨-, hrunning⟩ | hother
    · exact hrequest purge hrunning
    · exact h.running m purge hother
  pending := h.pending

theorem Held.step (h : s.Held) (hsound : s.Sound) (hguard : OneByOne s act)
    (hstep : PurgeSystem.step publishes s act = some t) : t.Held := by
  obtain ⟨endpointId, hone⟩ := h.one
  cases moves_of_step hstep with
  | publish event =>
    have hsent : Sent event := hguard
    unfold Sent at hsent
    refine ⟨fun later hlater id v payload hbody => ?_, h.held, endpointId, hone.running,
      fun later hlater id v hbody => ?_⟩
    · rcases List.mem_append.1 hlater with hold | hnew
      · exact h.sent later hold id v payload hbody
      · rw [List.mem_singleton.1 hnew] at hbody ⊢
        rw [hbody] at hsent
        exact hsent
    · rcases List.mem_append.1 hlater with hold | hnew
      · exact hone.pending later hold id v hbody
      · rw [List.mem_singleton.1 hnew] at hbody
        rw [hbody] at hsent
        exact hsent.elim
  | @project stamp event pending hpending =>
    have hsurvives : ∀ id v, Survives s.model id v endpointId →
        Survives (applyEvent publishes stamp s.model event).1 id v endpointId := fun id v hid =>
      survives_applyEvent hid fun hbody =>
        (hone.pending event (hpending ▸ List.mem_cons_self) id v hbody).1
    have hlater : ∀ later ∈ pending ++ (applyEvent publishes stamp s.model event).2,
        later ∈ s.pending ∨ ∃ id payload, later.body = .virtualEnv id payload := by
      intro later hmem
      rcases List.mem_append.1 hmem with hold | happended
      · exact .inl (hpending ▸ List.mem_cons_of_mem _ hold)
      · exact .inr (mem_appended happended).2
    refine ⟨fun later hmem id v payload hbody => ?_, ?_, endpointId, fun n purge hrunning => ?_,
      fun later hmem id v hbody => ?_⟩
    · rcases hlater later hmem with hold | ⟨_, _, happended⟩
      · exact h.sent later hold id v payload hbody
      · cases happended.symm.trans hbody
    · exact allHeld_applyEvent h.held (h.sent event (hpending ▸ List.mem_cons_self))
        fun id v hbody =>
          ⟨endpointId, hone.pending event (hpending ▸ List.mem_cons_self) id v hbody⟩
    · obtain ⟨hid, hfunctions, houtbox⟩ := hone.running n purge hrunning
      exact ⟨hid, fun function hmem hother => hsurvives _ _ (hfunctions function hmem hother),
        fun id v hmem => hsurvives _ _ (houtbox id v hmem)⟩
    · rcases hlater later hmem with hold | ⟨_, _, happended⟩
      · exact (hone.pending later hold id v hbody).imp_right (hsurvives id v)
      · cases happended.symm.trans hbody
  | check hidle =>
    exact ⟨h.sent, h.held, endpointId, hone.setRequest fun purge heq =>
      absurd heq (checkPurge_ne_running _ _ _)⟩
  | @list n stamp listing hchecked =>
    obtain ⟨hnone, hundetached⟩ := hguard ⟨listing, hchecked⟩
    obtain ⟨listed, hlisted, -, hdocs⟩ := exists_listByEndpointId hsound.functions listing
    rw [hlisted]
    have hlisting : s.OnePurge listing :=
      ⟨fun m purge hrunning => absurd hrunning (hnone m purge),
        fun event hevent id v hbody => absurd hbody (hundetached event hevent id v)⟩
    refine ⟨h.sent, h.held, listing, hlisting.setRequest fun purge heq => ?_⟩
    cases heq
    refine ⟨rfl, fun function hmem hother => ?_, fun id v hmem => absurd hmem List.not_mem_nil⟩
    obtain ⟨doc, hlookup, -, hholders⟩ := hdocs function hmem
    obtain ⟨holder, hholder⟩ := List.exists_mem_of_ne_nil _ hother
    obtain ⟨hin, hne⟩ := List.mem_filter.1 hholder
    exact ⟨doc, hlookup, .inr ⟨holder, hholders ▸ hin, of_decide_eq_true hne⟩⟩
  | @append n stamp purge body rest hrunning houtbox =>
    obtain ⟨hid, hfunctions, hdetached⟩ := hone.running n purge hrunning
    have happended : OnePurge { s with pending := s.pending ++ [purge.event stamp body] } endpointId := by
      refine ⟨hone.running, fun event hevent id v hbody => ?_⟩
      rcases List.mem_append.1 hevent with hold | hnew
      · exact hone.pending event hold id v hbody
      · rw [List.mem_singleton.1 hnew] at hbody ⊢
        refine ⟨congrArg some hid, hdetached id v ?_⟩
        rw [houtbox, ← show body = _ from hbody]
        exact List.mem_cons_self
    refine ⟨fun event hevent id v payload hbody => ?_, h.held, endpointId,
      happended.setRequest fun purge' heq => ?_⟩
    · rcases List.mem_append.1 hevent with hold | hnew
      · exact h.sent event hold id v payload hbody
      · rw [List.mem_singleton.1 hnew]
        exact Option.some_ne_none _
    · cases heq
      rw [PurgeEndpoint.endpointId_appended, PurgeEndpoint.functions_appended,
        PurgeEndpoint.outbox_appended]
      exact ⟨hid, hfunctions, fun id v hmem =>
        hdetached id v (houtbox ▸ List.mem_cons_of_mem _ hmem)⟩
  | @next n stamp purge function functions hrunning houtbox hfunctions =>
    obtain ⟨hid, hsurvive, -⟩ := hone.running n purge hrunning
    rw [hfunctions] at hsurvive
    refine ⟨h.sent, h.held, endpointId, hone.setRequest fun purge' heq => ?_⟩
    cases heq
    refine ⟨hid, fun later hlater => hsurvive later (List.mem_cons_of_mem _ hlater),
      fun id v hmem => ?_⟩
    rcases mem_cascade.1 hmem with ⟨job, -, -, -, -, -, hjob⟩ | hbody
    · cases hjob
    · split_ifs at hbody with hlast
      cases hbody
      exact hsurvive function List.mem_cons_self (hid ▸ hlast)
  | clear =>
    exact ⟨h.sent, h.held, endpointId,
      OnePurge.setRequest ⟨hone.running, hone.pending⟩ fun purge heq => by cases heq⟩
  | finish =>
    unfold finish
    exact ⟨h.sent, h.held, endpointId,
      OnePurge.setRequest ⟨hone.running, hone.pending⟩ fun purge heq => by cases heq⟩

/-- As long as one purge is projected before the next one lists its functions, a version that is not
deleted never loses its last endpoint. -/
theorem holders_ne_nil_of_reach {doc : FunctionDocument} (h : Reach (step publishes) OneByOne {} s)
    (hlookup : s.model.functions.lookup (functionKey functionId version) = some doc)
    (hlive : doc.deleted = false) : doc.holders ≠ [] := by
  have hheld : s.Sound ∧ s.Held := by
    refine h.invariant (I := fun s => s.Sound ∧ s.Held)
      ⟨sound_of_reach (show Reach (step publishes) Always {} {} from .refl), ?_⟩
      fun _ _ _ hs hguard hstep => ⟨hs.1.step hstep, hs.2.step hs.1 hguard hstep⟩
    refine ⟨fun event hevent => absurd hevent List.not_mem_nil, fun id v doc hdoc => ?_, "",
      fun n purge hrunning => ?_, fun event hevent => absurd hevent List.not_mem_nil⟩
    · cases hdoc
    · cases hrunning
  exact hheld.2.held functionId version doc hlookup hlive

/-! ### Two endpoints that hold a function -/

/-- An event that an endpoint publishes. -/
def published (endpointId : String) (body : EventBody) : PurgeAct :=
  .publish
    { envelope :=
        { eventId := "e", createdAt := "2024-01-01T00:00:00Z", endpointId := some endpointId }
      body := body }

def projected : PurgeAct := .project ⟨"e", "2024-01-01T00:00:00Z"⟩

def advanced (n : ℕ) : PurgeAct := .advance n ⟨"e", "2024-01-01T00:00:00Z"⟩

/-- A function is registered at `n1` and `n2`, a job of it is queued at `n1`, and both stop. -/
def bothStopped : List PurgeAct :=
  [published "n1" (.function "f" 1 (.registered none none none none)),
    published "n2" (.function "f" 1 (.registered none none none none)),
    published "n1" (.job "j" "f" (.queued (some 1) none)),
    published "n1" (.endpoint (.stopped "1.0")), published "n2" (.endpoint (.stopped "1.0")),
    projected, projected, projected, projected, projected, .check 0 "n1", .check 1 "n2"]

/-- The rest of a purge with one job, and of the projection of its two events. -/
def purgedAlone : List PurgeAct :=
  [advanced 0, advanced 0, advanced 0, advanced 0, advanced 0, projected, projected]

/-- The states of the purge of `n1`, before and after it lists the functions, and when it is
projected. -/
theorem exists_purgedAlone : ∃ s t u result, run (step true) {} bothStopped = some s ∧
    step true s (advanced 0) = some t ∧ run (step true) t purgedAlone = some u ∧
    s.requests 0 = .checked "n1" ∧ s.pending = [] ∧ u.requests 0 = .done result ∧ u.pending = [] ∧
    s.model.jobs.lookup "j" = some
      { jobId := "j"
        functionId := "f"
        status := .queued
        functionVersion := some 1
        endpointId := some "n1"
        createdAt := some "2024-01-01T00:00:00Z" } ∧
    Holds s.model "f" 1 "n1" :=
  ⟨_, _, _, _, rfl, rfl, rfl, rfl, rfl, rfl, rfl, rfl, _, rfl, rfl, List.mem_cons_self⟩

/-- The projected purge of `n1`. -/
theorem not_holds_of_done_purgedAlone : ∃ u : PurgeSystem,
    (∀ functionId version, ¬ Holds u.model functionId version "n1") ∧
    u.model.endpoints.lookup (some "n1") = none ∧ OnlyCascades u.model.unifiedActivity "n1" := by
  obtain ⟨s, t, u, result, hs, hstep, hu, hchecked, hspending, hdone, hupending, -, -⟩ :=
    exists_purgedAlone
  have hsilent : ∀ act ∈ purgedAlone, ∀ s, Silent "n1" s act := by
    simp only [purgedAlone, List.forall_mem_cons]
    exact ⟨fun _ => trivial, fun _ => trivial, fun _ => trivial, fun _ => trivial, fun _ => trivial,
      fun _ => trivial, fun _ => trivial, fun act hact => absurd hact List.not_mem_nil⟩
  refine ⟨u, not_holds_of_done (reach_of_run hs) hchecked ?_ hstep
    ((eachStep_of_forall hsilent).reach hu) hdone ?_⟩
  · rw [hspending]
    exact fun event hevent => absurd hevent List.not_mem_nil
  · rw [hupending]
    exact fun event hevent => absurd hevent List.not_mem_nil

/-- Its job has failed. -/
theorem failed_of_done_purgedAlone : ∃ (u : PurgeSystem) (failed : Job),
    u.model.jobs.lookup "j" = some failed ∧ failed.status = .failed := by
  obtain ⟨s, t, u, result, hs, hstep, hu, hchecked, hspending, hdone, hupending, hjob, hholds⟩ :=
    exists_purgedAlone
  have hsilent : ∀ act ∈ purgedAlone, ∀ s, SilentOn "j" s act := by
    simp only [purgedAlone, List.forall_mem_cons]
    exact ⟨fun _ => trivial, fun _ => trivial, fun _ => trivial, fun _ => trivial, fun _ => trivial,
      fun _ => trivial, fun _ => trivial, fun act hact => absurd hact List.not_mem_nil⟩
  refine ⟨u, failed_of_done (reach_of_run hs) hchecked hjob rfl rfl rfl hholds ?_ hstep
    ((eachStep_of_forall hsilent).reach hu) hdone ?_⟩
  · rw [hspending]
    exact fun event hevent => absurd hevent List.not_mem_nil
  · rw [hupending]
    exact fun event hevent => absurd hevent List.not_mem_nil

/-- The step lists no functions, and what it publishes is what an endpoint may publish. -/
def listsNothing (s : PurgeSystem) : PurgeAct → Bool
  | .publish event =>
    match event.body with
    | .function .. => event.envelope.endpointId.isSome
    | .functionEndpointDetached .. => false
    | _ => true
  | .advance n _ =>
    match s.requests n with
    | .checked _ => false
    | _ => true
  | _ => true

theorem oneByOne_of_listsNothing (h : s.listsNothing act = true) : s.OneByOne act := by
  cases act with
  | publish event =>
    unfold listsNothing at h
    dsimp only at h
    show Sent event
    unfold Sent
    split at h
    · exact Option.isSome_iff_ne_none.1 h
    · cases h
    · trivial
  | advance n stamp =>
    rintro ⟨endpointId, hchecked⟩
    unfold listsNothing at h
    dsimp only at h
    rw [hchecked] at h
    cases h
  | _ => trivial

theorem not_running_of_reach
    (h : Reach (step publishes) (fun _ act => ∀ n stamp, act ≠ .advance n stamp) {} s) :
    ∀ m purge, s.requests m ≠ .running purge := by
  refine h.invariant (I := fun s => ∀ m purge, s.requests m ≠ .running purge) ?_ ?_
  · exact fun m purge hrunning => by cases hrunning
  · intro s act t hs hnot hstep
    cases moves_of_step hstep with
    | publish => exact hs
    | project => exact hs
    | check =>
      intro m purge hrunning
      rcases of_requests_setRequest hrunning with ⟨-, hcheck⟩ | hold
      · exact checkPurge_ne_running _ _ _ hcheck
      · exact hs m purge hold
    | _ => exact absurd rfl (hnot _ _)

/-- After the purge of `n1` the function is held, by `n2`. -/
theorem holders_ne_nil_purgedAlone : ∃ (u : PurgeSystem) (doc : FunctionDocument),
    u.model.functions.lookup (functionKey "f" 1) = some doc ∧ doc.holders ≠ [] := by
  obtain ⟨s, t, u, doc, hs, hstep, hu, hpending, hdoc, hlive⟩ : ∃ s t u doc,
      run (guarded (step true) fun s act => s.listsNothing act = true) {} bothStopped = some s ∧
      step true s (advanced 0) = some t ∧
      run (guarded (step true) fun s act => s.listsNothing act = true) t purgedAlone = some u ∧
      s.pending = [] ∧ u.model.functions.lookup (functionKey "f" 1) = some doc ∧
      doc.deleted = false := ⟨_, _, _, _, rfl, rfl, rfl, rfl, rfl, rfl⟩
  have hnoAdvance : EachStep (step true) (fun _ act => ∀ n stamp, act ≠ .advance n stamp) {}
      bothStopped := eachStep_of_forall (by simp [bothStopped, published, projected])
  have hrunning := not_running_of_reach (hnoAdvance.reach (run_of_guarded_run hs))
  have hbefore := (reach_of_guarded_run hs).mono fun _ _ => oneByOne_of_listsNothing
  have hafter := (reach_of_guarded_run hu).mono fun _ _ => oneByOne_of_listsNothing
  have hlist : OneByOne s (advanced 0) := fun _ => ⟨hrunning, by simp [hpending]⟩
  exact ⟨u, doc, hdoc, holders_ne_nil_of_reach ((hbefore.tail hlist hstep).trans hafter) hdoc hlive⟩

/-- When both purges list the function before either is projected, each detaches its own endpoint,
and the function is left with none. -/
theorem holders_nil_of_overlap : ∃ s, Reach (step true) Always {} s ∧ s.pending = [] ∧
    ∃ doc, s.model.functions.lookup (functionKey "f" 1) = some doc ∧ doc.deleted = false ∧
      doc.holders = [] := by
  obtain ⟨s, doc, hs, hpending, hdoc, hlive, hholders⟩ : ∃ s doc,
      run (step true) {}
        (bothStopped ++ [advanced 0, advanced 1, advanced 0, advanced 0, advanced 0, advanced 1,
          advanced 1, projected, projected, projected]) = some s ∧
      s.pending = [] ∧ s.model.functions.lookup (functionKey "f" 1) = some doc ∧
      doc.deleted = false ∧ doc.holders = [] := ⟨_, _, rfl, rfl, rfl, rfl, rfl⟩
  exact ⟨s, reach_of_run hs, hpending, doc, hdoc, hlive, hholders⟩

end PurgeSystem

end Axo.Projector
