import Axo.Consensus.KeyText
import Axo.Projector.ReadModel

/-!
# The documents of functions

What the events about a version of a function make of its document in `functions`.

* `functionStep` is one event, `lookup_functions_applyEvent` its place in the read model;
* `Sending.published` is `ExternalEventForwardingBridge._publish`, which stamps whatever an endpoint
  sends with the virtual environment that the endpoint is in;
* `virtualEnvironment_kept_iff`: the document keeps the virtual environment of a registration exactly
  as long as the events that update it are sent from there.
-/

namespace Axo.Projector

variable {functionId : String} {version : ℤ} {event : DomainEvent}

/-- A key belongs to one version. -/
theorem functionKey_injective {f g : String} {v w : ℤ} (h : functionKey f v = functionKey g w) :
    f = g ∧ v = w := by
  have hparts := congrArg rpartition h
  unfold functionKey at hparts
  rw [rpartition_append f (colon_notMem_repr v), rpartition_append g (colon_notMem_repr w)] at hparts
  obtain ⟨hid, hversion⟩ := Prod.mk.inj hparts
  have hint := congrArg (fun text : String => intOfStr text.toList) hversion
  simp only [intOfStr_repr] at hint
  exact ⟨hid, Option.some.inj hint⟩

/-! ### One document -/

/-- What an event does to the document of a version. -/
def functionStep (functionId : String) (version : ℤ) (doc : Option FunctionDocument)
    (event : DomainEvent) : Option FunctionDocument :=
  match event.body with
  | .function id v payload =>
    if id = functionId ∧ v = version then
      some (FunctionDocument.apply doc
        (withField event.data "container_status" payload.containerStatus?)
        event.envelope.endpointId)
    else doc
  | .functionDeleted id v =>
    if id = functionId ∧ v = version then
      some (FunctionDocument.markDeleted doc event.envelope.createdAt)
    else doc
  | .functionEndpointDetached id v =>
    if id = functionId ∧ v = version then
      doc.map (FunctionDocument.detach event.envelope.endpointId)
    else doc
  | _ => doc

theorem lookup_functions_applyEvent (functionId : String) (version : ℤ) (publishes : Bool)
    (stamp : EventStamp) (s : ReadModel) (event : DomainEvent) :
    (applyEvent publishes stamp s event).1.functions.lookup (functionKey functionId version) =
      functionStep functionId version (s.functions.lookup (functionKey functionId version))
        event := by
  cases hbody : event.body with
  | function id v payload =>
    simp only [applyEvent, handle, hbody, functionStep]
    split_ifs with hsame
    · rw [hsame.1, hsame.2, Collection.lookup_upsert]
    · exact Collection.lookup_upsert_ne fun hkey =>
        hsame ⟨(functionKey_injective hkey).1.symm, (functionKey_injective hkey).2.symm⟩
  | functionDeleted id v =>
    simp only [applyEvent, handle, hbody, functionStep]
    split_ifs with hsame
    · rw [hsame.1, hsame.2, Collection.lookup_upsert]
    · exact Collection.lookup_upsert_ne fun hkey =>
        hsame ⟨(functionKey_injective hkey).1.symm, (functionKey_injective hkey).2.symm⟩
  | functionEndpointDetached id v =>
    simp only [applyEvent, handle, hbody, functionStep]
    split_ifs with hsame
    · rw [hsame.1, hsame.2, Collection.lookup_updateOne]
    · exact Collection.lookup_updateOne_ne fun hkey =>
        hsame ⟨(functionKey_injective hkey).1.symm, (functionKey_injective hkey).2.symm⟩
  | consensus term payload =>
    simp only [applyEvent, handle, hbody, applyConsensus, functionStep]
    cases payload.leaderIds? <;> rfl
  | data name payload =>
    simp only [applyEvent, handle, hbody, functionStep]
    cases payload <;> rfl
  | _ => simp only [applyEvent, handle, hbody, functionStep]

/-! ### The fields of a document -/

theorem lookup_cons_of_ne {k : String} {field : String × Value} (fields : Fields)
    (h : k ≠ field.1) : (field :: fields).lookup k = fields.lookup k := by
  rw [List.lookup_cons, beq_false_of_ne h]

theorem lookup_filter_ne {key k : String} (fields : Fields) (h : k ≠ key) :
    (fields.filter fun field => field.1 ≠ key).lookup k = fields.lookup k := by
  induction fields with
  | nil => rfl
  | cons field fields ih =>
    by_cases hfield : field.1 = key
    · rw [List.filter_cons_of_neg (by simpa using hfield), ih,
        lookup_cons_of_ne fields (hfield ▸ h)]
    · rw [List.filter_cons_of_pos (by simpa using hfield), List.lookup_cons, List.lookup_cons, ih]

theorem lookup_withField_ne {key k : String} (data : Fields) (value : Option String)
    (h : k ≠ key) : (withField data key value).lookup k = data.lookup k := by
  cases value with
  | none => rfl
  | some value => exact lookup_cons_of_ne data h

/-- An event gives a document the fields that it has, and leaves the others. -/
theorem FunctionDocument.fields_apply {k : String} (doc : Option FunctionDocument) (data : Fields)
    (status endpointId : Option String) (hstatus : k ≠ "container_status")
    (hendpoint : k ≠ "endpoint_id") :
    (FunctionDocument.apply doc (withField data "container_status" status) endpointId).fields k =
      (data.lookup k).or ((doc.getD {}).fields k) := by
  unfold FunctionDocument.apply Document.set
  dsimp only
  rw [lookup_filter_ne _ hendpoint, lookup_withField_ne _ _ hstatus]

theorem FunctionDocument.fields_markDeleted {k : String} (doc : Option FunctionDocument)
    (createdAt : String) (h : k ≠ "deleted_at") :
    (FunctionDocument.markDeleted doc createdAt).fields k = (doc.getD {}).fields k := by
  unfold FunctionDocument.markDeleted
  exact Document.set_of_lookup_none (lookup_cons_of_ne [] h)

/-! ### The virtual environment -/

/-- An event of `FUNCTION_EVENT_TYPES` about the version. -/
def updatesFunction (functionId : String) (version : ℤ) (event : DomainEvent) : Bool :=
  match event.body with
  | .function id v _ => decide (id = functionId ∧ v = version)
  | _ => false

/-- A `FunctionRegistered` about the version. -/
def registersFunction (functionId : String) (version : ℤ) (event : DomainEvent) : Bool :=
  match event.body with
  | .function id v (.registered ..) => decide (id = functionId ∧ v = version)
  | _ => false

/-- What an endpoint sends, and the virtual environment that it is in. -/
structure Sending where
  virtualEnvironmentId : Option String
  event : DomainEvent

/-- `_publish`. -/
def Sending.published (sending : Sending) : DomainEvent :=
  { sending.event with
    envelope :=
      { sending.event.envelope with virtualEnvironmentId := sending.virtualEnvironmentId } }

/-- `doc.get("virtual_environment_id")`, `none` without the document or the field. -/
def virtualEnvironmentIn (s : ReadModel) (functionId : String) (version : ℤ) : Option Value :=
  (s.functions.lookup (functionKey functionId version)).bind fun doc =>
    doc.fields "virtual_environment_id"

theorem optional_str_injective {x y : Option String} (h : optional Value.str x = optional .str y) :
    x = y := by
  cases x <;> cases y <;> cases h <;> rfl

/-- A function event carries the virtual environment of its envelope. -/
theorem lookup_data_virtualEnvironmentId {id : String} {v : ℤ} {payload : FunctionPayload}
    (hbody : event.body = .function id v payload) :
    event.data.lookup "virtual_environment_id" =
      some (optional .str event.envelope.virtualEnvironmentId) := by
  have hnone : (event.body.fields).lookup "virtual_environment_id" = none := by
    rw [hbody]
    cases payload <;> rfl
  unfold DomainEvent.data
  rw [List.lookup_append, hnone, Option.none_or]
  rfl

/-- The document takes the virtual environment of whatever updates it. -/
theorem virtualEnvironmentIn_applyEvent (publishes : Bool) (stamp : EventStamp) (s : ReadModel)
    (event : DomainEvent) :
    virtualEnvironmentIn (applyEvent publishes stamp s event).1 functionId version =
      if updatesFunction functionId version event then
        some (optional .str event.envelope.virtualEnvironmentId)
      else virtualEnvironmentIn s functionId version := by
  unfold virtualEnvironmentIn updatesFunction
  rw [lookup_functions_applyEvent]
  unfold functionStep
  cases hbody : event.body with
  | function id v payload =>
    by_cases hsame : id = functionId ∧ v = version
    · simp only [hsame, and_self, if_true, decide_true, Option.bind_some]
      rw [FunctionDocument.fields_apply _ _ _ _ (by decide) (by decide),
        lookup_data_virtualEnvironmentId hbody, Option.some_or]
    · simp only [hsame, if_false, decide_false, Bool.false_eq_true]
  | functionDeleted id v =>
    by_cases hsame : id = functionId ∧ v = version
    · simp only [hsame, and_self, if_true, Bool.false_eq_true, if_false, Option.bind_some]
      rw [FunctionDocument.fields_markDeleted _ _ (by decide)]
      cases s.functions.lookup (functionKey functionId version) <;> rfl
    · simp only [hsame, if_false, Bool.false_eq_true]
  | functionEndpointDetached id v =>
    by_cases hsame : id = functionId ∧ v = version
    · simp only [hsame, and_self, if_true, Bool.false_eq_true, if_false]
      cases s.functions.lookup (functionKey functionId version) <;> rfl
    · simp only [hsame, if_false, Bool.false_eq_true]
  | _ => simp only [Bool.false_eq_true, if_false]

/-- The document keeps the virtual environment of a registration, whatever is projected after it,
exactly when all that updates it later is sent from that virtual environment. -/
theorem virtualEnvironment_kept_iff (publishes : Bool) (stamp : DomainEvent → EventStamp)
    (s : ReadModel) (before after : List Sending) (registration : Sending)
    (hregisters : registersFunction functionId version registration.event = true) :
    (∀ first, first <+: after →
      virtualEnvironmentIn
          (project publishes stamp s ((before ++ registration :: first).map Sending.published))
          functionId version =
        some (optional .str registration.virtualEnvironmentId)) ↔
      ∀ sending ∈ after, updatesFunction functionId version sending.event = true →
        sending.virtualEnvironmentId = registration.virtualEnvironmentId := by
  have hupdates : updatesFunction functionId version registration.event = true := by
    unfold registersFunction at hregisters
    unfold updatesFunction
    split at hregisters
    · rename_i hbody
      rw [hbody]
      exact hregisters
    · cases hregisters
  -- what the sequence up to some sending leaves
  have hconcat (sendings : List Sending) (sending : Sending) :
      virtualEnvironmentIn
          (project publishes stamp s ((sendings ++ [sending]).map Sending.published))
          functionId version =
        if updatesFunction functionId version sending.event then
          some (optional .str sending.virtualEnvironmentId)
        else virtualEnvironmentIn (project publishes stamp s (sendings.map Sending.published))
          functionId version := by
    rw [List.map_append, List.map_singleton, project_concat]
    exact virtualEnvironmentIn_applyEvent _ _ _ _
  constructor
  · intro hkept sending hsending hupdate
    obtain ⟨first, last, rfl⟩ := List.append_of_mem hsending
    have hlast := hkept (first ++ [sending]) ⟨last, by rw [List.append_assoc]; rfl⟩
    rw [← List.cons_append, ← List.append_assoc, hconcat, if_pos hupdate] at hlast
    exact optional_str_injective (Option.some.inj hlast)
  · intro hsame first
    induction first using List.reverseRecOn with
    | nil =>
      intro _
      rw [hconcat, if_pos hupdates]
    | append_singleton first sending ih =>
      intro hfirst
      have hmem : sending ∈ after :=
        hfirst.subset (List.mem_append_right _ (List.mem_singleton_self _))
      rw [← List.cons_append, ← List.append_assoc, hconcat]
      split_ifs with hupdate
      · rw [hsame sending hmem hupdate]
      · exact ih ((List.prefix_append _ _).trans hfirst)

/-- A function event of an endpoint. -/
def functionSending (endpointId : String) (virtualEnvironmentId : Option String)
    (payload : FunctionPayload) : Sending where
  virtualEnvironmentId := virtualEnvironmentId
  event :=
    { envelope :=
        { eventId := "e", createdAt := "2024-01-01T00:00:00Z", endpointId := some endpointId }
      body := .function "f1" 1 payload }

/-- A function that is registered and deployed in one virtual environment. -/
theorem virtualEnvironment_kept_within :
    virtualEnvironmentIn
        (project true (fun _ => ⟨"s", ""⟩) {}
          ([functionSending "n1" (some "v1") (.registered none none none none),
            functionSending "n2" (some "v1") .deployed].map Sending.published)) "f1" 1 =
      some (.str "v1") :=
  (virtualEnvironment_kept_iff true (fun _ => ⟨"s", ""⟩) {} []
    [functionSending "n2" (some "v1") .deployed]
    (functionSending "n1" (some "v1") (.registered none none none none)) (by decide)).2
    (by simp [functionSending]) _ List.prefix_rfl

/-- An endpoint in no virtual environment deploys the function, whose document loses its own. -/
theorem virtualEnvironment_lost :
    virtualEnvironmentIn
        (project true (fun _ => ⟨"s", ""⟩) {}
          ([functionSending "n1" (some "v1") (.registered none none none none),
            functionSending "n2" none .deployed].map Sending.published)) "f1" 1 ≠
      some (.str "v1") := by
  have hlost : virtualEnvironmentIn
      (project true (fun _ => ⟨"s", ""⟩) {}
        ([functionSending "n1" (some "v1") (.registered none none none none),
          functionSending "n2" none .deployed].map Sending.published)) "f1" 1 = some .none := by
    rfl
  rw [hlost]
  simp

end Axo.Projector
