import Axo.Functions.ParamsValidation
import Axo.Storage.InMemory

/-!
# Submitting and forwarding a job

`submit_job`, shared by the handlers of `JOB_SUBMIT` and `JOB_FORWARD`, and the command that
`_forward_job_to_endpoint` sends.  The registry lookup and the runtime's `invoke` are
parameters; what the handler does to the outside is a list of `JobEffect`, in order.

`revalidation_iff` says when a job that passed the validation where it was submitted passes the
one at the endpoint it is forwarded to, with the same parameters.
-/

namespace Axo

/-- The key under which a job looks its function up. -/
def functionRef (functionId : String) (version : ℤ) : StorageKey :=
  { id := functionId, version := some version, keyAlias := some functionId }

/-- `MissingFieldError`. -/
def missingFieldError (message : String) (context : List (String × Value)) : AxoError :=
  { code := 1001, name := "MISSING_FIELD", message := message, context := context }

/-- `InvocationError`. -/
def invocationError (message : String) (context : List (String × Value)) : AxoError :=
  { code := 3003, name := "INVOCATION_FAILED", message := message, context := context }

/-- `CommandResult`, without the payload, which no result here has. -/
structure CommandResult where
  ok : Bool
  error : String := ""
  errorCode : ℕ := 0
  errorName : String := ""
  metadata : List (String × Value) := []

/-- `CommandResult.from_error`. -/
def CommandResult.fromError (err : AxoError) (metadata : List (String × Value) := []) :
    CommandResult :=
  { ok := false
    error := err.message
    errorCode := err.code
    errorName := err.name
    metadata := metadata }

/-- The fields of a command's envelope that a job reads. -/
structure JobEnvelope where
  functionId : Option String := none
  functionName : Option String := none
  functionVersion : Option ℤ := none
  jobId : Option String := none
  params : Params := ∅

/-- The field of a `FunctionRecord` that a job reads. -/
structure FunctionRecord where
  paramsSchema : Option (List ParamSpec)

/-- The fields of a `FunctionResult` that a submission writes. -/
structure FunctionResult where
  jobId : String
  ok : Bool
  error : String
  deriving DecidableEq

/-- What a submission does to the outside: a write to the results, a bus event, a call of the
runtime. -/
inductive JobEffect
  | put (key : StorageKey) (result : FunctionResult)
  | emit (jobId functionId : String) (functionVersion : ℤ) (params : Params)
  | invoke (functionRef : StorageKey) (jobId : String) (params : Params)

section Submit

variable (registry : StorageKey → Option FunctionRecord)
  (invoke : StorageKey → String → Params → Except String Unit)

/-- `record is not None and record.params_schema`: the schema to validate against, if any. -/
def schemaOf (ref : StorageKey) : Option (List ParamSpec) :=
  (registry ref).bind fun record => record.paramsSchema.filter fun schema => !schema.isEmpty

/-- The validation step of `submit_job`. -/
def checkParams (ref : StorageKey) (params : Params) : Except AxoError Params :=
  match schemaOf registry ref with
  | some schema => validateAndFillParams schema params
  | none => .ok params

/-- `submit_job`. -/
def submitJob (envelope : JobEnvelope) (jobId : String) : CommandResult × List JobEffect :=
  match envelope.functionId.filter (· ≠ ""), envelope.functionVersion with
  | some functionId, some version =>
    let ref := functionRef functionId version
    match checkParams registry ref envelope.params with
    | .error err => (.fromError err, [])
    | .ok params =>
      let pending : JobEffect := .put { id := jobId } { jobId := jobId, ok := false, error := "PENDING" }
      let effects := [pending, .emit jobId functionId version params,
        .invoke ref jobId params]
      match invoke ref jobId params with
      | .error raw =>
        let err := invocationError raw [("job_id", .str jobId),
          ("function_name", (envelope.functionName.map Value.str).getD .none),
          ("version", .int version)]
        (.fromError err [("job_id", .str jobId)],
          effects ++ [.put { id := jobId } { jobId := jobId, ok := false, error := err.message }])
      | .ok () =>
        ({ ok := true, metadata := [("job_id", .str jobId), ("status", .str "QUEUED")] }, effects)
  | _, _ =>
    (.fromError (missingFieldError "function_id and function_version are required"
      [("fields", .list [.str "function_id", .str "function_version"])]), [])

/-- `JobForwardHandler.handle`. -/
def jobForward (envelope : JobEnvelope) : CommandResult × List JobEffect :=
  match envelope.jobId.filter (· ≠ "") with
  | some jobId => submitJob registry invoke envelope jobId
  | none =>
    (.fromError (missingFieldError "job_id is required" [("fields", .list [.str "job_id"])]), [])

variable {registry invoke}

/-- What a submission does when the runtime takes the job: nothing, or the three effects of a job
that is recorded, announced and invoked. -/
theorem submitJob_effects (envelope : JobEnvelope) (jobId : String)
    (h : ∀ ref job params, invoke ref job params = .ok ()) :
    (submitJob registry invoke envelope jobId).2 = [] ∨
      ∃ functionId version ref params, (submitJob registry invoke envelope jobId).2 =
        [.put { id := jobId } { jobId := jobId, ok := false, error := "PENDING" },
          .emit jobId functionId version params, .invoke ref jobId params] := by
  unfold submitJob
  split
  · rename_i functionId version _ _
    simp only
    split
    · exact Or.inl rfl
    · rename_i params _
      refine Or.inr ⟨functionId, version, functionRef functionId version, params, ?_⟩
      rw [h]
  · exact Or.inl rfl

theorem jobForward_effects (envelope : JobEnvelope)
    (h : ∀ ref job params, invoke ref job params = .ok ()) :
    (jobForward registry invoke envelope).2 = [] ∨
      ∃ jobId functionId version ref params, envelope.jobId = some jobId ∧
        (jobForward registry invoke envelope).2 =
          [.put { id := jobId } { jobId := jobId, ok := false, error := "PENDING" },
            .emit jobId functionId version params, .invoke ref jobId params] := by
  unfold jobForward
  split
  · rename_i jobId hjob
    refine (submitJob_effects envelope jobId h).imp id ?_
    rintro ⟨functionId, version, ref, params, heq⟩
    exact ⟨jobId, functionId, version, ref, params, (Option.filter_eq_some_iff.1 hjob).1, heq⟩
  · exact Or.inl rfl

end Submit

/-- The envelope that `_forward_job_to_endpoint` sends. -/
def forwardEnvelope (ref : StorageKey) (jobId : String) (params : Params) : JobEnvelope :=
  { functionId := some ref.id
    functionVersion := ref.version
    jobId := some jobId
    params := params }

/-! ### The second validation -/

section Forward

variable {registry : StorageKey → Option FunctionRecord}
  {invoke : StorageKey → String → Params → Except String Unit} {functionId : String}
  {version : ℤ} {jobId : String} {params p : Params} {schema : List ParamSpec}

/-- A forwarded job reaches the runtime with its parameters exactly when the validation gives
them back. -/
theorem invoke_mem_jobForward_iff (hid : functionId ≠ "") (hjob : jobId ≠ "") :
    .invoke (functionRef functionId version) jobId p ∈ (jobForward registry invoke
        (forwardEnvelope (functionRef functionId version) jobId p)).2 ↔
      checkParams registry (functionRef functionId version) p = .ok p := by
  have hforward : jobForward registry invoke
      (forwardEnvelope (functionRef functionId version) jobId p) =
        submitJob registry invoke
          (forwardEnvelope (functionRef functionId version) jobId p) jobId := by
    simp only [jobForward, forwardEnvelope, Option.filter_some, decide_not, hjob, decide_false,
      Bool.not_false, if_true]
  rw [hforward, submitJob]
  simp only [forwardEnvelope, functionRef, Option.filter_some, decide_not, hid, decide_false,
    Bool.not_false, if_true]
  cases checkParams registry ⟨functionId, some version, some functionId⟩ p with
  | error err => simp
  | ok p' =>
    simp only
    cases invoke ⟨functionId, some version, some functionId⟩ jobId p' with
    | error raw => simp [eq_comm]
    | ok _ => simp [eq_comm]

/-- The job is handed to the runtime as it was sent, at every endpoint that has the schema. -/
def ForwardedIntact (schema : List ParamSpec) (p : Params) : Prop :=
  ∀ (registry : StorageKey → Option FunctionRecord)
    (invoke : StorageKey → String → Params → Except String Unit) (functionId : String)
    (version : ℤ) (jobId : String), functionId ≠ "" → jobId ≠ "" →
      registry (functionRef functionId version) = some ⟨some schema⟩ →
        .invoke (functionRef functionId version) jobId p ∈ (jobForward registry invoke
          (forwardEnvelope (functionRef functionId version) jobId p)).2

theorem checkParams_of_schema {ref : StorageKey} (hreg : registry ref = some ⟨some schema⟩)
    (h : validateAndFillParams schema params = .ok p) :
    checkParams registry ref p = .ok p ↔ validateAndFillParams schema p = .ok p := by
  cases schema with
  | nil =>
    -- an empty schema is not looked at, and accepts the empty dictionary only
    obtain ⟨-, -, rfl⟩ := validateAndFillParams_eq_ok.1 h
    have hnone : schemaOf registry ref = none := by simp [schemaOf, hreg]
    simp only [checkParams, hnone, true_iff]
    rfl
  | cons spec schema =>
    have hsome : schemaOf registry ref = some (spec :: schema) := by
      simp [schemaOf, hreg]
    rw [checkParams, hsome]

/-- A validated job passes the validation again and is forwarded intact exactly when each
default that was filled in has the declared type. -/
theorem revalidation_iff (schema : List ParamSpec) (params p : Params)
    (h : validateAndFillParams schema params = .ok p) :
    validateAndFillParams schema p = .ok p ∧ ForwardedIntact schema p ↔
      DefaultsMatch schema params := by
  rw [← validateAndFillParams_filled_iff h]
  refine ⟨And.left, fun hok => ⟨hok, ?_⟩⟩
  intro registry invoke functionId version jobId hid hjob hreg
  exact (invoke_mem_jobForward_iff hid hjob).2 ((checkParams_of_schema hreg h).2 hok)

/-- A schema with an optional number that has a number as its default. -/
theorem revalidation_number :
    validateAndFillParams [⟨"n", .number, false, .int 3⟩] (AList.insert "n" (.int 3) ∅) =
        .ok (AList.insert "n" (.int 3) ∅) ∧
      ForwardedIntact [⟨"n", .number, false, .int 3⟩] (AList.insert "n" (.int 3) ∅) :=
  (revalidation_iff [⟨"n", .number, false, .int 3⟩] ∅ _ rfl).2 (by
    intro spec hspec _ last hlast
    obtain rfl := List.mem_singleton.1 hspec
    obtain rfl := List.mem_singleton.1 (lastSpec_some hlast).1
    rfl)

/-- An optional string without a default is filled with `None`, and the filled dictionary fails
the same validation. -/
theorem validate_optional_string :
    validateAndFillParams [⟨"x", .string, false, .none⟩] ∅ =
        .ok (AList.insert "x" .none ∅) ∧
      validateAndFillParams [⟨"x", .string, false, .none⟩] (AList.insert "x" .none ∅) =
        .error (paramTypeError ⟨"x", .string, false, .none⟩) ∧
      ¬ ForwardedIntact [⟨"x", .string, false, .none⟩] (AList.insert "x" .none ∅) := by
  refine ⟨rfl, rfl, fun h => ?_⟩
  have hmem := h (fun _ => some ⟨some [⟨"x", .string, false, .none⟩]⟩) (fun _ _ _ => .ok ())
    "f" 1 "j" (by decide) (by decide) rfl
  rw [invoke_mem_jobForward_iff (by decide) (by decide)] at hmem
  cases hmem

end Forward

end Axo
