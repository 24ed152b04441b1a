import Axo.Service.JobResults
import Axo.Wire.RecordRoundTrip

/-!
# The bytes of a result

`core/results/envelope.py` down to the bytes that a result is hashed as, and the part of
`build_completion_recorder` that makes a result of what a function returned.

* `PyObject` is what a function may return, `isJsonSafeValue` tells what goes into the result as it
  is, and `jsonValue` is the document of that;
* `WholeResult` has the values of a result where `JobResult` has their texts; `RecordedCall.result`
  is the result of one call of `on_complete`;
* `encodeFunctionResult` and `decodeFunctionResult`, with `decode_encode` and
  `encode_of_decode_encode`.
-/

namespace Axo

/-! ### What a function returns -/

/-- An object, as far as `is_json_safe_value` looks into it; a float is written as its `repr`. -/
inductive PyObject
  | none
  | bool (b : Bool)
  | int (n : ℤ)
  | float (text : String)
  | str (text : String)
  | list (items : List PyObject)
  | dict (fields : List (PyObject × PyObject))
  /-- bytes, a tuple, or an instance of any other class -/
  | other

namespace PyObject

/-- `isinstance(value, str)`. -/
def asKey : PyObject → Option String
  | .str text => some text
  | _ => Option.none

mutual

/-- `is_json_safe_value`. -/
def isJsonSafeValue : PyObject → Bool
  | .none | .bool _ | .int _ | .float _ | .str _ => true
  | .list items => allJsonSafe items
  | .dict fields => allFieldsSafe fields
  | .other => false

def allJsonSafe : List PyObject → Bool
  | [] => true
  | item :: items => item.isJsonSafeValue && allJsonSafe items

def allFieldsSafe : List (PyObject × PyObject) → Bool
  | [] => true
  | (key, value) :: fields => key.asKey.isSome && value.isJsonSafeValue && allFieldsSafe fields

end

mutual

/-- The document of an object that is safe. -/
def jsonValue : PyObject → Option Value
  | .none => some .none
  | .bool b => some (.bool b)
  | .int n => some (.int n)
  | .float text => some (.float text)
  | .str text => some (.str text)
  | .list items => (jsonItems items).map .list
  | .dict fields => (jsonFields fields).map .dict
  | .other => Option.none

def jsonItems : List PyObject → Option (List Value)
  | [] => some []
  | item :: items => (item.jsonValue).bind fun v => (jsonItems items).map (v :: ·)

def jsonFields : List (PyObject × PyObject) → Option (List (String × Value))
  | [] => some []
  | (key, value) :: fields =>
    key.asKey.bind fun key => value.jsonValue.bind fun v => (jsonFields fields).map ((key, v) :: ·)

end

mutual

/-- The safe objects are those that have a document. -/
theorem isSome_jsonValue : ∀ o : PyObject, o.jsonValue.isSome = o.isJsonSafeValue
  | .none | .bool _ | .int _ | .float _ | .str _ | .other => rfl
  | .list items => by
    rw [jsonValue, isJsonSafeValue, Option.isSome_map, isSome_jsonItems items]
  | .dict fields => by
    rw [jsonValue, isJsonSafeValue, Option.isSome_map, isSome_jsonFields fields]

theorem isSome_jsonItems : ∀ items, (jsonItems items).isSome = allJsonSafe items
  | [] => rfl
  | item :: items => by
    rw [jsonItems, allJsonSafe, ← isSome_jsonValue item, ← isSome_jsonItems items]
    cases item.jsonValue <;> simp

theorem isSome_jsonFields : ∀ fields, (jsonFields fields).isSome = allFieldsSafe fields
  | [] => rfl
  | (key, value) :: fields => by
    rw [jsonFields, allFieldsSafe, ← isSome_jsonValue value, ← isSome_jsonFields fields]
    cases key.asKey <;> cases value.jsonValue <;> simp

end

end PyObject

/-! ### Results -/

/-- A `FunctionResult` with its values; the duration is the `repr` of a float. -/
structure WholeResult where
  jobId : String
  ok : Bool
  output : List (String × Value) := []
  refs : List (String × StorageKey) := []
  error : String := ""
  durationMs : Option String := none
  warnings : List String := []
  deriving DecidableEq

/-- A call of `on_complete`. -/
structure RecordedCall where
  /-- `handle.job_id` -/
  jobId : String
  outcome : Except String PyObject
  durationMs : Option String := none
  warnings : List String := []
  /-- there is a data registry, and its `register_and_store` takes the bytes -/
  stored : Bool := false

/-- The result that `on_complete` saves and replicates. -/
def RecordedCall.result (call : RecordedCall) : WholeResult :=
  match call.outcome with
  | .ok raw =>
    match raw.jsonValue with
    | some value =>
      { jobId := call.jobId
        ok := true
        output := [("value", value), ("type", .str "json")]
        durationMs := call.durationMs
        warnings := call.warnings }
    | none =>
      { jobId := call.jobId
        ok := true
        output := [("type", .str "bytes")]
        refs :=
          if call.stored then [("value", ⟨"job-result-" ++ call.jobId, some 1, none⟩)] else []
        durationMs := call.durationMs
        warnings := call.warnings }
  | .error error =>
    { jobId := call.jobId
      ok := false
      error := error
      durationMs := call.durationMs
      warnings := call.warnings }

namespace WholeResult

/-- The document of a result. -/
def document (result : WholeResult) : Value :=
  .dict [("job_id", .str result.jobId), ("ok", .bool result.ok), ("output", .dict result.output),
    ("refs", .dict (result.refs.map fun ref => (ref.1, .str ref.2.toStr))),
    ("error", .str result.error), ("duration_ms", orNull .float result.durationMs),
    ("warnings", .list (result.warnings.map .str))]

end WholeResult

/-- A field that is declared as `bool`. -/
def Value.asBool : Value → Except PyException Bool
  | .bool b => .ok b
  | _ => .error .untyped

/-- A field that is declared as `Dict[str, Any]`. -/
def Value.asFields : Value → Except PyException (List (String × Value))
  | .dict fields => .ok fields
  | _ => .error .untyped

/-- A field that is declared as `Optional[float]`. -/
def Value.asFloatOrNone : Value → Except PyException (Option String)
  | .none => .ok Option.none
  | .float text => .ok (some text)
  | _ => .error .untyped

/-- A field that is declared as `List[str]`. -/
def Value.asTexts : Value → Except PyException (List String)
  | .list items => items.mapM Value.asText
  | _ => .error .untyped

/-- `StorageKey.from_str(v)`. -/
def StorageKey.ofValue : Value → Except PyException StorageKey
  | .str text =>
    match StorageKey.fromStr text with
    | some key => .ok key
    | none => .error .valueError
  | _ => .error .attributeError

/-- `{k: StorageKey.from_str(v) for k, v in d.items()}`. -/
def StorageKey.allOfValue : Value → Except PyException (List (String × StorageKey))
  | .dict fields => fields.mapM fun field => return (field.1, ← StorageKey.ofValue field.2)
  | _ => .error .attributeError

section

variable (json : JsonLib)

/-- `encode_function_result`. -/
def encodeFunctionResult (result : WholeResult) : Frame := dumpBlob json result.document

/-- `decode_function_result`. -/
def decodeFunctionResult (data : Frame) : Except PyException WholeResult := do
  let d ← loadBlob json data
  let jobId ← (← d.item "job_id").asText
  let ok ← (← d.item "ok").asBool
  let output ← (← d.getItem "output" (.dict [])).asFields
  let refs ← StorageKey.allOfValue (← d.getItem "refs" (.dict []))
  let error ← (← d.getItem "error" (.str "")).asText
  let durationMs ← (← d.getItem "duration_ms" .none).asFloatOrNone
  let warnings ← (← d.getItem "warnings" (.list [])).asTexts
  return { jobId, ok, output, refs, error, durationMs, warnings }

end

/-! ### Round trips -/

variable {json : JsonLib}

namespace WholeResult

variable {result : WholeResult}

/-- Every reference of the result is read back from its text. -/
def Travels (result : WholeResult) : Prop :=
  ∀ ref ∈ result.refs, StorageKey.fromStr ref.2.toStr = some ref.2

theorem decode_encode (hjson : json.Faithful result.document) (hrefs : result.Travels) :
    decodeFunctionResult json (encodeFunctionResult json result) = .ok result := by
  have hkeys : StorageKey.allOfValue
      (.dict (result.refs.map fun ref => (ref.1, .str ref.2.toStr))) = .ok result.refs := by
    refine mapM_map_eq fun ref href => ?_
    simp only [StorageKey.ofValue, hrefs ref href, ok_bind]
    rfl
  have hwarnings : (result.warnings.map Value.str).mapM Value.asText = .ok result.warnings :=
    mapM_map_eq fun _ _ => rfl
  have hduration : (orNull Value.float result.durationMs).asFloatOrNone =
      .ok result.durationMs := by
    cases result.durationMs <;> rfl
  unfold decodeFunctionResult encodeFunctionResult
  rw [loadBlob_dumpBlob hjson, ok_bind]
  simp [document, Value.item, Value.getItem, List.lookup_cons, Value.asText, Value.asBool,
    Value.asFields, Value.asTexts, hkeys, hwarnings, hduration, ok_bind]

/-- What is read back is encoded as the same bytes. -/
theorem encode_of_decode_encode (hjson : json.Faithful result.document) (hrefs : result.Travels)
    {back : WholeResult}
    (h : decodeFunctionResult json (encodeFunctionResult json result) = .ok back) :
    encodeFunctionResult json back = encodeFunctionResult json result := by
  rw [decode_encode hjson hrefs] at h
  cases h
  rfl

end WholeResult

/-- A call whose result travels: its job id has no `:`, and its document is read back. -/
def RecordedCall.Travels (json : JsonLib) (call : RecordedCall) : Prop :=
  ':' ∉ call.jobId.toList ∧ json.Faithful call.result.document

/-- The references of a recorded result are read back. -/
theorem RecordedCall.travels_result {call : RecordedCall} (hcolon : ':' ∉ call.jobId.toList) :
    call.result.Travels := by
  have hid : ':' ∉ ("job-result-" ++ call.jobId).toList := by
    rw [String.toList_append, List.mem_append, not_or]
    exact ⟨by decide, hcolon⟩
  intro ref href
  unfold RecordedCall.result at href
  split at href
  · split at href
    · cases href
    · split_ifs at href
      · obtain rfl := List.mem_singleton.1 href
        exact StorageKey.fromStr_toStr 1 hid fun a ha => by cases ha
      · cases href
  · cases href

end Axo
