import Axo.Data.DataStore
import Axo.Wire.StateCodec

/-!
# Records of any values

What `deserialize_function_record`, `deserialize_data_record` and `deserialize_data_bucket` make of
a document whatever its values are.  Python checks few of them: a `DataRecord(**d)` takes any value
for a field, and only the conversions of a `FunctionRecord` raise.

* `RawFunction`, `RawData` and `RawBucket` are the records with the values that they hold then;
* `readFunction`, `readData` and `readBucket` read one entry of a diff, as the loops of
  `apply_incoming` do before they change anything;
* a record of declared types is read here too, with the values that it has
  (`RawData.ofValue_of_typed`).
-/

namespace Axo

/-! ### Conversions that check nothing -/

namespace Value

/-- `frozenset(v)`, by the elements that it is made of. -/
def toSet (v : Value) : Except PyException (List Value) := do
  let items ← v.toList
  if items.all hashable = true then return items else .error .typeError

/-- One element of what `dict` is called with. -/
def toItem (v : Value) : Except PyException (Value × Value) := do
  match ← v.toList with
  | [key, value] => if key.hashable = true then return (key, value) else .error .typeError
  | _ => .error .valueError

/-- `dict(v)`, by the items that it is made of. -/
def toItems : Value → Except PyException (List (Value × Value))
  | .dict fields => .ok (fields.map fun field => (.str field.1, field.2))
  | v => do (← v.toList).mapM toItem

/-- `range(v)` has that many elements. -/
def toRange : Value → Except PyException ℕ
  | .int n => .ok n.toNat
  | .bool b => .ok b.toInt.toNat
  | _ => .error .typeError

end Value

/-- Python's comparisons of two values; of most types they are a `TypeError`. -/
structure PyOrder where
  /-- `v < w` -/
  less : Value → Value → Except PyException Bool
  /-- `v <= w` -/
  atMost : Value → Value → Except PyException Bool

/-! ### Records -/

/-- A `RuntimeSpec`. -/
structure RawSpec where
  type : Value
  pythonVersion : Value
  requirements : List Value
  image : Value
  envVars : List (Value × Value)
  idleTtlSeconds : String
  maxInvocations : ℤ
  memoryLimitBytes : Option ℤ
  cpuLimit : Option String
  maxConcurrency : ℤ
  maxDurationSeconds : String
  maxRetries : ℤ
  deriving DecidableEq

/-- A `ParamSpec`. -/
structure RawParam where
  name : Value
  type : Value
  required : Bool
  default : Value
  deriving DecidableEq

/-- A `FunctionRecord`; an empty schema stands for `None`. -/
structure RawFunction where
  code : List UInt8
  functionId : Value
  name : Value
  version : Value
  createdAt : Value
  state : FunctionState
  runtimeSpec : Option RawSpec
  codeFormat : Value
  paramsSchema : List RawParam
  deriving DecidableEq

/-- A `DataRecord`. -/
structure RawData where
  name : Value
  version : Value
  keyAlias : Value
  format : Value
  kind : Value
  totalSize : Value
  chunkBytes : Value
  totalChunks : Value
  createdAt : Value
  declaredHash : Value
  contentHashAlgo : Value
  deriving DecidableEq

/-- A `DataBucket`. -/
structure RawBucket where
  name : Value
  quotaBytes : Value
  createdAt : Value
  deriving DecidableEq

section

variable (json : JsonLib) (floats : PyFloats)

/-- `float(v)` of a value that may be `None`. -/
def rawFloatOrNone : Value → Except PyException (Option String)
  | .none => .ok none
  | v => (floats.ofValue v).map some

/-- `RuntimeSpec.from_dict`. -/
def RawSpec.fromDict (d : Value) : Except PyException RawSpec := do
  let memoryLimitBytes ← d.getItem "memory_limit_bytes" .none
  let cpuLimit ← d.getItem "cpu_limit" .none
  let type ← d.getItem "type" (.str "process")
  let pythonVersion ← d.getItem "python_version" (.str "3.11")
  let requirements ← (← d.getItem "requirements" (.list [])).toList
  let image ← d.getItem "image" .none
  let envVars ← (← d.getItem "env_vars" (.dict [])).toItems
  let idleTtlSeconds ← floats.ofValue (← d.getItem "idle_ttl_seconds" (.float "300.0"))
  let maxInvocations ← floats.intOf (← d.getItem "max_invocations" (.int 0))
  let memoryLimitBytes ← intOrNone floats memoryLimitBytes
  let cpuLimit ← rawFloatOrNone floats cpuLimit
  let maxConcurrency ← floats.intOf (← d.getItem "max_concurrency" (.int 1))
  let maxDurationSeconds ← floats.ofValue (← d.getItem "max_duration_seconds" (.int 0))
  let maxRetries ← floats.intOf (← d.getItem "max_retries" (.int 3))
  return {
    type, pythonVersion, requirements, image, envVars, idleTtlSeconds, maxInvocations,
    memoryLimitBytes, cpuLimit, maxConcurrency, maxDurationSeconds, maxRetries }

/-- `ParamSpec.from_dict`. -/
def RawParam.fromDict (d : Value) : Except PyException RawParam := do
  let name ← d.item "name"
  let type ← d.getItem "type" (.str "string")
  let required ← d.getItem "required" (.bool true)
  let default ← d.getItem "default" .none
  return { name, type, required := required.truthy, default }

/-- `parse_params_schema`. -/
def rawParamsSchema (raw : Value) : Except PyException (List RawParam) := do
  if raw.truthy then (← raw.toList).mapM RawParam.fromDict else return []

/-- `base64.b64decode(v)`, which takes ASCII texts. -/
def b64decodeAscii : Value → Except PyException (List UInt8)
  | .str text =>
    if text.toList.all (fun c => decide (c.toNat < 128)) = true then b64decode (.str text)
    else .error .valueError
  | v => b64decode v

/-- The runtime spec of a document, where it is not empty. -/
def rawSpecOrNone (v : Value) : Except PyException (Option RawSpec) :=
  if v.truthy then (RawSpec.fromDict floats v).map some else .ok none

/-- `FunctionRecord(…)` in `deserialize_function_record`. -/
def RawFunction.ofValue (d : Value) : Except PyException RawFunction := do
  let code ← b64decodeAscii (← d.item "code_b64")
  let functionId ← d.item "function_id"
  let name ← d.item "name"
  let version ← d.item "version"
  let createdAt ← d.item "created_at"
  let state ← FunctionState.ofValue (← d.item "state")
  let runtimeSpec ← rawSpecOrNone floats (← d.getItem "runtime_spec" .none)
  let codeFormat ← d.getItem "code_format" (.str "cloudpickle")
  let paramsSchema ← rawParamsSchema (← d.getItem "params_schema" .none)
  return {
    code, functionId, name, version, createdAt, state, runtimeSpec, codeFormat, paramsSchema }

/-- `DataRecord(**d)`. -/
def RawData.ofValue (d : Value) : Except PyException RawData := do
  let d ← asArguments ["name", "version", "alias", "format", "kind", "total_size", "chunk_bytes",
    "total_chunks", "created_at", "declared_hash", "content_hash_algo"] d
  let name ← argument d "name"
  let version ← argument d "version"
  let keyAlias ← argument d "alias"
  let format ← argument d "format"
  let kind ← argument d "kind"
  let totalSize ← argument d "total_size"
  let chunkBytes ← argument d "chunk_bytes"
  let totalChunks ← argument d "total_chunks"
  let createdAt ← argument d "created_at"
  let declaredHash ← d.getItem "declared_hash" .none
  let contentHashAlgo ← d.getItem "content_hash_algo" (.str "sha256")
  return {
    name, version, keyAlias, format, kind, totalSize, chunkBytes, totalChunks, createdAt,
    declaredHash, contentHashAlgo }

/-- `DataBucket(**d)`. -/
def RawBucket.ofValue (d : Value) : Except PyException RawBucket := do
  let d ← asArguments ["name", "quota_bytes", "created_at"] d
  let name ← argument d "name"
  let quotaBytes ← argument d "quota_bytes"
  let createdAt ← argument d "created_at"
  return { name, quotaBytes, createdAt }

/-! ### Entries of a diff -/

/-- `combined_key.rpartition(":")` and `int(version_str)`. -/
def readKey (combined : String) : Except PyException RecordKey :=
  let (id, versionStr) := rpartition combined
  match intOfText versionStr with
  | some version => .ok { id := id, version := version }
  | none => .error .valueError

/-- An entry of the function diff: the record under a key, or its deletion. -/
def readFunction (entry : String × Frame) :
    Except PyException (RecordKey × Option RawFunction) := do
  let key ← readKey entry.1
  if ← isTombstone json entry.2 then return (key, none)
  else
    let record ← RawFunction.ofValue floats (← loadBlob json entry.2)
    return (key, some record)

/-- An entry of the data diff. -/
def readData (entry : String × Frame) : Except PyException (RecordKey × Option RawData) := do
  if ← isTombstone json entry.2 then return (← readKey entry.1, none)
  else
    let record ← RawData.ofValue (← loadBlob json entry.2)
    return (← readKey entry.1, some record)

/-- An entry of the bucket diff. -/
def readBucket (entry : String × Frame) : Except PyException (String × Option RawBucket) := do
  let bucket ← RawBucket.ofValue (← loadBlob json entry.2)
  return (entry.1, some bucket)

end

/-! ### Records of declared types -/

theorem bind_eq_ok {α β : Type} {x : Except PyException α} {f : α → Except PyException β} {b : β} :
    x >>= f = .ok b ↔ ∃ a, x = .ok a ∧ f a = .ok b := by
  cases x with
  | ok a =>
    constructor
    · exact fun h => ⟨a, rfl, h⟩
    · rintro ⟨a', ha, h⟩
      cases ha
      exact h
  | error e =>
    constructor
    · intro h
      cases h
    · rintro ⟨a, ha, -⟩
      cases ha

theorem Value.asText_eq_ok {v : Value} {text : String} (h : v.asText = .ok text) :
    v = .str text := by
  cases v with
  | str s => exact congrArg Value.str (Except.ok.inj h)
  | none | bool _ | int _ | float _ | list _ | dict _ => cases h

theorem Value.asInt_eq_ok {v : Value} {n : ℤ} (h : v.asInt = .ok n) : v = .int n := by
  cases v with
  | int m => exact congrArg Value.int (Except.ok.inj h)
  | none | bool _ | str _ | float _ | list _ | dict _ => cases h

/-- What is read as a `DataRecord` is read here with the same kind and the same number of chunks. -/
theorem RawData.ofValue_of_typed {floats : PyFloats} {d : Value} {record : DataRecord}
    (h : DataRecord.ofValue floats d = .ok record) :
    ∃ raw, RawData.ofValue d = .ok raw ∧ raw.kind = .str record.kind ∧
      raw.totalChunks = .int record.totalChunks := by
  unfold DataRecord.ofValue at h
  unfold RawData.ofValue
  simp only [bind_eq_ok] at h ⊢
  obtain ⟨d, hd, name, hname, _, _, version, hversion, _, _, keyAlias, halias, _, _, format,
    hformat, _, _, kind, hkind, kindText, hkindText, totalSize, htotalSize, _, _, chunkBytes, hchunkBytes, _,
    _, totalChunks, htotalChunks, count, hcount, createdAt, hcreatedAt, _, _, declaredHash,
    hdeclaredHash, _, _, algo, halgo, _, _, hrecord⟩ := h
  obtain rfl := Except.ok.inj hrecord
  exact ⟨_, ⟨d, hd, name, hname, version, hversion, keyAlias, halias, format, hformat, kind, hkind,
    totalSize, htotalSize, chunkBytes, hchunkBytes, totalChunks, htotalChunks, createdAt,
    hcreatedAt, declaredHash, hdeclaredHash, algo, halgo, rfl⟩, Value.asText_eq_ok hkindText,
    Value.asInt_eq_ok hcount⟩

end Axo
