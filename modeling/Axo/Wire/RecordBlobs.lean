import Axo.Consensus.SyncRecords
import Axo.Lib.Base64
import Axo.Wire.PyValues

/-!
# Blobs of records

The bytes in which the records of the registries travel between endpoints, after
`serialize_function_record` and `deserialize_function_record` of `registry_sync.py`, their like in
`data_sync.py` and `bucket_sync.py`, and `to_dict` and `from_dict` of `RuntimeSpec` and `ParamSpec`.

* `toValue` of each record is the document of its blob, and `ofValue` takes a document apart;
* `functionBlob`, `dataBlob` and `bucketBlob` are the blobs, `loadBlob` is what reads one;
* `isTombstone` tells the mark of a deletion from a record.
-/

namespace Axo

variable (json : JsonLib) (floats : PyFloats)

/-! ### Parameters and runtime specs -/

/-- The type of a schema's text. -/
def ParamType.ofText (text : String) : ParamType :=
  if text = "string" then .string
  else if text = "number" then .number
  else if text = "boolean" then .boolean
  else if text = "json" then .json
  else if text = "data_ref" then .dataRef
  else .other text

/-- `ParamSpec.to_dict`. -/
def ParamSpec.toDict (spec : ParamSpec) : Value :=
  .dict [("name", .str spec.name), ("type", .str spec.type.text),
    ("required", .bool spec.required), ("default", spec.default)]

/-- `ParamSpec.from_dict`. -/
def ParamSpec.fromDict (d : Value) : Except PyException ParamSpec := do
  let name ← d.item "name"
  let type ← d.getItem "type" (.str "string")
  let required ← d.getItem "required" (.bool true)
  let default ← d.getItem "default" .none
  return {
    name := ← name.asText
    type := .ofText (← type.asText)
    required := required.truthy
    default }

/-- `parse_params_schema`. -/
def parseParamsSchema (raw : Value) : Except PyException (List ParamSpec) := do
  if raw.truthy then (← raw.toList).mapM ParamSpec.fromDict else return []

/-- A dict of texts, where the last value of a key stays. -/
def textDict (fields : List (String × Value)) : Except PyException (Dict String String) := do
  let texts ← fields.mapM fun field => return (field.1, ← field.2.asText)
  return texts.foldr (fun field m => m.setdefault field.1 field.2) ∅

/-- A float that may be absent. -/
def floatOrNone : Value → Except PyException (Option ℚ)
  | .none => .ok none
  | v => (floats.floatOf v).map some

/-- An integer that may be absent. -/
def intOrNone : Value → Except PyException (Option ℤ)
  | .none => .ok none
  | v => (floats.intOf v).map some

/-- `RuntimeSpec.from_dict`. -/
def RuntimeSpec.fromDict (d : Value) : Except PyException RuntimeSpec := do
  let memoryLimitBytes ← d.getItem "memory_limit_bytes" .none
  let cpuLimit ← d.getItem "cpu_limit" .none
  let type ← (← d.getItem "type" (.str "process")).asText
  let pythonVersion ← (← d.getItem "python_version" (.str "3.11")).asText
  let requirements ← (← (← d.getItem "requirements" (.list [])).toList).mapM Value.asText
  let image ← (← d.getItem "image" .none).asTextOrNone
  let envVars ← textDict (← (← d.getItem "env_vars" (.dict [])).toFields)
  let idleTtlSeconds ← floats.floatOf (← d.getItem "idle_ttl_seconds" (.float "300.0"))
  let maxInvocations ← floats.intOf (← d.getItem "max_invocations" (.int 0))
  let memoryLimitBytes ← intOrNone floats memoryLimitBytes
  let cpuLimit ← floatOrNone floats cpuLimit
  let maxConcurrency ← floats.intOf (← d.getItem "max_concurrency" (.int 1))
  let maxDurationSeconds ← floats.floatOf (← d.getItem "max_duration_seconds" (.int 0))
  let maxRetries ← floats.intOf (← d.getItem "max_retries" (.int 3))
  return {
    type, pythonVersion, requirements, image, envVars, idleTtlSeconds, maxInvocations,
    memoryLimitBytes, cpuLimit, maxConcurrency, maxDurationSeconds, maxRetries }

/-- A value that may be absent, in a document. -/
def orNull {α : Type*} (toValue : α → Value) : Option α → Value
  | none => .none
  | some a => toValue a

/-- `RuntimeSpec.to_dict`. -/
def RuntimeSpec.toDict (spec : RuntimeSpec) : Value :=
  .dict [("type", .str spec.type), ("python_version", .str spec.pythonVersion),
    ("requirements", .list (spec.requirements.map .str)), ("image", orNull .str spec.image),
    ("env_vars", .dict (spec.envVars.entries.map fun e => (e.1, .str e.2))),
    ("idle_ttl_seconds", .float (floats.text spec.idleTtlSeconds)),
    ("max_invocations", .int spec.maxInvocations),
    ("memory_limit_bytes", orNull .int spec.memoryLimitBytes),
    ("cpu_limit", orNull (fun q => .float (floats.text q)) spec.cpuLimit),
    ("max_concurrency", .int spec.maxConcurrency),
    ("max_duration_seconds", .float (floats.text spec.maxDurationSeconds)),
    ("max_retries", .int spec.maxRetries)]

/-! ### Documents -/

/-- All the states. -/
def FunctionState.all : List FunctionState :=
  [.registered, .coldStart, .running, .completed, .failed, .idle, .evicted]

/-- `FunctionState(value)`. -/
def FunctionState.ofValue (v : Value) : Except PyException FunctionState :=
  match FunctionState.all.find? fun state => v = .str state.value with
  | some state => .ok state
  | none => .error .valueError

/-- `base64.b64decode(v)`. -/
def b64decode : Value → Except PyException (List UInt8)
  | .str text =>
    match Base64.decode text.toList with
    | some bytes => .ok bytes
    | none => .error .valueError
  | _ => .error .typeError

/-- The document of a function record. -/
def FunctionDoc.toValue (doc : FunctionDoc) : Value :=
  .dict [("code_b64", .str (String.ofList (Base64.encode doc.code))),
    ("function_id", .str doc.functionId), ("name", .str doc.name), ("version", .int doc.version),
    ("created_at", .float (floats.text doc.createdAt)), ("state", .str doc.state.value),
    ("runtime_spec", orNull (RuntimeSpec.toDict floats) doc.runtimeSpec),
    ("code_format", .str doc.codeFormat),
    ("params_schema", .list (doc.paramsSchema.map ParamSpec.toDict))]

/-- The runtime spec of a document, where it is not empty. -/
def specOrNone (v : Value) : Except PyException (Option RuntimeSpec) :=
  if v.truthy then (RuntimeSpec.fromDict floats v).map some else .ok none

/-- The parts of a function record's document. -/
def FunctionDoc.ofValue (d : Value) : Except PyException FunctionDoc := do
  let code ← b64decode (← d.item "code_b64")
  let functionId ← (← d.item "function_id").asText
  let name ← (← d.item "name").asText
  let version ← (← d.item "version").asInt
  let createdAt ← floats.asFloat (← d.item "created_at")
  let state ← FunctionState.ofValue (← d.item "state")
  let runtimeSpec ← specOrNone floats (← d.getItem "runtime_spec" .none)
  let codeFormat ← (← d.getItem "code_format" (.str "cloudpickle")).asText
  let paramsSchema ← parseParamsSchema (← d.getItem "params_schema" .none)
  return {
    code, functionId, name, version, createdAt, state, runtimeSpec, codeFormat, paramsSchema }

/-- `dataclasses.asdict` of a data record. -/
def DataRecord.toValue (record : DataRecord) : Value :=
  .dict [("name", .str record.name), ("version", .int record.version),
    ("alias", .str record.keyAlias), ("format", .str record.format), ("kind", .str record.kind),
    ("total_size", .int record.totalSize), ("chunk_bytes", .int record.chunkBytes),
    ("total_chunks", .int record.totalChunks),
    ("created_at", .float (floats.text record.createdAt)),
    ("declared_hash", orNull .str record.declaredHash),
    ("content_hash_algo", .str record.contentHashAlgo)]

/-- `C(**d)` takes a dict with no keys but the names of the fields of `C`. -/
def asArguments (names : List String) (d : Value) : Except PyException Value :=
  match d with
  | .dict fields => if ∀ field ∈ fields, field.1 ∈ names then .ok d else .error .typeError
  | _ => .error .typeError

/-- An argument without a default. -/
def argument (d : Value) (name : String) : Except PyException Value :=
  match d.item name with
  | .ok v => .ok v
  | .error _ => .error .typeError

/-- `DataRecord(**d)`. -/
def DataRecord.ofValue (d : Value) : Except PyException DataRecord := do
  let d ← asArguments ["name", "version", "alias", "format", "kind", "total_size", "chunk_bytes",
    "total_chunks", "created_at", "declared_hash", "content_hash_algo"] d
  let name ← (← argument d "name").asText
  let version ← (← argument d "version").asInt
  let keyAlias ← (← argument d "alias").asText
  let format ← (← argument d "format").asText
  let kind ← (← argument d "kind").asText
  let totalSize ← (← argument d "total_size").asInt
  let chunkBytes ← (← argument d "chunk_bytes").asInt
  let totalChunks ← (← argument d "total_chunks").asInt
  let createdAt ← floats.asFloat (← argument d "created_at")
  let declaredHash ← (← d.getItem "declared_hash" .none).asTextOrNone
  let contentHashAlgo ← (← d.getItem "content_hash_algo" (.str "sha256")).asText
  return {
    name, version, keyAlias, format, kind, totalSize, chunkBytes, totalChunks, createdAt,
    declaredHash, contentHashAlgo }

/-- `dataclasses.asdict` of a bucket. -/
def DataBucket.toValue (bucket : DataBucket) : Value :=
  .dict [("name", .str bucket.name), ("quota_bytes", .int bucket.quotaBytes),
    ("created_at", .float (floats.text bucket.createdAt))]

/-- `DataBucket(**d)`. -/
def DataBucket.ofValue (d : Value) : Except PyException DataBucket := do
  let d ← asArguments ["name", "quota_bytes", "created_at"] d
  let name ← (← argument d "name").asText
  let quotaBytes ← (← argument d "quota_bytes").asInt
  let createdAt ← floats.asFloat (← argument d "created_at")
  return { name, quotaBytes, createdAt }

/-! ### Blobs -/

/-- `json.dumps(d).encode("utf-8")`. -/
def dumpBlob (v : Value) : Frame := utf8Encode (json.dumps v)

/-- `json.loads(blob.decode("utf-8"))`; a `JSONDecodeError` is a `ValueError`. -/
def loadBlob (blob : Frame) : Except PyException Value :=
  match utf8Decode blob with
  | none => .error .unicodeDecodeError
  | some text =>
    match json.loads text with
    | .value v => .ok v
    | .malformed _ => .error .valueError
    | .raised e => .error e

/-- `serialize_function_record`. -/
def functionBlob (record : StoredFunction) : Frame :=
  dumpBlob json ((serializeFunctionRecord record).toValue floats)

/-- `deserialize_function_record`. -/
def functionOfBlob (blob : Frame) : Except PyException RegisteredFunction := do
  let d ← loadBlob json blob
  return deserializeFunctionRecord (← FunctionDoc.ofValue floats d)

/-- `serialize_data_record`. -/
def dataBlob (record : DataRecord) : Frame := dumpBlob json (record.toValue floats)

/-- `deserialize_data_record`. -/
def dataOfBlob (blob : Frame) : Except PyException DataRecord := do
  DataRecord.ofValue floats (← loadBlob json blob)

/-- `serialize_data_bucket`. -/
def bucketBlob (bucket : DataBucket) : Frame := dumpBlob json (bucket.toValue floats)

/-- `deserialize_data_bucket`. -/
def bucketOfBlob (blob : Frame) : Except PyException DataBucket := do
  DataBucket.ofValue floats (← loadBlob json blob)

/-- The document of `serialize_function_tombstone` and `serialize_data_tombstone`. -/
def tombstone : Value := .dict [("__tombstone__", .bool true)]

/-- `is_function_tombstone` and `is_data_tombstone`. -/
def isTombstone (blob : Frame) : Except PyException Bool :=
  match utf8Decode blob with
  | none => .ok false
  | some text =>
    match json.loads text with
    | .value v => (v.getItem "__tombstone__" (.bool false)).map (· = .bool true)
    | .malformed _ => .ok false
    | .raised e => .error e

end Axo
