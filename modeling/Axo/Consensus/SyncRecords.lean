import Axo.Consensus.KeyText
import Axo.Functions.ParamsValidation

/-!
# The replicated records

The records of the function, data and bucket stores, the keys they are kept under, and the blobs
in which they travel between endpoints, after `functions/models.py`, `runtime/spec.py`,
`data/models.py`, `data/bucket_models.py` and the serializers of `registry_sync.py`,
`data_sync.py` and `bucket_sync.py`.

* `CombinedKey` is a text `f"{id}:{version}"`; `CombinedKey.key` reads it back with `rpartition`
  and `int`, which is the inverse of writing it whatever the id is (`key_of`, `of_key`);
* `toStoredFunction_deserialize_serialize`: a function record survives its blob, but for a schema
  that is an empty list.

A blob is kept as the document it is the JSON text of, and the bytes of a function's code, which
the document has in base64, as they are.
-/

namespace Axo

/-! ### Keys -/

/-- The key `StorageKey(id=id, version=version, alias=id)` of a function or a dataset. -/
structure RecordKey where
  id : String
  version : ℤ
  deriving DecidableEq

/-- `f"{id}:{version}"`. -/
def RecordKey.combined (key : RecordKey) : String := key.id ++ ":" ++ key.version.repr

/-- What `apply_incoming` reads in a combined key: `rpartition(":")` and `int`. -/
def splitCombined (text : String) : Option RecordKey :=
  let (id, versionStr) := rpartition text
  (intOfStr versionStr.toList).map fun version => { id := id, version := version }

/-- The id may have colons of its own. -/
@[simp] theorem splitCombined_combined (key : RecordKey) :
    splitCombined key.combined = some key := by
  rw [splitCombined, RecordKey.combined, rpartition_append _ (colon_notMem_repr key.version)]
  simp only [intOfStr_repr, Option.map_some]

/-- A text that is the combined key of something. -/
structure CombinedKey where
  text : String
  isCombined : ∃ key : RecordKey, text = key.combined

namespace CombinedKey

instance : DecidableEq CombinedKey := fun k l =>
  decidable_of_iff (k.text = l.text) (by cases k; cases l; simp)

/-- The combined key of a record. -/
def of (key : RecordKey) : CombinedKey := ⟨key.combined, key, rfl⟩

theorem splitCombined_isSome (k : CombinedKey) : (splitCombined k.text).isSome = true := by
  obtain ⟨key, hkey⟩ := k.isCombined
  rw [hkey, splitCombined_combined, Option.isSome_some]

/-- The record a combined key stands for. -/
def key (k : CombinedKey) : RecordKey := (splitCombined k.text).get k.splitCombined_isSome

@[simp] theorem key_of (key : RecordKey) : (of key).key = key := by
  simp [CombinedKey.key, of]

@[simp] theorem of_key (k : CombinedKey) : of k.key = k := by
  obtain ⟨text, key, rfl⟩ := k
  exact congrArg of (key_of key)

theorem of_injective : Function.Injective of := fun k l h => by
  rw [← key_of k, h, key_of]

end CombinedKey

/-! ### Records -/

/-- `RuntimeSpec`. -/
structure RuntimeSpec where
  type : String := "process"
  pythonVersion : String := "3.11"
  requirements : List String := []
  image : Option String := none
  envVars : Dict String String := ∅
  idleTtlSeconds : ℚ := 300
  maxInvocations : ℤ := 0
  memoryLimitBytes : Option ℤ := none
  cpuLimit : Option ℚ := none
  maxConcurrency : ℤ := 1
  maxDurationSeconds : ℚ := 0
  maxRetries : ℤ := 3
  deriving DecidableEq

/-- `FunctionState`. -/
inductive FunctionState
  | registered
  | coldStart
  | running
  | completed
  | failed
  | idle
  | evicted
  deriving DecidableEq

/-- `FunctionState.value`. -/
def FunctionState.value : FunctionState → String
  | .registered => "REGISTERED"
  | .coldStart => "COLD_START"
  | .running => "RUNNING"
  | .completed => "COMPLETED"
  | .failed => "FAILED"
  | .idle => "IDLE"
  | .evicted => "EVICTED"

/-- A `FunctionRecord` with all its fields. -/
structure StoredFunction where
  code : List UInt8
  functionId : String
  name : String
  version : ℤ
  createdAt : ℚ
  state : FunctionState
  runtimeSpec : Option RuntimeSpec
  codeFormat : String
  paramsSchema : Option (List ParamSpec)
  deriving DecidableEq

/-- A `FunctionRecord` as commands and replication put it into a store: its schema is not an empty
list, since the two handlers and `deserialize_function_record` write
`parse_params_schema(...) or None`. -/
structure RegisteredFunction extends StoredFunction where
  schema_ne : paramsSchema ≠ some []
  deriving DecidableEq

/-- `DataRecord`. -/
structure DataRecord where
  name : String
  version : ℤ
  keyAlias : String
  format : String
  kind : String
  totalSize : ℤ
  chunkBytes : ℤ
  totalChunks : ℤ
  createdAt : ℚ
  declaredHash : Option String
  contentHashAlgo : String
  deriving DecidableEq

/-- `DataBucket`. -/
structure DataBucket where
  name : String
  quotaBytes : ℤ
  createdAt : ℚ
  deriving DecidableEq

/-! ### Blobs -/

/-- A blob of a diff: the document of a record, or `{"__tombstone__": True}`. -/
inductive Blob (α : Type*)
  | record (doc : α)
  | tombstone
  deriving DecidableEq

/-- The document of a function record; its schema is a list. -/
structure FunctionDoc where
  code : List UInt8
  functionId : String
  name : String
  version : ℤ
  createdAt : ℚ
  state : FunctionState
  runtimeSpec : Option RuntimeSpec
  codeFormat : String
  paramsSchema : List ParamSpec
  deriving DecidableEq

/-- `parse_params_schema(...) or None`. -/
def orNone (schema : List ParamSpec) : Option (List ParamSpec) :=
  if schema = [] then none else some schema

theorem orNone_ne (schema : List ParamSpec) : orNone schema ≠ some [] := by
  unfold orNone
  split_ifs with h
  · exact Option.some_ne_none [] ∘ Eq.symm
  · exact fun hs => h (Option.some.inj hs)

/-- `params_schema_to_list`. -/
def paramsSchemaToList (schema : Option (List ParamSpec)) : List ParamSpec := schema.getD []

theorem orNone_paramsSchemaToList_eq (schema : Option (List ParamSpec)) :
    orNone (paramsSchemaToList schema) = schema.filter (· ≠ []) := by
  rcases schema with _ | _ | ⟨spec, specs⟩ <;> rfl

theorem orNone_paramsSchemaToList {schema : Option (List ParamSpec)} (h : schema ≠ some []) :
    orNone (paramsSchemaToList schema) = schema := by
  cases schema with
  | none => rfl
  | some specs =>
    have hne : specs ≠ [] := fun hnil => h (congrArg some hnil)
    exact if_neg hne

theorem paramsSchemaToList_orNone (schema : List ParamSpec) :
    paramsSchemaToList (orNone schema) = schema := by
  unfold orNone
  split_ifs with h
  · exact h.symm
  · rfl

/-- `serialize_function_record`. -/
def serializeFunctionRecord (record : StoredFunction) : FunctionDoc where
  code := record.code
  functionId := record.functionId
  name := record.name
  version := record.version
  createdAt := record.createdAt
  state := record.state
  runtimeSpec := record.runtimeSpec
  codeFormat := record.codeFormat
  paramsSchema := paramsSchemaToList record.paramsSchema

/-- `deserialize_function_record`. -/
def deserializeFunctionRecord (doc : FunctionDoc) : RegisteredFunction where
  code := doc.code
  functionId := doc.functionId
  name := doc.name
  version := doc.version
  createdAt := doc.createdAt
  state := doc.state
  runtimeSpec := doc.runtimeSpec
  codeFormat := doc.codeFormat
  paramsSchema := orNone doc.paramsSchema
  schema_ne := orNone_ne doc.paramsSchema

/-- An empty schema comes back as none. -/
theorem toStoredFunction_deserialize_serialize (record : StoredFunction) :
    (deserializeFunctionRecord (serializeFunctionRecord record)).toStoredFunction =
      { record with paramsSchema := record.paramsSchema.filter (· ≠ []) } := by
  simp only [deserializeFunctionRecord, serializeFunctionRecord, orNone_paramsSchemaToList_eq]

@[simp] theorem deserializeFunctionRecord_serialize (record : RegisteredFunction) :
    deserializeFunctionRecord (serializeFunctionRecord record.toStoredFunction) = record := by
  obtain ⟨⟨code, functionId, name, version, createdAt, state, runtimeSpec, codeFormat, schema⟩,
    hne⟩ := record
  simp only [deserializeFunctionRecord, serializeFunctionRecord, orNone_paramsSchemaToList hne]

@[simp] theorem serializeFunctionRecord_deserialize (doc : FunctionDoc) :
    serializeFunctionRecord (deserializeFunctionRecord doc).toStoredFunction = doc := by
  simp only [deserializeFunctionRecord, serializeFunctionRecord, paramsSchemaToList_orNone]

end Axo
