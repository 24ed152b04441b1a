import Axo.Wire.RecordBlobs

/-!
# What a blob gives back

* `FunctionDoc.ofValue_toValue`, `DataRecord.ofValue_toValue` and `DataBucket.ofValue_toValue`: the
  document of a record is taken apart into what it was made of;
* `functionOfBlob_functionBlob` and its like for datasets and buckets: the round trip of the blobs;
* `isTombstone_functionBlob` and `isTombstone_dataBlob`: no record looks like a deletion.

`Faithful` is what is assumed of the numbers of a record, and that its types are written in their one
way.
-/

namespace Axo

variable {json : JsonLib} {floats : PyFloats}

theorem ok_bind {α β : Type} (a : α) (f : α → Except PyException β) :
    ((.ok a : Except PyException α) >>= f) = f a := rfl

/-- A list is read back element by element. -/
theorem mapM_map_ok {α β γ : Type} {write : α → β} {read : β → Except PyException γ} {back : α → γ}
    {items : List α} (h : ∀ a ∈ items, read (write a) = .ok (back a)) :
    (items.map write).mapM read = .ok (items.map back) := by
  induction items with
  | nil => rfl
  | cons a items ih =>
    rw [List.map_cons, List.mapM_cons, h a List.mem_cons_self,
      ih fun b hb => h b (List.mem_cons_of_mem a hb)]
    rfl

theorem mapM_map_eq {α β : Type} {write : α → β} {read : β → Except PyException α}
    {items : List α} (h : ∀ a ∈ items, read (write a) = .ok a) :
    (items.map write).mapM read = .ok items := by
  have hmap := @mapM_map_ok _ _ _ write read id items h
  rwa [List.map_id] at hmap

theorem ParamSpec.fromDict_toDict {spec : ParamSpec}
    (h : ParamType.ofText spec.type.text = spec.type) :
    ParamSpec.fromDict spec.toDict = .ok spec := by
  obtain ⟨name, type, required, default⟩ := spec
  have hread : ParamSpec.fromDict (ParamSpec.toDict ⟨name, type, required, default⟩) =
      .ok ⟨name, ParamType.ofText type.text, required, default⟩ := rfl
  rw [hread]
  exact congrArg (fun t => Except.ok (ParamSpec.mk name t required default)) h

/-- The dict of a document's texts. -/
theorem textDict_entries (m : Dict String String) :
    textDict (m.entries.map fun e => (e.1, .str e.2)) = .ok m := by
  have htexts : (m.entries.map fun e => (e.1, Value.str e.2)).mapM
      (fun field => return (field.1, ← field.2.asText)) =
        (.ok (m.entries.map fun e => (e.1, e.2)) : Except PyException (List (String × String))) :=
    mapM_map_ok fun _ _ => rfl
  unfold textDict
  rw [htexts]
  exact congrArg Except.ok (Dict.foldr_setdefault_entries m)

theorem asTextOrNone_orNull (text : Option String) :
    (orNull .str text).asTextOrNone = .ok text := by
  cases text <;> rfl

/-- The numbers of a runtime spec are read back from their texts. -/
structure RuntimeSpec.Faithful (floats : PyFloats) (spec : RuntimeSpec) : Prop where
  idleTtlSeconds : floats.Faithful spec.idleTtlSeconds
  maxDurationSeconds : floats.Faithful spec.maxDurationSeconds
  cpuLimit : ∀ q ∈ spec.cpuLimit, floats.Faithful q

theorem RuntimeSpec.fromDict_toDict {spec : RuntimeSpec} (h : spec.Faithful floats) :
    RuntimeSpec.fromDict floats (spec.toDict floats) = .ok spec := by
  have hrequirements : (spec.requirements.map Value.str).mapM Value.asText =
      .ok spec.requirements := mapM_map_eq fun _ _ => rfl
  have hfields := textDict_entries spec.envVars
  have hmemory : intOrNone floats (orNull .int spec.memoryLimitBytes) =
      .ok spec.memoryLimitBytes := by
    cases spec.memoryLimitBytes <;> rfl
  have hlimit : floatOrNone floats (orNull (fun q => .float (floats.text q)) spec.cpuLimit) =
      .ok spec.cpuLimit := by
    cases hq : spec.cpuLimit with
    | none => rfl
    | some q => exact congrArg (Except.map some) (PyFloats.floatOf_text (h.cpuLimit q hq))
  unfold RuntimeSpec.fromDict RuntimeSpec.toDict
  simp [Value.getItem, List.lookup_cons, Value.asText, Value.toList, Value.toFields,
    asTextOrNone_orNull, hrequirements, hfields, hmemory, hlimit, PyFloats.floatOf_text h.idleTtlSeconds,
    PyFloats.floatOf_text h.maxDurationSeconds, PyFloats.intOf, ok_bind]

/-! ### Documents -/

theorem FunctionState.ofValue_value (state : FunctionState) :
    FunctionState.ofValue (.str state.value) = .ok state := by
  cases state <;> rfl

theorem b64decode_encode (code : List UInt8) :
    b64decode (.str (String.ofList (Base64.encode code))) = .ok code := by
  unfold b64decode
  simp only [String.toList_ofList, Base64.decode_encode]

theorem specOrNone_orNull {spec : Option RuntimeSpec} (h : ∀ r ∈ spec, r.Faithful floats) :
    specOrNone floats (orNull (RuntimeSpec.toDict floats) spec) = .ok spec := by
  cases hspec : spec with
  | none => rfl
  | some r => exact congrArg (Except.map some) (RuntimeSpec.fromDict_toDict (h r hspec))

theorem parseParamsSchema_map {schema : List ParamSpec}
    (h : ∀ p ∈ schema, ParamType.ofText p.type.text = p.type) :
    parseParamsSchema (.list (schema.map ParamSpec.toDict)) = .ok schema := by
  have hmap : (schema.map ParamSpec.toDict).mapM ParamSpec.fromDict = .ok schema :=
    mapM_map_eq fun p hp => ParamSpec.fromDict_toDict (h p hp)
  cases schema with
  | nil => rfl
  | cons p schema => exact hmap

/-- The numbers and types of a function record are read back. -/
structure FunctionDoc.Faithful (floats : PyFloats) (doc : FunctionDoc) : Prop where
  createdAt : floats.Faithful doc.createdAt
  runtimeSpec : ∀ spec ∈ doc.runtimeSpec, spec.Faithful floats
  types : ∀ p ∈ doc.paramsSchema, ParamType.ofText p.type.text = p.type

theorem FunctionDoc.ofValue_toValue {doc : FunctionDoc} (h : doc.Faithful floats) :
    FunctionDoc.ofValue floats (doc.toValue floats) = .ok doc := by
  unfold FunctionDoc.ofValue FunctionDoc.toValue
  simp [Value.getItem, Value.item, List.lookup_cons, Value.asText, Value.asInt, b64decode_encode,
    FunctionState.ofValue_value, PyFloats.asFloat_text h.createdAt, specOrNone_orNull h.runtimeSpec,
    parseParamsSchema_map h.types, ok_bind]

theorem DataRecord.ofValue_toValue {record : DataRecord} (h : floats.Faithful record.createdAt) :
    DataRecord.ofValue floats (record.toValue floats) = .ok record := by
  unfold DataRecord.ofValue DataRecord.toValue
  simp [asArguments, argument, Value.getItem, Value.item, List.lookup_cons, Value.asText,
    Value.asInt, asTextOrNone_orNull, PyFloats.asFloat_text h, ok_bind]

theorem DataBucket.ofValue_toValue {bucket : DataBucket} (h : floats.Faithful bucket.createdAt) :
    DataBucket.ofValue floats (bucket.toValue floats) = .ok bucket := by
  unfold DataBucket.ofValue DataBucket.toValue
  simp [asArguments, argument, Value.item, List.lookup_cons, Value.asText, Value.asInt,
    PyFloats.asFloat_text h, ok_bind]

/-! ### Blobs -/

theorem loadBlob_dumpBlob {v : Value} (h : json.Faithful v) :
    loadBlob json (dumpBlob json v) = .ok v := by
  have hloads : json.loads (json.dumps v) = .value v := h
  simp only [loadBlob, dumpBlob, utf8Decode_encode, hloads]

theorem functionOfBlob_functionBlob {record : StoredFunction}
    (h : (serializeFunctionRecord record).Faithful floats)
    (hjson : json.Faithful ((serializeFunctionRecord record).toValue floats)) :
    functionOfBlob json floats (functionBlob json floats record) =
      .ok (deserializeFunctionRecord (serializeFunctionRecord record)) := by
  unfold functionOfBlob functionBlob
  rw [loadBlob_dumpBlob hjson, ok_bind, FunctionDoc.ofValue_toValue h, ok_bind]
  rfl

theorem dataOfBlob_dataBlob {record : DataRecord} (h : floats.Faithful record.createdAt)
    (hjson : json.Faithful (record.toValue floats)) :
    dataOfBlob json floats (dataBlob json floats record) = .ok record := by
  unfold dataOfBlob dataBlob
  rw [loadBlob_dumpBlob hjson, ok_bind, DataRecord.ofValue_toValue h]

theorem bucketOfBlob_bucketBlob {bucket : DataBucket} (h : floats.Faithful bucket.createdAt)
    (hjson : json.Faithful (bucket.toValue floats)) :
    bucketOfBlob json floats (bucketBlob json floats bucket) = .ok bucket := by
  unfold bucketOfBlob bucketBlob
  rw [loadBlob_dumpBlob hjson, ok_bind, DataBucket.ofValue_toValue h]

/-- A document without the mark is no deletion. -/
theorem isTombstone_dumpBlob {fields : List (String × Value)} (hjson : json.Faithful (.dict fields))
    (hmark : fields.lookup "__tombstone__" = none) :
    isTombstone json (dumpBlob json (.dict fields)) = .ok false := by
  have hloads : json.loads (json.dumps (.dict fields)) = .value (.dict fields) := hjson
  simp only [isTombstone, dumpBlob, utf8Decode_encode, hloads, Value.getItem, hmark]
  rfl

theorem isTombstone_functionBlob {record : StoredFunction}
    (hjson : json.Faithful ((serializeFunctionRecord record).toValue floats)) :
    isTombstone json (functionBlob json floats record) = .ok false :=
  isTombstone_dumpBlob hjson (by simp [List.lookup_cons])

theorem isTombstone_dataBlob {record : DataRecord}
    (hjson : json.Faithful (record.toValue floats)) :
    isTombstone json (dataBlob json floats record) = .ok false :=
  isTombstone_dumpBlob hjson (by simp [List.lookup_cons])

theorem isTombstone_bucketBlob {bucket : DataBucket}
    (hjson : json.Faithful (bucket.toValue floats)) :
    isTombstone json (bucketBlob json floats bucket) = .ok false :=
  isTombstone_dumpBlob hjson (by simp [List.lookup_cons])

/-- The mark of a deletion is told from the records. -/
theorem isTombstone_tombstone (hjson : json.Faithful tombstone) :
    isTombstone json (dumpBlob json tombstone) = .ok true := by
  have hloads : json.loads (json.dumps tombstone) = .value tombstone := hjson
  simp only [isTombstone, dumpBlob, utf8Decode_encode, hloads]
  rfl

end Axo
