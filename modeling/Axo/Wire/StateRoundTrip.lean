import Axo.Functions.FunctionVersions
import Axo.Wire.RecordRoundTrip
import Axo.Wire.StateCodec

/-!
# What pushes and pulls give back

* `decodeStateChanges_encode` and `decodeClusterState_encode`: the maps arrive as they were sent, blob
  for blob;
* `Travelled.eq`: any number of pushes and pulls later a blob is still the same;
* `replication_roundTrip` puts these together with the round trips of the records;
* `not_roundTrip_emptySchema` is a record that comes back without its empty schema.
-/

namespace Axo

variable {json : JsonLib} {floats : PyFloats} {order : Finset String → List String}

/-! ### Maps -/

theorem loadBlob_of_isBlob {blob : Frame} (h : IsBlob json blob) :
    loadBlob json blob = .ok (documentOf json blob) := by
  obtain ⟨v, hv, rfl⟩ := h
  unfold documentOf
  rw [loadBlob_dumpBlob hv]

/-- A blob is written again as it was. -/
theorem dumpBlob_documentOf {blob : Frame} (h : IsBlob json blob) :
    dumpBlob json (documentOf json blob) = blob := by
  obtain ⟨v, hv, rfl⟩ := h
  unfold documentOf
  rw [loadBlob_dumpBlob hv]

theorem isBlob_functionBlob {record : StoredFunction}
    (h : json.Faithful ((serializeFunctionRecord record).toValue floats)) :
    IsBlob json (functionBlob json floats record) := ⟨_, h, rfl⟩

theorem loadAll_eq {blobs : BlobMap} (h : ∀ entry ∈ blobs, IsBlob json entry.2) :
    loadAll json blobs = .ok (mapDocument json blobs) := by
  have hmap : (blobs.map id).mapM (fun entry => return (entry.1, ← loadBlob json entry.2)) =
      (.ok (blobs.map fun entry => (entry.1, documentOf json entry.2)) :
        Except PyException (List (String × Value))) := by
    refine mapM_map_ok fun entry hentry => ?_
    rw [id_eq, loadBlob_of_isBlob (h entry hentry)]
    rfl
  rw [List.map_id] at hmap
  unfold loadAll
  rw [hmap]
  rfl

theorem dumpAll_mapDocument {blobs : BlobMap} (h : ∀ entry ∈ blobs, IsBlob json entry.2) :
    dumpAll json (mapDocument json blobs) = .ok blobs := by
  have hmap : (blobs.map fun entry => (entry.1, documentOf json entry.2)).map
      (fun field => (field.1, dumpBlob json field.2)) = blobs.map id := by
    rw [List.map_map]
    refine List.map_congr_left fun entry hentry => ?_
    exact congrArg (Prod.mk entry.1) (dumpBlob_documentOf (h entry hentry))
  rw [List.map_id] at hmap
  exact congrArg Except.ok hmap

/-- `json.loads("")` is a `JSONDecodeError`, so that no document is written as nothing. -/
theorem dumpBlob_ne_nil {v : Value} (hempty : ∀ w, json.loads "" ≠ .value w)
    (h : json.Faithful v) : dumpBlob json v ≠ [] := by
  intro hnil
  have htext : json.dumps v = "" := utf8Encode_injective hnil
  have hloads : json.loads (json.dumps v) = .value v := h
  rw [htext] at hloads
  exact hempty v hloads

theorem StateChanges.AllBlobs.functions {changes : StateChanges} (h : changes.AllBlobs json) :
    ∀ entry ∈ changes.functions, IsBlob json entry.2 := h .functions

theorem StateChanges.AllBlobs.data {changes : StateChanges} (h : changes.AllBlobs json) :
    ∀ entry ∈ changes.data, IsBlob json entry.2 := h .data

theorem StateChanges.AllBlobs.buckets {changes : StateChanges} (h : changes.AllBlobs json) :
    ∀ entry ∈ changes.buckets, IsBlob json entry.2 := h .buckets

/-- The document of a diff that registers one function. -/
theorem document_functionBlob {record : StoredFunction} {key : String}
    (h : json.Faithful ((serializeFunctionRecord record).toValue floats)) :
    StateChanges.document json { functions := [(key, functionBlob json floats record)] } =
      .dict [("functions", .dict [(key, (serializeFunctionRecord record).toValue floats)]),
        ("data", .dict []), ("buckets", .dict [])] := by
  have hdoc : documentOf json (functionBlob json floats record) =
      (serializeFunctionRecord record).toValue floats := by
    unfold documentOf functionBlob
    rw [loadBlob_dumpBlob h]
  unfold StateChanges.document mapDocument
  simp only [List.map_cons, List.map_nil, hdoc]

/-! ### Pushes -/

theorem encodeStateChanges_eq {changes : StateChanges} (h : changes.AllBlobs json) :
    encodeStateChanges json changes = .ok (dumpBlob json (changes.document json)) := by
  unfold encodeStateChanges
  rw [loadAll_eq h.functions, loadAll_eq h.data, loadAll_eq h.buckets]
  rfl

/-- A push arrives as it was sent. -/
theorem decodeStateChanges_encode {changes : StateChanges} (hempty : ∀ w, json.loads "" ≠ .value w)
    (h : changes.AllBlobs json) (hjson : json.Faithful (changes.document json)) :
    decodeStateChanges json (dumpBlob json (changes.document json)) = .ok changes := by
  unfold decodeStateChanges
  rw [if_neg (dumpBlob_ne_nil hempty hjson), loadBlob_dumpBlob hjson]
  simp only [ok_bind, StateChanges.document, Value.getItem]
  simp [List.lookup_cons, dumpAll_mapDocument h.functions, dumpAll_mapDocument h.data,
    dumpAll_mapDocument h.buckets, ok_bind]

/-! ### Pulls -/

theorem textSet_textList (horder : ∀ s, (order s).toFinset = s) (s : Finset String) :
    textSet (textList order s) = .ok s := by
  have htexts : ((order s).map Value.str).mapM Value.asText = .ok (order s) :=
    mapM_map_eq fun _ _ => rfl
  unfold textSet textList
  simp only [Value.toList, ok_bind, htexts, horder]
  rfl

theorem encodeClusterState_eq {state : StateSnapshot} (h : state.changes.AllBlobs json) :
    encodeClusterState json order state = .ok (dumpBlob json (state.document json order)) := by
  unfold encodeClusterState
  rw [loadAll_eq h.functions, loadAll_eq h.data, loadAll_eq h.buckets]
  rfl

/-- A snapshot arrives as it was sent. -/
theorem decodeClusterState_encode {state : StateSnapshot} (horder : ∀ s, (order s).toFinset = s)
    (h : state.changes.AllBlobs json) (hjson : json.Faithful (state.document json order)) :
    decodeClusterState json (dumpBlob json (state.document json order)) = .ok state := by
  unfold decodeClusterState
  rw [loadBlob_dumpBlob hjson]
  simp only [ok_bind, StateSnapshot.document, Value.getItem, Value.item]
  simp [List.lookup_cons, Value.asInt, textSet_textList horder,
    dumpAll_mapDocument h.functions, dumpAll_mapDocument h.data, dumpAll_mapDocument h.buckets,
    ok_bind]

/-! ### Journeys -/

/-- A blob arrives as it was put in, however often it was sent on. -/
theorem Travelled.eq {blob there : Frame} (hempty : ∀ w, json.loads "" ≠ .value w)
    (horder : ∀ s, (order s).toFinset = s) (h : Travelled json order blob there) :
    there = blob := by
  induction h with
  | here => rfl
  | push h hblobs hfaithful hsent hencode hdecode hreceived ih =>
    rw [encodeStateChanges_eq hblobs, Except.ok.injEq] at hencode
    rw [← hencode, decodeStateChanges_encode hempty hblobs hfaithful, Except.ok.injEq] at hdecode
    rw [← hdecode, hsent, Option.some.injEq] at hreceived
    exact hreceived.symm.trans ih
  | pull h hblobs hfaithful hsent hencode hdecode hreceived ih =>
    rw [encodeClusterState_eq hblobs, Except.ok.injEq] at hencode
    rw [← hencode, decodeClusterState_encode horder hblobs hfaithful, Except.ok.injEq] at hdecode
    rw [← hdecode, hsent, Option.some.injEq] at hreceived
    exact hreceived.symm.trans ih

/-- The codecs of replication lose nothing but the difference between no schema and an empty one:
the blob of a record is deserialized into the record and is no deletion, maps of blobs arrive as they
were sent, and a blob that has passed any number of pushes and pulls still gives the record. -/
theorem replication_roundTrip (json : JsonLib) (floats : PyFloats)
    (order : Finset String → List String) (hempty : ∀ w, json.loads "" ≠ .value w)
    (horder : ∀ s, (order s).toFinset = s) :
    (∀ record : StoredFunction, (serializeFunctionRecord record).Faithful floats →
      json.Faithful ((serializeFunctionRecord record).toValue floats) →
        isTombstone json (functionBlob json floats record) = .ok false ∧
          ∀ blob, Travelled json order (functionBlob json floats record) blob →
            (functionOfBlob json floats blob).map RegisteredFunction.toStoredFunction =
              .ok { record with paramsSchema := record.paramsSchema.filter (· ≠ []) }) ∧
    (∀ record : DataRecord, floats.Faithful record.createdAt →
      json.Faithful (record.toValue floats) →
        isTombstone json (dataBlob json floats record) = .ok false ∧
          ∀ blob, Travelled json order (dataBlob json floats record) blob →
            dataOfBlob json floats blob = .ok record) ∧
    (∀ bucket : DataBucket, floats.Faithful bucket.createdAt →
      json.Faithful (bucket.toValue floats) →
        isTombstone json (bucketBlob json floats bucket) = .ok false ∧
          ∀ blob, Travelled json order (bucketBlob json floats bucket) blob →
            bucketOfBlob json floats blob = .ok bucket) ∧
    (∀ changes : StateChanges, changes.AllBlobs json → json.Faithful (changes.document json) →
      (encodeStateChanges json changes).bind (decodeStateChanges json) = .ok changes) ∧
    ∀ state : StateSnapshot, state.changes.AllBlobs json →
      json.Faithful (state.document json order) →
        (encodeClusterState json order state).bind (decodeClusterState json) = .ok state := by
  refine ⟨fun record hrecord hjson => ⟨isTombstone_functionBlob hjson, fun blob hblob => ?_⟩,
    fun record hrecord hjson => ⟨isTombstone_dataBlob hjson, fun blob hblob => ?_⟩,
    fun bucket hbucket hjson => ⟨isTombstone_bucketBlob hjson, fun blob hblob => ?_⟩,
    fun changes hblobs hjson => ?_, fun state hblobs hjson => ?_⟩
  · rw [hblob.eq hempty horder, functionOfBlob_functionBlob hrecord hjson]
    exact congrArg Except.ok (toStoredFunction_deserialize_serialize record)
  · rw [hblob.eq hempty horder]
    exact dataOfBlob_dataBlob hrecord hjson
  · rw [hblob.eq hempty horder]
    exact bucketOfBlob_bucketBlob hbucket hjson
  · rw [encodeStateChanges_eq hblobs]
    exact decodeStateChanges_encode hempty hblobs hjson
  · rw [encodeClusterState_eq hblobs]
    exact decodeClusterState_encode horder hblobs hjson

/-! ### A registered function on its way -/

/-- The document of a text. -/
def ofText (docs : List (Value × String)) (text : String) : Option Value :=
  (docs.find? fun doc => doc.2 = text).map Prod.fst

/-- A `json` module that knows some documents. -/
def jsonTable (docs : List (Value × String)) : JsonLib where
  dumps v := ((docs.find? fun doc => doc.1 = v).map Prod.snd).getD ""
  loads text :=
    match ofText docs text with
    | some v => .value v
    | none => .malformed "Expecting value: line 1 column 1 (char 0)"
  unicodeText _ := "'utf-8' codec can't decode byte"

theorem jsonTable_faithful {docs : List (Value × String)} {v : Value}
    (h : ofText docs ((jsonTable docs).dumps v) = some v) : (jsonTable docs).Faithful v := by
  have hloads : (jsonTable docs).loads ((jsonTable docs).dumps v) =
      match ofText docs ((jsonTable docs).dumps v) with
      | some v => .value v
      | none => .malformed "Expecting value: line 1 column 1 (char 0)" := rfl
  rw [JsonLib.Faithful, hloads, h]

/-- The floats of the function. -/
def addFloats : PyFloats where
  ofInt n := some (n.repr ++ ".0")
  ofStr _ := none
  trunc _ := .error .valueError
  text q := if q = 200 then "200.0" else if q = 300 then "300.0" else "0.0"
  value text :=
    if text = "200.0" then some 200
    else if text = "300.0" then some 300
    else if text = "0.0" then some 0
    else none

/-- A function that runs in a container. -/
def addFunction : StoredFunction where
  code := [120]
  functionId := "f1"
  name := "add"
  version := 1
  createdAt := 200
  state := .registered
  runtimeSpec := some
    { type := "container", requirements := ["numpy"], envVars := AList.insert "A" "1" ∅ }
  codeFormat := "cloudpickle"
  paramsSchema := some [{ name := "x", type := .number }]

/-- Its document. -/
def addText : String :=
  "\x7b\"code_b64\": \"eA==\", \"function_id\": \"f1\", \"name\": \"add\", \"version\": 1, " ++
  "\"created_at\": 200.0, \"state\": \"REGISTERED\", \"runtime_spec\": \x7b\"type\": " ++
  "\"container\", \"python_version\": \"3.11\", \"requirements\": [\"numpy\"], \"image\": " ++
  "null, \"env_vars\": \x7b\"A\": \"1\"\x7d, \"idle_ttl_seconds\": 300.0, " ++
  "\"max_invocations\": 0, \"memory_limit_bytes\": null, \"cpu_limit\": null, " ++
  "\"max_concurrency\": 1, \"max_duration_seconds\": 0.0, \"max_retries\": 3\x7d, " ++
  "\"code_format\": \"cloudpickle\", \"params_schema\": [\x7b\"name\": \"x\", \"type\": " ++
  "\"number\", \"required\": true, \"default\": null\x7d]\x7d"

/-- The push that carries it. -/
def addPushText : String :=
  "\x7b\"functions\": \x7b\"f1:1\": " ++ addText ++ "\x7d, \"data\": \x7b\x7d, " ++
  "\"buckets\": \x7b\x7d\x7d"

/-- The `json` module on these documents. -/
def addJson : JsonLib :=
  let doc := (serializeFunctionRecord addFunction).toValue addFloats
  jsonTable [(doc, addText),
    (.dict [("functions", .dict [("f1:1", doc)]), ("data", .dict []), ("buckets", .dict [])],
      addPushText)]

/-- The diff of the registration. -/
def addChanges : StateChanges where
  functions := [("f1:1", functionBlob addJson addFloats addFunction)]

theorem jsonTable_loads_empty {docs : List (Value × String)} (h : ∀ doc ∈ docs, doc.2 ≠ "")
    (w : Value) : (jsonTable docs).loads "" ≠ .value w := by
  have hnone : ofText docs "" = none := by
    unfold ofText
    rw [List.find?_eq_none.2 fun doc hdoc => by simpa using h doc hdoc]
    rfl
  intro hw
  simp only [jsonTable, hnone] at hw
  cases hw

theorem addJson_doc : addJson.Faithful ((serializeFunctionRecord addFunction).toValue addFloats) :=
  jsonTable_faithful (by decide +kernel)

theorem addChanges_allBlobs : addChanges.AllBlobs addJson := by
  intro domain entry hentry
  cases domain with
  | functions =>
    have hblob : entry.2 = functionBlob addJson addFloats addFunction :=
      congrArg Prod.snd (List.mem_singleton.1 hentry)
    rw [hblob]
    exact isBlob_functionBlob addJson_doc
  | data => cases hentry
  | buckets => cases hentry

/-- The document of the push. -/
def addPush : Value :=
  .dict [("functions", .dict [("f1:1", (serializeFunctionRecord addFunction).toValue addFloats)]),
    ("data", .dict []), ("buckets", .dict [])]

theorem addJson_push : addJson.Faithful addPush := jsonTable_faithful (by decide +kernel)

theorem addChanges_document : addChanges.document addJson = addPush :=
  document_functionBlob addJson_doc

theorem replication_roundTrip_add :
    (encodeStateChanges addJson addChanges).bind (decodeStateChanges addJson) = .ok addChanges ∧
      isTombstone addJson (functionBlob addJson addFloats addFunction) = .ok false ∧
      (functionOfBlob addJson addFloats (functionBlob addJson addFloats addFunction)).map
        RegisteredFunction.toStoredFunction = .ok addFunction := by
  have hempty : ∀ w, addJson.loads "" ≠ .value w := by
    refine jsonTable_loads_empty fun doc hdoc => ?_
    rcases List.mem_pair.1 hdoc with rfl | rfl
    · exact fun h => absurd (String.append_eq_empty_iff.1 h).2 (by decide)
    · exact fun h => absurd (String.append_eq_empty_iff.1 h).2 (by decide)
  obtain ⟨hfunction, -, -, hpush, -⟩ := replication_roundTrip addJson addFloats
    (fun s => s.sort (· ≤ ·)) hempty fun s => s.sort_toFinset (· ≤ ·)
  have hnumbers : (serializeFunctionRecord addFunction).Faithful addFloats := by
    refine ⟨rfl, fun spec hspec => ?_, fun p hp => ?_⟩
    · obtain rfl := Option.some.inj hspec
      exact ⟨rfl, rfl, fun q hq => by cases hq⟩
    · obtain rfl := List.mem_singleton.1 hp
      rfl
  obtain ⟨hmark, hback⟩ := hfunction addFunction hnumbers addJson_doc
  exact ⟨hpush addChanges addChanges_allBlobs (addChanges_document ▸ addJson_push), hmark, hback _ .here⟩

/-! ### A function registered with an empty schema -/

/-- What `register` stores when it is given an empty list for `params_schema`. -/
def emptySchema : StoredFunction where
  code := [120]
  functionId := "f1"
  name := "add"
  version := 1
  createdAt := 200
  state := .registered
  runtimeSpec := none
  codeFormat := "cloudpickle"
  paramsSchema := some []

/-- Its document. -/
def emptySchemaText : String :=
  "\x7b\"code_b64\": \"eA==\", \"function_id\": \"f1\", \"name\": \"add\", \"version\": 1, " ++
  "\"created_at\": 200.0, \"state\": \"REGISTERED\", \"runtime_spec\": null, " ++
  "\"code_format\": \"cloudpickle\", \"params_schema\": []\x7d"

/-- The registration stores the record, and its blob is read back as another one. -/
theorem not_roundTrip_emptySchema :
    let registered := FunctionBackend.register .empty "f1" "add" [120] 200 none "cloudpickle"
      (some [])
    let json := jsonTable [((serializeFunctionRecord emptySchema).toValue addFloats,
      emptySchemaText)]
    registered.1.get registered.2.1 = some emptySchema ∧
      json.Faithful ((serializeFunctionRecord emptySchema).toValue addFloats) ∧
      (functionOfBlob json addFloats (functionBlob json addFloats emptySchema)).map
        RegisteredFunction.toStoredFunction ≠ .ok emptySchema := by
  intro registered json
  have hjson : json.Faithful ((serializeFunctionRecord emptySchema).toValue addFloats) :=
    jsonTable_faithful (by decide +kernel)
  have hnumbers : (serializeFunctionRecord emptySchema).Faithful addFloats :=
    ⟨rfl, fun spec hspec => (by cases hspec), fun p hp => (by cases hp)⟩
  refine ⟨by decide +kernel, hjson, ?_⟩
  rw [functionOfBlob_functionBlob hnumbers hjson, Except.map,
    toStoredFunction_deserialize_serialize]
  decide

end Axo
