import Axo.Data.WholeStore
import Axo.Service.ResultBytes
import Axo.Wire.RoundTrip

/-!
# What becomes of a returned value

The way of a value from the function that returns it to the dataset or the result that it is read
from: `worker_main` of `worker_entry.py` and its pipe, `_encode_result` of `runner/server.py` and
`_pump_one_job` of `container_runtime.py`, and `on_complete` of `job_submit.py`, for both runtimes.

* `PyValue` is a Python value, and `PyValue.view` what `is_json_safe_value` sees of it;
* `PickleLib` is `cloudpickle`, `PipeOutcome` what the pipe of a worker process does with a value;
* `delivered` is what a runtime hands to `on_complete`, `recorded` what that saves;
* `readBack_iff` says for which values, from which runtime, the value is read back.
-/

namespace Axo

/-! ### Values -/

/-- A Python value; `Ω` are the tuples and the instances of any other class. -/
inductive PyValue (Ω : Type)
  | none
  | bool (b : Bool)
  | int (n : ℤ)
  | float (text : String)
  | str (text : String)
  | bytes (data : Frame)
  | bytearray (data : Frame)
  | list (items : List (PyValue Ω))
  | dict (fields : List (PyValue Ω × PyValue Ω))
  | other (object : Ω)

namespace PyValue

variable {Ω : Type}

mutual

/-- The value as far as `is_json_safe_value` looks into it. -/
def view : PyValue Ω → PyObject
  | .none => .none
  | .bool b => .bool b
  | .int n => .int n
  | .float text => .float text
  | .str text => .str text
  | .list items => .list (viewItems items)
  | .dict fields => .dict (viewFields fields)
  | .bytes _ | .bytearray _ | .other _ => .other

def viewItems : List (PyValue Ω) → List PyObject
  | [] => []
  | item :: items => item.view :: viewItems items

def viewFields : List (PyValue Ω × PyValue Ω) → List (PyObject × PyObject)
  | [] => []
  | (key, value) :: fields => (key.view, value.view) :: viewFields fields

end

/-- `bytes(value)`, where `isinstance(value, (bytes, bytearray))`. -/
def asBytes : PyValue Ω → Option Frame
  | .bytes data | .bytearray data => some data
  | .none | .bool _ | .int _ | .float _ | .str _ | .list _ | .dict _ | .other _ => Option.none

/-- The document of a value that is JSON-safe. -/
def document (v : PyValue Ω) : Option Value := v.view.jsonValue

mutual

/-- What `json.loads` returns. -/
def ofJson : Value → PyValue Ω
  | .none => .none
  | .bool b => .bool b
  | .int n => .int n
  | .float text => .float text
  | .str text => .str text
  | .list items => .list (ofJsonItems items)
  | .dict fields => .dict (ofJsonFields fields)

def ofJsonItems : List Value → List (PyValue Ω)
  | [] => []
  | item :: items => ofJson item :: ofJsonItems items

def ofJsonFields : List (String × Value) → List (PyValue Ω × PyValue Ω)
  | [] => []
  | (key, value) :: fields => (.str key, ofJson value) :: ofJsonFields fields

end

mutual

/-- What `json.loads` returns has the document that it was read from. -/
theorem document_ofJson : ∀ doc : Value, (ofJson doc : PyValue Ω).document = some doc
  | .none | .bool _ | .int _ | .float _ | .str _ => rfl
  | .list items => by
    rw [document, ofJson, view, PyObject.jsonValue, jsonItems_ofJsonItems items, Option.map_some]
  | .dict fields => by
    rw [document, ofJson, view, PyObject.jsonValue, jsonFields_ofJsonFields fields, Option.map_some]

theorem jsonItems_ofJsonItems : ∀ items : List Value,
    PyObject.jsonItems (viewItems (ofJsonItems items : List (PyValue Ω))) = some items
  | [] => rfl
  | item :: items => by
    have hitem : ((ofJson item : PyValue Ω).view).jsonValue = some item := document_ofJson item
    rw [ofJsonItems, viewItems, PyObject.jsonItems, hitem, Option.bind_some,
      jsonItems_ofJsonItems items, Option.map_some]

theorem jsonFields_ofJsonFields : ∀ fields : List (String × Value),
    PyObject.jsonFields (viewFields (ofJsonFields fields : List (PyValue Ω × PyValue Ω))) =
      some fields
  | [] => rfl
  | (key, value) :: fields => by
    have hvalue : ((ofJson value : PyValue Ω).view).jsonValue = some value := document_ofJson value
    rw [ofJsonFields, viewFields, PyObject.jsonFields, view, PyObject.asKey, Option.bind_some,
      hvalue, Option.bind_some, jsonFields_ofJsonFields fields, Option.map_some]

end

/-- Bytes are not JSON-safe. -/
theorem document_of_asBytes {v : PyValue Ω} {data : Frame} (h : v.asBytes = some data) :
    v.document = Option.none := by
  cases v with
  | bytes | bytearray => rfl
  | _ => cases h

end PyValue

/-! ### The two runtimes -/

/-- `cloudpickle`; `none` is an exception. -/
structure PickleLib (Ω : Type) where
  dumps : PyValue Ω → Frame
  loads : Frame → Option (PyValue Ω)

/-- The first byte of whatever `cloudpickle.dumps` writes: the opcode `PROTO`. -/
def protoOpcode : UInt8 := 0x80

/-- A value comes through `cloudpickle`. -/
structure PickleLib.Faithful {Ω : Type} (pickle : PickleLib Ω) (v : PyValue Ω) : Prop where
  loads_dumps : pickle.loads (pickle.dumps v) = some v
  starts : (pickle.dumps v).head? = some protoOpcode

/-- What the pipe between a worker process and its pump does with a value. -/
inductive PipeOutcome
  | carried
  /-- `conn.send` raises, and the `repr` of that is sent -/
  | notSent (error : String)
  /-- `conn.recv` raises, and the pump thread ends -/
  | notReceived
  deriving DecidableEq

/-- The runtime in which a function runs. -/
inductive RuntimeKind
  | process
  | container
  deriving DecidableEq

section Runtimes

variable {Ω : Type} (json : JsonLib) (pickle : PickleLib Ω) (pipe : PyValue Ω → PipeOutcome)

/-- `_encode_result`. -/
def encodeResult (v : PyValue Ω) : Frame :=
  match v.document with
  | some doc => utf8Encode (json.dumps doc)
  | none => pickle.dumps v

/-- What `_pump_one_job` takes the payload of a result for. -/
def payloadValue (payload : Frame) : PyValue Ω :=
  match utf8Decode payload with
  | some text =>
    match json.loads text with
    | .value doc => .ofJson doc
    | .malformed _ | .raised _ => .bytes payload
  | none => .bytes payload

/-- What `on_complete` is called with when the function has returned, if it is called. -/
def delivered (kind : RuntimeKind) (v : PyValue Ω) : Option (Except String (PyValue Ω)) :=
  match kind with
  | .process =>
    match pipe v with
    | .carried => some (.ok v)
    | .notSent error => some (.error error)
    | .notReceived => none
  | .container => some (.ok (payloadValue json (encodeResult json pickle v)))

/-- The bytes that `on_complete` stores for a value that is not JSON-safe. -/
def blobOf (raw : PyValue Ω) : Frame :=
  match raw.asBytes with
  | some data => data
  | none => pickle.dumps raw

variable (B : DataBackends)

/-- The dataset that is made of a result. -/
def resultKey (jobId : String) : RecordKey := ⟨"job-result-" ++ jobId, 1⟩

/-- `on_complete`, with a data registry: the result that is saved, and the datasets then. -/
def recorded (s : DataStore) (jobId : String) (durationMs : Option String) (warnings : List String)
    (now : ℚ) (outcome : Except String (PyValue Ω)) : WholeResult × DataStore :=
  let call : RecordedCall :=
    { jobId := jobId
      outcome := outcome.map PyValue.view
      durationMs := durationMs
      warnings := warnings }
  match outcome with
  | .error _ => (call.result, s)
  | .ok raw =>
    if raw.document.isSome then (call.result, s)
    else
      match s.registerAndStore B (resultKey jobId) "pickle" "fs" (blobOf pickle raw) now with
      | .ok (t, _, _) =>
        let call := { call with stored := true }
        (call.result, t)
      | .error _ => (call.result, s)

/-- The `decode` of a format of `FORMATS`; those of `pandas` and `numpy` are left out. -/
def decodeFormat (format : String) (data : Frame) : Option (PyValue Ω) :=
  if format = "raw" then some (.bytes data)
  else if format = "pickle" then pickle.loads data
  else none

/-- The value is in the result as it was returned, or it is read from the dataset that the result
refers to, in the format that is declared there. -/
def ReadBack (v : PyValue Ω) (result : WholeResult) (s : DataStore) : Prop :=
  result.ok = true ∧
    match v.document with
    | some doc => result.output = [("value", doc), ("type", .str "json")]
    | none =>
      ∃ key record data,
        result.refs.lookup "value" = some ⟨key.id, some key.version, none⟩ ∧
          s.catalog.lookup key = some record ∧ record.format = "pickle" ∧
          s.readWhole B key = .ok data ∧ decodeFormat pickle record.format data = some v

end Runtimes

/-! ### The bytes of a pickle -/

/-- What begins like a pickle is not UTF-8. -/
theorem utf8Decode_of_protoOpcode {payload : Frame} (h : payload.head? = some protoOpcode) :
    utf8Decode payload = none := by
  obtain ⟨rest, rfl⟩ : ∃ rest, payload = protoOpcode :: rest := by
    cases payload with
    | nil => cases h
    | cons byte rest => exact ⟨rest, by rw [Option.some.inj h]⟩
  unfold utf8Decode String.fromUTF8?
  refine dif_neg fun hvalid => ?_
  have hsize : 0 < (ByteArray.mk (protoOpcode :: rest).toArray).size := by simp [ByteArray.size]
  have hfirst := hvalid.isUTF8FirstByte_getElem_zero hsize
  have hbyte : (ByteArray.mk (protoOpcode :: rest).toArray)[0] = protoOpcode := rfl
  rw [hbyte] at hfirst
  exact absurd hfirst (by decide)

/-! ### Reading a value back -/

section ReadingBack

variable {Ω : Type} {json : JsonLib} {pickle : PickleLib Ω} {pipe : PyValue Ω → PipeOutcome}
  {B : DataBackends} {v raw : PyValue Ω}

/-- A container hands over what `json.loads` makes of a JSON-safe value. -/
theorem payloadValue_encodeResult {doc : Value} (hdoc : v.document = some doc)
    (hjson : json.Faithful doc) :
    payloadValue json (encodeResult json pickle v) = (PyValue.ofJson doc : PyValue Ω) := by
  have henc : encodeResult json pickle v = utf8Encode (json.dumps doc) := by
    rw [encodeResult, hdoc]
  rw [henc, payloadValue, utf8Decode_encode]
  dsimp only
  rw [hjson]

/-- A container hands over the pickle of any other value. -/
theorem payloadValue_pickle (hdoc : v.document = none) (hpickle : pickle.Faithful v) :
    payloadValue json (encodeResult json pickle v) = (.bytes (pickle.dumps v) : PyValue Ω) := by
  have henc : encodeResult json pickle v = pickle.dumps v := by
    rw [encodeResult, hdoc]
  rw [henc, payloadValue, utf8Decode_of_protoOpcode hpickle.starts]

variable (s : DataStore) (jobId : String) (durationMs : Option String) (warnings : List String)
  (now : ℚ)

/-- A value that is handed over with its document is in the result. -/
theorem readBack_inline {doc : Value} (hv : v.document = some doc) (hraw : raw.document = some doc) :
    ReadBack pickle B v (recorded pickle B s jobId durationMs warnings now (.ok raw)).1
      (recorded pickle B s jobId durationMs warnings now (.ok raw)).2 := by
  have hview : raw.view.jsonValue = some doc := hraw
  have hrecorded : (recorded pickle B s jobId durationMs warnings now (.ok raw)).1 =
      { jobId := jobId
        ok := true
        output := [("value", doc), ("type", .str "json")]
        durationMs := durationMs
        warnings := warnings } := by
    simp [recorded, hraw, RecordedCall.result, Except.map, hview]
  unfold ReadBack
  rw [hrecorded, hv]
  exact ⟨rfl, rfl⟩

/-- Any other value is read back if the blob that is stored is a pickle of it, and only then. -/
theorem readBack_blob_iff (hkind : "fs" ∈ B.kinds) (hv : v.document = none)
    (hraw : raw.document = none) :
    ReadBack pickle B v (recorded pickle B s jobId durationMs warnings now (.ok raw)).1
        (recorded pickle B s jobId durationMs warnings now (.ok raw)).2 ↔
      pickle.loads (blobOf pickle raw) = some v := by
  have hview : raw.view.jsonValue = none := hraw
  obtain ⟨t, events, hstore, ⟨hread, -⟩, hlookup⟩ := s.exists_registerAndStore (resultKey jobId)
    "pickle" (blobOf pickle raw) now none (by decide : 0 < 262144) hkind
  have hrecorded : recorded pickle B s jobId durationMs warnings now (.ok raw) =
      Prod.mk
        { jobId := jobId
          ok := true
          output := [("type", .str "bytes")]
          refs := [("value", ⟨"job-result-" ++ jobId, some 1, none⟩)]
          durationMs := durationMs
          warnings := warnings } t := by
    simp [recorded, hraw, hstore, RecordedCall.result, Except.map, hview]
  unfold ReadBack
  rw [hrecorded, hv]
  constructor
  · rintro ⟨-, key, record, data, href, hrecord, hformat, hdata, hdecode⟩
    have hkey : key = resultKey jobId := by
      obtain ⟨id, version⟩ := key
      simpa [resultKey, eq_comm] using href
    rw [hkey, hread] at hdata
    cases hdata
    rw [hformat] at hdecode
    exact hdecode
  · intro hloads
    exact ⟨rfl, resultKey jobId, _, _, by simp [resultKey], hlookup, rfl, hread, hloads⟩

/-- A result that failed has no value. -/
theorem not_readBack_error (error : String) :
    ¬ ReadBack pickle B v (recorded pickle B s jobId durationMs warnings now (.error error)).1
      (recorded pickle B s jobId durationMs warnings now (.error error)).2 :=
  fun h => absurd h.1 (by simp [recorded, RecordedCall.result, Except.map])

/-- What a container hands over is read back. -/
theorem readBack_container (hkind : "fs" ∈ B.kinds) (hpickle : pickle.Faithful v)
    (hjson : ∀ doc, v.document = some doc → json.Faithful doc) :
    ReadBack pickle B v
      (recorded pickle B s jobId durationMs warnings now
        (.ok (payloadValue json (encodeResult json pickle v)))).1
      (recorded pickle B s jobId durationMs warnings now
        (.ok (payloadValue json (encodeResult json pickle v)))).2 := by
  cases hdoc : v.document with
  | some doc =>
    rw [payloadValue_encodeResult hdoc (hjson doc hdoc)]
    exact readBack_inline s jobId durationMs warnings now hdoc (PyValue.document_ofJson doc)
  | none =>
    rw [payloadValue_pickle hdoc hpickle]
    exact (readBack_blob_iff s jobId durationMs warnings now hkind hdoc rfl).2 hpickle.loads_dumps

/-- A value that is handed over as it was returned is read back if it is not bytes; bytes have to be
a pickle of themselves. -/
theorem readBack_process_iff (hkind : "fs" ∈ B.kinds) (hpickle : pickle.Faithful v) :
    ReadBack pickle B v (recorded pickle B s jobId durationMs warnings now (.ok v)).1
        (recorded pickle B s jobId durationMs warnings now (.ok v)).2 ↔
      ∀ data, v.asBytes = some data → pickle.loads data = some v := by
  cases hdoc : v.document with
  | some doc =>
    refine ⟨fun _ data hdata => ?_, fun _ =>
      readBack_inline s jobId durationMs warnings now hdoc hdoc⟩
    rw [PyValue.document_of_asBytes hdata] at hdoc
    cases hdoc
  | none =>
    rw [readBack_blob_iff s jobId durationMs warnings now hkind hdoc hdoc, blobOf]
    cases hbytes : v.asBytes with
    | some data => simp
    | none => simp [hpickle.loads_dumps]

/-- **Which values are read back.** Every value that a container returns is; from a worker process it
is if the pipe carries it, and it is not bytes, or bytes that are a pickle of themselves. -/
theorem readBack_iff (hkind : "fs" ∈ B.kinds) (hpickle : pickle.Faithful v)
    (hjson : ∀ doc, v.document = some doc → json.Faithful doc) (kind : RuntimeKind) :
    (∃ outcome, delivered json pickle pipe kind v = some outcome ∧
        ReadBack pickle B v (recorded pickle B s jobId durationMs warnings now outcome).1
          (recorded pickle B s jobId durationMs warnings now outcome).2) ↔
      kind = .container ∨
        pipe v = .carried ∧ ∀ data, v.asBytes = some data → pickle.loads data = some v := by
  cases kind with
  | container =>
    exact iff_of_true ⟨_, rfl, readBack_container s jobId durationMs warnings now hkind hpickle hjson⟩
      (.inl rfl)
  | process =>
    simp only [delivered, reduceCtorEq, false_or]
    cases hpipe : pipe v with
    | carried =>
      simpa using readBack_process_iff s jobId durationMs warnings now hkind hpickle
    | notSent error =>
      simpa using not_readBack_error s jobId durationMs warnings now error
    | notReceived => simp

end ReadingBack

/-- `cloudpickle`, for the tuple `(1, 2)` and the bytes `b"abc"`. -/
def pairPickle : PickleLib Unit where
  dumps
    | .bytes _ => [128, 5, 149, 7, 0, 0, 0, 0, 0, 0, 0, 67, 3, 97, 98, 99, 148, 46]
    | _ => [128, 5, 149, 7, 0, 0, 0, 0, 0, 0, 0, 75, 1, 75, 2, 134, 148, 46]
  loads data :=
    if data = [128, 5, 149, 7, 0, 0, 0, 0, 0, 0, 0, 67, 3, 97, 98, 99, 148, 46] then
      some (.bytes [97, 98, 99])
    else if data = [128, 5, 149, 7, 0, 0, 0, 0, 0, 0, 0, 75, 1, 75, 2, 134, 148, 46] then
      some (.other ())
    else none

/-- A function in a worker process returns `(1, 2)`. -/
theorem readBack_pair : ∃ outcome,
    delivered (jsonOf .none "null") pairPickle (fun _ => .carried) .process (.other ()) =
      some outcome ∧
    ReadBack pairPickle DataHistory.plainBackends (.other ())
      (recorded pairPickle DataHistory.plainBackends {} "j1" none [] 5 outcome).1
      (recorded pairPickle DataHistory.plainBackends {} "j1" none [] 5 outcome).2 :=
  (readBack_iff {} "j1" none [] 5 (by decide) ⟨rfl, rfl⟩ (fun _ hdoc => by cases hdoc) .process).2
    (.inr ⟨rfl, fun _ hdata => by cases hdata⟩)

/-- A function in a worker process returns `b"abc"`: that is stored as it is, and is no pickle. -/
theorem not_readBack_bytes :
    pairPickle.Faithful (.bytes [97, 98, 99]) ∧
      ¬ ∃ outcome,
        delivered (jsonOf .none "null") pairPickle (fun _ => .carried) .process
          (.bytes [97, 98, 99]) = some outcome ∧
        ReadBack pairPickle DataHistory.plainBackends (.bytes [97, 98, 99])
          (recorded pairPickle DataHistory.plainBackends {} "j1" none [] 5 outcome).1
          (recorded pairPickle DataHistory.plainBackends {} "j1" none [] 5 outcome).2 := by
  have hpickle : pairPickle.Faithful (.bytes [97, 98, 99]) := ⟨rfl, rfl⟩
  refine ⟨hpickle, ?_⟩
  rintro ⟨outcome, hdelivered, hback⟩
  obtain rfl : .ok (.bytes [97, 98, 99]) = outcome := Option.some.inj hdelivered
  have hloads := (readBack_process_iff {} "j1" none [] 5 (by decide) hpickle).1 hback _ rfl
  cases hloads

end Axo
