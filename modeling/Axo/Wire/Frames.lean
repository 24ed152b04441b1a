import Mathlib.Data.String.Basic
import Axo.Functions.ParamsValidation

/-!
# Frames

The wire format of `axo_shared/wire.py`, in which a `Command` and a `CommandResult` are four byte
frames each.

* `utf8Encode` and `utf8Decode` are `str.encode("utf-8")` and `bytes.decode("utf-8")`;
* `JsonLib` is the `json` module, and `JsonLib.Faithful` what is assumed of it for one value;
* `encodeCommand`, `decodeCommand`, `encodeCommandResult` and `decodeCommandResult`: a function that
  may raise returns in `Except PyException`, and inside of that its own `Result`;
* `decodeCommand_encode` and `decodeCommandResult_encode`: what is read back.
-/

namespace Axo

/-- The bytes of one frame. -/
abbrev Frame := List UInt8

/-- The exceptions that the code lets through or catches.  The last one is none of Python: a value
that is not of the declared type goes on, and what becomes of it is not modelled. -/
inductive PyException
  | unicodeDecodeError
  | keyError
  | typeError
  | attributeError
  | valueError
  | recursionError
  | overflowError
  | untyped
  deriving DecidableEq, Repr

/-! ### Texts -/

/-- `text.encode("utf-8")`. -/
def utf8Encode (text : String) : Frame := text.toUTF8.data.toList

/-- `frame.decode("utf-8")`; `none` is a `UnicodeDecodeError`. -/
def utf8Decode (frame : Frame) : Option String := String.fromUTF8? ⟨frame.toArray⟩

@[simp] theorem utf8Decode_encode (text : String) : utf8Decode (utf8Encode text) = some text := by
  unfold utf8Decode utf8Encode String.fromUTF8?
  rw [Array.toArray_toList]
  exact dif_pos text.isValidUTF8

/-! ### JSON -/

/-- What `json.loads` makes of a text. -/
inductive Parsed
  | value (v : Value)
  /-- a `JSONDecodeError`, with its text -/
  | malformed (text : String)
  /-- any other exception, as for a document that is nested too deeply -/
  | raised (e : PyException)

/-- The `json` module, with the texts of decoding errors. -/
structure JsonLib where
  dumps : Value → String
  loads : String → Parsed
  /-- `str(exc)` of the `UnicodeDecodeError` of a frame -/
  unicodeText : Frame → String

/-- A value is read back from its JSON text. -/
def JsonLib.Faithful (json : JsonLib) (v : Value) : Prop := json.loads (json.dumps v) = .value v

/-! ### Errors -/

/-- `MalformedFrameCountError`. -/
def malformedFrameCountError (frameCount : ℕ) : AxoError :=
  { code := 5001
    name := "MALFORMED_FRAME_COUNT"
    message := "expected 4 frames, got " ++ frameCount.repr
    context := [("frame_count", .int frameCount)] }

/-- `MalformedEnvelopeError`. -/
def malformedEnvelopeError (message : String) : AxoError :=
  { code := 5002, name := "MALFORMED_ENVELOPE", message := message }

/-- `MalformedMetadataError`. -/
def malformedMetadataError (message : String) : AxoError :=
  { code := 5003, name := "MALFORMED_METADATA", message := message }

/-! ### Commands -/

/-- A `Command`. -/
structure WireCommand where
  operation : String
  contentType : String
  envelope : Value
  payload : Frame := []
  deriving DecidableEq

/-- A `CommandResult`. -/
structure WireResult where
  ok : Bool
  payload : Frame := []
  error : String := ""
  errorCode : ℤ := 0
  errorName : String := ""
  metadata : Value := .dict []
  deriving DecidableEq

section

variable (json : JsonLib)

/-- The JSON document of a frame, or the error that `malformed` makes of the text of an exception.
-/
def loadFrame (malformed : String → AxoError) (frame : Frame) :
    Except PyException (Except AxoError Value) :=
  match utf8Decode frame with
  | none => .ok (.error (malformed (json.unicodeText frame)))
  | some text =>
    match json.loads text with
    | .value v => .ok (.ok v)
    | .malformed text => .ok (.error (malformed text))
    | .raised e => .error e

/-- `frame.decode("utf-8")` where no exception is caught. -/
def decodeText (frame : Frame) : Except PyException String :=
  match utf8Decode frame with
  | some text => .ok text
  | none => .error .unicodeDecodeError

/-- `encode_command`. -/
def encodeCommand (command : WireCommand) : List Frame :=
  [utf8Encode command.operation, utf8Encode command.contentType,
    utf8Encode (json.dumps command.envelope), command.payload]

/-- `decode_command`. -/
def decodeCommand (frames : List Frame) : Except PyException (Except AxoError WireCommand) :=
  match frames with
  | [operation, contentType, envelope, payload] => do
    match ← loadFrame json malformedEnvelopeError envelope with
    | .error err => return .error err
    | .ok envelope =>
      -- outside of the `try`
      let operation ← decodeText operation
      let contentType ← decodeText contentType
      return .ok { operation, contentType, envelope, payload }
  | _ => .ok (.error (malformedFrameCountError frames.length))

/-- `d[key] = value`, which keeps the place of a key that is there. -/
def setItem (fields : List (String × Value)) (key : String) (value : Value) :
    List (String × Value) :=
  if key ∈ fields.map Prod.fst then
    fields.map fun field => if field.1 = key then (key, value) else field
  else fields ++ [(key, value)]

/-- `meta` of `encode_command_result`: the metadata, with the code and the name of an error. -/
def resultMeta (result : WireResult) (metadata : List (String × Value)) : List (String × Value) :=
  if result.errorCode ≠ 0 then
    setItem (setItem metadata "error_code" (.int result.errorCode)) "error_name"
      (.str result.errorName)
  else metadata

/-- `encode_command_result`; `none` when the metadata is no dict, which it is in every handler. -/
def encodeCommandResult (result : WireResult) : Option (List Frame) :=
  match result.metadata with
  | .dict metadata =>
    some
      [utf8Encode (if result.ok then "1" else "0"), utf8Encode result.error,
        utf8Encode (json.dumps (.dict (resultMeta result metadata))), result.payload]
  | _ => none

/-- `decode_command_result`. -/
def decodeCommandResult (frames : List Frame) :
    Except PyException (Except AxoError WireResult) :=
  match frames with
  | [ok, error, metadata, payload] => do
    match ← loadFrame json malformedMetadataError metadata with
    | .error err => return .error err
    | .ok metadata =>
      let error ← decodeText error
      return .ok { ok := ok = utf8Encode "1", error, metadata, payload }
  | _ => .ok (.error (malformedFrameCountError frames.length))

end

/-! ### What is read back -/

variable {json : JsonLib}

@[simp] theorem decodeText_encode (text : String) : decodeText (utf8Encode text) = .ok text := by
  rw [decodeText, utf8Decode_encode]

theorem loadFrame_encode {v : Value} (h : json.Faithful v) (malformed : String → AxoError) :
    loadFrame json malformed (utf8Encode (json.dumps v)) = .ok (.ok v) := by
  have hloads : json.loads (json.dumps v) = .value v := h
  simp only [loadFrame, utf8Decode_encode, hloads]

theorem decodeCommand_encode {command : WireCommand} (h : json.Faithful command.envelope) :
    decodeCommand json (encodeCommand json command) = .ok (.ok command) := by
  unfold decodeCommand encodeCommand
  simp only [loadFrame_encode h, decodeText_encode]
  rfl

theorem utf8Encode_injective : Function.Injective utf8Encode := by
  intro s t h
  have hdecode := congrArg utf8Decode h
  rwa [utf8Decode_encode, utf8Decode_encode, Option.some.injEq] at hdecode

/-- The first frame tells an accepted request from a failed one. -/
theorem okFrame (ok : Bool) :
    decide (utf8Encode (if ok then "1" else "0") = utf8Encode "1") = ok := by
  cases ok with
  | false =>
    refine decide_eq_false fun h => ?_
    exact absurd (utf8Encode_injective h) (by decide)
  | true => exact decide_eq_true rfl

/-- What becomes of a result on the wire: the error is in the metadata only. -/
def WireResult.received (result : WireResult) (metadata : List (String × Value)) : WireResult :=
  { result with
    errorCode := 0
    errorName := ""
    metadata := .dict (resultMeta result metadata) }

/-- `encode_command_result` and then `decode_command_result`. -/
def relay (json : JsonLib) (result : WireResult) :
    Option (Except PyException (Except AxoError WireResult)) :=
  (encodeCommandResult json result).map (decodeCommandResult json)

theorem relay_eq {result : WireResult} {metadata : List (String × Value)}
    (hmetadata : result.metadata = .dict metadata)
    (h : json.Faithful (.dict (resultMeta result metadata))) :
    relay json result = some (.ok (.ok (result.received metadata))) := by
  unfold relay encodeCommandResult
  simp only [hmetadata, Option.map_some, decodeCommandResult, loadFrame_encode h,
    decodeText_encode, okFrame]
  rfl

end Axo
