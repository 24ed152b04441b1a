import Axo.Consensus.KeyText
import Axo.Service.JobSubmit

/-!
# Results of jobs

The `FunctionResult` of `core/results/envelope.py` as the completion recorder of `job_submit.py`
builds it, and the JSON document in which it travels.

* `StorageKey.toStr` and `StorageKey.fromStr` are the text form of a key;
* `JobResult` is the record, `Completion.result` the part of `on_complete` that builds it;
* `JobResult.encode` and `JobResult.decode` are `encode_function_result` and
  `decode_function_result`; `decode_encode` is their round trip.

A job id is a `Uuid`, the hexadecimal digits that `uuid.uuid4().hex` gives.
-/

namespace Axo

/-! ### Keys as texts -/

namespace StorageKey

/-- `to_str`. -/
def toStr (key : StorageKey) : String :=
  match key.version, key.keyAlias with
  | some version, some keyAlias => key.id ++ ":" ++ version.repr ++ ":" ++ keyAlias
  | some version, none => key.id ++ ":" ++ version.repr
  | none, some keyAlias => key.id ++ ":" ++ keyAlias
  | none, none => key.id

/-- `from_str`; `none` is a `ValueError`. -/
def fromStr (text : String) : Option StorageKey :=
  match (text.toList.splitOn ':').map String.ofList with
  | [id] => some { id := id }
  | [id, tail] =>
    match intOfStr tail.toList with
    | some version => some { id := id, version := some version }
    | none => some { id := id, keyAlias := some tail }
  | [id, middle, keyAlias] => (intOfStr middle.toList).map fun version =>
      { id := id, version := some version, keyAlias := some keyAlias }
  | _ => none

/-- A key with a version is read back from its text. -/
theorem fromStr_toStr {id : String} {keyAlias : Option String} (version : ℤ)
    (hid : ':' ∉ id.toList) (halias : ∀ a, keyAlias = some a → ':' ∉ a.toList) :
    fromStr (toStr ⟨id, some version, keyAlias⟩) = some ⟨id, some version, keyAlias⟩ := by
  have hversion := colon_notMem_repr version
  cases keyAlias with
  | none =>
    have htext : (toStr ⟨id, some version, none⟩).toList =
        [':'].intercalate [id.toList, version.repr.toList] := by
      simp [toStr, List.intercalate]
    have hsplit := @List.splitOn_intercalate _ [id.toList, version.repr.toList] _ _ ':'
      (by simpa using ⟨hid, hversion⟩) (by simp)
    rw [fromStr, htext, hsplit]
    simp [intOfStr_repr]
  | some a =>
    have htext : (toStr ⟨id, some version, some a⟩).toList =
        [':'].intercalate [id.toList, version.repr.toList, a.toList] := by
      simp [toStr, List.intercalate]
    have hsplit := @List.splitOn_intercalate _ [id.toList, version.repr.toList, a.toList] _ _ ':'
      (by simpa using ⟨hid, hversion, halias a rfl⟩) (by simp)
    rw [fromStr, htext, hsplit]
    simp [intOfStr_repr]

end StorageKey

/-! ### Results -/

/-- A job id, as `uuid.uuid4().hex` makes it. -/
structure Uuid where
  hex : String
  isHex : ∀ c ∈ hex.toList, c ∈ "0123456789abcdef".toList

/-- The `output` of a result; a JSON value is kept by its text. -/
inductive JobOutput
  /-- `{}` -/
  | empty
  | json (value : String)
  | bytes
  deriving DecidableEq

/-- A `FunctionResult` with all of its fields. -/
structure JobResult extends FunctionResult where
  output : JobOutput := .empty
  refs : List (String × StorageKey) := []
  durationMs : Option ℚ := none
  warnings : List String := []
  deriving DecidableEq

/-- The result written when a job is recorded. -/
def pendingResult (jobId : String) : JobResult :=
  { jobId := jobId, ok := false, error := "PENDING" }

/-- The result written when the runtime does not take the job. -/
def failedResult (jobId error : String) : JobResult :=
  { jobId := jobId, ok := false, error := error }

/-- `result.error == PENDING`, as `JobResultHandler` tells a job that still runs. -/
def JobResult.isPending (result : JobResult) : Bool := result.error = "PENDING"

/-- What a function returned. -/
inductive RawValue
  /-- `is_json_safe_value` -/
  | json (value : String)
  /-- anything else, and whether `register_and_store` took its bytes -/
  | blob (stored : Bool)
  deriving DecidableEq

/-- The arguments of a call of `on_complete`, after the job. -/
structure Completion where
  outcome : Except String RawValue
  durationMs : Option ℚ := none
  warnings : List String := []

/-- The result that `on_complete` saves. -/
def Completion.result (jobId : String) (completion : Completion) : JobResult :=
  match completion.outcome with
  | .ok (.json value) =>
    { jobId := jobId
      ok := true
      error := ""
      output := .json value
      durationMs := completion.durationMs
      warnings := completion.warnings }
  | .ok (.blob stored) =>
    { jobId := jobId
      ok := true
      error := ""
      output := .bytes
      refs := if stored = true then [("value", ⟨"job-result-" ++ jobId, some 1, none⟩)] else []
      durationMs := completion.durationMs
      warnings := completion.warnings }
  | .error error =>
    { jobId := jobId
      ok := false
      error := error
      durationMs := completion.durationMs
      warnings := completion.warnings }

/-- `on_complete` with an error of the placement. -/
def Completion.unplaced (error : String) : Completion :=
  { outcome := .error error }

@[simp] theorem Completion.result_unplaced (jobId error : String) :
    (Completion.unplaced error).result jobId = failedResult jobId error := rfl

/-! ### The JSON document -/

/-- The document of a result, its references as texts. -/
structure ResultDoc where
  jobId : String
  ok : Bool
  output : JobOutput
  refs : List (String × String)
  error : String
  durationMs : Option ℚ
  warnings : List String
  deriving DecidableEq

namespace JobResult

/-- `encode_function_result`. -/
def encode (result : JobResult) : ResultDoc where
  jobId := result.jobId
  ok := result.ok
  output := result.output
  refs := result.refs.map fun ref => (ref.1, ref.2.toStr)
  error := result.error
  durationMs := result.durationMs
  warnings := result.warnings

/-- `decode_function_result`; `none` is an exception of `from_str`. -/
def decode (doc : ResultDoc) : Option JobResult :=
  (doc.refs.mapM fun ref => (StorageKey.fromStr ref.2).map (ref.1, ·)).map fun refs =>
    { jobId := doc.jobId
      ok := doc.ok
      error := doc.error
      output := doc.output
      refs := refs
      durationMs := doc.durationMs
      warnings := doc.warnings }

/-- Every reference of the result is read back from its text. -/
def Travels (result : JobResult) : Prop :=
  ∀ ref ∈ result.refs, StorageKey.fromStr ref.2.toStr = some ref.2

/-- The round trip of a result. -/
theorem decode_encode {result : JobResult} (h : result.Travels) :
    decode result.encode = some result := by
  have hrefs : (result.refs.map fun ref => (ref.1, ref.2.toStr)).mapM
      (fun ref => (StorageKey.fromStr ref.2).map (ref.1, ·)) = some result.refs := by
    unfold Travels at h
    generalize result.refs = refs at h
    induction refs with
    | nil => rfl
    | cons ref refs ih =>
      have hhead := h ref List.mem_cons_self
      have htail := ih fun r hr => h r (List.mem_cons_of_mem _ hr)
      simp [hhead, htail]
  simp only [decode, encode, hrefs, Option.map_some]

theorem travels_failed (jobId error : String) : (failedResult jobId error).Travels := by
  intro ref href
  cases href

end JobResult

/-- What a completion saves under a minted job id survives the journey. -/
theorem Completion.travels_result (job : Uuid) (completion : Completion) :
    (completion.result job.hex).Travels := by
  intro ref href
  have hcolon : ':' ∉ ("job-result-" ++ job.hex).toList := by
    rw [String.toList_append, List.mem_append, not_or]
    exact ⟨by decide, fun h => absurd (job.isHex _ h) (by decide)⟩
  unfold Completion.result at href
  split at href
  · cases href
  · split_ifs at href
    · obtain rfl := List.mem_singleton.1 href
      exact StorageKey.fromStr_toStr 1 hcolon fun a ha => by cases ha
    · cases href
  · cases href

end Axo
