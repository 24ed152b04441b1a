import Axo.Wire.PyValues

/-!
# The ingestion of events

`IngestionRouterServer._handle_frames` of `axo_vem`, with `decode_event` of
`axo_shared/events/envelope.py`, `stream_name_for` of `domain/events/stream_naming.py` and
`retry_with_backoff`.

* `decodeEvent` and `streamNameFor` take any value for the parts of an event;
* `retryWithBackoff` is the retry loop, over an appender that succeeds at some attempts and fails, with
  whatever exception, at the others; the delays are left out;
* `handleFrames` is what becomes of one message: `none` when it is dropped before anything is
  appended.
-/

namespace Axo

/-! ### Events -/

/-- `MalformedEventEnvelopeError`. -/
def malformedEventEnvelopeError (missing : List String) : AxoError :=
  { code := 5004
    name := "MALFORMED_EVENT_ENVELOPE"
    message := "event envelope missing required keys: " ++ reprNames missing
    context := [("missing_keys", .list (missing.map .str))] }

/-- The keys of an event envelope. -/
def eventKeys : List String := ["event_type", "endpoint_id", "data"]

/-- `[k for k in (…) if k not in envelope]`. -/
def missingKeys (envelope : Value) : Except PyException (List String) :=
  eventKeys.foldlM
    (fun missing key => return if ← envelope.contains key then missing else missing ++ [key]) []

/-- An event as it is unwrapped. -/
structure DecodedEvent where
  eventType : Value
  endpointId : Value
  data : Value
  deriving DecidableEq

/-- `decode_event`. -/
def decodeEvent (envelope : Value) : Except PyException (Except AxoError DecodedEvent) := do
  let missing ← missingKeys envelope
  if missing ≠ [] then return .error (malformedEventEnvelopeError missing)
  let eventType ← envelope.item "event_type"
  let endpointId ← envelope.item "endpoint_id"
  let data ← envelope.item "data"
  return .ok { eventType, endpointId, data }

/-! ### Streams -/

/-- `event_type in (…)`. -/
def Value.isOneOf (eventType : Value) (texts : List String) : Bool :=
  match eventType with
  | .str text => text ∈ texts
  | _ => false

def endpointEvents : List String :=
  ["EndpointStarted", "EndpointMetricsReported", "EndpointStopped", "EndpointUnreachable",
    "EndpointRecovered", "EndpointVirtualEnvironmentAssigned",
    "EndpointVirtualEnvironmentDetached"]

def functionEvents : List String :=
  ["FunctionRegistered", "FunctionRegisterFailed", "FunctionDeployed", "FunctionDeployFailed",
    "FunctionActivated", "FunctionDeactivated", "FunctionUpdated", "FunctionStopped",
    "FunctionCrashed", "FunctionDeleted", "FunctionDeleteFailed", "FunctionEndpointDetached"]

def buildEvents : List String :=
  ["FunctionBuildStarted", "FunctionBuildCompleted", "FunctionBuildFailed"]

def consensusEvents : List String :=
  ["LeaderElected", "ConsensusViewChanged", "ClusterQuorumLost", "ClusterQuorumRestored",
    "ClusterDegraded"]

def jobEvents : List String := ["JobQueued", "JobStarted", "JobCompleted", "JobFailed"]

def bucketEvents : List String := ["DataBucketCreated"]

def dataEvents : List String := ["DataRegistered", "DataUploadCompleted", "DataDeleted"]

/-- `data["name"].split("/", 1)[0] if "/" in data["name"] else data["name"]`. -/
def bucketOfName (name : Value) : Except PyException Value := do
  if ← name.contains "/" then
    match name with
    | .str text => return .str (String.ofList (text.toList.takeWhile (· ≠ '/')))
    | _ => .error .attributeError
  else return name

/-- `stream_name_for`. -/
def streamNameFor (eventType endpointId data : Value) : Except PyException String :=
  if eventType.isOneOf endpointEvents then .ok ("endpoints-" ++ endpointId.pyStr)
  else if eventType.isOneOf functionEvents then do
    let functionId ← data.item "function_id"
    let version ← data.item "version"
    return "functions-" ++ functionId.pyStr ++ "-" ++ version.pyStr
  else if eventType.isOneOf buildEvents then do
    let functionId ← data.getItem "function_id" .none
    if functionId.truthy then return "functions-" ++ functionId.pyStr
    else
      let pythonVersion ← data.item "python_version"
      return "functions-base-image-py" ++ pythonVersion.pyStr
  else if eventType.isOneOf consensusEvents then .ok ("consensus-" ++ endpointId.pyStr)
  else if eventType.isOneOf jobEvents then do
    let functionId ← data.item "function_id"
    return "activity-" ++ functionId.pyStr
  else if eventType.isOneOf bucketEvents then do
    let name ← data.item "name"
    return "buckets-" ++ name.pyStr
  else if eventType.isOneOf dataEvents then do
    let bucket ← bucketOfName (← data.item "name")
    return "buckets-" ++ bucket.pyStr
  else .error .valueError

/-! ### Appending -/

/-- How an append ends: after how many attempts, and whether the last of them succeeded. -/
structure Appended where
  attempts : ℕ
  ok : Bool
  deriving DecidableEq, Repr

/-- `retry_with_backoff` after the given number of attempts; at the last of them the exception is
raised again, which `_append_with_retry` catches. -/
def retryWithBackoff (succeeds : ℕ → Bool) (maxAttempts attempts : ℕ) : Appended :=
  if succeeds (attempts + 1) then { attempts := attempts + 1, ok := true }
  else if maxAttempts ≤ attempts + 1 then { attempts := attempts + 1, ok := false }
  else retryWithBackoff succeeds maxAttempts (attempts + 1)
termination_by maxAttempts - attempts

/-- An event that was offered to the appender. -/
structure Ingested where
  stream : String
  event : DecodedEvent
  appended : Appended
  deriving DecidableEq

/-- `_handle_frames`; an event that was appended is also acknowledged. -/
def handleFrames (json : JsonLib) (maxAttempts : ℕ) (succeeds : ℕ → Bool) (frames : List Frame) :
    Except PyException (Option Ingested) :=
  match frames with
  | _ :: body :: rest => do
    match ← decodeCommand json (body :: rest) with
    | .error _ => return none
    | .ok command =>
      match ← decodeEvent command.envelope with
      | .error _ => return none
      | .ok event =>
        let stream ← streamNameFor event.eventType event.endpointId event.data
        return some
          { stream, event, appended := retryWithBackoff succeeds maxAttempts 0 }
  | _ => .ok none

/-- The receive loop over the messages that arrive: it ends with the first one that raises. -/
def ingest (json : JsonLib) (maxAttempts : ℕ) (succeeds : ℕ → ℕ → Bool) :
    ℕ → List (List Frame) → Except PyException (List (Option Ingested))
  | _, [] => .ok []
  | no, frames :: rest => do
    let first ← handleFrames json maxAttempts (succeeds no) frames
    let others ← ingest json maxAttempts succeeds (no + 1) rest
    return first :: others

end Axo
