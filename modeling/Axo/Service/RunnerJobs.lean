import Axo.Data.DataIo
import Axo.Lib.Interaction
import Axo.Service.ProcessRuntime
import Axo.Service.ReturnedValues

/-!
# Jobs over the socket of a runner

A pump thread of the container runtime (`_pump`, `_pump_one_job`, `_handle_crash` and `_handle_timeout`
of `container_runtime.py`) and the thread of the runner in its container (`_run_zmq` and `ZmqIOChannel`
of `runner/server.py`), with the frames between them.

* `FunctionScript` is the code of a function, as far as the runner sees it: what it asks over its
  channel, and how it ends;
* `conclude` is what the runner makes of the end, for its job store and for the endpoint;
* `JobSession` is the state of the two threads, of the two directions of the socket, of the job
  store and of the data at the endpoint; `JobSession.step` is one step of it.

The frames are those on the side of the pump thread: those that the runner receives have the
identity of the pump's socket before them.
-/

namespace Axo

open Interaction Transition

/-! ### A function and its end -/

/-- A call of `channel.request`. -/
structure IoCall where
  op : String
  ref : ChunkRef
  data : Option Frame

/-- What the endpoint makes of a request: the data, or the text of the error. -/
abbrev IoAnswer := Except String Frame

/-- How `channel.request` fails. -/
inductive ChannelError
  /-- a `DataIOTimeoutError` -/
  | timedOut (message : String)
  /-- a `DataIOError` -/
  | refused (message : String)
  deriving DecidableEq

/-- How the code of a function ends. -/
inductive FunctionOutcome (Ω : Type)
  | returned (value : PyValue Ω)
  | raised (text : String)
  /-- an exception whose text cannot be encoded: this is what a reader sees of it -/
  | unencodable (shown : String)
  /-- an exception that `str` takes no text of, or one that is no `Exception`, as `SystemExit` -/
  | textless

/-- The end of a function, with the warnings that it has recorded. -/
structure FunctionEnd (Ω : Type) where
  outcome : FunctionOutcome Ω
  warnings : List (PyValue Ω) := []

/-- The code of a function, called for a job. -/
abbrev FunctionScript (Ω : Type) := Script IoCall (Except ChannelError Frame) (FunctionEnd Ω)

/-- A function that is hosted by a runner, with what it is called with: its parameters, the job and
its scratch directory. -/
abbrev HostedFunction (Ω : Type) := Value → String → String → FunctionScript Ω

/-- A job in the queue of a container. -/
structure RunnerJob where
  jobId : String
  scratchDir : String
  params : Value

/-- What the runner uses of Python. -/
structure RunnerLib (Ω : Type) where
  json : JsonLib
  floats : PyFloats
  pickle : PickleLib Ω
  /-- the text of the exception of `cloudpickle.dumps`, where there is one -/
  pickleError : PyValue Ω → Option String
  /-- the document that `json.dumps` writes of the warnings, or the text of its exception -/
  warningsDocument : List (PyValue Ω) → Except String Value
  /-- the text of an exception of `json.loads` -/
  exceptionText : PyException → String
  /-- `decode("utf-8", errors="replace")` of a frame that is no UTF-8 -/
  replaced : Frame → String
  /-- `repr` of a frame -/
  bytesRepr : Frame → String

/-! ### The job store of the runner -/

/-- The status of a `JobEntry`. -/
inductive EntryStatus
  | pending
  | completed
  | failed
  deriving DecidableEq

/-- The output of a `JobEntry`. -/
inductive EntryOutput (Ω : Type)
  | empty
  | json (value : PyValue Ω)
  | bytes

/-- `JobEntry`, without its id. -/
structure JobEntry (Ω : Type) where
  status : EntryStatus := .pending
  output : EntryOutput Ω := .empty
  warnings : List (PyValue Ω) := []
  error : String := ""

/-- What the runner sends in the end: the status, the payload and the warnings. -/
structure RunnerReply where
  ok : Bool
  payload : Frame
  warnings : Frame
  deriving DecidableEq

section Conclude

variable {Ω : Type} (lib : RunnerLib Ω)

/-- `output` of a value. -/
def outputOf (value : PyValue Ω) : EntryOutput Ω :=
  if value.document.isSome then .json value else .bytes

/-- `_encode_result`; an error is the text of an exception. -/
def encodeValue (value : PyValue Ω) : Except String Frame :=
  if value.document.isSome then .ok (encodeResult lib.json lib.pickle value)
  else
    match lib.pickleError value with
    | some text => .error text
    | none => .ok (encodeResult lib.json lib.pickle value)

/-- The `except` branch of `_run_zmq`: the entry is made before the warnings are encoded, and
nothing is sent where these cannot be. -/
def concludeError (text : String) (warnings : List (PyValue Ω)) : JobEntry Ω × Option RunnerReply :=
  ({ status := .failed, warnings := warnings, error := text },
    match lib.warningsDocument warnings with
    | .error _ => none
    | .ok doc =>
      some { ok := false, payload := utf8Encode text, warnings := dumpBlob lib.json doc })

/-- What becomes of the end of a function: the entry of the job, if it is written again, and the
reply, if it is sent.  Where there is no reply, an exception leaves `_run_zmq`. -/
def conclude (e : FunctionEnd Ω) : Option (JobEntry Ω) × Option RunnerReply :=
  match e.outcome with
  | .textless => (none, none)
  | .unencodable shown =>
    (some { status := .failed, warnings := e.warnings, error := shown }, none)
  | .raised text => (concludeError lib text e.warnings).map some id
  | .returned value =>
    match encodeValue lib value with
    | .error text => (concludeError lib text e.warnings).map some id
    | .ok payload =>
      match lib.warningsDocument e.warnings with
      | .error text => (concludeError lib text e.warnings).map some id
      | .ok doc =>
        (some { status := .completed, output := outputOf value, warnings := e.warnings },
          some { ok := true, payload := payload, warnings := dumpBlob lib.json doc })

end Conclude

/-! ### Frames -/

/-- A message of several frames. -/
abbrev Message := List Frame

def dispatchTag : Frame := utf8Encode "dispatch"
def resultTag : Frame := utf8Encode "result"
def ioRequestTag : Frame := utf8Encode "io_request"
def ioReplyTag : Frame := utf8Encode "io_reply"
def okTag : Frame := utf8Encode "ok"
def errTag : Frame := utf8Encode "err"

/-- `IORef.to_dict`. -/
def ChunkRef.document (ref : ChunkRef) : Value :=
  .dict [("kind", .str ref.kind), ("location", .str ref.location), ("format", .str ref.format),
    ("chunk_index", match ref.chunkIndex with | some i => .int i | none => .none)]

/-- `IORef.from_dict`, of which the fields have their types. -/
def ChunkRef.ofDocument (d : Value) : Except PyException ChunkRef := do
  let kind ← (← d.item "kind").asText
  let location ← (← d.item "location").asText
  let format ← (← d.getItem "format" (.str "raw")).asText
  let chunkIndex ← match ← d.getItem "chunk_index" .none with
    | .none => .ok none
    | v => v.asInt.map some
  return { kind := kind, location := location, format := format, chunkIndex := chunkIndex }

/-- The operation that a text names. -/
def IoOp.ofText (op : String) : IoOp :=
  if op = "read" then .read
  else if op = "write" then .write
  else if op = "chunk_status" then .chunkStatus
  else if op = "read_chunk" then .readChunk
  else if op = "open_stream" then .openStream
  else if op = "append_chunk" then .appendChunk
  else if op = "finalize_stream" then .finalizeStream
  else .other op

section Frames

variable {Ω : Type} (lib : RunnerLib Ω)

/-- What `_pump_one_job` sends first. -/
def dispatchFrames (job : RunnerJob) : Message :=
  [dispatchTag, utf8Encode job.jobId, utf8Encode job.scratchDir, dumpBlob lib.json job.params]

/-- What `channel.request` sends. -/
def requestFrames (requestId : Frame) (call : IoCall) : Message :=
  [ioRequestTag, requestId, utf8Encode call.op, dumpBlob lib.json call.ref.document,
    call.data.getD []]

/-- The answer of `_pump_one_job` to a request. -/
def replyFrames (requestId : Frame) : IoAnswer → Message
  | .ok data => [ioReplyTag, requestId, okTag, data]
  | .error text => [ioReplyTag, requestId, errTag, utf8Encode text]

/-- What the runner sends in the end. -/
def resultFrames (jobId : Frame) (reply : RunnerReply) : Message :=
  [resultTag, jobId, if reply.ok then okTag else errTag, reply.payload, reply.warnings]

/-- `decode("utf-8", errors="replace")`. -/
def decodeReplacing (frame : Frame) : String := (utf8Decode frame).getD (lib.replaced frame)

/-- The error of a job. -/
inductive JobFault
  /-- a `FunctionRuntimeError` -/
  | failed (message : String)
  /-- a `ContainerCrashError` -/
  | crashed (message : String)
  /-- a `JobTimeoutError` -/
  | timedOut (message : String)
  deriving DecidableEq

/-- What `on_complete` is called with. -/
structure JobCompletion (Ω : Type) where
  result : Except JobFault (PyValue Ω)
  warnings : Value

/-- `json.loads(warnings_b.decode("utf-8"))`, or `[]`. -/
def readWarnings (warnings : Frame) : Value :=
  match loadBlob lib.json warnings with
  | .ok v => v
  | .error _ => .list []

/-- What `_pump_one_job` takes a result for. -/
def jobCompletion (ok : Bool) (payload warnings : Frame) : JobCompletion Ω where
  result :=
    if ok then .ok (payloadValue lib.json payload)
    else .error (.failed (decodeReplacing lib payload))
  warnings := readWarnings lib warnings

end Frames

/-! ### The two threads -/

/-- The thread of `_run_zmq`. -/
inductive RunnerThread (Ω : Type)
  | receiving
  /-- in `channel.request`, for a job -/
  | waiting (jobFrame : Frame) (jobId : String) (requestId : Frame)
      (next : Except ChannelError Frame → FunctionScript Ω)
  | crashed

/-- The pump thread. -/
inductive PumpThread
  | between
  | awaiting (job : RunnerJob)
  /-- in `_handle_crash`, for this reason -/
  | failing (job : RunnerJob) (reason : String)
  | left

/-- Why the pump thread gives up. -/
inductive PumpFailure
  | crashed (reason : String)
  | timedOut

/-- The pump thread gives up: `retried` are the jobs that `_retry_or_finalize` finds to have attempts
left, which go to `_perform_retry`. -/
structure PumpLoss where
  failure : PumpFailure
  retried : String → Bool

/-- The two threads and what is between them, with the calls of `on_complete` so far.  A job that
`cancel` takes from the queue is none of the session. -/
structure JobSession (Ω : Type) where
  queue : List RunnerJob
  pump : PumpThread := .between
  runner : RunnerThread Ω := .receiving
  entries : AList fun _ : String => JobEntry Ω := ∅
  down : List Message := []
  up : List Message := []
  requests : ℕ := 0
  store : FileStore
  now : ℚ
  reports : List (String × JobCompletion Ω) := []

/-- What the two threads run with: the function, the ids that `uuid4` makes, the time that
`channel.request` waits, the `max_duration_seconds` of the handle, and the backends of the endpoint. -/
structure RunnerSetup (Ω : Type) where
  lib : RunnerLib Ω
  fn : HostedFunction Ω
  ids : ℕ → Frame
  timeoutMs : ℕ
  maxDurationSeconds : ℤ := 0
  backends : DataBackends

namespace JobSession

variable {Ω : Type} (R : RunnerSetup Ω)

/-- The runner goes on with the code of the function, up to its next request. -/
def goOn (s : JobSession Ω) (jobFrame : Frame) (jobId : String) : FunctionScript Ω → JobSession Ω
  | .done e =>
    { s with
      entries :=
        match (conclude R.lib e).1 with
        | some entry => s.entries.insert jobId entry
        | none => s.entries
      runner := if (conclude R.lib e).2.isSome then .receiving else .crashed
      up := s.up ++ (conclude R.lib e).2.toList.map (resultFrames jobFrame) }
  | .ask call next =>
    { s with
      runner := .waiting jobFrame jobId (R.ids s.requests) next
      up := s.up ++ [requestFrames R.lib (R.ids s.requests) call]
      requests := s.requests + 1 }

/-- The code of the function, once the parameters are read. -/
def scriptOf (jobId scratchDir : String) (paramsFrame : Frame) : FunctionScript Ω :=
  match utf8Decode paramsFrame with
  | none => .done { outcome := .raised (R.lib.json.unicodeText paramsFrame) }
  | some text =>
    match R.lib.json.loads text with
    | .value params => R.fn params jobId scratchDir
    | .malformed text => .done { outcome := .raised text }
    | .raised e => .done { outcome := .raised (R.lib.exceptionText e) }

/-- The loop of `_run_zmq`, with a message. -/
def runnerTakes (s : JobSession Ω) (frames : Message) : JobSession Ω :=
  match frames with
  | tag :: jobFrame :: scratchFrame :: paramsFrame :: _ =>
    if tag = dispatchTag then
      match utf8Decode jobFrame, utf8Decode scratchFrame with
      | some jobId, some scratchDir =>
        goOn R { s with entries := s.entries.insert jobId {} } jobFrame jobId
          (scriptOf R jobId scratchDir paramsFrame)
      | _, _ => { s with runner := .crashed }
    else s
  | _ => s

/-- The loop of `channel.request`, with a message. -/
def channelTakes (s : JobSession Ω) (frames : Message) (jobFrame : Frame) (jobId : String)
    (requestId : Frame) (next : Except ChannelError Frame → FunctionScript Ω) : JobSession Ω :=
  match frames with
  | [tag, replyId, status, payload] =>
    if tag = ioReplyTag ∧ replyId = requestId then
      goOn R s jobFrame jobId (next
        (if status ≠ okTag then .error (.refused (decodeReplacing R.lib payload))
        else .ok payload))
    else s
  | _ => s

/-- The text of the `DataIOTimeoutError`. -/
def timeoutText : String := "no io reply within " ++ R.timeoutMs.repr ++ "ms"

/-- `resolve_io_request`, with the text of its error; `none` is an exception. -/
def answer (s : FileStore × ℚ) (call : IoCall) : Option ((FileStore × ℚ) × IoAnswer) :=
  let handled := answerIoRequest R.lib.json R.lib.floats R.backends s.1 (.ofText call.op) call.ref
    call.data s.2
  handled.result.map fun r => ((handled.store, s.2), r.mapError AxoError.message)

/-- The request in these frames. -/
def readCall (op ref data : Frame) : Except PyException IoCall := do
  let op ← decodeText op
  let ref ← ChunkRef.ofDocument (← loadBlob R.lib.json ref)
  return { op := op, ref := ref, data := if data = [] then none else some data }

/-- `_pump_one_job` with a message; an exception ends the thread. -/
def pumpTakes (s : JobSession Ω) (job : RunnerJob) : Message → JobSession Ω
  | [] => { s with pump := .failing job "empty frame from container" }
  | tag :: frames =>
    if tag = resultTag then
      match frames with
      | [_, statusFrame, payload, warnings] =>
        match utf8Decode statusFrame with
        | none => { s with pump := .left }
        | some status =>
          { s with
            pump := .between
            reports := s.reports ++
              [(job.jobId, jobCompletion R.lib (status = "ok") payload warnings)] }
      | _ => { s with pump := .failing job "unexpected frame count for result" }
    else if tag = ioRequestTag then
      match frames with
      | [requestId, op, ref, data] =>
        match readCall R op ref data with
        | .error _ => { s with pump := .left }
        | .ok call =>
          match answer R (s.store, s.now) call with
          | none => { s with pump := .left }
          | some ((store, _), reply) =>
            { s with store := store, down := s.down ++ [replyFrames requestId reply] }
      | _ => { s with pump := .failing job "unexpected frame count for io_request" }
    else
      { s with
        pump := .failing job ("unexpected tag " ++ R.lib.bytesRepr tag ++ " from container") }

/-- The error of a job that is given up: of the one in flight, or of one behind it. -/
def lossFault (failure : PumpFailure) (inFlight : Bool) : JobFault :=
  match failure with
  | .crashed reason => .crashed reason
  | .timedOut =>
    if inFlight then
      .timedOut ("job exceeded max_duration_seconds=" ++ toString R.maxDurationSeconds)
    else .crashed "container recycled after a sibling job's timeout"

/-- `_retry_or_finalize`: the error, where the job has no attempts left. -/
def retryOrFinalize (loss : PumpLoss) (inFlight : Bool) (job : RunnerJob) : Option JobFault :=
  if loss.retried job.jobId then none else some (lossFault R loss.failure inFlight)

/-- The calls of `on_complete` of `_handle_crash` and `_handle_timeout`: for the job in flight, then
for those that `_drain_job_queue` takes from the queue. -/
def lossReports (loss : PumpLoss) (job : RunnerJob) (queue : List RunnerJob) :
    List (String × JobCompletion Ω) :=
  let report (inFlight : Bool) (job : RunnerJob) : Option (String × JobCompletion Ω) :=
    (retryOrFinalize R loss inFlight job).map fun fault =>
      (job.jobId, { result := .error fault, warnings := .list [] })
  (report true job).toList ++ queue.filterMap (report false)

/-- The pump thread gives up. -/
def giveUp (s : JobSession Ω) (loss : PumpLoss) (job : RunnerJob) (queue : List RunnerJob) :
    JobSession Ω :=
  { s with
    pump := .left
    queue := []
    reports := s.reports ++ lossReports R loss job queue }

/-- One step of the session.  Others may change the data and the clock.  The pump thread leaves without
a word when the handle is dismissed meanwhile, or an exception ends it; it gives up when a frame cannot
be sent or received, the container is disconnected, or the deadline of the job is over. -/
def step (s : JobSession Ω) : Act (FileStore × ℚ) PumpLoss → Option (JobSession Ω)
  | .dispatch =>
    match s.pump, s.queue with
    | .between, job :: rest =>
      some { s with
        pump := .awaiting job
        queue := rest
        down := s.down ++ [dispatchFrames R.lib job] }
    | _, _ => none
  | .receive =>
    match s.runner, s.down with
    | .receiving, frames :: rest => some (runnerTakes R { s with down := rest } frames)
    | .waiting jobFrame jobId requestId next, frames :: rest =>
      some (channelTakes R { s with down := rest } frames jobFrame jobId requestId next)
    | _, _ => none
  | .timeOut =>
    match s.runner with
    | .waiting jobFrame jobId _ next =>
      some (goOn R s jobFrame jobId (next (.error (.timedOut (timeoutText R)))))
    | _ => none
  | .serve =>
    match s.pump, s.up with
    | .awaiting job, frames :: rest => some (pumpTakes R { s with up := rest } job frames)
    | _, _ => none
  | .leave => some { s with pump := .left }
  | .giveUp loss =>
    match s.pump, s.queue, loss.failure with
    | .between, job :: rest, .crashed _ => some (giveUp R s loss job rest)
    | .awaiting job, queue, .crashed _ => some (giveUp R s loss job queue)
    | .awaiting job, queue, .timedOut =>
      if 0 < R.maxDurationSeconds then some (giveUp R s loss job queue) else none
    | .failing job reason, queue, .crashed reason' =>
      if reason' = reason then some (giveUp R s loss job queue) else none
    | _, _, _ => none
  | .others (store, now) => some { s with store := store, now := now }

/-- A container that has just been started, with jobs in its queue. -/
def start (queue : List RunnerJob) (store : FileStore) (now : ℚ) : JobSession Ω :=
  { queue := queue, store := store, now := now }

end JobSession

end Axo
