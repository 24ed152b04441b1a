import Axo.Data.DataHandlers
import Axo.Service.ActiveJobs

/-!
# The router server

`RouterServer` of `router_server.py`, over the endpoint whose handlers it calls.

* the receive loop takes one request at a time: it runs the handler, notes in `_job_identities`
  whose job was submitted or fetched, and then sends the reply;
* the threads that report jobs save a result, emit its event, at which `_on_job_event` takes the
  identity of the job out, and push the result to it;
* `RouterServer.sent` is what the socket sends, in the order of `_send_lock`.

The loop and the threads go on in any order, one step at a time.
-/

namespace Axo

open Transition

/-- The identity frame that stands before the frames of a client. -/
abbrev Identity := List UInt8

/-- A `Command`, with the fields of its envelope that the handlers of jobs and of datasets read. -/
structure Command where
  operation : String
  job : JobEnvelope := {}
  data : DataEnvelope := {}
  payload : List UInt8 := []

/-- A command on its way to the server: whose it is, and which of theirs. -/
structure ClientRequest where
  identity : Identity
  serial : ℕ
  command : Command

/-- What the server sends: the reply to a request, or the result of a job. -/
inductive Outgoing
  | reply (request : ClientRequest) (result : CommandResult)
  | push (identity : Identity) (jobId : String) (result : CommandResult)

/-- Whom it is sent to. -/
def Outgoing.identity : Outgoing → Identity
  | .reply request _ => request.identity
  | .push identity _ _ => identity

def Outgoing.result : Outgoing → CommandResult
  | .reply _ result | .push _ _ result => result

/-! ### Results of jobs in replies -/

/-- `JobNotFoundError`. -/
def jobNotFoundError (jobId : String) : AxoError :=
  { code := 2002
    name := "JOB_NOT_FOUND"
    message := "job not found"
    context := [("job_id", .str jobId)] }

namespace JobResult

variable (floatText : ℚ → String) (result : JobResult)

/-- The status of a job that has ended. -/
def status : String := if result.ok then "COMPLETED" else "FAILED"

/-- The `output` of a result; the JSON value is kept by its text. -/
def outputValue : Value :=
  match result.output with
  | .empty => .dict []
  | .json value => .dict [("value", .str value), ("type", .str "json")]
  | .bytes => .dict [("type", .str "bytes")]

def refsValue : Value := .dict (result.refs.map fun ref => (ref.1, .str ref.2.toStr))

def durationValue : Value :=
  match result.durationMs with
  | some duration => .float (floatText duration)
  | none => .none

def warningsValue : Value := .list (result.warnings.map Value.str)

/-- The reply of `JobResultHandler` about a job that has ended. -/
def endedReply (jobId : String) : CommandResult :=
  { ok := true
    metadata := [("job_id", .str jobId), ("status", .str result.status),
      ("result_ok", .bool result.ok), ("output", result.outputValue), ("refs", result.refsValue),
      ("error", .str result.error), ("duration_ms", result.durationValue floatText),
      ("warnings", result.warningsValue)] }

/-- What `_on_job_event` sends. -/
def pushed (jobId : String) : CommandResult :=
  { ok := result.ok
    error := result.error
    metadata := [("job_id", .str jobId), ("status", .str result.status),
      ("output", result.outputValue), ("refs", result.refsValue),
      ("duration_ms", result.durationValue floatText), ("warnings", result.warningsValue),
      ("pushed", .bool true)] }

end JobResult

/-- `JobResultHandler.handle`. -/
def jobResult (floatText : ℚ → String) (results : Dict String JobResult)
    (envelope : JobEnvelope) : CommandResult :=
  match envelope.jobId.filter (· ≠ "") with
  | none => fieldsMissing "job_id is required" ["job_id"]
  | some jobId =>
    match results.lookup jobId with
    | none => .fromError (jobNotFoundError jobId) [("job_id", .str jobId)]
    | some result =>
      if result.isPending then
        { ok := true, metadata := [("job_id", .str jobId), ("status", .str "PENDING")] }
      else result.endedReply floatText jobId

/-! ### Identities of jobs -/

/-- The job that a `JOB_SUBMIT` is accepted under. -/
def submittedJob (command : Command) (result : CommandResult) : Option String :=
  if command.operation = "JOB_SUBMIT" ∧ result.ok = true then
    match result.metadata.lookup "job_id" with
    | some (.str jobId) => some jobId
    | _ => none
  else none

/-- The job whose ended result a `JOB_RESULT` fetches. -/
def fetchedJob (command : Command) (result : CommandResult) : Option String :=
  if command.operation = "JOB_RESULT" ∧ result.ok = true ∧
      (result.metadata.lookup "status" = some (.str "COMPLETED") ∨
        result.metadata.lookup "status" = some (.str "FAILED")) then
    command.job.jobId.filter (· ≠ "")
  else none

/-- `_job_identities` after a request is handled. -/
def identitiesAfter (jobIdentities : Dict String Identity) (request : ClientRequest)
    (result : CommandResult) : Dict String Identity :=
  let noted :=
    match submittedJob request.command result with
    | some jobId => jobIdentities.insert jobId request.identity
    | none => jobIdentities
  match fetchedJob request.command result with
  | some jobId => noted.erase jobId
  | none => noted

/-! ### The server -/

/-- Where the receive loop is. -/
inductive RouterThread
  | idle
  /-- the handler is running, and will return the result -/
  | handling (request : ClientRequest) (result : CommandResult)
  /-- the identities are noted, and the reply is to be sent -/
  | replying (request : ClientRequest) (result : CommandResult)

/-- The request that the receive loop has in hand. -/
def RouterThread.request : RouterThread → Option ClientRequest
  | .idle => none
  | .handling request _ | .replying request _ => some request

/-- The router server of an endpoint. -/
structure RouterServer where
  endpoint : JobEndpoint
  jobIdentities : Dict String Identity
  thread : RouterThread
  /-- the jobs whose event has come and whose result is to be pushed -/
  pushing : List (String × Identity)
  sent : List Outgoing
  /-- the jobs that `on_complete` has been called for -/
  completed : Finset String

/-- How a request is handled. -/
inductive Handling
  /-- `JobSubmitHandler.handle`, with the id it mints -/
  | jobSubmit (registry : StorageKey → Option FunctionRecord) (jobId : String)
      (answer : RuntimeAnswer)
  /-- `JobResultHandler.handle` -/
  | jobResult
  /-- any other handler, what it does to the jobs, and what it returns; also the dispatcher that
  does not take a command -/
  | other (act : Option JobEndpointAction) (result : CommandResult)

/-- The steps of the server. -/
inductive RouterServerAction
  | take (request : ClientRequest) (handling : Handling)
  /-- the handler of a submission goes on -/
  | goOn
  /-- the handler has returned -/
  | note
  | reply
  /-- `on_complete` saves a result -/
  | complete (jobId : String) (completion : Completion)
  /-- `on_complete` emits the event -/
  | emit (jobId : String)
  /-- `_on_job_event` sends the result -/
  | push (jobId : String) (identity : Identity)

/-- Whose request the server takes. -/
def RouterServerAction.takesFrom : RouterServerAction → Option Identity
  | .take request _ => some request.identity
  | .goOn | .note | .reply | .complete _ _ | .emit _ | .push _ _ => none

/-- The step belongs to a command other than a submission that a handler runs. -/
def JobEndpointAction.isCommand : JobEndpointAction → Bool
  | .forward _ _ _ | .receive _ _ _ | .assign _ => true
  | .submit _ _ _ _ | .next | .complete _ _ | .finish _ => false

namespace RouterServer

variable (floatText : ℚ → String)

/-- A server that has just started. -/
def init (virtualEnvironmentId : Option String) : RouterServer where
  endpoint := .init virtualEnvironmentId
  jobIdentities := ∅
  thread := .idle
  pushing := []
  sent := []
  completed := ∅

/-- The receive loop hands a request to its handler. -/
def handle (s : RouterServer) (request : ClientRequest) : Handling → Option RouterServer
  | .jobSubmit registry jobId answer =>
    if request.command.operation = "JOB_SUBMIT" then
      (s.endpoint.step (.submit registry request.command.job jobId answer)).map fun endpoint =>
        { s with
          endpoint := endpoint
          thread := .handling request
            (submitJob registry (fun _ _ _ => answer.toExcept) request.command.job jobId).1 }
    else none
  | .jobResult =>
    if request.command.operation = "JOB_RESULT" then
      some { s with
        thread := .handling request (jobResult floatText s.endpoint.results request.command.job) }
    else none
  | .other act result =>
    if (request.command.operation = "JOB_SUBMIT" ∨ request.command.operation = "JOB_RESULT") ∧
        result.ok = true then none
    else
      match act with
      | none => some { s with thread := .handling request result }
      | some act =>
        if act.isCommand = true then
          (s.endpoint.step act).map fun endpoint =>
            { s with endpoint := endpoint, thread := .handling request result }
        else none

/-- One step. -/
def step (s : RouterServer) : RouterServerAction → Option RouterServer
  | .take request handling =>
    match s.thread with
    | .idle => s.handle floatText request handling
    | .handling _ _ | .replying _ _ => none
  | .goOn => (s.endpoint.step .next).map fun endpoint => { s with endpoint := endpoint }
  | .note =>
    match s.thread with
    | .handling request result =>
      if s.endpoint.remaining.isEmpty = true then
        some { s with
          jobIdentities := identitiesAfter s.jobIdentities request result
          thread := .replying request result }
      else none
    | .idle | .replying _ _ => none
  | .reply =>
    match s.thread with
    | .replying request result =>
      some { s with thread := .idle, sent := s.sent ++ [.reply request result] }
    | .idle | .handling _ _ => none
  | .complete jobId completion =>
    (s.endpoint.step (.complete jobId completion)).map fun endpoint =>
      { s with endpoint := endpoint, completed := insert jobId s.completed }
  | .emit jobId =>
    (s.endpoint.step (.finish jobId)).map fun endpoint =>
      { s with
        endpoint := endpoint
        jobIdentities := s.jobIdentities.erase jobId
        pushing :=
          match s.jobIdentities.lookup jobId with
          | some identity => (jobId, identity) :: s.pushing
          -- `PUSH_SKIPPED`
          | none => s.pushing }
  | .push jobId identity =>
    if (jobId, identity) ∈ s.pushing then
      some { s with
        pushing := s.pushing.erase (jobId, identity)
        sent :=
          match s.endpoint.results.lookup jobId with
          | some result => s.sent ++ [.push identity jobId (result.pushed floatText jobId)]
          | none => s.sent }
    else none

/-! ### What a step sends -/

variable {floatText} {s t : RouterServer}

/-- A request that is handled is in hand, and nothing is sent yet. -/
theorem handle_frame {request : ClientRequest} {handling : Handling}
    (h : s.handle floatText request handling = some t) :
    t.thread.request = some request ∧ t.sent = s.sent := by
  cases handling with
  | jobSubmit registry jobId answer =>
    simp only [handle] at h
    split_ifs at h
    obtain ⟨endpoint, -, rfl⟩ := Option.map_eq_some_iff.1 h
    exact ⟨rfl, rfl⟩
  | jobResult =>
    simp only [handle] at h
    split_ifs at h
    cases h
    exact ⟨rfl, rfl⟩
  | other act result =>
    simp only [handle] at h
    split_ifs at h
    split at h
    · cases h
      exact ⟨rfl, rfl⟩
    · split_ifs at h
      obtain ⟨endpoint, -, rfl⟩ := Option.map_eq_some_iff.1 h
      exact ⟨rfl, rfl⟩

/-- What a step does to the request in hand and to the messages: it takes a request, replies to the
one in hand, pushes a result, or does none of these. -/
inductive Sends (s t : RouterServer) : RouterServerAction → Prop
  | take {request : ClientRequest} {handling : Handling} (hidle : s.thread.request = none)
      (hrequest : t.thread.request = some request) (hsent : t.sent = s.sent) :
      Sends s t (.take request handling)
  | reply {request : ClientRequest} {result : CommandResult}
      (hrequest : s.thread.request = some request) (hidle : t.thread.request = none)
      (hsent : t.sent = s.sent ++ [.reply request result]) : Sends s t .reply
  | push {jobId : String} {identity : Identity} {result : CommandResult}
      (hrequest : t.thread.request = s.thread.request)
      (hsent : t.sent = s.sent ++ [.push identity jobId result]) : Sends s t (.push jobId identity)
  | quiet {a : RouterServerAction} (htakes : a.takesFrom = none)
      (hrequest : t.thread.request = s.thread.request) (hsent : t.sent = s.sent) : Sends s t a

theorem step_sends {a : RouterServerAction} (h : s.step floatText a = some t) : Sends s t a := by
  cases a with
  | take request handling =>
    simp only [step] at h
    split at h
    · rename_i hidle
      obtain ⟨hrequest, hsent⟩ := handle_frame h
      refine .take ?_ hrequest hsent
      rw [hidle]
      rfl
    · cases h
    · cases h
  | goOn =>
    obtain ⟨endpoint, -, rfl⟩ := Option.map_eq_some_iff.1 h
    exact .quiet rfl rfl rfl
  | note =>
    simp only [step] at h
    split at h
    · rename_i request result hthread
      split_ifs at h
      cases h
      refine .quiet rfl ?_ rfl
      rw [hthread]
      rfl
    · cases h
    · cases h
  | reply =>
    simp only [step] at h
    split at h
    · rename_i request result hthread
      cases h
      refine .reply ?_ rfl rfl
      rw [hthread]
      rfl
    · cases h
    · cases h
  | complete jobId completion =>
    obtain ⟨endpoint, -, rfl⟩ := Option.map_eq_some_iff.1 h
    exact .quiet rfl rfl rfl
  | emit jobId =>
    obtain ⟨endpoint, -, rfl⟩ := Option.map_eq_some_iff.1 h
    exact .quiet rfl rfl rfl
  | push jobId identity =>
    simp only [step] at h
    split_ifs at h
    cases h
    rcases s.endpoint.results.lookup jobId with _ | result
    · exact .quiet rfl rfl rfl
    · exact .push rfl rfl

end RouterServer

end Axo
