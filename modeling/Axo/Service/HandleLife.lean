import Axo.Lib.Transition
import Axo.Service.ContainerRuntime

/-!
# The life of one container handle

Everything that touches a `ContainerHandle` in `service/runtime/container_runtime.py` and
`service/container/spawner.py`, one shared access at a time: the calls of `invoke` and their
`_dispatch_once_ready`, `_spawn_in_background` and `_poll_readiness`, the pump thread, every call of
`dismiss`, and every call of `cancel` that comes by.  `ContainerRuntime` has the same threads with
their jobs; here a check and the write that follows it are two steps, and the container itself may
run or not.

* `HandleFields` is what the threads share, with a record of what became of the jobs;
* `bootStep`, `jobStep`, `dismissStep`, `pumpStep` and `cancelStep` are the threads;
* `HandleLife` and `HandleLife.step` are the handle with all of them.

A job that is retried after a crash is a new one here.
-/

namespace Axo

/-- Where the thread of `_spawn_in_background` and `_poll_readiness` is. -/
inductive BootStage
  /-- in `_ensure_image` -/
  | building
  /-- in `spawn` -/
  | launching
  /-- the container runs, and its id is to be written down -/
  | launched
  /-- there is no container, and the status is to be set -/
  | unlaunched
  /-- at the head of the loop -/
  | polling
  /-- asks `/health` -/
  | asking
  /-- the container has answered, and the status is to be set -/
  | answered
  /-- the deadline has passed, and the status is to be set -/
  | overdue
  /-- `ready_event` is to be set -/
  | releasing
  | done
  deriving DecidableEq

/-- Where a call of `dismiss` is. -/
inductive DismissStage
  /-- the status is to be set -/
  | marking
  /-- stops the container -/
  | stopping
  /-- the handle is to be removed from the pool -/
  | removing
  deriving DecidableEq

/-- Where the pump thread is. -/
inductive PumpStage
  /-- looks for `_job_queue` -/
  | starting
  | creating
  /-- at the head of the loop -/
  | looping
  /-- in `get`, on one of the queues -/
  | getting (queue : ℕ)
  | taken (job : JobId)
  /-- sent to the container -/
  | inFlight (job : JobId)
  /-- a result has been received -/
  | completing (job : JobId)
  /-- the job is reported, and the status is to be set -/
  | finishing
  /-- `_handle_crash` or `_handle_timeout` has found the handle alive -/
  | crashing (job : JobId)
  /-- calls `dismiss` -/
  | dismissing (stage : DismissStage) (job : JobId)
  /-- the job in flight is to be retried or reported -/
  | settling (job : JobId)
  /-- `_drain_job_queue` is called -/
  | emptying
  | draining (queue : ℕ) (pending : List JobId)
  | reporting (pending : List JobId)
  /-- the loop is left, and the thread still lives -/
  | leaving
  /-- there is no thread -/
  | ended
  deriving DecidableEq

/-- What the threads of a handle share. -/
structure HandleFields where
  maxDurationSeconds : ℤ := 0
  status : ContainerStatus := .starting
  /-- `ready_event` is set -/
  isReady : Bool := false
  /-- `container_id` or `service_id` is known -/
  hasId : Bool := false
  /-- the container runs -/
  running : Bool := false
  /-- in the `_handles` of the summoner -/
  inPool : Bool := true
  /-- the queues that have been `_job_queue`, the last one in use -/
  jobQueues : List (List JobId) := []
  invocationCount : ℕ := 0
  currentJobId : Option JobId := none
  /-- the thread that starts the container has set the status since it was last set to `BUSY` for a
  job -/
  overwritten : Bool := false
  /-- the jobs for which `invoke` was given the handle -/
  assigned : List JobId := []
  /-- those of them for which it was given as available -/
  reused : List JobId := []
  /-- the jobs that were put into a queue -/
  enqueued : List JobId := []
  /-- the jobs that were sent to the container -/
  sent : List JobId := []
  /-- the jobs that are finished: reported, or on their way to a retry -/
  settled : List JobId := []
  deriving DecidableEq

/-- A call of `invoke` that was given the handle, or its `_dispatch_once_ready`. -/
structure JobThread where
  job : JobId
  /-- `invoke` has returned -/
  cold : Bool
  stage : DispatchStage
  deriving DecidableEq

/-- A call of `cancel` that comes by. -/
inductive CancelStage
  /-- `current_job_id` is looked at -/
  | checking (job : JobId)
  /-- the handle runs the job, and the status is to be set -/
  | found (job : JobId)
  /-- calls `dismiss` -/
  | dismissing (stage : DismissStage) (job : JobId)
  /-- the job in flight is to be reported -/
  | settling (job : JobId)
  /-- `_drain_job_queue` is called -/
  | emptying
  | draining (queue : ℕ) (pending : List JobId)
  | reporting (pending : List JobId)
  /-- the handle does not run the job, and `_job_queue` is looked for -/
  | looking (job : JobId)
  /-- the queue is drained -/
  | rebuilding (queue : ℕ) (job : JobId) (isFound : Bool) (remaining : List JobId)
  /-- what was drained is put back -/
  | restoring (queue : ℕ) (job : JobId) (isFound : Bool) (remaining : List JobId)
  deriving DecidableEq

namespace HandleFields

variable (f : HandleFields)

/-- `_job_queue`, by its number. -/
def jobQueue : ℕ := f.jobQueues.length - 1

/-- `get_nowait`, or a `get` that does not have to wait. -/
def pop (queue : ℕ) : Option (JobId × HandleFields) :=
  match f.jobQueues[queue]? with
  | some (job :: rest) => some (job, { f with jobQueues := f.jobQueues.set queue rest })
  | _ => none

/-- `put`. -/
def push (queue : ℕ) (job : JobId) : HandleFields :=
  { f with jobQueues := f.jobQueues.modify queue fun jobs => jobs ++ [job] }

/-- The assignment of a new queue to `_job_queue`. -/
def newQueue : HandleFields := { f with jobQueues := f.jobQueues ++ [[]] }

/-- `_on_complete`, or the retry. -/
def settle (job : JobId) : HandleFields := { f with settled := f.settled ++ [job] }

/-- What `find_idle` and the first branch of `summon` look for. -/
def available : Bool :=
  !f.status.dead && decide (f.status ≠ .busy) && decide (f.status ≠ .starting)

/-- What `pool_summary` counts. -/
def countsIdle : Bool := decide (f.status = .ready) || decide (f.status = .idle)

/-- What a sweep, the clean-up before a spawn or an operator looks for. -/
def dismissable (maxInvocations : ℕ) : DismissReason → Bool
  | .idleTtl => f.status = .idle && f.invocationCount ≠ 0
  | .maxInvocations => maxInvocations ≠ 0 && maxInvocations ≤ f.invocationCount
  | .crashed => f.status = .crashed
  | .stale => f.status.dead
  | .operator => true

/-! ### The threads -/

/-- The thread that starts the container; `ok` when what it calls succeeds, and at the head of the
loop when there is time left. -/
def bootStep (ok : Bool) : BootStage → HandleFields × BootStage
  | .building => (f, if ok then .launching else .unlaunched)
  | .launching => if ok then ({ f with running := true }, .launched) else (f, .unlaunched)
  | .launched =>
    ({ f with hasId := true, status := .bootstrapping, overwritten := true }, .polling)
  | .unlaunched => ({ f with status := .crashed }, .releasing)
  | .polling =>
    (f, if ok then if f.status.dead = true then .done else .asking else .overdue)
  | .asking => (f, if ok then .answered else .polling)
  | .answered => ({ f with status := .ready, overwritten := true }, .releasing)
  | .overdue => ({ f with status := .crashed }, .releasing)
  | .releasing => ({ f with isReady := true }, .done)
  | .done => (f, .done)

/-- `dismiss`.  Without an id there is nothing to stop; a container that could not be stopped stays
in the pool. -/
def dismissStep (ok : Bool) : DismissStage → HandleFields × Option DismissStage
  | .marking => ({ f with status := .dismissed }, some .stopping)
  | .stopping =>
    if f.hasId = true then
      if ok = true then ({ f with running := false }, some .removing) else (f, none)
    else (f, some .removing)
  | .removing => ({ f with inPool := false }, none)

/-- `invoke` from where it has the handle, and `_dispatch_once_ready`. -/
def jobStep (t : JobThread) : HandleFields × Option JobThread :=
  let usable := f.isReady = true ∧ f.status.dead = false
  match t.stage with
  | .placed => (f, some { t with stage := if usable then .ensuring else .claiming })
  | .claiming =>
    ({ f with
        status := if f.status.dead = true then f.status else .busy
        overwritten := if f.status.dead = true then f.overwritten else false },
      some { t with cold := true, stage := .waiting })
  | .waiting => (f, some { t with stage := if usable then .ensuring else .failed })
  | .failed => (f.settle t.job, none)
  | .ensuring => (f, some { t with stage := .looking })
  | .looking => (f, some { t with stage := if f.jobQueues = [] then .creating else .marking })
  | .creating => (f.newQueue, some { t with stage := .marking })
  | .marking =>
    ({ f with status := .busy, overwritten := false, invocationCount := f.invocationCount + 1 },
      some { t with stage := .putting })
  | .putting =>
    ({ f.push f.jobQueue t.job with enqueued := f.enqueued ++ [t.job] }, none)

/-- The pump thread; a `send` that fails is a crash, and an exception that nothing catches leaves the
handle as it is. -/
def pumpStep : PumpStage → ContainerStep → Option (HandleFields × PumpStage)
  | .starting, .go => some (f, if f.jobQueues = [] then .creating else .looping)
  | .creating, .go => some (f.newQueue, .looping)
  | .looping, .go => some (f, if f.status.dead = true then .leaving else .getting f.jobQueue)
  | .getting queue, .go => (f.pop queue).map fun r => (r.2, .taken r.1)
  | .getting queue, .expire =>
    if f.pop queue = none then
      some ({ f with status := if f.status = .busy then .idle else f.status }, .looping)
    else none
  | .taken job, .go =>
    some ({ f with currentJobId := some job, sent := f.sent ++ [job] }, .inFlight job)
  | .taken job, .fault .unsent => some ({ f with currentJobId := some job }, .ended)
  | .inFlight job, .io => some (f, .inFlight job)
  | .inFlight _, .fault .unreadable | .inFlight _, .fault .unanswered => some (f, .ended)
  | .inFlight job, .result _ => some ({ f with currentJobId := none }, .completing job)
  | .inFlight job, .crash => some (f, if f.status.dead = true then .leaving else .crashing job)
  | .inFlight job, .timeout =>
    if 0 < f.maxDurationSeconds then
      some (f, if f.status.dead = true then .leaving else .crashing job)
    else none
  | .completing job, .go => some (f.settle job, .finishing)
  | .finishing, .go => some ({ f with status := .idle }, .looping)
  | .crashing job, .go => some ({ f with status := .crashed }, .dismissing .marking job)
  | .dismissing stage job, .stopped ok =>
    some ((f.dismissStep ok stage).1,
      (f.dismissStep ok stage).2.elim (.settling job) fun stage => .dismissing stage job)
  | .settling job, .go => some (f.settle job, .emptying)
  | .emptying, .go => some (f, .draining f.jobQueue [])
  | .draining queue pending, .go =>
    match f.pop queue with
    | some (job, f') => some (f', .draining queue (pending ++ [job]))
    | none => some (f, .reporting pending)
  | .reporting (job :: pending), .go => some (f.settle job, .reporting pending)
  | .reporting [], .go => some (f, .leaving)
  | .leaving, .go => some (f, .ended)
  | _, _ => none

/-- A call of `cancel`; `ok` when the container is stopped without an error. -/
def cancelStep (ok : Bool) : CancelStage → HandleFields × Option CancelStage
  | .checking job => (f, some (if f.currentJobId = some job then .found job else .looking job))
  | .found job => ({ f with status := .crashed }, some (.dismissing .marking job))
  | .dismissing stage job =>
    ((f.dismissStep ok stage).1,
      some ((f.dismissStep ok stage).2.elim (.settling job) fun stage => .dismissing stage job))
  | .settling job => (f.settle job, some .emptying)
  | .emptying => (f, some (.draining f.jobQueue []))
  | .draining queue pending =>
    match f.pop queue with
    | some (job, f') => (f', some (.draining queue (pending ++ [job])))
    | none => (f, some (.reporting pending))
  | .reporting (job :: pending) => (f.settle job, some (.reporting pending))
  | .reporting [] => (f, none)
  | .looking job =>
    (f, if f.jobQueues = [] then none else some (.rebuilding f.jobQueue job false []))
  | .rebuilding queue job isFound remaining =>
    match f.pop queue with
    | some (other, f') =>
      if other = job then (f', some (.rebuilding queue job true remaining))
      else (f', some (.rebuilding queue job isFound (remaining ++ [other])))
    | none => (f, some (.restoring queue job isFound remaining))
  | .restoring queue job isFound (other :: remaining) =>
    (f.push queue other, some (.restoring queue job isFound remaining))
  | .restoring _ job isFound [] => (f, if isFound = true then some (.reporting [job]) else none)

end HandleFields

/-! ### The handle with its threads -/

/-- A handle with everything that runs on it. -/
structure HandleLife where
  fields : HandleFields := {}
  boot : BootStage := .building
  pump : PumpStage := .ended
  jobs : List JobThread := []
  dismissals : List DismissStage := []
  cancels : List CancelStage := []
  deriving DecidableEq

inductive HandleAct
  /-- `invoke` is given the handle, as available or otherwise -/
  | assign (job : JobId) (asAvailable : Bool)
  | boot (ok : Bool)
  /-- a pump thread may live under the service name that is not of this handle -/
  | job (thread : JobThread) (nameTaken : Bool)
  | pump (p : ContainerStep)
  /-- a sweep, the clean-up before a spawn or an operator picks the handle -/
  | select (reason : DismissReason)
  | dismiss (stage : DismissStage) (ok : Bool)
  /-- `cancel` has the handle on its list -/
  | cancel (job : JobId)
  | cancelStep (stage : CancelStage) (ok : Bool)
  deriving DecidableEq

namespace HandleLife

/-- `_ensure_pump`. -/
def ensurePump (h : HandleLife) (t : JobThread) (nameTaken : Bool) : PumpStage :=
  if t.stage = .ensuring ∧ h.pump = .ended ∧ nameTaken = false then .starting else h.pump

/-- One step, where it is possible. -/
def step (maxInvocations : ℕ) (h : HandleLife) : HandleAct → Option HandleLife
  | .assign job asAvailable =>
    if (h.fields.inPool = true ∧ h.fields.status.dead = false) ∧ job ∉ h.fields.assigned ∧
        (asAvailable = true → h.fields.available = true) then
      some { h with
        fields := { h.fields with
          assigned := h.fields.assigned ++ [job]
          reused := h.fields.reused ++ if asAvailable = true then [job] else [] }
        jobs := h.jobs ++ [⟨job, false, .placed⟩] }
    else none
  | .boot ok =>
    if h.boot = .done then none
    else some { h with
      fields := (h.fields.bootStep ok h.boot).1
      boot := (h.fields.bootStep ok h.boot).2 }
  | .job t nameTaken =>
    if t ∈ h.jobs then
      some { h with
        fields := (h.fields.jobStep t).1
        jobs := (h.fields.jobStep t).2.toList ++ h.jobs.erase t
        pump := h.ensurePump t nameTaken }
    else none
  | .pump p =>
    (h.fields.pumpStep h.pump p).map fun r => { h with fields := r.1, pump := r.2 }
  | .select reason =>
    if h.fields.inPool = true ∧ h.fields.dismissable maxInvocations reason = true then
      some { h with dismissals := .marking :: h.dismissals }
    else none
  | .dismiss stage ok =>
    if stage ∈ h.dismissals then
      some { h with
        fields := (h.fields.dismissStep ok stage).1
        dismissals := (h.fields.dismissStep ok stage).2.toList ++ h.dismissals.erase stage }
    else none
  | .cancel job =>
    if h.fields.inPool = true then some { h with cancels := .checking job :: h.cancels } else none
  | .cancelStep stage ok =>
    if stage ∈ h.cancels then
      some { h with
        fields := (h.fields.cancelStep ok stage).1
        cancels := (h.fields.cancelStep ok stage).2.toList ++ h.cancels.erase stage }
    else none

end HandleLife

end Axo
