import Axo.Lib.Custody
import Mathlib.Data.String.Basic
import Mathlib.Data.Int.Order.Basic

/-!
# The process runtime

`ProcessFunctionRuntime` of `service/runtime/process_runtime.py`: worker processes with a queue and
a pump thread each, and the threads that submit jobs, sweep workers and cancel jobs.

* `Worker` with `Pump` is a `WorkerHandle`, and `Worker.pumpStep` the next piece of `_pump`,
  `_handle_crash` and `_handle_timeout`;
* `Cancel` is a running call of `cancel`;
* `ProcessRuntime`, `ProcessAction` and `ProcessRuntime.step` are the system.

Every access to shared state is a step of its own.  Which worker of a pool `invoke` picks, and
whether it grows the pool, depends on what it read some time before; here it may be any worker that
was registered then.
-/

namespace Axo

abbrev JobId := String

/-- What `on_complete` is called with. -/
inductive JobOutcome
  | returned (ok : Bool)
  | crashed
  | timedOut
  | cancelled
  /-- a container did not become ready -/
  | notReady
  deriving DecidableEq

/-- A call of `on_complete`. -/
abbrev Report := JobId × JobOutcome

/-- The reports for a job in flight and those queued behind it, when its worker is given up. -/
def failureReports (job : JobId) (outcome : JobOutcome) (pending : List JobId) : List Report :=
  (job, outcome) :: pending.map fun j => (j, .crashed)

/-- Where a pump thread is. -/
inductive Pump
  /-- blocked in `request_queue.get()` -/
  | waiting
  /-- a job has been taken from the queue, and is not marked yet -/
  | taken (job : JobId)
  /-- dispatched to the worker process -/
  | inFlight (job : JobId)
  /-- a result has been received -/
  | completing (job : JobId) (ok : Bool)
  /-- `_handle_crash` or `_handle_timeout` drains the queue -/
  | failing (timedOut : Bool) (job : JobId) (pending : List JobId)
  | reporting (reports : List Report)
  /-- the `finally` block, before the next round or the return -/
  | clearing (again : Bool)
  | ended
  /-- an exception has ended the thread -/
  | died
  deriving DecidableEq

/-- A `WorkerHandle`. -/
structure Worker where
  /-- in the `WorkerRegistry` -/
  registered : Bool
  /-- the worker process runs -/
  alive : Bool
  /-- `request_queue`; `none` is the sentinel of `_kill_worker` -/
  queue : List (Option JobId)
  busy : Bool
  currentJobId : Option JobId
  cancelled : Bool
  invocationCount : ℕ
  maxDurationSeconds : ℤ
  pump : Pump
  deriving DecidableEq

/-- Where an exception that nothing catches ends a pump thread. -/
inductive PumpFault
  /-- a job cannot be sent: its scratch directory cannot be made, or its texts not be encoded -/
  | unsent
  /-- a message cannot be read -/
  | unreadable
  /-- a request for data cannot be read, or `resolve_io_request` raises -/
  | unanswered
  deriving DecidableEq

/-- The steps of a pump thread. -/
inductive PumpStep
  | take
  | begin
  | result (ok : Bool)
  /-- the function asks for data, and is answered -/
  | io
  | fault (f : PumpFault)
  /-- the pipe to the worker process is broken or closed -/
  | crash
  /-- the deadline of the job has passed -/
  | timeout
  | drain
  | report
  | clear
  deriving DecidableEq

namespace Worker

/-- A worker that has just been spawned. -/
def fresh (maxDurationSeconds : ℤ) : Worker where
  registered := true
  alive := true
  queue := []
  busy := false
  currentJobId := none
  cancelled := false
  invocationCount := 0
  maxDurationSeconds := maxDurationSeconds
  pump := .waiting

/-- `exceeded_max_invocations`. -/
def exceededMaxInvocations (w : Worker) (maxInvocations : ℕ) : Bool :=
  maxInvocations ≠ 0 && maxInvocations ≤ w.invocationCount

/-- `_handle_crash` and `_handle_timeout` up to the drain: nothing when `cancel` has finalized the
handle, else the worker is evicted. -/
def giveUp (w : Worker) (timedOut : Bool) (job : JobId) : Worker :=
  if w.cancelled = true then { w with pump := .clearing false }
  else { w with registered := false, pump := .failing timedOut job [] }

/-- An exception leaves the loop through its `finally` block, and ends the thread. -/
def dies (w : Worker) : Worker := { w with busy := false, currentJobId := none, pump := .died }

/-- The next piece of the pump thread, with its calls of `on_complete`; that one returns. -/
def pumpStep (w : Worker) : PumpStep → Option (Worker × List Report)
  | .take =>
    match w.pump, w.queue with
    | .waiting, some job :: rest => some ({ w with queue := rest, pump := .taken job }, [])
    | .waiting, none :: rest => some ({ w with queue := rest, pump := .ended }, [])
    | _, _ => none
  | .begin =>
    match w.pump with
    | .taken job =>
      some ({ w with busy := true, currentJobId := some job, pump := .inFlight job }, [])
    | _ => none
  | .result ok =>
    match w.pump with
    | .inFlight job =>
      some ({ w with invocationCount := w.invocationCount + 1, pump := .completing job ok }, [])
    | _ => none
  | .io =>
    match w.pump with
    | .inFlight _ => some (w, [])
    | _ => none
  | .fault f =>
    match w.pump, f with
    | .taken job, .unsent =>
      -- the `try` block is not entered yet
      some ({ w with busy := true, currentJobId := some job, pump := .died }, [])
    | .inFlight _, .unreadable | .inFlight _, .unanswered => some (w.dies, [])
    | _, _ => none
  | .crash =>
    match w.pump with
    | .inFlight job => if w.alive = true then none else some (w.giveUp false job, [])
    | _ => none
  | .timeout =>
    match w.pump with
    | .inFlight job => if 0 < w.maxDurationSeconds then some (w.giveUp true job, []) else none
    | _ => none
  | .drain =>
    match w.pump, w.queue with
    | .failing timedOut job pending, some j :: rest =>
      some ({ w with queue := rest, pump := .failing timedOut job (pending ++ [j]) }, [])
    | .failing _ _ _, none :: rest =>
      -- the sentinel cannot be unpacked
      some (({ w with queue := rest } : Worker).dies, [])
    | .failing true job pending, [] =>
      some ({ w with
        alive := false
        pump := .reporting (failureReports job .timedOut pending) }, [])
    | .failing false job pending, [] =>
      some ({ w with pump := .reporting (failureReports job .crashed pending) }, [])
    | _, _ => none
  | .report =>
    match w.pump with
    | .completing job ok => some ({ w with pump := .clearing true }, [(job, .returned ok)])
    | .reporting (r :: rs) => some ({ w with pump := .reporting rs }, [r])
    | .reporting [] => some ({ w with pump := .clearing false }, [])
    | _ => none
  | .clear =>
    match w.pump with
    | .clearing true => some ({ w with busy := false, currentJobId := none, pump := .waiting }, [])
    | .clearing false => some ({ w with busy := false, currentJobId := none, pump := .ended }, [])
    | _ => none

end Worker

/-- A running call of `cancel`.  Workers are named by their position. -/
inductive Cancel
  /-- `find_by_job_id` has found the worker -/
  | found (worker : ℕ) (job : JobId)
  /-- the worker is evicted, and its queue is drained -/
  | draining (worker : ℕ) (job : JobId) (pending : List JobId)
  /-- `cancelled` is set, and the worker process is to be killed -/
  | flagged (worker : ℕ) (job : JobId) (pending : List JobId)
  | reporting (reports : List Report)
  /-- the job is not dispatched: the queues are looked through, one worker after the other -/
  | scanning (job : JobId) (candidates : List ℕ)
  /-- the queue of a candidate is drained -/
  | rebuilding (worker : ℕ) (job : JobId) (isFound : Bool) (remaining : List JobId)
      (candidates : List ℕ)
  /-- what was drained is put back -/
  | restoring (worker : ℕ) (job : JobId) (isFound : Bool) (remaining : List JobId)
      (candidates : List ℕ)
  deriving DecidableEq

namespace Cancel

/-- The worker that the next piece of the call is about. -/
def worker : Cancel → Option ℕ
  | .found i _ | .draining i _ _ | .flagged i _ _ | .rebuilding i _ _ _ _ | .restoring i _ _ _ _ =>
    some i
  | .reporting _ | .scanning _ _ => none

/-- The next piece of the call, where it is about a worker; the call is over when an exception ends
it. -/
def onWorker (w : Worker) : Cancel → Option Cancel × Worker
  | .found i job => (some (.draining i job []), { w with registered := false })
  | .draining i job pending =>
    match w.queue with
    | some j :: rest => (some (.draining i job (pending ++ [j])), { w with queue := rest })
    | none :: rest => (none, { w with queue := rest })
    | [] => (some (.flagged i job pending), { w with cancelled := true })
  | .flagged _ job pending =>
    (some (.reporting (failureReports job .cancelled pending)), { w with alive := false })
  | .rebuilding i job isFound remaining candidates =>
    match w.queue with
    | some j :: rest =>
      if j = job then
        (some (.rebuilding i job true remaining candidates), { w with queue := rest })
      else
        (some (.rebuilding i job isFound (remaining ++ [j]) candidates), { w with queue := rest })
    | none :: rest => (none, { w with queue := rest })
    | [] => (some (.restoring i job isFound remaining candidates), w)
  | .restoring i job isFound (j :: rest) candidates =>
    (some (.restoring i job isFound rest candidates), { w with queue := w.queue ++ [some j] })
  | .restoring _ job true [] _ => (some (.reporting [(job, .cancelled)]), w)
  | .restoring _ job false [] candidates => (some (.scanning job candidates), w)
  | c => (some c, w)

/-- The next piece of the call, where it is about no worker, with its calls of `on_complete`. -/
def alone : Cancel → Option Cancel × List Report
  | .reporting (r :: rs) => (some (.reporting rs), [r])
  | .reporting [] => (none, [])
  | .scanning job (i :: candidates) => (some (.rebuilding i job false [] candidates), [])
  | .scanning _ [] => (none, [])
  | c => (some c, [])

end Cancel

/-- A worker that a sweep has evicted, and whether its process is killed already. -/
structure Sweep where
  worker : ℕ
  killed : Bool
  deriving DecidableEq

/-- The runtime. -/
structure ProcessRuntime where
  /-- every worker ever spawned -/
  workers : List Worker
  /-- calls of `invoke` that have picked a worker -/
  invokes : List (JobId × ℕ)
  sweeps : List Sweep
  cancels : List Cancel
  /-- the job ids in use -/
  invoked : List JobId
  /-- jobs for which `invoke` has returned `Ok` -/
  accepted : List JobId
  reported : List Report
  deriving DecidableEq

/-- One step of the runtime. -/
inductive ProcessAction
  /-- `invoke` spawns a worker for a new job -/
  | spawn (job : JobId) (maxDurationSeconds : ℤ)
  /-- `invoke` picks a registered worker for a new job -/
  | pick (job : JobId) (worker : ℕ)
  /-- `invoke` puts the job on the queue and returns `Ok` -/
  | put (job : JobId) (worker : ℕ)
  | pump (worker : ℕ) (step : PumpStep)
  /-- the worker process dies -/
  | die (worker : ℕ)
  /-- `_sweep` finds a worker idle, or used up, and evicts it -/
  | sweepEvict (worker : ℕ) (idle : Bool)
  /-- `_kill_worker` kills the process -/
  | sweepKill (worker : ℕ)
  /-- `_kill_worker` puts the sentinel -/
  | sweepSentinel (worker : ℕ)
  /-- `cancel` is called, and looks for the job in flight -/
  | cancel (job : JobId)
  | cancelStep (call : Cancel)

namespace ProcessRuntime

/-- No worker yet. -/
def init : ProcessRuntime where
  workers := []
  invokes := []
  sweeps := []
  cancels := []
  invoked := []
  accepted := []
  reported := []

/-- `cancel` after `find_by_job_id`. -/
def startCancel (s : ProcessRuntime) (job : JobId) : Cancel :=
  match s.workers.findIdx? fun w => w.registered && w.currentJobId = some job with
  | some i => .found i job
  | none =>
    .scanning job
      ((List.range s.workers.length).filter fun i => (s.workers[i]?).any Worker.registered)

/-- One step, where it is possible. -/
def step (maxInvocations : ℕ) (s : ProcessRuntime) : ProcessAction → Option ProcessRuntime
  | .spawn job maxDurationSeconds =>
    if job ∈ s.invoked then none
    else some { s with
      workers := s.workers ++ [.fresh maxDurationSeconds]
      invokes := (job, s.workers.length) :: s.invokes
      invoked := job :: s.invoked }
  | .pick job i =>
    (s.workers[i]?).bind fun w =>
      if w.registered = true ∧ job ∉ s.invoked then
        some { s with invokes := (job, i) :: s.invokes, invoked := job :: s.invoked }
      else none
  | .put job i =>
    (s.workers[i]?).bind fun w =>
      if (job, i) ∈ s.invokes then
        some { s with
          workers := s.workers.set i { w with queue := w.queue ++ [some job] }
          invokes := s.invokes.erase (job, i)
          accepted := job :: s.accepted }
      else none
  | .pump i p =>
    (s.workers[i]?).bind fun w => (w.pumpStep p).map fun r =>
      { s with workers := s.workers.set i r.1, reported := r.2 ++ s.reported }
  | .die i =>
    (s.workers[i]?).map fun w => { s with workers := s.workers.set i { w with alive := false } }
  | .sweepEvict i idle =>
    (s.workers[i]?).bind fun w =>
      if (if idle = true then !w.busy else w.exceededMaxInvocations maxInvocations) = true then
        some { s with
          workers := s.workers.set i { w with registered := false }
          sweeps := ⟨i, false⟩ :: s.sweeps }
      else none
  | .sweepKill i =>
    (s.workers[i]?).bind fun w =>
      if ⟨i, false⟩ ∈ s.sweeps then
        some { s with
          workers := s.workers.set i { w with alive := false }
          sweeps := ⟨i, true⟩ :: s.sweeps.erase ⟨i, false⟩ }
      else none
  | .sweepSentinel i =>
    (s.workers[i]?).bind fun w =>
      if ⟨i, true⟩ ∈ s.sweeps then
        some { s with
          workers := s.workers.set i { w with queue := w.queue ++ [none] }
          sweeps := s.sweeps.erase ⟨i, true⟩ }
      else none
  | .cancel job => some { s with cancels := s.startCancel job :: s.cancels }
  | .cancelStep c =>
    if c ∈ s.cancels then
      match c.worker with
      | some i =>
        (s.workers[i]?).map fun w =>
          { s with
            workers := s.workers.set i (c.onWorker w).2
            cancels := (c.onWorker w).1.toList ++ s.cancels.erase c }
      | none =>
        some { s with
          cancels := c.alone.1.toList ++ s.cancels.erase c
          reported := c.alone.2 ++ s.reported }
    else none

end ProcessRuntime

end Axo
