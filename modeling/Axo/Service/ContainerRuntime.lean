import Axo.Service.ProcessRuntime

/-!
# The container runtime

`ContainerFunctionRuntime` of `service/runtime/container_runtime.py`, without retries and on one
endpoint, with the `ContainerSummoner` of `service/container/spawner.py` that starts and dismisses
its containers.

* `ContainerHandle` is the state of a handle; `pumpStep` is the next piece of its pump thread
  (`_pump`, `_pump_one_job`, `_handle_crash`, `_handle_timeout`), and `bootStep` of the thread that
  starts the container and polls its readiness;
* `Dispatch` is a call of `invoke`, and the thread of `_dispatch_once_ready`;
* `Dismissal` is a running call of `dismiss` by a sweep or an operator, and `ContainerCancel` a
  running call of `cancel`;
* `ContainerRuntime`, `ContainerAction` and `ContainerRuntime.step` are the system.

`_job_queue` is made by whoever finds it missing, and the one made last is in use; `jobQueues` has
them all.
-/

namespace Axo

/-- `ContainerStatus`. -/
inductive ContainerStatus
  | starting
  | bootstrapping
  | ready
  | busy
  | idle
  | crashed
  | dismissed
  deriving DecidableEq

/-- `CRASHED` or `DISMISSED`. -/
def ContainerStatus.dead : ContainerStatus → Bool
  | .crashed | .dismissed => true
  | .starting | .bootstrapping | .ready | .busy | .idle => false

/-- Where the thread that starts a container is. -/
inductive Bootstrap
  /-- `_spawn_in_background` -/
  | spawning
  /-- `_poll_readiness` is at the head of its loop -/
  | polling
  /-- `_poll_readiness` awaits an answer -/
  | asking
  | done
  deriving DecidableEq

/-- Where a pump thread is. -/
inductive ContainerPump
  /-- looks for `_job_queue` -/
  | starting
  /-- has found none, and makes one -/
  | creating
  /-- at the head of the loop -/
  | looping
  /-- in `get`, on one of the queues -/
  | getting (queue : ℕ)
  | taken (job : JobId)
  /-- dispatched to the container -/
  | inFlight (job : JobId)
  /-- a result has been received -/
  | completing (job : JobId) (ok : Bool)
  /-- the job is reported, and the status is to be set -/
  | finishing
  /-- `_handle_crash` or `_handle_timeout` has set `CRASHED` -/
  | failing (timedOut : Bool) (job : JobId)
  /-- its call of `dismiss` stops the container -/
  | stopping (timedOut : Bool) (job : JobId)
  /-- the job in flight is to be reported -/
  | settling (timedOut : Bool) (job : JobId)
  /-- `_drain_job_queue` is called -/
  | emptying
  | draining (queue : ℕ) (pending : List JobId)
  | reporting (reports : List Report)
  /-- the loop is left, and the thread still lives -/
  | leaving
  /-- there is no thread -/
  | ended
  deriving DecidableEq

/-- The steps of a pump thread. -/
inductive ContainerStep
  /-- the next piece of the code, where there is one -/
  | go
  /-- `get` times out -/
  | expire
  | result (ok : Bool)
  /-- the function asks for data, and is answered -/
  | io
  | fault (f : PumpFault)
  /-- the container disconnects, or sends what it should not -/
  | crash
  /-- the deadline of the job has passed -/
  | timeout
  /-- the container is stopped, or that has failed -/
  | stopped (ok : Bool)
  deriving DecidableEq

/-- The steps of the thread that starts a container. -/
inductive BootStep
  | spawned (ok : Bool)
  | look
  | answer (ok : Bool)
  | timeout
  deriving DecidableEq

/-- Why a handle is dismissed. -/
inductive DismissReason
  | idleTtl
  | maxInvocations
  /-- `sweep_crashed` -/
  | crashed
  /-- `_dismiss_stale` -/
  | stale
  /-- somebody calls `dismiss` -/
  | operator
  deriving DecidableEq

/-- A `ContainerHandle`. -/
structure ContainerHandle where
  serviceName : String
  maxDurationSeconds : ℤ
  /-- in the `_handles` of the summoner -/
  inPool : Bool
  status : ContainerStatus
  /-- `ready_event` is set -/
  isReady : Bool
  bootstrap : Bootstrap
  /-- the queues that have been `_job_queue`, the last one in use -/
  jobQueues : List (List JobId)
  invocationCount : ℕ
  currentJobId : Option JobId
  pump : ContainerPump
  deriving DecidableEq

namespace ContainerHandle

/-- A handle that has just been reserved. -/
def fresh (serviceName : String) (maxDurationSeconds : ℤ) : ContainerHandle where
  serviceName := serviceName
  maxDurationSeconds := maxDurationSeconds
  inPool := true
  status := .starting
  isReady := false
  bootstrap := .spawning
  jobQueues := []
  invocationCount := 0
  currentJobId := none
  pump := .ended

/-- `_job_queue`, by its number. -/
def jobQueue (h : ContainerHandle) : ℕ := h.jobQueues.length - 1

/-- `get_nowait`, or a `get` that does not have to wait. -/
def pop (h : ContainerHandle) (queue : ℕ) : Option (JobId × ContainerHandle) :=
  match h.jobQueues[queue]? with
  | some (job :: rest) => some (job, { h with jobQueues := h.jobQueues.set queue rest })
  | _ => none

/-- `put`. -/
def push (h : ContainerHandle) (queue : ℕ) (job : JobId) : ContainerHandle :=
  { h with jobQueues := h.jobQueues.modify queue fun jobs => jobs ++ [job] }

/-- The assignment of a new queue to `_job_queue`. -/
def newQueue (h : ContainerHandle) : ContainerHandle :=
  { h with jobQueues := h.jobQueues ++ [[]] }

/-- What a sweep, the clean-up before a spawn or an operator looks for. -/
def dismissable (h : ContainerHandle) (maxInvocations : ℕ) : DismissReason → Bool
  | .idleTtl => h.status = .idle && h.invocationCount ≠ 0
  | .maxInvocations => maxInvocations ≠ 0 && maxInvocations ≤ h.invocationCount
  | .crashed => h.status = .crashed
  | .stale => h.status.dead
  | .operator => true

/-- The end of `dismiss`: a container that could not be stopped stays in the pool. -/
def removed (h : ContainerHandle) (ok : Bool) : ContainerHandle :=
  { h with inPool := h.inPool && !ok }

/-- `_handle_crash` and `_handle_timeout` up to the dismissal: nothing when the handle is dead
already. -/
def giveUp (h : ContainerHandle) (timedOut : Bool) (job : JobId) : ContainerHandle :=
  if h.status.dead = true then { h with pump := .leaving }
  else { h with status := .crashed, pump := .failing timedOut job }

/-- The next piece of the pump thread, where only one is possible, with its calls of
`on_complete`. -/
def pumpGo (h : ContainerHandle) : Option (ContainerHandle × List Report) :=
  match h.pump with
  | .starting => some ({ h with pump := if h.jobQueues = [] then .creating else .looping }, [])
  | .creating => some ({ h.newQueue with pump := .looping }, [])
  | .looping =>
    some ({ h with pump := if h.status.dead = true then .leaving else .getting h.jobQueue }, [])
  | .getting queue => (h.pop queue).map fun r => ({ r.2 with pump := .taken r.1 }, [])
  | .taken job => some ({ h with currentJobId := some job, pump := .inFlight job }, [])
  | .completing job ok => some ({ h with pump := .finishing }, [(job, .returned ok)])
  | .finishing => some ({ h with status := .idle, pump := .looping }, [])
  | .failing timedOut job => some ({ h with status := .dismissed, pump := .stopping timedOut job }, [])
  | .settling timedOut job =>
    some ({ h with pump := .emptying }, [(job, if timedOut = true then .timedOut else .crashed)])
  | .emptying => some ({ h with pump := .draining h.jobQueue [] }, [])
  | .draining queue pending =>
    match h.pop queue with
    | some (job, h') => some ({ h' with pump := .draining queue (pending ++ [job]) }, [])
    | none => some ({ h with pump := .reporting (pending.map fun j => (j, .crashed)) }, [])
  | .reporting (r :: rs) => some ({ h with pump := .reporting rs }, [r])
  | .reporting [] => some ({ h with pump := .leaving }, [])
  | .leaving => some ({ h with pump := .ended }, [])
  | .inFlight _ | .stopping _ _ | .ended => none

/-- One step of the pump thread; an exception that nothing catches leaves the handle as it is. -/
def pumpStep (h : ContainerHandle) : ContainerStep → Option (ContainerHandle × List Report)
  | .go => h.pumpGo
  | .expire =>
    match h.pump with
    | .getting queue =>
      if h.pop queue = none then
        some ({ h with
          status := if h.status = .busy then .idle else h.status
          pump := .looping }, [])
      else none
    | _ => none
  | .result ok =>
    match h.pump with
    | .inFlight job => some ({ h with currentJobId := none, pump := .completing job ok }, [])
    | _ => none
  | .io =>
    match h.pump with
    | .inFlight _ => some (h, [])
    | _ => none
  | .fault f =>
    match h.pump, f with
    | .taken job, .unsent => some ({ h with currentJobId := some job, pump := .ended }, [])
    | .inFlight _, .unreadable | .inFlight _, .unanswered => some ({ h with pump := .ended }, [])
    | _, _ => none
  | .crash =>
    match h.pump with
    | .inFlight job => some (h.giveUp false job, [])
    | _ => none
  | .timeout =>
    match h.pump with
    | .inFlight job => if 0 < h.maxDurationSeconds then some (h.giveUp true job, []) else none
    | _ => none
  | .stopped ok =>
    match h.pump with
    | .stopping timedOut job => some ({ h.removed ok with pump := .settling timedOut job }, [])
    | _ => none

/-- One step of the thread that starts the container. -/
def bootStep (h : ContainerHandle) : BootStep → Option ContainerHandle
  | .spawned true =>
    if h.bootstrap = .spawning then some { h with status := .bootstrapping, bootstrap := .polling }
    else none
  | .spawned false =>
    if h.bootstrap = .spawning then
      some { h with status := .crashed, isReady := true, bootstrap := .done }
    else none
  | .look =>
    if h.bootstrap = .polling then
      some { h with bootstrap := if h.status.dead = true then .done else .asking }
    else none
  | .answer true =>
    if h.bootstrap = .asking then some { h with status := .ready, isReady := true, bootstrap := .done }
    else none
  | .answer false => if h.bootstrap = .asking then some { h with bootstrap := .polling } else none
  | .timeout =>
    if h.bootstrap = .polling then
      some { h with status := .crashed, isReady := true, bootstrap := .done }
    else none

end ContainerHandle

/-- How far a call of `invoke`, or the thread of `_dispatch_once_ready`, is. -/
inductive DispatchStage
  /-- `invoke` has a handle -/
  | placed
  /-- the handle is not ready, and is to be claimed -/
  | claiming
  /-- `_dispatch_once_ready` waits for `ready_event` -/
  | waiting
  /-- the container is not ready -/
  | failed
  /-- `_ensure_pump` is called -/
  | ensuring
  /-- `_enqueue_job` looks for `_job_queue` -/
  | looking
  | creating
  /-- the status is to be set -/
  | marking
  | putting
  deriving DecidableEq

/-- A job on its way to the queue of a handle, which is named by its position; `cold` when `invoke`
has returned already. -/
structure Dispatch where
  job : JobId
  handle : ℕ
  cold : Bool
  stage : DispatchStage
  deriving DecidableEq

namespace Dispatch

/-- The handle after the next piece; `pumpLives` when a pump thread lives under its service name. -/
def onHandle (d : Dispatch) (h : ContainerHandle) (pumpLives : Bool) : ContainerHandle :=
  match d.stage with
  | .claiming => { h with status := if h.status.dead = true then h.status else .busy }
  | .ensuring => { h with pump := if pumpLives = true then h.pump else .starting }
  | .creating => h.newQueue
  | .marking => { h with status := .busy, invocationCount := h.invocationCount + 1 }
  | .putting => h.push h.jobQueue d.job
  | .placed | .waiting | .failed | .looking => h

/-- The dispatch after the next piece, unless that was the last. -/
def next (d : Dispatch) (h : ContainerHandle) : Option Dispatch :=
  match d.stage with
  | .placed =>
    some { d with stage := if h.isReady = true ∧ h.status.dead = false then .ensuring else .claiming }
  | .claiming => some { d with cold := true, stage := .waiting }
  | .waiting =>
    some { d with stage := if h.isReady = true ∧ h.status.dead = false then .ensuring else .failed }
  | .ensuring => some { d with stage := .looking }
  | .looking => some { d with stage := if h.jobQueues = [] then .creating else .marking }
  | .creating => some { d with stage := .marking }
  | .marking => some { d with stage := .putting }
  | .failed | .putting => none

/-- The job when `invoke` returns `Ok` with the next piece. -/
def accepts (d : Dispatch) : List JobId :=
  match d.stage with
  | .claiming => [d.job]
  | .putting => if d.cold = true then [] else [d.job]
  | _ => []

/-- The call of `on_complete` in the next piece. -/
def reports (d : Dispatch) : List Report :=
  match d.stage with
  | .failed => [(d.job, .notReady)]
  | _ => []

end Dispatch

/-- A running call of `dismiss`; `marked` when the status is set and the container is being
stopped. -/
structure Dismissal where
  handle : ℕ
  marked : Bool
  deriving DecidableEq

/-- A running call of `cancel`. -/
inductive ContainerCancel
  /-- the handles are looked through for the one that runs the job -/
  | checking (job : JobId) (candidates : List ℕ)
  /-- the candidate does not run it, and its `_job_queue` is looked for -/
  | looking (handle : ℕ) (job : JobId) (candidates : List ℕ)
  /-- the handle runs the job -/
  | found (handle : ℕ) (job : JobId)
  /-- its status is `CRASHED` -/
  | marked (handle : ℕ) (job : JobId)
  /-- `dismiss` stops the container -/
  | stopping (handle : ℕ) (job : JobId)
  /-- the job in flight is to be reported -/
  | settling (handle : ℕ) (job : JobId)
  /-- `_drain_job_queue` is called -/
  | emptying (handle : ℕ)
  | draining (handle queue : ℕ) (pending : List JobId)
  | reporting (reports : List Report)
  /-- the queue of a candidate is drained -/
  | rebuilding (handle queue : ℕ) (job : JobId) (isFound : Bool) (remaining : List JobId)
      (candidates : List ℕ)
  /-- what was drained is put back -/
  | restoring (handle queue : ℕ) (job : JobId) (isFound : Bool) (remaining : List JobId)
      (candidates : List ℕ)
  deriving DecidableEq

namespace ContainerCancel

/-- The handle that the next piece of the call is about. -/
def handle : ContainerCancel → Option ℕ
  | .looking i _ _ | .found i _ | .marked i _ | .stopping i _ | .settling i _ | .emptying i
  | .draining i _ _ | .rebuilding i _ _ _ _ _ | .restoring i _ _ _ _ _ => some i
  | .checking _ candidates => candidates.head?
  | .reporting _ => none

/-- The next piece of the call, where it is about a handle; `ok` when a container is stopped
without an error. -/
def onHandle (h : ContainerHandle) (ok : Bool) :
    ContainerCancel → Option ContainerCancel × ContainerHandle
  | .checking job (i :: candidates) =>
    (some (if h.currentJobId = some job then .found i job else .looking i job candidates), h)
  | .looking i job candidates =>
    (some (if h.jobQueues = [] then .checking job candidates
      else .rebuilding i h.jobQueue job false [] candidates), h)
  | .found i job => (some (.marked i job), { h with status := .crashed })
  | .marked i job => (some (.stopping i job), { h with status := .dismissed })
  | .stopping i job => (some (.settling i job), h.removed ok)
  | .settling i _ => (some (.emptying i), h)
  | .emptying i => (some (.draining i h.jobQueue []), h)
  | .draining i queue pending =>
    match h.pop queue with
    | some (j, h') => (some (.draining i queue (pending ++ [j])), h')
    | none => (some (.reporting (pending.map fun j => (j, .crashed))), h)
  | .rebuilding i queue job isFound remaining candidates =>
    match h.pop queue with
    | some (j, h') =>
      if j = job then (some (.rebuilding i queue job true remaining candidates), h')
      else (some (.rebuilding i queue job isFound (remaining ++ [j]) candidates), h')
    | none => (some (.restoring i queue job isFound remaining candidates), h)
  | .restoring i queue job isFound (j :: rest) candidates =>
    (some (.restoring i queue job isFound rest candidates), h.push queue j)
  | .restoring _ _ job true [] _ => (some (.reporting [(job, .cancelled)]), h)
  | .restoring _ _ job false [] candidates => (some (.checking job candidates), h)
  | c => (some c, h)

/-- The call after the next piece, where that is about no handle, unless it was the last. -/
def alone : ContainerCancel → Option ContainerCancel
  | .reporting (_ :: rs) => some (.reporting rs)
  | .reporting [] | .checking _ [] => none
  | c => some c

/-- The call of `on_complete` in the next piece. -/
def reports : ContainerCancel → List Report
  | .settling _ job => [(job, .cancelled)]
  | .reporting (r :: _) => [r]
  | _ => []

end ContainerCancel

/-- The runtime. -/
structure ContainerRuntime where
  /-- every handle ever made -/
  handles : List ContainerHandle
  dispatches : List Dispatch
  dismissals : List Dismissal
  cancels : List ContainerCancel
  /-- the job ids in use -/
  invoked : List JobId
  /-- jobs for which `invoke` has returned `Ok` -/
  accepted : List JobId
  reported : List Report
  deriving DecidableEq

/-- One step of the runtime. -/
inductive ContainerAction
  /-- `invoke` has the pool grow for a new job -/
  | grow (job : JobId) (serviceName : String) (maxDurationSeconds : ℤ)
  /-- `invoke` picks a live handle for a new job -/
  | pick (job : JobId) (handle : ℕ)
  | dispatch (d : Dispatch)
  | pump (handle : ℕ) (step : ContainerStep)
  | boot (handle : ℕ) (step : BootStep)
  /-- a sweep, the clean-up before a spawn or an operator picks a handle -/
  | select (handle : ℕ) (reason : DismissReason)
  | dismiss (d : Dismissal) (ok : Bool)
  /-- `cancel` is called -/
  | cancel (job : JobId)
  | cancelStep (call : ContainerCancel) (ok : Bool)

namespace ContainerRuntime

/-- No container yet. -/
def init : ContainerRuntime where
  handles := []
  dispatches := []
  dismissals := []
  cancels := []
  invoked := []
  accepted := []
  reported := []

/-- A pump thread lives under the service name. -/
def pumpLives (s : ContainerRuntime) (serviceName : String) : Bool :=
  s.handles.any fun h => h.serviceName = serviceName && h.pump ≠ .ended

/-- `cancel` with the handles of the pools. -/
def startCancel (s : ContainerRuntime) (job : JobId) : ContainerCancel :=
  .checking job
    ((List.range s.handles.length).filter fun i => (s.handles[i]?).any ContainerHandle.inPool)

/-- One step, where it is possible. -/
def step (maxInvocations : ℕ) (s : ContainerRuntime) : ContainerAction → Option ContainerRuntime
  | .grow job serviceName maxDurationSeconds =>
    if job ∈ s.invoked then none
    else some { s with
      handles := s.handles ++ [.fresh serviceName maxDurationSeconds]
      dispatches := ⟨job, s.handles.length, false, .placed⟩ :: s.dispatches
      invoked := job :: s.invoked }
  | .pick job i =>
    (s.handles[i]?).bind fun h =>
      if (h.inPool = true ∧ h.status.dead = false) ∧ job ∉ s.invoked then
        some { s with
          dispatches := ⟨job, i, false, .placed⟩ :: s.dispatches
          invoked := job :: s.invoked }
      else none
  | .dispatch d =>
    (s.handles[d.handle]?).bind fun h =>
      if d ∈ s.dispatches then
        some { s with
          handles := s.handles.set d.handle (d.onHandle h (s.pumpLives h.serviceName))
          dispatches := (d.next h).toList ++ s.dispatches.erase d
          accepted := d.accepts ++ s.accepted
          reported := d.reports ++ s.reported }
      else none
  | .pump i p =>
    (s.handles[i]?).bind fun h => (h.pumpStep p).map fun r =>
      { s with handles := s.handles.set i r.1, reported := r.2 ++ s.reported }
  | .boot i b =>
    (s.handles[i]?).bind fun h => (h.bootStep b).map fun h' =>
      { s with handles := s.handles.set i h' }
  | .select i reason =>
    (s.handles[i]?).bind fun h =>
      if h.inPool = true ∧ h.dismissable maxInvocations reason = true then
        some { s with dismissals := ⟨i, false⟩ :: s.dismissals }
      else none
  | .dismiss d ok =>
    (s.handles[d.handle]?).bind fun h =>
      if d ∈ s.dismissals then
        if d.marked = true then
          some { s with
            handles := s.handles.set d.handle (h.removed ok)
            dismissals := s.dismissals.erase d }
        else
          some { s with
            handles := s.handles.set d.handle { h with status := .dismissed }
            dismissals := ⟨d.handle, true⟩ :: s.dismissals.erase d }
      else none
  | .cancel job => some { s with cancels := s.startCancel job :: s.cancels }
  | .cancelStep c ok =>
    if c ∈ s.cancels then
      match c.handle with
      | some i =>
        (s.handles[i]?).map fun h =>
          { s with
            handles := s.handles.set i (c.onHandle h ok).2
            cancels := (c.onHandle h ok).1.toList ++ s.cancels.erase c
            reported := c.reports ++ s.reported }
      | none =>
        some { s with
          cancels := c.alone.toList ++ s.cancels.erase c
          reported := c.reports ++ s.reported }
    else none

end ContainerRuntime

end Axo
