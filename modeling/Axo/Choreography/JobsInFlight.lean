import Axo.Choreography.ConcurrencyCheck
import Axo.Lib.Transition

/-!
# The jobs of a choreography run

The threads of `RunChoreographyUseCase._execute_run`: one for each node of a wave, and within a node
that is fed from a bucket a pool for the items of each bucket edge in turn.  Each item is dispatched
by `_dispatch_with_retries`, which has at most one job that it waits for.

* `JobSlot` is one call of `_dispatch_with_retries`, `NodeThread` one call of `_run_node`;
* a submission may be refused, accepted, or accepted without the submitter being told of it; a job
  that is waited for may be given up while it runs, when a poll fails, the time is up or the run is
  cancelled; such a job is a stray;
* `inFlight` counts the jobs of one version that have been accepted and have not ended.

The results of the nodes are left out, and what is found in a bucket is arbitrary.
-/

namespace Axo

open Transition

/-! ### One dispatch -/

/-- A call of `_dispatch_with_retries`. -/
inductive JobSlot
  /-- before the stop flag is looked at -/
  | idle (attempt : ℕ)
  | submitting (attempt : ℕ)
  /-- polling; the job is in flight or has ended -/
  | waiting (attempt : ℕ) (inFlight : Bool)
  deriving DecidableEq, Repr

/-- The jobs in flight that a call waits for. -/
def JobSlot.jobs : JobSlot → ℕ
  | .waiting _ true => 1
  | _ => 0

/-- How a submission ends. -/
inductive SubmitReply
  | accepted
  | refused
  /-- the job is accepted, and the submitter sees an error -/
  | lost
  deriving DecidableEq, Repr

inductive SlotAction
  | look
  | submit (reply : SubmitReply)
  | jobEnds
  /-- the result is fetched -/
  | fetch (ok : Bool)
  | giveUp
  deriving DecidableEq, Repr

/-- What is left of a call after an action: `none` when it has returned. -/
structure SlotResult where
  slot : Option JobSlot
  ok : Bool := true
  /-- a job is left in flight -/
  stray : Bool := false

/-- A failed attempt is followed by another while there are retries. -/
def retry (node : ChoreographyNode) (attempt : ℕ) (stray : Bool) : SlotResult :=
  if node.maxRetries ≤ attempt then { slot := none, ok := false, stray := stray }
  else { slot := some (.idle (attempt + 1)), stray := stray }

/-- A step of `_dispatch_with_retries`. -/
def JobSlot.step (node : ChoreographyNode) (stopped : Bool) : JobSlot → SlotAction → Option SlotResult
  | .idle attempt, .look =>
    if stopped then some { slot := none, ok := false } else some { slot := some (.submitting attempt) }
  | .submitting attempt, .submit .accepted =>
    if node.version?.isSome then some { slot := some (.waiting attempt true) } else none
  | .submitting attempt, .submit .refused => some (retry node attempt false)
  | .submitting attempt, .submit .lost =>
    if node.version?.isSome then some (retry node attempt true) else none
  | .waiting attempt true, .jobEnds => some { slot := some (.waiting attempt false) }
  | .waiting attempt false, .fetch ok =>
    if ok then some { slot := none } else some (retry node attempt false)
  | .waiting attempt inFlight, .giveUp => some (retry node attempt inFlight)
  | _, _ => none

/-! ### One node -/

inductive ThreadPhase
  | queued
  /-- at the bucket edge `edgeNo`, with items that no worker of the pool has taken yet -/
  | running (edgeNo pending : ℕ) (slots : List JobSlot) (allOk : Bool)
  | ended (ok : Bool)
  deriving DecidableEq, Repr

/-- A call of `_run_node`. -/
structure NodeThread where
  node : ChoreographyNode
  phase : ThreadPhase
  deriving DecidableEq, Repr

namespace NodeThread

/-- The dispatches that go on. -/
def slots (thread : NodeThread) : List JobSlot :=
  match thread.phase with
  | .running _ _ slots _ => slots
  | _ => []

/-- The jobs in flight that the thread waits for. -/
def jobs (thread : NodeThread) : ℕ := (thread.slots.map JobSlot.jobs).sum

variable (graph : ChoreographyGraph) (thread : NodeThread)

/-- The width of the edge with the number, which is the number of workers of its pool. -/
def poolWidth (edgeNo : ℕ) : ℕ :=
  match (graph.bucketEdges thread.node.nodeId)[edgeNo]? with
  | some edge => edgeWidth graph edge
  | none => 0

/-- The thread at one of its bucket edges, with the items found there. -/
def atEdge (edgeNo items : ℕ) (allOk : Bool) : NodeThread :=
  { thread with
    phase := .running edgeNo (if thread.poolWidth graph edgeNo = 0 then 0 else items) [] allOk }

/-- The thread begins. -/
def start (items : ℕ) : Option NodeThread :=
  match thread.phase, thread.node.kind with
  | .queued, .bucket => some { thread with phase := .ended true }
  | .queued, .function =>
    if graph.bucketEdges thread.node.nodeId = [] then
      some { thread with phase := .running 0 0 [.idle 0] true }
    else some (thread.atEdge graph 0 items true)
  | _, _ => none

/-- A worker of the pool takes the next item. -/
def takeItem : Option NodeThread :=
  match thread.phase with
  | .running edgeNo (pending + 1) slots allOk =>
    if slots.length < thread.poolWidth graph edgeNo then
      some { thread with phase := .running edgeNo pending (slots ++ [.idle 0]) allOk }
    else none
  | _ => none

/-- The pool of an edge is closed, and the thread goes on to the next edge or ends. -/
def closePool (items : ℕ) : Option NodeThread :=
  match thread.phase with
  | .running edgeNo 0 [] allOk =>
    if edgeNo + 1 < (graph.bucketEdges thread.node.nodeId).length then
      some (thread.atEdge graph (edgeNo + 1) items allOk)
    else some { thread with phase := .ended allOk }
  | _ => none

/-- The thread has come to its end. -/
def hasEnded (thread : NodeThread) : Bool :=
  match thread.phase with
  | .ended _ => true
  | _ => false

/-- The dispatches, after a step of the one with the number. -/
def replace (slots : List JobSlot) (slotNo : ℕ) : Option JobSlot → List JobSlot
  | some slot => slots.set slotNo slot
  | none => slots.eraseIdx slotNo

/-- A step of one dispatch, and whether it leaves a job in flight. -/
def dispatchStep (stopped : Bool) (slotNo : ℕ) (action : SlotAction) :
    Option (NodeThread × Bool) :=
  match thread.phase with
  | .running edgeNo pending slots allOk =>
    (slots[slotNo]?).bind fun slot => (slot.step thread.node stopped action).map fun result =>
      ({ thread with
          phase := .running edgeNo pending (replace slots slotNo result.slot) (allOk && result.ok) },
        result.stray)
  | _ => none

end NodeThread

/-! ### The run -/

/-- The threads and jobs of a run. -/
structure RunJobs where
  waves : List (List String)
  cancelledOrFailed : Finset String := ∅
  threads : List NodeThread := []
  /-- the versions of the jobs in flight that nobody waits for -/
  strays : List FunctionVersionId := []
  stopped : Bool := false

inductive RunJobsAction
  | nextWave
  | start (threadNo items : ℕ)
  | takeItem (threadNo : ℕ)
  | closePool (threadNo items : ℕ)
  | dispatch (threadNo slotNo : ℕ) (action : SlotAction)
  | strayEnds (strayNo : ℕ)
  | stop

namespace RunJobs

variable (graph : ChoreographyGraph)

/-- The jobs of a version that are in flight. -/
def inFlight (s : RunJobs) (v : FunctionVersionId) : ℕ :=
  s.strays.count v +
    (s.threads.map fun thread => if thread.node.version? = some v then thread.jobs else 0).sum

/-- What is cancelled once the futures of the wave are collected. -/
def cancelledAfter (s : RunJobs) : Finset String :=
  s.threads.foldl
    (fun cancelled thread =>
      if thread.phase = .ended false then cancelled ∪ downstreamOf graph thread.node.nodeId
      else cancelled)
    s.cancelledOrFailed

/-- The threads of a wave. -/
def waveThreads (cancelled : Finset String) (wave : List String) : List NodeThread :=
  ((wave.filter (· ∉ cancelled)).filterMap fun nodeId => graph.nodesById.lookup nodeId).map
    fun node => ⟨node, .queued⟩

/-- A thread is replaced by what a step makes of it. -/
def stepThread (s : RunJobs) (threadNo : ℕ) (next : NodeThread → Option NodeThread) :
    Option RunJobs :=
  (s.threads[threadNo]?).bind fun thread => (next thread).map fun thread' =>
    { s with threads := s.threads.set threadNo thread' }

/-- A step of a run. -/
def step (s : RunJobs) : RunJobsAction → Option RunJobs
  | .nextWave =>
    match s.waves with
    | [] => none
    | wave :: waves =>
      -- the pool of a wave is left when all of its threads have ended
      if s.stopped = false ∧ s.threads.all NodeThread.hasEnded = true then
        some
          { s with
            waves := waves
            cancelledOrFailed := s.cancelledAfter graph
            threads := waveThreads graph (s.cancelledAfter graph) wave }
      else none
  | .start threadNo items => s.stepThread threadNo fun thread => thread.start graph items
  | .takeItem threadNo => s.stepThread threadNo fun thread => thread.takeItem graph
  | .closePool threadNo items => s.stepThread threadNo fun thread => thread.closePool graph items
  | .dispatch threadNo slotNo action =>
    (s.threads[threadNo]?).bind fun thread =>
      (thread.dispatchStep s.stopped slotNo action).map fun result =>
        { s with
          threads := s.threads.set threadNo result.1
          strays := (if result.2 then thread.node.version?.toList else []) ++ s.strays }
  | .strayEnds strayNo =>
    if strayNo < s.strays.length then some { s with strays := s.strays.eraseIdx strayNo } else none
  | .stop => some { s with stopped := true }

/-- The run before its first wave; a graph with a cycle has no waves. -/
def initial : RunJobs where
  waves :=
    match topologicalWaves graph with
    | .ok waves => waves
    | .error _ => []

/-- The version that the node of a thread runs. -/
def versionOf (s : RunJobs) (threadNo : ℕ) : Option FunctionVersionId :=
  (s.threads[threadNo]?).bind fun thread => thread.node.version?

/-- No job is submitted while a stray of the same version is in flight. -/
def NoStray (s : RunJobs) : RunJobsAction → Prop
  | .dispatch threadNo _ (.submit _) => ∀ v ∈ s.strays, s.versionOf threadNo ≠ some v
  | _ => True

instance (s : RunJobs) : ∀ action, Decidable (NoStray s action)
  | .dispatch threadNo _ (.submit _) =>
    inferInstanceAs (Decidable (∀ v ∈ s.strays, s.versionOf threadNo ≠ some v))
  | .dispatch _ _ .look | .dispatch _ _ .jobEnds | .dispatch _ _ (.fetch _)
  | .dispatch _ _ .giveUp | .nextWave | .start _ _ | .takeItem _ | .closePool _ _ | .strayEnds _
  | .stop => .isTrue trivial

end RunJobs

end Axo
