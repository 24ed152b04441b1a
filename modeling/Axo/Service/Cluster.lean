import Axo.Consensus.Reconcile
import Axo.Lib.Transition

/-!
# Slots and containers across a cluster

One leader with its ledger, any number of endpoints with their container handles, and the
messages between them.  A step of the system is one `ClusterAction`; what takes time in the code
(a `dismiss` that stops a container, a release on its way to the leader, a reconciliation that
asks one peer after the other) is spread over several actions, so that anything may happen in
between.

* `Handle` is a `ContainerHandle`; the statuses between `STARTING` and `IDLE` are one, `up`;
* `Teardown` is a running call of `dismiss`, and of the crash, timeout or cancel handling around
  it, which releases the slot a second time;
* `Release` is a `CONCURRENCY_SLOT_RELEASE` in flight;
* `Reconciliation` is a running `_reconcile_concurrency_ledger`.

`clock`, `grantedAt` and `diedAt` are not in the code: they say when a slot was handed out and
when a container stopped being live.
-/

namespace Axo

open ConcurrencyLedger

/-- A slot of a pool, at an endpoint. -/
structure Slot where
  endpointId : EndpointId
  key : Key
  slotIndex : ℤ
  deriving DecidableEq

/-- The `ContainerStatus` of a handle. -/
inductive HandleStatus
  /-- starting, bootstrapping, ready, busy or idle -/
  | up
  | crashed
  | dismissed
  deriving DecidableEq

/-- A `ContainerHandle`. -/
structure Handle where
  slot : Slot
  status : HandleStatus
  /-- still in the endpoint's `_handles` -/
  inPool : Bool
  diedAt : ℕ
  deriving DecidableEq

/-- How far a teardown is. -/
inductive TeardownPhase
  /-- `_handle_crash`, `_handle_timeout` or `cancel` goes on, and has not set `CRASHED` yet -/
  | noticed
  /-- `dismiss` is about to be called -/
  | selected
  /-- `dismiss` has set `DISMISSED` and is stopping the container -/
  | stopping
  /-- `dismiss` has returned and the second release is due -/
  | releasing
  deriving DecidableEq

/-- A running teardown of a handle; `again` when the caller of `dismiss` releases the slot once
more. -/
structure Teardown where
  handle : ℕ
  again : Bool
  phase : TeardownPhase
  deriving DecidableEq

/-- A release in flight to the leader. -/
structure Release where
  slot : Slot
  diedAt : ℕ
  deriving DecidableEq

/-- A running reconciliation: the endpoints still to be asked, and the reports so far. -/
structure Reconciliation where
  toAsk : List EndpointId
  reports : Reports
  deriving DecidableEq

/-- The cluster. -/
structure Cluster where
  ledger : ConcurrencyLedger
  /-- every handle ever made -/
  handles : List Handle
  /-- grants that an endpoint has received and not yet acted on -/
  pending : List Slot
  teardowns : List Teardown
  releases : List Release
  reconciliations : List Reconciliation
  clock : ℕ
  grantedAt : Key → ℤ → ℕ

/-- One step of the cluster. -/
inductive ClusterAction
  /-- the leader answers a request and the endpoint receives the answer -/
  | request (endpointId : EndpointId) (key : Key) (draw : Draw)
  /-- the leader answers a request and the answer is lost, or comes after the timeout -/
  | requestLost (endpointId : EndpointId) (key : Key) (draw : Draw)
  /-- `summon_at` with a granted slot -/
  | summon (slot : Slot)
  /-- `summon_at` fails, and the endpoint releases the slot -/
  | summonErr (slot : Slot)
  /-- the spawn or the bootstrap of a container fails in the background -/
  | spawnFail (handle : ℕ)
  /-- a live status is written over `CRASHED` or `DISMISSED`: `IDLE` by the pump after a late result,
  `BOOTSTRAPPING` or `READY` by a start that goes on, `BUSY` by `_enqueue_job` -/
  | revive (handle : ℕ)
  /-- a sweep, `_dismiss_stale` or an operator picks a handle of a pool -/
  | sweep (handle : ℕ)
  /-- `_handle_crash` or `_handle_timeout` finds its handle neither crashed nor dismissed -/
  | notice (handle : ℕ)
  /-- `cancel` finds the job in flight on a handle of a pool -/
  | cancel (handle : ℕ)
  /-- the crash, timeout or cancel handling sets `CRASHED` -/
  | mark (teardown : Teardown)
  /-- `dismiss` sets `DISMISSED` -/
  | dismiss (teardown : Teardown)
  /-- the container is stopped: `dismiss` takes the handle out of its pool, and the subscriber of
  `CONTAINER_DISMISSED_EVENT` releases the slot -/
  | stopOk (teardown : Teardown)
  /-- stopping the container fails: `dismiss` returns without an event -/
  | stopErr (teardown : Teardown)
  /-- the crash, timeout or cancel handling releases the slot -/
  | releaseAgain (teardown : Teardown)
  /-- a release reaches the leader -/
  | deliver (release : Release)
  /-- a release is lost -/
  | loseRelease (release : Release)
  /-- `_reconcile_concurrency_ledger` starts, with the peers that it will ask -/
  | reconcileBegin (peers : List EndpointId)
  /-- the next endpoint is asked; a peer that does not answer counts as reporting nothing -/
  | reconcilePull (reconciliation : Reconciliation) (answered : Bool)
  /-- all have been asked, and the ledger is rebuilt -/
  | reconcileWrite (reconciliation : Reconciliation)

/-- The handle with a dead status; a handle that is dead already keeps the time of its death. -/
def Handle.die (H : Handle) (status : HandleStatus) (now : ℕ) : Handle :=
  { H with status := status, diedAt := if H.status = .up then now else H.diedAt }

/-- The entry of a handle in its endpoint's report. -/
def Handle.entry (H : Handle) : ContainerCountEntry := entryOf H.slot.key H.slot.slotIndex

namespace Cluster

/-- A fresh ledger, and nothing else. -/
def init (strategy : String) : Cluster where
  ledger := new strategy
  handles := []
  pending := []
  teardowns := []
  releases := []
  reconciliations := []
  clock := 0
  grantedAt := fun _ _ => 0

/-- What an endpoint reports about itself. -/
def reportOf (s : Cluster) (endpointId : EndpointId) : List ContainerCountEntry :=
  (s.handles.filter fun H => H.slot.endpointId = endpointId && H.inPool && H.status = .up).map
    Handle.entry

/-- The number of live containers of a key, over all endpoints. -/
def liveCount (s : Cluster) (key : Key) : ℕ :=
  (s.handles.filter fun H => H.slot.key = key && H.status = .up).length

/-- The ledger after a request, and the clock. -/
def answered (s : Cluster) (ledger : ConcurrencyLedger) (key : Key) : SlotDecision → Cluster
  | .granted i =>
    { s with
      ledger := ledger
      clock := s.clock + 1
      grantedAt := fun key' i' => if key' = key ∧ i' = i then s.clock else s.grantedAt key' i' }
  | _ => { s with ledger := ledger }

/-- A granted slot in the hands of the endpoint. -/
def received (s : Cluster) (endpointId : EndpointId) (key : Key) : SlotDecision → Cluster
  | .granted i => { s with pending := ⟨endpointId, key, i⟩ :: s.pending }
  | _ => s

/-- A teardown goes on to another phase. -/
def advance (s : Cluster) (t : Teardown) (phase : TeardownPhase) : List Teardown :=
  { t with phase := phase } :: s.teardowns.erase t

/-- `dismiss` returns: the caller goes on with the second release, or the teardown is over. -/
def afterDismiss (s : Cluster) (t : Teardown) : List Teardown :=
  if t.again then s.advance t .releasing else s.teardowns.erase t

/-- One step, where it is possible. -/
def step (leader : EndpointId) (maxConcurrency : Key → ℤ) (s : Cluster) :
    ClusterAction → Option Cluster
  | .request endpointId key draw =>
    let (decision, ledger) := s.ledger.requestSlot key (maxConcurrency key) endpointId draw
    some ((s.answered ledger key decision).received endpointId key decision)
  | .requestLost endpointId key draw =>
    let (decision, ledger) := s.ledger.requestSlot key (maxConcurrency key) endpointId draw
    some (s.answered ledger key decision)
  | .summon slot =>
    if slot ∈ s.pending then
      some { s with
        pending := s.pending.erase slot
        handles := s.handles ++ [{ slot := slot, status := .up, inPool := true, diedAt := 0 }] }
    else none
  | .summonErr slot =>
    if slot ∈ s.pending then
      some { s with
        pending := s.pending.erase slot
        releases := { slot := slot, diedAt := s.clock } :: s.releases }
    else none
  | .spawnFail h =>
    (s.handles[h]?).map fun H => { s with handles := s.handles.set h (H.die .crashed s.clock) }
  | .revive h =>
    (s.handles[h]?).bind fun H =>
      if H.status ≠ .up then
        some { s with handles := s.handles.set h { H with status := .up } }
      else none
  | .sweep h =>
    (s.handles[h]?).bind fun H =>
      if H.inPool = true then
        some { s with teardowns := ⟨h, false, .selected⟩ :: s.teardowns }
      else none
  | .notice h =>
    (s.handles[h]?).bind fun H =>
      if H.status = .up then
        some { s with teardowns := ⟨h, true, .noticed⟩ :: s.teardowns }
      else none
  | .cancel h =>
    (s.handles[h]?).bind fun H =>
      if H.inPool = true then
        some { s with teardowns := ⟨h, true, .noticed⟩ :: s.teardowns }
      else none
  | .mark t =>
    (s.handles[t.handle]?).bind fun H =>
      if t ∈ s.teardowns ∧ t.phase = .noticed then
        some { s with
          handles := s.handles.set t.handle (H.die .crashed s.clock)
          teardowns := s.advance t .selected }
      else none
  | .dismiss t =>
    (s.handles[t.handle]?).bind fun H =>
      if t ∈ s.teardowns ∧ t.phase = .selected then
        some { s with
          handles := s.handles.set t.handle (H.die .dismissed s.clock)
          teardowns := s.advance t .stopping }
      else none
  | .stopOk t =>
    (s.handles[t.handle]?).bind fun H =>
      if t ∈ s.teardowns ∧ t.phase = .stopping then
        some { s with
          handles := s.handles.set t.handle { H with inPool := false }
          teardowns := s.afterDismiss t
          releases := { slot := H.slot, diedAt := H.diedAt } :: s.releases }
      else none
  | .stopErr t =>
    if t ∈ s.teardowns ∧ t.phase = .stopping then
      some { s with teardowns := s.afterDismiss t }
    else none
  | .releaseAgain t =>
    (s.handles[t.handle]?).bind fun H =>
      if t ∈ s.teardowns ∧ t.phase = .releasing then
        some { s with
          teardowns := s.teardowns.erase t
          releases := { slot := H.slot, diedAt := H.diedAt } :: s.releases }
      else none
  | .deliver r =>
    if r ∈ s.releases then
      some { s with
        releases := s.releases.erase r
        ledger := s.ledger.releaseSlot r.slot.key r.slot.slotIndex r.slot.endpointId }
    else none
  | .loseRelease r =>
    if r ∈ s.releases then some { s with releases := s.releases.erase r } else none
  | .reconcileBegin peers =>
    some { s with
      ledger := s.ledger.beginReconciliation
      reconciliations := { toAsk := leader :: peers, reports := ∅ } :: s.reconciliations }
  | .reconcilePull r answered =>
    match r.toAsk with
    | [] => none
    | e :: rest =>
      if r ∈ s.reconciliations then
        let report := if e = leader ∨ answered = true then s.reportOf e else []
        some { s with
          reconciliations :=
            { toAsk := rest, reports := r.reports.insert e report } :: s.reconciliations.erase r }
      else none
  | .reconcileWrite r =>
    if r ∈ s.reconciliations ∧ r.toAsk = [] then
      some { s with
        ledger := s.ledger.reconcile r.reports
        reconciliations := s.reconciliations.erase r }
    else none

end Cluster

end Axo
