import Axo.Consensus.LedgerRuns
import Axo.Service.Cluster
import Axo.Service.ConsensusLoop

/-!
# Failover of the ledger

Every node of the cluster has an elector and a ledger of its own, both fresh when it boots.  A
tick that sees the node become leader starts a thread that reconciles the ledger
(`_on_consensus_view_changed_for_concurrency`); requests are answered by whoever is leader in its
own view.

* `ReconcileThread` is a running `_reconcile_concurrency_ledger`;
* `EndpointNode` is a node, with what its heartbeat loop keeps between two ticks;
* `Failover`, `FailoverAction` and `Failover.step` are the system.

`takeOvers`, `reconciled`, `grantedBy` and `boots` are not in the code: they count what happened.
Requests, releases and gossip may reach any node at any time and with any content.
-/

namespace Axo

open ConcurrencyLedger

/-- A thread that runs `_reconcile_concurrency_ledger`. -/
structure ReconcileThread where
  /-- the take-over that started it -/
  takeOver : ℕ
  /-- `none` before `begin_reconciliation` -/
  progress : Option Reconciliation
  deriving DecidableEq

/-- A running node. -/
structure EndpointNode where
  elector : BullyLeaderElector
  ledger : ConcurrencyLedger
  /-- `_cluster_high_water` -/
  clusterHighWater : ℕ
  /-- `_cluster_member_ids` -/
  clusterMemberIds : Option (List EndpointId)
  threads : List ReconcileThread
  incarnation : ℕ
  /-- the take-overs of leadership since the boot -/
  takeOvers : ℕ
  /-- the take-overs whose reconciliation is complete -/
  reconciled : List ℕ

/-- A container, or a grant that its endpoint has still to act on, with the ledger that granted
the slot. -/
structure GrantedContainer where
  slot : Slot
  grantedBy : EndpointId × ℕ
  deriving DecidableEq

/-- The cluster. -/
structure Failover where
  nodes : EndpointId → Option EndpointNode
  boots : EndpointId → ℕ
  pending : List GrantedContainer
  containers : List GrantedContainer

/-- One step of the cluster. -/
inductive FailoverAction
  /-- a node boots, or boots again -/
  | boot (endpointId : EndpointId)
  | stop (endpointId : EndpointId)
  /-- a consensus tick, with the membership snapshot it reads -/
  | tick (endpointId : EndpointId) (members : List EndpointId)
  | ingest (endpointId peerId : EndpointId) (containerPools : Dict String (Dict String ℤ))
  /-- `reap_unknown_owners` of the heartbeat loop -/
  | reap (endpointId : EndpointId)
  /-- a leader answers a `CONCURRENCY_SLOT_REQUEST` -/
  | answer (endpointId requesterId : EndpointId) (key : Key) (maxConcurrency : ℤ) (draw : Draw)
  /-- a leader handles a `CONCURRENCY_SLOT_RELEASE` -/
  | release (endpointId : EndpointId) (slot : Slot)
  | summon (container : GrantedContainer)
  /-- the answer is lost, or the summon fails -/
  | forgo (container : GrantedContainer)
  /-- a container crashes or is dismissed -/
  | die (container : GrantedContainer)
  /-- a thread calls `begin_reconciliation`, with the peers that it will ask -/
  | reconcileBegin (endpointId : EndpointId) (thread : ReconcileThread) (peers : List EndpointId)
  /-- a thread reads the next report; a peer that does not answer counts as reporting nothing -/
  | reconcilePull (endpointId : EndpointId) (thread : ReconcileThread) (answered : Bool)
  /-- a thread calls `reconcile` -/
  | reconcileWrite (endpointId : EndpointId) (thread : ReconcileThread)

/-- The running node that a step is about. -/
def FailoverAction.subject : FailoverAction → Option EndpointId
  | .tick e _ | .ingest e _ _ | .reap e | .answer e _ _ _ _ | .release e _
  | .reconcileBegin e _ _ | .reconcilePull e _ _ | .reconcileWrite e _ => some e
  | .boot _ | .stop _ | .summon _ | .forgo _ | .die _ => none

namespace EndpointNode

/-- A node that has just booted. -/
def fresh (strategy : String) (endpointId : EndpointId) (incarnation : ℕ) : EndpointNode where
  elector := .new endpointId
  ledger := new strategy
  clusterHighWater := 0
  clusterMemberIds := none
  threads := []
  incarnation := incarnation
  takeOvers := 0
  reconciled := []

/-- `elector.is_leader(self_id)`. -/
def isLeader (n : EndpointNode) : Bool := n.elector.isLeader n.elector.selfId

/-- The members of the node's current view. -/
def viewMembers (n : EndpointNode) : List EndpointId :=
  n.clusterMemberIds.getD [n.elector.selfId]

/-- The subscriber of `CONSENSUS_VIEW_CHANGED_EVENT`. -/
def onConsensusViewChanged (n : EndpointNode) : ConsensusEvent → EndpointNode
  | .consensusViewChanged _ wasLeader isLeader _ =>
    if isLeader = true ∧ wasLeader = false then
      { n with
        takeOvers := n.takeOvers + 1
        threads := ⟨n.takeOvers + 1, none⟩ :: n.threads }
    else n
  | _ => n

/-- The tick of the heartbeat loop, with the subscriber of its events. -/
def tick (n : EndpointNode) (members : List EndpointId) : EndpointNode :=
  let t := runConsensusTick n.elector members n.elector.selfId n.clusterHighWater n.clusterMemberIds
  t.events.foldl onConsensusViewChanged
    { n with
      elector := t.elector
      clusterHighWater := t.highWaterMark
      clusterMemberIds := some t.memberIds }

/-- A thread goes on. -/
def advance (n : EndpointNode) (thread : ReconcileThread) (reconciliation : Reconciliation) :
    List ReconcileThread :=
  { thread with progress := some reconciliation } :: n.threads.erase thread

/-- The reconciliation that the node's last take-over started is complete. -/
def Reconciled (n : EndpointNode) : Prop := 0 < n.takeOvers ∧ n.takeOvers ∈ n.reconciled

end EndpointNode

namespace Failover

/-- No node has booted yet. -/
def init : Failover where
  nodes := fun _ => none
  boots := fun _ => 0
  pending := []
  containers := []

/-- What an endpoint reports about itself. -/
def reportOf (s : Failover) (endpointId : EndpointId) : List ContainerCountEntry :=
  (s.containers.filter fun c => c.slot.endpointId = endpointId).map fun c =>
    entryOf c.slot.key c.slot.slotIndex

/-- A member of the node's view holds a container of the key that the node's ledger did not
grant. -/
def ForeignLive (s : Failover) (n : EndpointNode) (key : Key) : Prop :=
  ∃ c ∈ s.containers, c.slot.key = key ∧ c.slot.endpointId ∈ n.viewMembers ∧
    c.grantedBy ≠ (n.elector.selfId, n.incarnation)

instance (s : Failover) (n : EndpointNode) (key : Key) : Decidable (s.ForeignLive n key) :=
  inferInstanceAs (Decidable (∃ c ∈ s.containers, _ ∧ _ ∧ _))

/-- Another state of one node. -/
def setNode (s : Failover) (endpointId : EndpointId) (n : EndpointNode) : Failover :=
  { s with nodes := Function.update s.nodes endpointId (some n) }

/-- A granted slot on its way to the requester. -/
def granted (s : Failover) (n : EndpointNode) (requesterId : EndpointId) (key : Key) :
    SlotDecision → Failover
  | .granted i =>
    { s with pending := ⟨⟨requesterId, key, i⟩, (n.elector.selfId, n.incarnation)⟩ :: s.pending }
  | _ => s

@[simp] theorem nodes_granted (s : Failover) (n : EndpointNode) (requesterId : EndpointId)
    (key : Key) (decision : SlotDecision) :
    (s.granted n requesterId key decision).nodes = s.nodes := by
  cases decision <;> rfl

/-- What a step does to the node it is about. -/
def onNode (s : Failover) (n : EndpointNode) : FailoverAction → Option EndpointNode
  | .tick _ members => some (n.tick members)
  | .ingest _ peerId containerPools =>
    some { n with ledger := n.ledger.ingestPeerMetrics peerId containerPools }
  | .reap _ =>
    n.clusterMemberIds.bind fun memberIds =>
      if n.isLeader = true then some { n with ledger := n.ledger.reapUnknownOwners memberIds }
      else none
  | .answer _ requesterId key maxConcurrency draw =>
    if n.isLeader = true then
      some { n with ledger := (n.ledger.requestSlot key maxConcurrency requesterId draw).2 }
    else none
  | .release _ slot =>
    if n.isLeader = true then
      some { n with ledger := n.ledger.releaseSlot slot.key slot.slotIndex slot.endpointId }
    else none
  | .reconcileBegin endpointId thread peers =>
    if thread ∈ n.threads ∧ thread.progress = none then
      some { n with
        ledger := n.ledger.beginReconciliation
        threads := n.advance thread { toAsk := endpointId :: peers, reports := ∅ } }
    else none
  | .reconcilePull endpointId thread answered =>
    thread.progress.bind fun r =>
      match r.toAsk with
      | [] => none
      | e :: rest =>
        if thread ∈ n.threads then
          let report := if e = endpointId ∨ answered = true then s.reportOf e else []
          some { n with
            threads := n.advance thread { toAsk := rest, reports := r.reports.insert e report } }
        else none
  | .reconcileWrite _ thread =>
    thread.progress.bind fun r =>
      if thread ∈ n.threads ∧ r.toAsk = [] then
        some { n with
          ledger := n.ledger.reconcile r.reports
          threads := n.threads.erase thread
          reconciled := thread.takeOver :: n.reconciled }
      else none
  | _ => none

/-- One step, where it is possible. -/
def step (strategy : String) (s : Failover) (a : FailoverAction) : Option Failover :=
  match a with
  | .boot e =>
    some { s.setNode e (.fresh strategy e (s.boots e)) with
      boots := Function.update s.boots e (s.boots e + 1)
      pending := s.pending.filter fun c => c.slot.endpointId ≠ e
      containers := s.containers.filter fun c => c.slot.endpointId ≠ e }
  | .stop e => some { s with nodes := Function.update s.nodes e none }
  | .summon c =>
    if c ∈ s.pending then
      some { s with pending := s.pending.erase c, containers := c :: s.containers }
    else none
  | .forgo c => if c ∈ s.pending then some { s with pending := s.pending.erase c } else none
  | .die c =>
    if c ∈ s.containers then some { s with containers := s.containers.erase c } else none
  | .answer e requesterId key maxConcurrency draw =>
    (s.nodes e).bind fun n => (s.onNode n a).map fun n' =>
      (s.setNode e n').granted n requesterId key
        (n.ledger.requestSlot key maxConcurrency requesterId draw).1
  | .tick e _ | .ingest e _ _ | .reap e | .release e _ | .reconcileBegin e _ _ |
    .reconcilePull e _ _ | .reconcileWrite e _ =>
    (s.nodes e).bind fun n => (s.onNode n a).map fun n' => s.setNode e n'

end Failover

end Axo
