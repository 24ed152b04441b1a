import Axo.Service.SyncViews

/-!
# A cluster that replicates

Endpoints that boot and restart, see any memberships in any order, push what they flush and pull
one another's cluster state; messages are delayed, lost and overtake one another.

What a state cannot tell of its own past is kept beside it, for reference: the memberships that an
endpoint has seen since it booted (`MembershipHistory`), and for each value in it the change that
the value comes from (`Provenance`), as a number in the list of all changes.
-/

namespace Axo

open Diff

/-- The memberships that an endpoint has seen since it booted, the latest one first. -/
structure MembershipHistory where
  endpoint : EndpointId
  seen : List (List EndpointId)

/-- The endpoint looks at its members once more. -/
def MembershipHistory.see (h : MembershipHistory) (members : List EndpointId) :
    MembershipHistory :=
  { h with seen := members :: h.seen }

/-- The changes that the values of an endpoint come from. -/
structure Provenance where
  stored : Diff SyncKey ℕ
  pending : Diff SyncKey ℕ
  held : Diff SyncKey ℕ

namespace Provenance

/-- Nothing comes from anywhere yet. -/
def boot : Provenance where
  stored := Diff.empty
  pending := Diff.empty
  held := Diff.empty

/-- The endpoint makes the change number `i`. -/
def change (p : Provenance) (k : SyncKey) (i : ℕ) : Provenance :=
  { p with
    stored := p.stored.andThen (single k i)
    pending := p.pending.andThen (single k i) }

/-- What was pending is held from now on. -/
def flush (p : Provenance) : Provenance :=
  { p with
    pending := Diff.empty
    held := p.held.andThen p.pending }

/-- Changes are received, some of them deletions that the tracker notes. -/
def receive (p : Provenance) (changes : Diff SyncKey ℕ) (deleted : SyncDiff) : Provenance where
  stored := p.stored.andThen changes
  pending := p.pending.andThen (changes.on deleted)
  held := p.held.andThen changes

end Provenance

/-- A push on its way. -/
structure PushMessage where
  /-- what its sender had seen when it sent it -/
  sent : MembershipHistory
  target : EndpointId
  push : StatePush
  /-- the changes that its entries come from -/
  changes : Diff SyncKey ℕ

/-- The answer to a `STATE_SYNC_PULL` on its way. -/
structure PullReply where
  target : EndpointId
  state : ClusterState
  /-- whose history its term counts -/
  termFrom : Option MembershipHistory
  /-- the changes that its entries come from -/
  changes : Diff SyncKey ℕ

/-- An endpoint, with what is kept of its past. -/
structure SyncMember where
  node : SyncNode
  history : MembershipHistory
  /-- whose history the term of its cluster state counts -/
  termFrom : Option MembershipHistory
  provenance : Provenance

/-- A flush falls due at a tick. -/
def SyncNode.flushes (cfg : SyncConfig) (n : SyncNode) (members : List EndpointId) (now : ℚ) :
    Bool :=
  (n.recompute members).isLeader ∧
    n.dirtyTracker.shouldFlush cfg.maxDirtyCount now cfg.idleSeconds

namespace SyncMember

/-- An endpoint that has just booted. -/
def boot (e : EndpointId) : SyncMember where
  node := .boot e
  history := ⟨e, []⟩
  termFrom := none
  provenance := .boot

/-- A registry call; the change that it makes gets the number `i`. -/
def perform (cfg : SyncConfig) (m : SyncMember) (op : RegistryOp) (now : ℚ) (i : ℕ) :
    SyncMember :=
  { m with
    node := m.node.perform cfg op now
    provenance :=
      (m.node.changeOf cfg op now).elim m.provenance fun change =>
        m.provenance.change change.1 i }

/-- A tick.  A flush folds no leader view into the cluster state, so its term stays. -/
def tick (cfg : SyncConfig) (m : SyncMember) (members : List EndpointId) (now : ℚ) : SyncMember :=
  { m with
    node := (m.node.tick cfg members now).1
    history := m.history.see members
    provenance := if m.node.flushes cfg members now then m.provenance.flush else m.provenance }

/-- The pushes of a tick. -/
def pushes (cfg : SyncConfig) (m : SyncMember) (members : List EndpointId) (now : ℚ) :
    List PushMessage :=
  (m.node.tick cfg members now).2.map fun e =>
    { sent := m.history.see members
      target := e.1
      push := e.2
      changes := m.provenance.pending }

/-- `StateSyncPushHandler.handle`; a stale push changes nothing. -/
def receive (m : SyncMember) (msg : PushMessage) (now : ℚ) : SyncMember :=
  match m.node.handlePush msg.push now with
  | .error _ => m
  | .ok node =>
    { m with
      node := node
      termFrom := some msg.sent
      provenance :=
        m.provenance.receive msg.changes (deletedData msg.push.changes m.node.stored) }

/-- `StateSyncPullHandler.handle`. -/
def answer (m : SyncMember) (target : EndpointId) : PullReply where
  target := target
  state := m.node.state
  termFrom := m.termFrom
  changes := m.provenance.held

/-- `_pull_state_sync`, from the answer on: a newer version replaces the cluster state. -/
def adopt (m : SyncMember) (reply : PullReply) (now : ℚ) : SyncMember :=
  if reply.state.version ≤ m.node.state.version then m
  else
    { m with
      node := m.node.pullFrom reply.state now
      termFrom := reply.termFrom
      provenance :=
        { m.provenance.receive reply.changes (deletedData reply.state.held m.node.stored) with
          held := reply.changes } }

end SyncMember

/-- The cluster. -/
structure SyncCluster where
  members : EndpointId → SyncMember
  /-- every change that has been made, the first one first -/
  changes : List SyncChange
  pushes : List PushMessage
  replies : List PullReply

/-- The steps of the cluster. -/
inductive SyncClusterAction
  /-- an endpoint starts, or starts again with nothing but its id -/
  | boot (e : EndpointId)
  | perform (e : EndpointId) (op : RegistryOp) (now : ℚ)
  | tick (e : EndpointId) (members : List EndpointId) (now : ℚ)
  | deliver (i : ℕ) (now : ℚ)
  | lose (i : ℕ)
  | answer (e target : EndpointId)
  | adopt (i : ℕ) (now : ℚ)
  | timeOut (i : ℕ)

namespace SyncCluster

/-- Endpoints that have just booted. -/
def init : SyncCluster where
  members := .boot
  changes := []
  pushes := []
  replies := []

/-- One endpoint takes a step. -/
def set (s : SyncCluster) (e : EndpointId) (m : SyncMember) : SyncCluster :=
  { s with members := Function.update s.members e m }

/-- One step of the cluster. -/
def step (cfg : SyncConfig) (s : SyncCluster) : SyncClusterAction → Option SyncCluster
  | .boot e => some (s.set e (.boot e))
  | .perform e op now =>
    let m := s.members e
    some
      { s.set e (m.perform cfg op now s.changes.length) with
        changes := s.changes ++ (m.node.changeOf cfg op now).toList }
  | .tick e members now =>
    let m := s.members e
    some
      { s.set e (m.tick cfg members now) with
        pushes := s.pushes ++ m.pushes cfg members now }
  | .deliver i now =>
    s.pushes[i]?.map fun msg =>
      { s.set msg.target ((s.members msg.target).receive msg now) with
        pushes := s.pushes.eraseIdx i }
  | .lose i => some { s with pushes := s.pushes.eraseIdx i }
  | .answer e target => some { s with replies := s.replies ++ [(s.members e).answer target] }
  | .adopt i now =>
    s.replies[i]?.map fun reply =>
      { s.set reply.target ((s.members reply.target).adopt reply now) with
        replies := s.replies.eraseIdx i }
  | .timeOut i => some { s with replies := s.replies.eraseIdx i }

/-- What holds of every endpoint still does when one of them has taken a step. -/
theorem forall_set {P : EndpointId → SyncMember → Prop} {s : SyncCluster} {e : EndpointId}
    {m : SyncMember} (h : ∀ e, P e (s.members e)) (hm : P e m) :
    ∀ e', P e' ((s.set e m).members e') :=
  (Function.forall_update_iff s.members P).2 ⟨hm, fun e' _ => h e'⟩

end SyncCluster

namespace SyncNode

variable {cfg : SyncConfig} {n : SyncNode} {now : ℚ}

theorem tick_of_flushes {members : List EndpointId} (h : n.flushes cfg members now = true) :
    n.tick cfg members now = (n.recompute members).flush members :=
  if_pos (of_decide_eq_true h)

theorem tick_of_not_flushes {members : List EndpointId} (h : n.flushes cfg members now ≠ true) :
    n.tick cfg members now = (n.recompute members, []) :=
  if_neg fun hdue => h (decide_eq_true hdue)

end SyncNode

end Axo
