import Axo.Consensus.Bully

/-!
# A consensus tick

`run_consensus_tick` of `service/consensus_loop.py`, up to the replication at its end: the leader
view is recomputed from the membership snapshot, and the events of the tick are emitted.  Sets of
ids are lists without repetition.
-/

namespace Axo

/-- The bus events of a tick, with their payloads. -/
inductive ConsensusEvent
  | quorumLost (term memberCount quorumSize : ℕ)
  | quorumRestored (term memberCount quorumSize : ℕ)
  | degraded (term memberCount quorumSize : ℕ) (evictedPeerId : EndpointId)
  | leaderElected (leaderIds : Finset EndpointId) (term : ℕ)
  | consensusViewChanged (term : ℕ) (wasLeader isLeader : Bool) (leaderIds : Finset EndpointId)
  deriving DecidableEq

/-- A strict majority of the largest cluster seen. -/
def quorumSize (highWaterMark : ℕ) : ℕ := highWaterMark / 2 + 1

/-- `member_ids`: the members of a snapshot and the node itself. -/
def memberIdsOf (selfId : EndpointId) (members : List EndpointId) : List EndpointId :=
  (selfId :: members).dedup

/-- The quorum events of a tick; there are none at the first. -/
def quorumEvents (term : ℕ) (highWaterMark : ℕ) (previousMemberIds : Option (List EndpointId))
    (memberIds : List EndpointId) : List ConsensusEvent :=
  match previousMemberIds with
  | none => []
  | some previous =>
    let sizeAfter := quorumSize (max highWaterMark memberIds.length)
    let hadQuorum := quorumSize highWaterMark ≤ previous.length
    let hasQuorum := sizeAfter ≤ memberIds.length
    if hadQuorum ∧ ¬ hasQuorum then [.quorumLost term memberIds.length sizeAfter]
    else if ¬ hadQuorum ∧ hasQuorum then [.quorumRestored term memberIds.length sizeAfter]
    else if hasQuorum then
      (previous.filter fun peerId => peerId ∉ memberIds).map
        (.degraded term memberIds.length sizeAfter)
    else []

/-- The events about the leader view of a tick. -/
def viewEvents (selfId : EndpointId) (previous view : LeaderView) : List ConsensusEvent :=
  (if view.term ≠ previous.term then [.leaderElected view.leaderIds view.term] else []) ++
    let wasLeader := decide (selfId ∈ previous.leaderIds)
    let isLeader := decide (selfId ∈ view.leaderIds)
    if wasLeader ≠ isLeader then
      [.consensusViewChanged view.term wasLeader isLeader view.leaderIds]
    else []

/-- What a tick leaves behind. -/
structure ConsensusTick where
  elector : BullyLeaderElector
  highWaterMark : ℕ
  memberIds : List EndpointId
  events : List ConsensusEvent

/-- `run_consensus_tick`. -/
def runConsensusTick (elector : BullyLeaderElector) (members : List EndpointId) (selfId : EndpointId)
    (highWaterMark : ℕ) (previousMemberIds : Option (List EndpointId)) : ConsensusTick :=
  let elector' := elector.recompute members
  let memberIds := memberIdsOf selfId members
  { elector := elector'
    highWaterMark := max highWaterMark memberIds.length
    memberIds := memberIds
    events := quorumEvents elector'.view.term highWaterMark previousMemberIds memberIds ++
      viewEvents selfId elector.view elector'.view }

end Axo
