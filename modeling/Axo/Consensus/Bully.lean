import Axo.Consensus.Concurrency

/-!
# The leader elector

`BullyLeaderElector` after `core/consensus/bully.py`: the leader is the member with the highest
id, recomputed from each membership snapshot.  The time of a decision (`decided_at`) is left out,
since nothing reads it.
-/

namespace Axo

/-- One consensus round's outcome. -/
structure LeaderView where
  leaderIds : Finset EndpointId
  term : ℕ
  deriving DecidableEq

/-- `BullyLeaderElector`. -/
structure BullyLeaderElector where
  selfId : EndpointId
  view : LeaderView
  deriving DecidableEq

namespace BullyLeaderElector

/-- A fresh elector considers its own node the leader. -/
def new (selfId : EndpointId) : BullyLeaderElector :=
  { selfId := selfId
    view := { leaderIds := {selfId}, term := 0 } }

/-- The highest id among the members and the node itself. -/
def winner (elector : BullyLeaderElector) (members : List EndpointId) : EndpointId :=
  members.foldl max elector.selfId

/-- `recompute`: a new term begins when the winner changes. -/
def recompute (elector : BullyLeaderElector) (members : List EndpointId) : BullyLeaderElector :=
  if elector.view.leaderIds ≠ {elector.winner members} then
    { elector with
      view := { leaderIds := {elector.winner members}, term := elector.view.term + 1 } }
  else elector

/-- `is_leader`. -/
def isLeader (elector : BullyLeaderElector) (peerId : EndpointId) : Bool :=
  peerId ∈ elector.view.leaderIds

/-- The winner is the highest of the ids. -/
theorem winner_eq_of_le {elector : BullyLeaderElector} {members : List EndpointId}
    {w : EndpointId} (hself : elector.selfId ≤ w) (hmembers : ∀ m ∈ members, m ≤ w)
    (hw : w = elector.selfId ∨ w ∈ members) : elector.winner members = w := by
  unfold winner
  generalize elector.selfId = start at hself hw ⊢
  induction members generalizing start with
  | nil => exact (hw.resolve_right List.not_mem_nil).symm
  | cons m members ih =>
    have hm := hmembers m List.mem_cons_self
    rw [List.foldl_cons]
    refine ih (fun m' hm' => hmembers m' (List.mem_cons_of_mem m hm')) _ (max_le hself hm) ?_
    rcases hw with rfl | hw
    · exact Or.inl (max_eq_left hm).symm
    · rcases List.mem_cons.1 hw with rfl | hw
      · exact Or.inl (max_eq_right hself).symm
      · exact Or.inr hw

theorem recompute_of_winner {elector : BullyLeaderElector} {members : List EndpointId}
    (h : elector.view.leaderIds = {elector.winner members}) :
    elector.recompute members = elector := by
  unfold recompute
  rw [if_neg (not_not_intro h)]

/-- After a look at the members the leader is the winner. -/
theorem leaderIds_recompute (elector : BullyLeaderElector) (members : List EndpointId) :
    (elector.recompute members).view.leaderIds = {elector.winner members} := by
  unfold recompute
  split_ifs with h
  · rfl
  · exact not_not.1 h

theorem selfId_recompute (elector : BullyLeaderElector) (members : List EndpointId) :
    (elector.recompute members).selfId = elector.selfId := by
  unfold recompute
  split_ifs <;> rfl

end BullyLeaderElector

end Axo
