import Axo.Lib.Transition
import Axo.Service.FlushTruth
import Axo.Service.SyncCluster

/-!
# Terms of different endpoints

A term counts the changes of the leader in the view of one endpoint since it booted; the handler
of a push compares it with the term that came with the last push or pull, whoever counted that
one.

* `MembershipHistory.changes` counts the changes of the highest id in the memberships that an
  endpoint has seen, without any elector;
* `TermInv` says that each term in the cluster, held or on its way, is such a count;
* `accepted_iff_of_reach` is the result for whole runs.
-/

namespace Axo

open Transition

namespace MembershipHistory

/-- The highest id that `e` sees. -/
def highestId (e : EndpointId) (members : List EndpointId) : EndpointId := members.foldl max e

/-- Whom `e` takes for the leader after the memberships; itself, before the first of them. -/
def leaderAfter (e : EndpointId) : List (List EndpointId) → EndpointId
  | [] => e
  | members :: _ => highestId e members

/-- How often the leader changes in the memberships. -/
def changesIn (e : EndpointId) : List (List EndpointId) → ℕ
  | [] => 0
  | members :: earlier =>
    changesIn e earlier + if leaderAfter e earlier = highestId e members then 0 else 1

/-- The leader in the view of the endpoint. -/
def leader (h : MembershipHistory) : EndpointId := leaderAfter h.endpoint h.seen

/-- How often it has changed since the endpoint booted. -/
def changes (h : MembershipHistory) : ℕ := changesIn h.endpoint h.seen

/-- The elector has seen just these memberships. -/
structure Shows (h : MembershipHistory) (elector : BullyLeaderElector) : Prop where
  selfId : elector.selfId = h.endpoint
  leaderIds : elector.view.leaderIds = {h.leader}
  term : elector.view.term = h.changes

theorem shows_new (e : EndpointId) : Shows ⟨e, []⟩ (.new e) where
  selfId := rfl
  leaderIds := rfl
  term := rfl

/-- The term of an elector counts the changes of the highest id. -/
theorem Shows.recompute {h : MembershipHistory} {elector : BullyLeaderElector}
    (hshows : h.Shows elector) (members : List EndpointId) :
    (h.see members).Shows (elector.recompute members) := by
  have hwinner : elector.winner members = highestId h.endpoint members := by
    unfold BullyLeaderElector.winner highestId
    rw [hshows.selfId]
  have hchanges : elector.view.leaderIds ≠ {elector.winner members} ↔
      leaderAfter h.endpoint h.seen ≠ highestId h.endpoint members := by
    rw [hwinner, hshows.leaderIds, ne_eq, Finset.singleton_inj]
    rfl
  constructor
  · rw [BullyLeaderElector.selfId_recompute, hshows.selfId]
    rfl
  · rw [BullyLeaderElector.leaderIds_recompute, hwinner]
    rfl
  · show (elector.recompute members).view.term = changesIn h.endpoint (members :: h.seen)
    unfold BullyLeaderElector.recompute changesIn
    by_cases hsame : leaderAfter h.endpoint h.seen = highestId h.endpoint members
    · rw [if_neg fun hne => hchanges.1 hne hsame, if_pos hsame]
      exact hshows.term
    · rw [if_pos (hchanges.2 hsame), if_neg hsame]
      exact congrArg (· + 1) hshows.term

end MembershipHistory

/-- How often the leader had changed for the endpoint that counted the term held here; 0 if none
has been received. -/
def SyncMember.heldChanges (m : SyncMember) : ℕ := m.termFrom.elim 0 MembershipHistory.changes

/-- What an endpoint has seen is in its elector, and the term of its cluster state is a count. -/
structure SyncMember.Counts (e : EndpointId) (m : SyncMember) : Prop where
  endpoint : m.history.endpoint = e
  seen : m.history.Shows m.node.elector
  leaderView : m.node.dirtyTracker.pendingLeaderView = none
  held : m.node.state.term = m.heldChanges

namespace SyncCluster

/-- The target elects the sender, which considers itself the leader. -/
def Elected (s : SyncCluster) (msg : PushMessage) : Prop :=
  (s.members msg.target).node.elector.view.leaderIds = {msg.sent.endpoint} ∧
    (s.members msg.sent.endpoint).node.isLeader = true

instance (s : SyncCluster) (msg : PushMessage) : Decidable (s.Elected msg) :=
  inferInstanceAs (Decidable (_ ∧ _))

/-- The target does not reject the push. -/
def Accepted (s : SyncCluster) (msg : PushMessage) : Prop :=
  ∀ now, ∃ node, (s.members msg.target).node.handlePush msg.push now = .ok node

/-- Each term in the cluster counts the changes of a history. -/
structure TermInv (s : SyncCluster) : Prop where
  members : ∀ e, (s.members e).Counts e
  pushes : ∀ msg ∈ s.pushes, msg.push.term = msg.sent.changes
  replies : ∀ reply ∈ s.replies,
    reply.state.term = reply.termFrom.elim 0 MembershipHistory.changes

end SyncCluster

/-! ### One endpoint -/

namespace SyncMember

variable {cfg : SyncConfig} {e : EndpointId} {m : SyncMember}

theorem counts_boot (e : EndpointId) : (boot e).Counts e where
  endpoint := rfl
  seen := MembershipHistory.shows_new e
  leaderView := rfl
  held := rfl

namespace Counts

theorem perform (h : m.Counts e) (op : RegistryOp) (now : ℚ) (i : ℕ) :
    (m.perform cfg op now i).Counts e := by
  obtain ⟨hrest, -⟩ := SyncNode.perform_cases cfg m.node op now
  refine ⟨h.endpoint, ?_, hrest.leaderView.trans h.leaderView, ?_⟩
  · show m.history.Shows (m.node.perform cfg op now).elector
    rw [hrest.elector]
    exact h.seen
  · show (m.node.perform cfg op now).state.term = m.heldChanges
    rw [hrest.state]
    exact h.held

/-- A change of the leader is counted in the elector alone. -/
theorem tick (h : m.Counts e) (members : List EndpointId) (now : ℚ) :
    (m.tick cfg members now).Counts e := by
  have hseen := h.seen.recompute members
  unfold SyncMember.tick
  by_cases hflush : m.node.flushes cfg members now = true
  · rw [SyncNode.tick_of_flushes hflush]
    refine ⟨h.endpoint, hseen, rfl, ?_⟩
    show (m.node.dirtyTracker.pendingLeaderView.map LeaderView.term).getD m.node.state.term = _
    rw [h.leaderView]
    exact h.held
  · rw [SyncNode.tick_of_not_flushes hflush]
    exact ⟨h.endpoint, hseen, h.leaderView, h.held⟩

theorem pushes (h : m.Counts e) {members : List EndpointId} {now : ℚ} {msg : PushMessage}
    (hmsg : msg ∈ m.pushes cfg members now) : msg.push.term = msg.sent.changes := by
  obtain ⟨⟨target, push⟩, hmem, rfl⟩ := List.mem_map.1 hmsg
  rcases SyncNode.tick_cases cfg m.node members now with htick | ⟨-, -, htick⟩
  · rw [htick] at hmem
    cases hmem
  · rw [htick] at hmem
    rw [(SyncNode.mem_flush hmem).2.2]
    exact (h.seen.recompute members).term

theorem receive (h : m.Counts e) {msg : PushMessage} (hterm : msg.push.term = msg.sent.changes)
    (now : ℚ) : (m.receive msg now).Counts e := by
  unfold SyncMember.receive
  split
  · exact h
  · rename_i node hpush
    obtain ⟨-, -, -, hstate, helector, hview⟩ := SyncNode.handlePush_ok hpush
    refine ⟨h.endpoint, ?_, hview.trans h.leaderView, ?_⟩
    · show m.history.Shows node.elector
      rw [helector]
      exact h.seen
    · show node.state.term = msg.sent.changes
      rw [hstate]
      exact hterm

theorem adopt (h : m.Counts e) {reply : PullReply}
    (hterm : reply.state.term = reply.termFrom.elim 0 MembershipHistory.changes) (now : ℚ) :
    (m.adopt reply now).Counts e := by
  unfold SyncMember.adopt
  split_ifs with hversion
  · exact h
  · rcases SyncNode.pullFrom_cases m.node reply.state now with
      ⟨hold, -⟩ | ⟨-, -, -, hstate, helector, hview⟩
    · exact absurd hold hversion
    · refine ⟨h.endpoint, ?_, hview.trans h.leaderView, ?_⟩
      · show m.history.Shows (m.node.pullFrom reply.state now).elector
        rw [helector]
        exact h.seen
      · show (m.node.pullFrom reply.state now).state.term = _
        rw [hstate]
        exact hterm

end Counts

end SyncMember

/-! ### The cluster -/

namespace SyncCluster

variable {cfg : SyncConfig} {s t : SyncCluster} {a : SyncClusterAction}

theorem termInv_init : init.TermInv where
  members := SyncMember.counts_boot
  pushes := fun _ h => by cases h
  replies := fun _ h => by cases h

namespace TermInv

theorem step (h : s.TermInv) (hstep : s.step cfg a = some t) : t.TermInv := by
  cases a with
  | boot e =>
    cases hstep
    exact ⟨forall_set h.members (SyncMember.counts_boot e), h.pushes, h.replies⟩
  | perform e op now =>
    cases hstep
    exact ⟨forall_set h.members ((h.members e).perform op now _), h.pushes, h.replies⟩
  | tick e members now =>
    cases hstep
    refine ⟨forall_set h.members ((h.members e).tick members now), fun msg hmsg => ?_, h.replies⟩
    rcases List.mem_append.1 hmsg with hmsg | hmsg
    · exact h.pushes msg hmsg
    · exact (h.members e).pushes hmsg
  | deliver i now =>
    obtain ⟨msg, hmsg, rfl⟩ := Option.map_eq_some_iff.1 hstep
    have hterm := h.pushes msg (List.mem_of_getElem? hmsg)
    exact ⟨forall_set h.members ((h.members msg.target).receive hterm now),
      fun msg' hmsg' => h.pushes msg' (List.mem_of_mem_eraseIdx hmsg'), h.replies⟩
  | lose i =>
    cases hstep
    exact ⟨h.members, fun msg hmsg => h.pushes msg (List.mem_of_mem_eraseIdx hmsg), h.replies⟩
  | answer e target =>
    cases hstep
    refine ⟨h.members, h.pushes, fun reply hreply => ?_⟩
    rcases List.mem_append.1 hreply with hreply | hreply
    · exact h.replies reply hreply
    · cases List.mem_singleton.1 hreply
      exact (h.members e).held
  | adopt i now =>
    obtain ⟨reply, hreply, rfl⟩ := Option.map_eq_some_iff.1 hstep
    have hterm := h.replies reply (List.mem_of_getElem? hreply)
    exact ⟨forall_set h.members ((h.members reply.target).adopt hterm now), h.pushes,
      fun reply' hreply' => h.replies reply' (List.mem_of_mem_eraseIdx hreply')⟩
  | timeOut i =>
    cases hstep
    exact ⟨h.members, h.pushes,
      fun reply hreply => h.replies reply (List.mem_of_mem_eraseIdx hreply)⟩

/-- A push is rejected when its sender had seen the leader change less often than the endpoint
whose term its target holds. -/
theorem accepted_iff (h : s.TermInv) {msg : PushMessage} (hmsg : msg ∈ s.pushes) :
    s.Accepted msg ↔ (s.members msg.target).heldChanges ≤ msg.sent.changes := by
  rw [← h.pushes msg hmsg, ← (h.members msg.target).held]
  constructor
  · intro haccepted
    obtain ⟨node, hnode⟩ := haccepted 0
    exact (SyncNode.handlePush_ok hnode).1
  · intro hle now
    unfold SyncNode.handlePush
    rw [if_neg (not_lt.2 hle)]
    exact ⟨_, rfl⟩

end TermInv

/-- In every run, a push of the leader that its target elects is accepted exactly when the leader
has changed for the sender, since it booted, as often as for the endpoint whose term the target
holds, or more often. -/
theorem accepted_iff_of_reach {msg : PushMessage} (h : Reach (step cfg) Always init s)
    (hmsg : msg ∈ s.pushes) :
    (s.Elected msg → s.Accepted msg) ↔
      (s.Elected msg → (s.members msg.target).heldChanges ≤ msg.sent.changes) := by
  have hinv : s.TermInv :=
    Reach.invariant termInv_init (fun _ _ _ hs _ hstep => hs.step hstep) h
  exact forall_congr' fun _ => hinv.accepted_iff hmsg

/-- The leader `c` pushes to `a` twice; in between `a` has taken its first push. -/
theorem accepted_secondPush : ∃ s msg,
    Reach (step SyncNode.eagerConfig) Always init s ∧ msg ∈ s.pushes ∧ s.Elected msg ∧
      (s.members msg.target).termFrom.isSome ∧ s.Accepted msg := by
  obtain ⟨s, hs, htest⟩ := exists_reach_of_run (step SyncNode.eagerConfig) init
    (fun s => s.pushes.any fun msg => decide (s.Elected msg) &&
      (s.members msg.target).termFrom.isSome &&
      decide ((s.members msg.target).heldChanges ≤ msg.sent.changes))
    [.tick "a" ["c"] 0, .perform "c" (.registerBucket "x" 1) 1, .tick "c" ["a"] 2, .deliver 0 3,
      .perform "c" (.registerBucket "y" 1) 4, .tick "c" ["a"] 5]
    (by decide +kernel)
  simp only [List.any_eq_true, Bool.and_eq_true, decide_eq_true_eq] at htest
  obtain ⟨msg, hmsg, ⟨helected, hterm⟩, hchanges⟩ := htest
  exact ⟨s, msg, hs, hmsg, helected, hterm,
    (accepted_iff_of_reach hs hmsg).2 (fun _ => hchanges) helected⟩

/-- `b` has seen `c` come and go and has pushed to `a` in its term 2; `c` boots once more, and
`a`, which elects `c`, rejects what `c` pushes in its term 0. -/
theorem rejected_newLeader : ∃ s msg,
    Reach (step SyncNode.eagerConfig) Always init s ∧ msg ∈ s.pushes ∧ s.Elected msg ∧
      ∀ now, (s.members msg.target).node.handlePush msg.push now =
        .error (staleTermError 0 2) := by
  obtain ⟨s, hs, htest⟩ := exists_reach_of_run (step SyncNode.eagerConfig) init
    (fun s => s.pushes.any fun msg => decide (s.Elected msg) && decide (msg.push.term = 0) &&
      decide ((s.members msg.target).node.state.term = 2))
    [.tick "b" ["a", "c"] 0, .tick "b" ["a"] 1, .perform "b" (.registerBucket "x" 1) 2,
      .tick "b" ["a"] 3, .deliver 0 4, .boot "c", .tick "c" ["a", "b"] 5, .tick "a" ["b", "c"] 6,
      .perform "c" (.registerBucket "y" 1) 7, .tick "c" ["a", "b"] 8]
    (by decide +kernel)
  simp only [List.any_eq_true, Bool.and_eq_true, decide_eq_true_eq] at htest
  obtain ⟨msg, hmsg, ⟨helected, hterm⟩, hheld⟩ := htest
  refine ⟨s, msg, hs, hmsg, helected, fun now => ?_⟩
  unfold SyncNode.handlePush
  rw [hterm, hheld]
  exact if_pos (by omega)

end SyncCluster

end Axo
