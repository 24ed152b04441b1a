import Axo.Lib.Transition
import Axo.Service.RegistryCalls

/-!
# Replication under one leader

A leader and its followers, all of them just booted, while the membership stays as it is and
every push arrives, in order.

* `StableCluster.step`: the pieces of the registry calls at the leader, any number of them at a
  time; the leader's ticks, up to the check whether a flush is due and from there on; deliveries;
  ticks of the followers;
* `ReplicaInv` is the simulation: what a follower stores, with the pushes on their way to it and
  with what waits in the leader's tracker laid over it, is what the leader stores, but for the keys
  that a registry call will still mark;
* `MarkGuard` says of a mark what it takes to keep it so;
* `converged_of_reach` is the result for whole runs.
-/

namespace Axo

open Transition Diff

/-- A leader and its followers, whose ids are all below the leader's. -/
structure StableMembership where
  leaderId : EndpointId
  followerIds : List EndpointId
  nodup : followerIds.Nodup
  leads : ∀ f ∈ followerIds, f < leaderId

namespace StableMembership

variable (members : StableMembership) {n : SyncNode} {f : EndpointId}

/-- The leader's view of its members does not change. -/
theorem recompute_leader {term : ℕ} (hself : n.elector.selfId = members.leaderId)
    (hview : n.elector.view = ⟨{members.leaderId}, term⟩) :
    n.recompute members.followerIds = n := by
  have hwinner : n.elector.winner members.followerIds = members.leaderId :=
    BullyLeaderElector.winner_eq_of_le hself.le (fun f hf => (members.leads f hf).le)
      (Or.inl hself.symm)
  have hsame : n.elector.recompute members.followerIds = n.elector := by
    refine BullyLeaderElector.recompute_of_winner ?_
    rw [hview, hwinner]
  unfold SyncNode.recompute
  rw [hsame]

/-- A follower never leads in its own view. -/
theorem follower_not_leader (hf : f ∈ members.followerIds) (hself : n.elector.selfId = f) :
    (n.recompute (members.leaderId :: members.followerIds.erase f)).isLeader = false := by
  have hlt := members.leads f hf
  have hwinner : n.elector.winner (members.leaderId :: members.followerIds.erase f) =
      members.leaderId := by
    refine BullyLeaderElector.winner_eq_of_le ?_ ?_ (Or.inr List.mem_cons_self)
    · rw [hself]
      exact hlt.le
    · intro m hm
      rcases List.mem_cons.1 hm with rfl | hm
      · exact le_rfl
      · exact (members.leads m (List.mem_of_mem_erase hm)).le
  have hids := BullyLeaderElector.leaderIds_recompute n.elector
    (members.leaderId :: members.followerIds.erase f)
  rw [hwinner] at hids
  unfold SyncNode.isLeader BullyLeaderElector.isLeader SyncNode.recompute
  rw [BullyLeaderElector.selfId_recompute, hself, hids]
  simpa using hlt.ne

/-- So a tick of a follower changes nothing but its view. -/
theorem tick_follower (cfg : SyncConfig) (hf : f ∈ members.followerIds)
    (hself : n.elector.selfId = f) (now : ℚ) :
    n.tick cfg (members.leaderId :: members.followerIds.erase f) now =
      (n.recompute (members.leaderId :: members.followerIds.erase f), []) := by
  rcases SyncNode.tick_cases cfg n (members.leaderId :: members.followerIds.erase f) now with
    htick | ⟨hleads, -⟩
  · exact htick
  · rw [members.follower_not_leader hf hself] at hleads
    cases hleads

/-- A push to every follower reaches each of them once. -/
theorem pushes_to (hf : f ∈ members.followerIds) (push : StatePush) :
    ((members.followerIds.map fun member => (member, push)).filter fun e => e.1 = f) =
      [(f, push)] := by
  have hcount := List.count_eq_one_of_mem members.nodup hf
  have hfilter : members.followerIds.filter ((fun e : EndpointId × StatePush => decide (e.1 = f)) ∘
      fun member => (member, push)) = [f] := by
    have heq := List.filter_eq (l := members.followerIds) f
    rw [hcount] at heq
    exact heq
  rw [List.filter_map, hfilter]
  rfl

/-- A flush sends each follower one push of what was pending, or nothing when nothing was. -/
theorem flush_to (hf : f ∈ members.followerIds) (n : SyncNode) :
    n.dirtyTracker.pending = Diff.empty ∧
        ((n.flush members.followerIds).2.filter fun e => e.1 = f) = [] ∨
      ∃ push : StatePush, push.changes = n.dirtyTracker.pending ∧
        push.term = n.elector.view.term ∧
        ((n.flush members.followerIds).2.filter fun e => e.1 = f) = [(f, push)] := by
  unfold SyncNode.flush
  dsimp only
  split_ifs with hempty
  · exact Or.inl ⟨StateMutation.changes_eq_empty hempty, rfl⟩
  · exact Or.inr ⟨_, rfl, rfl, members.pushes_to hf _⟩

end StableMembership

/-- The cluster. -/
structure StableCluster where
  leader : SyncNode
  /-- the registry calls in progress at the leader -/
  calls : List RegistryCall
  /-- the heartbeat thread of the leader has found that a flush is due -/
  due : Bool
  followers : EndpointId → SyncNode
  /-- the pushes on their way to each follower, those that are drained and not sent yet included -/
  inFlight : EndpointId → List StatePush
  /-- what the leader has written so far, for reference -/
  writes : List SyncDiff

/-- The steps of the cluster. -/
inductive StableAction
  /-- a registry is called at the leader -/
  | begin (op : RegistryOp) (now : ℚ)
  /-- the next piece of a call -/
  | advance (call : RegistryCall) (now : ℚ)
  /-- a tick of the leader, up to the check whether a flush is due -/
  | tick (now : ℚ)
  /-- the flush of that tick -/
  | flush
  | deliver (follower : EndpointId) (now : ℚ)
  | followerTick (follower : EndpointId) (now : ℚ)

namespace StableCluster

/-- A leader elected in the given term, and fresh followers. -/
def init (members : StableMembership) (term : ℕ) : StableCluster where
  leader := { elector := { selfId := members.leaderId, view := ⟨{members.leaderId}, term⟩ } }
  calls := []
  due := false
  followers := SyncNode.boot
  inFlight := fun _ => []
  writes := []

/-- Pushes set out, each to its follower. -/
def send (s : StableCluster) (pushes : List (EndpointId × StatePush)) : StableCluster :=
  { s with
    inFlight := fun f => s.inFlight f ++ (pushes.filter fun e => e.1 = f).map Prod.snd }

/-- What the next piece of a call writes. -/
def writing : RegistryCall → List SyncDiff
  | .putting p => [single p.entry.key p.entry.word]
  | _ => []

/-- One step of the cluster. -/
def step (cfg : SyncConfig) (members : StableMembership) (s : StableCluster) :
    StableAction → Option StableCluster
  | .begin op now =>
    some { s with
      leader := (s.leader.begin cfg op now).1
      calls := (s.leader.begin cfg op now).2.toList ++ s.calls }
  | .advance call now =>
    if call ∈ s.calls then
      some { s with
        leader := (call.advance s.leader now).1
        calls := (call.advance s.leader now).2.toList ++ s.calls.erase call
        writes := s.writes ++ writing call }
    else none
  | .tick now =>
    if s.due then none
    else
      let leader := s.leader.recompute members.followerIds
      some { s with
        leader := leader
        due := leader.isLeader &&
          leader.dirtyTracker.shouldFlush cfg.maxDirtyCount now cfg.idleSeconds }
  | .flush =>
    if s.due then
      some ({ s with
        leader := (s.leader.flush members.followerIds).1
        due := false }.send (s.leader.flush members.followerIds).2)
    else none
  | .deliver f now =>
    match s.inFlight f with
    | [] => none
    | push :: rest =>
      some
        { s with
          followers := Function.update s.followers f
            (((s.followers f).handlePush push now).toOption.getD (s.followers f))
          inFlight := Function.update s.inFlight f rest }
  | .followerTick f now =>
    if f ∈ members.followerIds then
      let peers := members.leaderId :: members.followerIds.erase f
      let (follower, pushes) := (s.followers f).tick cfg peers now
      some ({ s with followers := Function.update s.followers f follower }.send pushes)
    else none

/-- A mark says what is stored, or a call that has written will mark that. -/
def MarkGuard (s : StableCluster) : StableAction → Prop
  | .advance (.marking entry) _ =>
    s.leader.stored entry.key = entry.word ∨
      Settled false (s.calls.erase (.marking entry)) s.leader.stored entry.key
  | _ => True

instance (s : StableCluster) : (a : StableAction) → Decidable (s.MarkGuard a)
  | .advance (.marking entry) _ =>
    inferInstanceAs (Decidable (s.leader.stored entry.key = entry.word ∨
      Settled false (s.calls.erase (.marking entry)) s.leader.stored entry.key))
  | .advance (.putting _) _ | .advance (.raised _) _ | .begin .. | .tick _ | .flush | .deliver ..
  | .followerTick .. => inferInstanceAs (Decidable True)

/-- The same records under every key. -/
structure SameStores (n n' : SyncNode) : Prop where
  functions : ∀ key, n.functions.lookup key = n'.functions.lookup key
  catalog : ∀ key, n.catalog.lookup key = n'.catalog.lookup key
  buckets : ∀ name, n.buckets.lookup name = n'.buckets.lookup name

/-- What a follower will store when everything on its way has arrived. -/
def arriving (s : StableCluster) (f : EndpointId) : SyncStore :=
  Diff.apply (joined ((s.inFlight f).map StatePush.changes)) (s.followers f).stored

/-- The leader stores what a follower will store, with what waits in its tracker laid over it; or a
registry call that has written the key will mark what it stores. -/
structure ReplicaInv (members : StableMembership) (term : ℕ) (s : StableCluster) : Prop where
  selfId : s.leader.elector.selfId = members.leaderId
  view : s.leader.elector.view = ⟨{members.leaderId}, term⟩
  written : s.leader.stored = Diff.apply (joined s.writes) fun _ => none
  ids : ∀ f, (s.followers f).elector.selfId = f
  terms : ∀ f, (s.followers f).state.term ≤ term
  inFlight : ∀ f, ∀ push ∈ s.inFlight f, push.term = term
  simulates : ∀ f ∈ members.followerIds, ∀ k,
    s.leader.stored k = Diff.apply s.leader.dirtyTracker.pending (s.arriving f) k ∨
      Settled false s.calls s.leader.stored k

variable {cfg : SyncConfig} {members : StableMembership} {term : ℕ} {s t : StableCluster}

theorem replicaInv_init (members : StableMembership) (term : ℕ) :
    ReplicaInv members term (init members term) where
  selfId := rfl
  view := rfl
  written := storeOf_empty
  ids := fun _ => rfl
  terms := fun _ => Nat.zero_le term
  inFlight := fun _ _ h => by cases h
  simulates := fun f _ k => by
    refine Or.inl ?_
    show storeOf ∅ ∅ ∅ k = Diff.apply (diffOf ∅ ∅ ∅) (Diff.apply (joined []) (storeOf ∅ ∅ ∅)) k
    rw [diffOf_empty, joined_nil, apply_empty, apply_empty]

/-! ### Sending -/

theorem send_nil (s : StableCluster) : s.send [] = s := by
  unfold send
  simp

namespace ReplicaInv

/-- A registry call begins, and has written nothing yet. -/
theorem begin (h : ReplicaInv members term s) (op : RegistryOp) (now : ℚ) :
    ReplicaInv members term
      { s with
        leader := (s.leader.begin cfg op now).1
        calls := (s.leader.begin cfg op now).2.toList ++ s.calls } := by
  obtain ⟨hstored, htracker, hrest, -⟩ := SyncNode.begin_frame cfg s.leader op now
  refine ⟨?_, ?_, hstored.trans h.written, h.ids, h.terms, h.inFlight, fun f hf k => ?_⟩
  · show (s.leader.begin cfg op now).1.elector.selfId = _
    rw [hrest.elector, h.selfId]
  · show (s.leader.begin cfg op now).1.elector.view = _
    rw [hrest.elector, h.view]
  · refine (h.simulates f hf k).imp (fun hold => ?_) fun hsettled =>
      hsettled.congr (fun c hc => List.mem_append_right _ hc) (congrFun hstored k)
    show (s.leader.begin cfg op now).1.stored k =
      Diff.apply (s.leader.begin cfg op now).1.dirtyTracker.pending (s.arriving f) k
    rw [hstored, htracker]
    exact hold

/-- The next piece of a registry call. -/
theorem advance (h : ReplicaInv members term s) {call : RegistryCall} (now : ℚ)
    (hG : s.MarkGuard (.advance call now)) :
    ReplicaInv members term
      { s with
        leader := (call.advance s.leader now).1
        calls := (call.advance s.leader now).2.toList ++ s.calls.erase call
        writes := s.writes ++ writing call } := by
  have hrest := sameRest_advance s.leader now call
  refine ⟨?_, ?_, ?_, h.ids, h.terms, h.inFlight, fun f hf k => ?_⟩
  · show (call.advance s.leader now).1.elector.selfId = _
    rw [hrest.elector, h.selfId]
  · show (call.advance s.leader now).1.elector.view = _
    rw [hrest.elector, h.view]
  · show (call.advance s.leader now).1.stored = Diff.apply (joined (s.writes ++ writing call)) _
    rw [joined_append, apply_andThen, ← h.written]
    cases call with
    | putting p =>
      refine (SyncNode.stored_put s.leader p.entry).trans ?_
      simp only [writing, joined_cons, joined_nil, andThen_empty, apply_single]
    | raised event => rfl
    | marking entry => exact SyncNode.stored_mark s.leader now entry
  · show (call.advance s.leader now).1.stored k =
        Diff.apply (call.advance s.leader now).1.dirtyTracker.pending (s.arriving f) k ∨ _
    have hcalls (c : RegistryCall) (hc : c ∈ s.calls) : c = call ∨
        c ∈ (call.advance s.leader now).2.toList ++ s.calls.erase call := by
      by_cases heq : c = call
      · exact Or.inl heq
      · exact Or.inr (List.mem_append_right _ ((List.mem_erase_of_ne heq).2 hc))
    have hnext (c : RegistryCall) (hc : c ∈ (call.advance s.leader now).2) :
        c ∈ (call.advance s.leader now).2.toList ++ s.calls.erase call :=
      List.mem_append_left _ (Option.mem_toList.2 hc)
    rcases advance_cases s.leader now call k with
      ⟨p, rfl, rfl⟩ | ⟨entry, rfl, rfl⟩ | ⟨hmark, hstored, hpending⟩
    · exact Or.inr (settled_put p (hnext _ rfl))
    · refine hG.imp (fun hsame => ?_) fun hsettled => ?_
      · show (s.leader.mark now entry).stored entry.key =
          Diff.apply (s.leader.mark now entry).dirtyTracker.pending _ _
        rw [SyncNode.stored_mark, SyncNode.pending_mark, hsame]
        exact (apply_of_some (Function.update_self ..)).symm
      · exact hsettled.congr (fun c hc => List.mem_append_right _ hc)
          (congrFun (SyncNode.stored_mark s.leader now entry) _)
    · refine (h.simulates f hf k).imp (fun hold => ?_) fun hsettled =>
        hsettled.advance hcalls hnext hmark
      rw [hstored, hold]
      simp only [Diff.apply, hpending]

/-- The leader keeps its view. -/
theorem tick (h : ReplicaInv members term s) (due : Bool) :
    ReplicaInv members term
      { s with leader := s.leader.recompute members.followerIds, due := due } := by
  rw [members.recompute_leader h.selfId h.view]
  exact ⟨h.selfId, h.view, h.written, h.ids, h.terms, h.inFlight, h.simulates⟩

/-- A flush moves what is pending onto the way to every follower. -/
theorem flush (h : ReplicaInv members term s) :
    ReplicaInv members term
      (({ s with leader := (s.leader.flush members.followerIds).1, due := false } :
        StableCluster).send (s.leader.flush members.followerIds).2) := by
  obtain ⟨hstored, hpending, -, -, helector⟩ := SyncNode.flush_cases s.leader members.followerIds
  refine ⟨?_, ?_, ?_, h.ids, h.terms, ?_, ?_⟩
  · show (s.leader.flush members.followerIds).1.elector.selfId = _
    rw [helector, h.selfId]
  · show (s.leader.flush members.followerIds).1.elector.view = _
    rw [helector, h.view]
  · show (s.leader.flush members.followerIds).1.stored = _
    rw [hstored]
    exact h.written
  · intro f push hpush
    rcases List.mem_append.1 hpush with hpush | hpush
    · exact h.inFlight f push hpush
    · obtain ⟨⟨member, push⟩, hmem, rfl⟩ := List.mem_map.1 hpush
      have hterm := (SyncNode.mem_flush (List.mem_of_mem_filter hmem)).2.2
      rw [hterm, h.view]
  · intro f hf k
    show (s.leader.flush members.followerIds).1.stored k =
      Diff.apply (s.leader.flush members.followerIds).1.dirtyTracker.pending
        (Diff.apply (joined ((s.inFlight f ++ _).map StatePush.changes)) (s.followers f).stored) k ∨
      Settled false s.calls (s.leader.flush members.followerIds).1.stored k
    rw [hstored]
    refine (h.simulates f hf k).imp_left fun hold => ?_
    rw [hpending, apply_empty, hold, List.map_append, joined_append, apply_andThen]
    show _ = Diff.apply _ (s.arriving f) k
    rcases members.flush_to hf s.leader with ⟨hnothing, hsent⟩ | ⟨push, hchanges, -, hsent⟩
    · rw [hnothing, hsent]
      rfl
    · rw [hsent, ← hchanges]
      rfl

/-- A push that arrives is never stale. -/
theorem deliver (h : ReplicaInv members term s) {f : EndpointId} {push : StatePush}
    {rest : List StatePush} (now : ℚ) (hflight : s.inFlight f = push :: rest) :
    ReplicaInv members term
      { s with
        followers := Function.update s.followers f
          (((s.followers f).handlePush push now).toOption.getD (s.followers f))
        inFlight := Function.update s.inFlight f rest } := by
  have hterm : push.term = term := h.inFlight f push (by rw [hflight]; exact List.mem_cons_self)
  cases hpush : (s.followers f).handlePush push now with
  | error err =>
    have hstale := SyncNode.handlePush_error_iff.1 ⟨err, hpush⟩
    have hle := h.terms f
    omega
  | ok n' =>
    obtain ⟨-, hstored, -, hstate, helector, -⟩ := SyncNode.handlePush_ok hpush
    have hn'term : n'.state.term = push.term := by rw [hstate, StatePush.incoming]
    refine ⟨h.selfId, h.view, h.written, fun f' => ?_, fun f' => ?_, fun f' => ?_,
      fun f' hf' k => ?_⟩
    · show (Function.update s.followers f n' f').elector.selfId = f'
      by_cases hf' : f' = f
      · subst hf'
        rw [Function.update_self, helector, h.ids]
      · rw [Function.update_of_ne hf', h.ids]
    · show (Function.update s.followers f n' f').state.term ≤ term
      by_cases hf' : f' = f
      · subst hf'
        rw [Function.update_self, hn'term, hterm]
      · rw [Function.update_of_ne hf']
        exact h.terms f'
    · show ∀ push ∈ Function.update s.inFlight f rest f', push.term = term
      by_cases hf' : f' = f
      · subst hf'
        rw [Function.update_self]
        intro push' hmem
        exact h.inFlight f' push' (by rw [hflight]; exact List.mem_cons_of_mem push hmem)
      · rw [Function.update_of_ne hf']
        exact h.inFlight f'
    · refine (h.simulates f' hf' k).imp_left fun hold => ?_
      show s.leader.stored k = Diff.apply s.leader.dirtyTracker.pending
        (Diff.apply (joined ((Function.update s.inFlight f rest f').map StatePush.changes))
          (Function.update s.followers f n' f').stored) k
      by_cases hff' : f' = f
      · subst hff'
        have harriving : s.arriving f' =
            Diff.apply (joined (rest.map StatePush.changes)) n'.stored := by
          rw [arriving, hflight, List.map_cons, joined_cons, apply_andThen, hstored]
        rw [Function.update_self, Function.update_self]
        exact harriving ▸ hold
      · rw [Function.update_of_ne hff', Function.update_of_ne hff']
        exact hold

/-- A tick of a follower changes nothing but its view. -/
theorem followerTick (h : ReplicaInv members term s) {f : EndpointId}
    (hf : f ∈ members.followerIds) (now : ℚ) :
    ReplicaInv members term
      (({ s with
          followers := Function.update s.followers f ((s.followers f).tick cfg
            (members.leaderId :: members.followerIds.erase f) now).1 } : StableCluster).send
        ((s.followers f).tick cfg (members.leaderId :: members.followerIds.erase f) now).2) := by
  rw [members.tick_follower cfg hf (h.ids f) now, send_nil]
  refine ⟨h.selfId, h.view, h.written, fun f' => ?_, fun f' => ?_, h.inFlight,
    fun f' hf' k => ?_⟩
  · show (Function.update s.followers f _ f').elector.selfId = f'
    by_cases hf' : f' = f
    · subst hf'
      rw [Function.update_self]
      exact (BullyLeaderElector.selfId_recompute _ _).trans (h.ids f')
    · rw [Function.update_of_ne hf', h.ids]
  · show (Function.update s.followers f _ f').state.term ≤ term
    by_cases hf' : f' = f
    · subst hf'
      rw [Function.update_self]
      exact h.terms f'
    · rw [Function.update_of_ne hf']
      exact h.terms f'
  · refine (h.simulates f' hf' k).imp_left fun hold => ?_
    show s.leader.stored k = Diff.apply s.leader.dirtyTracker.pending
      (Diff.apply (joined ((s.inFlight f').map StatePush.changes))
        (Function.update s.followers f _ f').stored) k
    by_cases hff' : f' = f
    · subst hff'
      rw [Function.update_self]
      exact hold
    · rw [Function.update_of_ne hff']
      exact hold

theorem step {a : StableAction} (h : ReplicaInv members term s) (hG : s.MarkGuard a)
    (hstep : s.step cfg members a = some t) : ReplicaInv members term t := by
  cases a with
  | begin op now =>
    cases hstep
    exact h.begin op now
  | advance call now =>
    simp only [StableCluster.step, Option.ite_none_right_eq_some, Option.some.injEq] at hstep
    obtain ⟨-, rfl⟩ := hstep
    exact h.advance now hG
  | tick now =>
    simp only [StableCluster.step] at hstep
    split_ifs at hstep
    cases hstep
    exact h.tick _
  | flush =>
    simp only [StableCluster.step] at hstep
    split_ifs at hstep
    cases hstep
    exact h.flush
  | deliver f now =>
    simp only [StableCluster.step] at hstep
    split at hstep
    · cases hstep
    · rename_i push rest hflight
      cases hstep
      exact h.deliver now hflight
  | followerTick f now =>
    simp only [StableCluster.step] at hstep
    split_ifs at hstep with hf
    rw [Option.some.injEq] at hstep
    subst hstep
    exact h.followerTick hf now

end ReplicaInv

/-- In a run whose marks meet the guard, whenever the leader's tracker is empty, no push is on its
way, and no registry call has written and not marked yet, every follower stores what the leader
stores, which is the last write of each key. -/
theorem converged_of_reach (h : Reach (step cfg members) MarkGuard (init members term) s)
    (htracker : s.leader.dirtyTracker.pendingCount = 0)
    (hflight : ∀ f ∈ members.followerIds, s.inFlight f = [])
    (hcalls : ∀ call ∈ s.calls, ∃ p, call = .putting p) :
    ∀ f ∈ members.followerIds, SameStores (s.followers f) s.leader ∧
      (s.followers f).stored = Diff.apply (joined s.writes) fun _ => none := by
  have hinv : ReplicaInv members term s :=
    Reach.invariant (replicaInv_init members term) (fun _ _ _ hs hG hstep => hs.step hG hstep) h
  intro f hf
  have hsame : (s.followers f).stored = s.leader.stored := by
    funext k
    rcases hinv.simulates f hf k with hsimulates | ⟨call, hcall, -, hsettles⟩
    · rw [DirtyTracker.pending_eq_empty htracker, apply_empty, arriving, hflight f hf, List.map_nil,
        joined_nil, apply_empty] at hsimulates
      exact hsimulates.symm
    · obtain ⟨p, rfl⟩ := hcalls call hcall
      cases hsettles
  obtain ⟨hfunctions, hcatalog, hbuckets⟩ := storeOf_injective hsame
  exact ⟨⟨hfunctions, hcatalog, hbuckets⟩, hsame.trans hinv.written⟩

/-- Two followers of the leader `b`. -/
def twoFollowers : StableMembership where
  leaderId := "b"
  followerIds := ["0", "a"]
  nodup := by decide +kernel
  leads := by
    intro f hf
    simp only [List.mem_cons, List.not_mem_nil, or_false] at hf
    rcases hf with rfl | rfl <;> decide +kernel

/-- A configuration under which two changes make a flush. -/
def pairConfig : SyncConfig where
  blobBackends := ["fs"]
  maxDirtyCount := 2
  idleSeconds := 5
  sha256 := fun _ => ""

/-- The dataset of the runs below. -/
def streamKey : RecordKey := ⟨"b/x:1", 7⟩

/-- A record of it, with one chunk of one byte. -/
def streamRecord (createdAt : ℚ) (declaredHash : Option String) : DataRecord where
  name := "b/x:1"
  version := 7
  keyAlias := "b/x:1"
  format := "raw"
  kind := "fs"
  totalSize := 1
  chunkBytes := 1
  totalChunks := 1
  createdAt := createdAt
  declaredHash := declaredHash
  contentHashAlgo := "sha256"

/-- A call that is about to write the record. -/
def puttingRecord (record : DataRecord) : RegistryCall :=
  .putting ⟨.data streamKey (some record), .dataRegistered streamKey, rfl, rfl⟩

/-- A call that is about to delete the dataset. -/
def puttingTombstone : RegistryCall :=
  .putting ⟨.data streamKey none, .dataDeleted streamKey, rfl, rfl⟩

/-- A dataset whose name has a colon and a slash and a bucket are registered by overlapping calls; a
tick falls between a write and its event, and the deletion of the dataset spans the flush.  When all
is marked and delivered, the followers store what the leader stores. -/
theorem converged_deletedDataset : ∃ s,
    Reach (step pairConfig twoFollowers) MarkGuard (init twoFollowers 3) s ∧
      (s.followers "a").buckets.lookup "b" = some ⟨"b", 10, 2⟩ ∧
      (s.followers "a").catalog.lookup streamKey = none ∧
      ∀ f ∈ ["0", "a"], SameStores (s.followers f) s.leader := by
  obtain ⟨s, hs, htest⟩ := exists_reach_of_guarded_run (step pairConfig twoFollowers) MarkGuard
    (init twoFollowers 3)
    (fun s => s.leader.dirtyTracker.pendingCount = 0 && (s.inFlight "0").isEmpty &&
      (s.inFlight "a").isEmpty && s.calls.isEmpty &&
      (s.followers "a").buckets.lookup "b" = some ⟨"b", 10, 2⟩ &&
      (s.followers "a").catalog.lookup streamKey = none)
    [.begin (.registerData streamKey "raw" "fs" 1 1 none "sha256") 0,
      .advance (puttingRecord (streamRecord 0 none)) 0, .tick 1, .begin (.registerBucket "b" 10) 2,
      .advance (.putting ⟨.bucket "b" ⟨"b", 10, 2⟩, .bucketRegistered "b", rfl, rfl⟩) 2,
      .advance (.raised (.dataRegistered streamKey)) 2,
      .advance (.raised (.bucketRegistered "b")) 2,
      .advance (.marking (.bucket "b" ⟨"b", 10, 2⟩)) 2,
      .advance (.marking (.data streamKey (some (streamRecord 0 none)))) 2, .tick 3,
      .begin (.deleteData streamKey) 4, .advance puttingTombstone 4, .flush, .deliver "a" 4,
      .advance (.raised (.dataDeleted streamKey)) 5, .advance (.marking (.data streamKey none)) 5,
      .deliver "0" 6, .followerTick "a" 10, .tick 11, .flush, .deliver "0" 12, .deliver "a" 13]
    (by decide +kernel)
  simp only [Bool.and_eq_true, decide_eq_true_eq, List.isEmpty_iff] at htest
  obtain ⟨⟨⟨⟨⟨htracker, hzero⟩, ha⟩, hcalls⟩, hbucket⟩, hdata⟩ := htest
  refine ⟨s, hs, hbucket, hdata,
    fun f hf => (converged_of_reach hs htracker ?_ (fun call hcall => ?_) f hf).1⟩
  · intro f hf
    rcases List.mem_cons.1 hf with rfl | hf
    · exact hzero
    · rw [List.mem_singleton.1 hf]
      exact ha
  · rw [hcalls] at hcall
    cases hcall

/-- A job's stream is finalized, and the dataset deleted before the bridge of the first call has
marked what it has read.  When all is flushed and delivered, the followers have the record for good,
and the leader has none. -/
theorem diverged_overlappingCalls : ∃ s,
    Reach (step pairConfig twoFollowers) Always (init twoFollowers 3) s ∧
      s.leader.dirtyTracker.pendingCount = 0 ∧ (∀ f ∈ twoFollowers.followerIds, s.inFlight f = []) ∧
      s.calls = [] ∧ s.leader.catalog.lookup streamKey = none ∧
      ∃ f ∈ twoFollowers.followerIds, ¬ SameStores (s.followers f) s.leader := by
  obtain ⟨s, hs, htest⟩ := exists_reach_of_run (step pairConfig twoFollowers)
    (init twoFollowers 3)
    (fun s => s.leader.dirtyTracker.pendingCount = 0 &&
      decide (∀ f ∈ twoFollowers.followerIds, s.inFlight f = []) && s.calls.isEmpty &&
      s.leader.catalog.lookup streamKey = none &&
      (s.followers "a").catalog.lookup streamKey = some (streamRecord 1 (some "")))
    [.begin (.openStream streamKey "raw" "fs" 1) 0, .begin (.appendChunk streamKey [7]) 0,
      .begin (.finalizeStream streamKey) 1, .advance (puttingRecord (streamRecord 1 (some ""))) 1,
      .advance (.raised (.dataRegistered streamKey)) 1, .begin (.deleteData streamKey) 2,
      .advance puttingTombstone 2, .advance (.raised (.dataDeleted streamKey)) 2,
      .advance (.marking (.data streamKey none)) 2,
      .advance (.marking (.data streamKey (some (streamRecord 1 (some ""))))) 3, .tick 8, .flush,
      .deliver "a" 9, .deliver "0" 9]
    (by decide +kernel)
  simp only [Bool.and_eq_true, decide_eq_true_eq, List.isEmpty_iff] at htest
  obtain ⟨⟨⟨⟨htracker, hflight⟩, hcalls⟩, hnone⟩, hsome⟩ := htest
  refine ⟨s, hs, htracker, hflight, hcalls, hnone, "a", by simp [twoFollowers], fun hsame => ?_⟩
  have hdata := hsame.catalog streamKey
  rw [hnone, hsome] at hdata
  cases hdata

end StableCluster

end Axo
