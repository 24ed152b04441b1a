import Axo.Service.FlushTruth
import Axo.Service.StableLeader

/-!
# Pushes that are lost

A leader and its followers while the membership stays as it is, as in `StableCluster`, but each
push either arrives or is lost.

* `LossyCluster.settled` keeps for each follower the pushes that have met their fate, with it;
* `LossyInv` says that a follower stores the last word of the pushes that arrived, and that the
  leader stored the last word of all of them when it sent each;
* `healed_iff_of_reach` is the result for whole runs.
-/

namespace Axo

open Transition Diff

/-- A push as it was sent, with what the leader stored at that moment, for reference. -/
structure SentPush where
  push : StatePush
  stored : SyncStore

/-- What the last of the pushes to name the key says of it.  A key that none of them names is as
one that is deleted. -/
def lastWord (pushes : List SentPush) (k : SyncKey) : Option SyncRecord :=
  (pushes.filterMap fun p => p.push.changes k).getLast?.getD none

/-- The keys that a push names. -/
def StatePush.keys (push : StatePush) : List SyncKey :=
  keysOf push.functionChanges push.dataChanges push.bucketChanges

/-- The pushes that have arrived. -/
def arrived (settled : List (SentPush × Bool)) : List SentPush :=
  (settled.filter Prod.snd).map Prod.fst

/-- On each key the last push that arrived says what the last push of all says. -/
def Recovered (settled : List (SentPush × Bool)) : Prop :=
  ∀ p ∈ settled, ∀ k ∈ p.1.push.keys,
    lastWord (arrived settled) k = lastWord (settled.map Prod.fst) k

instance (settled : List (SentPush × Bool)) : Decidable (Recovered settled) :=
  inferInstanceAs (Decidable (∀ p ∈ settled, ∀ k ∈ p.1.push.keys, _))

/-- The cluster. -/
structure LossyCluster where
  leader : SyncNode
  followers : EndpointId → SyncNode
  /-- the pushes on their way to each follower -/
  inFlight : EndpointId → List SentPush
  /-- those that have arrived or are lost; an arrival is `true` -/
  settled : EndpointId → List (SentPush × Bool)

/-- The steps of the cluster. -/
inductive LossyAction
  | perform (op : RegistryOp) (now : ℚ)
  | tick (now : ℚ)
  | deliver (follower : EndpointId) (now : ℚ)
  | lose (follower : EndpointId)
  | followerTick (follower : EndpointId) (now : ℚ)

namespace LossyCluster

/-- A leader elected in the given term, and fresh followers. -/
def init (members : StableMembership) (term : ℕ) : LossyCluster where
  leader := { elector := { selfId := members.leaderId, view := ⟨{members.leaderId}, term⟩ } }
  followers := SyncNode.boot
  inFlight := fun _ => []
  settled := fun _ => []

/-- The next push to a follower meets its fate. -/
def settle (s : LossyCluster) (f : EndpointId) (p : SentPush) (rest : List SentPush)
    (arrives : Bool) : LossyCluster :=
  { s with
    inFlight := Function.update s.inFlight f rest
    settled := Function.update s.settled f (s.settled f ++ [(p, arrives)]) }

/-- One step of the cluster. -/
def step (cfg : SyncConfig) (members : StableMembership) (s : LossyCluster) :
    LossyAction → Option LossyCluster
  | .perform op now => some { s with leader := s.leader.perform cfg op now }
  | .tick now =>
    let (leader, pushes) := s.leader.tick cfg members.followerIds now
    some
      { s with
        leader := leader
        inFlight := fun f =>
          s.inFlight f ++ (pushes.filter fun e => e.1 = f).map fun e => ⟨e.2, leader.stored⟩ }
  | .deliver f now =>
    match s.inFlight f with
    | [] => none
    | p :: rest =>
      let follower := ((s.followers f).handlePush p.push now).toOption.getD (s.followers f)
      some { s.settle f p rest true with followers := Function.update s.followers f follower }
  | .lose f =>
    match s.inFlight f with
    | [] => none
    | p :: rest => some (s.settle f p rest false)
  | .followerTick f now =>
    if f ∈ members.followerIds then
      let peers := members.leaderId :: members.followerIds.erase f
      let (follower, pushes) := (s.followers f).tick cfg peers now
      some
        { s with
          followers := Function.update s.followers f follower
          inFlight := fun f' =>
            s.inFlight f' ++
              (pushes.filter fun e => e.1 = f').map fun e => ⟨e.2, follower.stored⟩ }
    else none

/-- Every push to a follower so far. -/
def sent (s : LossyCluster) (f : EndpointId) : List SentPush :=
  (s.settled f).map Prod.fst ++ s.inFlight f

/-- A follower stores the last word of what arrived; the leader stores the last word of what it
sent, with what waits in its tracker laid over it, and stored it when it sent it. -/
structure LossyInv (members : StableMembership) (term : ℕ) (s : LossyCluster) : Prop where
  selfId : s.leader.elector.selfId = members.leaderId
  view : s.leader.elector.view = ⟨{members.leaderId}, term⟩
  ids : ∀ f, (s.followers f).elector.selfId = f
  terms : ∀ f, (s.followers f).state.term ≤ term
  inFlight : ∀ f, ∀ p ∈ s.inFlight f, p.push.term = term
  follower : ∀ f, (s.followers f).stored = lastWord (arrived (s.settled f))
  leader : ∀ f ∈ members.followerIds,
    s.leader.stored = Diff.apply s.leader.dirtyTracker.pending (lastWord (s.sent f))
  snapshots : ∀ f ∈ members.followerIds, ∀ pre p, pre ++ [p] <+: s.sent f →
    p.stored = lastWord (pre ++ [p])

variable {cfg : SyncConfig} {members : StableMembership} {term : ℕ} {s t : LossyCluster}

/-! ### The last word -/

theorem lastWord_nil : lastWord [] = fun _ => none := rfl

/-- One push more is laid over the last word of those before it. -/
theorem lastWord_append_singleton (pushes : List SentPush) (p : SentPush) :
    lastWord (pushes ++ [p]) = Diff.apply p.push.changes (lastWord pushes) := by
  funext k
  have hjoined (l : List SentPush) :
      lastWord l k = Diff.apply (joined (l.map fun p => p.push.changes)) (fun _ => none) k := by
    rw [Diff.apply, joined_eq_getLast?, List.filterMap_map]
    rfl
  have hmap : Diff.apply p.push.changes (lastWord pushes) k = Diff.apply p.push.changes
      (Diff.apply (joined (pushes.map fun p => p.push.changes)) fun _ => none) k :=
    congrArg (fun word => (p.push.changes k).getD word) (hjoined pushes)
  rw [hmap, hjoined, List.map_append, joined_append, apply_andThen]
  rfl

theorem arrived_append (settled : List (SentPush × Bool)) (p : SentPush) (arrives : Bool) :
    arrived (settled ++ [(p, arrives)]) = arrived settled ++ if arrives then [p] else [] := by
  unfold arrived
  rw [List.filter_append, List.map_append]
  cases arrives <;> rfl

/-! ### The steps -/

theorem lossyInv_init (members : StableMembership) (term : ℕ) :
    LossyInv members term (init members term) where
  selfId := rfl
  view := rfl
  ids := fun _ => rfl
  terms := fun _ => Nat.zero_le term
  inFlight := fun _ _ h => by cases h
  follower := fun _ => storeOf_empty
  leader := fun _ _ => by
    show storeOf ∅ ∅ ∅ = Diff.apply (diffOf ∅ ∅ ∅) (lastWord [])
    rw [diffOf_empty, apply_empty, storeOf_empty, lastWord_nil]
  snapshots := fun _ _ _ _ h => by
    have hnil := List.prefix_nil.1 h
    simp at hnil

namespace LossyInv

theorem perform (h : LossyInv members term s) (op : RegistryOp) (now : ℚ) :
    LossyInv members term { s with leader := s.leader.perform cfg op now } := by
  obtain ⟨hrest, hcases⟩ := SyncNode.perform_cases cfg s.leader op now
  refine ⟨?_, ?_, h.ids, h.terms, h.inFlight, h.follower, fun f hf => ?_, h.snapshots⟩
  · show (s.leader.perform cfg op now).elector.selfId = _
    rw [hrest.elector, h.selfId]
  · show (s.leader.perform cfg op now).elector.view = _
    rw [hrest.elector, h.view]
  · have hold := h.leader f hf
    show (s.leader.perform cfg op now).stored = Diff.apply
      (s.leader.perform cfg op now).dirtyTracker.pending (lastWord (s.sent f))
    rcases hcases with ⟨hstored, htracker⟩ | ⟨k, word, hstored, hpending⟩
    · rw [hstored, htracker]
      exact hold
    · rw [hstored, hpending, apply_andThen, apply_single, ← hold]

/-- A flush sends what is pending to every follower. -/
theorem flush (h : LossyInv members term s) :
    LossyInv members term
      { s with
        leader := (s.leader.flush members.followerIds).1
        inFlight := fun f => s.inFlight f ++
          ((s.leader.flush members.followerIds).2.filter fun e => e.1 = f).map fun e =>
            ⟨e.2, (s.leader.flush members.followerIds).1.stored⟩ } := by
  obtain ⟨hstored, hpending, -, -, helector⟩ := SyncNode.flush_cases s.leader members.followerIds
  refine ⟨?_, ?_, h.ids, h.terms, fun f p hp => ?_, h.follower, fun f hf => ?_,
    fun f hf pre p hpre => ?_⟩
  · show (s.leader.flush members.followerIds).1.elector.selfId = _
    rw [helector, h.selfId]
  · show (s.leader.flush members.followerIds).1.elector.view = _
    rw [helector, h.view]
  · rcases List.mem_append.1 hp with hp | hp
    · exact h.inFlight f p hp
    · obtain ⟨⟨member, push⟩, hmem, rfl⟩ := List.mem_map.1 hp
      have hterm := (SyncNode.mem_flush (List.mem_of_mem_filter hmem)).2.2
      rw [hterm, h.view]
  · have hold := h.leader f hf
    show (s.leader.flush members.followerIds).1.stored = Diff.apply
      (s.leader.flush members.followerIds).1.dirtyTracker.pending
      (lastWord ((s.settled f).map Prod.fst ++ (s.inFlight f ++ _)))
    rw [hstored, hpending, apply_empty, hold, ← List.append_assoc]
    rcases members.flush_to hf s.leader with ⟨hnothing, hsent⟩ | ⟨push, hchanges, -, hsent⟩
    · rw [hnothing, hsent, List.map_nil, List.append_nil, apply_empty]
      rfl
    · rw [hsent, List.map_singleton, lastWord_append_singleton, hchanges]
      rfl
  · rw [show sent _ f = (s.settled f).map Prod.fst ++ (s.inFlight f ++ _) from rfl,
      ← List.append_assoc] at hpre
    rcases members.flush_to hf s.leader with ⟨-, hsent⟩ | ⟨push, hchanges, -, hsent⟩
    · rw [hsent, List.map_nil, List.append_nil] at hpre
      exact h.snapshots f hf pre p hpre
    · rw [hsent, List.map_singleton] at hpre
      rcases List.prefix_concat_iff.1 hpre with hlast | hbefore
      · obtain ⟨rfl, hp⟩ := List.append_inj' hlast rfl
        cases List.singleton_inj.1 hp
        rw [lastWord_append_singleton, hchanges, hstored]
        exact h.leader f hf
      · exact h.snapshots f hf pre p hbefore

/-- What has been sent stays the same when a push meets its fate. -/
theorem sent_settle {f : EndpointId} {p : SentPush} {rest : List SentPush} (arrives : Bool)
    (hflight : s.inFlight f = p :: rest) : (s.settle f p rest arrives).sent = s.sent := by
  funext f'
  unfold sent settle
  by_cases hf' : f' = f
  · subst hf'
    simp only [Function.update_self]
    rw [List.map_append, List.append_assoc, hflight]
    rfl
  · simp only [Function.update_of_ne hf']

theorem inFlight_settle (h : LossyInv members term s) {f : EndpointId} {p : SentPush}
    {rest : List SentPush} (arrives : Bool) (hflight : s.inFlight f = p :: rest) :
    ∀ f', ∀ p' ∈ (s.settle f p rest arrives).inFlight f', p'.push.term = term := by
  intro f'
  show ∀ p' ∈ Function.update s.inFlight f rest f', p'.push.term = term
  by_cases hf' : f' = f
  · subst hf'
    rw [Function.update_self]
    intro p' hp'
    exact h.inFlight f' p' (by rw [hflight]; exact List.mem_cons_of_mem p hp')
  · rw [Function.update_of_ne hf']
    exact h.inFlight f'

theorem lose (h : LossyInv members term s) {f : EndpointId} {p : SentPush}
    {rest : List SentPush} (hflight : s.inFlight f = p :: rest) :
    LossyInv members term (s.settle f p rest false) := by
  refine ⟨h.selfId, h.view, h.ids, h.terms, h.inFlight_settle false hflight, fun f' => ?_, ?_, ?_⟩
  · show (s.followers f').stored =
      lastWord (arrived (Function.update s.settled f (s.settled f ++ [(p, false)]) f'))
    by_cases hf' : f' = f
    · subst hf'
      rw [Function.update_self, arrived_append, if_neg Bool.false_ne_true, List.append_nil]
      exact h.follower f'
    · rw [Function.update_of_ne hf']
      exact h.follower f'
  · rw [sent_settle false hflight]
    exact h.leader
  · rw [sent_settle false hflight]
    exact h.snapshots

/-- A push that arrives is never stale. -/
theorem deliver (h : LossyInv members term s) {f : EndpointId} {p : SentPush}
    {rest : List SentPush} (now : ℚ) (hflight : s.inFlight f = p :: rest) :
    LossyInv members term
      { s.settle f p rest true with
        followers := Function.update s.followers f
          (((s.followers f).handlePush p.push now).toOption.getD (s.followers f)) } := by
  have hterm : p.push.term = term := h.inFlight f p (by rw [hflight]; exact List.mem_cons_self)
  cases hpush : (s.followers f).handlePush p.push now with
  | error err =>
    have hstale := SyncNode.handlePush_error_iff.1 ⟨err, hpush⟩
    have hle := h.terms f
    omega
  | ok n' =>
    obtain ⟨-, hstored, -, hstate, helector, -⟩ := SyncNode.handlePush_ok hpush
    have hn'term : n'.state.term = p.push.term := by rw [hstate, StatePush.incoming]
    refine ⟨h.selfId, h.view, fun f' => ?_, fun f' => ?_, h.inFlight_settle true hflight,
      fun f' => ?_, ?_, ?_⟩
    · show (Function.update s.followers f n' f').elector.selfId = f'
      by_cases hf' : f' = f
      · subst hf'
        rw [Function.update_self, helector, h.ids]
      · rw [Function.update_of_ne hf', h.ids]
    · show (Function.update s.followers f n' f').state.term ≤ term
      by_cases hf' : f' = f
      · subst hf'
        rw [Function.update_self, hn'term, hterm]
      · rw [Function.update_of_ne hf']
        exact h.terms f'
    · show (Function.update s.followers f n' f').stored =
        lastWord (arrived (Function.update s.settled f (s.settled f ++ [(p, true)]) f'))
      by_cases hf' : f' = f
      · subst hf'
        rw [Function.update_self, Function.update_self, arrived_append, if_pos rfl,
          lastWord_append_singleton, hstored, h.follower f']
      · rw [Function.update_of_ne hf', Function.update_of_ne hf']
        exact h.follower f'
    · show ∀ f' ∈ members.followerIds, s.leader.stored = Diff.apply s.leader.dirtyTracker.pending
        (lastWord ((s.settle f p rest true).sent f'))
      rw [sent_settle true hflight]
      exact h.leader
    · show ∀ f' ∈ members.followerIds, ∀ pre p', pre ++ [p'] <+: (s.settle f p rest true).sent f' →
        p'.stored = lastWord (pre ++ [p'])
      rw [sent_settle true hflight]
      exact h.snapshots

/-- A tick of a follower changes nothing but its view. -/
theorem followerTick (h : LossyInv members term s) {f : EndpointId} (members' : List EndpointId) :
    LossyInv members term
      { s with
        followers := Function.update s.followers f ((s.followers f).recompute members') } := by
  refine ⟨h.selfId, h.view, fun f' => ?_, fun f' => ?_, h.inFlight, fun f' => ?_, h.leader,
    h.snapshots⟩
  · show (Function.update s.followers f _ f').elector.selfId = f'
    by_cases hf' : f' = f
    · subst hf'
      rw [Function.update_self]
      exact (BullyLeaderElector.selfId_recompute _ _).trans (h.ids f')
    · rw [Function.update_of_ne hf', h.ids]
  · show (Function.update s.followers f _ f').state.term ≤ term
    by_cases hf' : f' = f
    · subst hf'
      rw [Function.update_self]
      exact h.terms f'
    · rw [Function.update_of_ne hf']
      exact h.terms f'
  · show (Function.update s.followers f _ f').stored = lastWord (arrived (s.settled f'))
    by_cases hf' : f' = f
    · subst hf'
      rw [Function.update_self]
      exact h.follower f'
    · rw [Function.update_of_ne hf']
      exact h.follower f'

theorem step {a : LossyAction} (h : LossyInv members term s)
    (hstep : s.step cfg members a = some t) : LossyInv members term t := by
  cases a with
  | perform op now =>
    cases hstep
    exact h.perform op now
  | tick now =>
    simp only [LossyCluster.step, Option.some.injEq] at hstep
    subst hstep
    rcases SyncNode.tick_cases cfg s.leader members.followerIds now with htick | ⟨-, -, htick⟩
    · rw [htick, members.recompute_leader h.selfId h.view]
      simpa using h
    · rw [htick, members.recompute_leader h.selfId h.view]
      exact h.flush
  | deliver f now =>
    simp only [LossyCluster.step] at hstep
    split at hstep
    · cases hstep
    · rename_i p rest hflight
      cases hstep
      exact h.deliver now hflight
  | lose f =>
    simp only [LossyCluster.step] at hstep
    split at hstep
    · cases hstep
    · rename_i p rest hflight
      cases hstep
      exact h.lose hflight
  | followerTick f now =>
    simp only [LossyCluster.step] at hstep
    split_ifs at hstep with hf
    rw [Option.some.injEq, members.tick_follower cfg hf (h.ids f)] at hstep
    subst hstep
    simpa using h.followerTick (members.leaderId :: members.followerIds.erase f)

end LossyInv

/-- When the last push to meet its fate has arrived, the follower stores on every key of every
push so far what the leader stored when it sent that push, exactly when on each of these keys the
last push that arrived says what the last of all says. -/
theorem healed_iff_of_reach {f : EndpointId} {before : List (SentPush × Bool)} {p : SentPush}
    (h : Reach (step cfg members) Always (init members term) s) (hf : f ∈ members.followerIds)
    (hlast : s.settled f = before ++ [(p, true)]) :
    (∀ p' ∈ s.settled f, ∀ k ∈ p'.1.push.keys, (s.followers f).stored k = p.stored k) ↔
      Recovered (s.settled f) := by
  have hinv : LossyInv members term s :=
    Reach.invariant (lossyInv_init members term) (fun _ _ _ hs _ hstep => hs.step hstep) h
  have hsettled : (s.settled f).map Prod.fst = before.map Prod.fst ++ [p] := by
    rw [hlast, List.map_append]
    rfl
  have hthen : p.stored = lastWord ((s.settled f).map Prod.fst) := by
    rw [hsettled]
    refine hinv.snapshots f hf _ _ ?_
    rw [← hsettled]
    exact List.prefix_append _ _
  unfold Recovered
  rw [hinv.follower f, hthen]

/-- The key of a dataset. -/
def dataset : SyncKey := .data SyncNode.datasetKey

/-- The call that registers it. -/
def registerDataset : RegistryOp :=
  .registerData SyncNode.datasetKey "raw" "fs" 1 1 none "sha256"

/-- The push of a dataset to `a` is lost, and its deletion arrives. -/
theorem healed_deletedDataset : ∃ s before p,
    Reach (step SyncNode.eagerConfig StableCluster.twoFollowers) Always
        (init StableCluster.twoFollowers 1) s ∧
      s.settled "a" = before ++ [(p, true)] ∧ (∃ p' ∈ before, p'.2 = false) ∧
      ∀ p' ∈ s.settled "a", ∀ k ∈ p'.1.push.keys, (s.followers "a").stored k = p.stored k := by
  obtain ⟨s, hs, htest⟩ := exists_reach_of_run
    (step SyncNode.eagerConfig StableCluster.twoFollowers) (init StableCluster.twoFollowers 1)
    (fun s => (s.settled "a").map Prod.snd = [false, true] && decide (Recovered (s.settled "a")))
    [.perform registerDataset 0, .tick 1, .lose "a",
      .perform (.deleteData SyncNode.datasetKey) 2, .tick 3, .deliver "a" 4]
    (by decide +kernel)
  simp only [Bool.and_eq_true, decide_eq_true_eq] at htest
  obtain ⟨hfates, hrecovered⟩ := htest
  obtain ⟨first, rest, hsettled, hfirst, hrest⟩ := List.map_eq_cons_iff.1 hfates
  obtain ⟨⟨p, arrived⟩, rfl, rfl⟩ := List.map_eq_singleton_iff.1 hrest
  have hlast : s.settled "a" = [first] ++ [(p, true)] := hsettled
  exact ⟨s, [first], p, hs, hlast, ⟨first, List.mem_singleton_self first, hfirst⟩,
    (healed_iff_of_reach hs (by simp [StableCluster.twoFollowers]) hlast).2 hrecovered⟩

/-- The push of a dataset to `a` is lost, and the next push, which arrives, is about a bucket: `a`
never hears of the dataset. -/
theorem lost_neverHealed : ∃ s before p,
    Reach (step SyncNode.eagerConfig StableCluster.twoFollowers) Always
        (init StableCluster.twoFollowers 1) s ∧
      s.settled "a" = before ++ [(p, true)] ∧
      (∃ p' ∈ s.settled "a", dataset ∈ p'.1.push.keys) ∧
      p.stored dataset = s.leader.stored dataset ∧ (s.followers "a").stored dataset = none ∧
      s.leader.stored dataset ≠ none := by
  obtain ⟨s, hs, htest⟩ := exists_reach_of_run
    (step SyncNode.eagerConfig StableCluster.twoFollowers) (init StableCluster.twoFollowers 1)
    (fun s => (s.settled "a").any (fun p' => decide (dataset ∈ p'.1.push.keys)) &&
      (s.settled "a").getLast?.any (fun p : SentPush × Bool =>
        p.2 && decide (p.1.stored dataset = s.leader.stored dataset)) &&
      decide ((s.followers "a").stored dataset = none) &&
      decide (s.leader.stored dataset ≠ none))
    [.perform registerDataset 0, .tick 1, .lose "a", .perform (.registerBucket "x" 1) 2, .tick 3,
      .deliver "a" 4]
    (by decide +kernel)
  simp only [Bool.and_eq_true, decide_eq_true_eq, List.any_eq_true, Option.any_eq_true] at htest
  obtain ⟨⟨⟨hnamed, ⟨p, arrived⟩, hlast, harrived, hthen⟩, hfollower⟩, hleader⟩ := htest
  obtain ⟨before, hsettled⟩ := List.getLast?_eq_some_iff.1 hlast
  cases harrived
  exact ⟨s, before, p, hs, hsettled, hnamed, hthen, hfollower, hleader⟩

end LossyCluster

end Axo
