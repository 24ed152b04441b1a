import Axo.Service.SyncThreads

/-!
# Stepping down with acknowledged changes

An endpoint and its threads, and the commands that it takes while it leads.
`LeaderProxyHandler.handle` looks whether the endpoint leads and then runs the handler, whose reply
acknowledges the change; the change is pushed by a later tick that leads and finds a flush due.

* `AckNode.step`: the check of the proxy, the pieces of the handler's registry call, and the steps
  of all other threads;
* `Ack.due` records, from the times, the memberships and the tracker alone, that a flush has fallen
  due since the acknowledgement; `HandOverGuard` asks for it where a tick ends the leadership and
  where a flush reaches nobody;
* `pushedOrPending_of_reach` is the result for whole runs.
-/

namespace Axo

open Transition Diff

/-- The calls that arrive as leader-only commands; the others come from the runtimes. -/
def RegistryOp.isCommand : RegistryOp → Bool
  | .openStream .. | .appendChunk .. | .finalizeStream .. => false
  | _ => true

/-- A change that has been acknowledged. -/
structure Ack where
  key : SyncKey
  /-- the number of pushes sent before -/
  before : ℕ
  /-- since then a flush has fallen due, with a peer to push to -/
  due : Bool
  deriving DecidableEq

/-- An endpoint and what it has acknowledged. -/
structure AckNode where
  threads : SyncThreads
  /-- the command that has passed the check of the proxy -/
  accepted : Option RegistryOp
  /-- the registry call of the command that is being handled -/
  handling : Option RegistryCall
  acknowledged : List Ack
  /-- the pushes sent so far -/
  sent : List StatePush

/-- The steps of the endpoint. -/
inductive AckAction
  /-- `LeaderProxyHandler.handle`, up to the handler it wraps -/
  | accept (op : RegistryOp)
  /-- the wrapped handler calls its registry -/
  | handle (now : ℚ)
  /-- the next piece of that call; the reply acknowledges the change after the last -/
  | advance (now : ℚ)
  /-- any other thread, the runtimes' calls included -/
  | thread (action : ThreadAction)

namespace AckNode

/-- An endpoint that has just booted. -/
def boot (selfId : EndpointId) : AckNode where
  threads := .boot selfId
  accepted := none
  handling := none
  acknowledged := []
  sent := []

def node (s : AckNode) : SyncNode := s.threads.node

/-- A flush falls due at a tick, with a peer to push to. -/
def FallsDue (cfg : SyncConfig) (s : AckNode) (members : List EndpointId) (now : ℚ) : Prop :=
  members ≠ [] ∧ (s.node.recompute members).isLeader ∧
    s.node.dirtyTracker.shouldFlush cfg.maxDirtyCount now cfg.idleSeconds

instance (cfg : SyncConfig) (s : AckNode) (members : List EndpointId) (now : ℚ) :
    Decidable (s.FallsDue cfg members now) := inferInstanceAs (Decidable (_ ∧ _ ∧ _))

/-- The acknowledged changes after a step of a thread. -/
def acknowledgedAfter (cfg : SyncConfig) (s : AckNode) : ThreadAction → List Ack
  | .tick members now =>
    if s.FallsDue cfg members now then s.acknowledged.map fun ack => { ack with due := true }
    else s.acknowledged
  | _ => s.acknowledged

/-- The pushes that a step of a thread sends. -/
def sending (s : AckNode) : ThreadAction → List StatePush
  | .applyLocal => s.threads.pushes.map Prod.snd
  | _ => []

/-- The members to push to, between the check whether a flush is due and the drain. -/
def dueMembers (s : AckNode) : Option (List EndpointId) :=
  match s.threads.flushing with
  | some (.due members) => some members
  | _ => none

/-- One step of the endpoint. -/
def step (cfg : SyncConfig) (s : AckNode) : AckAction → Option AckNode
  | .accept op =>
    if op.isCommand ∧ s.accepted = none ∧ s.handling = none ∧ s.node.isLeader then
      some { s with accepted := some op }
    else none
  | .handle now =>
    s.accepted.map fun op =>
      { s with
        threads := { s.threads with node := (s.node.begin cfg op now).1 }
        accepted := none
        handling := (s.node.begin cfg op now).2 }
  | .advance now =>
    s.handling.map fun call =>
      { s with
        threads := { s.threads with node := (call.advance s.node now).1 }
        handling := (call.advance s.node now).2
        acknowledged :=
          if (call.advance s.node now).2 = none then
            ⟨call.key, s.sent.length, s.dueMembers.any (· ≠ [])⟩ :: s.acknowledged
          else s.acknowledged }
  | .thread action =>
    (s.threads.step cfg action).map fun threads =>
      { s with
        threads := threads
        acknowledged := s.acknowledgedAfter cfg action
        sent := s.sent ++ s.sending action }

/-- A push that names the key has been sent since the acknowledgement. -/
def Pushed (s : AckNode) (ack : Ack) : Prop :=
  ∃ push ∈ s.sent.drop ack.before, push.changes ack.key ≠ none

instance (s : AckNode) (ack : Ack) : Decidable (s.Pushed ack) :=
  inferInstanceAs (Decidable (∃ push ∈ s.sent.drop ack.before, push.changes ack.key ≠ none))

/-- The read of a bridge finds its record. -/
def Finds (n : SyncNode) : RegistryCall → Prop
  | .raised event => n.read event ≠ none
  | _ => True

/-- A tick of a leader that leads no longer after it comes when no command is being handled and a
flush has fallen due since every acknowledged change; so it has when the tracker is drained with no
peer to push to; and the bridge of a command finds its record. -/
def HandOverGuard (s : AckNode) : AckAction → Prop
  | .thread (.tick members _) =>
    s.node.isLeader ∧ ¬ (s.node.recompute members).isLeader →
      s.accepted = none ∧ s.handling = none ∧ ∀ ack ∈ s.acknowledged, ack.due
  | .thread .drain => s.dueMembers = some [] → ∀ ack ∈ s.acknowledged, ack.due
  | .advance _ => ∀ call ∈ s.handling, Finds s.node call
  | _ => True

instance (n : SyncNode) : (call : RegistryCall) → Decidable (Finds n call)
  | .raised event => inferInstanceAs (Decidable (n.read event ≠ none))
  | .putting _ | .marking _ => inferInstanceAs (Decidable True)

instance (s : AckNode) : (a : AckAction) → Decidable (s.HandOverGuard a)
  | .thread (.tick members _) =>
    inferInstanceAs (Decidable (s.node.isLeader ∧ ¬ (s.node.recompute members).isLeader →
      s.accepted = none ∧ s.handling = none ∧ ∀ ack ∈ s.acknowledged, ack.due))
  | .thread .drain =>
    inferInstanceAs (Decidable (s.dueMembers = some [] → ∀ ack ∈ s.acknowledged, ack.due))
  | .advance _ => inferInstanceAs (Decidable (∀ call ∈ s.handling, Finds s.node call))
  | .accept _ | .handle _ | .thread (.begin ..) | .thread (.advance ..) | .thread (.snapshot _)
  | .thread .mergePush | .thread (.pullRemote _) | .thread (.receive ..) | .thread .applyLocal =>
    inferInstanceAs (Decidable True)

/-- The change is drained, to be pushed to somebody. -/
def Leaving (s : AckNode) (ack : Ack) : Prop :=
  ∃ members mutation, s.threads.flushing = some (.drained members mutation) ∧ members ≠ [] ∧
    mutation.changes ack.key ≠ none

/-- The change waits in the tracker of a leader, or is about to be pushed by it. -/
def Pending (s : AckNode) (ack : Ack) : Prop :=
  s.node.isLeader = true ∧ (s.node.dirtyTracker.pending ack.key ≠ none ∨ s.Leaving ack)

/-- Every acknowledged change has been pushed or will be at the next flush. -/
structure AckInv (s : AckNode) : Prop where
  leads : s.accepted ≠ none ∨ s.handling ≠ none ∨ s.threads.flushing ≠ none →
    s.node.isLeader = true
  counted : ∀ ack ∈ s.acknowledged, ack.before ≤ s.sent.length
  kept : ∀ ack ∈ s.acknowledged, s.Pushed ack ∨ s.Pending ack
  /-- once a flush has fallen due, the change is pushed or on its way out -/
  due : ∀ ack ∈ s.acknowledged, ack.due = true → s.Pushed ack ∨
    (∃ members, s.dueMembers = some members ∧ members ≠ []) ∧
      s.node.dirtyTracker.pending ack.key ≠ none ∨ s.Leaving ack

variable {cfg : SyncConfig} {s t : AckNode} {a : AckAction}

theorem ackInv_boot (selfId : EndpointId) : (boot selfId).AckInv where
  leads := by
    rintro (h | h | h)
    · exact absurd rfl h
    · exact absurd rfl h
    · exact absurd rfl h
  counted := fun _ h => by cases h
  kept := fun _ h => by cases h
  due := fun _ h => by cases h

/-- The same view of who leads, and no entry less. -/
def NoLess (n n' : SyncNode) : Prop :=
  n'.elector = n.elector ∧
    ∀ k, n.dirtyTracker.pending k ≠ none → n'.dirtyTracker.pending k ≠ none

theorem NoLess.isLeader {n n' : SyncNode} (h : NoLess n n') : n'.isLeader = n.isLeader := by
  unfold SyncNode.isLeader
  rw [h.1]

theorem noLess_begin (n : SyncNode) (op : RegistryOp) (now : ℚ) :
    NoLess n (n.begin cfg op now).1 := by
  obtain ⟨-, htracker, hrest, -⟩ := SyncNode.begin_frame cfg n op now
  refine ⟨hrest.elector, fun k hk => ?_⟩
  rw [htracker]
  exact hk

theorem noLess_put (n : SyncNode) (entry : StoreEntry) : NoLess n (n.put entry) := by
  refine ⟨(SyncNode.sameRest_put n entry).elector, fun k hk => ?_⟩
  rw [SyncNode.dirtyTracker_put]
  exact hk

theorem noLess_advance (n : SyncNode) (now : ℚ) (call : RegistryCall) :
    NoLess n (call.advance n now).1 := by
  cases call with
  | putting p => exact noLess_put n p.entry
  | raised event => exact ⟨rfl, fun _ hk => hk⟩
  | marking entry =>
    refine ⟨(SyncNode.sameRest_mark n now entry).elector, fun k hk => ?_⟩
    show (n.mark now entry).dirtyTracker.pending k ≠ none
    rw [SyncNode.pending_mark]
    by_cases hkey : k = entry.key
    · rw [hkey, Function.update_self]
      exact Option.some_ne_none _
    · rwa [Function.update_of_ne hkey]

/-- A thread that does not flush. -/
def flushes : ThreadAction → Bool
  | .tick .. | .drain | .applyLocal => true
  | _ => false

theorem noLess_step {s t : SyncThreads} {action : ThreadAction}
    (h : s.step cfg action = some t) (haction : flushes action = false) :
    NoLess s.node t.node ∧ t.flushing = s.flushing := by
  cases action with
  | begin op now =>
    cases h
    exact ⟨noLess_begin s.node op now, rfl⟩
  | advance call now =>
    have hadvances := SyncThreads.advances_of_advance h
    rw [hadvances.node]
    exact ⟨noLess_advance s.node now call, hadvances.flushing⟩
  | snapshot push =>
    simp only [SyncThreads.step] at h
    split_ifs at h <;> cases h <;> exact ⟨⟨rfl, fun _ hk => hk⟩, rfl⟩
  | mergePush =>
    simp only [SyncThreads.step] at h
    split at h <;> cases h
    exact ⟨⟨rfl, fun _ hk => hk⟩, rfl⟩
  | pullRemote incoming =>
    simp only [SyncThreads.step] at h
    split_ifs at h
    split at h <;> cases h <;> exact ⟨⟨rfl, fun _ hk => hk⟩, rfl⟩
  | receive r now =>
    cases SyncThreads.receives_of_step h with
    | done | skip | delete => exact ⟨⟨rfl, fun _ hk => hk⟩, rfl⟩
    | put => exact ⟨noLess_put _ _, rfl⟩
    | call => exact ⟨noLess_advance _ _ _, rfl⟩
  | tick members now | drain | applyLocal => cases haction

namespace AckInv

/-- A step that sends nothing, acknowledges nothing, does not flush and takes no entry away. -/
theorem frame (h : s.AckInv) (hn : NoLess s.node t.node)
    (hflushing : t.threads.flushing = s.threads.flushing) (haccepted : t.accepted = s.accepted)
    (hhandling : t.handling = s.handling) (hack : t.acknowledged = s.acknowledged)
    (hsent : t.sent = s.sent) : t.AckInv := by
  have hleads := hn.isLeader
  refine ⟨fun hactive => ?_, fun ack hmem => ?_, fun ack hmem => ?_, fun ack hmem hdue => ?_⟩
  · rw [haccepted, hhandling, hflushing] at hactive
    rw [hleads]
    exact h.leads hactive
  · rw [hsent]
    exact h.counted ack (hack ▸ hmem)
  · unfold Pushed Pending Leaving
    rw [hsent, hleads, hflushing]
    exact (h.kept ack (hack ▸ hmem)).imp_right (And.imp_right (Or.imp_left (hn.2 ack.key)))
  · unfold Pushed dueMembers Leaving
    rw [hsent, hflushing]
    exact (h.due ack (hack ▸ hmem) hdue).imp_right
      (Or.imp_left (And.imp_right (hn.2 ack.key)))

/-- The handler calls its registry. -/
theorem handle (h : s.AckInv) {op : RegistryOp} (now : ℚ) (hop : s.accepted = some op) :
    AckInv
      { s with
        threads := { s.threads with node := (s.node.begin cfg op now).1 }
        accepted := none
        handling := (s.node.begin cfg op now).2 } := by
  have hn : NoLess s.node (s.node.begin cfg op now).1 := noLess_begin s.node op now
  have hframe : AckInv
      { s with threads := { s.threads with node := (s.node.begin cfg op now).1 } } :=
    h.frame hn rfl rfl rfl rfl rfl
  refine ⟨fun _ => ?_, hframe.counted, hframe.kept, hframe.due⟩
  exact hn.isLeader.trans (h.leads (Or.inl (by rw [hop]; exact Option.some_ne_none op)))

/-- The next piece of the handler's call. -/
theorem advance (h : s.AckInv) {call : RegistryCall} (now : ℚ) (hcall : s.handling = some call)
    (hfinds : Finds s.node call) :
    AckInv
      { s with
        threads := { s.threads with node := (call.advance s.node now).1 }
        handling := (call.advance s.node now).2
        acknowledged :=
          if (call.advance s.node now).2 = none then
            ⟨call.key, s.sent.length, s.dueMembers.any (· ≠ [])⟩ :: s.acknowledged
          else s.acknowledged } := by
  have hn : NoLess s.node (call.advance s.node now).1 := noLess_advance s.node now call
  have hframe : AckInv
      { s with threads := { s.threads with node := (call.advance s.node now).1 } } :=
    h.frame hn rfl rfl rfl rfl rfl
  have hleads : (call.advance s.node now).1.isLeader = true := by
    rw [hn.isLeader]
    exact h.leads (Or.inr (Or.inl (by rw [hcall]; exact Option.some_ne_none call)))
  split_ifs with hlast
  · -- the last piece is a mark
    have hpending : (call.advance s.node now).1.dirtyTracker.pending call.key ≠ none := by
      cases call with
      | putting p => cases hlast
      | raised event => exact absurd (Option.map_eq_none_iff.1 hlast) hfinds
      | marking entry =>
        show (s.node.mark now entry).dirtyTracker.pending entry.key ≠ none
        rw [SyncNode.pending_mark, Function.update_self]
        exact Option.some_ne_none _
    refine ⟨fun _ => hleads, fun ack hack => ?_, fun ack hack => ?_, fun ack hack hdue => ?_⟩
    · rcases List.mem_cons.1 hack with rfl | hack
      · exact le_rfl
      · exact h.counted ack hack
    · rcases List.mem_cons.1 hack with rfl | hack
      · exact Or.inr ⟨hleads, Or.inl hpending⟩
      · exact hframe.kept ack hack
    · rcases List.mem_cons.1 hack with rfl | hack
      · obtain ⟨members, hmembers, hne⟩ := (Option.any_eq_true ..).1 hdue
        exact Or.inr (Or.inl ⟨⟨members, hmembers, of_decide_eq_true hne⟩, hpending⟩)
      · exact hframe.due ack hack hdue
  · exact ⟨fun _ => hleads, hframe.counted, hframe.kept, hframe.due⟩

/-- What has been pushed stays so. -/
theorem pushed_append {ack : Ack} (h : s.Pushed ack) (pushes : List StatePush)
    (hsent : t.sent = s.sent ++ pushes) : t.Pushed ack := by
  obtain ⟨push, hpush, hk⟩ := h
  refine ⟨push, ?_, hk⟩
  rw [hsent, List.drop_append]
  exact List.mem_append_left _ hpush

/-- A change that is due has been pushed, unless its flush is still going on. -/
theorem pushed_of_due (h : s.AckInv) {ack : Ack} (hack : ack ∈ s.acknowledged)
    (hdue : ack.due = true) (hmembers : ∀ members, s.dueMembers = some members → members = [])
    (hleaving : ¬ s.Leaving ack) : s.Pushed ack := by
  rcases h.due ack hack hdue with hpushed | ⟨⟨members, heq, hne⟩, -⟩ | hleaving'
  · exact hpushed
  · exact absurd (hmembers members heq) hne
  · exact absurd hleaving' hleaving

/-- A tick up to the check whether a flush is due. -/
theorem tick (h : s.AckInv) {members : List EndpointId} {now : ℚ} {threads : SyncThreads}
    (hG : s.HandOverGuard (.thread (.tick members now)))
    (hstep : s.threads.step cfg (.tick members now) = some threads) :
    AckInv { s with
      threads := threads
      acknowledged := s.acknowledgedAfter cfg (.tick members now) } := by
  have hidle : s.threads.flushing = none := by
    by_contra hne
    simp [SyncThreads.step, Option.isSome_iff_ne_none.2 hne] at hstep
  have hleaving (ack : Ack) : ¬ s.Leaving ack := by
    rintro ⟨members, mutation, heq, -⟩
    rw [hidle] at heq
    cases heq
  have hpushed (ack : Ack) (hack : ack ∈ s.acknowledged) (hdue : ack.due = true) :
      s.Pushed ack := by
    refine h.pushed_of_due hack hdue (fun members heq => ?_) (hleaving ack)
    unfold dueMembers at heq
    rw [hidle] at heq
    cases heq
  have hwaits (ack : Ack) (hack : ack ∈ s.acknowledged) : s.Pushed ack ∨
      s.node.isLeader = true ∧ s.node.dirtyTracker.pending ack.key ≠ none :=
    (h.kept ack hack).imp_right (And.imp_right fun hwaits => hwaits.resolve_right (hleaving ack))
  simp only [SyncThreads.step, hidle, Option.isSome_none, Bool.false_eq_true, if_false] at hstep
  split_ifs at hstep with hflush
  · cases hstep
    have hkept (ack : Ack) (hack : ack ∈ s.acknowledged) : s.Pushed ack ∨
        (s.node.recompute members).isLeader = true ∧
          s.node.dirtyTracker.pending ack.key ≠ none :=
      (hwaits ack hack).imp_right (And.imp_left fun _ => hflush.1)
    by_cases hmembers : members = []
    · have hnot : ¬ s.FallsDue cfg members now := fun hfalls => hfalls.1 hmembers
      simp only [acknowledgedAfter, if_neg hnot]
      refine ⟨fun _ => hflush.1, h.counted, fun ack hack => ?_, fun ack hack hdue => ?_⟩
      · exact (hkept ack hack).imp_right (And.imp_right Or.inl)
      · exact Or.inl (hpushed ack hack hdue)
    · have hfalls : s.FallsDue cfg members now := ⟨hmembers, hflush⟩
      simp only [acknowledgedAfter, if_pos hfalls]
      refine ⟨fun _ => hflush.1, fun ack hack => ?_, fun ack hack => ?_, fun ack hack _ => ?_⟩
      all_goals obtain ⟨ack, hmem, rfl⟩ := List.mem_map.1 hack
      · exact h.counted ack hmem
      · exact (hkept ack hmem).imp_right (And.imp_right Or.inl)
      · exact (hkept ack hmem).imp_right fun hpending =>
          Or.inl ⟨⟨members, rfl, hmembers⟩, hpending.2⟩
  · cases hstep
    have hnot : ¬ s.FallsDue cfg members now := fun hfalls => hflush hfalls.2
    simp only [acknowledgedAfter, if_neg hnot]
    by_cases hleads : (s.node.recompute members).isLeader = true
    · refine ⟨fun _ => hleads, h.counted, fun ack hack => ?_, fun ack hack hdue => ?_⟩
      · exact (hwaits ack hack).imp_right fun hpending => ⟨hleads, Or.inl hpending.2⟩
      · exact Or.inl (hpushed ack hack hdue)
    · have hall (ack : Ack) (hack : ack ∈ s.acknowledged) : s.Pushed ack := by
        by_cases hled : s.node.isLeader = true
        · exact hpushed ack hack ((hG ⟨hled, hleads⟩).2.2 ack hack)
        · exact (hwaits ack hack).resolve_right fun hpending => hled hpending.1
      refine ⟨fun hactive => ?_, h.counted, fun ack hack => Or.inl (hall ack hack),
        fun ack hack _ => Or.inl (hall ack hack)⟩
      -- a command in progress would have to be that of a leader
      by_cases hled : s.node.isLeader = true
      · obtain ⟨haccepted, hhandling, -⟩ := hG ⟨hled, hleads⟩
        rcases hactive with hne | hne | hne
        · exact absurd haccepted hne
        · exact absurd hhandling hne
        · exact absurd rfl hne
      · refine absurd (h.leads (hactive.imp_right (Or.imp_right fun hne => ?_))) hled
        exact absurd rfl hne

/-- A drain moves what is pending onto its way out. -/
theorem drain (h : s.AckInv) {members : List EndpointId}
    (hflushing : s.threads.flushing = some (.due members))
    (hG : s.HandOverGuard (.thread .drain)) :
    AckInv { s with threads := { s.threads with
      node := { s.node with dirtyTracker := s.node.dirtyTracker.drain.2 }
      flushing := some (.drained members s.node.dirtyTracker.drain.1) } } := by
  have hmembers : s.dueMembers = some members := by
    unfold dueMembers
    rw [hflushing]
  have hleads : s.node.isLeader = true :=
    h.leads (Or.inr (Or.inr (by rw [hflushing]; exact Option.some_ne_none _)))
  have hleaving (ack : Ack) : ¬ s.Leaving ack := by
    rintro ⟨members', mutation, heq, -⟩
    rw [hflushing] at heq
    cases heq
  have hmoved (ack : Ack) (hack : ack ∈ s.acknowledged) : s.Pushed ack ∨
      members ≠ [] ∧ s.node.dirtyTracker.drain.1.changes ack.key ≠ none := by
    by_cases hne : members = []
    · refine Or.inl (h.pushed_of_due hack (hG (hne ▸ hmembers) ack hack) (fun members' heq => ?_)
        (hleaving ack))
      rw [hmembers] at heq
      cases heq
      exact hne
    · refine (h.kept ack hack).imp_right fun hpending => ⟨hne, ?_⟩
      exact hpending.2.resolve_right (hleaving ack)
  refine ⟨fun _ => hleads, h.counted, fun ack hack => ?_, fun ack hack _ => ?_⟩
  · exact (hmoved ack hack).imp_right fun hout =>
      ⟨hleads, Or.inr ⟨members, _, rfl, hout.1, hout.2⟩⟩
  · exact (hmoved ack hack).imp_right fun hout => Or.inr ⟨members, _, rfl, hout.1, hout.2⟩

/-- What was drained is pushed to the members. -/
theorem applyLocal (h : s.AckInv) {members : List EndpointId} {mutation : StateMutation}
    (hflushing : s.threads.flushing = some (.drained members mutation)) :
    AckInv { s with
      threads := { s.threads with
        node := { s.node with state := s.node.state.applyLocal mutation }
        flushing := none }
      sent := s.sent ++ s.sending .applyLocal } := by
  set t : AckNode := { s with
    threads := { s.threads with
      node := { s.node with state := s.node.state.applyLocal mutation }
      flushing := none }
    sent := s.sent ++ s.sending .applyLocal } with ht
  have hleads : s.node.isLeader = true :=
    h.leads (Or.inr (Or.inr (by rw [hflushing]; exact Option.some_ne_none _)))
  have hmembers : s.dueMembers = none := by
    unfold dueMembers
    rw [hflushing]
  have hsent {ack : Ack} (hack : ack ∈ s.acknowledged) (hleaving : s.Leaving ack) :
      t.Pushed ack := by
    obtain ⟨members', mutation', heq, hne, hchange⟩ := hleaving
    rw [hflushing] at heq
    cases heq
    obtain ⟨member, hmember⟩ := List.exists_mem_of_ne_nil members hne
    have hempty : ¬ mutation.isEmpty := by
      intro hempty
      rw [StateMutation.changes_eq_empty hempty] at hchange
      exact hchange rfl
    refine ⟨StatePush.ofMutation s.node.elector.view
      (memberIdsOf s.node.elector.selfId members).toFinset mutation, ?_, hchange⟩
    show _ ∈ (s.sent ++ _).drop ack.before
    rw [List.drop_append_of_le_length (h.counted ack hack)]
    refine List.mem_append_right _ ?_
    simp only [sending, SyncThreads.pushes, hflushing, if_neg hempty, List.map_map]
    exact List.mem_map.2 ⟨member, hmember, rfl⟩
  refine ⟨fun _ => hleads, fun ack hack => ?_, fun ack hack => ?_, fun ack hack hdue => ?_⟩
  · have hle := h.counted ack hack
    show ack.before ≤ (s.sent ++ _).length
    rw [List.length_append]
    omega
  · rcases h.kept ack hack with hpushed | ⟨-, hpending | hleaving⟩
    · exact Or.inl (pushed_append hpushed _ rfl)
    · exact Or.inr ⟨hleads, Or.inl hpending⟩
    · exact Or.inl (hsent hack hleaving)
  · refine Or.inl ?_
    rcases h.due ack hack hdue with hpushed | ⟨⟨members', heq, -⟩, -⟩ | hleaving
    · exact pushed_append hpushed _ rfl
    · rw [hmembers] at heq
      cases heq
    · exact hsent hack hleaving

theorem step (h : s.AckInv) (hG : s.HandOverGuard a) (hstep : s.step cfg a = some t) :
    t.AckInv := by
  cases a with
  | accept op =>
    simp only [AckNode.step] at hstep
    split_ifs at hstep with haccept
    cases hstep
    exact ⟨fun _ => haccept.2.2.2, h.counted, h.kept, h.due⟩
  | handle now =>
    obtain ⟨op, hop, rfl⟩ := Option.map_eq_some_iff.1 hstep
    exact h.handle now hop
  | advance now =>
    obtain ⟨call, hcall, rfl⟩ := Option.map_eq_some_iff.1 hstep
    exact h.advance now hcall (hG call hcall)
  | thread action =>
    obtain ⟨threads, hthreads, rfl⟩ := Option.map_eq_some_iff.1 hstep
    cases haction : flushes action with
    | false =>
      obtain ⟨hn, hflushing⟩ := noLess_step hthreads haction
      refine h.frame hn hflushing rfl rfl ?_ ?_
      · cases action <;> first | rfl | cases haction
      · cases action <;> first | exact List.append_nil _ | cases haction
    | true =>
      cases action with
      | tick members now =>
        have htick := h.tick hG hthreads
        simpa only [sending, List.append_nil] using htick
      | drain =>
        simp only [SyncThreads.step] at hthreads
        split at hthreads
        · rename_i members hflushing
          cases hthreads
          have hdrain := h.drain hflushing hG
          simpa only [sending, acknowledgedAfter, List.append_nil, node] using hdrain
        · cases hthreads
      | applyLocal =>
        simp only [SyncThreads.step] at hthreads
        split at hthreads
        · rename_i members mutation hflushing
          cases hthreads
          exact h.applyLocal hflushing
        · cases hthreads
      | _ => cases haction

end AckInv

/-- In a run without a hasty change of leadership every acknowledged change has been pushed since,
or waits at an endpoint that leads; so an endpoint that leads no longer has pushed all of them. -/
theorem pushedOrPending_of_reach {selfId : EndpointId}
    (h : Reach (step cfg) HandOverGuard (boot selfId) s) :
    (∀ ack ∈ s.acknowledged, s.Pushed ack ∨ s.Pending ack) ∧
      (s.node.isLeader = false → ∀ ack ∈ s.acknowledged, s.Pushed ack) := by
  have hinv : s.AckInv :=
    Reach.invariant (ackInv_boot selfId) (fun _ _ _ hs hG hstep => hs.step hG hstep) h
  refine ⟨hinv.kept, fun hfollows ack hack => ?_⟩
  refine (hinv.kept ack hack).resolve_right fun hpending => ?_
  have hleads := hpending.1
  rw [hfollows] at hleads
  cases hleads

/-- A configuration under which a change is flushed five seconds later. -/
def patientConfig : SyncConfig where
  blobBackends := ["fs"]
  maxDirtyCount := 50
  idleSeconds := 5
  sha256 := fun _ => ""

/-- The command that registers a dataset. -/
def registerDataset : RegistryOp := .registerData ⟨"d", 1⟩ "raw" "fs" 1 1 none "sha256"

/-- The endpoint is elected, and acknowledges the registration. -/
def acknowledging : List AckAction :=
  [.thread (.tick ["0"] 0), .accept registerDataset, .handle 1, .advance 1, .advance 1, .advance 1]

/-- A dataset is registered and flushed, and then the endpoint steps down. -/
theorem pushed_beforeStepDown : ∃ s : AckNode,
    Reach (step patientConfig) HandOverGuard (boot "a") s ∧
      s.node.isLeader = false ∧ s.acknowledged = [⟨.data ⟨"d", 1⟩, 0, true⟩] ∧
      s.Pushed ⟨.data ⟨"d", 1⟩, 0, true⟩ := by
  obtain ⟨s, hs, htest⟩ := exists_reach_of_guarded_run (step patientConfig)
    HandOverGuard (boot "a")
    (fun s => !s.node.isLeader && decide (s.acknowledged = [⟨.data ⟨"d", 1⟩, 0, true⟩]))
    (acknowledging ++ [.thread (.tick ["0"] 2), .thread (.tick ["0"] 6), .thread .drain,
      .thread .applyLocal, .thread (.tick ["0", "b"] 7)])
    (by decide +kernel)
  simp only [Bool.and_eq_true, Bool.not_eq_true', decide_eq_true_eq] at htest
  obtain ⟨hfollows, hacknowledged⟩ := htest
  exact ⟨s, hs, hfollows, hacknowledged, (pushedOrPending_of_reach hs).2 hfollows _
    (by rw [hacknowledged]; exact List.mem_singleton_self _)⟩

/-- When the endpoint steps down before the flush, the acknowledged dataset stays in its tracker,
and nobody has received it. -/
theorem acknowledgedStranded : ∃ s : AckNode,
    Reach (step patientConfig) Always (boot "a") s ∧ s.node.isLeader = false ∧
      ⟨.data ⟨"d", 1⟩, 0, false⟩ ∈ s.acknowledged ∧ ¬ s.Pushed ⟨.data ⟨"d", 1⟩, 0, false⟩ ∧
      s.node.dirtyTracker.pending (.data ⟨"d", 1⟩) ≠ none := by
  obtain ⟨s, hs, htest⟩ := exists_reach_of_run (step patientConfig) (boot "a")
    (fun s => !s.node.isLeader && decide (⟨.data ⟨"d", 1⟩, 0, false⟩ ∈ s.acknowledged) &&
      decide (¬ s.Pushed ⟨.data ⟨"d", 1⟩, 0, false⟩) &&
      decide (s.node.dirtyTracker.pending (.data ⟨"d", 1⟩) ≠ none))
    (acknowledging ++ [.thread (.tick ["0", "b"] 2)])
    (by decide +kernel)
  simp only [Bool.and_eq_true, Bool.not_eq_true', decide_eq_true_eq] at htest
  obtain ⟨⟨⟨hfollows, hmem⟩, hpushed⟩, hpending⟩ := htest
  exact ⟨s, hs, hfollows, hmem, hpushed, hpending⟩

end AckNode

end Axo
