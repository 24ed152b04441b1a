import Axo.Service.Failover

/-!
# Granting after a failover

A leader's ledger is ready when it boots and after a reconciliation, and not in between.
`AwaitsReconciliation` is the guard under which readiness says what it should: the take-over was
seen by a tick, its thread has begun, and no earlier reconciliation has made the ledger ready
again.  `TakeOverInv` is what each step then keeps of a node, and `reconciled_of_granted` the
result for whole runs.
-/

namespace Axo

open ConcurrencyLedger Transition

/-! ### A node and its take-overs -/

/-- The reconciliation of the last take-over is complete, has not begun, or keeps the ledger from
being ready. -/
structure TakeOverInv (n : EndpointNode) : Prop where
  started : ∀ t ∈ n.threads, t.takeOver ≤ n.takeOvers
  last : 0 < n.takeOvers → n.takeOvers ∈ n.reconciled ∨
    ∃ t ∈ n.threads, t.takeOver = n.takeOvers ∧ (t.progress = none ∨ n.ledger.ready = false)

namespace TakeOverInv

variable {n n' : EndpointNode}

theorem fresh (strategy : String) (e : EndpointId) (k : ℕ) :
    TakeOverInv (.fresh strategy e k) where
  started := by simp [EndpointNode.fresh]
  last := fun h => absurd h (lt_irrefl 0)

/-- A step that leaves the threads and the readiness of the ledger alone. -/
theorem congr (h : TakeOverInv n) (hthreads : n'.threads = n.threads)
    (htakeOvers : n'.takeOvers = n.takeOvers) (hreconciled : n'.reconciled = n.reconciled)
    (hready : n'.ledger.ready = n.ledger.ready) : TakeOverInv n' where
  started := by
    rw [hthreads, htakeOvers]
    exact h.started
  last := by
    rw [hthreads, htakeOvers, hreconciled, hready]
    exact h.last

/-- A take-over starts a thread of its own. -/
theorem onConsensusViewChanged (h : TakeOverInv n) (event : ConsensusEvent) :
    TakeOverInv (n.onConsensusViewChanged event) := by
  cases event with
  | consensusViewChanged term wasLeader isLeader leaderIds =>
    rw [EndpointNode.onConsensusViewChanged]
    split_ifs
    · refine ⟨fun t ht => ?_, fun _ => Or.inr ⟨_, List.mem_cons_self, rfl, Or.inl rfl⟩⟩
      rcases List.mem_cons.1 ht with rfl | ht
      · exact le_refl _
      · exact Nat.le_succ_of_le (h.started t ht)
    · exact h
  | _ => exact h

theorem tick (h : TakeOverInv n) (members : List EndpointId) : TakeOverInv (n.tick members) := by
  have hfold : ∀ (events : List ConsensusEvent) (m : EndpointNode), TakeOverInv m →
      TakeOverInv (events.foldl EndpointNode.onConsensusViewChanged m) := by
    intro events
    induction events with
    | nil => exact fun _ hm => hm
    | cons event events ih => exact fun m hm => ih _ (hm.onConsensusViewChanged event)
  exact hfold _ _ (h.congr rfl rfl rfl rfl)

/-- A thread goes on while the ledger is not ready, or without changing its readiness. -/
theorem advance (h : TakeOverInv n) {thread : ReconcileThread} {r : Reconciliation}
    {ledger : ConcurrencyLedger} (hmem : thread ∈ n.threads)
    (hready : ledger.ready = false ∨ thread.progress ≠ none ∧ ledger.ready = n.ledger.ready) :
    TakeOverInv { n with ledger := ledger, threads := n.advance thread r } where
  started := by
    intro t ht
    rcases List.mem_cons.1 ht with rfl | ht
    · exact h.started thread hmem
    · exact h.started t (List.mem_of_mem_erase ht)
  last := by
    intro hpos
    rcases h.last hpos with hdone | ⟨t, ht, hlast, hstate⟩
    · exact Or.inl hdone
    refine Or.inr ?_
    by_cases heq : t = thread
    · subst heq
      refine ⟨_, List.mem_cons_self, hlast, Or.inr ?_⟩
      rcases hready with hr | ⟨hbegun, hr⟩
      · exact hr
      · exact hr.trans (hstate.resolve_left hbegun)
    · refine ⟨t, List.mem_cons_of_mem _ ((List.mem_erase_of_ne heq).2 ht), hlast, ?_⟩
      rcases hready with hr | ⟨-, hr⟩
      · exact Or.inr hr
      · exact hstate.imp_right hr.trans

/-- A thread writes the ledger, none of a later take-over being under way. -/
theorem write (h : TakeOverInv n) {thread : ReconcileThread} {ledger : ConcurrencyLedger}
    (hmem : thread ∈ n.threads)
    (hG : ∀ t ∈ n.threads, thread.takeOver < t.takeOver → t.progress = none) :
    TakeOverInv { n with
      ledger := ledger
      threads := n.threads.erase thread
      reconciled := thread.takeOver :: n.reconciled } where
  started := fun t ht => h.started t (List.mem_of_mem_erase ht)
  last := by
    intro hpos
    rcases h.last hpos with hdone | ⟨t, ht, hlast, -⟩
    · exact Or.inl (List.mem_cons_of_mem _ hdone)
    rcases eq_or_lt_of_le (h.started thread hmem) with heq | hlt
    · refine Or.inl ?_
      show n.takeOvers ∈ thread.takeOver :: n.reconciled
      rw [heq]
      exact List.mem_cons_self
    · have hne : t ≠ thread := by
        rintro rfl
        omega
      exact Or.inr ⟨t, (List.mem_erase_of_ne hne).2 ht, hlast,
        Or.inl (hG t ht (by omega))⟩

end TakeOverInv

/-! ### Runs -/

namespace Failover

variable {strategy : String} {s t : Failover} {a : FailoverAction}

/-- The guard, at the node that the step is about.  A request that would be granted while there
are foreign containers comes after a take-over that a tick has seen, whose thread has begun; and
an overtaken thread does not write while the thread of a later take-over is under way. -/
def AwaitsAt (s : Failover) (n : EndpointNode) : FailoverAction → Prop
  | .answer _ requesterId key maxConcurrency _ =>
    n.ledger.ready = true → n.ledger.idleOwners key requesterId = [] →
      (Dict.size (n.ledger.slots key) : ℤ) < max 1 maxConcurrency → s.ForeignLive n key →
        0 < n.takeOvers ∧ ∀ t ∈ n.threads, t.takeOver = n.takeOvers → t.progress ≠ none
  | .reconcileWrite _ thread =>
    ∀ t ∈ n.threads, thread.takeOver < t.takeOver → t.progress = none
  | _ => True

def AwaitsReconciliation (s : Failover) (a : FailoverAction) : Prop :=
  ∀ e ∈ a.subject, ∀ n ∈ s.nodes e, s.AwaitsAt n a

instance (s : Failover) (n : EndpointNode) (a : FailoverAction) : Decidable (s.AwaitsAt n a) :=
  match a with
  | .answer _ _ _ _ _ => inferInstanceAs (Decidable (_ = true → _ = [] → _ < _ → _ → _ ∧ _))
  | .reconcileWrite _ _ => inferInstanceAs (Decidable (∀ t ∈ n.threads, _ → t.progress = none))
  | .boot _ | .stop _ | .tick _ _ | .ingest _ _ _ | .reap _ | .release _ _ | .summon _
  | .forgo _ | .die _ | .reconcileBegin _ _ _ | .reconcilePull _ _ _ =>
    inferInstanceAs (Decidable True)

instance (s : Failover) (a : FailoverAction) : Decidable (s.AwaitsReconciliation a) :=
  inferInstanceAs (Decidable (∀ e ∈ a.subject, ∀ n ∈ s.nodes e, s.AwaitsAt n a))

/-- One step of a node keeps its invariant. -/
theorem onNode_takeOverInv {n n' : EndpointNode} (h : TakeOverInv n) (hG : s.AwaitsAt n a)
    (hn' : s.onNode n a = some n') : TakeOverInv n' := by
  cases a with
  | tick e members =>
    cases hn'
    exact h.tick members
  | ingest e peerId pools =>
    cases hn'
    exact h.congr rfl rfl rfl rfl
  | reap e =>
    obtain ⟨memberIds, -, hn'⟩ := Option.bind_eq_some_iff.1 hn'
    split_ifs at hn'
    cases hn'
    exact h.congr rfl rfl rfl (ready_reapUnknownOwners _ _)
  | answer e requesterId key maxConcurrency draw =>
    simp only [onNode] at hn'
    split_ifs at hn'
    cases hn'
    exact h.congr rfl rfl rfl (ready_requestSlot _ _ _ _ _)
  | release e slot =>
    simp only [onNode] at hn'
    split_ifs at hn'
    cases hn'
    exact h.congr rfl rfl rfl (ready_releaseSlot _ _ _ _)
  | reconcileBegin e thread peers =>
    simp only [onNode] at hn'
    split_ifs at hn' with hthread
    cases hn'
    exact h.advance hthread.1 (Or.inl rfl)
  | reconcilePull e thread answered =>
    obtain ⟨r, hr, hn'⟩ := Option.bind_eq_some_iff.1 hn'
    have hbegun : thread.progress ≠ none := by
      rw [hr]
      exact Option.some_ne_none r
    cases hask : r.toAsk with
    | nil =>
      simp only [hask] at hn'
      cases hn'
    | cons e' rest =>
      simp only [hask] at hn'
      by_cases hthread : thread ∈ n.threads
      · rw [if_pos hthread] at hn'
        cases hn'
        exact h.advance hthread (Or.inr ⟨hbegun, rfl⟩)
      · rw [if_neg hthread] at hn'
        cases hn'
  | reconcileWrite e thread =>
    obtain ⟨r, -, hn'⟩ := Option.bind_eq_some_iff.1 hn'
    split_ifs at hn' with hthread
    cases hn'
    exact h.write hthread.1 hG
  | boot e => cases hn'
  | stop e => cases hn'
  | summon c => cases hn'
  | forgo c => cases hn'
  | die c => cases hn'

/-- After a step a node is as it was, has just booted, or is the one that the step is about. -/
theorem step_nodes (h : step strategy s a = some t) {e : EndpointId} {n' : EndpointNode}
    (hn' : t.nodes e = some n') :
    s.nodes e = some n' ∨ n' = .fresh strategy e (s.boots e) ∨
      ∃ n, a.subject = some e ∧ s.nodes e = some n ∧ s.onNode n a = some n' := by
  -- one node is replaced, by what `onNode` makes of it
  have hset : ∀ (e₀ : EndpointId) (n n₀ : EndpointNode), a.subject = some e₀ →
      s.nodes e₀ = some n → s.onNode n a = some n₀ →
      Function.update s.nodes e₀ (some n₀) e = some n' →
        s.nodes e = some n' ∨ n' = .fresh strategy e (s.boots e) ∨
          ∃ n, a.subject = some e ∧ s.nodes e = some n ∧ s.onNode n a = some n' := by
    intro e₀ n n₀ hsubject hn hn₀ hupdate
    rcases eq_or_ne e e₀ with rfl | hne
    · rw [Function.update_self] at hupdate
      cases hupdate
      exact Or.inr (Or.inr ⟨n, hsubject, hn, hn₀⟩)
    · rw [Function.update_of_ne hne] at hupdate
      exact Or.inl hupdate
  cases a with
  | boot e₀ =>
    cases h
    replace hn' : Function.update s.nodes e₀ (some (.fresh strategy e₀ (s.boots e₀))) e =
      some n' := hn'
    rcases eq_or_ne e e₀ with rfl | hne
    · rw [Function.update_self] at hn'
      cases hn'
      exact Or.inr (Or.inl rfl)
    · rw [Function.update_of_ne hne] at hn'
      exact Or.inl hn'
  | stop e₀ =>
    cases h
    replace hn' : Function.update s.nodes e₀ none e = some n' := hn'
    rcases eq_or_ne e e₀ with rfl | hne
    · rw [Function.update_self] at hn'
      cases hn'
    · rw [Function.update_of_ne hne] at hn'
      exact Or.inl hn'
  | summon c | forgo c | die c =>
    simp only [step] at h
    split_ifs at h
    cases h
    exact Or.inl hn'
  | answer e₀ requesterId key maxConcurrency draw =>
    obtain ⟨n, hn, h⟩ := Option.bind_eq_some_iff.1 h
    obtain ⟨n₀, hn₀, rfl⟩ := Option.map_eq_some_iff.1 h
    refine hset e₀ n n₀ rfl hn hn₀ ?_
    rwa [nodes_granted] at hn'
  | tick e₀ | ingest e₀ | reap e₀ | release e₀ | reconcileBegin e₀ | reconcilePull e₀
  | reconcileWrite e₀ =>
    obtain ⟨n, hn, h⟩ := Option.bind_eq_some_iff.1 h
    obtain ⟨n₀, hn₀, rfl⟩ := Option.map_eq_some_iff.1 h
    exact hset e₀ n n₀ rfl hn hn₀ hn'

/-- In every run under the guard each node keeps its invariant. -/
theorem takeOverInv_of_reach (h : Reach (step strategy) AwaitsReconciliation init s)
    {e : EndpointId} {n : EndpointNode} (hn : s.nodes e = some n) : TakeOverInv n := by
  have hall : ∀ (e : EndpointId) (n : EndpointNode), s.nodes e = some n → TakeOverInv n := by
    refine h.invariant (I := fun s => ∀ e n, s.nodes e = some n → TakeOverInv n) ?_ ?_
    · intro e n hn
      cases hn
    · intro s a t hI hG hstep e n' hn'
      rcases step_nodes hstep hn' with hn | rfl | ⟨n, hsubject, hn, hnode⟩
      · exact hI e n' hn
      · exact .fresh _ _ _
      · exact onNode_takeOverInv (hI e n hn) (hG e hsubject n hn) hnode
  exact hall e n hn

/-- In every run under the guard, a leader that grants a slot, while a member of its view holds a
container that its ledger did not grant, has completed the reconciliation of its last take-over. -/
theorem reconciled_of_granted (strategy : String) (s : Failover)
    (h : Reach (step strategy) AwaitsReconciliation init s) (e requesterId : EndpointId)
    (key : Key) (maxConcurrency : ℤ) (draw : Draw)
    (hG : s.AwaitsReconciliation (.answer e requesterId key maxConcurrency draw))
    (n : EndpointNode) (hn : s.nodes e = some n) (i : ℤ)
    (hgranted : (n.ledger.requestSlot key maxConcurrency requesterId draw).1 = .granted i)
    (hforeign : s.ForeignLive n key) : n.Reconciled := by
  obtain ⟨hready, hidle, hroom⟩ := room_of_granted hgranted
  obtain ⟨hpos, hbegun⟩ := hG e rfl n hn hready hidle hroom hforeign
  refine ⟨hpos, ?_⟩
  rcases (takeOverInv_of_reach h hn).last hpos with hdone | ⟨t, ht, hlast, hnone | hnot⟩
  · exact hdone
  · exact absurd hnone (hbegun t ht hlast)
  · rw [hready] at hnot
    cases hnot

/-- The leader `B` grants `A` a slot and stops; `A` takes over and reconciles. -/
def takeOverAndReconcile : List FailoverAction :=
  [.boot "A", .boot "B", .tick "A" ["B"], .tick "B" ["A"], .answer "B" "A" ("f", 1) 2 default,
    .summon ⟨⟨"A", ("f", 1), 0⟩, "B", 0⟩, .stop "B", .tick "A" [],
    .reconcileBegin "A" ⟨1, none⟩ [], .reconcilePull "A" ⟨1, some ⟨["A"], ∅⟩⟩ false,
    .reconcileWrite "A" ⟨1, some ⟨[], AList.insert "A" [entryOf ("f", 1) 0] ∅⟩⟩]

/-- `A` then grants the other slot, having reconciled the one that it did not grant. -/
theorem reconciled_takeOverAndReconcile :
    ∃ s, Reach (step "round_robin") AwaitsReconciliation init s ∧
      ∃ n, s.nodes "A" = some n ∧ s.ForeignLive n ("f", 1) ∧
        (n.ledger.requestSlot ("f", 1) 2 "A" default).1 = .granted 1 ∧ n.Reconciled := by
  obtain ⟨s, hs, hP⟩ := exists_reach_of_guarded_run (step "round_robin") AwaitsReconciliation init
    (fun s => (s.nodes "A").any fun n => s.ForeignLive n ("f", 1) ∧
      (n.ledger.requestSlot ("f", 1) 2 "A" default).1 = .granted 1 ∧
      s.AwaitsReconciliation (.answer "A" "A" ("f", 1) 2 default))
    takeOverAndReconcile (by decide)
  obtain ⟨n, hn, hn'⟩ := (Option.any_eq_true _ _).1 hP
  obtain ⟨hforeign, hgranted, hG⟩ := of_decide_eq_true hn'
  exact ⟨s, hs, n, hn, hforeign, hgranted,
    reconciled_of_granted "round_robin" s hs "A" "A" ("f", 1) 2 default hG n hn 1 hgranted
      hforeign⟩

/-- `A` leads and has a container; `B`, with a higher id, boots and considers itself leader from
the start, so that no tick sees a take-over and nothing is reconciled. -/
theorem granted_without_reconciliation :
    ∃ s, Reach (step "round_robin") Always init s ∧
      ∃ n, s.nodes "B" = some n ∧ n.isLeader = true ∧ s.ForeignLive n ("f", 1) ∧
        (n.ledger.requestSlot ("f", 1) 1 "B" default).1 = .granted 0 ∧ ¬ n.Reconciled := by
  obtain ⟨s, hs, hP⟩ := exists_reach_of_run (step "round_robin") init
    (fun s => (s.nodes "B").any fun n => n.isLeader = true ∧ s.ForeignLive n ("f", 1) ∧
      (n.ledger.requestSlot ("f", 1) 1 "B" default).1 = .granted 0 ∧ n.takeOvers = 0)
    [.boot "A", .answer "A" "A" ("f", 1) 1 default, .summon ⟨⟨"A", ("f", 1), 0⟩, "A", 0⟩,
      .boot "B", .tick "B" ["A"], .tick "A" ["B"]] (by decide)
  obtain ⟨n, hn, hn'⟩ := (Option.any_eq_true _ _).1 hP
  obtain ⟨hleader, hforeign, hgranted, hnone⟩ := of_decide_eq_true hn'
  refine ⟨s, hs, n, hn, hleader, hforeign, hgranted, fun hreconciled => ?_⟩
  exact absurd hreconciled.1 (by omega)

end Failover

end Axo
