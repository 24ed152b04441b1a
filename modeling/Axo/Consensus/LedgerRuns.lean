import Axo.Consensus.LedgerFacts

/-!
# The ledger over whole histories

`LedgerOp` is one call on a `ConcurrencyLedger` and `ledgerAfter` the ledger after a list of
calls on a fresh one.  `LedgerInv` is the invariant: the ledger is ready, no key has more grants
than its cap, and every granted index is below the cap.  `SoundStep` says all that one call
promises, in terms of the calls before it; `soundStep_ledgerAfter` is that every call in every
history keeps the promise.
-/

namespace Axo

open ConcurrencyLedger

/-- One call on the ledger.  The cap of a request is a parameter of the history, one for each
key. -/
inductive LedgerOp
  | requestSlot (key : Key) (requesterId : EndpointId) (draw : Draw)
  | releaseSlot (key : Key) (slotIndex : ℤ) (endpointId : EndpointId)
  | reapUnknownOwners (known : List EndpointId)
  | ingestPeerMetrics (endpointId : EndpointId) (containerPools : Dict String (Dict String ℤ))

namespace LedgerOp

variable (maxConcurrency : Key → ℤ)

/-- The ledger after the call. -/
def apply (l : ConcurrencyLedger) : LedgerOp → ConcurrencyLedger
  | requestSlot key requesterId draw =>
    (l.requestSlot key (maxConcurrency key) requesterId draw).2
  | releaseSlot key slotIndex endpointId => l.releaseSlot key slotIndex endpointId
  | reapUnknownOwners known => l.reapUnknownOwners known
  | ingestPeerMetrics endpointId containerPools => l.ingestPeerMetrics endpointId containerPools

/-- What the call returns; only a request returns something. -/
def answer (l : ConcurrencyLedger) : LedgerOp → Option SlotDecision
  | requestSlot key requesterId draw =>
    some (l.requestSlot key (maxConcurrency key) requesterId draw).1
  | _ => none

end LedgerOp

/-- The ledger after a history of calls on a fresh one. -/
def ledgerAfter (maxConcurrency : Key → ℤ) (strategy : String) (history : List LedgerOp) :
    ConcurrencyLedger :=
  history.foldl (LedgerOp.apply maxConcurrency) (new strategy)

/-! ### What was gossiped last -/

/-- The idle count that one gossiped metric gives for a key, if it names the key. -/
def gossipedIdle (key : Key) (containerPools : Dict String (Dict String ℤ)) : Option ℤ :=
  containerPools.entries.foldl
    (fun acc e => if parsePoolMetricsKey e.1 = some key then some (Dict.getD e.2 "idle" 0) else acc)
    none

/-- The idle count that an endpoint gossiped last for a key, `0` if it never did. -/
def lastGossipedIdle (key : Key) (endpointId : EndpointId) (history : List LedgerOp) : ℤ :=
  history.foldl
    (fun acc op =>
      match op with
      | .ingestPeerMetrics eid pools =>
        if eid = endpointId then (gossipedIdle key pools).getD acc else acc
      | _ => acc)
    0

/-- The idle count of a table of pool metrics. -/
def idleIn (m : Dict Key (Dict EndpointId (ℤ × ℤ))) (key : Key) (eid : EndpointId) : ℤ :=
  (Dict.getD (Dict.getD m key ∅) eid (0, 0)).2

theorem idleIn_ingestPool (m : Dict Key (Dict EndpointId (ℤ × ℤ))) (e : EndpointId)
    (raw : String) (counts : Dict String ℤ) (key : Key) (eid : EndpointId) :
    idleIn (ingestPool e m raw counts) key eid =
      if e = eid ∧ parsePoolMetricsKey raw = some key then Dict.getD counts "idle" 0
      else idleIn m key eid := by
  unfold ingestPool idleIn
  cases hp : parsePoolMetricsKey raw with
  | none => simp
  | some k =>
    rcases eq_or_ne key k with rfl | hk
    · rcases eq_or_ne eid e with rfl | he
      · simp
      · simp [Dict.getD_insert_ne _ _ _ he, he.symm]
    · simp [Dict.getD_insert_ne _ _ _ hk, hk.symm]

/-- The entries of one metric, folded: the last one that names the key decides. -/
theorem idleIn_foldl_ingestPool (entries : List (Sigma fun _ : String => Dict String ℤ))
    (m : Dict Key (Dict EndpointId (ℤ × ℤ))) (e : EndpointId) (key : Key) (eid : EndpointId)
    (acc : Option ℤ) (hacc : acc.getD (idleIn m key eid) = idleIn m key eid ∨ e ≠ eid) :
    idleIn (entries.foldl (fun m x => ingestPool e m x.1 x.2) m) key eid =
      if e = eid then
        (entries.foldl (fun acc x =>
          if parsePoolMetricsKey x.1 = some key then some (Dict.getD x.2 "idle" 0) else acc)
          acc).getD (idleIn m key eid)
      else idleIn m key eid := by
  induction entries generalizing m acc with
  | nil =>
    rcases hacc with h | h
    · simp [h]
    · simp [h]
  | cons x entries ih =>
    rw [List.foldl_cons, List.foldl_cons]
    by_cases he : e = eid
    · by_cases hp : parsePoolMetricsKey x.1 = some key
      · have hm := idleIn_ingestPool m e x.1 x.2 key eid
        rw [if_pos ⟨he, hp⟩] at hm
        rw [ih _ (some (Dict.getD x.2 "idle" 0)) (Or.inl hm.symm), if_pos he, if_pos he, if_pos hp]
        -- from here on the accumulator is a value, so the default is never used
        exact getD_foldl_some entries _ _ _
      · have hm := idleIn_ingestPool m e x.1 x.2 key eid
        rw [if_neg fun h => hp h.2] at hm
        rw [if_neg hp, ih _ acc (by rw [hm]; exact hacc), hm]
    · have hm := idleIn_ingestPool m e x.1 x.2 key eid
      rw [if_neg fun h => he h.1] at hm
      rw [ih _ none (Or.inr he), if_neg he, if_neg he, hm]
where
  /-- Once a value is found the default is not looked at. -/
  getD_foldl_some (entries : List (Sigma fun _ : String => Dict String ℤ)) (v d d' : ℤ) :
      (entries.foldl (fun acc x =>
        if parsePoolMetricsKey x.1 = some key then some (Dict.getD x.2 "idle" 0) else acc)
        (some v)).getD d =
      (entries.foldl (fun acc x =>
        if parsePoolMetricsKey x.1 = some key then some (Dict.getD x.2 "idle" 0) else acc)
        (some v)).getD d' := by
    induction entries generalizing v with
    | nil => rfl
    | cons x entries ih =>
      rw [List.foldl_cons]
      split_ifs
      · exact ih _
      · exact ih _

theorem idleCount_ingestPeerMetrics (l : ConcurrencyLedger) (e : EndpointId)
    (pools : Dict String (Dict String ℤ)) (key : Key) (eid : EndpointId) :
    (l.ingestPeerMetrics e pools).idleCount key eid =
      if e = eid then (gossipedIdle key pools).getD (l.idleCount key eid)
      else l.idleCount key eid :=
  idleIn_foldl_ingestPool pools.entries l.poolMetrics e key eid none (Or.inl rfl)

/-! ### The invariant -/

/-- The tables of pool metrics agree, and so do the idle counts. -/
theorem idleCount_congr {l l' : ConcurrencyLedger} (h : l'.poolMetrics = l.poolMetrics)
    (key : Key) (eid : EndpointId) : l'.idleCount key eid = l.idleCount key eid := by
  rw [idleCount, h, idleCount]

/-- The ledger is ready, no key is over its cap, and every granted index is below the cap. -/
structure LedgerInv (maxConcurrency : Key → ℤ) (l : ConcurrencyLedger) : Prop where
  ready : l.ready = true
  cap : ∀ key, (Dict.size (l.slots key) : ℤ) ≤ max 1 (maxConcurrency key)
  index : ∀ key i, i ∈ l.slots key → 0 ≤ i ∧ i < max 1 (maxConcurrency key)

section Invariant

variable {maxConcurrency : Key → ℤ} {l l' : ConcurrencyLedger}

theorem ledgerInv_new (strategy : String) : LedgerInv maxConcurrency (new strategy) := by
  refine ⟨rfl, fun key => ?_, fun key i hi => ?_⟩
  · rw [slots_new, Dict.size_empty]
    exact le_trans (by norm_num) (le_max_left 1 _)
  · rw [slots_new] at hi
    exact absurd hi (AList.notMem_empty i)

theorem LedgerInv.sameGrants (h : LedgerInv maxConcurrency l) (hs : SameGrants l l') :
    LedgerInv maxConcurrency l' := by
  refine ⟨hs.ready.trans h.ready, fun key => ?_, fun key => ?_⟩
  · rw [hs.slots]
    exact h.cap key
  · rw [hs.slots]
    exact h.index key

/-- Below the cap, one more grant at the smallest unused index keeps the invariant: that index
is at most the number of grants. -/
theorem LedgerInv.grantedIn {key : Key} {eid : EndpointId} (h : LedgerInv maxConcurrency l)
    (hcap : (Dict.size (l.slots key) : ℤ) < max 1 (maxConcurrency key))
    (hg : GrantedIn l l' key (smallestUnusedIndex (l.slots key)) eid) :
    LedgerInv maxConcurrency l' := by
  refine ⟨hg.ready.trans h.ready, fun key' => ?_, fun key' i hi => ?_⟩
  · rcases eq_or_ne key' key with rfl | hne
    · rw [hg.slots, Dict.size_insert_of_notMem _ (smallestUnusedIndex_notMem _)]
      omega
    · rw [hg.other key' hne]
      exact h.cap key'
  · rcases eq_or_ne key' key with rfl | hne
    · rw [hg.slots, AList.mem_insert] at hi
      rcases hi with rfl | hi
      · have hle := smallestUnusedIndex_le_size (l.slots key')
        exact ⟨smallestUnusedIndex_nonneg _, by omega⟩
      · exact h.index key' i hi
    · rw [hg.other key' hne] at hi
      exact h.index key' i hi

/-- Dropping grants keeps the invariant. -/
theorem LedgerInv.fewer (h : LedgerInv maxConcurrency l) (hready : l'.ready = l.ready)
    (hsize : ∀ key, Dict.size (l'.slots key) ≤ Dict.size (l.slots key))
    (hmem : ∀ key i, i ∈ l'.slots key → i ∈ l.slots key) : LedgerInv maxConcurrency l' := by
  refine ⟨hready.trans h.ready, fun key => ?_, fun key i hi => h.index key i (hmem key i hi)⟩
  exact le_trans (by exact_mod_cast hsize key) (h.cap key)

theorem LedgerInv.releaseSlot (h : LedgerInv maxConcurrency l) (key : Key) (i : ℤ)
    (eid : EndpointId) : LedgerInv maxConcurrency (l.releaseSlot key i eid) := by
  refine h.fewer (ready_releaseSlot l key i eid) (fun key' => ?_) (fun key' j hj => ?_)
  · rw [slots_releaseSlot]
    split_ifs with hk
    · rw [hk.1]
      exact Dict.size_erase_le _ _
    · exact le_rfl
  · obtain ⟨e, he⟩ := Dict.mem_iff_lookup.1 hj
    rw [lookup_releaseSlot] at he
    split_ifs at he
    exact Dict.mem_of_lookup he

theorem LedgerInv.reapUnknownOwners (h : LedgerInv maxConcurrency l)
    (known : List EndpointId) : LedgerInv maxConcurrency (l.reapUnknownOwners known) := by
  refine h.fewer (ready_reapUnknownOwners l known) (size_slots_reapUnknownOwners l known)
    (fun key i hi => ?_)
  obtain ⟨e, he⟩ := Dict.mem_iff_lookup.1 hi
  exact Dict.mem_of_lookup ((lookup_reapUnknownOwners l known key i e).1 he).1

theorem LedgerInv.requestSlot (h : LedgerInv maxConcurrency l) (key : Key) (eid : EndpointId)
    (draw : Draw) :
    LedgerInv maxConcurrency (l.requestSlot key (maxConcurrency key) eid draw).2 := by
  rcases requestSlot_cases l key (maxConcurrency key) eid draw with
    ⟨-, heq⟩ | ⟨-, t, l', heq, -, hs⟩ | ⟨-, -, hcap, l', heq, hg⟩ | ⟨-, -, -, t, l', heq, -, hs⟩
  · rw [heq]
    exact h
  · rw [heq]
    exact h.sameGrants hs
  · rw [heq]
    exact h.grantedIn hcap hg
  · rw [heq]
    exact h.sameGrants hs

theorem LedgerInv.apply (h : LedgerInv maxConcurrency l) (op : LedgerOp) :
    LedgerInv maxConcurrency (op.apply maxConcurrency l) := by
  cases op with
  | requestSlot key eid draw => exact h.requestSlot key eid draw
  | releaseSlot key i eid => exact h.releaseSlot key i eid
  | reapUnknownOwners known => exact h.reapUnknownOwners known
  | ingestPeerMetrics eid pools => exact ⟨h.ready, h.cap, h.index⟩

/-- The invariant holds after every history. -/
theorem ledgerInv_ledgerAfter (maxConcurrency : Key → ℤ) (strategy : String) (history : List LedgerOp) :
    LedgerInv maxConcurrency (ledgerAfter maxConcurrency strategy history) := by
  have hrun : ∀ (history : List LedgerOp) (l : ConcurrencyLedger), LedgerInv maxConcurrency l →
      LedgerInv maxConcurrency (history.foldl (LedgerOp.apply maxConcurrency) l) := by
    intro history
    induction history with
    | nil => exact fun l h => h
    | cons op history ih => exact fun l h => ih _ (h.apply op)
  exact hrun history _ (ledgerInv_new strategy)

end Invariant

/-! ### Idle counts along a history -/

theorem poolMetrics_requestSlot (l : ConcurrencyLedger) (key : Key) (cap : ℤ) (eid : EndpointId)
    (draw : Draw) : (l.requestSlot key cap eid draw).2.poolMetrics = l.poolMetrics := by
  rcases requestSlot_cases l key cap eid draw with
    ⟨-, heq⟩ | ⟨-, t, l', heq, -, hs⟩ | ⟨-, -, -, l', heq, hg⟩ | ⟨-, -, -, t, l', heq, -, hs⟩
  · rw [heq]
  · rw [heq]
    exact hs.poolMetrics
  · rw [heq]
    exact hg.poolMetrics
  · rw [heq]
    exact hs.poolMetrics

/-- The idle count the ledger goes by is the one gossiped last. -/
theorem idleCount_ledgerAfter (maxConcurrency : Key → ℤ) (strategy : String)
    (history : List LedgerOp) (key : Key) (eid : EndpointId) :
    (ledgerAfter maxConcurrency strategy history).idleCount key eid =
      lastGossipedIdle key eid history := by
  induction history using List.reverseRecOn with
  | nil => rfl
  | append_singleton history op ih =>
    rw [ledgerAfter, List.foldl_append, List.foldl_cons, List.foldl_nil, ← ledgerAfter,
      lastGossipedIdle, List.foldl_append, List.foldl_cons, List.foldl_nil, ← lastGossipedIdle,
      ← ih]
    cases op with
    | requestSlot k e draw => exact idleCount_congr (poolMetrics_requestSlot _ _ _ _ _) key eid
    | releaseSlot k i e => exact idleCount_congr (poolMetrics_releaseSlot _ _ _ _) key eid
    | reapUnknownOwners known => exact idleCount_congr (poolMetrics_reapUnknownOwners _ _) key eid
    | ingestPeerMetrics e pools => exact idleCount_ingestPeerMetrics _ e pools key eid

/-! ### What every call promises -/

/-- The key whose grants a call may change; a reap may change all of them. -/
def LedgerOp.concerns : LedgerOp → Key → Prop
  | .requestSlot key _ _, key' => key' = key
  | .releaseSlot key _ _, key' => key' = key
  | .reapUnknownOwners _, _ => True
  | .ingestPeerMetrics _ _, _ => False

/-- All that one call promises after a history: the caps, the indices, what the answers mean
and what the call leaves alone. -/
structure SoundStep (maxConcurrency : Key → ℤ) (strategy : String) (history : List LedgerOp)
    (op : LedgerOp) (before after : ConcurrencyLedger) : Prop where
  cap : ∀ key, (Dict.size (after.slots key) : ℤ) ≤ max 1 (maxConcurrency key)
  index : ∀ key i, i ∈ after.slots key → 0 ≤ i ∧ i < max 1 (maxConcurrency key)
  granted : ∀ key eid draw i, op = .requestSlot key eid draw →
    op.answer maxConcurrency before = some (.granted i) →
      i ∉ before.slots key ∧ (after.slots key).lookup i = some eid ∧
        ∀ owner ∈ ownersOf (before.slots key), owner ≠ eid →
          lastGossipedIdle key owner history ≤ 0
  place : ∀ key eid draw t, op = .requestSlot key eid draw →
    op.answer maxConcurrency before = some (.place t) →
      (∃ i, (before.slots key).lookup i = some t) ∧ ∃ i, (after.slots key).lookup i = some t
  noRetry : op.answer maxConcurrency before ≠ some .retry
  frame : ∀ key, ¬ op.concerns key → after.slots key = before.slots key
  reap : ∀ known, op = .reapUnknownOwners known → ∀ key i eid,
    (after.slots key).lookup i = some eid ↔ (before.slots key).lookup i = some eid ∧ eid ∈ known

section Step

variable {maxConcurrency : Key → ℤ} {l : ConcurrencyLedger} {key : Key} {eid : EndpointId}
  {draw : Draw}

/-- What a granted answer means. -/
theorem requestSlot_granted {i : ℤ} {cap : ℤ}
    (h : (l.requestSlot key cap eid draw).1 = .granted i) :
    i ∉ l.slots key ∧ ((l.requestSlot key cap eid draw).2.slots key).lookup i = some eid ∧
      l.idleOwners key eid = [] := by
  rcases requestSlot_cases l key cap eid draw with
    ⟨-, heq⟩ | ⟨-, t, l', heq, -, -⟩ | ⟨-, hidle, -, l', heq, hg⟩ | ⟨-, -, -, t, l', heq, -, -⟩
  · rw [heq] at h
    cases h
  · rw [heq] at h
    cases h
  · rw [heq] at h
    cases h
    refine ⟨smallestUnusedIndex_notMem _, ?_, hidle⟩
    rw [heq, hg.slots, AList.lookup_insert]
  · rw [heq] at h
    cases h

/-- What a place answer means: the target owns a slot, and the grants stay as they are. -/
theorem requestSlot_place {t : EndpointId} {cap : ℤ}
    (h : (l.requestSlot key cap eid draw).1 = .place t) :
    t ∈ ownersOf (l.slots key) ∧
      (l.requestSlot key cap eid draw).2.slots key = l.slots key := by
  rcases requestSlot_cases l key cap eid draw with
    ⟨-, heq⟩ | ⟨-, t, l', heq, ht, hs⟩ | ⟨-, -, -, l', heq, -⟩ | ⟨-, -, -, t, l', heq, ht, hs⟩
  · rw [heq] at h
    cases h
  · rw [heq] at h
    cases h
    rw [heq]
    exact ⟨(mem_idleOwners.1 ht).1, hs.slots key⟩
  · rw [heq] at h
    cases h
  · rw [heq] at h
    cases h
    rw [heq]
    exact ⟨ht, hs.slots key⟩

/-- A ready ledger never answers `retry`. -/
theorem requestSlot_ne_retry {cap : ℤ} (hready : l.ready = true) :
    (l.requestSlot key cap eid draw).1 ≠ .retry := by
  rcases requestSlot_cases l key cap eid draw with
    ⟨hr, -⟩ | ⟨-, t, l', heq, -⟩ | ⟨-, -, -, l', heq, -⟩ | ⟨-, -, -, t, l', heq, -⟩
  · rw [hready] at hr
    cases hr
  all_goals
    rw [heq]
    exact SlotDecision.noConfusion

theorem slots_requestSlot_ne {cap : ℤ} {key' : Key} (h : key' ≠ key) :
    (l.requestSlot key cap eid draw).2.slots key' = l.slots key' := by
  rcases requestSlot_cases l key cap eid draw with
    ⟨-, heq⟩ | ⟨-, t, l', heq, -, hs⟩ | ⟨-, -, -, l', heq, hg⟩ | ⟨-, -, -, t, l', heq, -, hs⟩
  · rw [heq]
  · rw [heq]
    exact hs.slots key'
  · rw [heq]
    exact hg.other key' h
  · rw [heq]
    exact hs.slots key'

theorem slots_apply_of_not_concerns (op : LedgerOp) (h : ¬ op.concerns key) :
    (op.apply maxConcurrency l).slots key = l.slots key := by
  cases op with
  | requestSlot k e d => exact slots_requestSlot_ne h
  | releaseSlot k i e =>
    rw [LedgerOp.apply, slots_releaseSlot, if_neg fun hk => h hk.1]
  | reapUnknownOwners known => exact absurd trivial h
  | ingestPeerMetrics e pools => rfl

end Step

/-- Every call of every history on a fresh ledger keeps its promise. -/
theorem soundStep_ledgerAfter (maxConcurrency : Key → ℤ) (strategy : String)
    (history : List LedgerOp) (op : LedgerOp) :
    SoundStep maxConcurrency strategy history op (ledgerAfter maxConcurrency strategy history)
      (ledgerAfter maxConcurrency strategy (history ++ [op])) := by
  have hinv := ledgerInv_ledgerAfter maxConcurrency strategy history
  have hafter : ledgerAfter maxConcurrency strategy (history ++ [op]) =
      op.apply maxConcurrency (ledgerAfter maxConcurrency strategy history) := by
    rw [ledgerAfter, List.foldl_append, List.foldl_cons, List.foldl_nil, ← ledgerAfter]
  have hinv' := hinv.apply op
  rw [hafter]
  refine ⟨hinv'.cap, hinv'.index, ?_, ?_, ?_, fun key => slots_apply_of_not_concerns op, ?_⟩
  · rintro key eid draw i rfl hans
    obtain ⟨hfree, hheld, hidle⟩ := requestSlot_granted (Option.some.inj hans)
    refine ⟨hfree, hheld, fun owner howner hne => ?_⟩
    rw [← idleCount_ledgerAfter maxConcurrency strategy]
    by_contra hpos
    have hmem := mem_idleOwners.2 ⟨howner, hne, not_le.1 hpos⟩
    rw [hidle] at hmem
    exact List.not_mem_nil hmem
  · rintro key eid draw t rfl hans
    obtain ⟨howner, hslots⟩ := requestSlot_place (Option.some.inj hans)
    refine ⟨mem_ownersOf.1 howner, ?_⟩
    rw [LedgerOp.apply, hslots]
    exact mem_ownersOf.1 howner
  · cases op with
    | requestSlot key eid draw =>
      exact fun h => requestSlot_ne_retry hinv.ready (Option.some.inj h)
    | releaseSlot key i eid => exact (Option.some_ne_none _).symm
    | reapUnknownOwners known => exact (Option.some_ne_none _).symm
    | ingestPeerMetrics eid pools => exact (Option.some_ne_none _).symm
  · rintro known rfl key i eid
    exact lookup_reapUnknownOwners _ known key i eid

end Axo
