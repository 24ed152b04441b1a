import Axo.Consensus.Concurrency
import Mathlib.Data.Int.Interval
import Mathlib.Tactic

/-!
# What each ledger operation does

One lemma for each operation of `ConcurrencyLedger`, so that the files above never unfold one:

* `smallestUnusedIndex` is unused, not negative and at most the number of grants;
* `requestSlot_cases`: the four ways a request can end, and the table afterwards;
* `slots_releaseSlot`, `lookup_reapUnknownOwners`, `idleCount_ingestPeerMetrics`: the lookups
  after the other operations.
-/

namespace Axo

/-! ### The smallest unused index -/

/-- The loop stops at the first index from `i` on that is not in the table, unless the fuel
runs out first. -/
theorem smallestUnusedFrom_spec (grants : Dict ℤ EndpointId) (fuel : ℕ) (i : ℤ) :
    i ≤ smallestUnusedFrom grants fuel i ∧
      (∀ j, i ≤ j → j < smallestUnusedFrom grants fuel i → j ∈ grants) ∧
      (smallestUnusedFrom grants fuel i ∉ grants ∨
        smallestUnusedFrom grants fuel i = i + fuel) := by
  induction fuel generalizing i with
  | zero =>
    exact ⟨le_rfl, fun j h1 h2 => absurd h2 (not_lt.2 h1), Or.inr (by simp [smallestUnusedFrom])⟩
  | succ fuel ih =>
    unfold smallestUnusedFrom
    split_ifs with hi
    · obtain ⟨hle, hused, hend⟩ := ih (i + 1)
      refine ⟨by omega, fun j h1 h2 => ?_, ?_⟩
      · rcases eq_or_lt_of_le h1 with rfl | hlt
        · exact hi
        · exact hused j (by omega) h2
      · rcases hend with hend | hend
        · exact Or.inl hend
        · right
          rw [hend]
          push_cast
          ring
    · exact ⟨le_rfl, fun j h1 h2 => absurd h2 (not_lt.2 h1), Or.inl hi⟩

theorem smallestUnusedIndex_nonneg (grants : Dict ℤ EndpointId) :
    0 ≤ smallestUnusedIndex grants :=
  (smallestUnusedFrom_spec grants _ 0).1

theorem mem_of_lt_smallestUnusedIndex {grants : Dict ℤ EndpointId} {j : ℤ} (h0 : 0 ≤ j)
    (h : j < smallestUnusedIndex grants) : j ∈ grants :=
  (smallestUnusedFrom_spec grants _ 0).2.1 j h0 h

/-- Indices below the smallest unused one are all in use, so there are at least that many
grants. -/
theorem smallestUnusedIndex_le_size (grants : Dict ℤ EndpointId) :
    smallestUnusedIndex grants ≤ Dict.size grants := by
  have hused : ∀ j ∈ Finset.Ico 0 (smallestUnusedIndex grants), j ∈ grants := by
    intro j hj
    obtain ⟨h1, h2⟩ := Finset.mem_Ico.1 hj
    exact mem_of_lt_smallestUnusedIndex h1 h2
  have hcard := Dict.card_le_size hused
  rw [Int.card_Ico] at hcard
  omega

theorem smallestUnusedIndex_notMem (grants : Dict ℤ EndpointId) :
    smallestUnusedIndex grants ∉ grants := by
  rcases (smallestUnusedFrom_spec grants (Dict.size grants) 0).2.2 with h | h
  · exact h
  · -- the fuel ran out at `size grants`; were it used too, there would be one key too many
    intro hmem
    have hall : ∀ j ∈ Finset.Icc 0 (smallestUnusedIndex grants), j ∈ grants := by
      intro j hj
      obtain ⟨h1, h2⟩ := Finset.mem_Icc.1 hj
      rcases eq_or_lt_of_le h2 with rfl | hlt
      · exact hmem
      · exact mem_of_lt_smallestUnusedIndex h1 hlt
    have hcard := Dict.card_le_size hall
    have hval : smallestUnusedIndex grants = 0 + (Dict.size grants : ℤ) := h
    rw [Int.card_Icc, hval] at hcard
    omega

/-! ### Owners -/

theorem mem_ownersOf {grants : Dict ℤ EndpointId} {eid : EndpointId} :
    eid ∈ ownersOf grants ↔ ∃ i, grants.lookup i = some eid := by
  rw [ownersOf, List.mem_insertionSort, List.mem_dedup, Dict.mem_values]

theorem ownersOf_nodup (grants : Dict ℤ EndpointId) : (ownersOf grants).Nodup :=
  (List.perm_insertionSort _ _).nodup_iff.2 (List.nodup_dedup _)

theorem ownersOf_eq_nil {grants : Dict ℤ EndpointId} :
    ownersOf grants = [] ↔ Dict.size grants = 0 := by
  rw [← Dict.values_eq_nil, ← List.length_eq_zero_iff, ownersOf, List.length_insertionSort,
    List.length_eq_zero_iff, List.dedup_eq_nil]

namespace ConcurrencyLedger

variable {l l' : ConcurrencyLedger} {key key' : Key} {eid : EndpointId}

@[simp] theorem slots_new (strategy : String) (key : Key) : (new strategy).slots key = ∅ := rfl

@[simp] theorem ready_new (strategy : String) : (new strategy).ready = true := rfl

theorem slots_insert (l : ConcurrencyLedger) (key key' : Key) (g : Dict ℤ EndpointId) :
    slots { l with grants := l.grants.insert key g } key' =
      if key' = key then g else l.slots key' := by
  unfold slots
  split_ifs with h
  · rw [h, Dict.getD_insert]
  · exact Dict.getD_insert_ne _ _ _ h

theorem slots_erase (l : ConcurrencyLedger) (key key' : Key) :
    slots { l with grants := l.grants.erase key } key' =
      if key' = key then ∅ else l.slots key' := by
  unfold slots
  split_ifs with h
  · rw [h, Dict.getD_erase]
  · exact Dict.getD_erase_ne _ _ h

/-- Storing the grants of one key, or dropping the key when none is left, is the same table. -/
theorem slots_store (l : ConcurrencyLedger) (key key' : Key) (g : Dict ℤ EndpointId) :
    slots { l with grants := if Dict.size g = 0 then l.grants.erase key else l.grants.insert key g }
      key' = if key' = key then g else l.slots key' := by
  split_ifs with hg hk hk
  · rw [slots_erase, if_pos hk]
    refine AList.ext ?_
    have hkeys : g.keys = [] := List.eq_nil_of_length_eq_zero hg
    exact (List.map_eq_nil_iff.1 hkeys).symm
  · rw [slots_erase, if_neg hk]
  · rw [slots_insert, if_pos hk]
  · rw [slots_insert, if_neg hk]

/-! ### Requests -/

/-- `l'` differs from `l` in the round-robin cursor at most. -/
structure SameGrants (l l' : ConcurrencyLedger) : Prop where
  ready : l'.ready = l.ready
  strategy : l'.strategy = l.strategy
  poolMetrics : l'.poolMetrics = l.poolMetrics
  slots : ∀ key, l'.slots key = l.slots key

/-- `l'` is `l` with one more grant: the slot `i` of `key`, to the endpoint `eid`. -/
structure GrantedIn (l l' : ConcurrencyLedger) (key : Key) (i : ℤ) (eid : EndpointId) : Prop where
  ready : l'.ready = l.ready
  poolMetrics : l'.poolMetrics = l.poolMetrics
  slots : l'.slots key = (l.slots key).insert i eid
  other : ∀ key', key' ≠ key → l'.slots key' = l.slots key'

theorem pick_mem (candidates : List EndpointId) (h : candidates ≠ []) (i : ℕ) :
    pick candidates h i ∈ candidates :=
  List.get_mem _ _

theorem choose_mem (l : ConcurrencyLedger) (key : Key) (candidates : List EndpointId)
    (h : candidates ≠ []) (draw : Draw) : (l.choose key candidates h draw).1 ∈ candidates := by
  unfold choose
  split_ifs
  · exact pick_mem _ h _
  · split
    · exact pick_mem _ h _
    · simp only
      split_ifs
      · exact pick_mem _ h _
      · exact pick_mem _ h _
    · exact pick_mem _ h _

theorem choose_sameGrants (l : ConcurrencyLedger) (key : Key) (candidates : List EndpointId)
    (h : candidates ≠ []) (draw : Draw) :
    SameGrants l (l.choose key candidates h draw).2 := by
  unfold choose
  split_ifs
  · exact ⟨rfl, rfl, rfl, fun _ => rfl⟩
  · split <;> exact ⟨rfl, rfl, rfl, fun _ => rfl⟩

theorem mem_idleOwners {l : ConcurrencyLedger} {key : Key} {requesterId eid : EndpointId} :
    eid ∈ l.idleOwners key requesterId ↔
      eid ∈ ownersOf (l.slots key) ∧ eid ≠ requesterId ∧ 0 < l.idleCount key eid := by
  simp [idleOwners]

@[simp] theorem slots_touched (l : ConcurrencyLedger) (key key' : Key) :
    (l.touched key).slots key' = l.slots key' :=
  Dict.getD_setdefault _ _ _ _

theorem touched_sameGrants (l : ConcurrencyLedger) (key : Key) : SameGrants l (l.touched key) :=
  ⟨rfl, rfl, rfl, slots_touched l key⟩

theorem SameGrants.trans {l₁ l₂ l₃ : ConcurrencyLedger} (h₁ : SameGrants l₁ l₂)
    (h₂ : SameGrants l₂ l₃) : SameGrants l₁ l₃ :=
  ⟨h₂.ready.trans h₁.ready, h₂.strategy.trans h₁.strategy, h₂.poolMetrics.trans h₁.poolMetrics,
    fun key => (h₂.slots key).trans (h₁.slots key)⟩

theorem idleOwners_touched (l : ConcurrencyLedger) (key : Key) (eid : EndpointId) :
    (l.touched key).idleOwners key eid = l.idleOwners key eid := by
  unfold idleOwners
  rw [slots_touched]
  rfl

/-- The three ways the body of `request_slot` ends.  The fail-safe `retry` for an empty pool is
not among them: an empty pool is never at capacity. -/
theorem placeOrGrow_cases (l : ConcurrencyLedger) (key : Key) (maxConcurrency : ℤ)
    (eid : EndpointId) (draw : Draw) :
    (∃ t l', l.placeOrGrow key maxConcurrency eid draw = (.place t, l') ∧
      t ∈ l.idleOwners key eid ∧ SameGrants l l') ∨
    (l.idleOwners key eid = [] ∧ (Dict.size (l.slots key) : ℤ) < max 1 maxConcurrency ∧
      ∃ l', l.placeOrGrow key maxConcurrency eid draw =
          (.granted (smallestUnusedIndex (l.slots key)), l') ∧
        GrantedIn l l' key (smallestUnusedIndex (l.slots key)) eid) ∨
    (l.idleOwners key eid = [] ∧ max 1 maxConcurrency ≤ (Dict.size (l.slots key) : ℤ) ∧
      ∃ t l', l.placeOrGrow key maxConcurrency eid draw = (.place t, l') ∧
        t ∈ ownersOf (l.slots key) ∧ SameGrants l l') := by
  unfold placeOrGrow
  simp only
  split_ifs with hidle hcap howners
  · exact Or.inl ⟨_, _, rfl, choose_mem _ _ _ _ _, choose_sameGrants _ _ _ _ _⟩
  · refine Or.inr (Or.inl ⟨not_ne_iff.1 hidle, hcap, _, rfl, rfl, rfl, ?_, ?_⟩)
    · rw [slots_insert, if_pos rfl]
    · intro key' hne
      rw [slots_insert, if_neg hne]
  · exact Or.inr (Or.inr ⟨not_ne_iff.1 hidle, not_lt.1 hcap, _, _, rfl,
      choose_mem _ _ _ _ _, choose_sameGrants _ _ _ _ _⟩)
  · rw [not_ne_iff, ownersOf_eq_nil] at howners
    rw [howners] at hcap
    exact absurd (lt_of_lt_of_le zero_lt_one (le_max_left 1 maxConcurrency)) hcap

/-- The four ways a request ends: the ledger is not ready; an idle owner is named; a slot is
granted; or the pool is full and an owner is named. -/
theorem requestSlot_cases (l : ConcurrencyLedger) (key : Key) (maxConcurrency : ℤ)
    (eid : EndpointId) (draw : Draw) :
    (l.ready = false ∧ l.requestSlot key maxConcurrency eid draw = (.retry, l)) ∨
    (l.ready = true ∧ ∃ t l', l.requestSlot key maxConcurrency eid draw = (.place t, l') ∧
      t ∈ l.idleOwners key eid ∧ SameGrants l l') ∨
    (l.ready = true ∧ l.idleOwners key eid = [] ∧
      (Dict.size (l.slots key) : ℤ) < max 1 maxConcurrency ∧
      ∃ l', l.requestSlot key maxConcurrency eid draw =
          (.granted (smallestUnusedIndex (l.slots key)), l') ∧
        GrantedIn l l' key (smallestUnusedIndex (l.slots key)) eid) ∨
    (l.ready = true ∧ l.idleOwners key eid = [] ∧
      max 1 maxConcurrency ≤ (Dict.size (l.slots key) : ℤ) ∧
      ∃ t l', l.requestSlot key maxConcurrency eid draw = (.place t, l') ∧
        t ∈ ownersOf (l.slots key) ∧ SameGrants l l') := by
  cases hready : l.ready with
  | false => exact Or.inl ⟨rfl, by simp [requestSlot, hready]⟩
  | true =>
    have hreq : l.requestSlot key maxConcurrency eid draw =
        (l.touched key).placeOrGrow key maxConcurrency eid draw := by
      simp [requestSlot, hready]
    have hsame := touched_sameGrants l key
    have hcases := placeOrGrow_cases (l.touched key) key maxConcurrency eid draw
    rw [idleOwners_touched, slots_touched] at hcases
    rw [hreq]
    rcases hcases with ⟨t, l', heq, ht, hs⟩ | ⟨hi, hcap, l', heq, hg⟩ | ⟨hi, hcap, t, l', heq, ht, hs⟩
    · exact Or.inr (Or.inl ⟨rfl, t, l', heq, ht, hsame.trans hs⟩)
    · refine Or.inr (Or.inr (Or.inl ⟨rfl, hi, hcap, l', heq, hg.ready, hg.poolMetrics, ?_, ?_⟩))
      · rw [hg.slots, slots_touched]
      · intro key' hne
        rw [hg.other key' hne, slots_touched]
    · exact Or.inr (Or.inr (Or.inr ⟨rfl, hi, hcap, t, l', heq, ht, hsame.trans hs⟩))

@[simp] theorem ready_requestSlot (l : ConcurrencyLedger) (key : Key) (maxConcurrency : ℤ)
    (eid : EndpointId) (draw : Draw) :
    (l.requestSlot key maxConcurrency eid draw).2.ready = l.ready := by
  rcases requestSlot_cases l key maxConcurrency eid draw with
    ⟨-, heq⟩ | ⟨-, _, _, heq, -, hs⟩ | ⟨-, -, -, _, heq, hg⟩ | ⟨-, -, -, _, _, heq, -, hs⟩
  · rw [heq]
  · rw [heq]
    exact hs.ready
  · rw [heq]
    exact hg.ready
  · rw [heq]
    exact hs.ready

/-- A slot is granted only by a ready ledger, without an idle owner, and below the cap. -/
theorem room_of_granted {l : ConcurrencyLedger} {key : Key} {maxConcurrency : ℤ}
    {eid : EndpointId} {draw : Draw} {i : ℤ}
    (h : (l.requestSlot key maxConcurrency eid draw).1 = .granted i) :
    l.ready = true ∧ l.idleOwners key eid = [] ∧
      (Dict.size (l.slots key) : ℤ) < max 1 maxConcurrency := by
  rcases requestSlot_cases l key maxConcurrency eid draw with
    ⟨-, heq⟩ | ⟨-, _, _, heq, -, -⟩ | ⟨hready, hidle, hroom, -⟩ | ⟨-, -, -, _, _, heq, -, -⟩
  · rw [heq] at h
    cases h
  · rw [heq] at h
    cases h
  · exact ⟨hready, hidle, hroom⟩
  · rw [heq] at h
    cases h

/-! ### Releases and reaping -/

theorem slots_releaseSlot (l : ConcurrencyLedger) (key : Key) (i : ℤ) (eid : EndpointId)
    (key' : Key) :
    (l.releaseSlot key i eid).slots key' =
      if key' = key ∧ (l.slots key).lookup i = some eid then (l.slots key).erase i
      else l.slots key' := by
  unfold releaseSlot
  by_cases h : (l.slots key).lookup i = some eid
  · simp only [h, if_true, slots_store, and_true]
  · simp only [h, and_false, if_false]

@[simp] theorem ready_releaseSlot (l : ConcurrencyLedger) (key : Key) (i : ℤ)
    (eid : EndpointId) : (l.releaseSlot key i eid).ready = l.ready := by
  unfold releaseSlot
  simp only
  split_ifs <;> rfl

@[simp] theorem poolMetrics_releaseSlot (l : ConcurrencyLedger) (key : Key) (i : ℤ)
    (eid : EndpointId) : (l.releaseSlot key i eid).poolMetrics = l.poolMetrics := by
  unfold releaseSlot
  simp only
  split_ifs <;> rfl

/-- A release either leaves the lookup of a slot alone or frees it. -/
theorem lookup_releaseSlot (l : ConcurrencyLedger) (key : Key) (i : ℤ) (eid : EndpointId)
    (key' : Key) (j : ℤ) :
    ((l.releaseSlot key i eid).slots key').lookup j =
      if key' = key ∧ j = i ∧ (l.slots key).lookup i = some eid then none
      else (l.slots key').lookup j := by
  rw [slots_releaseSlot]
  by_cases h : key' = key ∧ (l.slots key).lookup i = some eid
  · obtain ⟨rfl, hi⟩ := h
    rw [if_pos ⟨rfl, hi⟩]
    rcases eq_or_ne j i with rfl | hj
    · rw [AList.lookup_erase, if_pos ⟨rfl, rfl, hi⟩]
    · rw [AList.lookup_erase_ne hj, if_neg fun h => hj h.2.1]
  · rw [if_neg h, if_neg fun h' => h ⟨h'.1, h'.2.2⟩]

theorem lookup_reapKey (known : List EndpointId) (l : ConcurrencyLedger) (key key' : Key)
    (j : ℤ) (eid : EndpointId) :
    ((reapKey known l key).slots key').lookup j = some eid ↔
      (l.slots key').lookup j = some eid ∧ (key' = key → eid ∈ known) := by
  unfold reapKey
  simp only [slots_store]
  split_ifs with hk
  · subst hk
    simp only [Dict.lookup_eraseAll, forall_const]
    constructor
    · intro h
      split_ifs at h with hdrop
      refine ⟨h, not_not.1 fun hunk => hdrop ?_⟩
      exact List.mem_map.2 ⟨⟨j, eid⟩, List.mem_filter.2
        ⟨AList.mem_lookup_iff.1 h, by simpa using hunk⟩, rfl⟩
    · rintro ⟨h, hknown⟩
      rw [if_neg, h]
      intro hdrop
      obtain ⟨⟨j', e⟩, he, rfl⟩ := List.mem_map.1 hdrop
      obtain ⟨hmem, hunk⟩ := List.mem_filter.1 he
      have heq : some e = some eid := (AList.mem_lookup_iff.2 hmem).symm.trans h
      cases heq
      simp [hknown] at hunk
  · simp [hk]

theorem lookup_foldl_reapKey (known : List EndpointId) (keys : List Key) (l : ConcurrencyLedger)
    (key : Key) (j : ℤ) (eid : EndpointId) :
    ((keys.foldl (reapKey known) l).slots key).lookup j = some eid ↔
      (l.slots key).lookup j = some eid ∧ (key ∈ keys → eid ∈ known) := by
  induction keys generalizing l with
  | nil => simp
  | cons k keys ih =>
    rw [List.foldl_cons, ih, lookup_reapKey, and_assoc, List.mem_cons, or_imp]

/-- Exactly the grants of unknown endpoints go. -/
theorem lookup_reapUnknownOwners (l : ConcurrencyLedger) (known : List EndpointId) (key : Key)
    (j : ℤ) (eid : EndpointId) :
    ((l.reapUnknownOwners known).slots key).lookup j = some eid ↔
      (l.slots key).lookup j = some eid ∧ eid ∈ known := by
  rw [reapUnknownOwners, lookup_foldl_reapKey]
  refine and_congr_right fun h => ⟨fun hk => hk ?_, fun hk _ => hk⟩
  -- a key with a grant is a key of the table
  by_contra hkey
  rw [slots, Dict.getD, AList.lookup_eq_none.2 hkey] at h
  simp at h

theorem size_slots_foldl_reapKey (known : List EndpointId) (keys : List Key)
    (l : ConcurrencyLedger) (key : Key) :
    Dict.size ((keys.foldl (reapKey known) l).slots key) ≤ Dict.size (l.slots key) := by
  induction keys generalizing l with
  | nil => exact le_rfl
  | cons k keys ih =>
    refine (ih _).trans ?_
    unfold reapKey
    simp only [slots_store]
    split_ifs with hk
    · subst hk
      exact Dict.size_eraseAll_le _ _
    · exact le_rfl

theorem size_slots_reapUnknownOwners (l : ConcurrencyLedger) (known : List EndpointId)
    (key : Key) : Dict.size ((l.reapUnknownOwners known).slots key) ≤ Dict.size (l.slots key) :=
  size_slots_foldl_reapKey known _ l key

theorem foldl_reapKey_frame (known : List EndpointId) (keys : List Key) (l : ConcurrencyLedger) :
    (keys.foldl (reapKey known) l).ready = l.ready ∧
      (keys.foldl (reapKey known) l).poolMetrics = l.poolMetrics := by
  induction keys generalizing l with
  | nil => exact ⟨rfl, rfl⟩
  | cons k keys ih => exact ih _

@[simp] theorem ready_reapUnknownOwners (l : ConcurrencyLedger) (known : List EndpointId) :
    (l.reapUnknownOwners known).ready = l.ready :=
  (foldl_reapKey_frame known _ l).1

@[simp] theorem poolMetrics_reapUnknownOwners (l : ConcurrencyLedger)
    (known : List EndpointId) : (l.reapUnknownOwners known).poolMetrics = l.poolMetrics :=
  (foldl_reapKey_frame known _ l).2

/-! ### Gossip and reconciliation -/

@[simp] theorem slots_ingestPeerMetrics (l : ConcurrencyLedger) (eid : EndpointId)
    (pools : Dict String (Dict String ℤ)) (key : Key) :
    (l.ingestPeerMetrics eid pools).slots key = l.slots key := rfl

@[simp] theorem ready_ingestPeerMetrics (l : ConcurrencyLedger) (eid : EndpointId)
    (pools : Dict String (Dict String ℤ)) : (l.ingestPeerMetrics eid pools).ready = l.ready := rfl

@[simp] theorem slots_beginReconciliation (l : ConcurrencyLedger) (key : Key) :
    l.beginReconciliation.slots key = l.slots key := rfl

@[simp] theorem ready_beginReconciliation (l : ConcurrencyLedger) :
    l.beginReconciliation.ready = false := rfl

@[simp] theorem ready_reconcile (l : ConcurrencyLedger)
    (reports : Dict EndpointId (List ContainerCountEntry)) :
    (l.reconcile reports).ready = true := rfl

theorem slots_reconcile (l : ConcurrencyLedger)
    (reports : Dict EndpointId (List ContainerCountEntry)) (key : Key) :
    (l.reconcile reports).slots key = Dict.getD (reportedGrants reports) key ∅ := rfl

end ConcurrencyLedger

end Axo
