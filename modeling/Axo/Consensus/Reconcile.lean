import Axo.Consensus.LedgerRuns

/-!
# What a reconciliation counts

`reconcile` folds the reports of all endpoints into one dictionary per key, indexed by the slot.

* `mem_reportedGrants`: a slot is granted afterwards exactly when somebody reported it;
* `size_slots_reconcile`: so the number of grants is the number of *different* entries reported;
* `countsAll_iff`: every reported container is counted, and the pool stays closed to growth
  until a release or a reap, exactly when no two endpoints report the same entry.
-/

namespace Axo

open ConcurrencyLedger

/-- The reports that `reconcile` takes: one list of entries for each endpoint. -/
abbrev Reports := Dict EndpointId (List ContainerCountEntry)

/-- The entries of all endpoints, in one list. -/
def allEntries (reports : Reports) : List ContainerCountEntry :=
  reports.entries.flatMap fun report => report.2

/-- The entries reported for one key. -/
def reportedFor (reports : Reports) (key : Key) : List ContainerCountEntry :=
  (allEntries reports).filter fun e => e.key = key

/-- No endpoint repeats an entry of its own. -/
def NoRepeat (reports : Reports) : Prop :=
  ∀ report ∈ reports.entries, report.2.Nodup

/-- No two endpoints report the same entry. -/
def NoClash (reports : Reports) : Prop :=
  ∀ r₁ ∈ reports.entries, ∀ r₂ ∈ reports.entries, ∀ e ∈ r₁.2, e ∈ r₂.2 → r₁.1 = r₂.1

/-! ### The slots after the fold -/

/-- The entry for a slot of a key. -/
def entryOf (key : Key) (slotIndex : ℤ) : ContainerCountEntry :=
  { functionId := key.1, version := key.2, slotIndex := slotIndex }

@[simp] theorem key_entryOf (key : Key) (i : ℤ) : (entryOf key i).key = key := rfl

theorem entryOf_key (e : ContainerCountEntry) : entryOf e.key e.slotIndex = e := rfl

theorem entryOf_injective (key : Key) : Function.Injective (entryOf key) := fun _ _ h =>
  congrArg ContainerCountEntry.slotIndex h

theorem mem_addReported (eid : EndpointId) (g : Dict Key (Dict ℤ EndpointId))
    (e : ContainerCountEntry) (key : Key) (i : ℤ) :
    i ∈ Dict.getD (addReported eid g e) key ∅ ↔ entryOf key i = e ∨ i ∈ Dict.getD g key ∅ := by
  unfold addReported
  rcases eq_or_ne key e.key with rfl | hne
  · rw [Dict.getD_insert, AList.mem_insert]
    refine or_congr_left ⟨fun h => ?_, fun h => ?_⟩
    · rw [h, entryOf_key]
    · rw [← h]
      rfl
  · rw [Dict.getD_insert_ne _ _ _ hne]
    refine (or_iff_right fun h => hne ?_).symm
    rw [← h, key_entryOf]

theorem mem_foldl_addReported (eid : EndpointId) (entries : List ContainerCountEntry)
    (g : Dict Key (Dict ℤ EndpointId)) (key : Key) (i : ℤ) :
    i ∈ Dict.getD (entries.foldl (addReported eid) g) key ∅ ↔
      entryOf key i ∈ entries ∨ i ∈ Dict.getD g key ∅ := by
  induction entries generalizing g with
  | nil => simp
  | cons e entries ih =>
    rw [List.foldl_cons, ih, mem_addReported, List.mem_cons, ← or_assoc]
    exact or_congr_left or_comm

theorem mem_foldl_reports (reports : List (Sigma fun _ : EndpointId => List ContainerCountEntry))
    (g : Dict Key (Dict ℤ EndpointId)) (key : Key) (i : ℤ) :
    i ∈ Dict.getD (reports.foldl (fun g r => r.2.foldl (addReported r.1) g) g) key ∅ ↔
      entryOf key i ∈ reports.flatMap (fun r => r.2) ∨ i ∈ Dict.getD g key ∅ := by
  induction reports generalizing g with
  | nil => simp
  | cons r reports ih =>
    rw [List.foldl_cons, ih, mem_foldl_addReported, List.flatMap_cons, List.mem_append, ← or_assoc]
    exact or_congr_left or_comm

/-- A slot is granted after a reconciliation exactly when somebody reported it. -/
theorem mem_reportedGrants (reports : Reports) (key : Key) (i : ℤ) :
    i ∈ Dict.getD (reportedGrants reports) key ∅ ↔ entryOf key i ∈ allEntries reports := by
  rw [reportedGrants, mem_foldl_reports, allEntries]
  exact or_iff_left (by simp)

theorem mem_slots_reconcile (l : ConcurrencyLedger) (reports : Reports) (key : Key) (i : ℤ) :
    i ∈ (l.reconcile reports).slots key ↔ entryOf key i ∈ reportedFor reports key := by
  rw [slots_reconcile, mem_reportedGrants, reportedFor, List.mem_filter, key_entryOf]
  simp

/-- The number of grants is the number of different entries. -/
theorem size_slots_reconcile (l : ConcurrencyLedger) (reports : Reports) (key : Key) :
    Dict.size ((l.reconcile reports).slots key) = (reportedFor reports key).dedup.length := by
  have himage : ((l.reconcile reports).slots key).keys.toFinset.image (entryOf key) =
      (reportedFor reports key).toFinset := by
    ext e
    simp only [Finset.mem_image, List.mem_toFinset]
    constructor
    · rintro ⟨i, hi, rfl⟩
      exact (mem_slots_reconcile l reports key i).1 hi
    · intro he
      have hkey : e.key = key := by simpa using (List.mem_filter.1 he).2
      have heq : entryOf key e.slotIndex = e := hkey ▸ entryOf_key e
      refine ⟨e.slotIndex, (mem_slots_reconcile l reports key _).2 ?_, heq⟩
      rwa [heq]
  rw [Dict.size_eq_card, ← Finset.card_image_of_injective _ (entryOf_injective key), himage,
    List.card_toFinset]

/-- A grant after a reconciliation was reported by its owner. -/
theorem lookup_reportedGrants {reports : Reports} {key : Key} {i : ℤ} {eid : EndpointId}
    (h : (Dict.getD (reportedGrants reports) key ∅).lookup i = some eid) :
    ∃ entries, reports.lookup eid = some entries ∧ entryOf key i ∈ entries := by
  have hadd : ∀ (e : EndpointId) (g : Dict Key (Dict ℤ EndpointId)) (x : ContainerCountEntry),
      (Dict.getD (addReported e g x) key ∅).lookup i = some eid →
        (eid = e ∧ entryOf key i = x) ∨ (Dict.getD g key ∅).lookup i = some eid := by
    intro e g x hx
    unfold addReported at hx
    rcases eq_or_ne key x.key with rfl | hne
    · rw [Dict.getD_insert] at hx
      rcases eq_or_ne i x.slotIndex with rfl | hi
      · rw [AList.lookup_insert] at hx
        exact Or.inl ⟨(Option.some.inj hx).symm, entryOf_key x⟩
      · rw [AList.lookup_insert_ne hi] at hx
        exact Or.inr hx
    · rw [Dict.getD_insert_ne _ _ _ hne] at hx
      exact Or.inr hx
  have hreport : ∀ (e : EndpointId) (entries : List ContainerCountEntry)
      (g : Dict Key (Dict ℤ EndpointId)),
      (Dict.getD (entries.foldl (addReported e) g) key ∅).lookup i = some eid →
        (eid = e ∧ entryOf key i ∈ entries) ∨ (Dict.getD g key ∅).lookup i = some eid := by
    intro e entries
    induction entries with
    | nil => exact fun g hx => Or.inr hx
    | cons x entries ih =>
      intro g hx
      rcases ih _ hx with ⟨he, hmem⟩ | hx
      · exact Or.inl ⟨he, List.mem_cons_of_mem _ hmem⟩
      · rcases hadd e g x hx with ⟨he, rfl⟩ | hold
        · exact Or.inl ⟨he, List.mem_cons_self⟩
        · exact Or.inr hold
  have hall : ∀ (rs : List (Sigma fun _ : EndpointId => List ContainerCountEntry))
      (g : Dict Key (Dict ℤ EndpointId)),
      (Dict.getD (rs.foldl (fun g r => r.2.foldl (addReported r.1) g) g) key ∅).lookup i =
          some eid →
        (∃ r ∈ rs, eid = r.1 ∧ entryOf key i ∈ r.2) ∨
          (Dict.getD g key ∅).lookup i = some eid := by
    intro rs
    induction rs with
    | nil => exact fun g hx => Or.inr hx
    | cons r rs ih =>
      intro g hx
      rcases ih _ hx with ⟨r', hr', hmem⟩ | hx
      · exact Or.inl ⟨r', List.mem_cons_of_mem _ hr', hmem⟩
      · rcases hreport r.1 r.2 g hx with hmem | hold
        · exact Or.inl ⟨r, List.mem_cons_self, hmem⟩
        · exact Or.inr hold
  rcases hall reports.entries ∅ h with ⟨r, hr, rfl, hmem⟩ | hempty
  · exact ⟨r.2, AList.mem_lookup_iff.2 hr, hmem⟩
  · simp at hempty

/-! ### When nothing is lost -/

theorem dedup_length_eq_iff {α : Type*} [DecidableEq α] (xs : List α) :
    xs.dedup.length = xs.length ↔ xs.Nodup := by
  refine ⟨fun h => ?_, fun h => by rw [h.dedup]⟩
  have heq := (List.dedup_sublist xs).eq_of_length h
  exact heq ▸ List.nodup_dedup xs

theorem nodup_reportedFor_iff (reports : Reports) :
    (∀ key, (reportedFor reports key).Nodup) ↔ (allEntries reports).Nodup := by
  refine ⟨fun h => ?_, fun h key => h.filter _⟩
  rw [List.nodup_iff_count_le_one]
  intro e
  have hcount := List.nodup_iff_count_le_one.1 (h e.key) e
  rwa [reportedFor, List.count_filter (by simp)] at hcount

/-- With no repetition inside one report, the only way to lose an entry is a clash. -/
theorem nodup_allEntries_iff {reports : Reports} (h : NoRepeat reports) :
    (allEntries reports).Nodup ↔ NoClash reports := by
  rw [allEntries, List.nodup_flatMap]
  refine (and_iff_right h).trans ?_
  have hkeys : reports.entries.Pairwise fun r₁ r₂ => r₁.1 ≠ r₂.1 :=
    List.pairwise_map.1 reports.nodupKeys
  constructor
  · intro hdisj r₁ h₁ r₂ h₂ e he₁ he₂
    by_contra hne
    have hsymm : Std.Symm (Function.onFun List.Disjoint
        fun report : Sigma fun _ : EndpointId => List ContainerCountEntry => report.2) :=
      ⟨fun _ _ hd => hd.symm⟩
    exact hdisj.forall h₁ h₂ (fun heq => hne (by rw [heq])) he₁ he₂
  · intro hclash
    refine hkeys.imp_of_mem fun h₁ h₂ hne e he₁ he₂ => ?_
    exact hne (hclash _ h₁ _ h₂ e he₁ he₂)

/-! ### Requests after the reconciliation -/

/-- A call that is neither a release nor a reap nor another `reconcile`. -/
inductive LaterOp
  | requestSlot (key : Key) (maxConcurrency : ℤ) (requesterId : EndpointId) (draw : Draw)
  | ingestPeerMetrics (endpointId : EndpointId) (containerPools : Dict String (Dict String ℤ))
  | beginReconciliation

/-- The ledger after such a call. -/
def LaterOp.apply (l : ConcurrencyLedger) : LaterOp → ConcurrencyLedger
  | requestSlot key maxConcurrency requesterId draw =>
    (l.requestSlot key maxConcurrency requesterId draw).2
  | ingestPeerMetrics endpointId containerPools => l.ingestPeerMetrics endpointId containerPools
  | beginReconciliation => l.beginReconciliation

theorem size_slots_requestSlot (l : ConcurrencyLedger) (key' : Key) (cap : ℤ) (eid : EndpointId)
    (draw : Draw) (key : Key) :
    Dict.size (l.slots key) ≤ Dict.size ((l.requestSlot key' cap eid draw).2.slots key) := by
  rcases eq_or_ne key key' with rfl | hne
  · rcases requestSlot_cases l key cap eid draw with
      ⟨-, heq⟩ | ⟨-, t, l', heq, -, hs⟩ | ⟨-, -, -, l', heq, hg⟩ | ⟨-, -, -, t, l', heq, -, hs⟩
    · rw [heq]
    · rw [heq, hs.slots]
    · rw [heq, hg.slots]
      exact Dict.size_le_insert _ _ _
    · rw [heq, hs.slots]
  · rw [slots_requestSlot_ne hne]

/-- Calls that free nothing never shrink a pool. -/
theorem size_slots_foldl_laterOp (later : List LaterOp) (l : ConcurrencyLedger) (key : Key) :
    Dict.size (l.slots key) ≤ Dict.size ((later.foldl LaterOp.apply l).slots key) := by
  induction later generalizing l with
  | nil => exact le_rfl
  | cons op later ih =>
    refine le_trans ?_ (ih _)
    cases op with
    | requestSlot k cap eid draw => exact size_slots_requestSlot l k cap eid draw key
    | ingestPeerMetrics eid pools => exact le_rfl
    | beginReconciliation => exact le_rfl

/-- A full pool grants nothing. -/
theorem requestSlot_ne_granted {l : ConcurrencyLedger} {key : Key} {cap : ℤ}
    (h : max 1 cap ≤ (Dict.size (l.slots key) : ℤ)) (eid : EndpointId) (draw : Draw) (i : ℤ) :
    (l.requestSlot key cap eid draw).1 ≠ .granted i := by
  rcases requestSlot_cases l key cap eid draw with
    ⟨-, heq⟩ | ⟨-, t, l', heq, -, -⟩ | ⟨-, -, hcap, l', heq, -⟩ | ⟨-, -, -, t, l', heq, -, -⟩
  · rw [heq]
    exact SlotDecision.noConfusion
  · rw [heq]
    exact SlotDecision.noConfusion
  · exact absurd hcap (not_lt.2 h)
  · rw [heq]
    exact SlotDecision.noConfusion

/-- What a reconciliation is for: every reported container has a grant, and a pool reported full
answers no request with a grant until something is released or reaped. -/
structure CountsAll (l : ConcurrencyLedger) (reports : Reports) : Prop where
  count : ∀ key, Dict.size ((l.reconcile reports).slots key) = (reportedFor reports key).length
  closed : ∀ (later : List LaterOp) (key : Key) (cap : ℤ) (eid : EndpointId) (draw : Draw) (i : ℤ),
    max 1 cap ≤ ((reportedFor reports key).length : ℤ) →
      ((later.foldl LaterOp.apply (l.reconcile reports)).requestSlot key cap eid draw).1 ≠
        .granted i

/-- Every reported container is counted exactly when no two endpoints report the same entry. -/
theorem countsAll_iff (l : ConcurrencyLedger) (reports : Reports) (h : NoRepeat reports) :
    CountsAll l reports ↔ NoClash reports := by
  have hcount : (∀ key, Dict.size ((l.reconcile reports).slots key) =
      (reportedFor reports key).length) ↔ NoClash reports := by
    rw [← nodup_allEntries_iff h, ← nodup_reportedFor_iff]
    refine forall_congr' fun key => ?_
    rw [size_slots_reconcile, dedup_length_eq_iff]
  refine ⟨fun hall => hcount.1 hall.count, fun hclash => ⟨hcount.2 hclash, ?_⟩⟩
  intro later key cap eid draw i hfull
  refine requestSlot_ne_granted (hfull.trans ?_) eid draw i
  rw [← hcount.2 hclash key]
  exact_mod_cast size_slots_foldl_laterOp later (l.reconcile reports) key

/-- Two endpoints with a container each, at different indices: the reconciliation counts both. -/
theorem countsAll_distinct :
    CountsAll (new "round_robin")
      (AList.insert "B" [entryOf ("f", 1) 1] (AList.insert "A" [entryOf ("f", 1) 0] ∅)) :=
  (countsAll_iff _ _ (by simp [NoRepeat, AList.insert, List.kinsert])).2
    (by simp [NoClash, AList.insert, List.kinsert, entryOf])

/-- Two endpoints that were granted the index 0 by two different leaders. -/
def clashingReports : Reports :=
  AList.insert "B" [entryOf ("f", 1) 0] (AList.insert "A" [entryOf ("f", 1) 0] ∅)

/-- No endpoint repeats an entry and two containers run, but one grant is left, and a request
under the cap of two is granted a third container. -/
theorem not_countsAll_clashing :
    NoRepeat clashingReports ∧ (reportedFor clashingReports ("f", 1)).length = 2 ∧
      Dict.size (((new "round_robin").reconcile clashingReports).slots ("f", 1)) = 1 ∧
      (((new "round_robin").reconcile clashingReports).requestSlot ("f", 1) 2 "C" ⟨0, 0, 0⟩).1 =
        .granted 1 ∧
      ¬ CountsAll (new "round_robin") clashingReports := by
  have hcount : (reportedFor clashingReports ("f", 1)).length = 2 := by decide
  have hsize : Dict.size (((new "round_robin").reconcile clashingReports).slots ("f", 1)) = 1 := by
    decide
  refine ⟨by simp [NoRepeat, clashingReports, AList.insert, List.kinsert], hcount, hsize,
    by decide, fun h => ?_⟩
  have heq := h.count ("f", 1)
  rw [hsize, hcount] at heq
  exact absurd heq (by decide)

end Axo
