import Axo.Consensus.LedgerRuns
import Axo.Service.Cluster

/-!
# What a grant stands for

Every grant of the ledger should stand for a container.  `Backed` says what a grant may stand for
at any moment: a grant in an endpoint's hands, a handle in its pool, or a release on its way.
`BackingInv` says that every grant is backed, and every entry that a running reconciliation has
collected, and `Attended` that a dead handle is in a pool only while it is being dismissed;
`NoPhantom` is the guard under which both are kept, and `backed_of_reach` the result for the moments
at which nothing is in progress.
-/

namespace Axo

open ConcurrencyLedger Transition

namespace Cluster

/-- What may stand behind a grant. -/
def Backed (s : Cluster) (slot : Slot) : Prop :=
  slot ∈ s.pending ∨ (∃ H ∈ s.handles, H.slot = slot ∧ H.inPool = true) ∨
    ∃ r ∈ s.releases, r.slot = slot

/-- The entry is in the report of its endpoint. -/
def Reported (reports : Reports) (slot : Slot) : Prop :=
  ∃ entries, reports.lookup slot.endpointId = some entries ∧
    entryOf slot.key slot.slotIndex ∈ entries

instance (reports : Reports) (slot : Slot) : Decidable (Reported reports slot) :=
  match h : reports.lookup slot.endpointId with
  | some entries =>
    if hmem : entryOf slot.key slot.slotIndex ∈ entries then isTrue ⟨entries, h, hmem⟩
    else isFalse fun ⟨_, h', hmem'⟩ => hmem (Option.some.inj (h.symm.trans h') ▸ hmem')
  | none => isFalse fun ⟨_, h', _⟩ => Option.some_ne_none _ (h'.symm.trans h)

/-- The requests among the actions whose answer does not arrive. -/
def losesAnswer : ClusterAction → List (EndpointId × Key)
  | .requestLost endpointId key _ => [(endpointId, key)]
  | _ => []

/-- The releases among the actions that are lost. -/
def losesRelease : ClusterAction → Bool
  | .loseRelease _ => true
  | _ => false

/-- The releases among the actions that arrive. -/
def delivers : ClusterAction → List Release
  | .deliver r => [r]
  | _ => []

/-- The handles whose start fails. -/
def failsStart : ClusterAction → List ℕ
  | .spawnFail i => [i]
  | _ => []

/-- The teardowns whose container is not stopped. -/
def failsStop : ClusterAction → List Teardown
  | .stopErr t => [t]
  | _ => []

/-- One of the teardowns has still to stop the container of the handle. -/
def TornDown (us : List Teardown) (i : ℕ) : Prop :=
  ∃ u ∈ us, u.handle = i ∧ u.phase ≠ .releasing

instance (us : List Teardown) (i : ℕ) : Decidable (TornDown us i) :=
  inferInstanceAs (Decidable (∃ u ∈ us, u.handle = i ∧ u.phase ≠ .releasing))

/-- No answer that grants a slot is lost, no release is lost, and no release arrives while a
running reconciliation has already collected the entry of its slot; and in a pool no start fails, nor
the stop of a dead container, unless the container is dismissed elsewhere. -/
def NoPhantom (maxConcurrency : Key → ℤ) (s : Cluster) (a : ClusterAction) : Prop :=
  (∀ p ∈ losesAnswer a, s.ledger.ready = true → s.ledger.idleOwners p.2 p.1 = [] →
    max 1 (maxConcurrency p.2) ≤ (Dict.size (s.ledger.slots p.2) : ℤ)) ∧
  losesRelease a = false ∧
  (∀ r ∈ delivers a, ∀ reconciliation ∈ s.reconciliations,
    ¬ Reported reconciliation.reports r.slot) ∧
  (∀ i ∈ failsStart a, ∀ H ∈ s.handles[i]?, H.inPool = true → TornDown s.teardowns i) ∧
  ∀ u ∈ failsStop a, ∀ H ∈ s.handles[u.handle]?, H.inPool = true → H.status ≠ .up →
    TornDown (s.teardowns.erase u) u.handle

instance (maxConcurrency : Key → ℤ) (s : Cluster) (a : ClusterAction) :
    Decidable (NoPhantom maxConcurrency s a) :=
  inferInstanceAs (Decidable ((∀ p ∈ losesAnswer a, _ = true → _ = [] → _ ≤ _) ∧ _ = _ ∧
    (∀ r ∈ delivers a, ∀ c ∈ s.reconciliations, ¬ Reported c.reports r.slot) ∧
    (∀ i ∈ failsStart a, ∀ H ∈ s.handles[i]?, _ = true → TornDown s.teardowns i) ∧
    ∀ u ∈ failsStop a, ∀ H ∈ s.handles[u.handle]?, _ = true → _ ≠ _ →
      TornDown (s.teardowns.erase u) u.handle))

/-- Every grant is backed, and every entry that a running reconciliation has collected. -/
structure BackingInv (s : Cluster) : Prop where
  granted : ∀ slot, (s.ledger.slots slot.key).lookup slot.slotIndex = some slot.endpointId →
    s.Backed slot
  collected : ∀ c ∈ s.reconciliations, ∀ slot, Reported c.reports slot → s.Backed slot

section Steps

variable {maxConcurrency : Key → ℤ} {leader : EndpointId} {s t : Cluster}

theorem backingInv_init (strategy : String) : BackingInv (init strategy) where
  granted := by simp [init]
  collected := by simp [init]

/-- A step that takes no backing away keeps the invariant, if it adds no grant and no entry. -/
theorem BackingInv.mono (h : BackingInv s)
    (hgranted : ∀ slot : Slot, (t.ledger.slots slot.key).lookup slot.slotIndex =
        some slot.endpointId →
      (s.ledger.slots slot.key).lookup slot.slotIndex = some slot.endpointId ∨ t.Backed slot)
    (hcollected : ∀ c ∈ t.reconciliations, ∀ slot, Reported c.reports slot →
      (∃ c' ∈ s.reconciliations, Reported c'.reports slot) ∨ t.Backed slot)
    (hbacked : ∀ slot, s.Backed slot → t.Backed slot) : BackingInv t where
  granted := fun slot hslot => (hgranted slot hslot).elim (fun h' => hbacked _ (h.granted _ h')) id
  collected := fun c hc slot hslot =>
    (hcollected c hc slot hslot).elim (fun ⟨c', hc', h'⟩ => hbacked _ (h.collected c' hc' _ h')) id

/-- A handle that changes its status, and teardowns, leave the backing as it is. -/
theorem BackingInv.setStatus (h : BackingInv s) {i : ℕ} {H H' : Handle}
    {us : List Teardown} (hH : s.handles[i]? = some H) (hslot : H'.slot = H.slot)
    (hkept : H'.inPool = H.inPool) :
    BackingInv { s with handles := s.handles.set i H', teardowns := us } := by
  refine h.mono (fun slot hslot => Or.inl hslot) (fun c hc slot hslot => Or.inl ⟨c, hc, hslot⟩) ?_
  rintro slot (hpend | ⟨K, hK, hKslot, hpool⟩ | hrel)
  · exact Or.inl hpend
  · refine Or.inr (Or.inl ?_)
    obtain ⟨j, hj⟩ := List.mem_iff_getElem?.1 hK
    rcases eq_or_ne j i with rfl | hne
    · obtain rfl : H = K := Option.some.inj (hH.symm.trans hj)
      exact ⟨H', List.mem_set (List.getElem?_eq_some_iff.1 hH).1 _, hslot.trans hKslot,
        hkept.trans hpool⟩
    · refine ⟨K, List.mem_iff_getElem?.2 ⟨j, ?_⟩, hKslot, hpool⟩
      rw [List.getElem?_set_ne hne.symm, hj]
  · exact Or.inr (Or.inr hrel)

/-- A handle leaves its pool with a release of its slot. -/
theorem BackingInv.leavePool (h : BackingInv s) {i : ℕ} {H : Handle} {us : List Teardown}
    (hH : s.handles[i]? = some H) :
    BackingInv
      { s with
        handles := s.handles.set i { H with inPool := false }
        teardowns := us
        releases := { slot := H.slot, diedAt := H.diedAt } :: s.releases } := by
  refine h.mono (fun slot hslot => Or.inl hslot) (fun c hc slot hslot => Or.inl ⟨c, hc, hslot⟩) ?_
  rintro slot (hpend | ⟨K, hK, hKslot, hpool⟩ | ⟨r, hr, hrslot⟩)
  · exact Or.inl hpend
  · obtain ⟨j, hj⟩ := List.mem_iff_getElem?.1 hK
    rcases eq_or_ne j i with rfl | hne
    · obtain rfl : H = K := Option.some.inj (hH.symm.trans hj)
      exact Or.inr (Or.inr ⟨_, List.mem_cons_self, hKslot⟩)
    · refine Or.inr (Or.inl ⟨K, List.mem_iff_getElem?.2 ⟨j, ?_⟩, hKslot, hpool⟩)
      rw [List.getElem?_set_ne hne.symm, hj]
  · exact Or.inr (Or.inr ⟨r, List.mem_cons_of_mem _ hr, hrslot⟩)

/-- One more release. -/
theorem BackingInv.addRelease (h : BackingInv s) {r : Release} {us : List Teardown} :
    BackingInv { s with teardowns := us, releases := r :: s.releases } := by
  refine h.mono (fun slot hslot => Or.inl hslot) (fun c hc slot hslot => Or.inl ⟨c, hc, hslot⟩) ?_
  rintro slot (hpend | hpool | ⟨r', hr', hslot⟩)
  · exact Or.inl hpend
  · exact Or.inr (Or.inl hpool)
  · exact Or.inr (Or.inr ⟨r', List.mem_cons_of_mem _ hr', hslot⟩)

theorem BackingInv.teardowns (h : BackingInv s) (us : List Teardown) :
    BackingInv { s with teardowns := us } :=
  ⟨h.granted, h.collected⟩

theorem BackingInv.sameGrants (h : BackingInv s) {l : ConcurrencyLedger}
    (hs : ∀ key, l.slots key = s.ledger.slots key) : BackingInv { s with ledger := l } := by
  refine ⟨fun slot hslot => h.granted slot ?_, h.collected⟩
  rw [← hs]
  exact hslot

/-- A grant that its endpoint receives. -/
theorem BackingInv.grant (h : BackingInv s) {l : ConcurrencyLedger} {key : Key} {e : EndpointId}
    {i : ℤ} (hg : GrantedIn s.ledger l key i e) :
    BackingInv ((s.answered l key (.granted i)).received e key (.granted i)) := by
  refine h.mono ?_ (fun c hc slot hslot => Or.inl ⟨c, hc, hslot⟩) ?_
  · intro slot hslot
    have hheld : (l.slots slot.key).lookup slot.slotIndex = some slot.endpointId := hslot
    rcases eq_or_ne slot.key key with hkey | hkey
    · rw [hkey, hg.slots] at hheld
      rcases eq_or_ne slot.slotIndex i with hidx | hidx
      · right
        rw [hidx, AList.lookup_insert] at hheld
        have heq : slot = ⟨e, key, i⟩ := by
          rw [Option.some.inj hheld, ← hkey, ← hidx]
        exact Or.inl (heq ▸ List.mem_cons_self)
      · left
        rw [AList.lookup_insert_ne hidx] at hheld
        rwa [hkey]
    · left
      rwa [hg.other _ hkey] at hheld
  · rintro slot (hpend | hrest)
    · exact Or.inl (List.mem_cons_of_mem _ hpend)
    · exact Or.inr hrest

/-- A release arrives: the grant that it backed is gone, and no running reconciliation has its
entry. -/
theorem BackingInv.deliver (h : BackingInv s) {r : Release}
    (hcollected : ∀ c ∈ s.reconciliations, ¬ Reported c.reports r.slot) :
    BackingInv
      { s with
        releases := s.releases.erase r
        ledger := s.ledger.releaseSlot r.slot.key r.slot.slotIndex r.slot.endpointId } := by
  have hbacked : ∀ slot, slot ≠ r.slot → s.Backed slot → Backed { s with
      releases := s.releases.erase r
      ledger := s.ledger.releaseSlot r.slot.key r.slot.slotIndex r.slot.endpointId } slot := by
    rintro slot hne (hpend | hpool | ⟨r', hr', rfl⟩)
    · exact Or.inl hpend
    · exact Or.inr (Or.inl hpool)
    · have hrr : r' ≠ r := fun heq => hne (heq ▸ rfl)
      exact Or.inr (Or.inr ⟨r', (List.mem_erase_of_ne hrr).2 hr', rfl⟩)
  constructor
  · intro slot hslot
    have hheld : ((s.ledger.releaseSlot r.slot.key r.slot.slotIndex r.slot.endpointId).slots
        slot.key).lookup slot.slotIndex = some slot.endpointId := hslot
    rw [lookup_releaseSlot] at hheld
    split_ifs at hheld with hk
    refine hbacked slot ?_ (h.granted slot hheld)
    rintro rfl
    exact hk ⟨rfl, rfl, hheld⟩
  · intro c hc slot hslot
    refine hbacked slot ?_ (h.collected c hc slot hslot)
    rintro rfl
    exact hcollected c hc hslot

theorem mem_reportOf {e : EndpointId} {key : Key} {i : ℤ} (h : entryOf key i ∈ s.reportOf e) :
    ∃ H ∈ s.handles, H.slot = ⟨e, key, i⟩ ∧ H.inPool = true := by
  obtain ⟨H, hH, hentry⟩ := List.mem_map.1 h
  obtain ⟨hmem, hcond⟩ := List.mem_filter.1 hH
  obtain ⟨⟨rfl, hpool⟩, -⟩ :
      (H.slot.endpointId = e ∧ H.inPool = true) ∧ H.status = .up := by simpa using hcond
  refine ⟨H, hmem, ?_, hpool⟩
  have hkey : H.slot.key = key := congrArg ContainerCountEntry.key hentry
  have hidx : H.slot.slotIndex = i := congrArg ContainerCountEntry.slotIndex hentry
  rw [← hkey, ← hidx]

theorem reported_insert {reports : Reports} {e : EndpointId} {entries : List ContainerCountEntry}
    {slot : Slot} (h : Reported (reports.insert e entries) slot) :
    (slot.endpointId = e ∧ entryOf slot.key slot.slotIndex ∈ entries) ∨ Reported reports slot := by
  obtain ⟨es, hes, hmem⟩ := h
  rcases eq_or_ne slot.endpointId e with heq | hne
  · rw [heq, AList.lookup_insert] at hes
    exact Or.inl ⟨heq, (Option.some.inj hes) ▸ hmem⟩
  · rw [AList.lookup_insert_ne hne] at hes
    exact Or.inr ⟨es, hes, hmem⟩

theorem BackingInv.request (h : BackingInv s) (e : EndpointId) (key : Key) (draw : Draw) :
    BackingInv
      ((s.answered (s.ledger.requestSlot key (maxConcurrency key) e draw).2 key
          (s.ledger.requestSlot key (maxConcurrency key) e draw).1).received e key
        (s.ledger.requestSlot key (maxConcurrency key) e draw).1) := by
  rcases requestSlot_cases s.ledger key (maxConcurrency key) e draw with
    ⟨-, heq⟩ | ⟨-, u, l, heq, -, hs⟩ | ⟨-, -, -, l, heq, hg⟩ | ⟨-, -, -, u, l, heq, -, hs⟩
  · rw [heq]
    exact h
  · rw [heq]
    exact h.sameGrants hs.slots
  · rw [heq]
    exact h.grant hg
  · rw [heq]
    exact h.sameGrants hs.slots

/-- A lost answer that grants nothing. -/
theorem BackingInv.requestLost (h : BackingInv s) (e : EndpointId) (key : Key) (draw : Draw)
    (hfull : s.ledger.ready = true → s.ledger.idleOwners key e = [] →
      max 1 (maxConcurrency key) ≤ (Dict.size (s.ledger.slots key) : ℤ)) :
    BackingInv
      (s.answered (s.ledger.requestSlot key (maxConcurrency key) e draw).2 key
        (s.ledger.requestSlot key (maxConcurrency key) e draw).1) := by
  rcases requestSlot_cases s.ledger key (maxConcurrency key) e draw with
    ⟨-, heq⟩ | ⟨-, u, l, heq, -, hs⟩ | ⟨hready, hidle, hcap, -⟩ | ⟨-, -, -, u, l, heq, -, hs⟩
  · rw [heq]
    exact h
  · rw [heq]
    exact h.sameGrants hs.slots
  · exact absurd hcap (not_lt.2 (hfull hready hidle))
  · rw [heq]
    exact h.sameGrants hs.slots

/-- Every step under the guard keeps every grant backed. -/
theorem BackingInv.step {a : ClusterAction} (h : BackingInv s)
    (hg : NoPhantom maxConcurrency s a) (hs : Cluster.step leader maxConcurrency s a = some t) :
    BackingInv t := by
  obtain ⟨hanswer, hlost, hdeliver, -, -⟩ := hg
  cases a with
  | request e key draw =>
    cases hs
    exact h.request e key draw
  | requestLost e key draw =>
    cases hs
    exact h.requestLost e key draw (hanswer (e, key) List.mem_cons_self)
  | summon slot =>
    simp only [Cluster.step, Option.ite_none_right_eq_some, Option.some.injEq] at hs
    obtain ⟨-, rfl⟩ := hs
    refine h.mono (fun _ => Or.inl) (fun c hc _ h' => Or.inl ⟨c, hc, h'⟩) ?_
    rintro slot' (hpend | ⟨H, hH, hrest⟩ | hrel)
    · rcases eq_or_ne slot' slot with rfl | hne
      · exact Or.inr (Or.inl ⟨_, List.mem_append_right _ (List.mem_singleton.2 rfl), rfl, rfl⟩)
      · exact Or.inl ((List.mem_erase_of_ne hne).2 hpend)
    · exact Or.inr (Or.inl ⟨H, List.mem_append_left _ hH, hrest⟩)
    · exact Or.inr (Or.inr hrel)
  | summonErr slot =>
    simp only [Cluster.step, Option.ite_none_right_eq_some, Option.some.injEq] at hs
    obtain ⟨-, rfl⟩ := hs
    refine h.mono (fun _ => Or.inl) (fun c hc _ h' => Or.inl ⟨c, hc, h'⟩) ?_
    rintro slot' (hpend | hpool | ⟨r, hr, hrslot⟩)
    · rcases eq_or_ne slot' slot with rfl | hne
      · exact Or.inr (Or.inr ⟨_, List.mem_cons_self, rfl⟩)
      · exact Or.inl ((List.mem_erase_of_ne hne).2 hpend)
    · exact Or.inr (Or.inl hpool)
    · exact Or.inr (Or.inr ⟨r, List.mem_cons_of_mem _ hr, hrslot⟩)
  | spawnFail i =>
    simp only [Cluster.step, Option.map_eq_some_iff] at hs
    obtain ⟨H, hH, rfl⟩ := hs
    exact h.setStatus hH rfl rfl
  | revive i =>
    simp only [Cluster.step, Option.bind_eq_some_iff, Option.ite_none_right_eq_some,
      Option.some.injEq] at hs
    obtain ⟨H, hH, -, rfl⟩ := hs
    exact h.setStatus hH rfl rfl
  | sweep i =>
    simp only [Cluster.step, Option.bind_eq_some_iff, Option.ite_none_right_eq_some,
      Option.some.injEq] at hs
    obtain ⟨H, -, -, rfl⟩ := hs
    exact h.teardowns _
  | notice i =>
    simp only [Cluster.step, Option.bind_eq_some_iff, Option.ite_none_right_eq_some,
      Option.some.injEq] at hs
    obtain ⟨H, -, -, rfl⟩ := hs
    exact h.teardowns _
  | cancel i =>
    simp only [Cluster.step, Option.bind_eq_some_iff, Option.ite_none_right_eq_some,
      Option.some.injEq] at hs
    obtain ⟨H, -, -, rfl⟩ := hs
    exact h.teardowns _
  | mark u =>
    simp only [Cluster.step, Option.bind_eq_some_iff, Option.ite_none_right_eq_some,
      Option.some.injEq] at hs
    obtain ⟨H, hH, -, rfl⟩ := hs
    exact h.setStatus hH rfl rfl
  | dismiss u =>
    simp only [Cluster.step, Option.bind_eq_some_iff, Option.ite_none_right_eq_some,
      Option.some.injEq] at hs
    obtain ⟨H, hH, -, rfl⟩ := hs
    exact h.setStatus hH rfl rfl
  | stopOk u =>
    simp only [Cluster.step, Option.bind_eq_some_iff, Option.ite_none_right_eq_some,
      Option.some.injEq] at hs
    obtain ⟨H, hH, -, rfl⟩ := hs
    exact h.leavePool hH
  | stopErr u =>
    simp only [Cluster.step, Option.ite_none_right_eq_some, Option.some.injEq] at hs
    obtain ⟨-, rfl⟩ := hs
    exact h.teardowns _
  | releaseAgain u =>
    simp only [Cluster.step, Option.bind_eq_some_iff, Option.ite_none_right_eq_some,
      Option.some.injEq] at hs
    obtain ⟨H, -, -, rfl⟩ := hs
    exact h.addRelease
  | deliver r =>
    simp only [Cluster.step, Option.ite_none_right_eq_some, Option.some.injEq] at hs
    obtain ⟨-, rfl⟩ := hs
    exact h.deliver (hdeliver r List.mem_cons_self)
  | loseRelease r => cases hlost
  | reconcileBegin peers =>
    cases hs
    refine ⟨h.granted, fun c hc slot hslot => ?_⟩
    rcases List.mem_cons.1 hc with rfl | hc
    · obtain ⟨es, hes, -⟩ := hslot
      simp at hes
    · exact h.collected c hc slot hslot
  | reconcilePull r answered =>
    cases hask : r.toAsk with
    | nil => simp [Cluster.step, hask] at hs
    | cons e rest =>
      simp only [Cluster.step, hask, Option.ite_none_right_eq_some, Option.some.injEq] at hs
      obtain ⟨hr, rfl⟩ := hs
      refine ⟨h.granted, fun c hc slot hslot => ?_⟩
      rcases List.mem_cons.1 hc with rfl | hc
      · rcases reported_insert hslot with ⟨he, hmem⟩ | hold
        · split_ifs at hmem
          · -- an entry of a report is a handle of a pool
            obtain ⟨H, hH, hHslot, hpool⟩ := mem_reportOf hmem
            exact Or.inr (Or.inl ⟨H, hH, by rw [hHslot, ← he], hpool⟩)
          · cases hmem
        · exact h.collected r hr slot hold
      · exact h.collected c (List.mem_of_mem_erase hc) slot hslot
  | reconcileWrite r =>
    simp only [Cluster.step, Option.ite_none_right_eq_some, Option.some.injEq] at hs
    obtain ⟨⟨hr, -⟩, rfl⟩ := hs
    refine ⟨fun slot hslot => h.collected r hr slot ?_, fun c hc slot hslot =>
      h.collected c (List.mem_of_mem_erase hc) slot hslot⟩
    exact lookup_reportedGrants hslot

/-! ### Dead handles -/

/-- A dead handle of a pool is being dismissed. -/
def Attended (s : Cluster) : Prop :=
  ∀ (i : ℕ) (H : Handle), s.handles[i]? = some H → H.inPool = true → H.status ≠ .up →
    TornDown s.teardowns i

@[simp] theorem handles_answered (l : ConcurrencyLedger) (key : Key) (decision : SlotDecision) :
    (s.answered l key decision).handles = s.handles := by
  cases decision <;> rfl

@[simp] theorem teardowns_answered (l : ConcurrencyLedger) (key : Key) (decision : SlotDecision) :
    (s.answered l key decision).teardowns = s.teardowns := by
  cases decision <;> rfl

@[simp] theorem handles_received (e : EndpointId) (key : Key) (decision : SlotDecision) :
    (s.received e key decision).handles = s.handles := by
  cases decision <;> rfl

@[simp] theorem teardowns_received (e : EndpointId) (key : Key) (decision : SlotDecision) :
    (s.received e key decision).teardowns = s.teardowns := by
  cases decision <;> rfl

theorem TornDown.mono {us vs : List Teardown} {i : ℕ} (h : TornDown us i) (hsub : us ⊆ vs) :
    TornDown vs i := by
  obtain ⟨u, hu, hrest⟩ := h
  exact ⟨u, hsub hu, hrest⟩

theorem TornDown.erase {us : List Teardown} {i : ℕ} {u : Teardown} (h : TornDown us i)
    (hother : u.handle ≠ i ∨ u.phase = .releasing) : TornDown (us.erase u) i := by
  obtain ⟨v, hv, hhandle, hphase⟩ := h
  have hne : v ≠ u := by
    rintro rfl
    rcases hother with hother | hother
    · exact hother hhandle
    · exact hphase hother
  exact ⟨v, (List.mem_erase_of_ne hne).2 hv, hhandle, hphase⟩

theorem tornDown_advance (s : Cluster) (u : Teardown) {phase : TeardownPhase}
    (hphase : phase ≠ .releasing) : TornDown (s.advance u phase) u.handle :=
  ⟨_, List.mem_cons_self, rfl, hphase⟩

theorem TornDown.advance {u : Teardown} {i : ℕ} (h : TornDown s.teardowns i) (hne : u.handle ≠ i)
    (phase : TeardownPhase) : TornDown (s.advance u phase) i :=
  (h.erase (Or.inl hne)).mono (List.subset_cons_self _ _)

theorem erase_subset_afterDismiss (s : Cluster) (u : Teardown) :
    s.teardowns.erase u ⊆ s.afterDismiss u := by
  unfold afterDismiss
  split_ifs
  · exact List.subset_cons_self _ _
  · exact List.Subset.refl _

/-- No handle changes, and no teardown ends that has to stop a container. -/
theorem Attended.mono (h : s.Attended) (hhandles : t.handles = s.handles)
    (hdown : ∀ i, TornDown s.teardowns i → TornDown t.teardowns i) : t.Attended :=
  fun i H hH hpool hdead => hdown i (h i H (hhandles ▸ hH) hpool hdead)

/-- One handle changes: it is not in a pool then, or it is up, or a teardown has still to stop its
container. -/
theorem Attended.set (h : s.Attended) {i : ℕ} {H H' : Handle} {us : List Teardown}
    {rs : List Release} (hH : s.handles[i]? = some H)
    (hnew : H'.inPool = true → H'.status ≠ .up → TornDown us i)
    (hdown : ∀ j, j ≠ i → TornDown s.teardowns j → TornDown us j) :
    Attended { s with handles := s.handles.set i H', teardowns := us, releases := rs } := by
  intro j K hK hpool hdead
  rcases eq_or_ne j i with rfl | hne
  · rw [List.getElem?_set_self (List.getElem?_eq_some_iff.1 hH).1] at hK
    cases hK
    exact hnew hpool hdead
  · rw [List.getElem?_set_ne hne.symm] at hK
    exact hdown j hne (h j K hK hpool hdead)

/-- Every step under the guard keeps dead handles attended. -/
theorem Attended.step {a : ClusterAction} (h : s.Attended) (hg : NoPhantom maxConcurrency s a)
    (hs : Cluster.step leader maxConcurrency s a = some t) : t.Attended := by
  obtain ⟨-, -, -, hstart, hstop⟩ := hg
  cases a with
  | request e key draw =>
    cases hs
    refine h.mono (by rw [handles_received, handles_answered]) fun i hdown => ?_
    rwa [teardowns_received, teardowns_answered]
  | requestLost e key draw =>
    cases hs
    refine h.mono (by rw [handles_answered]) fun i hdown => ?_
    rwa [teardowns_answered]
  | summon slot =>
    simp only [Cluster.step, Option.ite_none_right_eq_some, Option.some.injEq] at hs
    obtain ⟨-, rfl⟩ := hs
    intro i H hH hpool hdead
    dsimp only at hH
    rw [List.getElem?_append] at hH
    split_ifs at hH
    · exact h i H hH hpool hdead
    · rw [List.mem_singleton.1 (List.mem_of_getElem? hH)] at hdead
      exact absurd rfl hdead
  | summonErr slot =>
    simp only [Cluster.step, Option.ite_none_right_eq_some, Option.some.injEq] at hs
    obtain ⟨-, rfl⟩ := hs
    exact h
  | spawnFail i =>
    simp only [Cluster.step, Option.map_eq_some_iff] at hs
    obtain ⟨H, hH, rfl⟩ := hs
    exact h.set hH (fun hpool _ => hstart i List.mem_cons_self H hH hpool) fun _ _ => id
  | revive i =>
    simp only [Cluster.step, Option.bind_eq_some_iff, Option.ite_none_right_eq_some,
      Option.some.injEq] at hs
    obtain ⟨H, hH, -, rfl⟩ := hs
    exact h.set hH (fun _ hdead => absurd rfl hdead) fun _ _ => id
  | sweep i =>
    simp only [Cluster.step, Option.bind_eq_some_iff, Option.ite_none_right_eq_some,
      Option.some.injEq] at hs
    obtain ⟨H, -, -, rfl⟩ := hs
    exact h.mono rfl fun _ hdown => hdown.mono (List.subset_cons_self _ _)
  | notice i =>
    simp only [Cluster.step, Option.bind_eq_some_iff, Option.ite_none_right_eq_some,
      Option.some.injEq] at hs
    obtain ⟨H, -, -, rfl⟩ := hs
    exact h.mono rfl fun _ hdown => hdown.mono (List.subset_cons_self _ _)
  | cancel i =>
    simp only [Cluster.step, Option.bind_eq_some_iff, Option.ite_none_right_eq_some,
      Option.some.injEq] at hs
    obtain ⟨H, -, -, rfl⟩ := hs
    exact h.mono rfl fun _ hdown => hdown.mono (List.subset_cons_self _ _)
  | mark u =>
    simp only [Cluster.step, Option.bind_eq_some_iff, Option.ite_none_right_eq_some,
      Option.some.injEq] at hs
    obtain ⟨H, hH, -, rfl⟩ := hs
    exact h.set hH (fun _ _ => tornDown_advance s u TeardownPhase.noConfusion)
      fun j hj hdown => hdown.advance hj.symm _
  | dismiss u =>
    simp only [Cluster.step, Option.bind_eq_some_iff, Option.ite_none_right_eq_some,
      Option.some.injEq] at hs
    obtain ⟨H, hH, -, rfl⟩ := hs
    exact h.set hH (fun _ _ => tornDown_advance s u TeardownPhase.noConfusion)
      fun j hj hdown => hdown.advance hj.symm _
  | stopOk u =>
    simp only [Cluster.step, Option.bind_eq_some_iff, Option.ite_none_right_eq_some,
      Option.some.injEq] at hs
    obtain ⟨H, hH, -, rfl⟩ := hs
    exact h.set hH (fun hpool _ => absurd hpool Bool.false_ne_true) fun j hj hdown =>
      (hdown.erase (Or.inl hj.symm)).mono (erase_subset_afterDismiss s u)
  | stopErr u =>
    simp only [Cluster.step, Option.ite_none_right_eq_some, Option.some.injEq] at hs
    obtain ⟨-, rfl⟩ := hs
    intro i H hH hpool hdead
    refine TornDown.mono ?_ (erase_subset_afterDismiss s u)
    rcases eq_or_ne u.handle i with rfl | hne
    · exact hstop u List.mem_cons_self H hH hpool hdead
    · exact (h i H hH hpool hdead).erase (Or.inl hne)
  | releaseAgain u =>
    simp only [Cluster.step, Option.bind_eq_some_iff, Option.ite_none_right_eq_some,
      Option.some.injEq] at hs
    obtain ⟨H, -, ⟨-, hphase⟩, rfl⟩ := hs
    exact h.mono rfl fun _ hdown => hdown.erase (Or.inr hphase)
  | deliver r =>
    simp only [Cluster.step, Option.ite_none_right_eq_some, Option.some.injEq] at hs
    obtain ⟨-, rfl⟩ := hs
    exact h
  | loseRelease r =>
    simp only [Cluster.step, Option.ite_none_right_eq_some, Option.some.injEq] at hs
    obtain ⟨-, rfl⟩ := hs
    exact h
  | reconcileBegin peers =>
    cases hs
    exact h
  | reconcilePull r answered =>
    cases hask : r.toAsk with
    | nil => simp [Cluster.step, hask] at hs
    | cons e rest =>
      simp only [Cluster.step, hask, Option.ite_none_right_eq_some, Option.some.injEq] at hs
      obtain ⟨-, rfl⟩ := hs
      exact h
  | reconcileWrite r =>
    simp only [Cluster.step, Option.ite_none_right_eq_some, Option.some.injEq] at hs
    obtain ⟨-, rfl⟩ := hs
    exact h

/-! ### When nothing is in progress -/

/-- No placement, spawn, dismissal, release or reconciliation is in progress. -/
structure Quiet (s : Cluster) : Prop where
  pending : s.pending = []
  teardowns : s.teardowns = []
  releases : s.releases = []
  reconciliations : s.reconciliations = []

/-- A live container with the slot index, at its owner. -/
def HasContainer (s : Cluster) (slot : Slot) : Prop :=
  ∃ H ∈ s.handles, H.slot = slot ∧ H.inPool = true ∧ H.status = .up

/-- In every run under the guard, whenever nothing is in progress, each grant is backed by a live
container at its owner, and the leader names only endpoints that have one. -/
theorem backed_of_reach (leader : EndpointId) (maxConcurrency : Key → ℤ) (strategy : String)
    (s : Cluster)
    (h : Reach (Cluster.step leader maxConcurrency) (NoPhantom maxConcurrency) (init strategy) s)
    (hquiet : s.Quiet) :
    (∀ slot, (s.ledger.slots slot.key).lookup slot.slotIndex = some slot.endpointId →
      s.HasContainer slot) ∧
    ∀ key e draw target, (s.ledger.requestSlot key (maxConcurrency key) e draw).1 = .place target →
      ∃ i, s.HasContainer ⟨target, key, i⟩ := by
  have hinv : BackingInv s ∧ s.Attended := by
    refine h.invariant (I := fun s => BackingInv s ∧ s.Attended)
      ⟨backingInv_init strategy, fun i H hH => ?_⟩
      fun _ _ _ hI hG hstep => ⟨hI.1.step hG hstep, hI.2.step hG hstep⟩
    simp [init] at hH
  have hup : ∀ H ∈ s.handles, H.inPool = true → H.status = .up := by
    intro H hH hpool
    by_contra hdead
    obtain ⟨i, hi⟩ := List.mem_iff_getElem?.1 hH
    obtain ⟨u, hu, -⟩ := hinv.2 i H hi hpool hdead
    rw [hquiet.teardowns] at hu
    cases hu
  have hgrant : ∀ slot, (s.ledger.slots slot.key).lookup slot.slotIndex = some slot.endpointId →
      s.HasContainer slot := by
    intro slot hslot
    rcases hinv.1.granted slot hslot with hpend | ⟨H, hH, hHslot, hpool⟩ | ⟨r, hr, -⟩
    · rw [hquiet.pending] at hpend
      cases hpend
    · exact ⟨H, hH, hHslot, hpool, hup H hH hpool⟩
    · rw [hquiet.releases] at hr
      cases hr
  refine ⟨hgrant, fun key e draw target hplace => ?_⟩
  obtain ⟨i, hi⟩ := mem_ownersOf.1 (requestSlot_place hplace).1
  exact ⟨i, hgrant ⟨target, key, i⟩ hi⟩

end Steps

/-! ### A reconciled container, and a lost answer -/

/-- A container is summoned and counted by a reconciliation. -/
def growThenReconcile : List ClusterAction :=
  [.request "A" ("f", 1) default, .summon ⟨"A", ("f", 1), 0⟩, .reconcileBegin ["B"],
    .reconcilePull ⟨["A", "B"], ∅⟩ true,
    .reconcilePull ⟨["B"], AList.insert "A" [entryOf ("f", 1) 0] ∅⟩ false,
    .reconcileWrite ⟨[], AList.insert "B" [] (AList.insert "A" [entryOf ("f", 1) 0] ∅)⟩]

/-- The run keeps to the guard and ends quiet, so its one grant is backed. -/
theorem backed_growThenReconcile :
    ∃ s, Reach (Cluster.step "A" fun _ => 1) (NoPhantom fun _ => 1) (init "round_robin") s ∧
      (s.ledger.slots ("f", 1)).lookup 0 = some "A" ∧ s.HasContainer ⟨"A", ("f", 1), 0⟩ := by
  obtain ⟨s, hs, hP⟩ := exists_reach_of_guarded_run (Cluster.step "A" fun _ => 1)
    (NoPhantom fun _ => 1) (init "round_robin")
    (fun s => s.pending = [] ∧ s.teardowns = [] ∧ s.releases = [] ∧ s.reconciliations = [] ∧
      (s.ledger.slots ("f", 1)).lookup 0 = some "A") growThenReconcile (by decide)
  obtain ⟨h1, h2, h3, h4, hgrant⟩ := of_decide_eq_true hP
  exact ⟨s, hs, hgrant,
    (backed_of_reach "A" _ "round_robin" s hs ⟨h1, h2, h3, h4⟩).1 ⟨"A", ("f", 1), 0⟩ hgrant⟩

/-- The answer to a request is lost: nothing is in progress, the grant has no container, and the
leader names its owner to everybody else. -/
theorem grant_without_container :
    ∃ s, Reach (Cluster.step "A" fun _ => 1) Always (init "round_robin") s ∧ s.Quiet ∧
      (s.ledger.slots ("f", 1)).lookup 0 = some "A" ∧ s.handles = [] ∧
      (s.ledger.requestSlot ("f", 1) 1 "B" default).1 = .place "A" := by
  obtain ⟨s, hs, hP⟩ := exists_reach_of_run (Cluster.step "A" fun _ => 1) (init "round_robin")
    (fun s => s.pending = [] ∧ s.teardowns = [] ∧ s.releases = [] ∧ s.reconciliations = [] ∧
      (s.ledger.slots ("f", 1)).lookup 0 = some "A" ∧ s.handles = [] ∧
      (s.ledger.requestSlot ("f", 1) 1 "B" default).1 = .place "A")
    [.requestLost "A" ("f", 1) default] (by decide)
  obtain ⟨h1, h2, h3, h4, hrest⟩ := of_decide_eq_true hP
  exact ⟨s, hs, ⟨h1, h2, h3, h4⟩, hrest⟩

end Cluster

end Axo
