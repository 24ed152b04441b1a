import Axo.Consensus.LedgerRuns
import Axo.Service.Cluster

/-!
# The cluster-wide cap

Which containers are live and which are only remembered, and when the cap holds.

* `Live` says that a slot is in use: its grant is still to be acted on, or its container runs;
* `deadRefs` lists what is left of containers that are not: dead handles that a pool or a
  teardown still has, and releases in flight;
* `CapGuard` is the guard: a request is not granted a slot of which the same endpoint still has
  something left (`FreshGrant`), and no dead handle gets a live status again;
* `CapInv` is the invariant, and `cap_of_reach` the result for whole runs.
-/

namespace Axo

open ConcurrencyLedger Transition

namespace Cluster

/-! ### What is live and what is left -/

/-- A pool or a teardown still has the handle. -/
def Refers (s : Cluster) (i : ℕ) : Prop :=
  (∃ H : Handle, s.handles[i]? = some H ∧ H.inPool = true) ∨ ∃ t ∈ s.teardowns, t.handle = i

/-- Dead handles in their pools, dead handles of teardowns, and releases, each with the time at
which the container stopped being live. -/
def deadRefs (s : Cluster) : List (Slot × ℕ) :=
  (s.handles.filter fun H => H.status ≠ .up && H.inPool).map (fun H => (H.slot, H.diedAt)) ++
    s.teardowns.filterMap (fun t => (s.handles[t.handle]?).bind fun H =>
      if H.status = .up then none else some (H.slot, H.diedAt)) ++
    s.releases.map fun r => (r.slot, r.diedAt)

/-- Something is left of an earlier container of the slot. -/
def Outstanding (s : Cluster) (slot : Slot) : Prop := ∃ p ∈ s.deadRefs, p.1 = slot

instance (s : Cluster) (slot : Slot) : Decidable (s.Outstanding slot) :=
  inferInstanceAs (Decidable (∃ p ∈ s.deadRefs, p.1 = slot))

/-- The slot is in use. -/
def Live (s : Cluster) (slot : Slot) : Prop :=
  slot ∈ s.pending ∨ ∃ (i : ℕ) (H : Handle), s.handles[i]? = some H ∧ H.slot = slot ∧ H.status = .up

theorem mem_deadRefs {s : Cluster} {slot : Slot} {d : ℕ} :
    (slot, d) ∈ s.deadRefs ↔
      (∃ (i : ℕ) (H : Handle), s.handles[i]? = some H ∧ H.status ≠ .up ∧ s.Refers i ∧
        H.slot = slot ∧ H.diedAt = d) ∨
      ∃ r ∈ s.releases, r.slot = slot ∧ r.diedAt = d := by
  simp only [deadRefs, List.mem_append, List.mem_map, List.mem_filter, List.mem_filterMap,
    Prod.mk.injEq, Option.bind_eq_some_iff]
  refine or_congr_left ⟨?_, ?_⟩
  · rintro (⟨H, ⟨hmem, hH⟩, hslot, hd⟩ | ⟨t, ht, H, hget, hH⟩)
    · obtain ⟨i, hi⟩ := List.mem_iff_getElem?.1 hmem
      obtain ⟨hdead, hpool⟩ : H.status ≠ .up ∧ H.inPool = true := by simpa using hH
      exact ⟨i, H, hi, hdead, Or.inl ⟨H, hi, hpool⟩, hslot, hd⟩
    · split_ifs at hH with hup
      cases hH
      exact ⟨t.handle, H, hget, hup, Or.inr ⟨t, ht, rfl⟩, rfl, rfl⟩
  · rintro ⟨i, H, hget, hdead, ⟨H', hget', hpool⟩ | ⟨t, ht, rfl⟩, hslot, hd⟩
    · obtain rfl : H = H' := Option.some.inj (hget.symm.trans hget')
      exact Or.inl ⟨H, ⟨List.mem_iff_getElem?.2 ⟨i, hget⟩, by simp [hdead, hpool]⟩, hslot, hd⟩
    · exact Or.inr ⟨t, ht, H, hget, by rw [if_neg hdead, hslot, hd]⟩

/-! ### The guard -/

/-- The steps of a cluster with one fixed leader and reliable messages. -/
def inCapScope : ClusterAction → Bool
  | .requestLost _ _ _ => false
  | .loseRelease _ => false
  | .reconcileBegin _ => false
  | .reconcilePull _ _ => false
  | .reconcileWrite _ => false
  | _ => true

/-- The requests among the actions: who asks, and for what. -/
def asks : ClusterAction → List (EndpointId × Key)
  | .request endpointId key _ => [(endpointId, key)]
  | _ => []

/-- A request that finds no idle owner and room below the cap comes from an endpoint that has
nothing left at the lowest free index. -/
def FreshGrant (maxConcurrency : Key → ℤ) (s : Cluster) (a : ClusterAction) : Prop :=
  ∀ p ∈ asks a, s.ledger.idleOwners p.2 p.1 = [] →
    (Dict.size (s.ledger.slots p.2) : ℤ) < max 1 (maxConcurrency p.2) →
      ¬ s.Outstanding ⟨p.1, p.2, smallestUnusedIndex (s.ledger.slots p.2)⟩

/-- A dead handle gets a live status. -/
def revives : ClusterAction → Bool
  | .revive _ => true
  | _ => false

/-- The guard of the runs that keep to the cap. -/
def CapGuard (maxConcurrency : Key → ℤ) (s : Cluster) (a : ClusterAction) : Prop :=
  inCapScope a = true ∧ revives a = false ∧ FreshGrant maxConcurrency s a

instance (maxConcurrency : Key → ℤ) (s : Cluster) (a : ClusterAction) :
    Decidable (CapGuard maxConcurrency s a) :=
  inferInstanceAs (Decidable (_ ∧ _ ∧ ∀ p ∈ asks a, _ → _ → ¬ Outstanding _ _))

/-! ### The invariant -/

/-- What keeps the cap: a live slot is granted to its endpoint, it is live once, and nothing is
left of an earlier container of it; what is left is from after the grant it could remove. -/
structure CapInv (maxConcurrency : Key → ℤ) (s : Cluster) : Prop where
  ledger : LedgerInv maxConcurrency s.ledger
  pending : s.pending.Nodup
  unique : ∀ (i j : ℕ) (H H' : Handle), s.handles[i]? = some H → s.handles[j]? = some H' → H.status = .up →
    H'.status = .up → H.slot = H'.slot → i = j
  fresh : ∀ (i : ℕ) (H : Handle), s.handles[i]? = some H → H.status = .up → H.slot ∉ s.pending
  granted : ∀ slot, s.Live slot →
    (s.ledger.slots slot.key).lookup slot.slotIndex = some slot.endpointId
  apart : ∀ slot d, (slot, d) ∈ s.deadRefs → ¬ s.Live slot
  known : ∀ t ∈ s.teardowns, t.handle < s.handles.length
  down : ∀ t ∈ s.teardowns, t.phase = .stopping ∨ t.phase = .releasing →
    ∀ H : Handle, s.handles[t.handle]? = some H → H.status ≠ .up
  past : ∀ key i, i ∈ s.ledger.slots key → s.grantedAt key i < s.clock
  before : ∀ slot d, (slot, d) ∈ s.deadRefs →
    (s.ledger.slots slot.key).lookup slot.slotIndex = some slot.endpointId →
      s.grantedAt slot.key slot.slotIndex < d

section Steps

variable {maxConcurrency : Key → ℤ} {leader : EndpointId} {s t : Cluster}

theorem capInv_init (strategy : String) : CapInv maxConcurrency (init strategy) where
  ledger := ledgerInv_new strategy
  pending := List.nodup_nil
  unique := by simp [init]
  fresh := by simp [init]
  granted := by simp [Live, init]
  apart := by simp [mem_deadRefs, init]
  known := by simp [init]
  down := by simp [init]
  past := fun key i hi => absurd hi (AList.notMem_empty i)
  before := by simp [mem_deadRefs, init]

/-- A step that grants nothing and frees nothing keeps the invariant, if what it leaves behind was
there before, or comes from a container that is dead from now on. -/
theorem CapInv.shrink (h : CapInv maxConcurrency s) (hledger : t.ledger = s.ledger)
    (hclock : t.clock = s.clock) (hgrantedAt : t.grantedAt = s.grantedAt)
    (hpending : t.pending.Sublist s.pending)
    (hup : ∀ (i : ℕ) (K : Handle), t.handles[i]? = some K → K.status = .up →
      ∃ H : Handle, s.handles[i]? = some H ∧ H.status = .up ∧ H.slot = K.slot)
    (hdead : ∀ slot d, (slot, d) ∈ t.deadRefs →
      (slot, d) ∈ s.deadRefs ∨ (¬ t.Live slot ∧ d = s.clock))
    (hknown : ∀ u ∈ t.teardowns, u.handle < t.handles.length)
    (hdown : ∀ u ∈ t.teardowns, u.phase = .stopping ∨ u.phase = .releasing →
      ∀ H : Handle, t.handles[u.handle]? = some H → H.status ≠ .up) :
    CapInv maxConcurrency t := by
  have hlive : ∀ slot, t.Live slot → s.Live slot := by
    rintro slot (hmem | ⟨i, K, hK, rfl, hst⟩)
    · exact Or.inl (hpending.subset hmem)
    · obtain ⟨H, hH, hHst, hslot⟩ := hup i K hK hst
      exact Or.inr ⟨i, H, hH, hslot, hHst⟩
  refine ⟨hledger ▸ h.ledger, hpending.nodup h.pending, ?_, ?_, ?_, ?_, hknown, hdown, ?_, ?_⟩
  · intro i j K K' hK hK' hst hst' hslot
    obtain ⟨H, hH, hHst, hHslot⟩ := hup i K hK hst
    obtain ⟨H', hH', hHst', hHslot'⟩ := hup j K' hK' hst'
    exact h.unique i j H H' hH hH' hHst hHst' (by rw [hHslot, hHslot', hslot])
  · intro i K hK hst hmem
    obtain ⟨H, hH, hHst, hHslot⟩ := hup i K hK hst
    exact h.fresh i H hH hHst (hHslot ▸ hpending.subset hmem)
  · rw [hledger]
    exact fun slot hslot => h.granted slot (hlive slot hslot)
  · intro slot d hmem
    rcases hdead slot d hmem with hold | ⟨hnot, -⟩
    · exact fun hslot => h.apart slot d hold (hlive slot hslot)
    · exact hnot
  · rw [hledger, hclock, hgrantedAt]
    exact h.past
  · rw [hledger, hgrantedAt]
    intro slot d hmem hlookup
    rcases hdead slot d hmem with hold | ⟨-, rfl⟩
    · exact h.before slot d hold hlookup
    · exact h.past _ _ (Dict.mem_of_lookup hlookup)

/-- A teardown starts on a handle that a pool has, or that is still up. -/
theorem CapInv.startTeardown (h : CapInv maxConcurrency s) {u : Teardown} {H : Handle}
    (hH : s.handles[u.handle]? = some H) (hstart : H.inPool = true ∨ H.status = .up)
    (hphase : u.phase = .noticed ∨ u.phase = .selected) :
    CapInv maxConcurrency { s with teardowns := u :: s.teardowns } := by
  refine h.shrink rfl rfl rfl (List.Sublist.refl _) (fun i K hK hst => ⟨K, hK, hst, rfl⟩) ?_ ?_ ?_
  · intro slot d hmem
    left
    rw [mem_deadRefs] at hmem ⊢
    refine hmem.imp_left ?_
    rintro ⟨i, K, hK, hdead, hrefers, hslot, hd⟩
    refine ⟨i, K, hK, hdead, ?_, hslot, hd⟩
    rcases hrefers with hpool | ⟨v, hv, rfl⟩
    · exact Or.inl hpool
    · rcases List.mem_cons.1 hv with rfl | hv
      · obtain rfl : H = K := Option.some.inj (hH.symm.trans hK)
        exact Or.inl ⟨H, hH, hstart.resolve_right hdead⟩
      · exact Or.inr ⟨v, hv, rfl⟩
  · intro v hv
    rcases List.mem_cons.1 hv with rfl | hv
    · exact (List.getElem?_eq_some_iff.1 hH).1
    · exact h.known v hv
  · intro v hv hvphase
    rcases List.mem_cons.1 hv with rfl | hv
    · rcases hphase with hp | hp <;> simp [hp] at hvphase
    · exact h.down v hv hvphase

/-- The handles of a list of teardowns are among those of the cluster. -/
def SameHandles (s : Cluster) (us : List Teardown) : Prop :=
  ∀ u ∈ us, ∃ v ∈ s.teardowns, v.handle = u.handle

/-- A handle that is set to a dead status has no live slot. -/
theorem CapInv.die (h : CapInv maxConcurrency s) {i : ℕ} {H : Handle} {status : HandleStatus}
    {us : List Teardown} (hH : s.handles[i]? = some H) (hstatus : status ≠ .up)
    (hsame : s.SameHandles us)
    (hphase : ∀ u ∈ us, u.phase = .stopping ∨ u.phase = .releasing →
      u ∈ s.teardowns ∨ u.handle = i) :
    CapInv maxConcurrency
      { s with handles := s.handles.set i (H.die status s.clock), teardowns := us } := by
  have hi : i < s.handles.length := (List.getElem?_eq_some_iff.1 hH).1
  have hget : ∀ (j : ℕ) (K : Handle), (s.handles.set i (H.die status s.clock))[j]? = some K →
      (j = i ∧ K = H.die status s.clock) ∨ (j ≠ i ∧ s.handles[j]? = some K) := by
    intro j K hK
    rcases eq_or_ne j i with rfl | hne
    · rw [List.getElem?_set_self hi] at hK
      exact Or.inl ⟨rfl, (Option.some.inj hK).symm⟩
    · rw [List.getElem?_set_ne hne.symm] at hK
      exact Or.inr ⟨hne, hK⟩
  have hup : ∀ (j : ℕ) (K : Handle), (s.handles.set i (H.die status s.clock))[j]? = some K →
      K.status = .up → j ≠ i ∧ s.handles[j]? = some K := by
    intro j K hK hst
    rcases hget j K hK with ⟨-, rfl⟩ | hold
    · exact absurd hst hstatus
    · exact hold
  refine h.shrink rfl rfl rfl (List.Sublist.refl _)
    (fun j K hK hst => ⟨K, (hup j K hK hst).2, hst, rfl⟩) ?_ ?_ ?_
  · intro slot d hmem
    rw [mem_deadRefs] at hmem
    rcases hmem with ⟨j, K, hK, hdead, hrefs, rfl, rfl⟩ | hrel
    · have hold : s.Refers j := by
        rcases hrefs with ⟨K', hK', hpool⟩ | ⟨u, hu, rfl⟩
        · rcases hget j K' hK' with ⟨rfl, rfl⟩ | ⟨-, hK''⟩
          · exact Or.inl ⟨H, hH, hpool⟩
          · exact Or.inl ⟨K', hK'', hpool⟩
        · obtain ⟨v, hv, hveq⟩ := hsame u hu
          exact Or.inr ⟨v, hv, hveq⟩
      rcases hget j K hK with ⟨rfl, rfl⟩ | ⟨-, hKold⟩
      · by_cases hHup : H.status = .up
        · -- it dies now: it was the only live use of its slot
          right
          refine ⟨?_, by simp [Handle.die, hHup]⟩
          rintro (hpend | ⟨k, K', hK', hslot, hst⟩)
          · exact h.fresh j H hH hHup hpend
          · obtain ⟨hne, hK''⟩ := hup k K' hK' hst
            exact hne (h.unique k j K' H hK'' hH hst hHup hslot)
        · left
          refine mem_deadRefs.2 (Or.inl ⟨j, H, hH, hHup, hold, rfl, ?_⟩)
          simp [Handle.die, hHup]
      · exact Or.inl (mem_deadRefs.2 (Or.inl ⟨j, K, hKold, hdead, hold, rfl, rfl⟩))
    · exact Or.inl (mem_deadRefs.2 (Or.inr hrel))
  · intro u hu
    obtain ⟨v, hv, hveq⟩ := hsame u hu
    rw [List.length_set, ← hveq]
    exact h.known v hv
  · intro u hu hphase' K hK
    rcases hget u.handle K hK with ⟨-, rfl⟩ | ⟨hne, hKold⟩
    · exact hstatus
    · rcases hphase u hu hphase' with hold | heq
      · exact h.down u hold hphase' K hKold
      · exact absurd heq hne

/-- A dead handle may leave its pool, teardowns may end or go on, and what a pool or a teardown
still had may be released. -/
theorem CapInv.letGo (h : CapInv maxConcurrency s) {handles : List Handle} {us : List Teardown}
    {rs : List Release}
    (hhandles : ∀ (i : ℕ) (K : Handle), handles[i]? = some K →
      ∃ H : Handle, s.handles[i]? = some H ∧ H.slot = K.slot ∧ H.status = K.status ∧
        H.diedAt = K.diedAt ∧ (K.inPool = true → H.inPool = true))
    (hlength : handles.length = s.handles.length) (hsame : s.SameHandles us)
    (hphase : ∀ u ∈ us, u.phase = .stopping ∨ u.phase = .releasing →
      ∃ v ∈ s.teardowns, v.handle = u.handle ∧ (v.phase = .stopping ∨ v.phase = .releasing))
    (hreleases : ∀ r ∈ rs, r ∈ s.releases ∨ (r.slot, r.diedAt) ∈ s.deadRefs) :
    CapInv maxConcurrency { s with handles := handles, teardowns := us, releases := rs } := by
  refine h.shrink rfl rfl rfl (List.Sublist.refl _) ?_ ?_ ?_ ?_
  · intro i K hK hst
    obtain ⟨H, hH, hslot, hstatus, -, -⟩ := hhandles i K hK
    exact ⟨H, hH, hstatus.trans hst, hslot⟩
  · intro slot d hmem
    left
    rcases mem_deadRefs.1 hmem with ⟨i, K, hK, hdead, hrefs, rfl, rfl⟩ | ⟨r, hr, rfl, rfl⟩
    · obtain ⟨H, hH, hslot, hstatus, hd, hpool⟩ := hhandles i K hK
      refine mem_deadRefs.2 (Or.inl ⟨i, H, hH, hstatus ▸ hdead, ?_, hslot, hd⟩)
      rcases hrefs with ⟨K', hK', hpool'⟩ | ⟨u, hu, rfl⟩
      · obtain rfl : K = K' := Option.some.inj (hK.symm.trans hK')
        exact Or.inl ⟨H, hH, hpool hpool'⟩
      · obtain ⟨v, hv, hveq⟩ := hsame u hu
        exact Or.inr ⟨v, hv, hveq⟩
    · rcases hreleases r hr with hold | hold
      · exact mem_deadRefs.2 (Or.inr ⟨r, hold, rfl, rfl⟩)
      · exact hold
  · intro u hu
    obtain ⟨v, hv, hveq⟩ := hsame u hu
    rw [hlength, ← hveq]
    exact h.known v hv
  · intro u hu hph K hK
    obtain ⟨v, hv, hveq, hvph⟩ := hphase u hu hph
    obtain ⟨H, hH, -, hstatus, -, -⟩ := hhandles u.handle K hK
    exact hstatus ▸ h.down v hv hvph H (hveq ▸ hH)

/-- A pending grant is given up: the endpoint releases it. -/
theorem CapInv.giveUp (h : CapInv maxConcurrency s) {slot : Slot} (hslot : slot ∈ s.pending) :
    CapInv maxConcurrency
      { s with
        pending := s.pending.erase slot
        releases := { slot := slot, diedAt := s.clock } :: s.releases } := by
  refine h.shrink rfl rfl rfl List.erase_sublist (fun i K hK hst => ⟨K, hK, hst, rfl⟩) ?_ h.known h.down
  intro slot' d hmem
  rcases mem_deadRefs.1 hmem with hold | ⟨r, hr, rfl, rfl⟩
  · exact Or.inl (mem_deadRefs.2 (Or.inl hold))
  · rcases List.mem_cons.1 hr with rfl | hr
    · refine Or.inr ⟨?_, rfl⟩
      rintro (hpend | ⟨i, H, hH, hHslot, hst⟩)
      · exact h.pending.not_mem_erase hpend
      · exact h.fresh i H hH hst (hHslot ▸ hslot)
    · exact Or.inl (mem_deadRefs.2 (Or.inr ⟨r, hr, rfl, rfl⟩))

/-- A pending grant becomes a container. -/
theorem CapInv.summon (h : CapInv maxConcurrency s) {slot : Slot} (hslot : slot ∈ s.pending) :
    CapInv maxConcurrency
      { s with
        pending := s.pending.erase slot
        handles := s.handles ++ [{ slot := slot, status := .up, inPool := true, diedAt := 0 }] } := by
  set new : Handle := { slot := slot, status := .up, inPool := true, diedAt := 0 } with hnew
  have hget : ∀ (i : ℕ) (K : Handle), (s.handles ++ [new])[i]? = some K →
      s.handles[i]? = some K ∨ (i = s.handles.length ∧ K = new) := by
    intro i K hK
    rcases lt_trichotomy i s.handles.length with hlt | rfl | hgt
    · rw [List.getElem?_append_left hlt] at hK
      exact Or.inl hK
    · rw [List.getElem?_append_right le_rfl, Nat.sub_self] at hK
      exact Or.inr ⟨rfl, (Option.some.inj hK).symm⟩
    · rw [List.getElem?_append_right hgt.le, List.getElem?_eq_none (by simp; omega)] at hK
      cases hK
  -- the same slots are live as before
  have hlive : ∀ slot', Live { s with
      pending := s.pending.erase slot, handles := s.handles ++ [new] } slot' → s.Live slot' := by
    rintro slot' (hpend | ⟨i, K, hK, rfl, hst⟩)
    · exact Or.inl (List.mem_of_mem_erase hpend)
    · rcases hget i K hK with hold | ⟨-, rfl⟩
      · exact Or.inr ⟨i, K, hold, rfl, hst⟩
      · exact Or.inl hslot
  have hdead : ∀ slot' d, (slot', d) ∈ deadRefs { s with
      pending := s.pending.erase slot, handles := s.handles ++ [new] } →
        (slot', d) ∈ s.deadRefs := by
    intro slot' d hmem
    rcases mem_deadRefs.1 hmem with ⟨i, K, hK, hKdead, hrefs, rfl, rfl⟩ | hrel
    · rcases hget i K hK with hold | ⟨-, rfl⟩
      · refine mem_deadRefs.2 (Or.inl ⟨i, K, hold, hKdead, ?_, rfl, rfl⟩)
        rcases hrefs with ⟨K', hK', hpool⟩ | href
        · obtain rfl : K = K' := Option.some.inj (hK.symm.trans hK')
          exact Or.inl ⟨K, hold, hpool⟩
        · exact Or.inr href
      · exact absurd rfl hKdead
    · exact mem_deadRefs.2 (Or.inr hrel)
  refine ⟨h.ledger, h.pending.erase slot, ?_, ?_, ?_, ?_, ?_, ?_, h.past, ?_⟩
  · intro i j K K' hK hK' hst hst' heq
    rcases hget i K hK with hold | ⟨hi, rfl⟩
    · rcases hget j K' hK' with hold' | ⟨-, rfl⟩
      · exact h.unique i j K K' hold hold' hst hst' heq
      · exact absurd (heq ▸ hslot) (h.fresh i K hold hst)
    · rcases hget j K' hK' with hold' | ⟨hj, rfl⟩
      · exact absurd (heq ▸ hslot) (h.fresh j K' hold' hst')
      · rw [hi, hj]
  · intro i K hK hst hpend
    rcases hget i K hK with hold | ⟨-, rfl⟩
    · exact h.fresh i K hold hst (List.mem_of_mem_erase hpend)
    · exact h.pending.not_mem_erase hpend
  · exact fun slot' hslot' => h.granted slot' (hlive slot' hslot')
  · exact fun slot' d hmem hslot' => h.apart slot' d (hdead slot' d hmem) (hlive slot' hslot')
  · intro t ht
    have hlt := h.known t ht
    rw [List.length_append]
    omega
  · intro t ht hph K hK
    rcases hget t.handle K hK with hold | ⟨hi, -⟩
    · exact h.down t ht hph K hold
    · exact absurd hi (h.known t ht).ne
  · exact fun slot' d hmem => h.before slot' d (hdead slot' d hmem)

/-- A fresh grant: the endpoint has nothing left at the slot, so the slot is live from now on. -/
theorem CapInv.grant (h : CapInv maxConcurrency s) {l : ConcurrencyLedger} {key : Key}
    {e : EndpointId} {i : ℤ} (hi : i = smallestUnusedIndex (s.ledger.slots key))
    (hcap : (Dict.size (s.ledger.slots key) : ℤ) < max 1 (maxConcurrency key))
    (hg : GrantedIn s.ledger l key i e) (hfresh : ¬ s.Outstanding ⟨e, key, i⟩) :
    CapInv maxConcurrency ((s.answered l key (.granted i)).received e key (.granted i)) := by
  have hfree : (s.ledger.slots key).lookup i = none :=
    AList.lookup_eq_none.2 (hi ▸ smallestUnusedIndex_notMem _)
  -- the lookups of the new table
  have hlookup : ∀ key' j, (l.slots key').lookup j =
      if key' = key ∧ j = i then some e else (s.ledger.slots key').lookup j := by
    intro key' j
    rcases eq_or_ne key' key with rfl | hkey
    · rw [hg.slots]
      rcases eq_or_ne j i with rfl | hj
      · simp
      · simp [AList.lookup_insert_ne hj, hj]
    · simp [hg.other key' hkey, hkey]
  -- nobody used the slot
  have hunused : ∀ e', ¬ s.Live ⟨e', key, i⟩ := by
    intro e' hslot
    have hheld := h.granted _ hslot
    rw [hfree] at hheld
    cases hheld
  have hlive : ∀ slot, Live ((s.answered l key (.granted i)).received e key (.granted i)) slot →
      slot = ⟨e, key, i⟩ ∨ s.Live slot := by
    rintro slot (hpend | hup)
    · rcases List.mem_cons.1 hpend with rfl | hpend
      · exact Or.inl rfl
      · exact Or.inr (Or.inl hpend)
    · exact Or.inr (Or.inr hup)
  refine ⟨h.ledger.grantedIn hcap (hi ▸ hg), ?_, h.unique, ?_, ?_, ?_, h.known, h.down, ?_, ?_⟩
  · exact List.nodup_cons.2 ⟨fun hpend => hunused e (Or.inl hpend), h.pending⟩
  · intro j H hH hst hpend
    rcases List.mem_cons.1 hpend with heq | hpend
    · exact hunused e (Or.inr ⟨j, H, hH, heq, hst⟩)
    · exact h.fresh j H hH hst hpend
  · intro slot hslot
    show (l.slots slot.key).lookup slot.slotIndex = some slot.endpointId
    rcases hlive slot hslot with rfl | hold
    · simp [hlookup]
    · rw [hlookup, if_neg, h.granted slot hold]
      rintro ⟨hkey, hidx⟩
      refine hunused slot.endpointId ?_
      rwa [← hkey, ← hidx]
  · intro slot d hmem hslot
    rcases hlive slot hslot with rfl | hold
    · exact hfresh ⟨_, hmem, rfl⟩
    · exact h.apart slot d hmem hold
  · intro key' j hj
    show (if key' = key ∧ j = i then s.clock else s.grantedAt key' j) < s.clock + 1
    obtain ⟨e', he'⟩ := Dict.mem_iff_lookup.1 hj
    have he' : (l.slots key').lookup j = some e' := he'
    rw [hlookup] at he'
    split_ifs at he' ⊢ with hk
    · omega
    · have hlt := h.past key' j (Dict.mem_of_lookup he')
      omega
  · intro slot d hmem hheld
    show (if slot.key = key ∧ slot.slotIndex = i then s.clock else s.grantedAt slot.key
      slot.slotIndex) < d
    have hnow : (l.slots slot.key).lookup slot.slotIndex = some slot.endpointId := hheld
    rw [hlookup] at hnow
    split_ifs at hnow ⊢ with hk
    · -- nothing of the endpoint that holds the slot now is left
      refine absurd ⟨_, hmem, ?_⟩ hfresh
      show slot = ⟨e, key, i⟩
      rw [Option.some.inj hnow, ← hk.1, ← hk.2]
    · exact h.before slot d hmem hnow

/-- An answer that grants nothing. -/
theorem CapInv.sameGrants (h : CapInv maxConcurrency s) {l : ConcurrencyLedger}
    (hs : SameGrants s.ledger l) : CapInv maxConcurrency { s with ledger := l } := by
  refine ⟨h.ledger.sameGrants hs, h.pending, h.unique, h.fresh, ?_, h.apart, h.known, h.down, ?_,
    ?_⟩
  · intro slot hslot
    show (l.slots slot.key).lookup slot.slotIndex = some slot.endpointId
    rw [hs.slots]
    exact h.granted slot hslot
  · intro key i hi
    refine h.past key i ?_
    rw [← hs.slots]
    exact hi
  · intro slot d hmem hheld
    refine h.before slot d hmem ?_
    rw [← hs.slots]
    exact hheld

/-- A release reaches the leader: its slot is not live, so no live slot loses its grant. -/
theorem CapInv.deliver (h : CapInv maxConcurrency s) {r : Release} (hr : r ∈ s.releases) :
    CapInv maxConcurrency
      { s with
        releases := s.releases.erase r
        ledger := s.ledger.releaseSlot r.slot.key r.slot.slotIndex r.slot.endpointId } := by
  have hlookup : ∀ key i e,
      ((s.ledger.releaseSlot r.slot.key r.slot.slotIndex r.slot.endpointId).slots key).lookup i =
        some e → (s.ledger.slots key).lookup i = some e := by
    intro key i e hheld
    rw [lookup_releaseSlot] at hheld
    split_ifs at hheld
    exact hheld
  have hdead : ∀ slot d, (slot, d) ∈ deadRefs { s with
      releases := s.releases.erase r
      ledger := s.ledger.releaseSlot r.slot.key r.slot.slotIndex r.slot.endpointId } →
        (slot, d) ∈ s.deadRefs := by
    intro slot d hmem
    rcases mem_deadRefs.1 hmem with hold | ⟨r', hr', hslot, hd⟩
    · exact mem_deadRefs.2 (Or.inl hold)
    · exact mem_deadRefs.2 (Or.inr ⟨r', List.mem_of_mem_erase hr', hslot, hd⟩)
  refine ⟨h.ledger.releaseSlot _ _ _, h.pending, h.unique, h.fresh, ?_, ?_, h.known, h.down, ?_, ?_⟩
  · intro slot hslot
    show ((s.ledger.releaseSlot r.slot.key r.slot.slotIndex r.slot.endpointId).slots
      slot.key).lookup slot.slotIndex = some slot.endpointId
    have hheld := h.granted slot hslot
    rw [lookup_releaseSlot, if_neg, hheld]
    rintro ⟨hkey, hidx, howner⟩
    rw [hkey, hidx, howner] at hheld
    have heq : r.slot = slot := by
      obtain ⟨se, sk, si⟩ := slot
      simp only at hkey hidx hheld
      rw [hkey, hidx, ← Option.some.inj hheld]
    exact h.apart r.slot r.diedAt (mem_deadRefs.2 (Or.inr ⟨r, hr, rfl, rfl⟩)) (heq ▸ hslot)
  · exact fun slot d hmem hslot => h.apart slot d (hdead slot d hmem) hslot
  · intro key i hi
    obtain ⟨e, he⟩ := Dict.mem_iff_lookup.1 hi
    exact h.past key i (Dict.mem_of_lookup (hlookup key i e he))
  · exact fun slot d hmem hheld => h.before slot d (hdead slot d hmem) (hlookup _ _ _ hheld)

/-- The teardowns that remain when one ends. -/
theorem sameHandles_erase (s : Cluster) (t : Teardown) : s.SameHandles (s.teardowns.erase t) :=
  fun u hu => ⟨u, List.mem_of_mem_erase hu, rfl⟩

/-- A teardown that goes on keeps its handle. -/
theorem sameHandles_advance {s : Cluster} {t : Teardown} (ht : t ∈ s.teardowns)
    (phase : TeardownPhase) : s.SameHandles (s.advance t phase) := by
  intro u hu
  rcases List.mem_cons.1 hu with rfl | hu
  · exact ⟨t, ht, rfl⟩
  · exact sameHandles_erase s t u hu

theorem sameHandles_afterDismiss {s : Cluster} {t : Teardown} (ht : t ∈ s.teardowns) :
    s.SameHandles (s.afterDismiss t) := by
  unfold afterDismiss
  split_ifs
  · exact sameHandles_advance ht _
  · exact sameHandles_erase s t

/-- After `dismiss` has returned, the teardowns past the status change are those from before. -/
theorem phase_afterDismiss {u v : Teardown} (hu : u ∈ s.teardowns) (hphase : u.phase = .stopping)
    (hv : v ∈ s.afterDismiss u) (hvphase : v.phase = .stopping ∨ v.phase = .releasing) :
    ∃ w ∈ s.teardowns, w.handle = v.handle ∧ (w.phase = .stopping ∨ w.phase = .releasing) := by
  unfold afterDismiss at hv
  split_ifs at hv
  · rcases List.mem_cons.1 hv with rfl | hv
    · exact ⟨u, hu, rfl, Or.inl hphase⟩
    · exact ⟨v, List.mem_of_mem_erase hv, rfl, hvphase⟩
  · exact ⟨v, List.mem_of_mem_erase hv, rfl, hvphase⟩

/-- What a teardown past the status change releases was left before. -/
theorem CapInv.mem_deadRefs_teardown (h : CapInv maxConcurrency s) {u : Teardown} {H : Handle}
    (hu : u ∈ s.teardowns) (hphase : u.phase = .stopping ∨ u.phase = .releasing)
    (hH : s.handles[u.handle]? = some H) : (H.slot, H.diedAt) ∈ s.deadRefs :=
  mem_deadRefs.2 (Or.inl ⟨u.handle, H, hH, h.down u hu hphase H hH, Or.inr ⟨u, hu, rfl⟩, rfl, rfl⟩)

theorem CapInv.request (h : CapInv maxConcurrency s) (e : EndpointId) (key : Key) (draw : Draw)
    (hfresh : FreshGrant maxConcurrency s (.request e key draw)) :
    CapInv maxConcurrency
      ((s.answered (s.ledger.requestSlot key (maxConcurrency key) e draw).2 key
          (s.ledger.requestSlot key (maxConcurrency key) e draw).1).received e key
        (s.ledger.requestSlot key (maxConcurrency key) e draw).1) := by
  rcases requestSlot_cases s.ledger key (maxConcurrency key) e draw with
    ⟨-, heq⟩ | ⟨-, u, l, heq, -, hs⟩ | ⟨-, hidle, hcap, l, heq, hg⟩ | ⟨-, -, -, u, l, heq, -, hs⟩
  · rw [heq]
    exact h
  · rw [heq]
    exact h.sameGrants hs
  · rw [heq]
    exact h.grant rfl hcap hg (hfresh (e, key) List.mem_cons_self hidle hcap)
  · rw [heq]
    exact h.sameGrants hs

/-- Every step under the guard keeps the invariant. -/
theorem CapInv.step {a : ClusterAction} (h : CapInv maxConcurrency s)
    (hg : CapGuard maxConcurrency s a) (hs : Cluster.step leader maxConcurrency s a = some t) :
    CapInv maxConcurrency t := by
  obtain ⟨hscope, hdead, hfresh⟩ := hg
  cases a with
  | request e key draw =>
    cases hs
    exact h.request e key draw hfresh
  | requestLost e key draw => cases hscope
  | summon slot =>
    simp only [Cluster.step, Option.ite_none_right_eq_some, Option.some.injEq] at hs
    obtain ⟨hslot, rfl⟩ := hs
    exact h.summon hslot
  | summonErr slot =>
    simp only [Cluster.step, Option.ite_none_right_eq_some, Option.some.injEq] at hs
    obtain ⟨hslot, rfl⟩ := hs
    exact h.giveUp hslot
  | spawnFail i =>
    simp only [Cluster.step, Option.map_eq_some_iff] at hs
    obtain ⟨H, hH, rfl⟩ := hs
    exact h.die hH HandleStatus.noConfusion (fun u hu => ⟨u, hu, rfl⟩) fun u hu _ => Or.inl hu
  | revive i => cases hdead
  | sweep i =>
    simp only [Cluster.step, Option.bind_eq_some_iff, Option.ite_none_right_eq_some,
      Option.some.injEq] at hs
    obtain ⟨H, hH, hpool, rfl⟩ := hs
    exact h.startTeardown (u := ⟨i, false, .selected⟩) hH (Or.inl hpool) (Or.inr rfl)
  | notice i =>
    simp only [Cluster.step, Option.bind_eq_some_iff, Option.ite_none_right_eq_some,
      Option.some.injEq] at hs
    obtain ⟨H, hH, hup, rfl⟩ := hs
    exact h.startTeardown (u := ⟨i, true, .noticed⟩) hH (Or.inr hup) (Or.inl rfl)
  | cancel i =>
    simp only [Cluster.step, Option.bind_eq_some_iff, Option.ite_none_right_eq_some,
      Option.some.injEq] at hs
    obtain ⟨H, hH, hpool, rfl⟩ := hs
    exact h.startTeardown (u := ⟨i, true, .noticed⟩) hH (Or.inl hpool) (Or.inl rfl)
  | mark u =>
    simp only [Cluster.step, Option.bind_eq_some_iff, Option.ite_none_right_eq_some,
      Option.some.injEq] at hs
    obtain ⟨H, hH, ⟨hu, -⟩, rfl⟩ := hs
    refine h.die hH HandleStatus.noConfusion (sameHandles_advance hu _) fun v hv _ => ?_
    rcases List.mem_cons.1 hv with rfl | hv
    · exact Or.inr rfl
    · exact Or.inl (List.mem_of_mem_erase hv)
  | dismiss u =>
    simp only [Cluster.step, Option.bind_eq_some_iff, Option.ite_none_right_eq_some,
      Option.some.injEq] at hs
    obtain ⟨H, hH, ⟨hu, -⟩, rfl⟩ := hs
    refine h.die hH HandleStatus.noConfusion (sameHandles_advance hu _) fun v hv _ => ?_
    rcases List.mem_cons.1 hv with rfl | hv
    · exact Or.inr rfl
    · exact Or.inl (List.mem_of_mem_erase hv)
  | stopOk u =>
    simp only [Cluster.step, Option.bind_eq_some_iff, Option.ite_none_right_eq_some,
      Option.some.injEq] at hs
    obtain ⟨H, hH, ⟨hu, hphase⟩, rfl⟩ := hs
    refine h.letGo (fun j K hK => ?_) List.length_set (sameHandles_afterDismiss hu)
      (fun v hv => phase_afterDismiss hu hphase hv) fun r hr => ?_
    · rcases eq_or_ne j u.handle with rfl | hne
      · rw [List.getElem?_set_self (List.getElem?_eq_some_iff.1 hH).1] at hK
        cases hK
        exact ⟨H, hH, rfl, rfl, rfl, fun hpool => absurd hpool Bool.false_ne_true⟩
      · rw [List.getElem?_set_ne hne.symm] at hK
        exact ⟨K, hK, rfl, rfl, rfl, id⟩
    · rcases List.mem_cons.1 hr with rfl | hr
      · exact Or.inr (h.mem_deadRefs_teardown hu (Or.inl hphase) hH)
      · exact Or.inl hr
  | stopErr u =>
    simp only [Cluster.step, Option.ite_none_right_eq_some, Option.some.injEq] at hs
    obtain ⟨⟨hu, hphase⟩, rfl⟩ := hs
    exact h.letGo (fun j K hK => ⟨K, hK, rfl, rfl, rfl, id⟩) rfl (sameHandles_afterDismiss hu)
      (fun v hv => phase_afterDismiss hu hphase hv) fun r hr => Or.inl hr
  | releaseAgain u =>
    simp only [Cluster.step, Option.bind_eq_some_iff, Option.ite_none_right_eq_some,
      Option.some.injEq] at hs
    obtain ⟨H, hH, ⟨hu, hphase⟩, rfl⟩ := hs
    refine h.letGo (fun j K hK => ⟨K, hK, rfl, rfl, rfl, id⟩) rfl (sameHandles_erase s u)
      (fun v hv hvphase => ⟨v, List.mem_of_mem_erase hv, rfl, hvphase⟩) fun r hr => ?_
    rcases List.mem_cons.1 hr with rfl | hr
    · exact Or.inr (h.mem_deadRefs_teardown hu (Or.inr hphase) hH)
    · exact Or.inl hr
  | deliver r =>
    simp only [Cluster.step, Option.ite_none_right_eq_some, Option.some.injEq] at hs
    obtain ⟨hr, rfl⟩ := hs
    exact h.deliver hr
  | loseRelease r => cases hscope
  | reconcileBegin peers => cases hscope
  | reconcilePull r answered => cases hscope
  | reconcileWrite r => cases hscope

/-! ### The cap -/

/-- Live containers of one key hold different slots. -/
theorem CapInv.liveCount_le (h : CapInv maxConcurrency s) (key : Key) :
    s.liveCount key ≤ Dict.size (s.ledger.slots key) := by
  have hpair : s.handles.Pairwise fun H H' =>
      H.status = .up → H'.status = .up → H.slot ≠ H'.slot := by
    rw [List.pairwise_iff_getElem]
    intro i j hi hj hij hst hst' hslot
    exact hij.ne (h.unique i j _ _ (List.getElem?_eq_getElem hi) (List.getElem?_eq_getElem hj)
      hst hst' hslot)
  have hheld : ∀ H ∈ s.handles, H.status = .up →
      (s.ledger.slots H.slot.key).lookup H.slot.slotIndex = some H.slot.endpointId := by
    intro H hH hst
    obtain ⟨i, hi⟩ := List.mem_iff_getElem?.1 hH
    exact h.granted H.slot (Or.inr ⟨i, H, hi, rfl, hst⟩)
  set live := s.handles.filter fun H => H.slot.key = key && H.status = .up with hlive
  have hmem : ∀ H ∈ live, H ∈ s.handles ∧ H.slot.key = key ∧ H.status = .up := by
    intro H hH
    simpa [hlive] using hH
  have hnodup : (live.map fun H => H.slot.slotIndex).Nodup := by
    refine List.pairwise_map.2 ((hpair.filter _).imp_of_mem ?_)
    intro H H' hH hH' hne hidx
    obtain ⟨hHmem, hkey, hst⟩ := hmem H hH
    obtain ⟨hHmem', hkey', hst'⟩ := hmem H' hH'
    -- the same index of the same key has one owner
    have hown := hheld H hHmem hst
    have hown' := hheld H' hHmem' hst'
    rw [hkey, hidx] at hown
    rw [hkey', hown] at hown'
    refine hne hst hst' ?_
    have hendpoint := Option.some.inj hown'
    rcases hs : H.slot with ⟨se, sk, si⟩
    rcases hs' : H'.slot with ⟨se', sk', si'⟩
    simp_all
  have hcard : live.length = (live.map fun H => H.slot.slotIndex).toFinset.card := by
    rw [List.toFinset_card_of_nodup hnodup, List.length_map]
  rw [liveCount, ← hlive, hcard]
  refine Dict.card_le_size fun i hi => ?_
  obtain ⟨H, hH, rfl⟩ := List.mem_map.1 (List.mem_toFinset.1 hi)
  obtain ⟨hHmem, rfl, hst⟩ := hmem H hH
  exact Dict.mem_of_lookup (hheld H hHmem hst)

/-- In every run under the guard, never more containers of a key are live than the cap allows,
and a release that would remove a grant is from a container that died after the grant. -/
theorem cap_of_reach (leader : EndpointId) (maxConcurrency : Key → ℤ) (strategy : String)
    (s : Cluster)
    (h : Reach (Cluster.step leader maxConcurrency) (CapGuard maxConcurrency) (init strategy) s) :
    (∀ key, (s.liveCount key : ℤ) ≤ max 1 (maxConcurrency key)) ∧
      ∀ r ∈ s.releases,
        (s.ledger.slots r.slot.key).lookup r.slot.slotIndex = some r.slot.endpointId →
          s.grantedAt r.slot.key r.slot.slotIndex < r.diedAt := by
  have hinv : CapInv maxConcurrency s :=
    h.invariant (capInv_init strategy) fun _ _ _ hI hG hstep => hI.step hG hstep
  refine ⟨fun key => ?_, fun r hr => ?_⟩
  · exact le_trans (by exact_mod_cast hinv.liveCount_le key) (hinv.ledger.cap key)
  · exact hinv.before r.slot r.diedAt (mem_deadRefs.2 (Or.inr ⟨r, hr, rfl, rfl⟩))

end Steps

/-- A container of a pool of one crashes, both its releases arrive, and its endpoint grows the
pool again. -/
def crashThenRegrow : List ClusterAction :=
  [.request "A" ("f", 1) default, .summon ⟨"A", ("f", 1), 0⟩, .notice 0,
    .mark ⟨0, true, .noticed⟩, .dismiss ⟨0, true, .selected⟩, .stopOk ⟨0, true, .stopping⟩,
    .deliver ⟨⟨"A", ("f", 1), 0⟩, 1⟩, .releaseAgain ⟨0, true, .releasing⟩,
    .deliver ⟨⟨"A", ("f", 1), 0⟩, 1⟩, .request "A" ("f", 1) default, .summon ⟨"A", ("f", 1), 0⟩]

/-- The run keeps to the guard, so the cap of one holds where it ends. -/
theorem cap_crashThenRegrow :
    ∃ s, Reach (Cluster.step "A" fun _ => 1) (CapGuard fun _ => 1) (init "round_robin") s ∧
      s.liveCount ("f", 1) = 1 ∧ (s.liveCount ("f", 1) : ℤ) ≤ max 1 1 := by
  obtain ⟨s, hs, hcount⟩ := exists_reach_of_guarded_run (Cluster.step "A" fun _ => 1)
    (CapGuard fun _ => 1) (init "round_robin") (fun s => s.liveCount ("f", 1) = 1)
    crashThenRegrow (by decide)
  exact ⟨s, hs, by simpa using hcount, (cap_of_reach "A" _ "round_robin" s hs).1 ("f", 1)⟩

/-! ### Two releases of one container -/

/-- A container of a pool of one crashes; its endpoint is granted the slot again between the two
releases. -/
def crashThenGrow : List ClusterAction :=
  [.request "A" ("f", 1) default, .summon ⟨"A", ("f", 1), 0⟩, .notice 0,
    .mark ⟨0, true, .noticed⟩, .dismiss ⟨0, true, .selected⟩, .stopOk ⟨0, true, .stopping⟩,
    .deliver ⟨⟨"A", ("f", 1), 0⟩, 1⟩, .request "A" ("f", 1) default,
    .summon ⟨"A", ("f", 1), 0⟩, .releaseAgain ⟨0, true, .releasing⟩]

/-- With one fixed leader and reliable messages, a release in flight may remove a grant handed out
after its container died; when it does, a second container becomes live under a cap of one. -/
theorem cap_exceeded :
    (∃ s, Reach (Cluster.step "A" fun _ => 1) (fun _ a => inCapScope a = true)
        (init "round_robin") s ∧
      ⟨⟨"A", ("f", 1), 0⟩, 1⟩ ∈ s.releases ∧
      (s.ledger.slots ("f", 1)).lookup 0 = some "A" ∧ ¬ s.grantedAt ("f", 1) 0 < 1) ∧
    ∃ s, Reach (Cluster.step "A" fun _ => 1) (fun _ a => inCapScope a = true)
        (init "round_robin") s ∧ ¬ (s.liveCount ("f", 1) : ℤ) ≤ max 1 1 := by
  constructor
  · obtain ⟨s, hs, hP⟩ := exists_reach_of_guarded_run (Cluster.step "A" fun _ => 1)
      (fun _ a => inCapScope a = true) (init "round_robin")
      (fun s => ⟨⟨"A", ("f", 1), 0⟩, 1⟩ ∈ s.releases ∧
        (s.ledger.slots ("f", 1)).lookup 0 = some "A" ∧ ¬ s.grantedAt ("f", 1) 0 < 1)
      crashThenGrow (by decide)
    exact ⟨s, hs, by simpa using hP⟩
  · obtain ⟨s, hs, hP⟩ := exists_reach_of_guarded_run (Cluster.step "A" fun _ => 1)
      (fun _ a => inCapScope a = true) (init "round_robin")
      (fun s => ¬ (s.liveCount ("f", 1) : ℤ) ≤ max 1 1)
      (crashThenGrow ++ [.deliver ⟨⟨"A", ("f", 1), 0⟩, 1⟩, .request "B" ("f", 1) default,
        .summon ⟨"B", ("f", 1), 0⟩]) (by decide)
    exact ⟨s, hs, by simpa using hP⟩

end Cluster

end Axo
