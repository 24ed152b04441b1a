import Mathlib.Algebra.Order.BigOperators.Group.List
import Mathlib.Data.List.AList
import Mathlib.Data.Finset.Card

/-!
# Dictionaries

A dictionary is a Mathlib `AList`, an association list whose type carries the proof that no key
occurs twice.  This file adds the operations and the counting facts that `AList` does not have:
`size`, `values`, `sumOver`, `getD`, `setdefault` and `eraseAll`, their lookups, what a write does
to a sum, and the pigeonhole bound `card_le_size`.
-/

/-- A dictionary: at most one value for each key. -/
abbrev Dict (κ ν : Type*) := AList (fun _ : κ => ν)

namespace Dict

variable {κ ν : Type*}

/-- Equality is decided on the entries. -/
instance [DecidableEq κ] [DecidableEq ν] : DecidableEq (Dict κ ν) := fun m m' =>
  decidable_of_iff (m.entries = m'.entries) AList.ext_iff.symm

/-- The number of keys. -/
def size (m : Dict κ ν) : ℕ := m.keys.length

/-- The values, one for each key. -/
def values (m : Dict κ ν) : List ν := m.entries.map Sigma.snd

/-- The sum of a quantity over the values. -/
def sumOver {M : Type*} [AddCommMonoid M] (f : ν → M) (m : Dict κ ν) : M := ((values m).map f).sum

@[simp] theorem size_empty : size (∅ : Dict κ ν) = 0 := rfl

@[simp] theorem values_empty : values (∅ : Dict κ ν) = [] := rfl

@[simp] theorem sumOver_empty {M : Type*} [AddCommMonoid M] (f : ν → M) :
    sumOver f (∅ : Dict κ ν) = 0 := rfl

theorem sumOver_le_sumOver {M : Type*} [AddCommMonoid M] [PartialOrder M] [IsOrderedAddMonoid M]
    {f g : ν → M} {m : Dict κ ν} (h : ∀ v ∈ values m, f v ≤ g v) :
    sumOver f m ≤ sumOver g m := by
  unfold sumOver
  exact List.sum_le_sum h

theorem values_eq_nil {m : Dict κ ν} : values m = [] ↔ size m = 0 := by
  simp [values, size, AList.keys, List.keys]

variable [DecidableEq κ]

/-- The value of a key, or a default. -/
def getD (m : Dict κ ν) (k : κ) (d : ν) : ν := (m.lookup k).getD d

/-- Give a key a value unless it has one. -/
def setdefault (m : Dict κ ν) (k : κ) (d : ν) : Dict κ ν := if k ∈ m then m else m.insert k d

/-- Drop every listed key. -/
def eraseAll (m : Dict κ ν) (ks : List κ) : Dict κ ν := ks.foldl (fun m k => m.erase k) m

@[simp] theorem getD_empty (k : κ) (d : ν) : getD (∅ : Dict κ ν) k d = d := rfl

@[simp] theorem getD_insert (m : Dict κ ν) (k : κ) (v d : ν) : getD (m.insert k v) k d = v := by
  simp [getD]

theorem getD_insert_ne (m : Dict κ ν) {k k' : κ} (v d : ν) (h : k ≠ k') :
    getD (m.insert k' v) k d = getD m k d := by
  simp [getD, AList.lookup_insert_ne h]

@[simp] theorem getD_erase (m : Dict κ ν) (k : κ) (d : ν) : getD (m.erase k) k d = d := by
  simp [getD]

theorem getD_erase_ne (m : Dict κ ν) {k k' : κ} (d : ν) (h : k ≠ k') :
    getD (m.erase k') k d = getD m k d := by
  simp [getD, AList.lookup_erase_ne h]

/-- A default that `getD` would give anyway can be stored without changing any lookup. -/
@[simp] theorem getD_setdefault (m : Dict κ ν) (k k' : κ) (d : ν) :
    getD (setdefault m k d) k' d = getD m k' d := by
  unfold setdefault
  split_ifs with hk
  · rfl
  · rcases eq_or_ne k' k with rfl | hne
    · rw [getD_insert, getD, AList.lookup_eq_none.2 hk, Option.getD_none]
    · exact getD_insert_ne m d d hne

/-- A dictionary is built again from its entries. -/
theorem foldr_setdefault_entries (m : Dict κ ν) :
    (m.entries.map fun e => (e.1, e.2)).foldr (fun e m => setdefault m e.1 e.2) ∅ = m := by
  induction m using AList.insertRec with
  | H0 => rfl
  | IH k v m hk ih =>
    rw [AList.entries_insert_of_notMem hk, List.map_cons, List.foldr_cons, ih]
    exact if_neg hk

theorem mem_of_lookup {m : Dict κ ν} {k : κ} {v : ν} (h : m.lookup k = some v) : k ∈ m :=
  AList.lookup_isSome.1 (by rw [h]; rfl)

theorem mem_iff_lookup {m : Dict κ ν} {k : κ} : k ∈ m ↔ ∃ v, m.lookup k = some v := by
  rw [← AList.lookup_isSome, Option.isSome_iff_exists]

theorem mem_values {m : Dict κ ν} {v : ν} : v ∈ values m ↔ ∃ k, m.lookup k = some v := by
  constructor
  · intro h
    obtain ⟨e, he, rfl⟩ := List.mem_map.1 h
    exact ⟨e.1, AList.mem_lookup_iff.2 he⟩
  · rintro ⟨k, hk⟩
    exact List.mem_map.2 ⟨⟨k, v⟩, AList.mem_lookup_iff.1 hk, rfl⟩

theorem size_insert_of_notMem {m : Dict κ ν} {k : κ} (v : ν) (h : k ∉ m) :
    size (m.insert k v) = size m + 1 := by
  have hk : k ∉ m.keys := h
  rw [size, AList.keys_insert, List.length_cons, List.erase_of_not_mem hk, size]

theorem size_insert_of_mem {m : Dict κ ν} {k : κ} (v : ν) (h : k ∈ m) :
    size (m.insert k v) = size m := by
  have hk : k ∈ m.keys := h
  have hpos : 0 < m.keys.length := List.length_pos_of_mem hk
  rw [size, AList.keys_insert, List.length_cons, List.length_erase_of_mem hk, size]
  omega

theorem size_erase_le (m : Dict κ ν) (k : κ) : size (m.erase k) ≤ size m := by
  rw [size, AList.keys_erase]
  exact (List.erase_sublist).length_le

theorem size_le_insert (m : Dict κ ν) (k : κ) (v : ν) : size m ≤ size (m.insert k v) := by
  by_cases h : k ∈ m
  · rw [size_insert_of_mem v h]
  · rw [size_insert_of_notMem v h]
    exact Nat.le_succ _

theorem lookup_eraseAll (m : Dict κ ν) (ks : List κ) (k : κ) :
    (eraseAll m ks).lookup k = if k ∈ ks then none else m.lookup k := by
  induction ks generalizing m with
  | nil => simp [eraseAll]
  | cons a ks ih =>
    have hstep : eraseAll m (a :: ks) = eraseAll (m.erase a) ks := rfl
    rw [hstep, ih]
    rcases eq_or_ne k a with rfl | hne
    · simp
    · simp [AList.lookup_erase_ne hne, hne]

theorem size_eraseAll_le (m : Dict κ ν) (ks : List κ) : size (eraseAll m ks) ≤ size m := by
  induction ks generalizing m with
  | nil => exact le_rfl
  | cons a ks ih => exact (ih (m.erase a)).trans (size_erase_le m a)

theorem size_erase_lt {m : Dict κ ν} {k : κ} (h : k ∈ m) : size (m.erase k) < size m := by
  have hk : k ∈ m.keys := h
  have hpos : 0 < m.keys.length := List.length_pos_of_mem hk
  rw [size, AList.keys_erase, List.length_erase_of_mem hk, size]
  omega

/-- Dropping keys the dictionary has makes it smaller. -/
theorem size_eraseAll_lt {m : Dict κ ν} {ks : List κ} (h : ∀ k ∈ ks, k ∈ m) (hne : ks ≠ []) :
    size (eraseAll m ks) < size m := by
  obtain ⟨k, ks, rfl⟩ := List.exists_cons_of_ne_nil hne
  calc size (eraseAll m (k :: ks)) ≤ size (m.erase k) := size_eraseAll_le (m.erase k) ks
    _ < size m := size_erase_lt (h k List.mem_cons_self)

/-- Pigeonhole: a finite set of keys of the dictionary is no larger than the dictionary. -/
theorem card_le_size {m : Dict κ ν} {s : Finset κ} (h : ∀ k ∈ s, k ∈ m) : s.card ≤ size m := by
  have hsub : s ⊆ m.keys.toFinset := fun k hk => List.mem_toFinset.2 (h k hk)
  calc s.card ≤ m.keys.toFinset.card := Finset.card_le_card hsub
    _ ≤ size m := m.keys.toFinset_card_le

/-- The size is the number of different keys. -/
theorem size_eq_card (m : Dict κ ν) : size m = m.keys.toFinset.card :=
  (List.toFinset_card_of_nodup m.keys_nodup).symm

theorem lookup_eq_none_of_size_eq_zero {m : Dict κ ν} (h : size m = 0) (k : κ) :
    m.lookup k = none := by
  rw [AList.lookup_eq_none, AList.mem_keys, List.eq_nil_of_length_eq_zero h]
  exact List.not_mem_nil

/-- Giving a key that the dictionary has another value, in its place. -/
theorem lookup_replace {m : Dict κ ν} {k : κ} (h : k ∈ m) (k' : κ) (v : ν) :
    (m.replace k v).lookup k' = if k' = k then some v else m.lookup k' := by
  obtain ⟨entries, hnodup⟩ := m
  replace h : k ∈ entries.keys := h
  show List.dlookup k' (entries.kreplace k v) = if k' = k then some v else List.dlookup k' entries
  induction entries with
  | nil => cases h
  | cons e entries ih =>
    obtain ⟨k₁, v₁⟩ := e
    by_cases hk : k = k₁
    · have hhead : List.kreplace k v (⟨k₁, v₁⟩ :: entries) = ⟨k, v⟩ :: entries :=
        List.lookmap_cons_some _ _ (if_pos hk)
      rw [hhead]
      subst hk
      by_cases hk' : k' = k
      · rw [if_pos hk', hk', List.dlookup_cons_eq]
      · rw [if_neg hk', List.dlookup_cons_ne _ _ hk', List.dlookup_cons_ne _ _ hk']
    · have htail : List.kreplace k v (⟨k₁, v₁⟩ :: entries) =
          ⟨k₁, v₁⟩ :: List.kreplace k v entries := List.lookmap_cons_none _ _ (if_neg hk)
      rw [htail]
      have hmem : k ∈ entries.keys := (List.mem_cons.1 h).resolve_left hk
      by_cases hk' : k' = k₁
      · subst hk'
        rw [List.dlookup_cons_eq, List.dlookup_cons_eq, if_neg (Ne.symm hk)]
      · rw [List.dlookup_cons_ne _ _ hk', List.dlookup_cons_ne _ _ hk']
        exact ih (List.nodupKeys_cons.1 hnodup).2 hmem

/-- `dict.update`: what the newer dictionary does not have is as in the older one. -/
theorem lookup_union (newer older : Dict κ ν) (k : κ) :
    (newer ∪ older).lookup k = (newer.lookup k).or (older.lookup k) := by
  by_cases hk : k ∈ newer
  · obtain ⟨v, hv⟩ := mem_iff_lookup.1 hk
    rw [AList.lookup_union_left hk, hv, Option.some_or]
  · rw [AList.lookup_union_right hk, AList.lookup_eq_none.2 hk, Option.none_or]

/-- A loop over the entries of a dictionary, each round of which touches what is seen of its own
key only. -/
theorem foldl_entries {σ γ : Type*} (look : σ → κ → γ) (round : σ → κ → ν → σ)
    (out : κ → ν → γ → γ) (hself : ∀ s k v, look (round s k v) k = out k v (look s k))
    (hother : ∀ s k v k', k' ≠ k → look (round s k v) k' = look s k') (m : Dict κ ν) (s : σ)
    (k : κ) :
    look (m.entries.foldl (fun s e => round s e.1 e.2) s) k =
      (m.lookup k).elim (look s k) fun v => out k v (look s k) := by
  obtain ⟨entries, hnodup⟩ := m
  show look (entries.foldl _ s) k = (List.dlookup k entries).elim _ _
  induction entries generalizing s with
  | nil => rfl
  | cons e entries ih =>
    obtain ⟨k', v⟩ := e
    obtain ⟨hnotMem, hnodup⟩ := List.nodupKeys_cons.1 hnodup
    rw [List.foldl_cons, ih _ hnodup]
    by_cases hk : k = k'
    · subst hk
      rw [List.dlookup_cons_eq, List.dlookup_eq_none.2 hnotMem]
      exact hself s k v
    · rw [List.dlookup_cons_ne _ _ hk, hother s k' v k hk]

/-- A dictionary is its list of keys and its lookups. -/
theorem ext_keys_lookup {m m' : Dict κ ν} (hkeys : m.keys = m'.keys)
    (hlookup : ∀ k, m.lookup k = m'.lookup k) : m = m' := by
  refine AList.ext (List.ext_getElem ?_ fun i hi hi' => ?_)
  · simpa [AList.keys, List.keys] using congrArg List.length hkeys
  · have hkey : m.entries[i].1 = m'.entries[i].1 := by
      have hlen : i < m.keys.length := by simpa [AList.keys, List.keys] using hi
      have hget := List.getElem_of_eq hkeys hlen
      simpa [AList.keys, List.keys] using hget
    have hl : m.lookup m.entries[i].1 = some m.entries[i].2 :=
      AList.mem_lookup_iff.2 (List.getElem_mem hi)
    have hl' : m'.lookup m'.entries[i].1 = some m'.entries[i].2 :=
      AList.mem_lookup_iff.2 (List.getElem_mem hi')
    rw [hlookup, hkey, hl'] at hl
    exact Sigma.ext hkey (heq_of_eq (Option.some.inj hl).symm)

/-! ### Sums -/

section SumOver

variable {M : Type*} [AddCommMonoid M]

/-- A key that gets a value counts with that value only. -/
theorem sumOver_insert (f : ν → M) (m : Dict κ ν) (k : κ) (v : ν) :
    sumOver f (m.insert k v) = f v + sumOver f (m.erase k) := by
  unfold sumOver values
  rw [AList.entries_insert]
  rfl

/-- A key counts with its value, if it has one. -/
theorem sumOver_eq_add_erase (f : ν → M) (m : Dict κ ν) (k : κ) :
    sumOver f m = (m.lookup k).elim 0 f + sumOver f (m.erase k) := by
  have hentries (l : List (Sigma fun _ : κ => ν)) :
      ((l.map Sigma.snd).map f).sum =
        (l.dlookup k).elim 0 f + (((l.kerase k).map Sigma.snd).map f).sum := by
    induction l with
    | nil => simp
    | cons e l ih =>
      obtain ⟨k', v⟩ := e
      by_cases hk : k = k'
      · subst hk
        simp
      · rw [List.dlookup_cons_ne _ _ hk, List.kerase_cons_ne hk, List.map_cons, List.map_cons,
          List.map_cons, List.map_cons, List.sum_cons, List.sum_cons, ih]
        exact add_left_comm _ _ _
  exact hentries m.entries

end SumOver

end Dict
