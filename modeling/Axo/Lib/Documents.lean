import Axo.Lib.Dict
import Mathlib.Tactic

/-!
# Documents and collections

A document store: a collection has at most one document under each key, and a write replaces fields
of one document or of all of them.

* `Document.set` is an update of some fields, `Document.without` the removal of one;
* `Collection.upsert`, `updateOne` and `updateMany` apply an update to documents;
* an idempotent update of a document is an idempotent write to the collection:
  `upsert_upsert`, `updateOne_updateOne`, `updateMany_updateMany`.
-/

/-- A document: the value of each field that it has. -/
abbrev Document (κ ν : Type*) := κ → Option ν

namespace Document

variable {κ ν : Type*} [DecidableEq κ] {fields : List (κ × ν)} {doc : Document κ ν} {k : κ} {v : ν}

/-- The fields are given the values, the other fields are kept. -/
def set (doc : Document κ ν) (fields : List (κ × ν)) : Document κ ν :=
  fun k => (fields.lookup k).or (doc k)

theorem set_of_lookup_none (h : fields.lookup k = none) : doc.set fields k = doc k := by
  unfold set
  rw [h, Option.none_or]

/-- To set the same fields again changes nothing. -/
@[simp] theorem set_set_self (doc : Document κ ν) (fields : List (κ × ν)) :
    (doc.set fields).set fields = doc.set fields := by
  funext k
  unfold set
  cases fields.lookup k <;> simp

end Document

/-- A collection: the document under each key. -/
abbrev Collection (ι δ : Type*) := Dict ι δ

namespace Collection

variable {ι δ : Type*} [DecidableEq ι] {f : Option δ → δ} {g : δ → δ} {c : Collection ι δ} {i j : ι}

/-- The document of the key is updated, or inserted when there is none. -/
def upsert (c : Collection ι δ) (i : ι) (f : Option δ → δ) : Collection ι δ :=
  c.insert i (f (c.lookup i))

/-- The document of the key is updated when there is one. -/
def updateOne (c : Collection ι δ) (i : ι) (g : δ → δ) : Collection ι δ :=
  match c.lookup i with
  | some doc => c.insert i (g doc)
  | none => c

/-- Every document is updated. -/
def updateMany (c : Collection ι δ) (g : δ → δ) : Collection ι δ :=
  ⟨c.entries.map fun e => ⟨e.1, g e.2⟩, List.NodupKeys.map₂ (fun _ => g) _ c.nodupKeys⟩

@[simp] theorem lookup_upsert (c : Collection ι δ) (i : ι) (f : Option δ → δ) :
    (c.upsert i f).lookup i = some (f (c.lookup i)) := AList.lookup_insert _

theorem lookup_upsert_ne (h : j ≠ i) : (c.upsert i f).lookup j = c.lookup j :=
  AList.lookup_insert_ne h

theorem lookup_updateOne (c : Collection ι δ) (i : ι) (g : δ → δ) :
    (c.updateOne i g).lookup i = (c.lookup i).map g := by
  unfold updateOne
  cases hlookup : c.lookup i with
  | none => exact hlookup
  | some doc => exact AList.lookup_insert _

theorem lookup_updateOne_ne (h : j ≠ i) : (c.updateOne i g).lookup j = c.lookup j := by
  unfold updateOne
  cases c.lookup i with
  | none => rfl
  | some doc => exact AList.lookup_insert_ne h

theorem upsert_upsert (hf : ∀ doc, f (some (f doc)) = f doc) :
    (c.upsert i f).upsert i f = c.upsert i f := by
  unfold upsert
  rw [AList.lookup_insert, AList.insert_insert, hf]

theorem updateOne_updateOne (hg : ∀ doc, g (g doc) = g doc) :
    (c.updateOne i g).updateOne i g = c.updateOne i g := by
  unfold updateOne
  cases hlookup : c.lookup i with
  | none => simp only [hlookup]
  | some doc => simp only [AList.lookup_insert, AList.insert_insert, hg]

theorem erase_erase (c : Collection ι δ) (i : ι) : (c.erase i).erase i = c.erase i := by
  have hkey : i ∉ (c.erase i).keys := by
    rw [AList.keys_erase]
    exact c.keys_nodup.not_mem_erase
  exact AList.ext (List.kerase_of_notMem_keys hkey)

omit [DecidableEq ι] in
@[simp] theorem keys_updateMany (c : Collection ι δ) (g : δ → δ) :
    (c.updateMany g).keys = c.keys := by
  simp [updateMany, AList.keys, List.keys, Function.comp_def]

@[simp] theorem lookup_updateMany (c : Collection ι δ) (g : δ → δ) (i : ι) :
    (c.updateMany g).lookup i = (c.lookup i).map g :=
  List.dlookup_map₂ (γ := fun _ => δ) (δ := fun _ => δ) (f := fun _ => g) i

theorem keys_updateOne (c : Collection ι δ) (i : ι) (g : δ → δ) :
    (c.updateOne i g).keys = if i ∈ c then i :: c.keys.erase i else c.keys := by
  unfold updateOne
  cases hlookup : c.lookup i with
  | none => rw [if_neg (AList.lookup_eq_none.1 hlookup)]
  | some doc => rw [if_pos (Dict.mem_of_lookup hlookup), AList.keys_insert]

/-- Where `h` is undone by `g`, a round of `g` for all and `h` for one of them leaves the same
when it is done again. -/
theorem updateOne_updateMany_twice {h : δ → δ} (hg : ∀ doc, g (g doc) = g doc)
    (hh : ∀ doc, g (h doc) = g doc) :
    (((c.updateMany g).updateOne i h).updateMany g).updateOne i h =
      (c.updateMany g).updateOne i h := by
  have hmem (c' : Collection ι δ) (f : δ → δ) : i ∈ c'.updateMany f ↔ i ∈ c' := by
    rw [AList.mem_keys, keys_updateMany, AList.mem_keys]
  have hone (c' : Collection ι δ) (f : δ → δ) : i ∈ c'.updateOne i f ↔ i ∈ c' := by
    rw [← AList.lookup_isSome, lookup_updateOne, Option.isSome_map, AList.lookup_isSome]
  refine Dict.ext_keys_lookup ?_ fun k => ?_
  · simp only [keys_updateOne, keys_updateMany, hmem, hone]
    split_ifs with hi
    · rw [List.erase_cons_head]
    · rfl
  · rcases eq_or_ne k i with rfl | hne
    · simp only [lookup_updateOne, lookup_updateMany, Option.map_map]
      refine congrArg (fun f => (c.lookup k).map f) (funext fun doc => ?_)
      simp only [Function.comp_apply, hh, hg]
    · simp only [lookup_updateOne_ne hne, lookup_updateMany, Option.map_map]
      refine congrArg (fun f => (c.lookup k).map f) (funext fun doc => ?_)
      exact hg doc

end Collection
