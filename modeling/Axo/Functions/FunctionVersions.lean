import Axo.Consensus.Replication
import Axo.Lib.Transition
import Axo.Storage.InMemory

/-!
# The versions of a function

`core/functions/registry.py` over `core/storage/in_memory.py`, with whatever `StorageKey` the
calls are given, and the versions that `register` has returned.

* `FunctionHistory.step` is one call; a call that fails changes nothing.
* `register` takes one more than the highest version that is stored, so a version comes back once
  `delete` has removed it and all above it: `increasing_iff_of_reach`.
-/

namespace Axo

open Transition

/-- The backend of the function registry. -/
abbrev FunctionBackend := InMemoryStorageBackend StoredFunction

/-- An event of the registry: its type, and the payload. -/
structure FunctionEvent where
  eventType : String
  functionId : String
  version : Option ℤ
  deriving DecidableEq

/-- `_VALID_TRANSITIONS`. -/
def FunctionState.validTransitions : List (FunctionState × FunctionState) :=
  [(.registered, .coldStart), (.coldStart, .running), (.running, .completed), (.running, .failed),
    (.completed, .idle), (.completed, .evicted), (.failed, .idle), (.failed, .evicted),
    (.idle, .running), (.idle, .evicted), (.evicted, .coldStart)]

/-- `repr` of an `Optional` value. -/
def reprOptional {α : Type*} (repr : α → String) : Option α → String
  | none => "None"
  | some a => repr a

/-- `str(key)`. -/
def StorageKey.text (key : StorageKey) : String :=
  "StorageKey(id=" ++ reprStr key.id ++ ", version=" ++ reprOptional Int.repr key.version ++
    ", alias=" ++ reprOptional reprStr key.keyAlias ++ ")"

namespace FunctionBackend

/-- `RegistryError(message)`. -/
def registryError (message : String) : AxoError :=
  { code := 2000, name := "REGISTRY_ERROR", message := message }

/-- `RegistryError(f"no FunctionRecord found for key {key}")`. -/
def notFoundError (key : StorageKey) : AxoError :=
  registryError ("no FunctionRecord found for key " ++ key.text)

/-- `RegistryError(f"invalid transition {current.state} -> {to}")`. -/
def invalidTransitionError (current target : FunctionState) : AxoError :=
  registryError ("invalid transition FunctionState." ++ current.value ++ " -> FunctionState." ++
    target.value)

/-- The event of a type about a key. -/
def event (eventType : String) (key : StorageKey) : FunctionEvent :=
  { eventType := eventType, functionId := key.id, version := key.version }

/-- `max(existing_versions, default=0) + 1`. -/
def nextVersion (backend : FunctionBackend) (functionId : String) : ℤ :=
  ((backend.listVersions functionId).map StorageKey.versionOrZero).max?.getD 0 + 1

/-- The key that `register` stores the function under. -/
def nextKey (backend : FunctionBackend) (functionId : String) : StorageKey :=
  { id := functionId
    version := some (backend.nextVersion functionId)
    keyAlias := some functionId }

/-- `register`. -/
def register (backend : FunctionBackend) (functionId name : String) (code : List UInt8) (now : ℚ)
    (runtimeSpec : Option RuntimeSpec) (codeFormat : String)
    (paramsSchema : Option (List ParamSpec)) : FunctionBackend × StorageKey × FunctionEvent :=
  let key := backend.nextKey functionId
  let record : StoredFunction :=
    { code := code
      functionId := functionId
      name := name
      version := backend.nextVersion functionId
      createdAt := now
      state := .registered
      runtimeSpec := runtimeSpec
      codeFormat := codeFormat
      paramsSchema := paramsSchema }
  (backend.put key record, key, event FunctionState.registered.value key)

/-- `transition`. -/
def transition (backend : FunctionBackend) (key : StorageKey) (target : FunctionState) :
    Except AxoError (FunctionBackend × FunctionEvent) :=
  match backend.get key with
  | none => .error (notFoundError key)
  | some current =>
    if (current.state, target) ∉ FunctionState.validTransitions then
      .error (invalidTransitionError current.state target)
    else .ok (backend.put key { current with state := target }, event target.value key)

/-- What `update` makes of a function. -/
def updated (current : StoredFunction) (paramsSchema : Option (List ParamSpec))
    (envVars : Dict String String) : StoredFunction :=
  { current with
    paramsSchema :=
      FunctionRegistry.mergedParamsSchema current.paramsSchema (paramsSchema.getD [])
    runtimeSpec := FunctionRegistry.mergedRuntimeSpec current.runtimeSpec envVars }

/-- `update`. -/
def update (backend : FunctionBackend) (key : StorageKey)
    (paramsSchema : Option (List ParamSpec)) (envVars : Dict String String) : Except AxoError (FunctionBackend × FunctionEvent) :=
  match backend.get key with
  | none => .error (notFoundError key)
  | some current =>
    .ok (backend.put key (updated current paramsSchema envVars), event "FUNCTION_UPDATED" key)

/-- `delete`. -/
def delete (backend : FunctionBackend) (key : StorageKey) :
    Except AxoError (FunctionBackend × FunctionEvent) :=
  match backend.get key with
  | none => .error (notFoundError key)
  | some _ => .ok (InMemoryStorageBackend.delete backend key, event "FUNCTION_DELETED" key)

/-! ### What the calls do to the keys -/

/-- Every stored version counts for `nextVersion`. -/
theorem versionOrZero_lt_nextVersion {backend : FunctionBackend} {functionId : String}
    {key : StorageKey} (hkey : key ∈ backend.storage) (hid : key.id = functionId) :
    key.versionOrZero < backend.nextVersion functionId := by
  have hmem : key.versionOrZero ∈
      (backend.listVersions functionId).map StorageKey.versionOrZero :=
    List.mem_map_of_mem (InMemoryStorageBackend.mem_listVersions.2 ⟨hkey, hid⟩)
  obtain ⟨m, hm⟩ := Option.isSome_iff_exists.1 (List.isSome_max?_of_mem hmem)
  have hle : key.versionOrZero ≤ m := (List.max?_eq_some_iff.1 hm).2 _ hmem
  unfold nextVersion
  rw [hm, Option.getD_some]
  omega

/-- `nextVersion` is 1, or one more than a version that is stored. -/
theorem nextVersion_cases (backend : FunctionBackend) (functionId : String) :
    backend.nextVersion functionId = 1 ∨
      ∃ key ∈ backend.storage, key.id = functionId ∧
        backend.nextVersion functionId = key.versionOrZero + 1 := by
  unfold nextVersion
  rcases hm : ((backend.listVersions functionId).map StorageKey.versionOrZero).max? with _ | m
  · exact .inl rfl
  · obtain ⟨key, hkey, rfl⟩ := List.mem_map.1 (List.max?_eq_some_iff.1 hm).1
    obtain ⟨hkey, hid⟩ := InMemoryStorageBackend.mem_listVersions.1 hkey
    exact .inr ⟨key, hkey, hid, rfl⟩

/-- A call that finds a record under a key finds one whose stored key has the same version. -/
theorem exists_stored_of_get {backend : FunctionBackend} {key : StorageKey}
    {record : StoredFunction} (h : backend.get key = some record)
    (hversion : key.version ≠ none) : ∃ k ∈ backend.storage, k.version = key.version := by
  obtain ⟨version, hversion⟩ := Option.ne_none_iff_exists'.1 hversion
  have hsome : (backend.get key).isSome = true := by rw [h]; rfl
  rw [InMemoryStorageBackend.get_isSome] at hsome
  obtain ⟨k, hk⟩ := Option.isSome_iff_exists.1 hsome
  obtain ⟨hstored, hsame⟩ := InMemoryStorageBackend.resolve_stored hk
  exact ⟨k, hstored, by rw [hsame version hversion, hversion]⟩

end FunctionBackend

/-! ### Histories -/

/-- A call of the registry. -/
inductive FunctionCall
  | register (functionId name : String) (code : List UInt8) (now : ℚ)
      (runtimeSpec : Option RuntimeSpec) (codeFormat : String)
      (paramsSchema : Option (List ParamSpec))
  | update (key : StorageKey) (paramsSchema : Option (List ParamSpec))
      (envVars : Dict String String)
  | transition (key : StorageKey) (target : FunctionState)
  | delete (key : StorageKey)

/-- The registry, and the versions that `register` has returned for each function so far, the
first one first. -/
structure FunctionHistory where
  backend : FunctionBackend
  issued : String → List ℤ

namespace FunctionHistory

/-- A new endpoint. -/
def init : FunctionHistory where
  backend := .empty
  issued := fun _ => []

/-- The registry after a call that may have failed. -/
def after (s : FunctionHistory) :
    Except AxoError (FunctionBackend × FunctionEvent) → FunctionHistory
  | .error _ => s
  | .ok (backend, _) => { s with backend := backend }

/-- The history after a version was returned. -/
def issue (s : FunctionHistory) (functionId : String) (backend : FunctionBackend) :
    FunctionHistory where
  backend := backend
  issued := Function.update s.issued functionId
    (s.issued functionId ++ [s.backend.nextVersion functionId])

@[simp] theorem issued_issue_self (s : FunctionHistory) (functionId : String)
    (backend : FunctionBackend) :
    (s.issue functionId backend).issued functionId =
      s.issued functionId ++ [s.backend.nextVersion functionId] := Function.update_self ..

theorem issued_issue_of_ne (s : FunctionHistory) {f functionId : String}
    (backend : FunctionBackend) (hf : f ≠ functionId) :
    (s.issue functionId backend).issued f = s.issued f := Function.update_of_ne hf ..

/-- One call. -/
def step (s : FunctionHistory) : FunctionCall → Option FunctionHistory
  | .register functionId name code now runtimeSpec codeFormat paramsSchema =>
    some (s.issue functionId
      (s.backend.register functionId name code now runtimeSpec codeFormat paramsSchema).1)
  | .update key paramsSchema envVars =>
    some (s.after (FunctionBackend.update s.backend key paramsSchema envVars))
  | .transition key target => some (s.after (FunctionBackend.transition s.backend key target))
  | .delete key => some (s.after (FunctionBackend.delete s.backend key))

/-- The versions returned for each function are strictly increasing. -/
def Increasing (s : FunctionHistory) : Prop :=
  ∀ functionId, (s.issued functionId).Pairwise (· < ·)

/-- A function is registered only while each version that was returned for it, or a higher one, is
stored. -/
def LatestKept (s : FunctionHistory) : FunctionCall → Prop
  | .register functionId .. =>
    ∀ version ∈ s.issued functionId, ∃ key ∈ s.backend.storage.keys,
      key.id = functionId ∧ version ≤ key.versionOrZero
  | _ => True

instance (s : FunctionHistory) (call : FunctionCall) : Decidable (s.LatestKept call) := by
  cases call <;> unfold LatestKept <;> infer_instance

/-- No stored version is negative, and no version that was returned is below 1. -/
structure Positive (s : FunctionHistory) : Prop where
  stored : ∀ key ∈ s.backend.storage, 0 ≤ key.versionOrZero
  issued : ∀ functionId, ∀ version ∈ s.issued functionId, 1 ≤ version

variable {s t : FunctionHistory} {call : FunctionCall}

theorem positive_init : init.Positive where
  stored := fun _ h => absurd h (AList.notMem_empty _)
  issued := fun _ _ h => absurd h List.not_mem_nil

theorem Positive.nextVersion (h : s.Positive) (functionId : String) :
    1 ≤ s.backend.nextVersion functionId := by
  rcases s.backend.nextVersion_cases functionId with hnext | ⟨key, hkey, -, hnext⟩
  · omega
  · have hpos := h.stored key hkey
    omega

/-- Storing a record that was found, under the key it was found by, keeps the versions. -/
theorem Positive.put (h : s.Positive) {key : StorageKey} {record : StoredFunction}
    (hget : s.backend.get key = some record) (value : StoredFunction) :
    ∀ k ∈ (s.backend.put key value).storage, 0 ≤ k.versionOrZero := by
  intro k hk
  rcases InMemoryStorageBackend.mem_put.1 hk with rfl | hk
  · by_cases hversion : k.version = none
    · unfold StorageKey.versionOrZero
      rw [hversion]
      rfl
    · obtain ⟨k', hk', hsame⟩ := FunctionBackend.exists_stored_of_get hget hversion
      have hpos := h.stored k' hk'
      unfold StorageKey.versionOrZero at hpos ⊢
      rwa [hsame] at hpos
  · exact h.stored k hk

/-- What a call does: it registers a function, or it changes what is stored under a key that was
found, or nothing. -/
theorem step_cases (hstep : step s call = some t) :
    (∃ functionId name code now runtimeSpec codeFormat paramsSchema,
      call = .register functionId name code now runtimeSpec codeFormat paramsSchema ∧
        t = s.issue functionId (s.backend.register functionId name code now runtimeSpec codeFormat
          paramsSchema).1) ∨
    ((∀ functionId name code now runtimeSpec codeFormat paramsSchema,
      call ≠ .register functionId name code now runtimeSpec codeFormat paramsSchema) ∧
      t.issued = s.issued ∧
      (t.backend = s.backend ∨
        ∃ key record, s.backend.get key = some record ∧
          ((∃ value, t.backend = s.backend.put key value) ∨
            t.backend = InMemoryStorageBackend.delete s.backend key))) := by
  cases call with
  | register functionId name code now runtimeSpec codeFormat paramsSchema =>
    exact .inl ⟨_, _, _, _, _, _, _, rfl, (Option.some.inj hstep).symm⟩
  | update key paramsSchema envVars =>
    refine .inr ⟨by simp, ?_⟩
    obtain rfl := Option.some.inj hstep
    unfold FunctionBackend.update
    rcases hget : s.backend.get key with _ | record
    · exact ⟨rfl, .inl rfl⟩
    · exact ⟨rfl, .inr ⟨key, record, hget, .inl ⟨_, rfl⟩⟩⟩
  | transition key target =>
    refine .inr ⟨by simp, ?_⟩
    obtain rfl := Option.some.inj hstep
    unfold FunctionBackend.transition
    rcases hget : s.backend.get key with _ | record
    · exact ⟨rfl, .inl rfl⟩
    · dsimp only
      by_cases hvalid : (record.state, target) ∈ FunctionState.validTransitions
      · rw [if_neg (not_not.2 hvalid)]
        exact ⟨rfl, .inr ⟨key, record, hget, .inl ⟨_, rfl⟩⟩⟩
      · rw [if_pos hvalid]
        exact ⟨rfl, .inl rfl⟩
  | delete key =>
    refine .inr ⟨by simp, ?_⟩
    obtain rfl := Option.some.inj hstep
    unfold FunctionBackend.delete
    rcases hget : s.backend.get key with _ | record
    · exact ⟨rfl, .inl rfl⟩
    · exact ⟨rfl, .inr ⟨key, record, hget, .inr rfl⟩⟩

theorem positive_step (h : s.Positive) (hstep : step s call = some t) : t.Positive := by
  rcases step_cases hstep with
    ⟨functionId, name, code, now, runtimeSpec, codeFormat, paramsSchema, -, rfl⟩ |
    ⟨-, hissued, hbackend⟩
  · have hnext := h.nextVersion functionId
    constructor
    · intro key hkey
      rcases InMemoryStorageBackend.mem_put.1 hkey with rfl | hkey
      · show 0 ≤ s.backend.nextVersion functionId
        omega
      · exact h.stored key hkey
    · intro f version hversion
      by_cases hf : f = functionId
      · subst hf
        rw [issued_issue_self, List.mem_append, List.mem_singleton] at hversion
        rcases hversion with hversion | rfl
        · exact h.issued f version hversion
        · exact hnext
      · rw [issued_issue_of_ne s _ hf] at hversion
        exact h.issued f version hversion
  · constructor
    · rcases hbackend with hsame | ⟨key, record, hget, ⟨value, hput⟩ | hdelete⟩
      · rw [hsame]
        exact h.stored
      · rw [hput]
        exact h.put hget value
      · rw [hdelete]
        intro k hk
        exact h.stored k (InMemoryStorageBackend.mem_delete.1 hk).2
    · rw [hissued]
      exact h.issued

theorem positive_of_reach {G : FunctionHistory → FunctionCall → Prop}
    (h : Reach step G init s) : s.Positive :=
  Reach.invariant positive_init (fun _ _ _ hs _ hstep => positive_step hs hstep) h

/-- The version that `register` is about to return is higher than those before it exactly when
these, or higher ones, are stored. -/
theorem Positive.lt_nextVersion_iff (h : s.Positive) (functionId : String) :
    (∀ version ∈ s.issued functionId, version < s.backend.nextVersion functionId) ↔
      ∀ version ∈ s.issued functionId, ∃ key ∈ s.backend.storage.keys,
        key.id = functionId ∧ version ≤ key.versionOrZero := by
  constructor
  · intro hlt version hversion
    have hnext := hlt version hversion
    have hpos := h.issued functionId version hversion
    rcases s.backend.nextVersion_cases functionId with hone | ⟨key, hkey, hid, hkeyNext⟩
    · omega
    · exact ⟨key, AList.mem_keys.1 hkey, hid, by omega⟩
  · intro hkept version hversion
    obtain ⟨key, hkey, hid, hle⟩ := hkept version hversion
    have hlt := FunctionBackend.versionOrZero_lt_nextVersion (AList.mem_keys.2 hkey) hid
    omega

theorem increasing_issue_iff {functionId : String} {backend : FunctionBackend} :
    (s.issue functionId backend).Increasing ↔
      s.Increasing ∧
        ∀ version ∈ s.issued functionId, version < s.backend.nextVersion functionId := by
  unfold Increasing
  constructor
  · intro h
    have hself := h functionId
    rw [issued_issue_self, List.pairwise_append] at hself
    refine ⟨fun f => ?_, fun version hversion => hself.2.2 version hversion _ (by simp)⟩
    by_cases hf : f = functionId
    · subst hf
      exact hself.1
    · have hother := h f
      rwa [issued_issue_of_ne s _ hf] at hother
  · rintro ⟨h, hlt⟩ f
    by_cases hf : f = functionId
    · subst hf
      rw [issued_issue_self, List.pairwise_append]
      refine ⟨h f, List.pairwise_singleton _ _, fun version hversion v hv => ?_⟩
      rw [List.mem_singleton.1 hv]
      exact hlt version hversion
    · rw [issued_issue_of_ne s _ hf]
      exact h f

/-- A call keeps the versions increasing exactly when it meets the guard. -/
theorem Positive.increasing_step_iff (h : s.Positive) (hstep : step s call = some t) :
    t.Increasing ↔ s.Increasing ∧ s.LatestKept call := by
  rcases step_cases hstep with
    ⟨functionId, name, code, now, runtimeSpec, codeFormat, paramsSchema, rfl, rfl⟩ |
    ⟨hother, hissued, -⟩
  · rw [increasing_issue_iff, h.lt_nextVersion_iff]
    rfl
  · have hkept : s.LatestKept call := by
      cases call with
      | register => exact (hother _ _ _ _ _ _ _ rfl).elim
      | update | transition | delete => trivial
    unfold Increasing
    rw [hissued]
    exact ⟨fun hs => ⟨hs, hkept⟩, And.left⟩

/-- The versions that a run has returned for each function are strictly increasing exactly when
the run registers functions only while their latest versions, or higher ones, are stored. -/
theorem increasing_iff_of_reach (h : Reach step Always init s) :
    s.Increasing ↔ Reach step LatestKept init s := by
  constructor
  · intro hinc
    induction h with
    | refl => exact .refl
    | tail hreach _ hstep ih =>
      obtain ⟨hinc, hkept⟩ := ((positive_of_reach hreach).increasing_step_iff hstep).1 hinc
      exact .tail (ih hinc) hkept hstep
  · intro hkept
    clear h
    induction hkept with
    | refl => exact fun _ => List.Pairwise.nil
    | tail hreach hkept hstep ih =>
      exact ((positive_of_reach hreach).increasing_step_iff hstep).2 ⟨ih, hkept⟩

/-- A registration of a function without code or parameters. -/
def plainRegister (functionId : String) : FunctionCall :=
  .register functionId functionId [] 0 none "cloudpickle" none

/-- Two registrations; the first version is deleted between them. -/
theorem increasing_firstDeleted : ∃ s, Reach step Always init s ∧
    s.issued "f" = [1, 2, 3] ∧ s.backend.storage.keys.length = 2 ∧ s.Increasing := by
  obtain ⟨s, hs, htest⟩ := exists_reach_of_guarded_run step LatestKept init
    (fun s => decide (s.issued "f" = [1, 2, 3]) && decide (s.backend.storage.keys.length = 2))
    [plainRegister "f", plainRegister "f",
      .delete { id := "f", version := some 1, keyAlias := some "f" }, plainRegister "f"]
    (by decide +kernel)
  simp only [Bool.and_eq_true, decide_eq_true_eq] at htest
  have hall : Reach step Always init s := hs.mono fun _ _ _ => trivial
  exact ⟨s, hall, htest.1, htest.2, (increasing_iff_of_reach hall).2 hs⟩

/-- The latest version is deleted, and the next registration gets it again. -/
theorem reissued_latestDeleted : ∃ s, Reach step Always init s ∧ ¬ s.Increasing := by
  obtain ⟨s, hs, htest⟩ := exists_reach_of_run step init
    (fun s => decide (s.issued "f" = [1, 1]))
    [plainRegister "f", .delete { id := "f", version := some 1, keyAlias := some "f" },
      plainRegister "f"]
    (by decide +kernel)
  refine ⟨s, hs, fun h => ?_⟩
  have hf := h "f"
  rw [of_decide_eq_true htest] at hf
  exact absurd hf (by decide)

end FunctionHistory

end Axo
