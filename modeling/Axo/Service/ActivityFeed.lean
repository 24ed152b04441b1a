import Axo.Lib.Dict
import Axo.Lib.Transition
import Axo.Service.JobSubmit

/-!
# The activity feed

`InMemoryRepository` keeps the last `max_entries` entities in a deque and an index from ids to
entities beside it; `ActivityTrackingBridge` saves one entity for each lifecycle event.  An id that
is saved again takes over the one slot of the index, while the deque holds both entities.

* `InMemoryRepository.save`, `get`, `listRecent`, `listByFunctionId` are the operations;
* `InMemoryRepository.Agrees` says that the index answers what the deque would;
* `agrees_save_iff` is what one save needs to keep that, and `eachStep_sparesIndex_of_nodup` says
  that entities with ids of their own never break it.
-/

namespace Axo

open Transition

/-- What the repository reads of an entity: its `id`, and `getattr(e, "function_id", None)`. -/
class Entity (T : Type*) where
  id : T → String
  functionId : T → Option String

/-- `xs[:limit]` -/
def sliceTo {T : Type*} (limit : ℤ) (xs : List T) : List T :=
  if 0 ≤ limit then xs.take limit.toNat else xs.take (xs.length - (-limit).toNat)

@[simp] theorem sliceTo_natCast {T : Type*} (k : ℕ) (xs : List T) :
    sliceTo (k : ℤ) xs = xs.take k := by
  simp [sliceTo]

/-- `_entries` (the oldest first, with its `maxlen`) and `_by_id`. -/
structure InMemoryRepository (T : Type*) where
  maxEntries : ℕ
  entries : List T
  byId : Dict String T

namespace InMemoryRepository

variable {T : Type*}

/-- `InMemoryRepository(max_entries)` -/
def init (maxEntries : ℕ) : InMemoryRepository T := ⟨maxEntries, [], ∅⟩

/-- `deque.append` with a `maxlen`: what no longer fits is dropped from the other end. -/
def appended (s : InMemoryRepository T) (entity : T) : List T :=
  (s.entries ++ [entity]).drop (s.entries.length + 1 - s.maxEntries)

variable [Entity T]

/-- `save`; `self._entries[0]` of an empty deque raises, which is none. -/
def save (s : InMemoryRepository T) (entity : T) : Option (InMemoryRepository T) :=
  if s.maxEntries ≤ s.entries.length then
    -- the oldest entity is about to be dropped by the append
    s.entries.head?.map fun oldest =>
      { s with
        entries := s.appended entity
        byId := (s.byId.erase (Entity.id oldest)).insert (Entity.id entity) entity }
  else
    some
      { s with
        entries := s.appended entity
        byId := s.byId.insert (Entity.id entity) entity }

/-- `get` -/
def get (s : InMemoryRepository T) (id : String) : Option T := s.byId.lookup id

omit [Entity T] in
/-- `list_recent` -/
def listRecent (s : InMemoryRepository T) (limit : ℤ) : List T := sliceTo limit s.entries.reverse

/-- `list_by_function_id` -/
def listByFunctionId (s : InMemoryRepository T) (functionId : String) (limit : ℤ) : List T :=
  sliceTo limit (s.entries.reverse.filter fun e => Entity.functionId e = some functionId)

end InMemoryRepository

/-! ### What the bridge saves -/

/-- The `failure` of a record. -/
structure ActivityFailure where
  errorClass : String
  errorCode : ℤ
  component : String
  message : String
  traceback : Option String
  isTransient : Bool
  deriving DecidableEq

/-- `ActivityRecord` -/
structure ActivityRecord (F : Type*) where
  id : String
  activityType : String
  functionId : String
  functionVersion : Option ℤ
  jobId : Option String
  timestamp : F
  failure : Option ActivityFailure := none
  serviceName : Option String := none
  deriving DecidableEq

instance {F : Type*} : Entity (ActivityRecord F) where
  id := ActivityRecord.id
  functionId e := some e.functionId

/-- A lifecycle event, with the keys of its payload that the bridge reads. -/
structure LifecycleEvent (F : Type*) where
  eventType : String
  timestamp : F
  jobId : Option String := none
  functionId : Option String := none
  version : Option ℤ := none
  serviceName : Option String := none

namespace ActivityTrackingBridge

variable {F : Type*}

/-- The record of a job's event; a payload without the two ids raises. -/
def jobRecord (event : LifecycleEvent F) (failure : String → Option ActivityFailure) :
    Option (ActivityRecord F) :=
  event.jobId.bind fun jobId => event.functionId.map fun functionId =>
    { id := jobId ++ ":" ++ event.eventType
      activityType := event.eventType
      functionId := functionId
      functionVersion := none
      jobId := some jobId
      timestamp := event.timestamp
      failure := failure jobId }

/-- `on_job_submitted` -/
def onJobSubmitted (event : LifecycleEvent F) : Option (ActivityRecord F) :=
  jobRecord event fun _ => none

/-- `on_job_finished`; `results` is what `get` of the results backend has. -/
def onJobFinished (results : String → Option FunctionResult) (event : LifecycleEvent F) :
    Option (ActivityRecord F) :=
  jobRecord event fun jobId =>
    ((results jobId).filter fun result => !result.ok).map fun result =>
      { errorClass := "FUNCTION_RUNTIME_ERROR"
        errorCode := 0
        component := "runtime"
        message := result.error
        traceback := none
        isTransient := false }

/-- `on_container_event`; `str` is how a timestamp is written in a string. -/
def onContainerEvent (str : F → String) (event : LifecycleEvent F) : ActivityRecord F :=
  let functionId := event.functionId.getD ""
  { id := functionId ++ ":" ++ event.eventType ++ ":" ++ str event.timestamp
    activityType := event.eventType
    functionId := functionId
    functionVersion := event.version
    jobId := none
    timestamp := event.timestamp
    serviceName := event.serviceName }

/-- What is saved for an event, by the subscriptions of `App`. -/
def recordOf (results : String → Option FunctionResult) (str : F → String)
    (event : LifecycleEvent F) : Option (ActivityRecord F) :=
  if event.eventType = "JOB_SUBMITTED" then
    onJobSubmitted event
  else if event.eventType ∈ ["JOB_COMPLETED", "JOB_FAILED"] then
    onJobFinished results event
  else if event.eventType ∈ ["CONTAINER_SPAWNED", "CONTAINER_READY", "CONTAINER_CRASHED",
      "CONTAINER_DISMISSED"] then
    some (onContainerEvent str event)
  else
    none

/-- One job is submitted and completed, and another one is submitted. -/
def reportedOnce : List (LifecycleEvent ℕ) :=
  [{ eventType := "JOB_SUBMITTED", timestamp := 1, jobId := "job-1", functionId := "resize" },
    { eventType := "JOB_COMPLETED", timestamp := 2, jobId := "job-1", functionId := "resize" },
    { eventType := "JOB_SUBMITTED", timestamp := 3, jobId := "job-2", functionId := "resize" }]

/-- One job is reported completed twice, and another one is submitted. -/
def reportedTwice : List (LifecycleEvent ℕ) :=
  [{ eventType := "JOB_COMPLETED", timestamp := 1, jobId := "job-1", functionId := "resize" },
    { eventType := "JOB_COMPLETED", timestamp := 2, jobId := "job-1", functionId := "resize" },
    { eventType := "JOB_SUBMITTED", timestamp := 3, jobId := "job-2", functionId := "resize" }]

end ActivityTrackingBridge

namespace InMemoryRepository

open ActivityTrackingBridge

variable {T : Type*} [Entity T]

/-! ### The index and the list -/

/-- Everything `list_recent` can still return. -/
def recent (s : InMemoryRepository T) : List T := s.listRecent s.entries.length

/-- The most recently saved entity of a list that has the id. -/
def latest (id : String) (xs : List T) : Option T := xs.find? fun e => Entity.id e = id

/-- The index answers what a search of the list would, and the list of one function is the list of
all cut down to it. -/
structure Agrees (s : InMemoryRepository T) : Prop where
  get : ∀ id, s.get id = latest id s.recent
  byFunctionId : ∀ functionId (k : ℕ), s.listByFunctionId functionId k =
    (s.recent.filter fun e => Entity.functionId e = some functionId).take k

/-- The save drops no entity from the end of a full list whose id another listed entity has, unless
the saved one has it too. -/
def SparesIndex (s : InMemoryRepository T) (entity : T) : Prop :=
  s.maxEntries ≤ s.entries.length → ∀ oldest ∈ s.entries.head?,
    Entity.id oldest = Entity.id entity ∨
      ∀ e ∈ s.entries.tail, Entity.id e ≠ Entity.id oldest

variable {s t : InMemoryRepository T} {entity : T} {id : String}

omit [Entity T] in
@[simp] theorem recent_eq (s : InMemoryRepository T) : s.recent = s.entries.reverse := by
  rw [recent, listRecent, sliceTo_natCast, List.take_of_length_le (by simp)]

theorem latest_cons (id : String) (e : T) (xs : List T) :
    latest id (e :: xs) = if Entity.id e = id then some e else latest id xs := by
  unfold latest
  by_cases h : Entity.id e = id
  · rw [List.find?_cons_of_pos (by simpa using h), if_pos h]
  · rw [List.find?_cons_of_neg (by simpa using h), if_neg h]

/-- An entity at the old end is found only when its id is asked for. -/
theorem latest_append_of_ne {e : T} (xs : List T) (h : Entity.id e ≠ id) :
    latest id (xs ++ [e]) = latest id xs := by
  unfold latest
  rw [List.find?_append, List.find?_cons_of_neg (by simpa using h), List.find?_nil,
    Option.or_none]

theorem latest_eq_none {xs : List T} : latest id xs = none ↔ ∀ e ∈ xs, Entity.id e ≠ id := by
  simp [latest]

/-! ### One save -/

/-- A save into a list that has room. -/
theorem save_of_lt (h : s.entries.length < s.maxEntries) :
    s.save entity = some ⟨s.maxEntries, s.entries ++ [entity],
      s.byId.insert (Entity.id entity) entity⟩ := by
  have hroom : s.entries.length + 1 - s.maxEntries = 0 := by omega
  rw [save, if_neg (by omega), appended, hroom, List.drop_zero]

/-- A save into a full list, whose oldest entity goes. -/
theorem save_of_full {oldest : T} {rest : List T} (hentries : s.entries = oldest :: rest)
    (hfull : s.entries.length = s.maxEntries) :
    s.save entity = some ⟨s.maxEntries, rest ++ [entity],
      (s.byId.erase (Entity.id oldest)).insert (Entity.id entity) entity⟩ := by
  have hdrop : s.entries.length + 1 - s.maxEntries = 1 := by omega
  rw [save, if_pos (by omega), appended, hdrop, hentries]
  rfl

theorem agrees_iff : s.Agrees ↔ ∀ id, s.byId.lookup id = latest id s.entries.reverse := by
  constructor
  · intro h id
    rw [← recent_eq]
    exact h.get id
  · intro h
    refine ⟨fun id => ?_, fun functionId k => ?_⟩
    · rw [recent_eq]
      exact h id
    · rw [recent_eq, listByFunctionId, sliceTo_natCast]

/-- What holds of the sizes from the first save on. -/
def Bounded (s : InMemoryRepository T) : Prop :=
  1 ≤ s.maxEntries ∧ s.entries.length ≤ s.maxEntries

omit [Entity T] in
/-- A save into a bounded repository finds room, or a full list. -/
theorem Bounded.cases (hbound : s.Bounded) : s.entries.length < s.maxEntries ∨
    ∃ oldest rest, s.entries = oldest :: rest ∧ s.entries.length = s.maxEntries := by
  rcases Nat.lt_or_eq_of_le hbound.2 with hlt | hfull
  · exact Or.inl hlt
  · obtain ⟨oldest, rest, hentries⟩ : ∃ oldest rest, s.entries = oldest :: rest :=
      List.exists_cons_of_length_pos (by have := hbound.1; omega)
    exact Or.inr ⟨oldest, rest, hentries, hfull⟩

theorem exists_save (hbound : s.Bounded) (entity : T) :
    ∃ t, s.save entity = some t ∧ t.Bounded := by
  rcases hbound.cases with hlt | ⟨oldest, rest, hentries, hfull⟩
  · refine ⟨_, save_of_lt hlt, hbound.1, ?_⟩
    simpa using hlt
  · refine ⟨_, save_of_full hentries hfull, hbound.1, ?_⟩
    rw [← hfull, hentries]
    simp

theorem bounded_save (hbound : s.Bounded) (hsave : s.save entity = some t) : t.Bounded := by
  obtain ⟨u, hu, hbounded⟩ := exists_save hbound entity
  exact Option.some.inj (hu.symm.trans hsave) ▸ hbounded

/-- Index and list go on to agree when there is room. -/
theorem agrees_of_lt (hlt : s.entries.length < s.maxEntries) (hagrees : s.Agrees)
    (hsave : s.save entity = some t) : t.Agrees := by
  rw [agrees_iff] at hagrees ⊢
  obtain rfl := Option.some.inj ((save_of_lt hlt).symm.trans hsave)
  intro id
  rw [List.reverse_append, List.reverse_singleton, List.singleton_append, latest_cons]
  by_cases hid : id = Entity.id entity
  · rw [hid, AList.lookup_insert, if_pos rfl]
  · rw [AList.lookup_insert_ne hid, if_neg (Ne.symm hid)]
    exact hagrees id

/-- When the oldest entity goes, they do so exactly if its id goes with it. -/
theorem agrees_iff_of_full {oldest : T} {rest : List T} (hentries : s.entries = oldest :: rest)
    (hfull : s.entries.length = s.maxEntries) (hagrees : s.Agrees)
    (hsave : s.save entity = some t) : t.Agrees ↔
      Entity.id oldest = Entity.id entity ∨ latest (Entity.id oldest) rest.reverse = none := by
  rw [agrees_iff, hentries, List.reverse_cons] at hagrees
  rw [agrees_iff]
  obtain rfl := Option.some.inj ((save_of_full hentries hfull).symm.trans hsave)
  rw [List.reverse_append, List.reverse_singleton, List.singleton_append]
  simp only [latest_cons]
  constructor
  · -- the id of the entity that went is no longer in the index
    intro h
    by_cases hid : Entity.id oldest = Entity.id entity
    · exact Or.inl hid
    · have hlookup := h (Entity.id oldest)
      rw [AList.lookup_insert_ne hid, AList.lookup_erase, if_neg (Ne.symm hid)] at hlookup
      exact Or.inr hlookup.symm
  · intro h id
    by_cases hid : id = Entity.id entity
    · rw [hid, AList.lookup_insert, if_pos rfl]
    · rw [AList.lookup_insert_ne hid, if_neg (Ne.symm hid)]
      by_cases hold : id = Entity.id oldest
      · rw [hold] at hid ⊢
        rw [AList.lookup_erase]
        exact (h.resolve_left hid).symm
      · rw [AList.lookup_erase_ne hold, hagrees id, latest_append_of_ne _ (Ne.symm hold)]

/-- What one save needs to keep index and list in agreement. -/
theorem agrees_save_iff (hbound : s.Bounded) (hagrees : s.Agrees)
    (hsave : s.save entity = some t) : t.Agrees ↔ s.SparesIndex entity := by
  rcases hbound.cases with hlt | ⟨oldest, rest, hentries, hfull⟩
  · exact iff_of_true (agrees_of_lt hlt hagrees hsave) fun hle => absurd hle (by omega)
  · rw [agrees_iff_of_full hentries hfull hagrees hsave, latest_eq_none]
    unfold SparesIndex
    rw [hentries]
    simp [← hfull, hentries]

/-! ### Every save -/

theorem agrees_init (maxEntries : ℕ) : (init maxEntries : InMemoryRepository T).Agrees := by
  rw [agrees_iff]
  exact fun _ => rfl

omit [Entity T] in
theorem bounded_init {maxEntries : ℕ} (h : 1 ≤ maxEntries) :
    (init maxEntries : InMemoryRepository T).Bounded := ⟨h, Nat.zero_le _⟩

/-- The ids of the deque and of what is still to be saved, the oldest first. -/
def idsAhead (s : InMemoryRepository T) (saved : List T) : List String :=
  (s.entries ++ saved).map Entity.id

/-- Entities whose ids do not recur spare the index at every save. -/
theorem eachStep_sparesIndex_of_nodup (hbound : s.Bounded) {saved : List T}
    (h : (s.idsAhead saved).Nodup) : EachStep save SparesIndex s saved := by
  induction saved generalizing s with
  | nil => exact trivial
  | cons entity saved ih =>
    have hids : s.idsAhead (entity :: saved) =
        s.entries.map Entity.id ++ Entity.id entity :: saved.map Entity.id := by simp [idsAhead]
    refine ⟨fun hle oldest holdest => Or.inr fun e he => ?_, fun t ht => ih ?_ ?_⟩
    · obtain ⟨rest, hentries⟩ := List.head?_eq_some_iff.1 holdest
      rw [hids, hentries] at h
      rw [hentries] at he
      have hnotMem := (List.nodup_cons.1 (List.nodup_append.1 h).1).1
      exact fun heq => hnotMem (heq ▸ List.mem_map_of_mem he)
    · exact bounded_save hbound ht
    · have hsuffix : t.idsAhead saved <:+ s.idsAhead (entity :: saved) := by
        rcases hbound.cases with hlt | ⟨oldest, rest, hentries, hfull⟩
        · obtain rfl := Option.some.inj ((save_of_lt hlt).symm.trans ht)
          exact ⟨[], by simp [idsAhead]⟩
        · obtain rfl := Option.some.inj ((save_of_full hentries hfull).symm.trans ht)
          exact ⟨[Entity.id oldest], by simp [idsAhead, hentries]⟩
      exact h.sublist hsuffix.sublist

/-- Every sequence of saves succeeds, and index and list agree after each of them exactly when each
spares the index. -/
theorem agrees_afterEachSave_iff {maxEntries : ℕ} (h : 1 ≤ maxEntries) (saved : List T) :
    (∃ t, run save (init maxEntries) saved = some t) ∧
      (Throughout save Agrees (init maxEntries) saved ↔
        EachStep save SparesIndex (init maxEntries) saved) := by
  obtain ⟨t, hrun, -⟩ := exists_run (fun _ entity hs => exists_save hs entity) (bounded_init h) saved
  refine ⟨⟨t, hrun⟩, ?_⟩
  refine throughout_iff_eachStep (I := fun s => s.Bounded ∧ s.Agrees) (fun s hs => hs.2) ?_ ?_
    ⟨bounded_init h, agrees_init maxEntries⟩ hrun
  · rintro s entity t ⟨hbound, hagrees⟩ hspares hsave
    exact ⟨bounded_save hbound hsave, (agrees_save_iff hbound hagrees hsave).2 hspares⟩
  · rintro s entity t ⟨hbound, hagrees⟩ hsave hnext
    exact (agrees_save_iff hbound hagrees hsave).1 hnext

theorem agrees_throughout_reportedOnce :
    Throughout save Agrees (init 2)
      (reportedOnce.filterMap (recordOf (fun _ => none) toString)) :=
  (agrees_afterEachSave_iff (by decide) _).2.2
    (eachStep_sparesIndex_of_nodup (bounded_init (by decide)) (by decide +kernel))

/-- Three events into a feed of two entries: the second report of the job is still listed, and its
id is unknown to `get`. -/
theorem not_agrees_reportedTwice :
    ∃ t, run save (init 2) (reportedTwice.filterMap (recordOf (fun _ => none) toString)) = some t ∧
      t.get "job-1:JOB_COMPLETED" = none ∧
      (∃ e ∈ t.listRecent 100, e.id = "job-1:JOB_COMPLETED") ∧ ¬ t.Agrees := by
  refine ⟨_, rfl, by decide +kernel, by decide +kernel, fun h => ?_⟩
  exact absurd (h.get "job-1:JOB_COMPLETED") (by decide +kernel)

end InMemoryRepository

end Axo
