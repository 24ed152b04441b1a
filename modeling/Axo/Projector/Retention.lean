import Axo.Lib.DocumentQueries
import Axo.Projector.ReadModel
import Mathlib.Data.List.MinMax

/-!
# How long activity is kept

`unified_activity` under `ActivityRetentionWorker` of `activity_retention_worker.py`, with the
methods of `MongoActivityRepository` that delete rows.

* `ActivityStore` are the times in the texts of `created_at` and the order in which a query sorts;
* `purgeOlderThan`, `purgeSuperseded` and `tick` are the worker's, `purge` is that of the use cases
  that purge an entity;
* `lookup_afterActs_iff` says which rows there are after any deliveries and ticks;
* `purge_functionVersion` says what the purge of a version of a function deletes.
-/

namespace Axo.Projector

/-! ### The deletions -/

/-- What the collection makes of the texts of `created_at`, and how it sorts by them. -/
structure ActivityStore where
  /-- `_parse_created_at`, in milliseconds -/
  instant : String → ℤ
  newestFirst : Ranking (String × ActivityRow)
  rank_eq : ∀ e, newestFirst.rank e =
    match e.2.createdAt with
    | some (.str text) => instant text
    | _ => 0

/-- `SUPERSEDABLE_GROUPS`. -/
def supersedableGroups : List (String × List String) :=
  [("FunctionUpdated", ["function_id", "version"])]

/-- The filters of `purge`; at least one is given. -/
structure PurgeFilter where
  endpointId : Option String := none
  virtualEnvironmentId : Option String := none
  functionId : Option String := none
  functionVersion : Option ℤ := none
  choreographyId : Option String := none

/-- The query of `purge`, on one row. -/
def PurgeFilter.selects (filter : PurgeFilter) (row : ActivityRow) : Bool :=
  filter.endpointId.all (fun id => row.endpointId = some (.str id)) &&
    filter.virtualEnvironmentId.all (fun id => row.virtualEnvironmentId = some (.str id)) &&
    filter.functionId.all (fun id => row.metaFields.lookup "function_id" = some (.str id)) &&
    filter.functionVersion.all
      (fun version => row.metaFields.lookup "function_version" = some (.int version)) &&
    filter.choreographyId.all fun id => row.metaFields.lookup "choreography_id" = some (.str id)

/-- `purge`, with the number of rows deleted. -/
def purge (rows : Collection String ActivityRow) (filter : PurgeFilter) :
    Collection String ActivityRow × ℕ :=
  (rows.deleteMany fun _ row => filter.selects row, rows.deletedCount fun _ row => filter.selects row)

section Worker

variable (store : ActivityStore)

/-- The time of a row. -/
def ActivityStore.time (row : ActivityRow) : ℤ :=
  match row.createdAt with
  | some (.str text) => store.instant text
  | _ => 0

/-- `purge_older_than`. -/
def purgeOlderThan (rows : Collection String ActivityRow) (cutoff : ℤ)
    (excludeEventTypes : List String) : Collection String ActivityRow :=
  rows.deleteMany fun _ row =>
    decide (store.time row < cutoff) && decide (row.eventType ∉ excludeEventTypes)

/-- The `_id` of a group. -/
def groupKey (groupByFields : List String) (row : ActivityRow) : List (Option Value) :=
  groupByFields.map fun field => row.metaFields.lookup field

/-- The rows of an event type. -/
def matching (rows : Collection String ActivityRow) (eventType : String) :
    List (String × ActivityRow) :=
  rows.rows.filter fun e => e.2.eventType = eventType

/-- `keep_id` of the group of a row. -/
def keepId (rows : Collection String ActivityRow) (eventType : String)
    (groupByFields : List String) (row : ActivityRow) : Option String :=
  (store.newestFirst.first (matching rows eventType) fun e =>
    groupKey groupByFields e.2 = groupKey groupByFields row).map Prod.fst

/-- `purge_superseded`. -/
def purgeSuperseded (rows : Collection String ActivityRow) (eventType : String)
    (groupByFields : List String) (cutoff : ℤ) : Collection String ActivityRow :=
  let toDelete := (matching rows eventType).filter fun e =>
    decide (keepId store rows eventType groupByFields e.2 ≠ some e.1) &&
      decide (store.time e.2 < cutoff)
  rows.deleteMany fun id _ => id ∈ toDelete.map Prod.fst

/-- `tick`, with the time now and the retention in milliseconds. -/
def retentionTick (retention now : ℤ) (rows : Collection String ActivityRow) :
    Collection String ActivityRow :=
  supersedableGroups.foldl
    (fun rows group => purgeSuperseded store rows group.1 group.2 (now - retention))
    (purgeOlderThan store rows (now - retention) (supersedableGroups.map Prod.fst))

/-- What happens to the log: an event is delivered, for the first time or again, or the worker
ticks. -/
inductive ActivityAct
  | deliver (event : DomainEvent)
  | tick (now : ℤ)

/-- The log after one of these. -/
def ActivityAct.apply (retention : ℤ) (rows : Collection String ActivityRow) :
    ActivityAct → Collection String ActivityRow
  | .deliver event => record rows event
  | .tick now => retentionTick store retention now rows

/-- The log after all of these. -/
def afterActs (retention : ℤ) (acts : List ActivityAct) : Collection String ActivityRow :=
  acts.foldl (ActivityAct.apply store retention) ∅

end Worker

/-! ### What a tick keeps -/

section Tick

variable {store : ActivityStore} {rows : Collection String ActivityRow} {id : String}
  {row : ActivityRow} {eventType : String} {groupByFields : List String} {cutoff : ℤ}

theorem mem_matching {e : String × ActivityRow} :
    e ∈ matching rows eventType ↔ rows.lookup e.1 = some e.2 ∧ e.2.eventType = eventType := by
  unfold matching
  rw [List.mem_filter, decide_eq_true_iff]
  exact and_congr_left' Collection.mem_rows

/-- The row is as new as any of its group. -/
def NewestOfGroup (store : ActivityStore) (rows : Collection String ActivityRow)
    (eventType : String) (groupByFields : List String) (row : ActivityRow) : Prop :=
  ∀ id' row', rows.lookup id' = some row' → row'.eventType = eventType →
    groupKey groupByFields row' = groupKey groupByFields row → store.time row' ≤ store.time row

/-- The rows of a group have times of their own. -/
def TimesApart (store : ActivityStore) (rows : Collection String ActivityRow) (eventType : String)
    (groupByFields : List String) : Prop :=
  ∀ id row id' row', rows.lookup id = some row → rows.lookup id' = some row' →
    row.eventType = eventType → row'.eventType = eventType →
    groupKey groupByFields row = groupKey groupByFields row' → store.time row = store.time row' →
    id = id'

/-- The row that is kept of a group is its newest. -/
theorem keepId_eq_iff (hapart : TimesApart store rows eventType groupByFields)
    (hrow : rows.lookup id = some row) (htype : row.eventType = eventType) :
    keepId store rows eventType groupByFields row = some id ↔
      NewestOfGroup store rows eventType groupByFields row := by
  have hmem : (id, row) ∈ matching rows eventType := mem_matching.2 ⟨hrow, htype⟩
  have htime (e : String × ActivityRow) : store.newestFirst.rank e = store.time e.2 := store.rank_eq e
  constructor
  · intro hkeep id' row' hrow' htype' hgroup
    obtain ⟨⟨i, r⟩, hfirst, rfl⟩ := Option.map_eq_some_iff.1 hkeep
    have hr : r = row := by
      have := (mem_matching.1 (store.newestFirst.mem_of_first hfirst).1).1
      exact Option.some.inj (this.symm.trans hrow)
    have hle := store.newestFirst.rank_le_of_first (b := (id', row')) hfirst
      (mem_matching.2 ⟨hrow', htype'⟩) (decide_eq_true hgroup)
    rw [htime, htime] at hle
    exact hr ▸ hle
  · intro hnewest
    obtain ⟨⟨i, r⟩, hfirst⟩ := store.newestFirst.exists_first hmem
      (p := fun e => groupKey groupByFields e.2 = groupKey groupByFields row) (decide_eq_true rfl)
    obtain ⟨hmem', hgroup⟩ := store.newestFirst.mem_of_first hfirst
    obtain ⟨hrow', htype'⟩ := mem_matching.1 hmem'
    have hgroup := of_decide_eq_true hgroup
    have hle := store.newestFirst.rank_le_of_first hfirst hmem (decide_eq_true rfl)
    rw [htime, htime] at hle
    have heq := le_antisymm (hnewest i r hrow' htype' hgroup) hle
    have hid : i = id := hapart i r id row hrow' hrow htype' htype hgroup heq
    rw [keepId, hfirst, ← hid]
    rfl

/-- What is left when the superseded rows are deleted. -/
theorem lookup_purgeSuperseded_iff (hapart : TimesApart store rows eventType groupByFields) :
    (purgeSuperseded store rows eventType groupByFields cutoff).lookup id = some row ↔
      rows.lookup id = some row ∧ (row.eventType = eventType → cutoff ≤ store.time row ∨
        NewestOfGroup store rows eventType groupByFields row) := by
  unfold purgeSuperseded
  rw [Collection.lookup_deleteMany_eq_some]
  refine and_congr_right fun hrow => ?_
  rw [decide_eq_false_iff_not, List.mem_map]
  constructor
  · intro hkept htype
    by_contra hnot
    obtain ⟨hold, hsuperseded⟩ := not_or.1 hnot
    refine hkept ⟨(id, row), List.mem_filter.2 ⟨mem_matching.2 ⟨hrow, htype⟩, ?_⟩, rfl⟩
    rw [Bool.and_eq_true, decide_eq_true_iff, decide_eq_true_iff]
    exact ⟨fun hkeep => hsuperseded ((keepId_eq_iff hapart hrow htype).1 hkeep), not_le.1 hold⟩
  · rintro hkept ⟨⟨i, r⟩, hmem, rfl⟩
    obtain ⟨hmatching, htest⟩ := List.mem_filter.1 hmem
    obtain ⟨hrow', htype⟩ := mem_matching.1 hmatching
    have hr : r = row := Option.some.inj (hrow'.symm.trans hrow)
    subst hr
    rw [Bool.and_eq_true, decide_eq_true_iff, decide_eq_true_iff] at htest
    rcases hkept htype with hyoung | hnewest
    · exact absurd htest.2 (not_lt.2 hyoung)
    · exact htest.1 ((keepId_eq_iff hapart hrow' htype).2 hnewest)

theorem lookup_purgeOlderThan_iff {exclude : List String} :
    (purgeOlderThan store rows cutoff exclude).lookup id = some row ↔
      rows.lookup id = some row ∧ (row.eventType ∉ exclude → cutoff ≤ store.time row) := by
  unfold purgeOlderThan
  rw [Collection.lookup_deleteMany_eq_some]
  refine and_congr_right fun _ => ?_
  rw [Bool.and_eq_false_iff, decide_eq_false_iff_not, decide_eq_false_iff_not, not_lt, not_not]
  tauto

/-- A row is left by a tick if it is young, or the newest update of a version. -/
theorem lookup_retentionTick_iff {retention now : ℤ}
    (hapart : TimesApart store rows "FunctionUpdated" ["function_id", "version"]) :
    (retentionTick store retention now rows).lookup id = some row ↔
      rows.lookup id = some row ∧ (now - retention ≤ store.time row ∨
        row.eventType = "FunctionUpdated" ∧
          NewestOfGroup store rows "FunctionUpdated" ["function_id", "version"] row) := by
  have hkeeps (id' : String) (row' : ActivityRow) (htype : row'.eventType = "FunctionUpdated") :
      (purgeOlderThan store rows (now - retention) ["FunctionUpdated"]).lookup id' = some row' ↔
        rows.lookup id' = some row' := by
    rw [lookup_purgeOlderThan_iff]
    exact and_iff_left fun hnot => absurd (List.mem_singleton.2 htype) hnot
  have hapart' : TimesApart store (purgeOlderThan store rows (now - retention) ["FunctionUpdated"])
      "FunctionUpdated" ["function_id", "version"] := fun i r i' r' hi hi' ht ht' =>
    hapart i r i' r' ((hkeeps i r ht).1 hi) ((hkeeps i' r' ht').1 hi') ht ht'
  have hnewest : NewestOfGroup store (purgeOlderThan store rows (now - retention) ["FunctionUpdated"])
      "FunctionUpdated" ["function_id", "version"] row ↔
      NewestOfGroup store rows "FunctionUpdated" ["function_id", "version"] row :=
    forall_congr' fun i => forall_congr' fun r =>
      ⟨fun h hr ht => h ((hkeeps i r ht).2 hr) ht, fun h hr ht => h ((hkeeps i r ht).1 hr) ht⟩
  show (purgeSuperseded store (purgeOlderThan store rows (now - retention) ["FunctionUpdated"])
    "FunctionUpdated" ["function_id", "version"] (now - retention)).lookup id = some row ↔ _
  rw [lookup_purgeSuperseded_iff hapart', lookup_purgeOlderThan_iff, hnewest, and_assoc,
    List.mem_singleton]
  refine and_congr_right fun _ => ?_
  tauto

end Tick

/-! ### The rows of events -/

/-- The version of a function that an update is of. -/
def DomainEvent.updatedVersion? (event : DomainEvent) : Option (String × ℤ) :=
  match event.body with
  | .function functionId version (.updated _ _) => some (functionId, version)
  | _ => none

/-- No event has a field of its own of this name. -/
def Foreign (key : String) : Prop := ∀ body : EventBody, body.fields.lookup key = none

theorem lookup_append_of_none {α β : Type*} [BEq α] {l l' : List (α × β)} {a : α}
    (h : l.lookup a = none) : (l ++ l').lookup a = l'.lookup a := by
  rw [List.lookup_append, h, Option.none_or]

theorem foreign_of_mem {key : String} (h : key ∈ ["created_at", "endpoint_id"]) : Foreign key := by
  have hkey : key = "created_at" ∨ key = "endpoint_id" := by simpa using h
  intro body
  cases body with
  | endpoint payload => rcases hkey with rfl | rfl <;> cases payload <;> rfl
  | function functionId version payload => rcases hkey with rfl | rfl <;> cases payload <;> rfl
  | functionBuild functionId pythonVersion imageTag payload =>
    rcases hkey with rfl | rfl <;> cases payload <;> rfl
  | consensus term payload => rcases hkey with rfl | rfl <;> cases payload <;> rfl
  | job jobId functionId payload => rcases hkey with rfl | rfl <;> cases payload <;> rfl
  | data name payload => rcases hkey with rfl | rfl <;> cases payload <;> rfl
  | userProfile payload => rcases hkey with rfl | rfl <;> cases payload <;> rfl
  | virtualEnv id payload => rcases hkey with rfl | rfl <;> cases payload <;> rfl
  | choreography id payload => rcases hkey with rfl | rfl <;> cases payload <;> rfl
  | _ => rcases hkey with rfl | rfl <;> rfl

section Rows

variable {store : ActivityStore} {event : DomainEvent} {key : String × ℤ}

theorem time_activityRow :
    store.time (activityRow event) = store.instant event.envelope.createdAt := by
  have hcreated : (activityRow event).createdAt = some (.str event.envelope.createdAt) := by
    show (event.body.fields ++ event.envelope.fields).lookup "created_at" = _
    rw [lookup_append_of_none (foreign_of_mem (by simp) event.body)]
    rfl
  rw [ActivityStore.time, hcreated]

theorem endpointId_activityRow :
    (activityRow event).endpointId = some (optional .str event.envelope.endpointId) := by
  show (event.body.fields ++ event.envelope.fields).lookup "endpoint_id" = _
  rw [lookup_append_of_none (foreign_of_mem (by simp) event.body)]
  rfl

theorem eventType_eq_updated_iff :
    (activityRow event).eventType = "FunctionUpdated" ↔ ∃ key, event.updatedVersion? = some key := by
  obtain ⟨envelope, body⟩ := event
  have hother (htype : (body.eventType == "FunctionUpdated") = false)
      (hnone : DomainEvent.updatedVersion? ⟨envelope, body⟩ = none) :
      body.eventType = "FunctionUpdated" ↔
        ∃ key, DomainEvent.updatedVersion? ⟨envelope, body⟩ = some key :=
    iff_of_false (ne_of_beq_false htype) fun ⟨key, hkey⟩ => by rw [hnone] at hkey; cases hkey
  show body.eventType = "FunctionUpdated" ↔ _
  cases body with
  | endpoint payload => cases payload <;> exact hother rfl rfl
  | function functionId version payload =>
    cases payload with
    | updated paramsSchema envVars => exact iff_of_true rfl ⟨(functionId, version), rfl⟩
    | _ => exact hother rfl rfl
  | functionBuild functionId pythonVersion imageTag payload =>
    cases payload <;> exact hother rfl rfl
  | consensus term payload => cases payload <;> exact hother rfl rfl
  | job jobId functionId payload => cases payload <;> exact hother rfl rfl
  | data name payload => cases payload <;> exact hother rfl rfl
  | userProfile payload => cases payload <;> exact hother rfl rfl
  | virtualEnv id payload => cases payload <;> exact hother rfl rfl
  | choreography id payload => cases payload <;> exact hother rfl rfl
  | _ => exact hother rfl rfl

theorem groupKey_activityRow (h : event.updatedVersion? = some key) :
    groupKey ["function_id", "version"] (activityRow event) =
      [some (.str key.1), some (.int key.2)] := by
  obtain ⟨envelope, body⟩ := event
  cases body with
  | function functionId version payload =>
    cases payload with
    | updated paramsSchema envVars =>
      cases h
      rfl
    | _ => cases h
  | _ => cases h

/-- The groups of updates are the versions. -/
theorem groupKey_eq_iff {event' : DomainEvent} {key' : String × ℤ}
    (h : event.updatedVersion? = some key) (h' : event'.updatedVersion? = some key') :
    groupKey ["function_id", "version"] (activityRow event) =
      groupKey ["function_id", "version"] (activityRow event') ↔ key = key' := by
  rw [groupKey_activityRow h, groupKey_activityRow h']
  simp [Prod.ext_iff]

end Rows

/-! ### After any deliveries and ticks -/

section Acts

variable {store : ActivityStore} {retention now : ℤ} {acts : List ActivityAct}
  {event event' : DomainEvent}

/-- An update as late as any of its version among those delivered. -/
def NewestUpdate (store : ActivityStore) (acts : List ActivityAct) (event : DomainEvent) : Prop :=
  ∃ key, event.updatedVersion? = some key ∧ ∀ event', .deliver event' ∈ acts →
    event'.updatedVersion? = some key →
      store.instant event'.envelope.createdAt ≤ store.instant event.envelope.createdAt

/-- The event was delivered, and at every tick since then it was young, or the newest update of its
version so far. -/
def Kept (store : ActivityStore) (retention : ℤ) (acts : List ActivityAct) (event : DomainEvent) :
    Prop :=
  ∃ before after, acts = before ++ .deliver event :: after ∧
    ∀ between now rest, after = between ++ .tick now :: rest →
      now - retention ≤ store.instant event.envelope.createdAt ∨
        NewestUpdate store (before ++ .deliver event :: between) event

/-- An event keeps its id and its fields when it is delivered again, and the updates of a version
have times of their own. -/
structure WellDated (store : ActivityStore) (acts : List ActivityAct) : Prop where
  ids : ∀ event event', .deliver event ∈ acts → .deliver event' ∈ acts →
    event.envelope.eventId = event'.envelope.eventId → event = event'
  times : ∀ event event' key, .deliver event ∈ acts → .deliver event' ∈ acts →
    event.updatedVersion? = some key → event'.updatedVersion? = some key →
    store.instant event.envelope.createdAt = store.instant event'.envelope.createdAt →
    event = event'

theorem Kept.delivered (h : Kept store retention acts event) : .deliver event ∈ acts := by
  obtain ⟨before, after, rfl, -⟩ := h
  exact List.mem_append_right before List.mem_cons_self

theorem WellDated.mono {acts' : List ActivityAct} (h : WellDated store acts) (hsub : acts' ⊆ acts) :
    WellDated store acts' :=
  ⟨fun e e' he he' => h.ids e e' (hsub he) (hsub he'),
    fun e e' key he he' => h.times e e' key (hsub he) (hsub he')⟩

theorem NewestUpdate.mono {acts' : List ActivityAct} (h : NewestUpdate store acts event)
    (hsub : acts' ⊆ acts) : NewestUpdate store acts' event := by
  obtain ⟨key, hkey, hnewest⟩ := h
  exact ⟨key, hkey, fun e he => hnewest e (hsub he)⟩

theorem kept_concat_deliver :
    Kept store retention (acts ++ [.deliver event']) event ↔
      event = event' ∨ Kept store retention acts event := by
  constructor
  · rintro ⟨before, after, hacts, hticks⟩
    rcases List.eq_nil_or_concat' after with rfl | ⟨after, last, rfl⟩
    · left
      have := List.append_inj_right' hacts rfl
      injection this with hdeliver
      injection hdeliver with heq
      exact heq.symm
    · right
      rw [← List.cons_append, ← List.append_assoc] at hacts
      have hlast := List.append_inj' hacts rfl
      refine ⟨before, after, hlast.1, fun between now rest hafter => ?_⟩
      exact hticks between now (rest ++ [last]) (by rw [hafter]; simp)
  · rintro (rfl | ⟨before, after, rfl, hticks⟩)
    · exact ⟨acts, [], rfl, fun between now rest h => by simp at h⟩
    · refine ⟨before, after ++ [.deliver event'], by simp, fun between now rest hafter => ?_⟩
      rcases List.eq_nil_or_concat' rest with rfl | ⟨rest, last, rfl⟩
      · have := List.append_inj_right' hafter rfl
        cases this
      · rw [← List.cons_append, ← List.append_assoc] at hafter
        exact hticks between now rest (List.append_inj' hafter rfl).1

theorem kept_concat_tick :
    Kept store retention (acts ++ [.tick now]) event ↔
      Kept store retention acts event ∧
        (now - retention ≤ store.instant event.envelope.createdAt ∨
          NewestUpdate store acts event) := by
  constructor
  · rintro ⟨before, after, hacts, hticks⟩
    rcases List.eq_nil_or_concat' after with rfl | ⟨after, last, rfl⟩
    · have := List.append_inj_right' hacts rfl
      cases this
    · rw [← List.cons_append, ← List.append_assoc] at hacts
      obtain ⟨rfl, hlast⟩ := List.append_inj' hacts rfl
      cases hlast
      refine ⟨⟨before, after, rfl, fun between now' rest hafter => ?_⟩, hticks after now [] rfl⟩
      exact hticks between now' (rest ++ [.tick now]) (by rw [hafter]; simp)
  · rintro ⟨⟨before, after, rfl, hticks⟩, hnow⟩
    refine ⟨before, after ++ [.tick now], by simp, fun between now' rest hafter => ?_⟩
    rcases List.eq_nil_or_concat' rest with rfl | ⟨rest, last, rfl⟩
    · obtain ⟨rfl, htick⟩ := List.append_inj' hafter rfl
      cases htick
      exact hnow
    · rw [← List.cons_append, ← List.append_assoc] at hafter
      exact hticks between now' rest (List.append_inj' hafter rfl).1

/-- The newest update of a version is never deleted. -/
theorem kept_of_newest (hdelivered : .deliver event ∈ acts) (h : NewestUpdate store acts event) :
    Kept store retention acts event := by
  obtain ⟨before, after, rfl⟩ := List.append_of_mem hdelivered
  refine ⟨before, after, rfl, fun between now rest hafter => Or.inr (h.mono ?_)⟩
  rw [hafter, ← List.cons_append, ← List.append_assoc]
  exact List.subset_append_left _ _

/-- Among the updates of a version that were delivered there is a newest. -/
theorem exists_newestUpdate (store : ActivityStore) {key : String × ℤ} (hdelivered : .deliver event ∈ acts)
    (hkey : event.updatedVersion? = some key) :
    ∃ newest, .deliver newest ∈ acts ∧ newest.updatedVersion? = some key ∧
      NewestUpdate store acts newest := by
  let updates := acts.filterMap fun
    | .deliver e => if e.updatedVersion? = some key then some e else none
    | .tick _ => none
  have hmem (e : DomainEvent) : e ∈ updates ↔ .deliver e ∈ acts ∧ e.updatedVersion? = some key := by
    rw [List.mem_filterMap]
    constructor
    · rintro ⟨e' | now, hact, he⟩
      · dsimp only at he
        split_ifs at he with hkey'
        cases he
        exact ⟨hact, hkey'⟩
      · cases he
    · rintro ⟨hact, hkey'⟩
      exact ⟨.deliver e, hact, if_pos hkey'⟩
  let time (e : DomainEvent) : ℤ := store.instant e.envelope.createdAt
  rcases hmax : updates.argmax time with - | newest
  · have := List.argmax_eq_none.1 hmax
    have hevent := (hmem event).2 ⟨hdelivered, hkey⟩
    rw [this] at hevent
    cases hevent
  · obtain ⟨hnewest, hversion⟩ := (hmem newest).1 (List.argmax_mem hmax)
    exact ⟨newest, hnewest, hversion, key, hversion, fun e he hkey' =>
      List.le_of_mem_argmax (f := time) ((hmem e).2 ⟨he, hkey'⟩) hmax⟩

/-- The rows are those of the events that are kept. -/
def RowsOf (store : ActivityStore) (retention : ℤ) (acts : List ActivityAct)
    (rows : Collection String ActivityRow) : Prop :=
  ∀ id row, rows.lookup id = some row ↔
    ∃ event, Kept store retention acts event ∧ event.envelope.eventId = id ∧ activityRow event = row

section RowsOf

variable {rows : Collection String ActivityRow} {key : String × ℤ}

theorem RowsOf.timesApart (hrows : RowsOf store retention acts rows) (h : WellDated store acts) :
    TimesApart store rows "FunctionUpdated" ["function_id", "version"] := by
  intro id row id' row' hrow hrow' htype htype' hgroup htime
  obtain ⟨event, hkept, rfl, rfl⟩ := (hrows id row).1 hrow
  obtain ⟨event', hkept', rfl, rfl⟩ := (hrows id' row').1 hrow'
  obtain ⟨key, hkey⟩ := eventType_eq_updated_iff.1 htype
  obtain ⟨key', hkey'⟩ := eventType_eq_updated_iff.1 htype'
  obtain rfl := (groupKey_eq_iff hkey hkey').1 hgroup
  rw [time_activityRow, time_activityRow] at htime
  rw [h.times event event' key hkept.delivered hkept'.delivered hkey hkey' htime]

/-- The newest of the rows that are left is the newest of those that were ever delivered. -/
theorem RowsOf.newest_iff (hrows : RowsOf store retention acts rows)
    (hkey : event.updatedVersion? = some key) :
    NewestOfGroup store rows "FunctionUpdated" ["function_id", "version"] (activityRow event) ↔
      NewestUpdate store acts event := by
  constructor
  · intro hnewest
    refine ⟨key, hkey, fun event' hevent' hkey' => ?_⟩
    obtain ⟨newest, hmem, hversion, hupdate⟩ := exists_newestUpdate store hevent' hkey'
    have hrow := (hrows _ _).2 ⟨newest, kept_of_newest hmem hupdate, rfl, rfl⟩
    have hle := hnewest _ _ hrow (eventType_eq_updated_iff.2 ⟨key, hversion⟩)
      ((groupKey_eq_iff hversion hkey).2 rfl)
    rw [time_activityRow, time_activityRow] at hle
    obtain ⟨key', hversion', hlatest⟩ := hupdate
    cases hversion.symm.trans hversion'
    exact (hlatest event' hevent' hkey').trans hle
  · rintro ⟨key', hkey', hlatest⟩ id' row' hrow' htype hgroup
    cases hkey.symm.trans hkey'
    obtain ⟨event', hkept, rfl, rfl⟩ := (hrows id' row').1 hrow'
    obtain ⟨key', hkey''⟩ := eventType_eq_updated_iff.1 htype
    obtain rfl := (groupKey_eq_iff hkey'' hkey).1 hgroup
    rw [time_activityRow, time_activityRow]
    exact hlatest event' hkept.delivered hkey''

end RowsOf

/-- The log after any deliveries and ticks: the row of an event is there exactly when, at every tick
since one of its deliveries, the event was young or the newest update of its version so far. -/
theorem lookup_afterActs_iff (h : WellDated store acts) {id : String} {row : ActivityRow} :
    (afterActs store retention acts).lookup id = some row ↔
      ∃ event, Kept store retention acts event ∧ event.envelope.eventId = id ∧
        activityRow event = row := by
  induction acts using List.reverseRecOn generalizing id row with
  | nil =>
    refine iff_of_false (by simp [afterActs]) ?_
    rintro ⟨event, hkept, -⟩
    cases hkept.delivered
  | append_singleton acts act ih =>
    have hbefore := h.mono (List.subset_append_left acts [act])
    have hrows : RowsOf store retention acts (afterActs store retention acts) :=
      fun id row => @ih hbefore id row
    have hstep : afterActs store retention (acts ++ [act]) =
        act.apply store retention (afterActs store retention acts) := by
      unfold afterActs
      rw [List.foldl_append]
      rfl
    rw [hstep]
    cases act with
    | deliver event' =>
      have hdelivered : .deliver event' ∈ acts ++ [ActivityAct.deliver event'] :=
        List.mem_append_right acts List.mem_cons_self
      simp only [kept_concat_deliver]
      by_cases hid : id = event'.envelope.eventId
      · subst hid
        show (record _ event').lookup _ = some row ↔ _
        rw [record, Collection.lookup_upsert]
        constructor
        · intro hrow
          exact ⟨event', Or.inl rfl, rfl, Option.some.inj hrow⟩
        · rintro ⟨event, rfl | hkept, hid, rfl⟩
          · rfl
          · rw [h.ids event event' (List.mem_append_left _ hkept.delivered) hdelivered hid]
      · show (record _ event').lookup id = some row ↔ _
        rw [record, Collection.lookup_upsert_ne hid, hrows id row]
        refine exists_congr fun event => and_congr_left fun ⟨hevent, _⟩ => ?_
        refine ⟨Or.inr, fun hor => hor.resolve_left fun heq => ?_⟩
        exact hid (hevent ▸ heq ▸ rfl)
    | tick now =>
      simp only [kept_concat_tick]
      show (retentionTick store retention now _).lookup id = some row ↔ _
      rw [lookup_retentionTick_iff (hrows.timesApart hbefore), hrows id row]
      constructor
      · rintro ⟨⟨event, hkept, hid, rfl⟩, hleft⟩
        refine ⟨event, ⟨hkept, hleft.imp (fun hyoung => time_activityRow ▸ hyoung) ?_⟩, hid, rfl⟩
        rintro ⟨htype, hnewest⟩
        obtain ⟨key, hkey⟩ := eventType_eq_updated_iff.1 htype
        exact (hrows.newest_iff hkey).1 hnewest
      · rintro ⟨event, ⟨hkept, hleft⟩, hid, rfl⟩
        refine ⟨⟨event, hkept, hid, rfl⟩, hleft.imp (fun hyoung => time_activityRow ▸ hyoung) ?_⟩
        intro hnewest
        have ⟨key, hkey, _⟩ := hnewest
        exact ⟨eventType_eq_updated_iff.2 ⟨key, hkey⟩,
          (hrows.newest_iff hkey).2 hnewest⟩

end Acts

/-- An order for the query: that of an insertion sort. -/
def insertionStore (instant : String → ℤ) : ActivityStore where
  instant := instant
  newestFirst := Ranking.insertion fun e =>
    match e.2.createdAt with
    | some (.str text) => instant text
    | _ => 0
  rank_eq := fun _ => rfl

/-- An update of a function. -/
def updateAt (eventId createdAt : String) : DomainEvent where
  envelope := { eventId := eventId, createdAt := createdAt }
  body := .function "f" 1 (.updated none none)

/-- The instants of the first two seconds of 2024. -/
def secondOf2024 (text : String) : ℤ :=
  if text = "2024-01-01T00:00:00Z" then 1704067200000 else 1704067201000

/-- Two updates a second apart, and a tick an hour later. -/
theorem lookup_afterActs_iff_updates :
    let store := insertionStore secondOf2024
    let acts := [.deliver (updateAt "e1" "2024-01-01T00:00:00Z"),
      .deliver (updateAt "e2" "2024-01-01T00:00:01Z"), .tick 1704070800000]
    let row := activityRow (updateAt "e1" "2024-01-01T00:00:00Z")
    (afterActs store 10 acts).lookup "e1" = some row ↔
      ∃ event, Kept store 10 acts event ∧ event.envelope.eventId = "e1" ∧
        activityRow event = row := by
  refine lookup_afterActs_iff ⟨?_, ?_⟩
  · intro event event' h h' hid
    simp only [List.mem_cons, ActivityAct.deliver.injEq, reduceCtorEq, List.not_mem_nil,
      or_false] at h h'
    rcases h with rfl | rfl <;> rcases h' with rfl | rfl
    · rfl
    · exact absurd hid (by decide)
    · exact absurd hid (by decide)
    · rfl
  · intro event event' key h h' _ _ htime
    simp only [List.mem_cons, ActivityAct.deliver.injEq, reduceCtorEq, List.not_mem_nil,
      or_false] at h h'
    rcases h with rfl | rfl <;> rcases h' with rfl | rfl
    · rfl
    · exact absurd htime (by decide)
    · exact absurd htime (by decide)
    · rfl

/-! ### The purge of a version of a function -/

/-- The log of activity as it may become: by events, by ticks of the worker and by purges. -/
inductive Logged (store : ActivityStore) (retention : ℤ) : Collection String ActivityRow → Prop
  | empty : Logged store retention ∅
  | record {rows : Collection String ActivityRow} (h : Logged store retention rows)
      (event : DomainEvent) : Logged store retention (record rows event)
  | tick {rows : Collection String ActivityRow} (h : Logged store retention rows) (now : ℤ) :
      Logged store retention (retentionTick store retention now rows)
  | purge {rows : Collection String ActivityRow} (h : Logged store retention rows)
      (filter : PurgeFilter) : Logged store retention (purge rows filter).1

section Purge

variable {store : ActivityStore} {retention : ℤ} {rows : Collection String ActivityRow} {id : String}
  {row : ActivityRow}

theorem foreign_functionVersion : Foreign "function_version" := by
  intro body
  cases body with
  | endpoint payload => cases payload <;> rfl
  | function functionId version payload => cases payload <;> rfl
  | functionBuild functionId pythonVersion imageTag payload => cases payload <;> rfl
  | consensus term payload => cases payload <;> rfl
  | job jobId functionId payload => cases payload <;> rfl
  | data name payload => cases payload <;> rfl
  | userProfile payload => cases payload <;> rfl
  | virtualEnv id payload => cases payload <;> rfl
  | choreography id payload => cases payload <;> rfl
  | _ => rfl

theorem lookup_filter_of_none {α β : Type*} [BEq α] {l : List (α × β)} {a : α} (p : α × β → Bool)
    (h : l.lookup a = none) : (l.filter p).lookup a = none := by
  rw [List.lookup_eq_none_iff] at h ⊢
  exact fun e he => h e (List.mem_filter.1 he).1

/-- No row has a field `meta.function_version`. -/
theorem metaFields_functionVersion (event : DomainEvent) :
    (activityRow event).metaFields.lookup "function_version" = none := by
  refine lookup_filter_of_none _ ?_
  show (event.body.fields ++ event.envelope.fields).lookup "function_version" = none
  rw [lookup_append_of_none (foreign_functionVersion event.body)]
  rfl

/-- What a purge or a tick leaves was there before. -/
theorem lookup_of_lookup_retentionTick {now : ℤ}
    (h : (retentionTick store retention now rows).lookup id = some row) :
    rows.lookup id = some row := by
  unfold retentionTick supersedableGroups purgeSuperseded purgeOlderThan at h
  rw [List.foldl_cons, List.foldl_nil] at h
  exact (Collection.lookup_deleteMany_eq_some.1 (Collection.lookup_deleteMany_eq_some.1 h).1).1

/-- Every row is that of an event. -/
theorem Logged.exists_event (h : Logged store retention rows) (hrow : rows.lookup id = some row) :
    ∃ event, activityRow event = row := by
  induction h with
  | empty => cases hrow
  | @record rows _ event ih =>
    by_cases hid : id = event.envelope.eventId
    · rw [Projector.record, hid, Collection.lookup_upsert] at hrow
      exact ⟨event, Option.some.inj hrow⟩
    · rw [Projector.record, Collection.lookup_upsert_ne hid] at hrow
      exact ih hrow
  | tick _ now ih => exact ih (lookup_of_lookup_retentionTick hrow)
  | purge _ filter ih => exact ih (Collection.lookup_deleteMany_eq_some.1 hrow).1

/-- The purge of a version of a function deletes no row, whatever has been logged: what the events
call `version` is looked for as `function_version`. -/
theorem purge_functionVersion (h : Logged store retention rows) (functionId : String) (version : ℤ) :
    purge rows { functionId := some functionId, functionVersion := some version } = (rows, 0) := by
  have hnone : ∀ id row, rows.lookup id = some row → PurgeFilter.selects
      { functionId := some functionId, functionVersion := some version } row = false := by
    intro id row hrow
    obtain ⟨event, rfl⟩ := h.exists_event hrow
    simp [PurgeFilter.selects, metaFields_functionVersion event]
  refine Prod.ext (Collection.deleteMany_eq_self hnone) (List.countP_eq_zero.2 ?_)
  rintro ⟨i, r⟩ hmem htest
  exact Bool.false_ne_true ((hnone i r (Collection.mem_rows.1 hmem)).symm.trans htest)

/-- An update of the function has been logged. -/
theorem purge_functionVersion_update :
    purge (record ∅ (updateAt "e1" "2024-01-01T00:00:00Z"))
        { functionId := some "f", functionVersion := some 1 } =
      (record ∅ (updateAt "e1" "2024-01-01T00:00:00Z"), 0) := by
  have hlogged : Logged (insertionStore secondOf2024) 0
      (record ∅ (updateAt "e1" "2024-01-01T00:00:00Z")) :=
    .record .empty (updateAt "e1" "2024-01-01T00:00:00Z")
  exact purge_functionVersion hlogged "f" 1

end Purge

end Axo.Projector
