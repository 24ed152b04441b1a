import Axo.Lib.Dict
import Axo.Lib.Rotation
import Axo.Lib.Transition
import Mathlib.Data.List.Dedup
import Mathlib.Data.Rat.Defs
import Mathlib.Algebra.Order.Ring.Rat

/-!
# The sweep over the job results

`ResultConsistencyStore` and `ResultConsistencySweeper` of `core/consensus/result_consistency.py`
step by step.  What the one thread that is syncing does between two accesses to a lock, and each call
of `reverify_fn`, is a step of its own; the store grows and single checks are requested at any moment
between them.

* `step` is one call from outside or one step of the syncing thread;
* `SweepStep` and `SweepPass` record what a step of the sweep, and a manual pass, found and did;
* `Follows` says that each of a number of steps begins where the one before it left off;
* `SweepPass.ComesTo` says in which cases the steps of a pass come to all that was known, and
  `SweepPass.Ended.verifies_iff` that it verifies all exactly then.
-/

namespace Axo

open Transition Rotation

/-- `state[job_id] = value`; a key that is there keeps its place. -/
def setEntry (state : List (String × String)) (jobId value : String) : List (String × String) :=
  if jobId ∈ state.map Prod.fst then
    state.map fun entry => if entry.1 = jobId then (jobId, value) else entry
  else
    state ++ [(jobId, value)]

theorem keys_setEntry (state : List (String × String)) (jobId value : String) :
    (setEntry state jobId value).map Prod.fst =
      if jobId ∈ state.map Prod.fst then state.map Prod.fst else state.map Prod.fst ++ [jobId] := by
  unfold setEntry
  split_ifs
  · rw [List.map_map]
    refine List.map_congr_left fun entry _ => ?_
    by_cases h : entry.1 = jobId
    · simp [h]
    · simp [h]
  · simp

theorem nodup_keys_setEntry {state : List (String × String)} (h : (state.map Prod.fst).Nodup)
    (jobId value : String) : ((setEntry state jobId value).map Prod.fst).Nodup := by
  rw [keys_setEntry]
  split_ifs with hmem
  · exact h
  · rw [List.nodup_append]
    refine ⟨h, List.nodup_singleton _, fun a ha b hb hab => hmem ?_⟩
    rwa [← List.mem_singleton.1 hb, ← hab]

/-- `_state`, with its keys in the order in which they were added, and `_hash`. -/
structure ResultConsistencyStore where
  state : List (String × String)
  hash : Dict String String
  nodup : (state.map Prod.fst).Nodup

namespace ResultConsistencyStore

/-- `ResultConsistencyStore()` -/
def empty : ResultConsistencyStore := ⟨[], ∅, List.nodup_nil⟩

/-- `all_job_ids` -/
def allJobIds (store : ResultConsistencyStore) : List String := store.state.map Prod.fst

/-- `mark_synced` -/
def markSynced (store : ResultConsistencyStore) (jobId resultHash : String) :
    ResultConsistencyStore :=
  { state := setEntry store.state jobId "synced"
    hash := store.hash.insert jobId resultHash
    nodup := nodup_keys_setEntry store.nodup jobId "synced" }

/-- `mark_inconsistent` -/
def markInconsistent (store : ResultConsistencyStore) (jobId : String) : ResultConsistencyStore :=
  { state := setEntry store.state jobId "inconsistent"
    hash := store.hash
    nodup := nodup_keys_setEntry store.nodup jobId "inconsistent" }

end ResultConsistencyStore

/-- `list(dict.fromkeys(xs))`: each element once, where it occurs first. -/
def fromKeys (xs : List String) : List String := xs.reverse.dedup.reverse

/-- What a step reads: `all_job_ids()`, and the cursor. -/
structure ListRead where
  ids : List String
  cursor : ℕ

namespace ListRead

/-- `batch` -/
def batch (chunkSize : ℕ) (r : ListRead) : List String :=
  let n := r.ids.length
  let start := r.cursor % n
  (List.range (min chunkSize n)).filterMap fun i => r.ids[(start + i) % n]?

/-- The cursor that the step leaves. -/
def nextCursor (chunkSize : ℕ) (r : ListRead) : ℕ :=
  if r.ids = [] then r.cursor
  else (r.cursor % r.ids.length + (r.batch chunkSize).length) % r.ids.length

end ListRead

/-- One step of the sweep: the priority checks it took, what it read, and the calls of `reverify_fn`
it made. -/
structure SweepStep where
  priority : List String
  read : ListRead
  verified : List String := []

/-- `targets` -/
def SweepStep.targets (chunkSize : ℕ) (st : SweepStep) : List String :=
  fromKeys (st.priority ++ st.read.batch chunkSize)

/-- How far the current `_run_step` is. -/
inductive StepStage
  | ready
  /-- the priority list was taken -/
  | drained (priority : List String)
  /-- which targets are left -/
  | verifying (st : SweepStep) (left : List String)

/-- The priority checks that the current step has taken. -/
def StepStage.taken : StepStage → Option (List String)
  | .ready => none
  | .drained priority => some priority
  | .verifying st _ => some st.priority

/-- What the current step has read. -/
def StepStage.read : StepStage → Option ListRead
  | .ready | .drained _ => none
  | .verifying st _ => some st.read

/-- What is syncing: a periodic step, or a manual pass with the ids known when it was started, the
number of steps left once it has counted, and the steps done. -/
inductive SyncRun
  | periodic
  | manual (known : List String) (left : Option ℕ) (done : List SweepStep)

/-- The thread for which `_syncing` is set. -/
structure SyncProcess where
  run : SyncRun
  stage : StepStage

/-- A manual pass that has ended. -/
structure SweepPass where
  known : List String
  steps : List SweepStep

/-- `ResultConsistencySweeper` and its store; `steps`, `passes` and `requests` record the steps and
passes that have ended, and each requested id with the number of steps begun by then. -/
structure ConsistencySweeper where
  store : ResultConsistencyStore
  chunkSize : ℕ
  cursor : ℕ
  priority : List String
  lastRunAt : Option ℚ
  process : Option SyncProcess
  steps : List SweepStep
  passes : List SweepPass
  requests : List (String × ℕ)

/-- A call from outside, or a step of the syncing thread. -/
inductive SweepAct
  | markSynced (jobId resultHash : String)
  | markInconsistent (jobId : String)
  | requestPriorityCheck (jobId : String)
  | maybeRunPeriodic (now intervalSeconds : ℚ)
  | startManualSync
  | advance

namespace ConsistencySweeper

/-- `ResultConsistencySweeper(consistency_store, reverify_fn, chunk_size)`, with its cursor
anywhere. -/
def init (store : ResultConsistencyStore) (chunkSize : ℤ) (cursor : ℕ) : ConsistencySweeper :=
  { store := store
    chunkSize := (max 1 chunkSize).toNat
    cursor := cursor
    priority := []
    lastRunAt := none
    process := none
    steps := []
    passes := []
    requests := [] }

variable (s : ConsistencySweeper)

/-- The priority lists that the steps so far have taken. -/
def drained : List (List String) :=
  s.steps.map SweepStep.priority ++ (s.process.bind fun process => process.stage.taken).toList

/-- How many steps have begun. -/
def begun : ℕ := s.drained.length

/-- Fewer than `intervalSeconds` have passed since the last periodic run. -/
def notDue (now intervalSeconds : ℚ) : Bool :=
  s.lastRunAt.any fun last => now - last < intervalSeconds

/-- A step of `_run_manual_pass` before its loop, or at the head of it. -/
def nextStep (known : List String) (left : Option ℕ) (done : List SweepStep) :
    ConsistencySweeper :=
  match left with
  | none =>
    let total := s.store.allJobIds.length
    let steps := max 1 (total / s.chunkSize + 1)
    { s with process := some ⟨.manual known (some steps) done, .ready⟩ }
  | some 0 => { s with process := none, passes := s.passes ++ [⟨known, done⟩] }
  | some (left + 1) =>
    { s with
      process := some ⟨.manual known (some (left + 1)) done, .drained s.priority⟩
      priority := [] }

/-- A step of `_run_step` has ended. -/
def endStep (st : SweepStep) : SyncRun → ConsistencySweeper
  | .periodic => { s with process := none, steps := s.steps ++ [st] }
  | .manual known left done =>
    { s with
      process := some ⟨.manual known (left.map Nat.pred) (done ++ [st]), .ready⟩
      steps := s.steps ++ [st] }

/-- The next step of the syncing thread. -/
def progress (run : SyncRun) : StepStage → ConsistencySweeper
  | .ready =>
    match run with
    | .periodic => { s with process := some ⟨.periodic, .drained s.priority⟩, priority := [] }
    | .manual known left done => s.nextStep known left done
  | .drained priority =>
    let st : SweepStep :=
      { priority := priority, read := { ids := s.store.allJobIds, cursor := s.cursor } }
    { s with
      process := some ⟨run, .verifying st (st.targets s.chunkSize)⟩
      cursor := st.read.nextCursor s.chunkSize }
  | .verifying st (jobId :: left) =>
    { s with
      process := some ⟨run, .verifying { st with verified := st.verified ++ [jobId] } left⟩ }
  | .verifying st [] => s.endStep st run

/-- One step. -/
def step (s : ConsistencySweeper) : SweepAct → Option ConsistencySweeper
  | .markSynced jobId resultHash => some { s with store := s.store.markSynced jobId resultHash }
  | .markInconsistent jobId => some { s with store := s.store.markInconsistent jobId }
  | .requestPriorityCheck jobId =>
    some { s with
      priority := if jobId ∈ s.priority then s.priority else s.priority ++ [jobId]
      requests := s.requests ++ [(jobId, s.begun)] }
  | .maybeRunPeriodic now intervalSeconds =>
    if s.process.isSome = true ∨ s.notDue now intervalSeconds = true then
      some s
    else
      some { s with lastRunAt := some now, process := some ⟨.periodic, .ready⟩ }
  | .startManualSync =>
    if s.process.isSome then
      some s
    else
      some { s with process := some ⟨.manual s.store.allJobIds none [], .ready⟩ }
  | .advance => s.process.map fun process => s.progress process.run process.stage

end ConsistencySweeper

/-- The keys only grow, at the end. -/
theorem keys_prefix_setEntry (state : List (String × String)) (jobId value : String) :
    state.map Prod.fst <+: (setEntry state jobId value).map Prod.fst := by
  rw [keys_setEntry]
  split_ifs
  · exact List.prefix_refl _
  · exact List.prefix_append _ _

theorem nodup_fromKeys (xs : List String) : (fromKeys xs).Nodup :=
  List.nodup_reverse.2 (List.nodup_dedup _)

@[simp] theorem mem_fromKeys {x : String} {xs : List String} : x ∈ fromKeys xs ↔ x ∈ xs := by
  simp [fromKeys]

/-! ### What a number of steps read -/

section reads

variable {c p cursor i : ℕ} {known ids ids' : List String} {rs rs' : List ListRead} {id : String}

theorem length_batch (r : ListRead) : (r.batch c).length = min c r.ids.length := by
  have hsome (i : ℕ) (hi : i ∈ List.range (min c r.ids.length)) :
      (r.ids[(r.cursor % r.ids.length + i) % r.ids.length]?).isSome = true := by
    have hpos : 0 < r.ids.length := by
      have := List.mem_range.1 hi
      omega
    simp [Nat.mod_lt _ hpos]
  rw [ListRead.batch, List.length_filterMap_eq_countP, List.countP_eq_length.2 hsome,
    List.length_range]

/-- What is passed to the next step is where the next turn begins. -/
theorem nextCursor_eq (r : ListRead) (h : 0 < r.ids.length) :
    r.nextCursor c = afterTurn c r.ids.length (r.cursor % r.ids.length) := by
  rw [ListRead.nextCursor, if_neg (List.ne_nil_of_length_pos h), length_batch, afterTurn]

/-- The id at a position is in the batch when the position is one of the turn. -/
theorem mem_batch_iff {r : ListRead} (hnodup : r.ids.Nodup) (hid : r.ids[i]? = some id) :
    id ∈ r.batch c ↔ Turn c r.ids.length (r.cursor % r.ids.length) i := by
  obtain ⟨hi, hget⟩ := List.getElem?_eq_some_iff.1 hid
  simp only [ListRead.batch, List.mem_filterMap, List.mem_range, Turn]
  refine exists_congr fun j => and_congr_right fun hj => ?_
  constructor
  · intro hj
    exact (List.getElem?_inj hi hnodup).1 (hid.trans hj.symm)
  · rintro rfl
    exact hid

/-- Steps that follow one another: each reads a list that begins with the list before it, and finds
the cursor as the one before left it.  At the end the cursor and the ids are the given ones. -/
def Follows (c : ℕ) : ℕ → List String → List ListRead → ℕ → List String → Prop
  | p, known, [], cursor, ids => p = cursor ∧ known <+: ids
  | p, known, r :: rs, cursor, ids =>
    r.cursor = p ∧ known <+: r.ids ∧ Follows c (r.nextCursor c) r.ids rs cursor ids

/-- What follows the first steps. -/
theorem Follows.split (h : Follows c p known (rs ++ rs') cursor ids) :
    ∃ p' known', Follows c p known rs p' known' ∧ Follows c p' known' rs' cursor ids := by
  induction rs generalizing p known with
  | nil => exact ⟨p, known, ⟨rfl, List.prefix_refl _⟩, h⟩
  | cons r rs ih =>
    obtain ⟨p', known', hfirst, hrest⟩ := ih h.2.2
    exact ⟨p', known', ⟨h.1, h.2.1, hfirst⟩, hrest⟩

/-- Another step. -/
theorem Follows.read (h : Follows c p known rs cursor ids) :
    Follows c p known (rs ++ [⟨ids, cursor⟩]) ((⟨ids, cursor⟩ : ListRead).nextCursor c) ids := by
  induction rs generalizing p known with
  | nil =>
    obtain ⟨rfl, hprefix⟩ := h
    exact ⟨rfl, hprefix, rfl, List.prefix_refl _⟩
  | cons r rs ih => exact ⟨h.1, h.2.1, ih h.2.2⟩

theorem Follows.grow (h : Follows c p known rs cursor ids) (hids : ids <+: ids') :
    Follows c p known rs cursor ids' := by
  induction rs generalizing p known with
  | nil => exact ⟨h.1, h.2.trans hids⟩
  | cons r rs ih => exact ⟨h.1, h.2.1, ih h.2.2⟩

theorem Follows.known_isPrefix (h : Follows c p known rs cursor ids) : known <+: ids := by
  induction rs generalizing p known with
  | nil => exact h.2
  | cons r rs ih => exact h.2.1.trans (ih h.2.2)

/-- Every list read begins with what was known and begins the list at the end. -/
theorem Follows.prefixes (h : Follows c p known rs cursor ids) {r : ListRead} (hr : r ∈ rs) :
    known <+: r.ids ∧ r.ids <+: ids := by
  induction rs generalizing p known with
  | nil => cases hr
  | cons r' rs ih =>
    rcases List.mem_cons.1 hr with rfl | hr
    · exact ⟨h.2.1, h.2.2.known_isPrefix⟩
    · exact ⟨h.2.1.trans (ih h.2.2 hr).1, (ih h.2.2 hr).2⟩

/-- The lists do not get shorter. -/
theorem Follows.pairwise (h : Follows c p known rs cursor ids) :
    (rs.map fun r => r.ids.length).Pairwise (· ≤ ·) := by
  induction rs generalizing p known with
  | nil => exact List.Pairwise.nil
  | cons r rs ih =>
    rw [List.map_cons, List.pairwise_cons]
    refine ⟨fun n hn => ?_, ih h.2.2⟩
    obtain ⟨r', hr', rfl⟩ := List.mem_map.1 hn
    exact (h.2.2.prefixes hr').1.length_le

theorem prefix_getElem? (h : known <+: ids) (hid : known[i]? = some id) : ids[i]? = some id := by
  obtain ⟨hi, hget⟩ := List.getElem?_eq_some_iff.1 hid
  rw [List.prefix_iff_getElem?.1 h i hi, hget]

/-- An id that was known at the beginning is in one of the batches when its position is passed. -/
theorem Follows.mem_batch_iff (h : Follows c p known rs cursor ids) (hnodup : ids.Nodup)
    (hid : known[i]? = some id) :
    (∃ r ∈ rs, id ∈ r.batch c) ↔ Passed c p (rs.map fun r => r.ids.length) i := by
  induction rs generalizing p known with
  | nil => exact iff_of_false (fun ⟨r, hr, _⟩ => absurd hr List.not_mem_nil) fun h => h
  | cons r rs ih =>
    obtain ⟨rfl, hprefix, hrest⟩ := h
    have hid' := prefix_getElem? hprefix hid
    have hpos : 0 < r.ids.length := by
      have := (List.getElem?_eq_some_iff.1 hid').1
      omega
    have hr : r.ids.Nodup := hnodup.sublist hrest.known_isPrefix.sublist
    rw [List.map_cons, Passed, ← Axo.mem_batch_iff hr hid', ← nextCursor_eq r hpos,
      ← ih hrest hid']
    simp

/-- While the list does not change, as many steps as make up its length take every id. -/
theorem Follows.mem_of_constant (h : Follows c p known rs cursor ids) (hnodup : ids.Nodup)
    (hsame : ∀ r ∈ rs, r.ids = ids') (hlength : ids'.length ≤ rs.length * c) (hid : id ∈ ids') :
    ∃ r ∈ rs, id ∈ r.batch c := by
  obtain ⟨i, hi⟩ := List.getElem?_of_mem hid
  have hlt := (List.getElem?_eq_some_iff.1 hi).1
  cases rs with
  | nil =>
    rw [List.length_nil, Nat.zero_mul] at hlength
    omega
  | cons r rs =>
    have hr : r.ids = ids' := hsame r List.mem_cons_self
    have hfollows : Follows c p ids' (r :: rs) cursor ids :=
      ⟨h.1, hr ▸ List.prefix_refl _, h.2.2⟩
    have hsizes : (r :: rs).map (fun r => r.ids.length) =
        List.replicate (r :: rs).length ids'.length := by
      rw [List.eq_replicate_iff, List.length_map]
      refine ⟨rfl, fun n hn => ?_⟩
      obtain ⟨r', hr', rfl⟩ := List.mem_map.1 hn
      rw [hsame r' hr']
    rw [hfollows.mem_batch_iff hnodup hi, hsizes]
    exact passed_of_constant _ hlt hlength

end reads

/-! ### Finished steps and passes -/

namespace SweepStep

/-- All targets were verified, in their order. -/
def Done (c : ℕ) (st : SweepStep) : Prop := st.verified = st.targets c

variable {c : ℕ} {st : SweepStep} {id : String}

theorem Done.mem_verified (h : st.Done c) :
    id ∈ st.verified ↔ id ∈ st.priority ∨ id ∈ st.read.batch c := by
  rw [h, targets, mem_fromKeys, List.mem_append]

theorem Done.nodup (h : st.Done c) : st.verified.Nodup := by
  rw [h]
  exact nodup_fromKeys _

end SweepStep

namespace SweepPass

variable (c : ℕ) (pass : SweepPass)

/-- The lengths of the lists that its steps read. -/
def sizes : List ℕ := pass.steps.map fun st => st.read.ids.length

/-- The position at which its first step begins. -/
def start : ℕ := ((pass.steps.head?.map fun st => st.read.cursor % st.read.ids.length)).getD 0

/-- The calls of `reverify_fn` of its steps. -/
def verified : List String := pass.steps.flatMap SweepStep.verified

/-- The priority checks that its steps took. -/
def requested : List String := pass.steps.flatMap SweepStep.priority

/-- The pass has begun at the position or before it, or it has steps enough to come back to it after
the end of the list. -/
def ComesBackTo (i : ℕ) : Prop :=
  pass.start ≤ i ∨
    ∃ e ∈ lengthAtEnd c pass.start pass.sizes, i + e < pass.start + pass.steps.length * c

/-- Every id known at the start stands where the pass comes to, or was requested. -/
def ComesTo : Prop :=
  ∀ i id, pass.known[i]? = some id → pass.ComesBackTo c i ∨ id ∈ pass.requested

/-- What is known of a pass that has ended. -/
structure Ended : Prop where
  follows : ∃ p cursor ids, ids.Nodup ∧
    Follows c p pass.known (pass.steps.map SweepStep.read) cursor ids
  done : ∀ st ∈ pass.steps, st.Done c
  slots : pass.known.length < pass.steps.length * c

variable {c pass} {i : ℕ} {id : String}

/-- A pass begins within every list it reads. -/
theorem start_lt (hgrows : pass.sizes.Pairwise (· ≤ ·)) (hpos : ∀ n ∈ pass.sizes, 0 < n) {n : ℕ}
    (hn : n ∈ pass.sizes) : pass.start < n := by
  unfold sizes start at *
  cases hsteps : pass.steps with
  | nil =>
    rw [hsteps] at hn
    cases hn
  | cons st steps =>
    rw [hsteps, List.map_cons] at hgrows hpos hn
    have hlt : st.read.cursor % st.read.ids.length < st.read.ids.length :=
      Nat.mod_lt _ (hpos _ List.mem_cons_self)
    rw [List.head?_cons, Option.map_some, Option.getD_some]
    rcases List.mem_cons.1 hn with rfl | hn
    · exact hlt
    · exact hlt.trans_le ((List.pairwise_cons.1 hgrows).1 n hn)

theorem Ended.comesBackTo_iff (h : pass.Ended c) (hi : i < pass.known.length) :
    pass.ComesBackTo c i ↔ Passed c pass.start pass.sizes i := by
  obtain ⟨p, cursor, ids, -, hfollows⟩ := h.follows
  have hslots := h.slots
  have hsizes (n : ℕ) (hn : n ∈ pass.sizes) : i < n := by
    obtain ⟨st, hst, rfl⟩ := List.mem_map.1 hn
    have hprefix := (hfollows.prefixes (List.mem_map_of_mem hst)).1.length_le
    omega
  have hgrows : pass.sizes.Pairwise (· ≤ ·) := by
    have hpairwise := hfollows.pairwise
    rwa [List.map_map] at hpairwise
  have hstart (n : ℕ) (hn : n ∈ pass.sizes) : pass.start < n :=
    start_lt hgrows (fun m hm => Nat.zero_lt_of_lt (hsizes m hm)) hn
  rw [passed_iff hgrows hstart hsizes, sizes, List.length_map, ComesBackTo]
  refine or_congr ((and_iff_left_of_imp fun hle => ?_).symm) Iff.rfl
  omega

/-- The first step begins where the cursor points to. -/
theorem passed_start_iff {p cursor : ℕ} {ids : List String}
    (h : Follows c p pass.known (pass.steps.map SweepStep.read) cursor ids) :
    Passed c p (pass.steps.map fun st => st.read.ids.length) i ↔
      Passed c pass.start pass.sizes i := by
  unfold sizes start
  cases hsteps : pass.steps with
  | nil => exact Iff.rfl
  | cons st steps =>
    rw [hsteps] at h
    have hcursor : st.read.cursor = p := h.1
    rw [List.map_cons, List.head?_cons, Option.map_some, Option.getD_some, hcursor, passed_mod]

/-- A pass verifies an id that was known exactly if it comes to it. -/
theorem Ended.mem_verified_iff (h : pass.Ended c) (hid : pass.known[i]? = some id) :
    id ∈ pass.verified ↔ pass.ComesBackTo c i ∨ id ∈ pass.requested := by
  obtain ⟨p, cursor, ids, hnodup, hfollows⟩ := h.follows
  have hi := (List.getElem?_eq_some_iff.1 hid).1
  have hslots := h.slots
  have hbatch : (∃ st ∈ pass.steps, id ∈ st.read.batch c) ↔ pass.ComesBackTo c i := by
    have hread : (∃ st ∈ pass.steps, id ∈ st.read.batch c) ↔
        ∃ r ∈ pass.steps.map SweepStep.read, id ∈ r.batch c := by simp
    rw [h.comesBackTo_iff hi, ← passed_start_iff hfollows, hread,
      hfollows.mem_batch_iff hnodup hid, List.map_map]
    rfl
  simp only [verified, requested, List.mem_flatMap]
  rw [← hbatch]
  constructor
  · rintro ⟨st, hst, hmem⟩
    rcases (h.done st hst).mem_verified.1 hmem with hpriority | hmem
    · exact Or.inr ⟨st, hst, hpriority⟩
    · exact Or.inl ⟨st, hst, hmem⟩
  · rintro (⟨st, hst, hmem⟩ | ⟨st, hst, hpriority⟩)
    · exact ⟨st, hst, (h.done st hst).mem_verified.2 (Or.inr hmem)⟩
    · exact ⟨st, hst, (h.done st hst).mem_verified.2 (Or.inl hpriority)⟩

/-- A pass verifies all that was known at its start exactly if it comes to all of it. -/
theorem Ended.verifies_iff (h : pass.Ended c) :
    (∀ id ∈ pass.known, id ∈ pass.verified) ↔ pass.ComesTo c := by
  constructor
  · intro hall i id hid
    exact (h.mem_verified_iff hid).1 (hall id (List.mem_of_getElem? hid))
  · intro hcomes id hmem
    obtain ⟨i, hid⟩ := List.getElem?_of_mem hmem
    exact (h.mem_verified_iff hid).2 (hcomes i id hid)

/-- A pass that begins at the head of the list comes to all that was known. -/
theorem comesTo_of_start (h : pass.start = 0) : pass.ComesTo c := fun _ _ _ =>
  Or.inl (Or.inl (h ▸ Nat.zero_le _))

/-- So does one whose steps make up the list as it is when they reach its end. -/
theorem comesTo_of_lengthAtEnd {e : ℕ} (he : lengthAtEnd c pass.start pass.sizes = some e)
    (hle : e ≤ pass.steps.length * c) : pass.ComesTo c := by
  intro i id _
  by_cases hstart : pass.start ≤ i
  · exact Or.inl (Or.inl hstart)
  · exact Or.inl (Or.inr ⟨e, he, by omega⟩)

end SweepPass

end Axo
