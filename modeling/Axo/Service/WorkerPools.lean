import Axo.Lib.Transition
import Axo.Service.ProcessRuntime
import Mathlib.Data.List.MinMax

/-!
# The pools of the process runtime

How `ProcessFunctionRuntime.invoke` comes to the worker on whose queue it puts a job.  The calls run
in threads of their own, next to whatever else happens to the workers of `ProcessRuntime`; a call of
a method of the `WorkerRegistry` is one step.

* `InvokeCall` is a call of `invoke`, with what it has read of its pool, `PooledRuntime.advance` its
  next piece;
* `PooledRuntime.step` is the system;
* `RespectsCap` bounds each pool, and asks of every job put behind another that the call has seen a
  full pool without an idle worker;
* `Undisturbed` is the guard under which this holds: it is about the spawn outside of
  `_spawn_lock`, and about the time between the choice of a worker and the put.
-/

namespace Axo

open Transition

/-- A function id and a version. -/
abbrev PoolKey := String × Option ℤ

/-- The fields of a `RuntimeSpec` that the process runtime reads for its pools. -/
structure ProcessSpec where
  maxConcurrency : ℤ
  maxDurationSeconds : ℤ

/-- The `FunctionRegistry`: whether a function has a record, and whether that has a spec. -/
abbrev ProcessRegistry := PoolKey → Option (Option ProcessSpec)

namespace ProcessRegistry

/-- `_max_concurrency_for`. -/
def maxConcurrencyFor (registry : ProcessRegistry) (key : PoolKey) : ℤ :=
  match registry key with
  | some (some spec) => max 1 spec.maxConcurrency
  | some none | none => 1

/-- The `max_duration_seconds` of a worker that is spawned. -/
def maxDurationOf : Option ProcessSpec → ℤ
  | some spec => spec.maxDurationSeconds
  | none => 0

end ProcessRegistry

/-- How far a call of `invoke` has come. -/
inductive InvokePhase
  /-- before the first `get_idle_or_none` -/
  | looking
  /-- waits for `_spawn_lock` -/
  | waiting
  /-- holds the lock, before the second `get_idle_or_none` -/
  | rechecking
  /-- holds the lock, before the size of the pool is read -/
  | measuring
  /-- holds the lock, before `_spawn_worker` -/
  | growing
  /-- holds the lock, before `least_loaded` -/
  | choosing
  /-- `least_loaded` has found nobody, before the `_spawn_worker` outside of the lock -/
  | vanished
  /-- before `request_queue.put`; the job `waits` when the worker was the least loaded one of a full
  pool, or is a new one after all of those had vanished -/
  | chosen (worker : ℕ) (waits : Bool)
  | returned (ok : Bool)
  deriving DecidableEq

/-- The call holds `_spawn_lock`. -/
def InvokePhase.inLock : InvokePhase → Bool
  | .rechecking | .measuring | .growing | .choosing => true
  | .looking | .waiting | .vanished | .chosen _ _ | .returned _ => false

/-- A call of `invoke`. -/
structure InvokeCall where
  key : PoolKey
  job : JobId
  phase : InvokePhase := .looking
  /-- the last `get_idle_or_none` has found a worker -/
  idleSeen : Bool := false
  /-- `pool_size` -/
  sizeSeen : Option ℕ := none
  /-- a worker of the pool was spawned outside of the lock since the size was read -/
  overtaken : Bool := false
  deriving DecidableEq

/-- The call has seen a full pool without an idle worker. -/
def InvokeCall.SawFull (registry : ProcessRegistry) (c : InvokeCall) : Prop :=
  c.idleSeen = false ∧ c.sizeSeen.map Int.ofNat = some (registry.maxConcurrencyFor c.key)

instance (registry : ProcessRegistry) (c : InvokeCall) : Decidable (c.SawFull registry) :=
  inferInstanceAs (Decidable (_ ∧ _))

/-- What a call has read fits the place it has come to. -/
def InvokeCall.Consistent (registry : ProcessRegistry) (c : InvokeCall) : Prop :=
  match c.phase with
  | .measuring => c.idleSeen = false
  | .growing => ¬ c.SawFull registry
  | .choosing | .vanished => c.SawFull registry
  | .chosen _ waits => c.SawFull registry ↔ waits = true
  | .looking | .waiting | .rechecking | .returned _ => True

theorem InvokeCall.consistent_idle {registry : ProcessRegistry} {c : InvokeCall} {worker : ℕ}
    (hidle : c.idleSeen = true) (hphase : c.phase = .chosen worker false) :
    c.Consistent registry := by
  simp only [InvokeCall.Consistent, hphase]
  refine ⟨fun hsaw => ?_, fun hfalse => by cases hfalse⟩
  rw [hsaw.1] at hidle
  cases hidle

/-- `not handle.busy and handle.request_queue.empty()`. -/
def Worker.isFree (w : Worker) : Bool := !w.busy && w.queue.isEmpty

/-- A job put on the queue now has another one before it. -/
def Worker.isBusy (w : Worker) : Bool :=
  w.busy || !w.queue.isEmpty || (match w.pump with | .taken _ => true | _ => false)

/-- The runtime with the calls of `invoke` in progress. -/
structure PooledRuntime where
  runtime : ProcessRuntime
  /-- the pool that each worker was spawned for -/
  keys : List PoolKey
  calls : List InvokeCall
  /-- the call that holds `_spawn_lock` -/
  lock : Option ℕ
  /-- the calls that have put a job behind another one -/
  queuedBehind : List InvokeCall

/-- The steps. -/
inductive PoolAction
  | invoke (key : PoolKey) (job : JobId)
  /-- the next piece of a call -/
  | advance (call : ℕ)
  /-- `_spawn_worker` fails -/
  | spawnFails (call : ℕ)
  /-- a pump thread, a sweep, a call of `cancel`, or the end of a worker process -/
  | other (action : ProcessAction)

/-- The action is not one of `invoke`. -/
def ProcessAction.ofOthers : ProcessAction → Bool
  | .spawn _ _ | .pick _ _ | .put _ _ => false
  | .pump _ _ | .die _ | .sweepEvict _ _ | .sweepKill _ | .sweepSentinel _ | .cancel _
  | .cancelStep _ => true

namespace PooledRuntime

/-- Before the first call. -/
def init : PooledRuntime where
  runtime := .init
  keys := []
  calls := []
  lock := none
  queuedBehind := []

/-- The worker is in the pool. -/
def inPool (s : PooledRuntime) (key : PoolKey) (i : ℕ) : Bool :=
  s.keys[i]? = some key && (s.runtime.workers[i]?).any Worker.registered

/-- `pool`: a worker is registered when it is spawned, and never again. -/
def pool (s : PooledRuntime) (key : PoolKey) : List ℕ :=
  (List.range s.runtime.workers.length).filter (s.inPool key)

/-- `get_idle_or_none`. -/
def getIdleOrNone (s : PooledRuntime) (key : PoolKey) : Option ℕ :=
  (s.pool key).find? fun i => (s.runtime.workers[i]?).any Worker.isFree

/-- `least_loaded`. -/
def leastLoaded (s : PooledRuntime) (key : PoolKey) : Option ℕ :=
  (s.pool key).argmin fun i => ((s.runtime.workers[i]?).map fun w => w.queue.length).getD 0

/-- A call has come further. -/
def setCall (s : PooledRuntime) (i : ℕ) (c : InvokeCall) : PooledRuntime :=
  { s with calls := s.calls.set i c }

def release (s : PooledRuntime) : PooledRuntime := { s with lock := none }

/-- `_spawn_worker` past the registry: the worker is registered. -/
def spawnWorker (s : PooledRuntime) (key : PoolKey) (maxDurationSeconds : ℤ) : PooledRuntime :=
  { s with
    runtime := { s.runtime with workers := s.runtime.workers ++ [.fresh maxDurationSeconds] }
    keys := s.keys ++ [key] }

/-- Whoever has read the size of the pool has read it before the spawn. -/
def overtake (s : PooledRuntime) (key : PoolKey) : PooledRuntime :=
  { s with calls := s.calls.map fun c => if c.key = key then { c with overtaken := true } else c }

/-- `request_queue.put`, and the return. -/
def put (s : PooledRuntime) (i : ℕ) (c : InvokeCall) (j : ℕ) (w : Worker) : PooledRuntime :=
  { s with
    runtime := { s.runtime with
      workers := s.runtime.workers.set j { w with queue := w.queue ++ [some c.job] }
      accepted := c.job :: s.runtime.accepted }
    calls := s.calls.set i { c with phase := .returned true }
    queuedBehind := if w.isBusy then c :: s.queuedBehind else s.queuedBehind }

section Step

variable (registry : ProcessRegistry) (maxInvocations : ℕ)

/-- The next piece of a call. -/
def advance (s : PooledRuntime) (i : ℕ) (c : InvokeCall) : Option PooledRuntime :=
  match c.phase with
  | .looking =>
    match s.getIdleOrNone c.key with
    | some j => some (s.setCall i { c with idleSeen := true, phase := .chosen j false })
    | none => some (s.setCall i { c with idleSeen := false, phase := .waiting })
  | .waiting =>
    if s.lock = none then
      some { s.setCall i { c with phase := .rechecking } with lock := some i }
    else none
  | .rechecking =>
    match s.getIdleOrNone c.key with
    | some j => some (s.setCall i { c with idleSeen := true, phase := .chosen j false }).release
    | none => some (s.setCall i { c with idleSeen := false, phase := .measuring })
  | .measuring =>
    let size := (s.pool c.key).length
    some (s.setCall i { c with
      sizeSeen := some size
      overtaken := false
      phase := if (size : ℤ) < registry.maxConcurrencyFor c.key then .growing else .choosing })
  | .growing =>
    match registry c.key with
    | some spec =>
      some ((s.spawnWorker c.key (ProcessRegistry.maxDurationOf spec)).setCall i
        { c with phase := .chosen s.runtime.workers.length false }).release
    | none => some (s.setCall i { c with phase := .returned false }).release
  | .choosing =>
    match s.leastLoaded c.key with
    | some j => some (s.setCall i { c with phase := .chosen j true }).release
    | none => some (s.setCall i { c with phase := .vanished }).release
  | .vanished =>
    match registry c.key with
    | some spec =>
      some (((s.overtake c.key).spawnWorker c.key (ProcessRegistry.maxDurationOf spec)).setCall i
        { c with phase := .chosen s.runtime.workers.length true })
    | none => some (s.setCall i { c with phase := .returned false })
  | .chosen j _ => (s.runtime.workers[j]?).map fun w => s.put i c j w
  | .returned _ => none

/-- One step. -/
def step (s : PooledRuntime) : PoolAction → Option PooledRuntime
  | .invoke key job => some { s with calls := s.calls ++ [{ key := key, job := job }] }
  | .advance i =>
    match s.calls[i]? with
    | some c => s.advance registry i c
    | none => none
  | .spawnFails i =>
    match s.calls[i]? with
    | some c =>
      match c.phase with
      | .growing => some (s.setCall i { c with phase := .returned false }).release
      | .vanished => some (s.setCall i { c with phase := .returned false })
      | .looking | .waiting | .rechecking | .measuring | .choosing | .chosen _ _ | .returned _ => none
    | none => none
  | .other action =>
    if action.ofOthers = true then
      (s.runtime.step maxInvocations action).map fun runtime => { s with runtime := runtime }
    else none

end Step

end PooledRuntime

/-! ### What happens to workers besides -/

namespace Worker

variable {w : Worker}

theorem registered_of_pumpStep {p : PumpStep} {r : Worker × List Report}
    (h : w.pumpStep p = some r) (hr : r.1.registered = true) : w.registered = true := by
  have hgiveUp (timedOut : Bool) (job : JobId) (hg : (w.giveUp timedOut job).registered = true) :
      w.registered = true := by
    unfold giveUp at hg
    split_ifs at hg with hcancelled
    exact hg
  cases p <;> simp only [pumpStep] at h <;> split at h
  all_goals first
    | cases h
    | skip
  all_goals first
    | exact hr
    | skip
  all_goals
    split_ifs at h
    cases h
    exact hgiveUp _ _ hr

theorem registered_of_onWorker (call : Cancel) (h : (call.onWorker w).2.registered = true) :
    w.registered = true := by
  unfold Cancel.onWorker at h
  split at h
  · cases h
  all_goals first
    | exact h
    | (split at h <;> first | exact h | (split_ifs at h <;> exact h))

end Worker

namespace ProcessRuntime

/-- No worker comes or is registered. -/
def NoneRegistered (s t : ProcessRuntime) : Prop :=
  t.workers.length = s.workers.length ∧
    ∀ i : ℕ, (t.workers[i]?).any Worker.registered = true →
      (s.workers[i]?).any Worker.registered = true

theorem noneRegistered_set {s t : ProcessRuntime} {i : ℕ} {w v : Worker}
    (hw : s.workers[i]? = some w) (ht : t.workers = s.workers.set i v)
    (hreg : v.registered = true → w.registered = true) : s.NoneRegistered t := by
  refine ⟨by rw [ht, List.length_set], fun j hj => ?_⟩
  rcases eq_or_ne i j with rfl | hij
  · rw [hw, Option.any_some]
    rw [ht, List.getElem?_set_self (List.getElem?_eq_some_iff.1 hw).1, Option.any_some] at hj
    exact hreg hj
  · rwa [ht, List.getElem?_set_ne hij] at hj

variable {s t : ProcessRuntime} {maxInvocations : ℕ} {a : ProcessAction}

theorem noneRegistered_of_step (ha : a.ofOthers = true) (h : s.step maxInvocations a = some t) :
    s.NoneRegistered t := by
  cases a with
  | spawn | pick | put => cases ha
  | pump i p =>
    obtain ⟨w, hw, hrest⟩ := Option.bind_eq_some_iff.1 h
    obtain ⟨r, hr, rfl⟩ := Option.map_eq_some_iff.1 hrest
    exact noneRegistered_set hw rfl (Worker.registered_of_pumpStep hr)
  | die i =>
    obtain ⟨w, hw, rfl⟩ := Option.map_eq_some_iff.1 h
    exact noneRegistered_set hw rfl id
  | sweepEvict i idle =>
    obtain ⟨w, hw, hrest⟩ := Option.bind_eq_some_iff.1 h
    obtain ⟨-, hrest⟩ := Option.ite_none_right_eq_some.1 hrest
    cases hrest
    exact noneRegistered_set hw rfl fun hreg => by cases hreg
  | sweepKill i =>
    obtain ⟨w, hw, hrest⟩ := Option.bind_eq_some_iff.1 h
    obtain ⟨-, hrest⟩ := Option.ite_none_right_eq_some.1 hrest
    cases hrest
    exact noneRegistered_set hw rfl id
  | sweepSentinel i =>
    obtain ⟨w, hw, hrest⟩ := Option.bind_eq_some_iff.1 h
    obtain ⟨-, hrest⟩ := Option.ite_none_right_eq_some.1 hrest
    cases hrest
    exact noneRegistered_set hw rfl id
  | cancel job =>
    cases h
    exact ⟨rfl, fun _ hi => hi⟩
  | cancelStep call =>
    obtain ⟨-, hrest⟩ := Option.ite_none_right_eq_some.1 h
    split at hrest
    · obtain ⟨w, hw, rfl⟩ := Option.map_eq_some_iff.1 hrest
      exact noneRegistered_set hw rfl (Worker.registered_of_onWorker call)
    · cases hrest
      exact ⟨rfl, fun _ hi => hi⟩

end ProcessRuntime

namespace PooledRuntime

variable {registry : ProcessRegistry} {s t : PooledRuntime} {key : PoolKey} {i : ℕ}
  {c c' : InvokeCall}

/-! ### The size of a pool -/

/-- A pool does not grow when no worker comes to it. -/
theorem length_pool_le (hkeys : t.keys = s.keys) (h : s.runtime.NoneRegistered t.runtime) :
    (t.pool key).length ≤ (s.pool key).length := by
  unfold pool
  rw [h.1]
  refine (List.monotone_filter_right _ fun i hi => ?_).length_le
  simp only [inPool, Bool.and_eq_true] at hi ⊢
  exact ⟨by rw [← hkeys]; exact hi.1, h.2 i hi.2⟩

/-- A worker that is spawned comes to its pool, and to no other. -/
theorem length_pool_spawnWorker (hkeys : s.keys.length = s.runtime.workers.length) (key' : PoolKey)
    (d : ℤ) : ((s.spawnWorker key' d).pool key).length =
      (s.pool key).length + if key' = key then 1 else 0 := by
  have hold : ∀ j ∈ List.range s.runtime.workers.length,
      (s.spawnWorker key' d).inPool key j = s.inPool key j := by
    intro j hj
    have hlt := List.mem_range.1 hj
    simp only [inPool, spawnWorker, List.getElem?_append_left hlt,
      List.getElem?_append_left (hkeys ▸ hlt)]
  have hnew : (s.spawnWorker key' d).inPool key s.runtime.workers.length = decide (key' = key) := by
    simp [inPool, spawnWorker, ← hkeys, Worker.fresh]
  have hlength : (s.spawnWorker key' d).runtime.workers.length = s.runtime.workers.length + 1 := by
    simp [spawnWorker]
  rw [pool, hlength, List.range_succ, List.filter_append, List.filter_congr hold,
    List.length_append, ← pool]
  by_cases hkey : key' = key
  · rw [List.filter_cons_of_pos (by rw [hnew]; exact decide_eq_true hkey), if_pos hkey]
    rfl
  · rw [List.filter_cons_of_neg (by rw [hnew, decide_eq_true_iff]; exact hkey), if_neg hkey]
    rfl

/-! ### The cap -/

/-- No pool is over its cap, and a job is put behind another one only by a call that has seen a
full pool without an idle worker. -/
def RespectsCap (registry : ProcessRegistry) (s : PooledRuntime) : Prop :=
  (∀ key, ((s.pool key).length : ℤ) ≤ registry.maxConcurrencyFor key) ∧
    ∀ c ∈ s.queuedBehind, c.SawFull registry

/-- The pool of a key has room. -/
def HasRoom (registry : ProcessRegistry) (s : PooledRuntime) (key : PoolKey) : Prop :=
  ((s.pool key).length : ℤ) < registry.maxConcurrencyFor key

/-- The guard on the next piece of a call: outside of the lock a worker is spawned into a pool with
room, and so it is in the lock when the size has been overtaken; and a job that does not wait comes
to its worker before any other one. -/
def UndisturbedCall (registry : ProcessRegistry) (s : PooledRuntime) (c : InvokeCall) : Prop :=
  match c.phase with
  | .vanished => (registry c.key).isSome = true → s.HasRoom registry c.key
  | .growing => (registry c.key).isSome = true → c.overtaken = true → s.HasRoom registry c.key
  | .chosen j waits => waits = false → (s.runtime.workers[j]?).any Worker.isBusy = false
  | .looking | .waiting | .rechecking | .measuring | .choosing | .returned _ => True

instance (key : PoolKey) : Decidable (s.HasRoom registry key) :=
  inferInstanceAs (Decidable (_ < _))

instance : Decidable (s.UndisturbedCall registry c) := by
  unfold UndisturbedCall
  split <;> infer_instance

def Undisturbed (registry : ProcessRegistry) (s : PooledRuntime) : PoolAction → Prop
  | .advance i => ∀ c ∈ s.calls[i]?, s.UndisturbedCall registry c
  | .invoke _ _ | .spawnFails _ | .other _ => True

instance : (a : PoolAction) → Decidable (s.Undisturbed registry a)
  | .advance i => inferInstanceAs (Decidable (∀ c ∈ s.calls[i]?, s.UndisturbedCall registry c))
  | .invoke _ _ | .spawnFails _ | .other _ => inferInstanceAs (Decidable True)

/-- The invariant under the guard. -/
structure PoolInv (registry : ProcessRegistry) (s : PooledRuntime) : Prop where
  respects : s.RespectsCap registry
  keys : s.keys.length = s.runtime.workers.length
  /-- one call at most is in the lock -/
  locked : ∀ i c, s.calls[i]? = some c → c.phase.inLock = true → s.lock = some i
  /-- the room that was seen is still there -/
  room : ∀ c ∈ s.calls, c.phase = .growing → c.overtaken = false → s.HasRoom registry c.key
  consistent : ∀ c ∈ s.calls, c.Consistent registry

theorem PoolInv.init : PoolInv registry init where
  respects := by
    refine ⟨fun key => ?_, fun c hc => by cases hc⟩
    have hcap : 1 ≤ registry.maxConcurrencyFor key := by
      unfold ProcessRegistry.maxConcurrencyFor
      split
      · exact le_max_left _ _
      all_goals exact le_rfl
    exact le_trans Int.one_nonneg hcap
  keys := rfl
  locked := fun i c hc => by cases hc
  room := fun c hc => by cases hc
  consistent := fun c hc => by cases hc

/-- A call goes on, and no pool grows. -/
theorem PoolInv.setCall (h : PoolInv registry s) (hcall : s.calls[i]? = some c)
    (hcalls : t.calls = s.calls.set i c') (hqueued : ∀ d ∈ t.queuedBehind, d.SawFull registry)
    (hkeys : t.keys = s.keys) (hworkers : s.runtime.NoneRegistered t.runtime)
    (hkey : c'.key = c.key)
    (hothers : ∀ j, j ≠ i → s.lock = some j → t.lock = some j)
    (hself : c'.phase.inLock = true → t.lock = some i)
    (hroom : c'.phase = .growing → c'.overtaken = false → s.HasRoom registry c.key)
    (hconsistent : c'.Consistent registry) : PoolInv registry t := by
  have hle (key : PoolKey) : (t.pool key).length ≤ (s.pool key).length :=
    length_pool_le hkeys hworkers
  have hroom_mono {key : PoolKey} (hr : s.HasRoom registry key) : t.HasRoom registry key :=
    lt_of_le_of_lt (Int.ofNat_le.2 (hle key)) hr
  have hmem : ∀ d ∈ t.calls, d = c' ∨ d ∈ s.calls := fun d hd => by
    rw [hcalls] at hd
    exact (List.mem_or_eq_of_mem_set hd).symm
  refine ⟨⟨fun key => ?_, hqueued⟩, by rw [hkeys, hworkers.1, h.keys], ?_, ?_, ?_⟩
  · exact (Int.ofNat_le.2 (hle key)).trans (h.respects.1 key)
  · intro j d hd hlock
    rw [hcalls] at hd
    rcases eq_or_ne i j with rfl | hij
    · rw [List.getElem?_set_self (List.getElem?_eq_some_iff.1 hcall).1] at hd
      cases hd
      exact hself hlock
    · rw [List.getElem?_set_ne hij] at hd
      exact hothers j hij.symm (h.locked j d hd hlock)
  · intro d hd hgrowing hovertaken
    rcases hmem d hd with rfl | hd
    · rw [hkey]
      exact hroom_mono (hroom hgrowing hovertaken)
    · exact hroom_mono (h.room d hd hgrowing hovertaken)
  · intro d hd
    rcases hmem d hd with rfl | hd
    · exact hconsistent
    · exact h.consistent d hd

/-- A call goes on, in the lock only if it has had it, and the workers stay as they are. -/
theorem PoolInv.goOn (h : PoolInv registry s) (hcall : s.calls[i]? = some c) (hkey : c'.key = c.key)
    (hin : c'.phase.inLock = true → c.phase.inLock = true)
    (hroom : c'.phase = .growing → c'.overtaken = false → s.HasRoom registry c.key)
    (hconsistent : c'.Consistent registry) : PoolInv registry (s.setCall i c') :=
  h.setCall hcall rfl h.respects.2 rfl ⟨rfl, fun _ hj => hj⟩ hkey (fun _ _ hs => hs)
    (fun hl => h.locked i c hcall (hin hl)) hroom hconsistent

/-- A call that has had the lock gives it back. -/
theorem PoolInv.giveBack (h : PoolInv registry s) (hcall : s.calls[i]? = some c)
    (hlock : c.phase.inLock = true) (hkey : c'.key = c.key) (hout : c'.phase.inLock = false)
    (hconsistent : c'.Consistent registry) : PoolInv registry (s.setCall i c').release := by
  refine h.setCall hcall rfl h.respects.2 rfl ⟨rfl, fun _ hj => hj⟩ hkey (fun j hj hs => ?_)
    (fun hl => ?_) (fun hg => ?_) hconsistent
  · -- nobody else has had it
    rw [h.locked i c hcall hlock] at hs
    exact absurd (Option.some.inj hs).symm hj
  · rw [hout] at hl
    cases hl
  · rw [hg] at hout
    cases hout

/-- A worker is spawned into a pool with room, and nobody counts on that room. -/
theorem PoolInv.spawnWorker (h : PoolInv registry s) (d : ℤ) (hroom : s.HasRoom registry key)
    (hothers : ∀ c ∈ s.calls, c.phase = .growing → c.overtaken = false → c.key ≠ key) :
    PoolInv registry (s.spawnWorker key d) where
  respects := by
    refine ⟨fun key' => ?_, h.respects.2⟩
    rw [length_pool_spawnWorker h.keys]
    split_ifs with hkey
    · subst hkey
      unfold HasRoom at hroom
      omega
    · exact h.respects.1 key'
  keys := by
    rw [PooledRuntime.spawnWorker, List.length_append, List.length_append, h.keys]
    rfl
  locked := h.locked
  room := by
    intro c hc hgrowing hovertaken
    unfold HasRoom
    rw [length_pool_spawnWorker h.keys, if_neg (hothers c hc hgrowing hovertaken).symm]
    exact h.room c hc hgrowing hovertaken
  consistent := h.consistent

theorem PoolInv.overtake (h : PoolInv registry s) (key : PoolKey) :
    PoolInv registry (s.overtake key) where
  respects := h.respects
  keys := h.keys
  locked := by
    intro j d hd hlock
    rw [PooledRuntime.overtake, List.getElem?_map] at hd
    obtain ⟨c, hc, rfl⟩ := Option.map_eq_some_iff.1 hd
    refine h.locked j c hc ?_
    split_ifs at hlock <;> exact hlock
  room := by
    intro d hd hgrowing hovertaken
    obtain ⟨c, hc, rfl⟩ := List.mem_map.1 hd
    split_ifs at hgrowing hovertaken ⊢
    exact h.room c hc hgrowing hovertaken
  consistent := by
    intro d hd
    obtain ⟨c, hc, rfl⟩ := List.mem_map.1 hd
    split_ifs <;> exact h.consistent c hc

/-- The next piece of a call under the guard. -/
theorem PoolInv.advance (h : PoolInv registry s) (hcall : s.calls[i]? = some c)
    (hG : s.UndisturbedCall registry c) (hstep : s.advance registry i c = some t) :
    PoolInv registry t := by
  have hconsistent := h.consistent c (List.mem_of_getElem? hcall)
  unfold InvokeCall.Consistent at hconsistent
  cases hphase : c.phase with
  | looking =>
    simp only [PooledRuntime.advance, hphase] at hstep
    split at hstep
    · cases hstep
      exact h.goOn hcall rfl (fun hl => by cases hl) (fun hg => by cases hg)
        (InvokeCall.consistent_idle rfl rfl)
    · cases hstep
      exact h.goOn hcall rfl (fun hl => by cases hl) (fun hg => by cases hg) trivial
  | waiting =>
    simp only [PooledRuntime.advance, hphase] at hstep
    split_ifs at hstep with hfree
    cases hstep
    exact h.setCall hcall rfl h.respects.2 rfl ⟨rfl, fun _ hj => hj⟩ rfl
      (fun _ _ hs => by rw [hfree] at hs; cases hs) (fun _ => rfl) (fun hg => by cases hg) trivial
  | rechecking =>
    simp only [PooledRuntime.advance, hphase] at hstep
    have hlock : c.phase.inLock = true := by rw [hphase]; rfl
    split at hstep
    · cases hstep
      exact h.giveBack hcall hlock rfl rfl (InvokeCall.consistent_idle rfl rfl)
    · cases hstep
      exact h.goOn hcall rfl (fun _ => hlock) (fun hg => by cases hg) rfl
  | measuring =>
    simp only [PooledRuntime.advance, hphase] at hstep
    simp only [hphase] at hconsistent
    have hlock : c.phase.inLock = true := by rw [hphase]; rfl
    cases hstep
    by_cases hroom : s.HasRoom registry c.key
    · unfold HasRoom at hroom
      simp only [if_pos hroom]
      refine h.goOn hcall rfl (fun _ => hlock) (fun _ _ => hroom) fun hsaw => ?_
      exact hroom.ne (Option.some.inj hsaw.2)
    · unfold HasRoom at hroom
      simp only [if_neg hroom]
      refine h.goOn hcall rfl (fun _ => hlock) (fun hg => by cases hg) ⟨hconsistent, ?_⟩
      exact congrArg some (le_antisymm (h.respects.1 c.key) (not_lt.1 hroom))
  | growing =>
    simp only [PooledRuntime.advance, hphase] at hstep
    simp only [hphase] at hconsistent
    have hlock : c.phase.inLock = true := by rw [hphase]; rfl
    split at hstep
    · rename_i spec hspec
      cases hstep
      have hnext : PoolInv registry
          (s.setCall i { c with phase := .chosen s.runtime.workers.length false }).release :=
        h.giveBack hcall hlock rfl rfl
          ⟨fun hsaw => absurd hsaw hconsistent, fun hfalse => by cases hfalse⟩
      have hroom : s.HasRoom registry c.key := by
        simp only [UndisturbedCall, hphase] at hG
        cases hovertaken : c.overtaken with
        | true => exact hG (by rw [hspec]; rfl) hovertaken
        | false => exact h.room c (List.mem_of_getElem? hcall) hphase hovertaken
      refine hnext.spawnWorker _ hroom fun d hd hgrowing _ => ?_
      obtain ⟨j, hj⟩ := List.getElem?_of_mem hd
      cases hnext.locked j d hj (by rw [hgrowing]; rfl)
    · cases hstep
      exact h.giveBack hcall hlock rfl rfl trivial
  | choosing =>
    simp only [PooledRuntime.advance, hphase] at hstep
    simp only [hphase] at hconsistent
    have hlock : c.phase.inLock = true := by rw [hphase]; rfl
    split at hstep
    · cases hstep
      exact h.giveBack hcall hlock rfl rfl ⟨fun _ => rfl, fun _ => hconsistent⟩
    · cases hstep
      exact h.giveBack hcall hlock rfl rfl hconsistent
  | vanished =>
    simp only [PooledRuntime.advance, hphase] at hstep
    simp only [hphase] at hconsistent
    split at hstep
    · rename_i spec hspec
      cases hstep
      have hcall' : (s.overtake c.key).calls[i]? = some { c with overtaken := true } := by
        simp [PooledRuntime.overtake, hcall]
      have hnext : PoolInv registry ((s.overtake c.key).setCall i
          { c with phase := .chosen s.runtime.workers.length true }) :=
        (h.overtake c.key).goOn hcall' rfl (fun hl => by cases hl) (fun hg => by cases hg)
          ⟨fun _ => rfl, fun _ => hconsistent⟩
      have hroom : s.HasRoom registry c.key := by
        simp only [UndisturbedCall, hphase] at hG
        exact hG (by rw [hspec]; rfl)
      refine hnext.spawnWorker _ hroom fun d hd hgrowing hovertaken => ?_
      rcases List.mem_or_eq_of_mem_set hd with hd | rfl
      · obtain ⟨e, -, rfl⟩ := List.mem_map.1 hd
        split_ifs at hovertaken ⊢ with hkey
        exact hkey
      · cases hgrowing
    · cases hstep
      exact h.goOn hcall rfl (fun hl => by cases hl) (fun hg => by cases hg) trivial
  | chosen j waits =>
    simp only [PooledRuntime.advance, hphase] at hstep
    simp only [hphase] at hconsistent
    simp only [UndisturbedCall, hphase] at hG
    obtain ⟨w, hw, rfl⟩ := Option.map_eq_some_iff.1 hstep
    refine h.setCall hcall rfl (fun d hd => ?_) rfl
      (ProcessRuntime.noneRegistered_set (v := { w with queue := w.queue ++ [some c.job] })
        hw rfl id) rfl (fun _ _ hs => hs)
      (fun hl => by cases hl) (fun hg => by cases hg) trivial
    simp only [PooledRuntime.put] at hd
    split_ifs at hd with hbusy
    · rcases List.mem_cons.1 hd with rfl | hd
      · refine hconsistent.2 (Bool.of_not_eq_false fun hwaits => ?_)
        have hfree := hG hwaits
        rw [hw, Option.any_some, hbusy] at hfree
        cases hfree
      · exact h.respects.2 d hd
    · exact h.respects.2 d hd
  | returned ok =>
    simp only [PooledRuntime.advance, hphase] at hstep
    cases hstep

/-- The guard is what the next piece of a call needs. -/
theorem undisturbedCall_of_advance (h : PoolInv registry s) (hcall : s.calls[i]? = some c)
    (hstep : s.advance registry i c = some t) (ht : t.RespectsCap registry) :
    s.UndisturbedCall registry c := by
  have hroom {u : PooledRuntime} {d : ℤ} (hu : u.keys.length = u.runtime.workers.length)
      (hpool : ((u.spawnWorker c.key d).pool c.key).length = (t.pool c.key).length) :
      u.HasRoom registry c.key := by
    have hcap := ht.1 c.key
    rw [← hpool, length_pool_spawnWorker hu, if_pos rfl] at hcap
    unfold HasRoom
    omega
  unfold UndisturbedCall
  cases hphase : c.phase with
  | looking | waiting | rechecking | measuring | choosing | returned => exact trivial
  | vanished =>
    intro hsome
    obtain ⟨spec, hspec⟩ := Option.isSome_iff_exists.1 hsome
    simp only [PooledRuntime.advance, hphase, hspec] at hstep
    cases hstep
    exact hroom (u := s.overtake c.key) h.keys rfl
  | growing =>
    intro hsome _
    obtain ⟨spec, hspec⟩ := Option.isSome_iff_exists.1 hsome
    simp only [PooledRuntime.advance, hphase, hspec] at hstep
    cases hstep
    exact hroom h.keys rfl
  | chosen j waits =>
    intro hwaits
    have hconsistent := h.consistent c (List.mem_of_getElem? hcall)
    simp only [InvokeCall.Consistent, hphase, hwaits] at hconsistent
    simp only [PooledRuntime.advance, hphase] at hstep
    obtain ⟨w, hw, rfl⟩ := Option.map_eq_some_iff.1 hstep
    rw [hw, Option.any_some]
    by_contra hbusy
    have hsaw : c.SawFull registry := ht.2 c (by
      simp only [put, if_pos (Bool.of_not_eq_false hbusy)]
      exact List.mem_cons_self)
    cases hconsistent.1 hsaw

variable {maxInvocations : ℕ} {a : PoolAction}

/-- One step under the guard. -/
theorem PoolInv.step (h : PoolInv registry s) (hG : s.Undisturbed registry a)
    (hstep : s.step registry maxInvocations a = some t) : PoolInv registry t := by
  cases a with
  | invoke key job =>
    cases hstep
    have hmem : ∀ d ∈ s.calls ++ [{ key := key, job := job }],
        d ∈ s.calls ∨ d = { key := key, job := job } := fun d hd => by simpa using hd
    refine ⟨h.respects, h.keys, fun j d hd hlock => ?_, fun d hd hgrowing hovertaken => ?_,
      fun d hd => ?_⟩
    · rw [List.getElem?_append] at hd
      split_ifs at hd
      · exact h.locked j d hd hlock
      · obtain rfl := List.mem_singleton.1 (List.mem_of_getElem? hd)
        cases hlock
    · rcases hmem d hd with hd | rfl
      · exact h.room d hd hgrowing hovertaken
      · cases hgrowing
    · rcases hmem d hd with hd | rfl
      · exact h.consistent d hd
      · exact trivial
  | advance i =>
    simp only [PooledRuntime.step] at hstep
    split at hstep
    · rename_i c hcall
      exact h.advance hcall (hG c hcall) hstep
    · cases hstep
  | spawnFails i =>
    simp only [PooledRuntime.step] at hstep
    split at hstep
    · rename_i c hcall
      split at hstep
      · rename_i hphase
        cases hstep
        exact h.giveBack hcall (by rw [hphase]; rfl) rfl rfl trivial
      · cases hstep
        exact h.goOn hcall rfl (fun hl => by cases hl) (fun hg => by cases hg) trivial
      all_goals cases hstep
    · cases hstep
  | other action =>
    obtain ⟨hothers, hrest⟩ := Option.ite_none_right_eq_some.1 hstep
    obtain ⟨u, hu, rfl⟩ := Option.map_eq_some_iff.1 hrest
    have hnone := ProcessRuntime.noneRegistered_of_step hothers hu
    have hle (key : PoolKey) :
        ((({ s with runtime := u } : PooledRuntime).pool key).length : ℤ) ≤ (s.pool key).length :=
      Int.ofNat_le.2 (length_pool_le rfl hnone)
    exact
      { respects := ⟨fun key => (hle key).trans (h.respects.1 key), h.respects.2⟩
        keys := h.keys.trans hnone.1.symm
        locked := h.locked
        room := fun c hc hg ho => (hle c.key).trans_lt (h.room c hc hg ho)
        consistent := h.consistent }

/-- A run keeps to the caps throughout exactly when its steps meet the guard. -/
theorem respectsCap_throughout_iff {as : List PoolAction}
    (hrun : run (PooledRuntime.step registry maxInvocations) .init as = some t) :
    Throughout (PooledRuntime.step registry maxInvocations) (RespectsCap registry) .init as ↔
      EachStep (PooledRuntime.step registry maxInvocations) (Undisturbed registry) .init as := by
  refine throughout_iff_eachStep (I := PoolInv registry) (fun _ h => h.respects)
    (fun _ _ _ h hG hstep => h.step hG hstep) (fun s a u h hstep hu => ?_) .init hrun
  cases a with
  | advance i =>
    intro c hc
    have hcall : s.calls[i]? = some c := hc
    simp only [PooledRuntime.step, hcall] at hstep
    exact undisturbedCall_of_advance h hcall hstep hu
  | invoke | spawnFails | other => exact trivial

end PooledRuntime

open PooledRuntime ProcessRegistry

/-- One function, that one worker may run at a time. -/
def serialRegistry : ProcessRegistry := fun _ => some (some ⟨1, 0⟩)

/-- The pieces of a call that finds no worker idle, up to the choice in the lock. -/
def upToChoice (call : ℕ) : List PoolAction :=
  [.advance call, .advance call, .advance call, .advance call]

/-- Two calls, one after the other: the second waits behind the first, whose worker a sweep kills
later on. -/
def queuedTwice : List PoolAction :=
  .invoke ("f", some 1) "a" :: upToChoice 0 ++ [.advance 0, .advance 0] ++
    .invoke ("f", some 1) "b" :: upToChoice 1 ++
    [.advance 1, .advance 1, .other (.sweepEvict 0 true), .other (.sweepKill 0)]

/-- After the second call has read the size of the pool its only worker is evicted; a third call
fills the pool again, and then the second spawns a worker of its own. -/
def refilled : List PoolAction :=
  .invoke ("f", some 1) "a" :: upToChoice 0 ++ [.advance 0, .advance 0] ++
    .invoke ("f", some 1) "b" :: upToChoice 1 ++
    [.other (.sweepEvict 0 true), .advance 1] ++
    .invoke ("f", some 1) "c" :: upToChoice 2 ++ [.advance 2, .advance 1]

/-- A second job waits behind the first, and nothing is disturbed. -/
theorem respectsCap_queuedTwice : ∃ t,
    run (PooledRuntime.step serialRegistry 0) .init queuedTwice = some t ∧
      t.queuedBehind.length = 1 ∧
      Throughout (PooledRuntime.step serialRegistry 0) (RespectsCap serialRegistry) .init
        queuedTwice := by
  obtain ⟨t, ht, hmeets, htest⟩ := exists_eachStep_of_guarded_run
    (PooledRuntime.step serialRegistry 0) (PooledRuntime.Undisturbed serialRegistry) .init
    (fun t => t.queuedBehind.length = 1) queuedTwice (by decide +kernel)
  exact ⟨t, ht, of_decide_eq_true htest, (respectsCap_throughout_iff ht).2 hmeets⟩

/-- A pool of one has two workers in the end. -/
theorem not_respectsCap_refilled : ∃ t,
    Reach (PooledRuntime.step serialRegistry 0) Always .init t ∧
      ¬ t.RespectsCap serialRegistry := by
  obtain ⟨t, ht, htest⟩ := exists_reach_of_run (PooledRuntime.step serialRegistry 0) .init
    (fun t => decide ((t.pool ("f", some 1)).length = 2)) refilled (by decide +kernel)
  refine ⟨t, ht, fun h => ?_⟩
  have hcap := h.1 ("f", some 1)
  rw [of_decide_eq_true htest] at hcap
  exact absurd hcap (by decide)

end Axo
