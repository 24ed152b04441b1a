import Axo.Lib.Dict
import Axo.Lib.Slices
import Axo.Lib.Transition
import Axo.Service.RouterServer

/-!
# The command dispatcher

`InMemoryCommandDispatcher` of `dispatch/in_memory_dispatcher.py` step by step: calls of `submit`
and of `close` from any number of threads, and the workers that take the commands off the queue.
What one thread does between two accesses to the closed flag, the queue, a future or the metrics is
one step.

* `step` is one step of one thread;
* `QueueMove` lists what a step can do to the queue, and `step_spec` says that it does no more;
* `PutsInTime` is what a step needs so that no command is put where no worker comes;
* `answered_of_reach` is the result for whole runs.
-/

namespace Axo

open Transition

/-- `DispatcherClosedError("dispatcher is closed", ..)` -/
def dispatcherClosedError (operation : String) : AxoError :=
  { code := 4002, name := "DISPATCHER_CLOSED", message := "dispatcher is closed"
    context := [("operation", .str operation)] }

/-- `UnknownOperationError` -/
def noHandlerError (operation : String) : AxoError :=
  { code := 1003, name := "UNKNOWN_OPERATION"
    message := "no handler registered for '" ++ operation ++ "'"
    context := [("operation", .str operation)] }

/-- `QueueFullError` -/
def queueFullError (operation : String) : AxoError :=
  { code := 4001, name := "QUEUE_FULL", message := "queue is at capacity"
    context := [("operation", .str operation)] }

/-- `_WorkItem`; the call of `submit` that made it stands for its future. -/
structure WorkItem (η : Type*) where
  call : ℕ
  command : Command
  handler : η

/-- Where a call of `submit` is. -/
inductive SubmitStage (η : Type*)
  | called
  /-- past the check of `_closed` -/
  | admitted
  | found (handler : η)
  /-- past `put_nowait` -/
  | queued
  /-- in `future.result()` -/
  | counted
  | answered (result : CommandResult)
  | returned (result : CommandResult)

/-- Nothing was put on the queue yet. -/
def SubmitStage.beforePut {η : Type*} : SubmitStage η → Bool
  | .called | .admitted | .found _ => true
  | .queued | .counted | .answered _ | .returned _ => false

/-- The next step is the one that puts the command on the queue. -/
def SubmitStage.isFound {η : Type*} : SubmitStage η → Bool
  | .found _ => true
  | _ => false

/-- A call of `submit`. -/
structure SubmitCall (η : Type*) where
  command : Command
  stage : SubmitStage η

/-- Where a call of `close` is. -/
inductive CloseStage
  | called
  /-- how many sentinels it still puts -/
  | putting (left : ℕ)
  /-- which worker it joins next -/
  | joining (worker : ℕ)
  | returned

/-- Where a worker is. -/
inductive WorkerStage (η : Type*)
  /-- in `self._queue.get()` -/
  | waiting
  | handling (item : WorkItem η)
  | handled (item : WorkItem η) (result : CommandResult)
  | exited

def WorkerStage.isExited {η : Type*} : WorkerStage η → Bool
  | .exited => true
  | .waiting | .handling _ | .handled _ _ => false

/-- How a handler ends: it returns a result, or raises an exception with a text. -/
inductive HandlerOutcome
  | returns (result : CommandResult)
  | raises (text : String)

/-- The result that the future gets. -/
def HandlerOutcome.result : HandlerOutcome → CommandResult
  | .returns result => result
  | .raises text => { ok := false, error := text }

/-- `InMemoryCommandDispatcher`, its threads, and `started`: the calls whose commands were handed to
their handlers. -/
structure CommandDispatcher (η : Type*) where
  handlers : Dict String η
  maxQueueSize : ℤ
  queue : List (Option (WorkItem η))
  closed : Bool
  submitted : ℕ
  completed : ℕ
  failed : ℕ
  futures : ℕ → Option CommandResult
  workers : List (WorkerStage η)
  calls : List (SubmitCall η)
  closes : List CloseStage
  started : List ℕ

/-- What happens next: a call, or a step of a thread. -/
inductive DispatchAct (η : Type*)
  | registerHandler (operation : String) (handler : η)
  | submit (command : Command)
  | submitStep (call : ℕ)
  | close
  | closeStep (call : ℕ)
  /-- the outcome is that of the handler, when the worker is in it -/
  | workerStep (worker : ℕ) (outcome : HandlerOutcome)

namespace CommandDispatcher

variable {η : Type*}

/-- `InMemoryCommandDispatcher(max_queue_size, worker_count)` -/
def init (maxQueueSize : ℤ) (workerCount : ℕ) : CommandDispatcher η :=
  { handlers := ∅
    maxQueueSize := maxQueueSize
    queue := []
    closed := false
    submitted := 0
    completed := 0
    failed := 0
    futures := fun _ => none
    workers := List.replicate workerCount .waiting
    calls := []
    closes := []
    started := [] }

variable (s : CommandDispatcher η)

/-- `queue.Queue` is full; a bound that is not positive is none. -/
def full : Prop := 0 < s.maxQueueSize ∧ s.maxQueueSize ≤ s.queue.length

instance : Decidable s.full :=
  inferInstanceAs (Decidable (0 < s.maxQueueSize ∧ s.maxQueueSize ≤ s.queue.length))

/-- A call goes on to a stage. -/
def goOn (call : ℕ) (command : Command) (stage : SubmitStage η) : CommandDispatcher η :=
  { s with calls := s.calls.set call ⟨command, stage⟩ }

/-- The next step of `submit`. -/
def submitNext (call : ℕ) (command : Command) : SubmitStage η → Option (CommandDispatcher η)
  | .called =>
    if s.closed then
      some (s.goOn call command (.returned (.fromError (dispatcherClosedError command.operation))))
    else
      some (s.goOn call command .admitted)
  | .admitted =>
    match s.handlers.lookup command.operation with
    | none =>
      some (s.goOn call command (.returned (.fromError (noHandlerError command.operation))))
    | some handler => some (s.goOn call command (.found handler))
  | .found handler =>
    if s.full then
      some (s.goOn call command (.returned (.fromError (queueFullError command.operation))))
    else
      some { s.goOn call command .queued with
        queue := s.queue ++ [some ⟨call, command, handler⟩] }
  | .queued => some { s.goOn call command .counted with submitted := s.submitted + 1 }
  | .counted => (s.futures call).map fun result => s.goOn call command (.answered result)
  | .answered result =>
    if result.ok then
      some { s.goOn call command (.returned result) with completed := s.completed + 1 }
    else
      some { s.goOn call command (.returned result) with failed := s.failed + 1 }
  | .returned _ => none

/-- The next step of `close`; a `put` into a full queue waits, and so does a `join`. -/
def closeNext (call : ℕ) : CloseStage → Option (CommandDispatcher η)
  | .called =>
    some { s with
      closed := true
      closes := s.closes.set call (.putting s.workers.length) }
  | .putting 0 => some { s with closes := s.closes.set call (.joining 0) }
  | .putting (left + 1) =>
    if s.full then
      none
    else
      some { s with
        queue := s.queue ++ [none]
        closes := s.closes.set call (.putting left) }
  | .joining worker =>
    match s.workers[worker]? with
    | none => some { s with closes := s.closes.set call .returned }
    | some stage =>
      if stage.isExited then
        some { s with closes := s.closes.set call (.joining (worker + 1)) }
      else
        none
  | .returned => none

/-- `item = self._queue.get()`, and the check for a sentinel. -/
def takeNext (worker : ℕ) : List (Option (WorkItem η)) → Option (CommandDispatcher η)
  | [] => none
  | none :: queue =>
    some { s with
      queue := queue
      workers := s.workers.set worker .exited }
  | some item :: queue =>
    some { s with
      queue := queue
      workers := s.workers.set worker (.handling item)
      started := s.started ++ [item.call] }

/-- The next step of `_run_worker`. -/
def workerNext (worker : ℕ) (outcome : HandlerOutcome) :
    WorkerStage η → Option (CommandDispatcher η)
  | .waiting => s.takeNext worker s.queue
  | .handling item =>
    some { s with workers := s.workers.set worker (.handled item outcome.result) }
  | .handled item result =>
    some { s with
      workers := s.workers.set worker .waiting
      futures := Function.update s.futures item.call (some result) }
  | .exited => none

/-- One step. -/
def step (s : CommandDispatcher η) : DispatchAct η → Option (CommandDispatcher η)
  | .registerHandler operation handler =>
    some { s with handlers := s.handlers.insert operation handler }
  | .submit command => some { s with calls := s.calls ++ [⟨command, .called⟩] }
  | .submitStep call => s.calls[call]?.bind fun c => s.submitNext call c.command c.stage
  | .close => some { s with closes := s.closes ++ [.called] }
  | .closeStep call => s.closes[call]?.bind fun stage => s.closeNext call stage
  | .workerStep worker outcome =>
    s.workers[worker]?.bind fun stage => s.workerNext worker outcome stage

/-! ### What is claimed -/

/-- The calls whose commands are on the queue. -/
def waitingCalls : List ℕ := s.queue.filterMap (Option.map WorkItem.call)

/-- How many workers have left their loop. -/
def exitedCount : ℕ := s.workers.countP WorkerStage.isExited

/-- The sentinels that were put on the queue so far: each was taken by a worker that left, or is
still there. -/
def sentinels : ℕ := s.exitedCount + s.queue.countP Option.isNone

def AllExited : Prop := ∀ stage ∈ s.workers, stage.isExited = true

/-- All workers have left and a command is still on the queue. -/
def Stuck : Prop := s.AllExited ∧ s.waitingCalls ≠ []

/-- The step puts a command on the queue. -/
def puts (s : CommandDispatcher η) : DispatchAct η → Bool
  | .submitStep call => (s.calls[call]?.any fun c => c.stage.isFound) && !decide s.full
  | _ => false

/-- A command is put on the queue only while fewer sentinels were put there than there are
workers. -/
def PutsInTime (s : CommandDispatcher η) (a : DispatchAct η) : Prop :=
  s.puts a = true → s.sentinels < s.workers.length

/-! ### What a step does to the queue -/

/-- The call has put its command on the queue. -/
def HasPut (s : CommandDispatcher η) (call : ℕ) : Prop :=
  ∃ c, s.calls[call]? = some c ∧ c.stage.beforePut = false

/-- What a step does to the queue, to the workers that left and to what was started. -/
inductive QueueMove (s t : CommandDispatcher η) (a : DispatchAct η) : Prop
  | kept (hqueue : t.queue = s.queue) (hexited : t.exitedCount = s.exitedCount)
      (hstarted : t.started = s.started)
  | sentinelTaken (hqueue : s.queue = none :: t.queue) (hexited : t.exitedCount = s.exitedCount + 1)
      (hstarted : t.started = s.started)
  | itemTaken (item : WorkItem η) (hqueue : s.queue = some item :: t.queue)
      (hexited : t.exitedCount = s.exitedCount) (hlive : s.exitedCount < s.workers.length)
      (hstarted : t.started = s.started ++ [item.call])
  | sentinelPut (hqueue : t.queue = s.queue ++ [none]) (hexited : t.exitedCount = s.exitedCount)
      (hstarted : t.started = s.started)
  | itemPut (item : WorkItem η) (hqueue : t.queue = s.queue ++ [some item])
      (hexited : t.exitedCount = s.exitedCount) (hstarted : t.started = s.started)
      (hputs : s.puts a = true) (hnew : ¬ s.HasPut item.call) (hput : t.HasPut item.call)

variable {s} {t : CommandDispatcher η} {a : DispatchAct η}

/-- The calls that have put their commands stay so. -/
def KeepsPut (s t : CommandDispatcher η) : Prop := ∀ call, s.HasPut call → t.HasPut call

theorem keepsPut_of_calls (h : t.calls = s.calls) : KeepsPut s t := by
  rintro call ⟨c, hc, hput⟩
  exact ⟨c, by rw [h, hc], hput⟩

theorem keepsPut_submit {c : SubmitCall η} (h : t.calls = s.calls ++ [c]) : KeepsPut s t := by
  rintro call ⟨d, hd, hput⟩
  refine ⟨d, ?_, hput⟩
  rw [h, List.getElem?_append_left (List.getElem?_eq_some_iff.1 hd).1]
  exact hd

section goOn

variable {call : ℕ} {c c' : SubmitCall η} (hc : s.calls[call]? = some c)
  (hcalls : t.calls = s.calls.set call c')

include hc hcalls

theorem getElem?_goOn : t.calls[call]? = some c' := by
  rw [hcalls, List.getElem?_set_self (List.getElem?_eq_some_iff.1 hc).1]

/-- A call that goes on is the only one to change, and it does not go back before its put. -/
theorem keepsPut_goOn (h : c.stage.beforePut = false → c'.stage.beforePut = false) :
    KeepsPut s t := by
  rintro other ⟨d, hd, hput⟩
  by_cases hother : other = call
  · subst hother
    obtain rfl := Option.some.inj (hc.symm.trans hd)
    exact ⟨c', getElem?_goOn hc hcalls, h hput⟩
  · refine ⟨d, ?_, hput⟩
    rw [hcalls, List.getElem?_set_ne (Ne.symm hother)]
    exact hd

end goOn

/-- One step of a call of `submit`. -/
theorem submitNext_spec {call : ℕ} {c : SubmitCall η} (hc : s.calls[call]? = some c)
    (h : s.submitNext call c.command c.stage = some t) :
    t.workers = s.workers ∧ KeepsPut s t ∧ QueueMove s t (.submitStep call) := by
  obtain ⟨command, stage⟩ := c
  have hkeeps {stage' : SubmitStage η} (hcalls : t.calls = s.calls.set call ⟨command, stage'⟩)
      (hstage : stage.beforePut = false → stage'.beforePut = false) : KeepsPut s t :=
    keepsPut_goOn hc hcalls hstage
  cases stage with
  | called =>
    simp only [submitNext] at h
    split_ifs at h <;> cases h <;> exact ⟨rfl, hkeeps rfl (fun h => by cases h), .kept rfl rfl rfl⟩
  | admitted =>
    simp only [submitNext] at h
    split at h <;> cases h <;> exact ⟨rfl, hkeeps rfl (fun h => by cases h), .kept rfl rfl rfl⟩
  | found handler =>
    simp only [submitNext] at h
    split_ifs at h with hfull
    · cases h
      exact ⟨rfl, hkeeps rfl (fun h => by cases h), .kept rfl rfl rfl⟩
    · cases h
      refine ⟨rfl, hkeeps rfl (fun h => by cases h), .itemPut ⟨call, command, handler⟩ rfl rfl rfl ?_ ?_ ?_⟩
      · simp [puts, hc, SubmitStage.isFound, hfull]
      · rintro ⟨d, hd, hput⟩
        obtain rfl := Option.some.inj (hc.symm.trans hd)
        cases hput
      · exact ⟨_, getElem?_goOn hc rfl, rfl⟩
  | queued =>
    cases h
    exact ⟨rfl, hkeeps rfl fun _ => rfl, .kept rfl rfl rfl⟩
  | counted =>
    obtain ⟨result, -, rfl⟩ := Option.map_eq_some_iff.1 h
    exact ⟨rfl, hkeeps rfl fun _ => rfl, .kept rfl rfl rfl⟩
  | answered result =>
    simp only [submitNext] at h
    split_ifs at h <;> cases h <;> exact ⟨rfl, hkeeps rfl fun _ => rfl, .kept rfl rfl rfl⟩
  | returned result => cases h

/-- One step of a call of `close`. -/
theorem closeNext_spec {call : ℕ} {stage : CloseStage} (h : s.closeNext call stage = some t) :
    t.workers = s.workers ∧ KeepsPut s t ∧ QueueMove s t (.closeStep call) := by
  cases stage with
  | called =>
    cases h
    exact ⟨rfl, keepsPut_of_calls rfl, .kept rfl rfl rfl⟩
  | putting left =>
    cases left with
    | zero =>
      cases h
      exact ⟨rfl, keepsPut_of_calls rfl, .kept rfl rfl rfl⟩
    | succ left =>
      simp only [closeNext] at h
      split_ifs at h
      cases h
      exact ⟨rfl, keepsPut_of_calls rfl, .sentinelPut rfl rfl rfl⟩
  | joining worker =>
    simp only [closeNext] at h
    split at h
    · cases h
      exact ⟨rfl, keepsPut_of_calls rfl, .kept rfl rfl rfl⟩
    · split_ifs at h
      cases h
      exact ⟨rfl, keepsPut_of_calls rfl, .kept rfl rfl rfl⟩
  | returned => cases h

section workers

variable {worker : ℕ} {stage stage' : WorkerStage η} (hworker : s.workers[worker]? = some stage)
  (hworkers : t.workers = s.workers.set worker stage')

include hworker hworkers

/-- A worker that goes on without leaving its loop. -/
theorem exitedCount_goOn (hstage : stage.isExited = false) (hstage' : stage'.isExited = false) :
    t.exitedCount = s.exitedCount := by
  obtain ⟨hlt, hget⟩ := List.getElem?_eq_some_iff.1 hworker
  simp [exitedCount, hworkers, List.countP_set hlt, hget, hstage, hstage']

theorem exitedCount_leave (hstage : stage.isExited = false) (hstage' : stage'.isExited = true) :
    t.exitedCount = s.exitedCount + 1 := by
  obtain ⟨hlt, hget⟩ := List.getElem?_eq_some_iff.1 hworker
  simp [exitedCount, hworkers, List.countP_set hlt, hget, hstage, hstage']

end workers

/-- A worker that has not left its loop. -/
theorem exitedCount_lt {worker : ℕ} {stage : WorkerStage η}
    (hworker : s.workers[worker]? = some stage) (hstage : stage.isExited = false) :
    s.exitedCount < s.workers.length := by
  refine List.countP_lt_length_iff.2 ⟨stage, List.mem_of_getElem? hworker, ?_⟩
  simp [hstage]

/-- One step of a worker. -/
theorem workerNext_spec {worker : ℕ} {outcome : HandlerOutcome} {stage : WorkerStage η}
    (hworker : s.workers[worker]? = some stage)
    (h : s.workerNext worker outcome stage = some t) :
    t.workers.length = s.workers.length ∧ KeepsPut s t ∧
      QueueMove s t (.workerStep worker outcome) := by
  cases stage with
  | waiting =>
    simp only [workerNext] at h
    cases hqueue : s.queue with
    | nil => rw [hqueue] at h; cases h
    | cons entry queue =>
      rw [hqueue] at h
      cases entry with
      | none =>
        cases h
        exact ⟨List.length_set, keepsPut_of_calls rfl,
          .sentinelTaken hqueue (exitedCount_leave hworker rfl rfl rfl) rfl⟩
      | some item =>
        cases h
        exact ⟨List.length_set, keepsPut_of_calls rfl, .itemTaken item hqueue
          (exitedCount_goOn hworker rfl rfl rfl) (exitedCount_lt hworker rfl) rfl⟩
  | handling item =>
    cases h
    exact ⟨List.length_set, keepsPut_of_calls rfl,
      .kept rfl (exitedCount_goOn hworker rfl rfl rfl) rfl⟩
  | handled item result =>
    cases h
    exact ⟨List.length_set, keepsPut_of_calls rfl,
      .kept rfl (exitedCount_goOn hworker rfl rfl rfl) rfl⟩
  | exited => cases h

/-- What one step does. -/
theorem step_spec (h : s.step a = some t) :
    t.workers.length = s.workers.length ∧ KeepsPut s t ∧ QueueMove s t a := by
  cases a with
  | registerHandler operation handler =>
    cases h
    exact ⟨rfl, keepsPut_of_calls rfl, .kept rfl rfl rfl⟩
  | submit command =>
    cases h
    exact ⟨rfl, keepsPut_submit rfl, .kept rfl rfl rfl⟩
  | submitStep call =>
    obtain ⟨c, hc, hnext⟩ := Option.bind_eq_some_iff.1 h
    obtain ⟨hworkers, hrest⟩ := submitNext_spec hc hnext
    exact ⟨congrArg List.length hworkers, hrest⟩
  | close =>
    cases h
    exact ⟨rfl, keepsPut_of_calls rfl, .kept rfl rfl rfl⟩
  | closeStep call =>
    obtain ⟨stage, -, hnext⟩ := Option.bind_eq_some_iff.1 h
    obtain ⟨hworkers, hrest⟩ := closeNext_spec hnext
    exact ⟨congrArg List.length hworkers, hrest⟩
  | workerStep worker outcome =>
    obtain ⟨stage, hworker, hnext⟩ := Option.bind_eq_some_iff.1 h
    exact workerNext_spec hworker hnext

/-! ### Nothing is started twice -/

/-- The calls whose commands are on the queue or were taken off it, in the order of their puts. -/
def allPut (s : CommandDispatcher η) : List ℕ := s.started ++ s.waitingCalls

/-- Each call has put its command at most once. -/
structure PutOnce (s : CommandDispatcher η) : Prop where
  nodup : s.allPut.Nodup
  hasPut : ∀ call ∈ s.allPut, s.HasPut call

theorem putOnce_init (maxQueueSize : ℤ) (workerCount : ℕ) :
    (init maxQueueSize workerCount : CommandDispatcher η).PutOnce :=
  ⟨List.nodup_nil, fun _ h => by cases h⟩

theorem PutOnce.of_allPut (hall : t.allPut = s.allPut) (hkeeps : KeepsPut s t) (h : s.PutOnce) :
    t.PutOnce where
  nodup := hall ▸ h.nodup
  hasPut call hcall := hkeeps call (h.hasPut call (hall ▸ hcall))

/-- A step keeps that: an item taken off the queue only moves from one part of the list to the
other, and an item put there is a new one. -/
theorem putOnce_step (h : s.PutOnce) (hstep : s.step a = some t) : t.PutOnce := by
  obtain ⟨-, hkeeps, hmove⟩ := step_spec hstep
  cases hmove with
  | kept hqueue hexited hstarted =>
    exact h.of_allPut (by rw [allPut, allPut, waitingCalls, waitingCalls, hqueue, hstarted]) hkeeps
  | sentinelTaken hqueue hexited hstarted =>
    refine h.of_allPut ?_ hkeeps
    simp [allPut, waitingCalls, hqueue, hstarted]
  | itemTaken item hqueue hexited hlive hstarted =>
    refine h.of_allPut ?_ hkeeps
    simp [allPut, waitingCalls, hqueue, hstarted]
  | sentinelPut hqueue hexited hstarted =>
    refine h.of_allPut ?_ hkeeps
    simp [allPut, waitingCalls, hqueue, hstarted]
  | itemPut item hqueue hexited hstarted hputs hnew hput =>
    have hall : t.allPut = s.allPut ++ [item.call] := by
      simp [allPut, waitingCalls, hqueue, hstarted]
    refine ⟨?_, fun call hcall => ?_⟩
    · rw [hall, List.nodup_append]
      refine ⟨h.nodup, List.nodup_singleton _, fun call hcall other hother hsame => hnew ?_⟩
      rw [← List.mem_singleton.1 hother, ← hsame]
      exact h.hasPut call hcall
    · rw [hall, List.mem_append, List.mem_singleton] at hcall
      rcases hcall with hcall | rfl
      · exact hkeeps call (h.hasPut call hcall)
      · exact hput

/-! ### Every command on the queue is reached -/

/-- A worker is left for every command on the queue, after the sentinels before it. -/
def AllReached (s : CommandDispatcher η) : Prop :=
  ∀ front item back, s.queue = front ++ some item :: back →
    s.exitedCount + front.countP Option.isNone < s.workers.length

theorem allReached_init (maxQueueSize : ℤ) (workerCount : ℕ) :
    (init maxQueueSize workerCount : CommandDispatcher η).AllReached := by
  intro front item back h
  exact absurd h.symm (by simp [init])

/-- A command put in time is reached, and what is done to the queue elsewhere leaves the others
reached. -/
theorem allReached_step (h : s.AllReached) (hintime : s.PutsInTime a) (hstep : s.step a = some t) :
    t.AllReached := by
  obtain ⟨hlength, -, hmove⟩ := step_spec hstep
  intro front item back hback
  rw [hlength]
  cases hmove with
  | kept hqueue hexited hstarted =>
    rw [hexited]
    exact h front item back (hqueue ▸ hback)
  | sentinelTaken hqueue hexited hstarted =>
    have hbound := h (none :: front) item back (by rw [hqueue, hback, List.cons_append])
    rw [List.countP_cons_of_pos rfl] at hbound
    omega
  | itemTaken taken hqueue hexited hlive hstarted =>
    have hbound := h (some taken :: front) item back (by rw [hqueue, hback, List.cons_append])
    rw [List.countP_cons_of_neg (by simp)] at hbound
    omega
  | sentinelPut hqueue hexited hstarted =>
    rw [hexited]
    rcases Slices.concat_eq_append_cons (hqueue.symm.trans hback) with ⟨-, hitem⟩ | ⟨rest, hrest⟩
    · cases hitem
    · exact h front item rest hrest
  | itemPut put hqueue hexited hstarted hputs hnew hput =>
    rw [hexited]
    rcases Slices.concat_eq_append_cons (hqueue.symm.trans hback) with ⟨rfl, -⟩ | ⟨rest, hrest⟩
    · exact hintime hputs
    · exact h front item rest hrest

theorem exitedCount_eq_iff : s.exitedCount = s.workers.length ↔ s.AllExited :=
  List.countP_eq_length

theorem exists_split (h : s.waitingCalls ≠ []) :
    ∃ front item back, s.queue = front ++ some item :: back := by
  obtain ⟨call, hcall⟩ := List.exists_mem_of_ne_nil _ h
  obtain ⟨entry, hentry, hmap⟩ := List.mem_filterMap.1 hcall
  obtain ⟨item, rfl, -⟩ := Option.map_eq_some_iff.1 hmap
  obtain ⟨front, back, hqueue⟩ := List.append_of_mem hentry
  exact ⟨front, item, back, hqueue⟩

theorem AllReached.not_stuck (h : s.AllReached) : ¬ s.Stuck := by
  rintro ⟨hexited, hwaiting⟩
  obtain ⟨front, item, back, hqueue⟩ := exists_split hwaiting
  have hlive := h front item back hqueue
  rw [exitedCount_eq_iff.2 hexited] at hlive
  omega

/-! ### A command that is put too late -/

/-- A command on the queue has as many sentinels before it as there are workers left. -/
def Unreached (s : CommandDispatcher η) : Prop :=
  ∃ front item back, s.queue = front ++ some item :: back ∧
    s.workers.length ≤ s.exitedCount + front.countP Option.isNone

theorem Unreached.waitingCalls_ne_nil (h : s.Unreached) : s.waitingCalls ≠ [] := by
  obtain ⟨front, item, back, hqueue, -⟩ := h
  simp [waitingCalls, hqueue]

/-- No step reaches it. -/
theorem unreached_step (h : s.Unreached) (hstep : s.step a = some t) : t.Unreached := by
  obtain ⟨front, item, back, hback, hbound⟩ := h
  obtain ⟨hlength, -, hmove⟩ := step_spec hstep
  unfold Unreached
  rw [hlength]
  cases hmove with
  | kept hqueue hexited hstarted => exact ⟨front, item, back, hqueue ▸ hback, hexited ▸ hbound⟩
  | sentinelTaken hqueue hexited hstarted =>
    rw [hqueue] at hback
    cases front with
    | nil => cases hback
    | cons entry front =>
      rw [List.cons_append] at hback
      obtain ⟨rfl, hrest⟩ := List.cons.inj hback
      rw [List.countP_cons_of_pos rfl] at hbound
      exact ⟨front, item, back, hrest, by omega⟩
  | itemTaken taken hqueue hexited hlive hstarted =>
    rw [hqueue] at hback
    cases front with
    | nil =>
      -- a worker that takes it would be one that is left
      rw [List.countP_nil] at hbound
      omega
    | cons entry front =>
      rw [List.cons_append] at hback
      obtain ⟨rfl, hrest⟩ := List.cons.inj hback
      rw [List.countP_cons_of_neg (by simp)] at hbound
      exact ⟨front, item, back, hrest, by omega⟩
  | sentinelPut hqueue hexited hstarted =>
    exact ⟨front, item, back ++ [none], by rw [hqueue, hback]; simp, hexited ▸ hbound⟩
  | itemPut put hqueue hexited hstarted hputs hnew hput =>
    exact ⟨front, item, back ++ [some put], by rw [hqueue, hback]; simp, hexited ▸ hbound⟩

theorem queue_of_puts (hputs : s.puts a = true) (hstep : s.step a = some t) :
    ∃ item, t.queue = s.queue ++ [some item] ∧ t.workers = s.workers := by
  cases a with
  | submitStep call =>
    rw [puts, Bool.and_eq_true, Option.any_eq_true, Bool.not_eq_true', decide_eq_false_iff_not]
      at hputs
    obtain ⟨⟨⟨command, stage⟩, hc, hfound⟩, hfull⟩ := hputs
    simp only [step, hc, Option.bind_some] at hstep
    cases stage with
    | found handler =>
      rw [submitNext, if_neg hfull] at hstep
      cases hstep
      exact ⟨_, rfl, rfl⟩
    | called | admitted | queued | counted | answered | returned => cases hfound
  | registerHandler | submit | close | closeStep | workerStep => cases hputs

/-- A put that is not in time leaves its command unreached. -/
theorem unreached_of_late (hlate : ¬ s.PutsInTime a) (hstep : s.step a = some t) :
    t.Unreached := by
  obtain ⟨hputs, hbound⟩ := Classical.not_imp.1 hlate
  obtain ⟨item, hqueue, hworkers⟩ := queue_of_puts hputs hstep
  refine ⟨s.queue, item, [], hqueue, ?_⟩
  rw [exitedCount, hworkers]
  exact not_lt.1 hbound

/-! ### Every run -/

/-- No command is started twice, whatever the threads do.  While every command is put in time, no
state is reached in which all workers have left and a command is on the queue; once one is not,
every state in which all workers have left is such a state. -/
theorem answered_of_reach (maxQueueSize : ℤ) (workerCount : ℕ) :
    (∀ s : CommandDispatcher η, Reach step Always (init maxQueueSize workerCount) s →
      s.started.Nodup) ∧
    (∀ s : CommandDispatcher η, Reach step PutsInTime (init maxQueueSize workerCount) s →
      ¬ s.Stuck) ∧
    ∀ (s t u : CommandDispatcher η) (a : DispatchAct η),
      Reach step Always (init maxQueueSize workerCount) s → ¬ s.PutsInTime a →
      s.step a = some t → Reach step Always t u → u.AllExited → u.Stuck := by
  refine ⟨fun s hreach => ?_, fun s hreach => ?_, fun s t u a _ hlate hstep hreach hexited => ?_⟩
  · have honce : s.PutOnce := hreach.invariant (putOnce_init maxQueueSize workerCount)
      fun s a t h _ hstep => putOnce_step h hstep
    exact (List.nodup_append.1 honce.nodup).1
  · have hreached : s.AllReached := hreach.invariant (allReached_init maxQueueSize workerCount)
      fun s a t h hguard hstep => allReached_step h hguard hstep
    exact hreached.not_stuck
  · have hunreached : u.Unreached := hreach.invariant (unreached_of_late hlate hstep)
      fun s a t h _ hstep => unreached_step h hstep
    exact ⟨hexited, hunreached.waitingCalls_ne_nil⟩

/-- A handler is registered, and a command submitted and admitted. -/
def admittedSubmit : List (DispatchAct Unit) :=
  [.registerHandler "METRICS" (), .submit { operation := "METRICS" }, .submitStep 0, .submitStep 0]

/-- The dispatcher is closed, and the command is put behind the only sentinel. -/
def lateSubmit : List (DispatchAct Unit) :=
  admittedSubmit ++ [.close, .closeStep 0, .closeStep 0, .submitStep 0, .submitStep 0,
    .workerStep 0 (.raises "")]

/-- The same command, put before the sentinel, handled and answered. -/
def timelySubmit : List (DispatchAct Unit) :=
  admittedSubmit ++ [.close, .closeStep 0, .submitStep 0, .closeStep 0, .workerStep 0 (.raises ""),
    .workerStep 0 (.raises "no metrics"), .workerStep 0 (.raises ""), .submitStep 0,
    .submitStep 0, .submitStep 0, .workerStep 0 (.raises "")]

instance (s : CommandDispatcher η) (a : DispatchAct η) : Decidable (s.PutsInTime a) :=
  inferInstanceAs (Decidable (s.puts a = true → s.sentinels < s.workers.length))

instance : Decidable s.AllExited :=
  inferInstanceAs (Decidable (∀ stage ∈ s.workers, stage.isExited = true))

instance : Decidable s.Stuck :=
  inferInstanceAs (Decidable (s.AllExited ∧ s.waitingCalls ≠ []))

theorem not_stuck_timelySubmit :
    ∃ s : CommandDispatcher Unit,
      Reach step PutsInTime (init 8 1) s ∧ s.AllExited ∧ s.completed + s.failed = 1 ∧
        ¬ s.Stuck := by
  obtain ⟨s, hreach, hdone⟩ := exists_reach_of_guarded_run step PutsInTime
    (init 8 1 : CommandDispatcher Unit)
    (fun s => decide (s.AllExited ∧ s.completed + s.failed = 1)) timelySubmit (by decide +kernel)
  obtain ⟨hexited, hone⟩ := of_decide_eq_true hdone
  exact ⟨s, hreach, hexited, hone, (answered_of_reach 8 1).2.1 s hreach⟩

/-- One worker, and a queue of eight. -/
theorem stuck_lateSubmit :
    ∃ s : CommandDispatcher Unit, Reach step Always (init 8 1) s ∧ s.Stuck := by
  obtain ⟨s, hreach, hstuck⟩ := exists_reach_of_run step (init 8 1 : CommandDispatcher Unit)
    (fun s => decide s.Stuck) lateSubmit (by decide +kernel)
  exact ⟨s, hreach, of_decide_eq_true hstuck⟩

end CommandDispatcher

end Axo
