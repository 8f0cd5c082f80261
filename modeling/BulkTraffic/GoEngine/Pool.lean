import BulkTraffic.GoEngine.PriorityQueue
import Mathlib.Data.Rat.Init

/-!
# A worker pool of the Go engine

`Pool`: the calls of `Submit` and `SubmitSync`, the dispatch loop and the goroutines it starts.

They run side by side. A step is what one of them does between two places where another can
come in: `QueueLen`, `Enqueue` and `Dequeue` hold the queue's mutex, the semaphore is a channel
with room for `Workers` tokens, and the counters are atomic. The checks of `Submit` and
`SubmitSync` are steps of their own for this reason.

What `limiter.Wait` and `executeWithRetry` return comes with the event, and a context can be
done at any moment. The counters of one outcome are written in one step.

`tokens` is no field of the source. It counts the tokens that the limiter has granted.
-/

namespace BulkTraffic.GoEngine

/-- The settings of `PoolConfig` the pool's flow reads. -/
structure PoolConfig where
  name : String
  workers : ℕ
  maxQueue : ℤ
  /-- Requests per second, `0` for no limit. -/
  rateLimit : ℚ := 0

/-- Is there a limiter? -/
def PoolConfig.limited (config : PoolConfig) : Bool := decide (0 < config.rateLimit)

/-- `TaskResult`. -/
structure TaskResult where
  taskID : String
  success : Bool
  result : List UInt8 := []
  error : String := ""
  durationMs : ℕ := 0
  deriving DecidableEq

/-- `Stats`. -/
structure Stats where
  activeWorkers : ℤ := 0
  processed : ℕ := 0
  failed : ℕ := 0
  totalLatency : ℕ := 0
  latencies : List ℕ := []

/-- `recordLatency(..)`: the last `1000` latencies are kept. -/
def Stats.recordLatency (s : Stats) (ms : ℕ) : Stats :=
  let latencies := s.latencies ++ [ms]
  { s with latencies := latencies.drop (latencies.length - 1000) }

/-- What `executeWithRetry` returned is counted. -/
def Stats.record (s : Stats) (duration : ℕ) : Except String (List UInt8) → Stats
  | .error _ => { s with failed := s.failed + 1 }
  | .ok _ =>
    Stats.recordLatency
      { s with processed := s.processed + 1, totalLatency := s.totalLatency + duration } duration

/-- The result of a task that was executed. -/
def executedResult (task : Task) (duration : ℕ) : Except String (List UInt8) → TaskResult
  | .error message =>
    { taskID := task.id, success := false, error := message, durationMs := duration }
  | .ok bytes => { taskID := task.id, success := true, result := bytes, durationMs := duration }

/-- The result of a task that was not executed. -/
def refusedResult (task : Task) (error : String) : TaskResult :=
  { taskID := task.id, success := false, error := error }

/-- Where the execution of a task is, from the moment it holds a worker slot. -/
inductive WorkerPhase where
  /-- The slot is held. -/
  | holding
  /-- `executeWithRetry` has been called. -/
  | executing
  /-- The outcome has been counted. -/
  | recorded (result : TaskResult)
  /-- `ActiveWorkers` has been counted down. -/
  | leaving (result : TaskResult)
  /-- The slot has been released. -/
  | released (result : TaskResult)

/-- Where a call of `Submit` is. -/
inductive SubmitPhase where
  | called
  /-- The queue was not full. -/
  | admitted
  /-- The queue was full. -/
  | refusing
  /-- The call has returned. -/
  | returned (error : Option String)

/-- Where a call of `SubmitSync` is. -/
inductive SyncPhase where
  | called
  /-- It waits for the limiter. -/
  | limiting
  /-- It waits for the semaphore. -/
  | acquiring
  /-- It holds a slot, or did; the call returns when the slot is released. -/
  | working (phase : WorkerPhase)
  /-- The call has returned without a slot. -/
  | refused (result : TaskResult)

/-- A call. -/
inductive Call where
  | submit (task : Task) (phase : SubmitPhase)
  | submitSync (task : Task) (phase : SyncPhase)

/-- Where the dispatch loop is. -/
inductive Dispatcher where
  /-- At the `select` statement. -/
  | selecting
  /-- `dispatch` waits for the limiter. -/
  | limiting (task : Task)
  /-- `dispatch` waits for the semaphore. -/
  | acquiring (task : Task)
  | returned

/-- A pool that has been started. -/
structure Pool where
  queue : PriorityQueue := {}
  /-- The tokens in the semaphore's channel. -/
  sem : ℕ := 0
  stats : Stats := {}
  /-- `stopCh` is closed. -/
  stopping : Bool := false
  /-- `Stop` has returned. -/
  stopped : Bool := false
  dispatcher : Dispatcher := .selecting
  calls : List Call := []
  /-- The goroutines that `dispatch` started. -/
  goroutines : List (Task × WorkerPhase) := []
  tokens : ℕ := 0

/-- What happens to a task that holds a slot. -/
inductive WorkerEvent where
  | start
  /-- `executeWithRetry` returns. -/
  | finish (outcome : Except String (List UInt8)) (duration : ℕ)
  | leave
  | release

/-- What can happen. -/
inductive PoolEvent where
  /-- `Submit` is called. -/
  | submit (task : Task)
  /-- `SubmitSync` is called. -/
  | submitSync (task : Task)
  /-- A call reads the length of the queue and compares it. -/
  | check (i : ℕ)
  /-- A call of `Submit` reads the length again, for its error. -/
  | describe (i : ℕ)
  /-- A call of `Submit` adds its task to the queue. -/
  | enqueue (i : ℕ)
  /-- `limiter.Wait` returns to a call of `SubmitSync`. -/
  | waited (i : ℕ) (error : Option String)
  /-- A call of `SubmitSync` gets a slot. -/
  | acquire (i : ℕ)
  /-- The context of a call of `SubmitSync` is done before it gets a slot. -/
  | expire (i : ℕ)
  | callWorks (i : ℕ) (e : WorkerEvent)
  /-- The dispatch loop's ticker fires. -/
  | tick
  /-- `limiter.Wait` returns to `dispatch`. -/
  | dispatchWaited (error : Option String)
  /-- `dispatch` gets a slot and starts a goroutine. -/
  | dispatch
  | goroutineWorks (k : ℕ) (e : WorkerEvent)
  /-- `Stop` is called. -/
  | stop
  /-- The dispatch loop finds `stopCh` closed. -/
  | dispatchLoopReturns
  /-- `Stop` returns. -/
  | stopReturns

namespace Pool

/-- `Submit`'s error. -/
def queueFull (config : PoolConfig) (queueLen : ℕ) : String :=
  s!"pool {config.name}: queue full ({queueLen}/{config.maxQueue})"

/-- `SubmitSync`'s error. -/
def queueFullSync (config : PoolConfig) : String := s!"pool {config.name}: queue full"

/-- Overwrite a call. -/
def setCall (s : Pool) (i : ℕ) (call : Call) : Pool := { s with calls := s.calls.set i call }

/-- A task that holds a slot takes a step. -/
def work (s : Pool) (task : Task) (phase : WorkerPhase) (e : WorkerEvent) :
    Option (Pool × WorkerPhase) :=
  match phase, e with
  | .holding, .start =>
    some ({ s with stats := { s.stats with activeWorkers := s.stats.activeWorkers + 1 } }, .executing)
  | .executing, .finish outcome duration =>
    some ({ s with stats := s.stats.record duration outcome },
      .recorded (executedResult task duration outcome))
  | .recorded result, .leave =>
    some ({ s with stats := { s.stats with activeWorkers := s.stats.activeWorkers - 1 } }, .leaving result)
  | .leaving result, .release => some ({ s with sem := s.sem - 1 }, .released result)
  | _, _ => none

/-- The goroutine has called `wg.Done()`. -/
def finished : Task × WorkerPhase → Bool
  | (_, .released _) => true
  | _ => false

/-- The limiter's token, if it granted one. -/
def countToken (s : Pool) : Option String → Pool
  | none => { s with tokens := s.tokens + 1 }
  | some _ => s

/-- `dispatchLoop()`, when its ticker fires. -/
def tick (config : PoolConfig) (s : Pool) : Pool :=
  match s.queue.dequeue with
  | (none, queue) => { s with queue := queue }
  | (some task, queue) =>
    { s with
      queue := queue
      dispatcher := if config.limited then .limiting task else .acquiring task }

/-- One step. -/
def step (config : PoolConfig) (s : Pool) : PoolEvent → Option Pool
  | .submit task => some { s with calls := s.calls ++ [.submit task .called] }
  | .submitSync task => some { s with calls := s.calls ++ [.submitSync task .called] }
  | .check i =>
    match s.calls[i]? with
    | some (.submit task .called) =>
      if config.maxQueue ≤ s.queue.queueLen then some (s.setCall i (.submit task .refusing))
      else some (s.setCall i (.submit task .admitted))
    | some (.submitSync task .called) =>
      if config.maxQueue ≤ s.queue.queueLen then
        some (s.setCall i (.submitSync task (.refused (refusedResult task (queueFullSync config)))))
      else if config.limited then some (s.setCall i (.submitSync task .limiting))
      else some (s.setCall i (.submitSync task .acquiring))
    | _ => none
  | .describe i =>
    match s.calls[i]? with
    | some (.submit task .refusing) =>
      some (s.setCall i (.submit task (.returned (some (queueFull config s.queue.queueLen)))))
    | _ => none
  | .enqueue i =>
    match s.calls[i]? with
    | some (.submit task .admitted) =>
      some ({ s with queue := s.queue.enqueue task }.setCall i (.submit task (.returned none)))
    | _ => none
  | .waited i error =>
    match s.calls[i]? with
    | some (.submitSync task .limiting) =>
      some ((s.countToken error).setCall i (match error with
        | none => .submitSync task .acquiring
        | some message => .submitSync task (.refused (refusedResult task s!"rate limit: {message}"))))
    | _ => none
  | .acquire i =>
    match s.calls[i]? with
    | some (.submitSync task .acquiring) =>
      if s.sem < config.workers then
        some ({ s with sem := s.sem + 1 }.setCall i (.submitSync task (.working .holding)))
      else none
    | _ => none
  | .expire i =>
    match s.calls[i]? with
    | some (.submitSync task .acquiring) =>
      some (s.setCall i (.submitSync task (.refused (refusedResult task "timeout waiting for worker"))))
    | _ => none
  | .callWorks i e =>
    match s.calls[i]? with
    | some (.submitSync task (.working phase)) =>
      (s.work task phase e).map fun (t, phase) => t.setCall i (.submitSync task (.working phase))
    | _ => none
  | .tick =>
    match s.dispatcher with
    | .selecting => some (s.tick config)
    | _ => none
  | .dispatchWaited error =>
    match s.dispatcher with
    | .limiting task => some { s.countToken error with dispatcher := .acquiring task }
    | _ => none
  | .dispatch =>
    match s.dispatcher with
    | .acquiring task =>
      if s.sem < config.workers then
        some { s with
          sem := s.sem + 1
          dispatcher := .selecting
          goroutines := s.goroutines ++ [(task, .holding)] }
      else none
    | _ => none
  | .goroutineWorks k e =>
    match s.goroutines[k]? with
    | some (task, phase) =>
      (s.work task phase e).map fun (t, phase) =>
        { t with goroutines := t.goroutines.set k (task, phase) }
    | none => none
  | .stop => if s.stopping then none else some { s with stopping := true }
  | .dispatchLoopReturns =>
    match s.dispatcher with
    | .selecting => if s.stopping then some { s with dispatcher := .returned } else none
    | _ => none
  | .stopReturns =>
    match s.dispatcher with
    | .returned => if s.goroutines.all finished && !s.stopped then some { s with stopped := true } else none
    | _ => none

/-! ### What a step does -/

/-- The ways a step can end, each with what it found and what it leaves. -/
inductive Takes (config : PoolConfig) (s : Pool) : PoolEvent → Pool → Prop where
  | submit (task : Task) :
      Takes config s (.submit task) { s with calls := s.calls ++ [.submit task .called] }
  | submitSync (task : Task) :
      Takes config s (.submitSync task) { s with calls := s.calls ++ [.submitSync task .called] }
  /-- `Submit` finds the queue full. -/
  | refuse {i : ℕ} {task : Task} (call : s.calls[i]? = some (.submit task .called))
      (full : config.maxQueue ≤ s.queue.queueLen) :
      Takes config s (.check i) (s.setCall i (.submit task .refusing))
  /-- `Submit` finds room in the queue. -/
  | pass {i : ℕ} {task : Task} (call : s.calls[i]? = some (.submit task .called))
      (room : ¬ config.maxQueue ≤ s.queue.queueLen) :
      Takes config s (.check i) (s.setCall i (.submit task .admitted))
  /-- `SubmitSync` finds the queue full. -/
  | refuseSync {i : ℕ} {task : Task} (call : s.calls[i]? = some (.submitSync task .called))
      (full : config.maxQueue ≤ s.queue.queueLen) :
      Takes config s (.check i)
        (s.setCall i (.submitSync task (.refused (refusedResult task (queueFullSync config)))))
  /-- `SubmitSync` finds room in the queue, and a limiter. -/
  | limitSync {i : ℕ} {task : Task} (call : s.calls[i]? = some (.submitSync task .called))
      (room : ¬ config.maxQueue ≤ s.queue.queueLen) :
      Takes config s (.check i) (s.setCall i (.submitSync task .limiting))
  /-- `SubmitSync` finds room in the queue, and no limiter. -/
  | passSync {i : ℕ} {task : Task} (call : s.calls[i]? = some (.submitSync task .called))
      (room : ¬ config.maxQueue ≤ s.queue.queueLen) :
      Takes config s (.check i) (s.setCall i (.submitSync task .acquiring))
  | describe {i : ℕ} {task : Task} (call : s.calls[i]? = some (.submit task .refusing)) :
      Takes config s (.describe i)
        (s.setCall i (.submit task (.returned (some (queueFull config s.queue.queueLen)))))
  | enqueue {i : ℕ} {task : Task} (call : s.calls[i]? = some (.submit task .admitted)) :
      Takes config s (.enqueue i)
        ({ s with queue := s.queue.enqueue task }.setCall i (.submit task (.returned none)))
  /-- The limiter grants a token. -/
  | granted {i : ℕ} {task : Task} (call : s.calls[i]? = some (.submitSync task .limiting)) :
      Takes config s (.waited i none)
        ((s.countToken none).setCall i (.submitSync task .acquiring))
  /-- The limiter grants none. -/
  | denied {i : ℕ} {task : Task} {message : String}
      (call : s.calls[i]? = some (.submitSync task .limiting)) :
      Takes config s (.waited i (some message))
        ((s.countToken (some message)).setCall i
          (.submitSync task (.refused (refusedResult task s!"rate limit: {message}"))))
  | acquire {i : ℕ} {task : Task} (call : s.calls[i]? = some (.submitSync task .acquiring))
      (slot : s.sem < config.workers) :
      Takes config s (.acquire i)
        ({ s with sem := s.sem + 1 }.setCall i (.submitSync task (.working .holding)))
  | expire {i : ℕ} {task : Task} (call : s.calls[i]? = some (.submitSync task .acquiring)) :
      Takes config s (.expire i)
        (s.setCall i (.submitSync task (.refused (refusedResult task "timeout waiting for worker"))))
  | callWorks {i : ℕ} {e : WorkerEvent} {task : Task} {phase phase' : WorkerPhase} {t : Pool}
      (call : s.calls[i]? = some (.submitSync task (.working phase)))
      (works : s.work task phase e = some (t, phase')) :
      Takes config s (.callWorks i e) (t.setCall i (.submitSync task (.working phase')))
  | tick (selecting : s.dispatcher = .selecting) : Takes config s .tick (s.tick config)
  | dispatchWaited {error : Option String} {task : Task} (limiting : s.dispatcher = .limiting task) :
      Takes config s (.dispatchWaited error)
        { s.countToken error with dispatcher := .acquiring task }
  | dispatch {task : Task} (acquiring : s.dispatcher = .acquiring task)
      (slot : s.sem < config.workers) :
      Takes config s .dispatch
        { s with
          sem := s.sem + 1
          dispatcher := .selecting
          goroutines := s.goroutines ++ [(task, .holding)] }
  | goroutineWorks {k : ℕ} {e : WorkerEvent} {task : Task} {phase phase' : WorkerPhase} {t : Pool}
      (goroutine : s.goroutines[k]? = some (task, phase))
      (works : s.work task phase e = some (t, phase')) :
      Takes config s (.goroutineWorks k e)
        { t with goroutines := t.goroutines.set k (task, phase') }
  | stop (running : s.stopping = false) : Takes config s .stop { s with stopping := true }
  | dispatchLoopReturns (selecting : s.dispatcher = .selecting) :
      Takes config s .dispatchLoopReturns { s with dispatcher := .returned }
  | stopReturns (returned : s.dispatcher = .returned) :
      Takes config s .stopReturns { s with stopped := true }

variable {config : PoolConfig} {s u : Pool}

/-- **What a step does**: proofs about all steps go by cases on `Takes`. -/
theorem takes_of_step {e : PoolEvent} (h : s.step config e = some u) : Takes config s e u := by
  cases e with
  | submit task =>
    cases h
    exact .submit task
  | submitSync task =>
    cases h
    exact .submitSync task
  | check i =>
    simp only [step] at h
    split at h
    · rename_i task hcall
      split at h
      · rename_i hfull
        cases h
        exact .refuse hcall hfull
      · rename_i hroom
        cases h
        exact .pass hcall hroom
    · rename_i task hcall
      split at h
      · rename_i hfull
        cases h
        exact .refuseSync hcall hfull
      · rename_i hroom
        split at h
        · cases h
          exact .limitSync hcall hroom
        · cases h
          exact .passSync hcall hroom
    · cases h
  | describe i =>
    simp only [step] at h
    split at h
    · rename_i task hcall
      cases h
      exact .describe hcall
    · cases h
  | enqueue i =>
    simp only [step] at h
    split at h
    · rename_i task hcall
      cases h
      exact .enqueue hcall
    · cases h
  | waited i error =>
    simp only [step] at h
    split at h
    · rename_i task hcall
      cases h
      cases error with
      | none => exact .granted hcall
      | some message => exact .denied hcall
    · cases h
  | acquire i =>
    simp only [step] at h
    split at h
    · rename_i task hcall
      split at h
      · rename_i hslot
        cases h
        exact .acquire hcall hslot
      · cases h
    · cases h
  | expire i =>
    simp only [step] at h
    split at h
    · rename_i task hcall
      cases h
      exact .expire hcall
    · cases h
  | callWorks i e =>
    simp only [step] at h
    split at h
    · rename_i task phase hcall
      obtain ⟨⟨t, phase'⟩, hwork, rfl⟩ := Option.map_eq_some_iff.mp h
      exact .callWorks hcall hwork
    · cases h
  | tick =>
    simp only [step] at h
    split at h
    · rename_i hselecting
      cases h
      exact .tick hselecting
    · cases h
  | dispatchWaited error =>
    simp only [step] at h
    split at h
    · rename_i task hlimiting
      cases h
      exact .dispatchWaited hlimiting
    · cases h
  | dispatch =>
    simp only [step] at h
    split at h
    · rename_i task hacquiring
      split at h
      · rename_i hslot
        cases h
        exact .dispatch hacquiring hslot
      · cases h
    · cases h
  | goroutineWorks k e =>
    simp only [step] at h
    split at h
    · rename_i task phase hgoroutine
      obtain ⟨⟨t, phase'⟩, hwork, rfl⟩ := Option.map_eq_some_iff.mp h
      exact .goroutineWorks hgoroutine hwork
    · cases h
  | stop =>
    simp only [step] at h
    split at h
    · cases h
    · rename_i hrunning
      cases h
      exact .stop (by simpa using hrunning)
  | dispatchLoopReturns =>
    simp only [step] at h
    split at h
    · rename_i hselecting
      split at h
      · cases h
        exact .dispatchLoopReturns hselecting
      · cases h
    · cases h
  | stopReturns =>
    simp only [step] at h
    split at h
    · rename_i hreturned
      split at h
      · cases h
        exact .stopReturns hreturned
      · cases h
    · cases h

end Pool

end BulkTraffic.GoEngine
