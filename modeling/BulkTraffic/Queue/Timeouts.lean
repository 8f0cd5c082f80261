import BulkTraffic.Queue.BatchMirror
import BulkTraffic.Queue.Ticks
import BulkTraffic.Lab.ConsumerConfig

/-!
# Timeouts

`withExecutionTimeout` rejects a task whose execution takes too long, and
`wrapTaskWithQueueTimeout` one that waits too long. Both hand their number of milliseconds to
`setTimeout`, which waits for delays up to `timeoutMax` and takes any longer one as one
millisecond (`timerDelay`). The options of `enqueue` and the environment may give any positive
integer.

`TimedQueue` is the queue with a clock: every event happens at a time, the clock never goes
back, and a timer fires when its delay is over or later. A run with the clock is a run of the
queue (`TimedQueue.reachable_system`).

* `TimedQueue.rejections_onTime_iff`: exactly the timeouts up to `timeoutMax` never fire early.
-/

namespace BulkTraffic.Queue

open BulkTraffic.Lib BulkTraffic.Js

/-! ### Timers -/

/-- The longest delay of `setTimeout`. -/
def timeoutMax : ℕ := 2147483647

/-- The milliseconds after which `setTimeout(.., ms)` fires. -/
def timerDelay (ms : ℕ) : ℕ := if 1 ≤ ms ∧ ms ≤ timeoutMax then ms else 1

/-- Up to the longest delay, a timer waits as long as it is told to. -/
theorem le_timerDelay {ms : ℕ} (h : ms ≤ timeoutMax) : ms ≤ timerDelay ms := by
  unfold timerDelay
  by_cases hpos : 1 ≤ ms
  · rw [if_pos ⟨hpos, h⟩]
  · omega

/-- Beyond it, a millisecond. -/
theorem timerDelay_of_lt {ms : ℕ} (h : timeoutMax < ms) : timerDelay ms = 1 :=
  if_neg fun hle => Nat.not_le_of_lt h hle.2

/-- The rejection of a task whose execution has taken too long. -/
def executionTimeoutMessage (timeoutMs : ℕ) : String :=
  "작업 실행 시간 초과 (" ++ numberText (.finite timeoutMs) ++ "ms)"

/-- The timers that reject tasks. -/
inductive TimeoutKind where
  /-- The timer of `withExecutionTimeout`. -/
  | execution
  /-- The timer of `wrapTaskWithQueueTimeout`. -/
  | queueWait
  deriving DecidableEq

/-- A rejection by a timer. -/
structure TimeoutRejection where
  task : QueueTask
  kind : TimeoutKind
  /-- The milliseconds since the execution began, or since the task was enqueued. -/
  elapsed : ℕ

/-! ### The queue with a clock -/

/-- A promise chain on the main thread. -/
inductive Chain where
  /-- The chain of a task dispatched one by one. -/
  | single (k : ℕ)
  /-- The chain of a task of a group. -/
  | member (k m : ℕ)

/-- The event of a chain that moves on. -/
def Chain.event (p : PromiseStep) : Chain → QueueEvent
  | single k => .single k p
  | member k m => .member k m p

namespace QueueSystem

/-- The task of a chain, and how far the chain has got. -/
def chainAt (s : QueueSystem) : Chain → Option RunningTask
  | .single k => s.running[k]?
  | .member k m => (s.groups[k]?).bind fun g => g.members[m]?

/-- The task whose `execute` an event calls. -/
def startsExecution (s : QueueSystem) : QueueEvent → Option QueueTask
  | .single k .start => (s.chainAt (.single k)).map RunningTask.task
  | .member k m .start => (s.chainAt (.member k m)).map RunningTask.task
  | _ => none

/-- Can the event happen at this time? Where it reads the clock it reads this time, and a
queue-wait timer has waited for its delay. -/
def isTimely (s : QueueSystem) (time : ℕ) : QueueEvent → Bool
  | .enqueue _ now | .batchTrigger _ now | .batchAgingTimer now | .memoryCheckTimer _ now =>
    now == time
  | .queueWaitTimer k =>
    (s.timers[k]?).all fun task =>
      task.timestamp + timerDelay s.state.config.taskTimeoutMs ≤ time
  | _ => true

/-- What an event rejects because it has waited too long. -/
def waitRejections (s : QueueSystem) (time : ℕ) : QueueEvent → List TimeoutRejection
  | .queueWaitTimer k =>
    match s.timers[k]? with
    | none => []
    | some task =>
      if (s.state.removeTaskFromQueues task).1 then
        [{ task := task, kind := .queueWait, elapsed := time - task.timestamp }]
      else []
  | _ => []

end QueueSystem

/-- The queue with a clock. -/
structure TimedQueue where
  system : QueueSystem
  /-- The time of the last event. -/
  now : ℕ := 0
  /-- When the execution of a task began. -/
  startedAt : ℕ → Option ℕ := fun _ => none
  /-- The rejections by timers. -/
  rejections : List TimeoutRejection := []

/-- What can happen, and when. -/
inductive TimedEvent where
  /-- An event of the queue that is no timer of an execution. -/
  | queue (time : ℕ) (e : QueueEvent)
  /-- The timer of the execution of a chain's task fires. -/
  | executionTimer (time : ℕ) (c : Chain)

namespace TimedQueue

/-- The executions begun after an event. -/
def afterStart (q : TimedQueue) (time : ℕ) (e : QueueEvent) : ℕ → Option ℕ :=
  match q.system.startsExecution e with
  | none => q.startedAt
  | some task => Function.update q.startedAt task.id (some time)

/-- An event of the queue at a time. -/
def onEvent (q : TimedQueue) (time : ℕ) (e : QueueEvent) : Option TimedQueue :=
  if q.now ≤ time ∧ q.system.isTimely time e = true then
    (q.system.step e).map fun system => {
      system := system
      now := time
      startedAt := q.afterStart time e
      rejections := q.rejections ++ q.system.waitRejections time e }
  else none

/-- The callback of the timer of an execution, armed for `timeout` at the time `since`. -/
def expire (q : TimedQueue) (time : ℕ) (c : Chain) (task : QueueTask) (timeout since : ℕ) :
    Option TimedQueue :=
  if q.now ≤ time ∧ since + timerDelay timeout ≤ time then
    (q.system.step (c.event (.finish (.error (.error (executionTimeoutMessage timeout)))))).map
      fun system => { q with
        system := system
        now := time
        rejections := q.rejections ++ [{ task := task, kind := .execution, elapsed := time - since }] }
  else none

/-- The timer of the execution of a chain's task fires: it has been armed and not been cleared
while the execution is under way. -/
def onExecutionTimer (q : TimedQueue) (time : ℕ) (c : Chain) : Option TimedQueue :=
  match q.system.chainAt c with
  | some { task := task, stage := .started } =>
    match task.timeout, q.startedAt task.id with
    | some timeout, some since => q.expire time c task timeout since
    | _, _ => none
  | _ => none

/-- One event. -/
def step (q : TimedQueue) : TimedEvent → Option TimedQueue
  | .queue time e => q.onEvent time e
  | .executionTimer time c => q.onExecutionTimer time c

/-! ### What a step rejects -/

/-- A rejection no earlier than the delay of its timer. -/
structure AfterDelay (config : QueueConfig) (r : TimeoutRejection) : Prop where
  execution : r.kind = .execution → ∀ ms, r.task.timeout = some ms → timerDelay ms ≤ r.elapsed
  queueWait : r.kind = .queueWait → timerDelay config.taskTimeoutMs ≤ r.elapsed

/-- A queue-wait timer that fires in time. -/
theorem afterDelay_of_mem_waitRejections {s : QueueSystem} {time : ℕ} {e : QueueEvent}
    (htimely : s.isTimely time e = true) {r : TimeoutRejection}
    (hr : r ∈ s.waitRejections time e) : AfterDelay s.state.config r := by
  cases e with
  | queueWaitTimer k =>
    simp only [QueueSystem.waitRejections] at hr
    simp only [QueueSystem.isTimely] at htimely
    split at hr
    · cases hr
    · rename_i task htask
      rw [htask] at htimely
      simp only [Option.all_some, decide_eq_true_eq] at htimely
      split at hr
      · obtain rfl := List.mem_singleton.mp hr
        refine ⟨fun hkind => ?_, fun _ => Nat.le_sub_of_add_le' htimely⟩
        cases hkind
      · cases hr
  | _ => cases hr

/-- **What a step does**: a step of the queue, and rejections by timers that have waited for
their delay. -/
theorem step_cases {q u : TimedQueue} {e : TimedEvent} (h : q.step e = some u) :
    ∃ event rejections, q.system.step event = some u.system ∧
      u.rejections = q.rejections ++ rejections ∧
      ∀ r ∈ rejections, AfterDelay q.system.state.config r := by
  cases e with
  | queue time event =>
    simp only [step, onEvent] at h
    split at h
    · rename_i htime
      obtain ⟨system, hsystem, rfl⟩ := Option.map_eq_some_iff.mp h
      exact ⟨event, _, hsystem, rfl, fun _ hr => afterDelay_of_mem_waitRejections htime.2 hr⟩
    · cases h
  | executionTimer time c =>
    simp only [step, onExecutionTimer] at h
    split at h
    · rename_i task _
      split at h
      · rename_i timeout since htimeout _
        unfold expire at h
        split at h
        · rename_i htime
          obtain ⟨system, hsystem, rfl⟩ := Option.map_eq_some_iff.mp h
          refine ⟨_, _, hsystem, rfl, fun r hr => ?_⟩
          obtain rfl := List.mem_singleton.mp hr
          constructor
          · intro _ ms hms
            obtain rfl := Option.some.inj (hms.symm.trans htimeout)
            exact Nat.le_sub_of_add_le' htime.2
          · intro hkind
            cases hkind
        · cases h
      · cases h
    · cases h

/-- A run with the clock is a run of the queue. -/
theorem reachable_system {q u : TimedQueue} (h : Reachable step q u) :
    Reachable QueueSystem.step q.system u.system := by
  refine h.invariant (P := fun u => Reachable QueueSystem.step q.system u.system) .refl ?_
  intro t e u ht _ hu
  obtain ⟨event, _, hstep, -⟩ := step_cases hu
  exact ht.next event trivial hstep

end TimedQueue

/-! ### Timeouts beyond the longest delay -/

/-- A positive integer is accepted. -/
theorem QueueOptionsParser.parsePositiveIntegerOption_natCast {n : ℕ} (h : 0 < n) (name : String)
    (fallback : ℕ) : parsePositiveIntegerOption (.num (.finite n)) name fallback = .ok n := by
  simp [parsePositiveIntegerOption, JsValue.isNullish, JsValue.toNumber, Number.toInteger?,
    Nat.ne_of_gt h]

/-- What `normalizeEnqueueOptions` makes of options that give a timeout only. -/
def onlyTimeout (timeout : ℕ) : NormalizedEnqueueOptions where
  priority := 0
  category := "default"
  size := 1
  timeout := timeout
  workloadType := none
  params := []
  functionCode := none
  batch := false
  requestId := none

/-- **Every positive integer is accepted as a timeout.** -/
theorem QueueOptionsParser.normalizeEnqueueOptions_timeout (p : QueueOptionsParser) {n : ℕ}
    (h : 0 < n) (fallback : ℕ) :
    p.normalizeEnqueueOptions { timeout := .num (.finite n) } fallback = (.ok (onlyTimeout n), p) := by
  have hleading : parseLeading { timeout := .num (.finite n) } fallback =
      .ok (0, "default", 1, n) := by
    simp [parseLeading, parsePositiveIntegerOption_natCast h, parsePriorityOption,
      parseCategoryOption, JsValue.isNullish, bind, Except.bind, pure, Except.pure]
    rfl
  unfold normalizeEnqueueOptions
  rw [hleading]
  rfl

namespace QueueSystem

/-- The queue-wait timer of a task that was just accepted finds it. -/
theorem removeTaskFromQueues_accept (s : QueueSystem) (timeout : ℕ) :
    ((s.accept (onlyTimeout timeout) 0).state.removeTaskFromQueues
      (s.newTask (onlyTimeout timeout) 0)).1 = true := by
  have hwaits : (s.accept (onlyTimeout timeout) 0).state.normalPriorityQueue =
      s.state.normalPriorityQueue ++ [s.newTask (onlyTimeout timeout) 0] := rfl
  unfold QueueStateHolder.removeTaskFromQueues
  simp [hwaits, QueueTask.same, apply_ite Prod.fst]

/-- Nothing waits and nothing is under way. -/
structure Idle (s : QueueSystem) : Prop where
  memoryPressure : s.memoryPressure = false
  isProcessingQueue : s.state.isProcessingQueue = false
  activeRequests : s.state.activeRequests = 0
  high : s.state.highPriorityQueue = []
  normal : s.state.normalPriorityQueue = []
  low : s.state.lowPriorityQueue = []
  batches : s.state.batchQueues = .empty
  timers : s.timers = []
  running : s.running = []

/-- The queue is idle at the start. -/
theorem initial_idle (config : QueueConfig) (taskIdCounter : ℕ) (stats : QueueStatsService)
    (allowCustomWorkload useWorkers : Bool) (workerCount : ℕ) (cpu memory custom : Option ℕ) :
    (initial config taskIdCounter stats allowCustomWorkload useWorkers workerCount cpu memory
      custom).Idle :=
  ⟨rfl, rfl, rfl, rfl, rfl, rfl, rfl, rfl, rfl⟩

namespace Idle

variable {s : QueueSystem}

/-- A task with the given timeout is accepted. -/
theorem enqueue (hs : s.Idle) {timeout : ℕ} (h : 0 < timeout) :
    (s.enqueue { timeout := .num (.finite timeout) } 0).2 = s.accept (onlyTimeout timeout) 0 := by
  have hthreshold := s.state.config.queueOverflowThreshold_pos
  have hlength : s.state.getTotalQueueLength = 0 := by
    unfold QueueStateHolder.getTotalQueueLength QueueStateHolder.getBatchTaskCount
    rw [hs.high, hs.normal, hs.low, hs.batches]
    rfl
  unfold QueueSystem.enqueue
  rw [s.parser.normalizeEnqueueOptions_timeout h]
  dsimp only
  rw [if_neg (by simp [hs.memoryPressure]), if_neg (by omega)]

/-- The signal that follows hands the task over to the main thread. -/
theorem processSignal (hs : s.Idle) (timeout : ℕ) :
    ∃ u, (s.accept (onlyTimeout timeout) 0).step (.processSignal fun _ => none) = some u ∧
      u.running = [{ task := s.newTask (onlyTimeout timeout) 0 }] := by
  let accepted := s.accept (onlyTimeout timeout) 0
  let t : QueueSystem :=
    { accepted with state := { accepted.state with processSignalPending := false } }
  let task := s.newTask (onlyTimeout timeout) 0
  refine ⟨t.processQueue fun _ => none, rfl, ?_⟩
  have hmax := s.state.config.maxConcurrentRequests_pos
  have htasks := s.state.config.concurrentTasks_pos
  have hnone := hs.activeRequests
  have hactive : t.state.activeRequests < t.state.config.maxConcurrentRequests := by
    change s.state.activeRequests < s.state.config.maxConcurrentRequests
    omega
  have hdispatched := dispatched_drainQueues t t.availableSlots
  have hsame := sameQueues_afterLoops (fun _ => none) t (t.drainQueues t.availableSlots).1
  have hidle : t.state.isProcessingQueue = false := hs.isProcessingQueue
  rw [← processQueue_eq (fun _ => none) hidle hactive] at hsame
  have hvisited : t.visited = [task] := by
    change s.state.highPriorityQueue ++ (s.state.normalPriorityQueue ++ [task]) ++
      (if s.memoryPressure then [] else s.state.lowPriorityQueue) = [task]
    simp [hs.high, hs.normal, hs.low]
  have hslots : 1 ≤ t.availableSlots := by
    change 1 ≤ min s.state.config.concurrentTasks
      ((s.state.config.maxConcurrentRequests : ℤ) - s.state.activeRequests).toNat
    omega
  have htaken : t.visited.take t.availableSlots = [task] := by
    rw [hvisited]
    exact List.take_of_length_le hslots
  have heligible : QueueSystem.isWorkerEligibleTask t.pool.useWorkers task = false := by
    simp [QueueSystem.isWorkerEligibleTask, task, QueueSystem.newTask, onlyTimeout]
  have hrunning : t.running = [] := hs.running
  rw [hsame.running, hdispatched.mainThread, htaken, hrunning]
  simp [QueueSystem.toMainThread, heligible, task]

end Idle

/-- A promise chain that can move on does. -/
theorem advanceSingle_of_next {s : QueueSystem} {k : ℕ} {p : PromiseStep} {r : RunningTask}
    {stage : Stage} (hr : s.running[k]? = some r) (hstage : r.stage.next p = some stage) :
    s.advanceSingle k p = some (({ s with running := s.running.set k { r with stage := stage } }.record
      (stepCalls r.task p stage)).countSingle p stage) := by
  unfold advanceSingle
  simp only [hr, hstage]

end QueueSystem

namespace TimedQueue

variable {s : QueueSystem}

/-- An event that can happen at this time does. -/
theorem step_queue {q : TimedQueue} {time : ℕ} {e : QueueEvent} {system : QueueSystem}
    (hnow : q.now ≤ time) (htimely : q.system.isTimely time e = true)
    (hstep : q.system.step e = some system) :
    q.step (.queue time e) = some {
      system := system
      now := time
      startedAt := q.afterStart time e
      rejections := q.rejections ++ q.system.waitRejections time e } := by
  simp only [step, onEvent]
  rw [if_pos ⟨hnow, htimely⟩, hstep]
  rfl

/-- A task with the given timeout is enqueued at time zero. -/
theorem exists_enqueued (hs : s.Idle) {timeout : ℕ} (h : 0 < timeout) :
    ∃ q, Reachable step { system := s } q ∧ q.system = s.accept (onlyTimeout timeout) 0 ∧
      q.now = 0 := by
  have hstep : step { system := s }
      (.queue 0 (.enqueue { timeout := .num (.finite timeout) } 0)) = _ :=
    step_queue (Nat.le_refl 0) rfl rfl
  exact ⟨_, .single trivial hstep, hs.enqueue h, rfl⟩

/-- A queue-wait timeout beyond the longest delay rejects a task after a millisecond. -/
theorem exists_early_wait (hs : s.Idle) (h : timeoutMax < s.state.config.taskTimeoutMs) :
    ∃ q, Reachable step { system := s } q ∧
      ∃ r ∈ q.rejections, r.kind = .queueWait ∧ r.elapsed = 1 := by
  obtain ⟨q, hq, hsystem, hnow⟩ := exists_enqueued hs Nat.one_pos
  let task := s.newTask (onlyTimeout 1) 0
  let rejection : TimeoutRejection := { task := task, kind := .queueWait, elapsed := 1 }
  have htimer : q.system.timers[0]? = some task := by
    rw [hsystem]
    change (s.timers ++ [task])[0]? = some task
    rw [hs.timers]
    rfl
  have hconfig : q.system.state.config = s.state.config := by
    rw [hsystem]
    rfl
  have htimely : q.system.isTimely 1 (.queueWaitTimer 0) = true := by
    simp only [QueueSystem.isTimely, htimer, hconfig, timerDelay_of_lt h]
    rfl
  have hrejected : q.system.waitRejections 1 (.queueWaitTimer 0) = [rejection] := by
    have hfound := s.removeTaskFromQueues_accept 1
    rw [← hsystem] at hfound
    simp only [QueueSystem.waitRejections, htimer]
    exact if_pos hfound
  obtain ⟨u, hu⟩ : ∃ u, q.system.step (.queueWaitTimer 0) = some u := by
    simp only [QueueSystem.step, htimer]
    exact ⟨_, rfl⟩
  refine ⟨_, hq.next _ trivial (step_queue (by omega) htimely hu), rejection, ?_, rfl, rfl⟩
  exact List.mem_append_right _ (hrejected ▸ List.mem_singleton_self rejection)

/-- The execution of a task begins at time zero. -/
theorem exists_started (hs : s.Idle) {timeout : ℕ} (h : 0 < timeout) :
    ∃ q task, Reachable step { system := s } q ∧ task.timeout = some timeout ∧
      q.system.running = [{ task := task, stage := .started }] ∧
      q.startedAt task.id = some 0 ∧ q.now = 0 := by
  obtain ⟨q, hq, hsystem, hnow⟩ := exists_enqueued hs h
  let task := s.newTask (onlyTimeout timeout) 0
  obtain ⟨u, hu, hrunning⟩ := hs.processSignal timeout
  have hsignal : q.step (.queue 0 (.processSignal fun _ => none)) = _ :=
    step_queue (by omega) rfl (hsystem ▸ hu)
  have hchain : u.running[0]? = some { task := task } := by
    rw [hrunning]
    rfl
  have hstart : u.step (.single 0 .start) = _ := QueueSystem.advanceSingle_of_next hchain rfl
  refine ⟨_, task, (hq.next _ trivial hsignal).next (.queue 0 (.single 0 .start)) trivial
    (step_queue (Nat.le_refl 0) rfl hstart), rfl, ?_, ?_, rfl⟩
  · rw [(QueueSystem.sameTasks_countSingle _ _ _).running]
    change u.running.set 0 _ = _
    rw [hrunning]
    rfl
  · have hstarts : u.startsExecution (.single 0 .start) = some task := by
      simp [QueueSystem.startsExecution, QueueSystem.chainAt, hchain]
    simp [afterStart, hstarts]

/-- A timeout beyond the longest delay rejects a task after a millisecond of its execution. -/
theorem exists_early_execution (hs : s.Idle) {timeout : ℕ} (h : timeoutMax < timeout) :
    ∃ q, Reachable step { system := s } q ∧
      ∃ r ∈ q.rejections, r.kind = .execution ∧ r.task.timeout = some timeout ∧
        r.elapsed = 1 := by
  obtain ⟨q, task, hq, htimeout, hrunning, hstarted, hnow⟩ :=
    exists_started hs (Nat.zero_lt_of_lt h)
  have hchain : q.system.running[0]? = some { task := task, stage := .started } := by
    rw [hrunning]
    rfl
  obtain ⟨u, hu⟩ : ∃ u, q.system.step
      (.single 0 (.finish (.error (.error (executionTimeoutMessage timeout))))) = some u :=
    ⟨_, QueueSystem.advanceSingle_of_next hchain rfl⟩
  let rejection : TimeoutRejection := { task := task, kind := .execution, elapsed := 1 }
  have hdelay := timerDelay_of_lt h
  have hstep : q.step (.executionTimer 1 (.single 0)) =
      some { q with system := u, now := 1, rejections := q.rejections ++ [rejection] } := by
    simp only [step, onExecutionTimer, QueueSystem.chainAt, hchain, htimeout, hstarted, expire]
    rw [if_pos ⟨by omega, by omega⟩]
    exact congrArg (Option.map _) hu
  refine ⟨_, hq.next _ trivial hstep, rejection, ?_, rfl, htimeout, rfl⟩
  exact List.mem_append_right _ (List.mem_singleton_self rejection)

/-! ### Which timeouts never fire early -/

/-- In every run, no rejection comes before the delay of its timer is over. -/
theorem afterDelay_of_reachable (hs : s.Idle) {q : TimedQueue}
    (h : Reachable step { system := s } q) : ∀ r ∈ q.rejections, AfterDelay s.state.config r := by
  refine (h.invariant (P := fun q => Reachable step { system := s } q ∧
    ∀ r ∈ q.rejections, AfterDelay s.state.config r) ⟨.refl, fun r hr => by cases hr⟩ ?_).2
  intro t e u ⟨hreach, ht⟩ _ hu
  obtain ⟨event, rejections, -, hrejections, hnew⟩ := step_cases hu
  have hconfig := QueueSystem.config_of_reachable ⟨hs.high, hs.normal, hs.low⟩
    (reachable_system hreach)
  refine ⟨hreach.next e trivial hu, fun r hr => ?_⟩
  rw [hrejections] at hr
  rcases List.mem_append.mp hr with hold | hadded
  · exact ht r hold
  · exact hconfig ▸ hnew r hadded

variable {config : QueueConfig} {taskIdCounter : ℕ} {stats : QueueStatsService}
  {allowCustomWorkload useWorkers : Bool} {workerCount : ℕ} {cpu memory custom : Option ℕ}

/-- **Timeouts that never fire early** are those up to the longest delay of `setTimeout`: in no
run is a task with this `timeout` rejected before its execution has taken that long, and in no run
is a task rejected before it has waited for `taskTimeoutMs`. For any longer timeout there is a run
in which it fires early. -/
theorem rejections_onTime_iff (timeout : ℕ) :
    ((∀ q, Reachable step { system := (.initial config taskIdCounter stats allowCustomWorkload
          useWorkers workerCount cpu memory custom) } q →
        ∀ r ∈ q.rejections, r.kind = .execution → r.task.timeout = some timeout →
          timeout ≤ r.elapsed) ↔ timeout ≤ timeoutMax) ∧
    ((∀ q, Reachable step { system := (.initial config taskIdCounter stats allowCustomWorkload
          useWorkers workerCount cpu memory custom) } q →
        ∀ r ∈ q.rejections, r.kind = .queueWait → config.taskTimeoutMs ≤ r.elapsed) ↔
      config.taskTimeoutMs ≤ timeoutMax) := by
  have hidle := QueueSystem.initial_idle config taskIdCounter stats allowCustomWorkload useWorkers
    workerCount cpu memory custom
  constructor
  · constructor
    · intro hnever
      by_contra hlong
      obtain ⟨q, hq, r, hr, hkind, htimeout, helapsed⟩ :=
        exists_early_execution hidle (Nat.lt_of_not_le hlong)
      have := hnever q hq r hr hkind htimeout
      unfold timeoutMax at hlong
      omega
    · intro hle q hq r hr hkind htimeout
      exact (le_timerDelay hle).trans
        ((afterDelay_of_reachable hidle hq r hr).execution hkind timeout htimeout)
  · constructor
    · intro hnever
      by_contra hlong
      obtain ⟨q, hq, r, hr, hkind, helapsed⟩ := exists_early_wait hidle (Nat.lt_of_not_le hlong)
      have := hnever q hq r hr hkind
      unfold timeoutMax at hlong
      omega
    · intro hle q hq r hr hkind
      exact (le_timerDelay hle).trans ((afterDelay_of_reachable hidle hq r hr).queueWait hkind)

/-- What the two runs below show: the rejections by timers, with the timeouts of their tasks, and
how often the task `1` was rejected. -/
def viewRejections (q : TimedQueue) : List (TimeoutKind × Option ℕ × ℕ) × ℕ :=
  (q.rejections.map fun r => (r.kind, r.task.timeout, r.elapsed),
    weight (Call.rejected 1) q.system.log)

/-- A task with a timeout of `2147483648` ms is rejected after a millisecond of its execution. Where
`QUEUE_TASK_TIMEOUT_MS` is `2147483648`, which `readPositiveIntEnv` takes as it is, a task is
rejected after it has waited for a millisecond. -/
theorem timeout_fires_early :
    (∃ q, Reachable step { system := .initial {} 0 {} false false 0 none none none } q ∧
      q.viewRejections = ([(.execution, some 2147483648, 1)], 1)) ∧
    Lab.readPositiveIntEnv (fun _ => some "2147483648") "QUEUE_TASK_TIMEOUT_MS" (.finite 15000) =
      .finite 2147483648 ∧
    ∃ q, Reachable step { system := (.initial { taskTimeoutMs := 2147483648 } 0 {} false false 0
        none none none) } q ∧
      q.viewRejections = ([(.queueWait, some 10000, 1)], 1) := by
  refine ⟨?_, by decide +kernel, ?_⟩
  · exact exists_reaches_of_runEvents step (fun _ _ => True) viewRejections
      [.queue 0 (.enqueue { timeout := .num (.finite 2147483648) } 0),
        .queue 0 (.processSignal fun _ => none), .queue 0 (.single 0 .start),
        .executionTimer 1 (.single 0), .queue 1 (.single 0 .settle)] _ (by decide +kernel)
  · exact exists_reaches_of_runEvents step (fun _ _ => True) viewRejections
      [.queue 0 (.enqueue {} 0), .queue 1 (.queueWaitTimer 0)] _ (by decide +kernel)

end TimedQueue

end BulkTraffic.Queue
