import BulkTraffic.Queue.CustomWorkload
import BulkTraffic.Queue.WorkerThread
import Mathlib.Data.Nat.Fib.Basic

/-!
# What the workers' results are

The pool and the worker threads together: a worker answers the messages posted to it as `worker.js`
does (`answers_in_order`). Every task that a result settles is then settled by what its own
operation computes from its own parameters. The results are about workers that run no code of
tasks, which could replace what the other operations calculate with.

* `WorkerPoolService.Known`: the tasks the pool knows of were accepted.
* `results_are_own`: over whole runs.
-/

namespace BulkTraffic.Queue

open BulkTraffic.Lib BulkTraffic.Js BulkTraffic.Workload

/-- The type of a message, as it is posted. -/
def DispatchableWorkloadType.text : DispatchableWorkloadType → String
  | .cpu => "cpu"
  | .memory => "memory"
  | .custom => "custom"

/-- A task's message as the listener of the worker reads it. -/
def TaskMessage.request (message : TaskMessage) : WorkerRequest where
  type := some message.type.text
  operation := some message.operation
  params := some message.params
  functionCode := message.functionCode
  timeout := message.timeout

/-- A task as it is picked for a worker. -/
def picked (taskData : WorkerTaskData) (type : DispatchableWorkloadType) : WorkerTaskData :=
  { taskData with type := some type.toWorkloadType }

/-- The request a worker gets for a task of a type. -/
def requestFor (taskData : WorkerTaskData) (type : DispatchableWorkloadType) : WorkerRequest :=
  (WorkerPoolService.messageOf (picked taskData type) type).request

/-- The result is an answer to the task's own message. -/
def OwnAnswer (allow : Bool) (accepted : List WorkerTaskData) (task : QueueTask)
    (result : WorkerMessage) : Prop :=
  ∃ taskData ∈ accepted, taskData.task = task ∧ ∃ type : DispatchableWorkloadType,
    determineTaskType taskData = type.toWorkloadType ∧
      WorkerThread.Answers allow (requestFor taskData type) result

/-- What settles a task by a worker is an answer to it, or the report of a failure. -/
def SettlesRight (allow : Bool) (accepted : List WorkerTaskData) : Call → Prop
  | .resolve task .worker value =>
    ∃ result, OwnAnswer allow accepted task result ∧ result.success = true ∧ result.result = value
  | .reject task .worker thrown =>
    (∃ error, thrown = .error (WorkerPoolService.failureMessage error)) ∨
      ∃ result, OwnAnswer allow accepted task result ∧ result.success = false ∧
        thrown = .error (WorkerPoolService.resultFailedMessage result)
  | _ => True

/-- A call that settles no task by a worker. -/
theorem settlesRight_of_none {allow : Bool} {accepted : List WorkerTaskData} {call : Call}
    (h : call.settlesByWorker = none) : SettlesRight allow accepted call := by
  unfold SettlesRight
  split
  · cases h
  · cases h
  · trivial

/-- More tasks are accepted. -/
theorem OwnAnswer.mono {allow : Bool} {accepted more : List WorkerTaskData} {task : QueueTask}
    {result : WorkerMessage} (h : OwnAnswer allow accepted task result) (hsub : accepted ⊆ more) :
    OwnAnswer allow more task result := by
  obtain ⟨td, hmem, hrest⟩ := h
  exact ⟨td, hsub hmem, hrest⟩

theorem SettlesRight.mono {allow : Bool} {accepted more : List WorkerTaskData} {call : Call}
    (h : SettlesRight allow accepted call) (hsub : accepted ⊆ more) :
    SettlesRight allow more call := by
  unfold SettlesRight at h ⊢
  split at h
  · obtain ⟨result, hown, hrest⟩ := h
    exact ⟨result, hown.mono hsub, hrest⟩
  · refine h.imp id ?_
    rintro ⟨result, hown, hrest⟩
    exact ⟨result, hown.mono hsub, hrest⟩
  · trivial

namespace WorkerPoolService

variable {accepted : List WorkerTaskData} {s t : WorkerPoolService}

/-- A task that was picked. -/
def IsPicked (accepted : List WorkerTaskData) (taskData : WorkerTaskData)
    (type : DispatchableWorkloadType) : Prop :=
  ∃ td ∈ accepted, determineTaskType td = type.toWorkloadType ∧ taskData = picked td type

/-- The tasks that wait, that are assigned and that workers owe an answer were accepted. -/
structure Known (accepted : List WorkerTaskData) (s : WorkerPoolService) : Prop where
  pending : ∀ d ∈ s.workerTaskQueue, d ∈ accepted
  assigned : ∀ i d, s.assigned i = some d → ∃ type, IsPicked accepted d type
  live : ∀ i w, s.worker i = some w → ∀ p ∈ w.unanswered, ∃ type,
    IsPicked accepted p.taskData type ∧ p.message = messageOf p.taskData type

theorem Known.of_same (h : Known accepted s) (hqueue : t.workerTaskQueue = s.workerTaskQueue)
    (hassigned : ∀ i d, t.assigned i = some d → s.assigned i = some d)
    (hworker : ∀ i, t.worker i = s.worker i) : Known accepted t :=
  ⟨hqueue ▸ h.pending, fun i d hd => h.assigned i d (hassigned i d hd),
    fun i w hw => h.live i w (by rw [← hworker]; exact hw)⟩

theorem Known.dispatchTo (h : Known accepted s) (post : PostMessage) (i : ℕ) :
    Known accepted (s.dispatchTo post i).1 := by
  have hafter : Known accepted s.afterDequeue :=
    ⟨fun d hd => h.pending d ((s.router.dequeue_mem s.workerTaskQueue).1 d hd), h.assigned, h.live⟩
  obtain ⟨-, hd⟩ | ⟨d, type, hpicked, -, hd⟩ | ⟨d, type, thrown, -, -, hd⟩ :=
    dispatchTo_cases post s i
  · rw [hd]
    exact hafter
  · obtain ⟨c, hc, rfl, htype⟩ := (s.router.dequeue_mem s.workerTaskQueue).2 d type hpicked
    have hnew : IsPicked accepted (picked c type) type := ⟨c, h.pending c hc, htype, rfl⟩
    rw [hd]
    refine ⟨?_, fun j e he => ?_, fun j w hw p hp => ?_⟩
    · rw [assignTo_queue]
      exact hafter.pending
    · rw [assigned_assignTo] at he
      split at he
      · cases he
        exact ⟨type, hnew⟩
      · exact h.assigned j e he
    · rw [worker_assignTo] at hw
      split at hw
      · obtain ⟨w', hw', rfl⟩ := Option.map_eq_some_iff.mp hw
        rcases List.mem_append.mp hp with hp | hp
        · exact h.live i w' hw' p hp
        · rw [List.mem_singleton.mp hp]
          exact ⟨type, hnew, rfl⟩
      · exact h.live j w hw p hp
  · rw [hd]
    refine hafter.of_same rfl (fun j e he => ?_) fun _ => rfl
    rw [assigned_unassign] at he
    split at he
    · cases he
    · exact he

theorem Known.processWorkerTasks (h : Known accepted s) (post : PostMessage) :
    Known accepted (s.processWorkerTasks post).1 :=
  processWorkerTasks_invariant (P := Known accepted) (fun _ i _ h _ _ => h.dispatchTo post i) h

theorem Known.release (h : Known accepted s) (i : ℕ) : Known accepted (s.release i) := by
  refine h.of_same (release_queue s i) (fun j d hd => ?_) (release_worker s i)
  rw [release_assigned] at hd
  split at hd
  · cases hd
  · exact hd

/-- A slot is written with a worker that owes no more than before. -/
theorem Known.setWorker (h : Known accepted s) {i : ℕ} {w w' : Worker} (hw : s.worker i = some w)
    (hsub : ∀ p ∈ w'.unanswered, p ∈ w.unanswered) : Known accepted (s.setWorker i w') := by
  refine ⟨h.pending, h.assigned, fun j v hv p hp => ?_⟩
  rw [worker_setWorker] at hv
  split at hv
  · cases hv
    exact h.live i w hw p (hsub p hp)
  · exact h.live j v hv p hp

theorem Known.setBusy (h : Known accepted s) (i : ℕ) (b : Bool) : Known accepted (s.setBusy i b) :=
  h.of_same rfl (fun _ _ hd => hd) fun _ => rfl

theorem Known.createOrReplaceWorker (h : Known accepted s) (i : ℕ) :
    Known accepted (s.createOrReplaceWorker i) := by
  refine ⟨h.pending, h.assigned, fun j w hw p hp => ?_⟩
  rw [worker_createOrReplaceWorker] at hw
  split at hw
  · cases hw
    cases hp
  · exact h.live j w hw p hp

theorem Known.reportFailure (h : Known accepted s) (post : PostMessage) (i : ℕ) (error : String) :
    Known accepted (s.reportFailure (some (processorHandleWorkerResult post)) i error).1 := by
  rw [reportFailure_fst]
  split
  · exact (h.release i).processWorkerTasks post
  · exact h

theorem Known.handleWorkerFailure (h : Known accepted s) (post : PostMessage) (i : ℕ)
    (error : String) : Known accepted
      (s.handleWorkerFailure (some (processorHandleWorkerResult post)) i error).1 := by
  cases hdown : s.shuttingDown with
  | true => simpa [WorkerPoolService.handleWorkerFailure, hdown] using h
  | false =>
    rw [handleWorkerFailure_fst _ hdown]
    refine Known.createOrReplaceWorker ?_ i
    exact ((h.reportFailure post i error).setBusy i false).of_same rfl (fun _ _ hd => hd) fun _ => rfl

theorem known_initWorkerPool (router : WorkerTaskRouterService) (workerCount : ℕ) :
    Known [] (initWorkerPool { useWorkers := true, router := router } workerCount) := by
  refine initWorkerPool_invariant (P := Known []) (fun _ i h => h.createOrReplaceWorker i) ?_
    workerCount
  refine ⟨fun d hd => absurd hd List.not_mem_nil, fun i d hd => ?_, fun i w hw => ?_⟩
  · simp [WorkerPoolService.assigned, JsMap.get?_empty] at hd
  · simp [WorkerPoolService.worker] at hw

/-- More tasks are accepted. -/
theorem IsPicked.mono {more : List WorkerTaskData} {td : WorkerTaskData}
    {type : DispatchableWorkloadType} (h : IsPicked accepted td type) (hsub : accepted ⊆ more) :
    IsPicked more td type := by
  obtain ⟨c, hc, hrest⟩ := h
  exact ⟨c, hsub hc, hrest⟩

theorem Known.addTask (h : Known accepted s) (td : WorkerTaskData) :
    Known (td :: accepted) (s.addTask td) := by
  have hsub : accepted ⊆ td :: accepted := List.subset_cons_self _ _
  refine ⟨fun d hd => ?_, fun i d hd => ?_, fun i w hw p hp => ?_⟩
  · rcases List.mem_append.mp hd with hd | hd
    · exact hsub (h.pending d hd)
    · rw [List.mem_singleton.mp hd]
      exact List.mem_cons_self
  · obtain ⟨type, hpicked⟩ := h.assigned i d hd
    exact ⟨type, hpicked.mono hsub⟩
  · obtain ⟨type, hpicked, hmessage⟩ := h.live i w hw p hp
    exact ⟨type, hpicked.mono hsub, hmessage⟩

/-- A pass settles nothing by a worker. -/
theorem processWorkerTasks_right (allow : Bool) (accepted : List WorkerTaskData) (post : PostMessage)
    (s : WorkerPoolService) : ∀ call ∈ (s.processWorkerTasks post).2, SettlesRight allow accepted call :=
  fun call hcall => settlesRight_of_none
    (List.filterMap_eq_nil_iff.mp (processWorkerTasks_settlesByWorker post s) call hcall)

/-- The result handled at a slot settles the task assigned to it rightly. -/
theorem processorHandleWorkerResult_right {allow : Bool} {i : ℕ} {td : WorkerTaskData}
    (ha : s.assigned i = some td) (post : PostMessage) {result : WorkerMessage}
    (hright : (result.success = true → OwnAnswer allow accepted td.task result) ∧
      (result.success = false → SettlesRight allow accepted
        (.reject td.task .worker (.error (resultFailedMessage result))))) :
    ∀ call ∈ (processorHandleWorkerResult post s i result).2, SettlesRight allow accepted call := by
  intro call hcall
  rw [processorHandleWorkerResult_snd, handleWorkerResult_calls_of_some ha] at hcall
  rcases List.mem_append.mp hcall with hcall | hcall
  · split at hcall
    · rename_i hsuccess
      rcases List.mem_cons.mp hcall with rfl | hcall
      · exact ⟨result, hright.1 hsuccess, hsuccess, rfl⟩
      · rw [List.mem_singleton.mp hcall]
        trivial
    · rename_i hfailure
      rcases List.mem_cons.mp hcall with rfl | hcall
      · exact hright.2 (by simpa using hfailure)
      · rw [List.mem_singleton.mp hcall]
        trivial
  · exact processWorkerTasks_right allow accepted post _ call hcall

end WorkerPoolService

/-! ### What the operations compute -/

theorem determineOperation_picked {td : WorkerTaskData} {type : DispatchableWorkloadType}
    (h : determineTaskType td = type.toWorkloadType) :
    determineOperation (picked td type) = determineOperation td := by
  have htype : determineTaskType (picked td type) = determineTaskType td := by rw [h]; rfl
  unfold determineOperation
  rw [htype]
  rfl

/-- The operation a worker runs for a cpu task. -/
theorem lookupOperation_cpu {td : WorkerTaskData} (h : determineTaskType td = .cpu) {op : Operation}
    {name : String} (hname : determineOperation td = name)
    (hop : lookupOperation { type := some "cpu", operation := some name } = .ok op) :
    lookupOperation (requestFor td .cpu) = .ok op := by
  have hpicked : determineOperation (picked td .cpu) = determineOperation td :=
    determineOperation_picked h
  have hoperation : determineOperation (picked td .cpu) = name := hpicked.trans hname
  rw [← hop, requestFor, TaskMessage.request, WorkerPoolService.messageOf, hoperation]
  rfl

/-- A result of an operation that does one thing only. -/
theorem result_of_answers {allow : Bool} {data : WorkerRequest} {result : WorkerMessage}
    {op : Operation} {value : JsValue} (h : WorkerThread.Answers allow data result)
    (hop : lookupOperation data = .ok op) (hping : data.isPing = false)
    (honly : ∀ outcome, Performs allow data op outcome → outcome = .returns value) :
    result.success = true ∧ result.result = value := by
  cases h with
  | refused error herror =>
    rw [hop] at herror
    cases herror
  | ended operation outcome hoperation hperforms hpromise =>
    rw [hop] at hoperation
    cases hoperation
    obtain rfl := honly outcome hperforms
    simp only [answerOf, hping]
    exact ⟨rfl, rfl⟩
  | settled operation outcome hoperation hperforms =>
    rw [hop] at hoperation
    cases hoperation
    cases honly _ hperforms

/-- The values below a bound that come first. -/
theorem takeWhile_range {p : ℕ → Bool} {n : ℕ} (h : ∀ i, p i = decide (i < n)) (m : ℕ) :
    (List.range (n + m)).takeWhile p = List.range n := by
  have hfirst : ∀ i ∈ List.range n, p i = true := fun i hi => by
    rw [h i]
    exact decide_eq_true (List.mem_range.mp hi)
  rw [List.range_add, List.takeWhile_append_of_pos hfirst]
  cases m with
  | zero => simp
  | succ m => simp [List.range_succ_eq_map, h]

/-- The loop of `fibonacci` computes Fibonacci numbers. -/
theorem fibonacciPair_natCast {n : ℕ} (hn : n ≤ 45) :
    fibonacciPair (.finite n) = (Nat.fib n, Nat.fib (n + 1)) := by
  have hrounds : fibonacciRounds (.finite n) = List.range n := by
    have hlt : ∀ i : ℕ, Number.lt (.finite i) (.finite n) = decide (i < n) := by
      intro i
      rw [Bool.eq_iff_iff, decide_eq_true_iff]
      show decide ((i : ℚ) < n) = true ↔ _
      rw [decide_eq_true_iff, Nat.cast_lt]
    obtain ⟨m, hm⟩ := Nat.exists_eq_add_of_le hn
    rw [fibonacciRounds, hm, takeWhile_range fun i => hlt i]
  have hloop : ∀ k, (List.range k).foldl (fun (pair : ℕ × ℕ) _ => (pair.2, pair.1 + pair.2)) (0, 1) =
      (Nat.fib k, Nat.fib (k + 1)) := by
    intro k
    induction k with
    | zero => rfl
    | succ k ih =>
      rw [List.range_succ, List.foldl_append, ih]
      exact congrArg (Prod.mk _) Nat.fib_add_two.symm
  rw [fibonacciPair, hrounds, hloop]

/-- The tasks whose operation computes one value only, and that value. -/
inductive Computes (taskData : WorkerTaskData) : JsValue → Prop where
  | primes (max : ℕ) : determineTaskType taskData = .cpu →
      determineOperation taskData = "findPrimes" → 1 ≤ max →
      taskData.params.field "max" = .num (.finite max) →
      Computes taskData (primesValue (Primes.below (min max 2000000)))
  | fib (n : ℕ) : determineTaskType taskData = .cpu →
      determineOperation taskData = "fibonacci" → 1 ≤ n →
      taskData.params.field "n" = .num (.finite n) →
      Computes taskData (.obj [("n", .num (.finite (min n 45 : ℕ))),
        ("result", .ofInt (Nat.fib (min n 45)))])

/-- The minimum of natural numbers. -/
theorem min_natCast (m n : ℕ) : Number.min (.finite m) (.finite n) = .finite (min m n : ℕ) := by
  rcases Nat.le_total m n with hle | hge
  · have hcast : (m : ℚ) ≤ n := by exact_mod_cast hle
    simp only [Number.min, if_pos hcast, Nat.min_eq_left hle]
  · rw [Nat.min_eq_right hge]
    rcases Nat.eq_or_lt_of_le hge with rfl | hlt
    · simp [Number.min]
    · have hcast : ¬ (m : ℚ) ≤ n := by
        rw [not_le]
        exact_mod_cast hlt
      simp only [Number.min, if_neg hcast]

theorem Computes.result {allow : Bool} {td : WorkerTaskData} {value : JsValue}
    (h : Computes td value) {type : DispatchableWorkloadType}
    (htype : determineTaskType td = type.toWorkloadType) {result : WorkerMessage}
    (hanswers : WorkerThread.Answers allow (requestFor td type) result) :
    result.success = true ∧ result.result = value := by
  cases h with
  | primes max hcpu hname hmax hparams =>
    obtain rfl : type = .cpu := by
      rw [hcpu] at htype
      cases type <;> first | rfl | cases htype
    refine result_of_answers hanswers (lookupOperation_cpu hcpu hname rfl) rfl fun outcome h => ?_
    have hparams' : ((requestFor td .cpu).params.getD []).field "max" = .num (.finite max) := hparams
    rw [Performs, Node.findPrimes_natCast hmax hparams'] at h
    exact h
  | fib n hcpu hname hn hparams =>
    obtain rfl : type = .cpu := by
      rw [hcpu] at htype
      cases type <;> first | rfl | cases htype
    refine result_of_answers hanswers (lookupOperation_cpu hcpu hname rfl) rfl fun outcome h => ?_
    have hparams' : ((requestFor td .cpu).params.getD []).field "n" = .num (.finite n) := hparams
    have htruthy : (JsValue.num (.finite n)).truthy = true := by
      have hne : (n : ℚ) ≠ 0 := by exact_mod_cast (by omega : n ≠ 0)
      simp [JsValue.truthy, hne]
    have hindex : fibonacciIndex ((requestFor td .cpu).params.getD []) = .finite (min n 45 : ℕ) := by
      rw [fibonacciIndex, hparams', JsValue.orElse, if_pos htruthy]
      exact min_natCast n 45
    rw [Performs, fibonacci, hindex, fibonacciPair_natCast (Nat.min_le_right n 45)] at h
    exact h

namespace PoolRun

open WorkerPoolService

/-- A worker's answer is one that the message it answers may get. -/
def AnswersPosted (allow : Bool) (s : PoolRun) : PoolEvent → Prop
  | .message i result _ => ∀ pool p, s.pool.send i result = some (pool, some p) →
      WorkerThread.Answers allow p.message.request result
  | _ => True

/-- What holds of a pool whose workers answer like that. -/
structure ResultsRight (allow : Bool) (s : PoolRun) : Prop where
  attributable : Attributable none s.pool
  known : Known s.accepted s.pool
  distinct : s.accepted.Pairwise fun a b => a.task.id ≠ b.task.id
  log : ∀ call ∈ s.log, SettlesRight allow s.accepted call

variable {allow : Bool} {s u : PoolRun}

theorem ResultsRight.initial (allow : Bool) (workerCount : ℕ) (cpu memory custom : Option ℕ) :
    ResultsRight allow (PoolRun.initial workerCount cpu memory custom) :=
  ⟨Attributable.initial workerCount _, known_initWorkerPool _ workerCount, List.Pairwise.nil,
    fun _ hcall => absurd hcall List.not_mem_nil⟩

theorem isText_failureMessage (error : String) : isText (some (failureMessage error)) = true := by
  have hne : failureMessage error ≠ "" := by
    intro hempty
    have hchars := congrArg String.toList hempty
    unfold failureMessage at hchars
    rw [String.toList_append] at hchars
    exact absurd (List.append_eq_nil_iff.mp hchars).1 (by decide +kernel)
  simp only [isText, bne_iff_ne, ne_eq, hne, not_false_eq_true]

theorem resultFailedMessage_failure (error : String) :
    resultFailedMessage { success := false, error := some (failureMessage error) } =
      failureMessage error := by
  simp only [resultFailedMessage, isText_failureMessage, if_true, Option.getD_some]

/-- The report of a failure. -/
theorem handleWorkerFailure_right {accepted : List WorkerTaskData} {pool : WorkerPoolService}
    (post : PostMessage) (i : ℕ) (error : String) :
    ∀ call ∈ (pool.handleWorkerFailure (some (processorHandleWorkerResult post)) i error).2,
      SettlesRight allow accepted call := by
  intro call hcall
  cases hdown : pool.shuttingDown with
  | true => simp [handleWorkerFailure, hdown] at hcall
  | false =>
    rw [handleWorkerFailure_snd _ hdown, reportFailure] at hcall
    split at hcall
    · cases hcall
    · rename_i td ha
      refine processorHandleWorkerResult_right ha post ⟨fun h => (by cases h), fun _ => ?_⟩ call hcall
      exact .inl ⟨error, congrArg Thrown.error (resultFailedMessage_failure error)⟩

theorem ResultsRight.step {e : PoolEvent} (h : ResultsRight allow s) (hidle : InitializedIdle s e)
    (hanswers : AnswersPosted allow s e) (hu : s.step e = some u) : ResultsRight allow u := by
  cases e with
  | addTask td =>
    simp only [PoolRun.step] at hu
    split at hu
    · cases hu
    · rename_i hnew
      simp only [Option.some.injEq] at hu
      subst hu
      refine ⟨h.attributable, h.known.addTask td, List.pairwise_cons.mpr ⟨fun a ha heq => ?_, h.distinct⟩,
        fun call hcall => (h.log call hcall).mono (List.subset_cons_self _ _)⟩
      exact hnew (List.any_eq_true.mpr ⟨a, ha, by simp [heq]⟩)
  | processWorkerTasks post =>
    simp only [PoolRun.step, Option.some.injEq] at hu
    subst hu
    refine ⟨h.attributable.processWorkerTasks post, h.known.processWorkerTasks post, h.distinct,
      fun call hcall => ?_⟩
    rcases List.mem_append.mp hcall with hcall | hcall
    · exact h.log call hcall
    · exact processWorkerTasks_right allow _ post _ call hcall
  | failure i error post =>
    simp only [PoolRun.step, Option.some.injEq] at hu
    subst hu
    refine ⟨h.attributable.failure post i error, h.known.handleWorkerFailure post i error, h.distinct,
      fun call hcall => ?_⟩
    rcases List.mem_append.mp hcall with hcall | hcall
    · exact h.log call hcall
    · exact handleWorkerFailure_right post i error call hcall
  | message i result post =>
    simp only [PoolRun.step] at hu
    split at hu
    · cases hu
    · rename_i pool answered hsend
      simp only [Option.some.injEq] at hu
      subst hu
      obtain ⟨w, hw, ⟨-, hinit, rfl, rfl⟩ | ⟨p, rest, -, hp, hinit, hping, rfl, rfl⟩⟩ := send_cases hsend
      · rw [onMessage_of_initialized hinit]
        have hknown : Known s.accepted (s.pool.setWorker i { w with initialized := true }) :=
          h.known.setWorker hw fun p hp => hp
        refine ⟨h.attributable.initialized hw (hidle hinit), hknown.setBusy i false, h.distinct, ?_⟩
        simpa using h.log
      · rw [onMessage_of_answer hinit hping]
        obtain ⟨rfl, ha⟩ : rest = [] ∧ s.pool.assigned i = some p.taskData := by
          rcases h.attributable i w (by simp) hw with hn | ⟨-, q, hq, ha⟩
          · rw [hp] at hn
            cases hn
          · rw [hp] at hq
            cases hq
            exact ⟨rfl, ha⟩
        have hown : OwnAnswer allow s.accepted p.taskData.task result := by
          obtain ⟨type, ⟨c, hc, htype, hpicked⟩, hmessage⟩ := h.known.live i w hw p
            (hp ▸ List.mem_cons_self)
          have hanswer := hanswers _ p hsend
          rw [hmessage, hpicked] at hanswer
          exact ⟨c, hc, by rw [hpicked]; rfl, type, htype, hanswer⟩
        have hknown : Known s.accepted (s.pool.setWorker i { w with unanswered := [] }) :=
          h.known.setWorker hw fun q hq => absurd hq List.not_mem_nil
        refine ⟨h.attributable.answer rfl post result, ?_, h.distinct, fun call hcall => ?_⟩
        · rw [processorHandleWorkerResult_fst]
          exact (hknown.release i).processWorkerTasks post
        · rcases List.mem_append.mp hcall with hcall | hcall
          · exact h.log call hcall
          · refine processorHandleWorkerResult_right
              (s := s.pool.setWorker i { w with unanswered := [] }) ha post ⟨fun _ => hown, fun hfailure => ?_⟩ call hcall
            exact .inr ⟨result, hown, hfailure, rfl⟩

/-- A task is known by its number. -/
theorem ResultsRight.eq_of_task (h : ResultsRight allow s) {a b : WorkerTaskData}
    (ha : a ∈ s.accepted) (hb : b ∈ s.accepted) (htask : a.task = b.task) : a = b := by
  have hne : s.accepted.Pairwise fun a b => a.task = b.task → a = b :=
    h.distinct.imp fun hid heq => absurd (congrArg QueueTask.id heq) hid
  have hflip : s.accepted.Pairwise (flip fun a b => a.task = b.task → a = b) :=
    h.distinct.imp fun hid heq => absurd (congrArg QueueTask.id heq.symm) hid
  exact List.Pairwise.forall_of_forall_of_flip (fun _ _ _ => rfl) hne hflip ha hb htask

/-- **Every task is settled by its own operation**, in every run in which each `initialized` message
finds its slot idle and the workers answer as `worker.js` does without custom code: with a result
that its operation may return, or with its failure, or because a worker failed. A task to find
primes or a Fibonacci number is settled with the right answer, or because a worker failed. -/
theorem results_are_own {workerCount : ℕ} {cpu memory custom : Option ℕ}
    (h : Reaches step (fun s e => InitializedIdle s e ∧ AnswersPosted false s e)
      (initial workerCount cpu memory custom) s) :
    (∀ call ∈ s.log, SettlesRight false s.accepted call) ∧
    ∀ taskData ∈ s.accepted, ∀ value, Computes taskData value →
      (∀ result, .resolve taskData.task .worker result ∈ s.log → result = value) ∧
      ∀ thrown, .reject taskData.task .worker thrown ∈ s.log →
        ∃ error, thrown = .error (failureMessage error) := by
  have hright : ResultsRight false s := h.invariant
    (ResultsRight.initial false workerCount cpu memory custom)
    fun _ _ _ hs hok hu => hs.step hok.1 hok.2 hu
  have hown : ∀ taskData ∈ s.accepted, ∀ value, Computes taskData value → ∀ result,
      OwnAnswer false s.accepted taskData.task result →
      result.success = true ∧ result.result = value := by
    rintro td htd value hcomputes result ⟨c, hc, htask, type, htype, hanswers⟩
    obtain rfl := hright.eq_of_task hc htd htask
    exact hcomputes.result htype hanswers
  refine ⟨hright.log, fun td htd value hcomputes => ⟨fun v hv => ?_, fun thrown hthrown => ?_⟩⟩
  · obtain ⟨result, hanswer, -, rfl⟩ := hright.log _ hv
    exact (hown td htd value hcomputes result hanswer).2
  · rcases hright.log _ hthrown with hfailure | ⟨result, hanswer, hfailed, -⟩
    · exact hfailure
    · rw [(hown td htd value hcomputes result hanswer).1] at hfailed
      cases hfailed

/-- A task to find the tenth Fibonacci number. -/
def fibonacciTask : WorkerTaskData where
  task := { id := 1, timestamp := 0, priority := 0, category := some "fibonacci"
            workloadType := some .cpu }
  params := [("n", .num (.finite 10))]

/-- What the task is resolved with. -/
def tenthFibonacci : JsValue := .obj [("n", .num (.finite (10 : ℕ))), ("result", .ofInt 55)]

theorem computes_tenthFibonacci : Computes fibonacciTask tenthFibonacci :=
  .fib 10 rfl (by decide +kernel) (by decide) rfl

/-- A worker that starts, gets the task and answers it. -/
theorem results_are_own_of_fibonacci :
    ∃ s, Reaches step (fun s e => InitializedIdle s e ∧ AnswersPosted false s e)
        (initial 1 none none none) s ∧ .resolve fibonacciTask.task .worker tenthFibonacci ∈ s.log ∧
      ∀ result, .resolve fibonacciTask.task .worker result ∈ s.log → result = tenthFibonacci := by
  have hstart : Reaches step (fun s e => InitializedIdle s e ∧ AnswersPosted false s e)
      (initial 1 none none none) (initial 1 none none none) := .refl
  have hready := hstart.next (PoolEvent.message 0 { initialized := true } fun _ => none)
    ⟨fun _ => rfl, fun pool p hsend => by cases hsend⟩ rfl
  have hposted := (hready.next (PoolEvent.addTask fibonacciTask) ⟨trivial, trivial⟩ rfl).next
    (PoolEvent.processWorkerTasks fun _ => none) ⟨trivial, trivial⟩ rfl
  have hanswer : WorkerThread.Answers false (requestFor fibonacciTask .cpu)
      { success := true, result := tenthFibonacci } :=
    .ended .fibonacci (.returns tenthFibonacci) rfl rfl nofun
  have hanswered := hposted.next
    (PoolEvent.message 0 { success := true, result := tenthFibonacci } fun _ => none)
    ⟨nofun, fun pool p hsend => by
      have hp := Option.some.inj (Option.some.inj (congrArg (Option.map Prod.snd) hsend))
      rw [← hp]
      exact hanswer⟩ rfl
  refine ⟨_, hanswered, ?_, ((results_are_own hanswered).2 fibonacciTask ?_ tenthFibonacci
    computes_tenthFibonacci).1⟩
  · exact List.mem_append_right _ List.mem_cons_self
  · exact List.mem_cons_self

end PoolRun

end BulkTraffic.Queue
