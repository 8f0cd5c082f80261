import BulkTraffic.Queue.Task
import BulkTraffic.Lib.ClassQueue

/-!
# Routing tasks to workers

`WorkerTaskRouterService`: which type a task has, which operation a worker runs for it,
how many tasks of each type are at workers, and which pending task is next.

`dequeueDispatchableTask` is the loop over the pending tasks. It drops every task of a
type no worker runs, skips those whose type is at its limit, and takes the first of the
others. It is a scan of a queue with classes (`dequeueDispatchableTask_eq`), and what is
known of it follows from that.
-/

namespace BulkTraffic.Queue

open BulkTraffic.Lib BulkTraffic.Js

/-- The type as a `WorkloadType`. -/
def DispatchableWorkloadType.toWorkloadType : DispatchableWorkloadType → WorkloadType
  | .cpu => .cpu
  | .memory => .memory
  | .custom => .custom

/-- `isDispatchableType`, with the type it narrows to. -/
def isDispatchableType : WorkloadType → Option DispatchableWorkloadType
  | .cpu => some .cpu
  | .memory => some .memory
  | .custom => some .custom
  | .unknown => none

@[simp] theorem isDispatchableType_toWorkloadType (t : DispatchableWorkloadType) :
    isDispatchableType t.toWorkloadType = some t := by
  cases t <;> rfl

theorem toWorkloadType_of_isDispatchableType {w : WorkloadType} {t : DispatchableWorkloadType}
    (h : isDispatchableType w = some t) : w = t.toWorkloadType := by
  cases w <;> cases h <;> rfl

/-- `code ?? ''` as a condition: a text that is there and not empty. -/
def isText (s : Option String) : Bool :=
  match s with
  | some s => s != ""
  | none => false

/-- `determineTaskType(taskData)`. -/
def determineTaskType (taskData : WorkerTaskData) : WorkloadType :=
  match taskData.type with
  | some type => type
  | none =>
    match taskData.task.workloadType with
    | some type => type
    | none =>
      if isText taskData.functionCode || isText taskData.task.functionCode then .custom
      else .unknown

/-- `determineOperation(taskData)`. -/
def determineOperation (taskData : WorkerTaskData) : String :=
  if isText taskData.operation then taskData.operation.getD ""
  else
    let category := taskData.task.category.getD ""
    match determineTaskType taskData with
    | .cpu =>
      if includes category "prime" then "findPrimes"
      else if includes category "fibonacci" then "fibonacci"
      else if includes category "matrix" then "matrixMultiply"
      else "findPrimes"
    | .memory =>
      if includes category "array" then "largeArray"
      else if includes category "object" || includes category "clone" then "objectCloning"
      else "largeArray"
    | .custom => "execute"
    | .unknown => "findPrimes"

/-- The fields of `WorkerTaskRouterService`. -/
structure WorkerTaskRouterService where
  /-- `cpuConcurrencyLimit`, `memoryConcurrencyLimit`, `customConcurrencyLimit`. -/
  limits : DispatchableWorkloadType → ℕ
  activeByType : DispatchableWorkloadType → ℕ := fun _ => 0
  dispatchedByType : DispatchableWorkloadType → ℕ := fun _ => 0
  droppedUnknownWorkloadCount : ℕ := 0

namespace WorkerTaskRouterService

/-- `clampConcurrencyLimit(limit)`. -/
def clampConcurrencyLimit (workerCount limit : ℕ) : ℕ := max 1 (min limit workerCount)

/-- The router as constructed: the limits read from the environment, each `none` when its
variable is not a positive integer. -/
def create (workerCount : ℕ) (cpu memory custom : Option ℕ) : WorkerTaskRouterService where
  limits
    | .cpu => clampConcurrencyLimit workerCount (cpu.getD workerCount)
    | .memory => clampConcurrencyLimit workerCount (memory.getD (max 1 (workerCount / 2)))
    | .custom => clampConcurrencyLimit workerCount (custom.getD (max 1 (workerCount / 2)))

/-- `canDispatchType(type)`. -/
def canDispatchType (r : WorkerTaskRouterService) (type : DispatchableWorkloadType) : Bool :=
  r.activeByType type < r.limits type

/-- `incrementActiveByType(type)`. -/
def incrementActiveByType (r : WorkerTaskRouterService) (type : DispatchableWorkloadType) :
    WorkerTaskRouterService :=
  { r with
    activeByType := Function.update r.activeByType type (r.activeByType type + 1)
    dispatchedByType := Function.update r.dispatchedByType type (r.dispatchedByType type + 1) }

/-- `decrementActiveByType(type)`: on naturals `- 1` stops at `0`, as `Math.max(0, ..)` does. -/
def decrementActiveByType (r : WorkerTaskRouterService) (type : WorkloadType) :
    WorkerTaskRouterService :=
  match isDispatchableType type with
  | none => r
  | some type =>
    { r with activeByType := Function.update r.activeByType type (r.activeByType type - 1) }

/-- `resetActiveByType()`. -/
def resetActiveByType (r : WorkerTaskRouterService) : WorkerTaskRouterService :=
  { r with activeByType := fun _ => 0 }

@[simp] theorem incrementActiveByType_limits (r : WorkerTaskRouterService)
    (type : DispatchableWorkloadType) : (r.incrementActiveByType type).limits = r.limits := rfl

@[simp] theorem decrementActiveByType_limits (r : WorkerTaskRouterService) (type : WorkloadType) :
    (r.decrementActiveByType type).limits = r.limits := by
  unfold decrementActiveByType; split <;> rfl

/-- The rejection of a task of a type no worker runs. -/
def unknownWorkloadMessage : String := "알 수 없는 workloadType은 워커로 처리할 수 없습니다."

/-- What `dequeueDispatchableTask` leaves and returns. -/
structure Dequeued where
  router : WorkerTaskRouterService
  /-- The task taken, if any, with its type. -/
  picked : Option (WorkerTaskData × DispatchableWorkloadType)
  /-- The pending tasks that remain. -/
  queue : List WorkerTaskData
  /-- The rejections made on the way. -/
  calls : List Call

/-- `dequeueDispatchableTask(queue, onTaskFailed)`: one round of the loop a constructor. -/
def dequeueDispatchableTask (r : WorkerTaskRouterService) : List WorkerTaskData → Dequeued
  | [] => ⟨r, none, [], []⟩
  | candidate :: rest =>
    match isDispatchableType (determineTaskType candidate) with
    | none =>
      let d := dequeueDispatchableTask
        { r with droppedUnknownWorkloadCount := r.droppedUnknownWorkloadCount + 1 } rest
      { d with calls := .reject candidate.task .unknownWorkload (.error unknownWorkloadMessage) ::
                        .onTaskFailed candidate.task :: d.calls }
    | some type =>
      if r.canDispatchType type then
        ⟨r, some ({ candidate with type := some type.toWorkloadType }, type), rest, []⟩
      else
        let d := dequeueDispatchableTask r rest
        { d with queue := candidate :: d.queue }

end WorkerTaskRouterService

/-- The type of a task, where it is one that workers run. -/
def dispatchableType (taskData : WorkerTaskData) : Option DispatchableWorkloadType :=
  isDispatchableType (determineTaskType taskData)

namespace WorkerTaskRouterService

/-- The calls made for a task of a type no worker runs. -/
def refusal (taskData : WorkerTaskData) : List Call :=
  [.reject taskData.task .unknownWorkload (.error unknownWorkloadMessage),
    .onTaskFailed taskData.task]

/-- The task as it is returned: with the type it is picked for. -/
def withType (taskData : WorkerTaskData) (type : DispatchableWorkloadType) : WorkerTaskData :=
  { taskData with type := some type.toWorkloadType }

variable (r : WorkerTaskRouterService)

/-- **Picking is a scan** of the pending tasks, with the types below their limits open. -/
theorem dequeueDispatchableTask_eq (q : List WorkerTaskData) :
    r.dequeueDispatchableTask q =
      { router :=
          { r with
            droppedUnknownWorkloadCount := r.droppedUnknownWorkloadCount +
              (ClassQueue.dropped dispatchableType r.canDispatchType q).length }
        picked := (ClassQueue.taken dispatchableType r.canDispatchType q).bind fun c =>
          (dispatchableType c).map fun type => (withType c type, type)
        queue := ClassQueue.left dispatchableType r.canDispatchType q
        calls := (ClassQueue.dropped dispatchableType r.canDispatchType q).flatMap refusal } := by
  induction q generalizing r with
  | nil => rfl
  | cons c q ih =>
    cases h : dispatchableType c with
    | none =>
      have hnone : isDispatchableType (determineTaskType c) = none := h
      simp only [dequeueDispatchableTask, hnone, ih, ClassQueue.dropped_cons_of_none q h,
        ClassQueue.left_cons_of_none q h,
        ClassQueue.taken_cons_of_not_ready q (ClassQueue.ready_of_none h), List.flatMap_cons]
      rw [List.length_cons, Nat.add_right_comm, Nat.add_assoc]
      rfl
    | some type =>
      have hsome : isDispatchableType (determineTaskType c) = some type := h
      cases hcan : r.canDispatchType type with
      | true =>
        have hready : ClassQueue.ready dispatchableType r.canDispatchType c = true :=
          (ClassQueue.ready_of_some h).trans hcan
        simp only [dequeueDispatchableTask, hsome, hcan, ClassQueue.dropped_cons_of_ready q hready,
          ClassQueue.left_cons_of_ready q hready, ClassQueue.taken_cons_of_ready q hready]
        simp [h, withType]
      | false =>
        have hready : ClassQueue.ready dispatchableType r.canDispatchType c = false :=
          (ClassQueue.ready_of_some h).trans hcan
        simp only [dequeueDispatchableTask, hsome, hcan, ih,
          ClassQueue.dropped_cons_of_closed q h hcan, ClassQueue.left_cons_of_closed q h hcan,
          ClassQueue.taken_cons_of_not_ready q hready]
        rfl

/-- The task picked is the one the scan takes, under its type. -/
theorem picked_eq_some_iff {q : List WorkerTaskData} {d : WorkerTaskData}
    {type : DispatchableWorkloadType} :
    (r.dequeueDispatchableTask q).picked = some (d, type) ↔
      ∃ c, ClassQueue.taken dispatchableType r.canDispatchType q = some c ∧
        dispatchableType c = some type ∧ withType c type = d := by
  simp only [dequeueDispatchableTask_eq, Option.bind_eq_some_iff, Option.map_eq_some_iff,
    Prod.mk.injEq]
  constructor
  · rintro ⟨c, hc, type, htype, rfl, rfl⟩
    exact ⟨c, hc, htype, rfl⟩
  · rintro ⟨c, hc, htype, rfl⟩
    exact ⟨c, hc, type, htype, rfl, rfl⟩

/-- A task is picked exactly where the scan takes one. -/
theorem picked_eq_none_iff {q : List WorkerTaskData} :
    (r.dequeueDispatchableTask q).picked = none ↔
      ClassQueue.taken dispatchableType r.canDispatchType q = none := by
  rw [dequeueDispatchableTask_eq]
  cases h : ClassQueue.taken dispatchableType r.canDispatchType q with
  | none => simp
  | some c =>
    obtain ⟨type, htype, -⟩ := ClassQueue.ready_iff.mp (ClassQueue.ready_of_taken _ _ h)
    simp [htype]

/-- Picking leaves the activity of every type as it is. -/
theorem dequeue_router (q : List WorkerTaskData) :
    (r.dequeueDispatchableTask q).router.activeByType = r.activeByType ∧
      (r.dequeueDispatchableTask q).router.limits = r.limits := by
  rw [dequeueDispatchableTask_eq]
  exact ⟨rfl, rfl⟩

/-- The task picked has the type it is picked for, and that type is below its limit. -/
theorem dequeue_picked {q : List WorkerTaskData} {d : WorkerTaskData}
    {type : DispatchableWorkloadType} (h : (r.dequeueDispatchableTask q).picked = some (d, type)) :
    d.type = some type.toWorkloadType ∧ r.activeByType type < r.limits type := by
  obtain ⟨c, hc, htype, rfl⟩ := r.picked_eq_some_iff.mp h
  have hready := ClassQueue.ready_of_taken _ _ hc
  rw [ClassQueue.ready_of_some htype] at hready
  exact ⟨rfl, of_decide_eq_true hready⟩

/-- **Every pending task is picked, rejected or left**: picking loses none. -/
theorem dequeue_tally (x : ℕ) (q : List WorkerTaskData) :
    weight (isTaskData x) (r.dequeueDispatchableTask q).queue +
        weight (Call.settledWaiting x) (r.dequeueDispatchableTask q).calls +
        (r.dequeueDispatchableTask q).picked.elim 0 (fun p => isTask x p.1.task) =
      weight (isTaskData x) q := by
  have hscan := weight_perm (isTaskData x) (ClassQueue.scan_perm dispatchableType r.canDispatchType q)
  have hpicked : (r.dequeueDispatchableTask q).picked.elim 0 (fun p => isTask x p.1.task) =
      weight (isTaskData x) (ClassQueue.taken dispatchableType r.canDispatchType q).toList := by
    cases h : (r.dequeueDispatchableTask q).picked with
    | none =>
      rw [r.picked_eq_none_iff.mp h]
      rfl
    | some p =>
      obtain ⟨c, hc, -, hp⟩ := r.picked_eq_some_iff.mp h
      rw [hc, Option.elim_some, ← hp]
      rfl
  have hcalls : weight (Call.settledWaiting x) (r.dequeueDispatchableTask q).calls =
      weight (isTaskData x) (ClassQueue.dropped dispatchableType r.canDispatchType q) := by
    rw [dequeueDispatchableTask_eq, weight_flatMap]
    rfl
  have hqueue : (r.dequeueDispatchableTask q).queue =
      ClassQueue.left dispatchableType r.canDispatchType q := by
    rw [dequeueDispatchableTask_eq]
  rw [weight_append, weight_append] at hscan
  rw [hpicked, hcalls, hqueue]
  omega

/-- The calls made while picking are rejections of unknown types, each reported once. -/
theorem mem_dequeue_calls {q : List WorkerTaskData} {c : Call}
    (h : c ∈ (r.dequeueDispatchableTask q).calls) :
    ∃ d ∈ q, c = .reject d.task .unknownWorkload (.error unknownWorkloadMessage) ∨
      c = .onTaskFailed d.task := by
  rw [dequeueDispatchableTask_eq] at h
  obtain ⟨d, hd, hc⟩ := List.mem_flatMap.mp h
  exact ⟨d, ClassQueue.mem_of_mem_dropped _ _ hd, by simpa [refusal] using hc⟩

/-- Nothing is left that was not pending. -/
theorem mem_of_mem_dequeue {q : List WorkerTaskData} {td : WorkerTaskData}
    (h : td ∈ (r.dequeueDispatchableTask q).queue) : td ∈ q := by
  rw [dequeueDispatchableTask_eq] at h
  exact ClassQueue.mem_of_mem_left _ _ h

end WorkerTaskRouterService

end BulkTraffic.Queue
