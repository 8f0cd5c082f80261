import BulkTraffic.Queue.BatchSizes

/-!
# Runs of the batches

The operations that touch `batchQueues`, called in any order, with any number of free slots
and on any normalized tasks (`BatchOp`). `log` and `accepted` record what left the batches
for execution and what arrived in them.

* `TaskBatch.WellFormed`: a batch has tasks, all of its category.
* `Lanes`: the invariant. What has been executed of a category and what waits in its batch
  are, in this order, tasks in the order of their arrival.
* `batches_wellFormed`: the representation invariant, with exact sizes for the categories
  whose batches have stayed below `2 ^ 53`, and what a call of `processBatch` executes.
-/

namespace BulkTraffic.Queue

open BulkTraffic.Lib BulkTraffic.Js

/-- A task made from normalized options: its size is at least one, its category is not empty. -/
def QueueTask.Normalized (task : QueueTask) : Prop :=
  0 < task.size.getD 0 ∧ task.category.getD "" ≠ ""

instance (task : QueueTask) : Decidable task.Normalized :=
  inferInstanceAs (Decidable (_ ∧ _))

theorem QueueTask.Normalized.size_pos {task : QueueTask} (h : task.Normalized) :
    0 < task.sizeOrOne := by
  obtain ⟨hsize, -⟩ := h
  cases hs : task.size with
  | none => simp [hs] at hsize
  | some n => simpa [sizeOrOne, hs] using hsize

theorem QueueTask.Normalized.category_eq {task : QueueTask} (h : task.Normalized) :
    task.category = some (task.category.getD "") := by
  obtain ⟨-, hcategory⟩ := h
  cases hc : task.category with
  | none => simp [hc] at hcategory
  | some c => rfl

/-- A batch has tasks, all of its category. -/
structure TaskBatch.WellFormed (batch : TaskBatch) : Prop where
  nonempty : batch.tasks ≠ []
  category : ∀ task ∈ batch.tasks, task.category = some batch.category

/-- The batch is small and exact, if it is the one of the given category. -/
def TaskBatch.SmallExactFor (category : String) (batch : TaskBatch) : Prop :=
  batch.category = category → batch.Exact ∧ batch.Small

/-- The batch is exact as long as it is small, if it is the one of the given category. -/
def TaskBatch.ExactFor (category : String) (batch : TaskBatch) : Prop :=
  batch.category = category → batch.Small → batch.Exact

/-! ### Tasks leaving a batch -/

/-- Tasks leaving a batch, as long as some are left, do not break the property. -/
structure KeptByLeaving (P : TaskBatch → Prop) : Prop where
  withoutTask {batch : TaskBatch} {task : QueueTask} : P batch → batch.tasks.any task.same = true →
    (QueueStateHolder.withoutTask batch task).tasks ≠ [] → P (QueueStateHolder.withoutTask batch task)
  dropTasks {batch : TaskBatch} {n now : ℕ} : P batch →
    (BatchService.dropTasks batch n now).tasks ≠ [] → P (BatchService.dropTasks batch n now)

theorem TaskBatch.keptByLeaving_wellFormed : KeptByLeaving TaskBatch.WellFormed where
  withoutTask h _ hleft := ⟨hleft, fun task ht => h.category task (List.mem_of_mem_eraseP ht)⟩
  dropTasks h hleft := ⟨hleft, fun task ht => h.category task (List.mem_of_mem_drop ht)⟩

theorem TaskBatch.keptByLeaving_smallExactFor (category : String) :
    KeptByLeaving (TaskBatch.SmallExactFor category) where
  withoutTask h hany _ hc := by
    obtain ⟨he, hs⟩ := h hc
    exact QueueStateHolder.withoutTask_exact he hs hany
  dropTasks h _ hc := by
    obtain ⟨he, hs⟩ := h hc
    obtain ⟨he, hs, -⟩ := BatchService.dropTasks_exact he hs _ _
    exact ⟨he, hs⟩

namespace QueueStateHolder

variable {P : TaskBatch → Prop} {s : QueueStateHolder}

/-- An emptied batch is deleted under its category, which is its key. -/
theorem AllBatches.putBackNonempty (h : s.AllBatches P) {category : String} {rest : TaskBatch}
    (hkey : rest.category = category) (hrest : rest.tasks ≠ [] → P rest) :
    AllBatches P { s with batchQueues :=
      if rest.tasks.isEmpty then (s.batchQueues.set category rest).delete rest.category
      else s.batchQueues.set category rest } := by
  by_cases hempty : rest.tasks.isEmpty = true
  · rw [if_pos hempty, hkey]
    intro c b hget
    by_cases hc : category = c
    · subst hc
      rw [JsMap.get?_delete_self] at hget
      cases hget
    · rw [JsMap.get?_delete_of_ne _ hc, JsMap.get?_set_of_ne _ hc] at hget
      exact h c b hget
  · rw [if_neg hempty]
    exact h.set category (hrest fun hnil => hempty (List.isEmpty_iff.mpr hnil))

theorem AllBatches.removeTask (h : s.AllBatches P) (hP : KeptByLeaving P) (hk : s.Keyed)
    (task : QueueTask) : (s.removeTaskFromQueues task).2.AllBatches P := by
  unfold QueueStateHolder.removeTaskFromQueues
  split
  · exact h
  · split
    · exact h
    · split
      · exact h
      · cases hb : s.batchOf task with
        | none => exact h
        | some e =>
          obtain ⟨hget, hany⟩ := batchOf_some hb
          exact h.putBackNonempty (hk e.1 e.2 hget) (hP.withoutTask (h e.1 e.2 hget) hany)

theorem AllBatches.processBatch (h : s.AllBatches P) (hP : KeptByLeaving P) (category : String)
    (active : ℤ) (max now : ℕ) :
    AllBatches P { s with
      batchQueues := (BatchService.processBatch category s.batchQueues active max now).batchQueues } := by
  unfold BatchService.processBatch
  cases hb : s.batchQueues.get? category with
  | none => exact h.delete category
  | some batch =>
    dsimp only
    split
    · exact h.delete category
    · split
      · exact h
      · unfold BatchService.replaceBatch
        split
        · exact h.delete category
        · rename_i hleft
          refine h.set category (hP.dropTasks (h category batch hb) ?_)
          exact fun hnil => hleft (List.isEmpty_iff.mpr hnil)

end QueueStateHolder

/-! ### The tasks of a category -/

/-- The tasks in the batch of a category. -/
def tasksAt (m : JsMap String TaskBatch) (category : String) : List QueueTask :=
  (m.get? category).elim [] TaskBatch.tasks

@[simp] theorem tasksAt_set (m : JsMap String TaskBatch) (key category : String)
    (batch : TaskBatch) :
    tasksAt (m.set key batch) category = if key = category then batch.tasks else tasksAt m category := by
  unfold tasksAt
  rw [JsMap.get?_set]
  split <;> rfl

@[simp] theorem tasksAt_delete (m : JsMap String TaskBatch) (key category : String) :
    tasksAt (m.delete key) category = if key = category then [] else tasksAt m category := by
  unfold tasksAt
  rw [JsMap.get?_delete]
  split <;> rfl

theorem tasksAt_of_get? {m : JsMap String TaskBatch} {category : String} {batch : TaskBatch}
    (h : m.get? category = some batch) : tasksAt m category = batch.tasks := by
  simp [tasksAt, h]

/-- The tasks `processBatch` takes are the first ones, as many as there are free slots, and the
others stay. -/
theorem BatchService.processBatch_tasks (category : String) (m : JsMap String TaskBatch)
    (active : ℤ) (max now : ℕ) {n : ℕ}
    (hn : n = min (tasksAt m category).length ((max : ℤ) - active).toNat) :
    (processBatch category m active max now).tasksToProcess = (tasksAt m category).take n ∧
      ∀ c, tasksAt (processBatch category m active max now).batchQueues c =
        if category = c then (tasksAt m category).drop n else tasksAt m c := by
  unfold processBatch
  cases hb : m.get? category with
  | none =>
    have hnil : tasksAt m category = [] := by simp [tasksAt, hb]
    simp [hnil]
  | some batch =>
    have hat := tasksAt_of_get? hb
    rw [hat] at hn ⊢
    dsimp only
    split
    · rename_i hempty
      simp [List.isEmpty_iff.mp hempty]
    · split
      · rename_i hslots
        have hzero : n = 0 := by omega
        subst hzero
        refine ⟨rfl, fun c => ?_⟩
        split
        · rename_i hc
          rw [← hc, hat, List.drop_zero]
        · rfl
      · refine ⟨by rw [hn], fun c => ?_⟩
        unfold replaceBatch
        by_cases hempty : (dropTasks batch (min batch.tasks.length ((max : ℤ) - active).toNat)
          now).tasks.isEmpty = true
        · have hnil : batch.tasks.drop n = [] := by
            rw [hn]
            exact List.isEmpty_iff.mp hempty
          rw [if_pos hempty, tasksAt_delete, hnil]
        · rw [if_neg hempty, tasksAt_set, hn]
          rfl

/-- A task is put behind those of its category. -/
theorem BatchService.addTaskToBatch_tasks (task : QueueTask) (now : ℕ)
    (m : JsMap String TaskBatch) (c : String) :
    tasksAt (addTaskToBatch task now m).1 c =
      if task.category.getD "" = c then tasksAt m c ++ [task] else tasksAt m c := by
  simp only [addTaskToBatch, tasksAt_set, withTask]
  by_cases hc : task.category.getD "" = c
  · rw [if_pos hc, if_pos hc, ← hc]
    unfold batchFor tasksAt
    cases m.get? (task.category.getD "") <;> rfl
  · rw [if_neg hc, if_neg hc]

namespace QueueStateHolder

/-- The task waits in one of the priority queues. -/
def Queued (s : QueueStateHolder) (task : QueueTask) : Prop :=
  s.highPriorityQueue.any task.same = true ∨ s.normalPriorityQueue.any task.same = true ∨
    s.lowPriorityQueue.any task.same = true

/-- The batches after a task that is not queued has been removed. -/
def batchesWithout (s : QueueStateHolder) (task : QueueTask) : JsMap String TaskBatch :=
  match s.batchOf task with
  | none => s.batchQueues
  | some (key, batch) =>
    if (withoutTask batch task).tasks.isEmpty then
      (s.batchQueues.set key (withoutTask batch task)).delete (withoutTask batch task).category
    else s.batchQueues.set key (withoutTask batch task)

theorem removeTaskFromQueues_of_queued {s : QueueStateHolder} {task : QueueTask}
    (h : s.Queued task) : (s.removeTaskFromQueues task).2.batchQueues = s.batchQueues := by
  unfold QueueStateHolder.removeTaskFromQueues
  by_cases hhigh : s.highPriorityQueue.any task.same = true
  · rw [if_pos hhigh]
  · by_cases hnormal : s.normalPriorityQueue.any task.same = true
    · rw [if_neg hhigh, if_pos hnormal]
    · rw [if_neg hhigh, if_neg hnormal, if_pos ((h.resolve_left hhigh).resolve_left hnormal)]

theorem removeTaskFromQueues_of_not_queued {s : QueueStateHolder} {task : QueueTask}
    (h : ¬ s.Queued task) :
    (s.removeTaskFromQueues task).2 = { s with batchQueues := s.batchesWithout task } := by
  obtain ⟨hhigh, hrest⟩ := not_or.mp h
  obtain ⟨hnormal, hlow⟩ := not_or.mp hrest
  unfold QueueStateHolder.removeTaskFromQueues batchesWithout
  rw [if_neg hhigh, if_neg hnormal, if_neg hlow]
  cases s.batchOf task <;> rfl

end QueueStateHolder

/-- A removal takes at most one task out of a batch. -/
theorem QueueStateHolder.removeTaskFromQueues_tasks {s : QueueStateHolder} (hk : s.Keyed)
    (task : QueueTask) (c : String) :
    (tasksAt (s.removeTaskFromQueues task).2.batchQueues c).Sublist (tasksAt s.batchQueues c) := by
  by_cases hqueued : s.Queued task
  · rw [removeTaskFromQueues_of_queued hqueued]
  · rw [removeTaskFromQueues_of_not_queued hqueued]
    unfold batchesWithout
    cases hb : s.batchOf task with
    | none => exact .refl _
    | some e =>
      obtain ⟨hget, -⟩ := batchOf_some hb
      have hkey : (withoutTask e.2 task).category = e.1 := hk e.1 e.2 hget
      have herased : (withoutTask e.2 task).tasks.Sublist (tasksAt s.batchQueues e.1) := by
        rw [tasksAt_of_get? hget]
        exact List.eraseP_sublist
      dsimp only
      by_cases hc : e.1 = c
      · subst hc
        split
        · simp [hkey]
        · simpa using herased
      · split
        · simp [hkey, hc]
        · simp [hc]

/-- The cleanup leaves a batch as it is, or takes all its tasks. -/
theorem MemoryService.cleanupBatches_tasks (now t : ℕ) (entries : List (String × TaskBatch))
    (m : JsMap String TaskBatch) (c : String) :
    (tasksAt (cleanupBatches now t entries m).2 c).Sublist (tasksAt m c) := by
  induction entries generalizing m with
  | nil => exact .refl _
  | cons e entries ih =>
    simp only [cleanupBatches]
    split
    · refine (ih (m.delete e.1)).trans ?_
      rw [tasksAt_delete]
      split
      · exact List.nil_sublist _
      · exact .refl _
    · exact ih m

/-- The task a call hands over for execution. -/
def Call.toExecute : Call → Option QueueTask
  | dispatch task => some task
  | _ => none

/-! ### The operations -/

/-- The operations that touch the batches, with the number of active requests they find. -/
inductive BatchOp where
  /-- `addTaskToBatch(task, ..)`. -/
  | addTaskToBatch (task : QueueTask) (now : ℕ)
  /-- `processBatch(category, ..)`. -/
  | processBatch (category : String) (active : ℤ) (now : ℕ)
  /-- `processAgedBatches(..)`. -/
  | processAgedBatches (active : ℤ) (now : ℕ)
  /-- `removeTaskFromQueues(task)`. -/
  | removeTaskFromQueues (task : QueueTask)
  /-- `cleanupOldTasks(..)`. -/
  | cleanupOldTasks (now : ℕ)
  /-- `forceReduceQueues(..)`. -/
  | forceReduceQueues (active : ℤ) (now : ℕ)

/-- Only normalized tasks are added. -/
def BatchOp.Normalized : BatchOp → Prop
  | addTaskToBatch task _ => task.Normalized
  | _ => True

instance (op : BatchOp) : Decidable op.Normalized :=
  match op with
  | .addTaskToBatch task _ => inferInstanceAs (Decidable task.Normalized)
  | .processBatch .. | .processAgedBatches .. | .removeTaskFromQueues .. | .cleanupOldTasks ..
  | .forceReduceQueues .. => .isTrue trivial

namespace QueueSystem

/-- Another number of requests is active. -/
def withActive (s : QueueSystem) (active : ℤ) : QueueSystem :=
  { s with state := { s.state with activeRequests := active } }

/-- A task arrives in its batch. -/
def addTaskToBatch (s : QueueSystem) (task : QueueTask) (now : ℕ) : QueueSystem :=
  let (batchQueues, trigger) := BatchService.addTaskToBatch task now s.state.batchQueues
  { s with
    state := { s.state with batchQueues := batchQueues }
    batchTriggers := s.batchTriggers ++ trigger.toList
    accepted := s.accepted ++ [task] }

/-- One operation. -/
def batchStep (s : QueueSystem) : BatchOp → Option QueueSystem
  | .addTaskToBatch task now => some (s.addTaskToBatch task now)
  | .processBatch category active now => some ((s.withActive active).processBatch category now)
  | .processAgedBatches active now => some ((s.withActive active).processAgedBatches now)
  | .removeTaskFromQueues task => some { s with state := (s.state.removeTaskFromQueues task).2 }
  | .cleanupOldTasks now => some (s.cleanupOldTasks now)
  | .forceReduceQueues active now => some ((s.withActive active).forceReduceQueues now)

/-- Nothing has arrived in a batch yet, and nothing has been executed. -/
structure NoBatches (s : QueueSystem) : Prop where
  batchQueues : s.state.batchQueues = .empty
  accepted : s.accepted = []
  log : s.log = []

/-- The tasks of a category handed over for execution, in order. -/
def executed (s : QueueSystem) (category : String) : List QueueTask :=
  (s.log.filterMap Call.toExecute).filter fun task => task.category == some category

/-- The tasks of a category that have arrived, in order. -/
def arrived (s : QueueSystem) (category : String) : List QueueTask :=
  s.accepted.filter fun task => task.category == some category

/-- The tasks waiting in the batch of a category. -/
def batchTasks (s : QueueSystem) (category : String) : List QueueTask :=
  tasksAt s.state.batchQueues category

/-- The slots below `maxConcurrentRequests`. -/
def freeSlots (s : QueueSystem) : ℕ :=
  ((s.state.config.maxConcurrentRequests : ℤ) - s.state.activeRequests).toNat

/-- The sizes in the batch of a category add up to less than `2 ^ 53`. -/
def SmallAt (s : QueueSystem) (category : String) : Prop := sizes (s.batchTasks category) < 2 ^ 53

/-- Every batch is stored under its category and satisfies `P`. -/
structure Kept (P : TaskBatch → Prop) (s : QueueSystem) : Prop where
  keyed : s.state.Keyed
  batches : s.state.AllBatches P

/-- **The invariant of the batches**: each is stored under its category and well formed, and
the tasks of a category leave in the order of their arrival. -/
structure Lanes (s : QueueSystem) : Prop extends Kept TaskBatch.WellFormed s where
  order : ∀ category,
    (s.executed category ++ s.batchTasks category).Sublist (s.arrived category)

namespace Lanes

variable {s : QueueSystem}

/-- Tasks have left the batches for execution or for good. -/
theorem of_leaving (h : Lanes s) {u : QueueSystem} (hkept : Kept TaskBatch.WellFormed u)
    (haccepted : u.accepted = s.accepted)
    (hlane : ∀ category, (u.executed category ++ u.batchTasks category).Sublist
      (s.executed category ++ s.batchTasks category)) : Lanes u := by
  refine ⟨hkept, fun category => ?_⟩
  unfold arrived
  rw [haccepted]
  exact (hlane category).trans (h.order category)

/-- All tasks in the batch of a category are of this category. -/
theorem category_of_mem (h : Lanes s) {category : String} {task : QueueTask}
    (ht : task ∈ s.batchTasks category) : task.category = some category := by
  unfold batchTasks tasksAt at ht
  cases hb : s.state.batchQueues.get? category with
  | none => simp [hb] at ht
  | some batch =>
    rw [hb] at ht
    rw [(h.batches category batch hb).category task ht, h.keyed category batch hb]

end Lanes

/-! ### What `processBatch` executes -/

theorem filterMap_toExecute_dispatch (tasks : List QueueTask) :
    (tasks.map Call.dispatch).filterMap Call.toExecute = tasks := by
  induction tasks with
  | nil => rfl
  | cons task tasks ih => simp [Call.toExecute, ih]

/-- Tasks, and no others, have been handed over for execution as members of a group. -/
structure Executes (s : QueueSystem) (tasks : List QueueTask) (u : QueueSystem) : Prop where
  log : u.log = s.log ++ tasks.map Call.dispatch
  groups : u.groups.flatMap BatchGroup.members =
    s.groups.flatMap BatchGroup.members ++ tasks.map fun task => { task := task }

/-- The calls and the batches after `processBatch`. -/
theorem processBatch_effect (s : QueueSystem) (category : String) (now : ℕ) :
    ∃ taken, taken = BatchService.processBatch category s.state.batchQueues s.state.activeRequests
        s.state.config.maxConcurrentRequests now ∧
      s.Executes taken.tasksToProcess (s.processBatch category now) ∧
      (s.processBatch category now).state.batchQueues = taken.batchQueues ∧
      (s.processBatch category now).accepted = s.accepted := by
  obtain ⟨taken, htaken, ⟨hnone, hb⟩ | hb⟩ := processBatch_cases s category now
  · refine ⟨taken, htaken, ?_⟩
    rw [hb, hnone]
    exact ⟨⟨by simp [withBatches], by simp [withBatches]⟩, rfl, rfl⟩
  · refine ⟨taken, htaken, ?_⟩
    have hsame := sameTasks_onBatchComplete (s.startGroup taken) 0 taken.tasksToProcess.length 0
    rw [hb]
    refine ⟨⟨hsame.log, ?_⟩, by rw [hsame.state]; rfl, hsame.accepted⟩
    rw [hsame.groups]
    simp [startGroup]

/-- **What `processBatch` executes**: the first tasks of the batch, as many as there are tasks
and free slots, and none of another category. -/
theorem processBatch_lanes {s : QueueSystem} (h : Lanes s) (category : String) (now : ℕ) {n : ℕ}
    (hn : n = min (s.batchTasks category).length s.freeSlots) (c : String) :
    (s.processBatch category now).executed c =
        s.executed c ++ (if category = c then (s.batchTasks category).take n else []) ∧
      (s.processBatch category now).batchTasks c =
        if category = c then (s.batchTasks category).drop n else s.batchTasks c := by
  obtain ⟨htaken, hleft⟩ := BatchService.processBatch_tasks category s.state.batchQueues
    s.state.activeRequests s.state.config.maxConcurrentRequests now hn
  obtain ⟨taken, rfl, ⟨hlog, -⟩, hbatches, -⟩ := processBatch_effect s category now
  constructor
  · unfold executed
    rw [hlog, htaken, List.filterMap_append, filterMap_toExecute_dispatch, List.filter_append]
    congr 1
    have hcategory : ∀ task ∈ (s.batchTasks category).take n, task.category = some category :=
      fun task ht => h.category_of_mem (List.mem_of_mem_take ht)
    by_cases hc : category = c
    · rw [if_pos hc, List.filter_eq_self.mpr fun task ht => by simp [hcategory task ht, hc]]
      rfl
    · rw [if_neg hc]
      refine List.filter_eq_nil_iff.mpr fun task ht => ?_
      simpa [hcategory task ht] using hc
  · unfold batchTasks
    rw [hbatches]
    exact hleft c

/-! ### Tasks leave in order -/

namespace Kept

variable {P : TaskBatch → Prop} {s : QueueSystem}

theorem of_batchQueues {state : QueueStateHolder} (hk : state.Keyed) (ha : state.AllBatches P)
    {u : QueueSystem} (hu : u.state.batchQueues = state.batchQueues) : Kept P u := by
  constructor
  · unfold QueueStateHolder.Keyed
    rw [hu]
    exact hk
  · unfold QueueStateHolder.AllBatches
    rw [hu]
    exact ha

theorem of_same (h : Kept P s) {u : QueueSystem}
    (hu : u.state.batchQueues = s.state.batchQueues) : Kept P u :=
  of_batchQueues h.keyed h.batches hu

theorem processBatch (h : Kept P s) (hP : KeptByLeaving P) (category : String) (now : ℕ) :
    Kept P (s.processBatch category now) := by
  obtain ⟨taken, rfl, -, hbatches, -⟩ := processBatch_effect s category now
  exact of_batchQueues
    (h.keyed.processBatch category s.state.activeRequests s.state.config.maxConcurrentRequests now)
    (h.batches.processBatch hP category s.state.activeRequests
      s.state.config.maxConcurrentRequests now) hbatches

theorem cleanupOldTasks (h : Kept P s) (now : ℕ) : Kept P (s.cleanupOldTasks now) :=
  of_batchQueues (MemoryService.cleanupOldTasks_keyed h.keyed now)
    (h.batches.cleanupBatches now s.state.config.taskTimeoutMs s.state.batchQueues.entries) rfl

/-- What keeps the batches through every operation but the arrival of a task. -/
theorem step (h : Kept P s) (hP : KeptByLeaving P) {op : BatchOp}
    (hop : ∀ task now, op ≠ .addTaskToBatch task now) {u : QueueSystem}
    (hu : s.batchStep op = some u) : Kept P u := by
  have hactive : ∀ active, Kept P (s.withActive active) := fun active => h.of_same rfl
  have hprocess : ∀ {due : TaskBatch → Bool} {now : ℕ} (categories : List String) {t : QueueSystem},
      Kept P t → Kept P (processBatches due now categories t) := fun {_ now} categories {_} ht =>
    processBatches_rule (fun _ category h => h.processBatch hP category now) categories ht
  cases op with
  | addTaskToBatch task now => exact absurd rfl (hop task now)
  | processBatch category active now =>
    obtain rfl := Option.some.inj hu
    exact (hactive active).processBatch hP category now
  | processAgedBatches active now =>
    obtain rfl := Option.some.inj hu
    exact hprocess _ (hactive active)
  | removeTaskFromQueues task =>
    obtain rfl := Option.some.inj hu
    exact ⟨h.keyed.removeTaskFromQueues task, h.batches.removeTask hP h.keyed task⟩
  | cleanupOldTasks now =>
    obtain rfl := Option.some.inj hu
    exact h.cleanupOldTasks now
  | forceReduceQueues active now =>
    obtain rfl := Option.some.inj hu
    let popped := MemoryService.poppedLow s.state.lowPriorityQueue
    let t : QueueSystem := { s.withActive active with state := { (s.withActive active).state with
      lowPriorityQueue := MemoryService.keptLow s.state.lowPriorityQueue } }
    have ht : Kept P (t.record (popped.map fun task =>
        .reject task .forceReduce (.error MemoryService.forceReduceMessage))) := h.of_same rfl
    exact (hprocess _ ht).of_same rfl

end Kept

/-- Calls that hand nothing over execute nothing. -/
theorem executed_record (s : QueueSystem) {calls : List Call}
    (hcalls : ∀ c ∈ calls, c.toExecute = none) (category : String) :
    (s.record calls).executed category = s.executed category := by
  have hnone : calls.filterMap Call.toExecute = [] := List.filterMap_eq_nil_iff.mpr hcalls
  simp [executed, record, hnone]

namespace Lanes

variable {s : QueueSystem}

/-- Nothing happens to the batches. -/
theorem of_same (h : Lanes s) {u : QueueSystem} (hu : u.state.batchQueues = s.state.batchQueues)
    (haccepted : u.accepted = s.accepted) (hexecuted : ∀ c, u.executed c = s.executed c) :
    Lanes u := by
  refine h.of_leaving (h.toKept.of_same hu) haccepted fun c => ?_
  rw [hexecuted c]
  unfold batchTasks
  rw [hu]

theorem processBatch (h : Lanes s) (category : String) (now : ℕ) :
    Lanes (s.processBatch category now) := by
  obtain ⟨-, -, -, -, haccepted⟩ := processBatch_effect s category now
  refine h.of_leaving (h.toKept.processBatch TaskBatch.keptByLeaving_wellFormed category now)
    haccepted fun c => ?_
  obtain ⟨hexecuted, hleft⟩ := processBatch_lanes h category now rfl c
  rw [hexecuted, hleft]
  by_cases hc : category = c
  · rw [if_pos hc, if_pos hc, List.append_assoc, List.take_append_drop, hc]
  · rw [if_neg hc, if_neg hc, List.append_nil]

theorem processBatches (h : Lanes s) (due : TaskBatch → Bool) (now : ℕ)
    (categories : List String) : Lanes (processBatches due now categories s) :=
  processBatches_rule (fun _ category h => h.processBatch category now) categories h

/-- A task is rejected where it waits, or taken away. -/
theorem removeTaskFromQueues (h : Lanes s) (task : QueueTask) :
    Lanes { s with state := (s.state.removeTaskFromQueues task).2 } := by
  have hstep : s.batchStep (.removeTaskFromQueues task) =
      some { s with state := (s.state.removeTaskFromQueues task).2 } := rfl
  have hkept := h.toKept.step TaskBatch.keptByLeaving_wellFormed
    (fun _ _ hop => by cases hop) hstep
  exact h.of_leaving hkept rfl fun c =>
    (QueueStateHolder.removeTaskFromQueues_tasks h.keyed task c).append_left _

theorem cleanupOldTasks (h : Lanes s) (now : ℕ) : Lanes (s.cleanupOldTasks now) := by
  refine h.of_leaving (h.toKept.cleanupOldTasks now) rfl fun c => ?_
  have hnone : ∀ call ∈ (MemoryService.cleanupOldTasks now s.state).1, call.toExecute = none := by
    intro call hcall
    obtain ⟨task, reason, rfl⟩ := cleanupOldTasks_mem hcall
    rfl
  have hexecuted :=
    executed_record { s with state := (MemoryService.cleanupOldTasks now s.state).2 } hnone c
  have htasks := MemoryService.cleanupBatches_tasks now s.state.config.taskTimeoutMs
    s.state.batchQueues.entries s.state.batchQueues c
  change (executed _ c ++ _).Sublist _
  exact hexecuted ▸ htasks.append_left _

theorem forceReduceQueues (h : Lanes s) (now : ℕ) : Lanes (s.forceReduceQueues now) := by
  let popped := (MemoryService.poppedLow s.state.lowPriorityQueue).map fun task =>
    Call.reject task .forceReduce (.error MemoryService.forceReduceMessage)
  let t : QueueSystem := { s with state := { s.state with
    lowPriorityQueue := MemoryService.keptLow s.state.lowPriorityQueue } }
  have hrejected : Lanes (t.record popped) := by
    refine h.of_same rfl rfl fun c => ?_
    refine (executed_record t (fun call hcall => ?_) c).trans rfl
    obtain ⟨task, -, rfl⟩ := List.mem_map.mp hcall
    rfl
  exact (hrejected.processBatches MemoryService.isHeavy now _).of_same rfl rfl fun _ => rfl

/-- A task arrives behind the ones of its category. -/
theorem addTaskToBatch (h : Lanes s) {task : QueueTask} (htask : task.Normalized) (now : ℕ) :
    Lanes (s.addTaskToBatch task now) := by
  have hcategory := htask.category_eq
  refine ⟨⟨h.keyed.addTaskToBatch task now, ?_⟩, fun c => ?_⟩
  · refine h.batches.set _ ⟨by simp [BatchService.withTask], fun other hother => ?_⟩
    have hfor : (BatchService.batchFor task now s.state.batchQueues).category =
          task.category.getD "" ∧
        ∀ a ∈ (BatchService.batchFor task now s.state.batchQueues).tasks,
          a.category = some (task.category.getD "") := by
      unfold BatchService.batchFor
      cases hb : s.state.batchQueues.get? (task.category.getD "") with
      | none => simp
      | some batch =>
        have hkey := h.keyed _ batch hb
        exact ⟨hkey, fun a ha => hkey ▸ (h.batches _ batch hb).category a ha⟩
    obtain ⟨hkey, hall⟩ := hfor
    simp only [BatchService.withTask, List.mem_append, List.mem_singleton] at hother ⊢
    rw [hkey]
    rcases hother with hother | rfl
    · exact hall other hother
    · exact hcategory
  · have hlane := h.order c
    have htasks := BatchService.addTaskToBatch_tasks task now s.state.batchQueues c
    have harrived : (s.addTaskToBatch task now).arrived c =
        s.arrived c ++ [task].filter fun task => task.category == some c := by
      simp only [arrived, QueueSystem.addTaskToBatch, List.filter_append]
    have hbatch : (s.addTaskToBatch task now).batchTasks c =
        s.batchTasks c ++ [task].filter fun task => task.category == some c := by
      apply htasks.trans
      unfold batchTasks
      by_cases hc : task.category.getD "" = c
      · have heq : task.category = some c := hc ▸ hcategory
        rw [if_pos hc]
        simp [heq]
      · have hne : task.category ≠ some c := fun heq => hc (by simp [heq])
        rw [if_neg hc]
        simp [hne]
    rw [harrived, hbatch, ← List.append_assoc]
    exact hlane.append (.refl _)

/-- Every operation keeps the invariant. -/
theorem step (h : Lanes s) {op : BatchOp} (hop : op.Normalized) {u : QueueSystem}
    (hu : s.batchStep op = some u) : Lanes u := by
  have hactive : ∀ active, Lanes (s.withActive active) := fun active =>
    h.of_same rfl rfl fun _ => rfl
  cases op with
  | addTaskToBatch task now =>
    obtain rfl := Option.some.inj hu
    exact h.addTaskToBatch hop now
  | processBatch category active now =>
    obtain rfl := Option.some.inj hu
    exact (hactive active).processBatch category now
  | processAgedBatches active now =>
    obtain rfl := Option.some.inj hu
    exact (hactive active).processBatches _ now _
  | removeTaskFromQueues task =>
    obtain rfl := Option.some.inj hu
    exact h.removeTaskFromQueues task
  | cleanupOldTasks now =>
    obtain rfl := Option.some.inj hu
    exact h.cleanupOldTasks now
  | forceReduceQueues active now =>
    obtain rfl := Option.some.inj hu
    exact (hactive active).forceReduceQueues now

end Lanes

theorem NoBatches.lanes {s : QueueSystem} (h : s.NoBatches) : Lanes s := by
  have hget : ∀ category, s.state.batchQueues.get? category = none := fun category => by
    rw [h.batchQueues]
    rfl
  refine ⟨⟨fun category batch hb => ?_, fun category batch hb => ?_⟩, fun category => ?_⟩
  · simp [hget category] at hb
  · simp [hget category] at hb
  · simp [executed, batchTasks, tasksAt, h.log, hget category]

/-! ### Exact sizes -/

/-- An operation taken where the batch of a category is small keeps its size exact. -/
theorem exactFor_step {s u : QueueSystem} {category : String}
    (h : Kept (TaskBatch.ExactFor category) s) (hsmall : s.SmallAt category) {op : BatchOp}
    (hop : op.Normalized) (hu : s.batchStep op = some u) : Kept (TaskBatch.ExactFor category) u := by
  have hboth : Kept (TaskBatch.SmallExactFor category) s := by
    refine ⟨h.keyed, fun c batch hb hc => ?_⟩
    have hkey : c = category := (h.keyed c batch hb).symm.trans hc
    subst hkey
    have hbatch : batch.Small := by
      unfold SmallAt batchTasks at hsmall
      rwa [tasksAt_of_get? hb] at hsmall
    exact ⟨h.batches c batch hb hc hbatch, hbatch⟩
  by_cases hadd : ∃ task now, op = .addTaskToBatch task now
  · obtain ⟨task, now, rfl⟩ := hadd
    obtain rfl := Option.some.inj hu
    have hpos : 0 < task.sizeOrOne := QueueTask.Normalized.size_pos hop
    refine ⟨h.keyed.addTaskToBatch task now, h.batches.set _ fun hc hs => ?_⟩
    refine BatchService.withTask_exact (fun hs => ?_) hpos hs
    revert hc hs
    unfold BatchService.batchFor
    cases hb : s.state.batchQueues.get? (task.category.getD "") with
    | none => exact fun _ _ => rfl
    | some batch => exact fun hc hs => h.batches _ batch hb hc hs
  · have hne : ∀ task now, op ≠ .addTaskToBatch task now := fun task now heq =>
      hadd ⟨task, now, heq⟩
    have hkept := hboth.step (TaskBatch.keptByLeaving_smallExactFor category) hne hu
    exact ⟨hkept.keyed, fun c batch hb hc _ => (hkept.batches c batch hb hc).1⟩

/-- In runs through states in which the batch of a category is small its size is exact. -/
theorem exactFor_of_reaches {s₀ s : QueueSystem} {category : String} (h₀ : s₀.NoBatches)
    (h : Reaches batchStep (fun t op => op.Normalized ∧ t.SmallAt category) s₀ s) :
    Kept (TaskBatch.ExactFor category) s := by
  refine h.invariant ⟨h₀.lanes.keyed, fun c batch hb => ?_⟩
    fun t op u ht hop hu => exactFor_step ht hop.2 hop.1 hu
  simp [h₀.batchQueues] at hb

/-- **The representation invariant of the batches.** In every state of every run of the
operations, each batch is stored under its category, has tasks, all of its category, and its
`totalSize` is the sum of their sizes, as long as this sum has been below `2 ^ 53`. The tasks
of a category leave its batch in the order of their arrival, and `processBatch` executes as
many as there are tasks and free slots. -/
theorem batches_wellFormed {s₀ s : QueueSystem} (h₀ : s₀.NoBatches)
    (h : Reaches batchStep (fun _ op => op.Normalized) s₀ s) :
    (∀ category batch, s.state.batchQueues.get? category = some batch →
      batch.category = category ∧ batch.tasks ≠ [] ∧
        (∀ task ∈ batch.tasks, task.category = some category) ∧
        (Reaches batchStep (fun t op => op.Normalized ∧ t.SmallAt category) s₀ s →
          s.SmallAt category → batch.totalSize = .finite (sizes batch.tasks))) ∧
      (∀ category, (s.executed category ++ s.batchTasks category).Sublist (s.arrived category)) ∧
      ∀ category active now n,
        n = min (s.batchTasks category).length (s.withActive active).freeSlots →
        s.Executes ((s.batchTasks category).take n)
            ((s.withActive active).processBatch category now) ∧
          ∀ c, ((s.withActive active).processBatch category now).batchTasks c =
            if category = c then (s.batchTasks category).drop n else s.batchTasks c := by
  have hlanes : Lanes s := h.invariant h₀.lanes fun _ _ _ ht hop hu => ht.step hop hu
  refine ⟨fun category batch hb => ?_, hlanes.order, fun category active now n hn => ?_⟩
  · obtain ⟨hnonempty, hcategory⟩ := hlanes.batches category batch hb
    have hkey := hlanes.keyed category batch hb
    refine ⟨hkey, hnonempty, hkey ▸ hcategory, fun hsmall hs => ?_⟩
    unfold SmallAt batchTasks at hs
    rw [tasksAt_of_get? hb] at hs
    exact (exactFor_of_reaches h₀ hsmall).batches category batch hb hkey hs
  · obtain ⟨htaken, hleft⟩ := BatchService.processBatch_tasks category s.state.batchQueues active
      s.state.config.maxConcurrentRequests now hn
    obtain ⟨taken, rfl, hexecutes, hbatches, -⟩ :=
      processBatch_effect (s.withActive active) category now
    have htake : (BatchService.processBatch category (s.withActive active).state.batchQueues
        (s.withActive active).state.activeRequests
        (s.withActive active).state.config.maxConcurrentRequests now).tasksToProcess =
          (s.batchTasks category).take n := htaken
    rw [htake] at hexecutes
    refine ⟨⟨hexecutes.log, hexecutes.groups⟩, fun c => ?_⟩
    unfold batchTasks
    rw [hbatches]
    exact hleft c

/-- Two tasks of one category, of which one has been executed when the slots were used up. -/
theorem batches_wellFormed_of_two_tasks :
    ∃ s, Reaches batchStep (fun _ op => op.Normalized) (initial {} 0 {} false false 0 none none none) s ∧
      (s.batchTasks "a").map QueueTask.id = [2] ∧
      (∀ category batch, s.state.batchQueues.get? category = some batch →
        batch.category = category ∧ batch.tasks ≠ [] ∧
          (∀ task ∈ batch.tasks, task.category = some category) ∧
          (Reaches batchStep (fun t op => op.Normalized ∧ t.SmallAt category)
              (initial {} 0 {} false false 0 none none none) s →
            s.SmallAt category → batch.totalSize = .finite (sizes batch.tasks))) ∧
        (∀ category, (s.executed category ++ s.batchTasks category).Sublist (s.arrived category)) ∧
        ∀ category active now n,
          n = min (s.batchTasks category).length (s.withActive active).freeSlots →
          s.Executes ((s.batchTasks category).take n)
              ((s.withActive active).processBatch category now) ∧
            ∀ c, ((s.withActive active).processBatch category now).batchTasks c =
              if category = c then (s.batchTasks category).drop n else s.batchTasks c := by
  obtain ⟨s, hs, hseen⟩ := exists_reaches_of_runEvents batchStep (fun _ op => op.Normalized)
    (fun s => (s.batchTasks "a").map QueueTask.id)
    (s := initial {} 0 {} false false 0 none none none)
    [.addTaskToBatch { id := 1, timestamp := 0, priority := 0, category := some "a", size := some 2 } 0,
      .addTaskToBatch { id := 2, timestamp := 5, priority := 0, category := some "a", size := some 3 } 5,
      .processBatch "a" 199 10] [2] (by decide +kernel)
  exact ⟨s, hs, hseen, batches_wellFormed ⟨rfl, rfl, rfl⟩ hs⟩

/-- Tasks of sizes `1` and `2 ^ 53` in one batch have the `totalSize` `2 ^ 53`. -/
theorem batches_totalSize_rounded :
    ∃ s batch, Reaches batchStep (fun _ op => op.Normalized)
        (initial {} 0 {} false false 0 none none none) s ∧
      s.state.batchQueues.get? "a" = some batch ∧ batch.totalSize ≠ .finite (sizes batch.tasks) := by
  obtain ⟨s, hs, hseen⟩ := exists_reaches_of_runEvents batchStep (fun _ op => op.Normalized)
    (fun s => (s.state.batchQueues.get? "a").map fun batch => (batch.totalSize, sizes batch.tasks))
    (s := initial {} 0 {} false false 0 none none none)
    [.addTaskToBatch { id := 1, timestamp := 0, priority := 0, category := some "a", size := some 1 } 0,
      .addTaskToBatch
        { id := 2, timestamp := 5, priority := 0, category := some "a", size := some 9007199254740992 }
        5]
    (some (.finite 9007199254740992, 9007199254740993)) (by decide +kernel)
  obtain ⟨batch, hget, hbatch⟩ := Option.map_eq_some_iff.mp hseen
  obtain ⟨htotal, hsizes⟩ := Prod.mk.inj hbatch
  exact ⟨s, batch, hs, hget, by rw [htotal, hsizes]; decide⟩

end QueueSystem

end BulkTraffic.Queue
