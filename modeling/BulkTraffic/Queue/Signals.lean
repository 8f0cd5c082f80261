import BulkTraffic.Queue.Ticks
import BulkTraffic.Queue.PoolTurns

/-!
# The signal of the queue

`requestProcessQueue` arms one signal, `processSignalPending`; when it fires, `processQueue` runs.

* `no_lost_wakeup`: between two callbacks the signal is pending as long as there is a task that
  `processQueue` would visit and a free slot. Whatever adds such a task, frees a slot or lifts the
  memory pressure requests it (`Wakes`), and a call of `processQueue` that consumes it re-arms it.
* `rearms_iff`: when a call of `processQueue` requests the signal only for a task that the next call
  can dispatch. Its condition for re-arming counts all tasks, also those in batches and, under
  memory pressure, those of low priority, which no call of `processQueue` takes.
-/

namespace BulkTraffic.Queue

open BulkTraffic.Lib BulkTraffic.Js

namespace QueueSystem

/-- A request more may be active. -/
def HasSlot (s : QueueSystem) : Prop :=
  s.state.activeRequests < s.state.config.maxConcurrentRequests

/-- No call of `processQueue` is under way, and the signal is pending where the next one has
something to do. -/
structure Wakeful (s : QueueSystem) : Prop where
  idle : s.state.isProcessingQueue = false
  armed : s.visited ≠ [] → s.HasSlot → s.state.processSignalPending = true

/-- Nothing new to do in `s'`: no task to visit, no free slot, and the signal stays pending. -/
structure Calm (s s' : QueueSystem) : Prop where
  visited : s'.visited ≠ [] → s.visited ≠ []
  slot : s'.HasSlot → s.HasSlot
  signal : s.state.processSignalPending = true → s'.state.processSignalPending = true

/-- Where there is something new to do in `s'`, the signal is pending. -/
structure Wakes (s s' : QueueSystem) : Prop where
  idle : s'.state.isProcessingQueue = s.state.isProcessingQueue
  calm : s'.state.processSignalPending = true ∨ Calm s s'

theorem Wakes.refl (s : QueueSystem) : Wakes s s := ⟨rfl, .inr ⟨id, id, id⟩⟩

theorem Wakes.trans {s t u : QueueSystem} (h : Wakes s t) (h' : Wakes t u) : Wakes s u := by
  refine ⟨h'.idle.trans h.idle, ?_⟩
  rcases h'.calm with hu | hcalm'
  · exact .inl hu
  · rcases h.calm with ht | hcalm
    · exact .inl (hcalm'.signal ht)
    · exact .inr ⟨hcalm.visited ∘ hcalm'.visited, hcalm.slot ∘ hcalm'.slot, hcalm'.signal ∘ hcalm.signal⟩

theorem Wakeful.wakes {s s' : QueueSystem} (hs : Wakeful s) (h : Wakes s s') : Wakeful s' := by
  refine ⟨h.idle.trans hs.idle, fun hvisited hslot => ?_⟩
  rcases h.calm with hs' | hcalm
  · exact hs'
  · exact hcalm.signal (hs.armed (hcalm.visited hvisited) (hcalm.slot hslot))

/-! ### What wakes the queue -/

theorem wakes_requestProcessQueue (s : QueueSystem) : Wakes s s.requestProcessQueue := ⟨rfl, .inl rfl⟩

theorem wakes_callbacks (calls : List Call) (s : QueueSystem) : Wakes s (calls.foldl callback s) := by
  induction calls generalizing s with
  | nil => exact .refl s
  | cons c calls ih =>
    refine Wakes.trans ?_ (ih _)
    cases c with
    | onSuccess t => exact ⟨rfl, .inl rfl⟩
    | onFailed t => exact ⟨rfl, .inl rfl⟩
    | onTaskFailed t => exact ⟨rfl, .inl rfl⟩
    | _ => exact .refl s

theorem wakes_afterPool (s : QueueSystem) (result : WorkerPoolService × List Call) :
    Wakes s (s.afterPool result) :=
  Wakes.trans (t := { s with pool := result.1 }.record result.2) ⟨rfl, .inr ⟨id, id, id⟩⟩
    (wakes_callbacks result.2 _)

/-- Giving slots back requests the signal; taking some frees none. -/
theorem wakes_onBatchComplete (s : QueueSystem) (processed : ℕ) (activeChange : ℤ) (failed : ℕ) :
    Wakes s (s.onBatchComplete processed activeChange failed) := by
  have hcount : Wakes s (if 0 < failed then (s.countProcessed processed).countRejected failed
      else s.countProcessed processed) := by
    split <;> exact ⟨rfl, .inr ⟨id, id, id⟩⟩
  unfold onBatchComplete
  dsimp only
  generalize (if 0 < failed then (s.countProcessed processed).countRejected failed
    else s.countProcessed processed) = t at hcount ⊢
  refine hcount.trans ?_
  split
  · exact ⟨rfl, .inl rfl⟩
  · rename_i hchange
    refine ⟨rfl, .inr ⟨id, fun hslot => ?_, id⟩⟩
    simp only [HasSlot, QueueStateHolder.setActiveRequests] at hslot ⊢
    omega

theorem wakes_processBatch (s : QueueSystem) (category : String) (now : ℕ) :
    Wakes s (s.processBatch category now) := by
  obtain ⟨taken, -, ⟨-, hbatch⟩ | hbatch⟩ := processBatch_cases s category now
  · rw [hbatch]
    exact ⟨rfl, .inr ⟨id, id, id⟩⟩
  · rw [hbatch]
    exact Wakes.trans (t := s.startGroup taken) ⟨rfl, .inr ⟨id, id, id⟩⟩ (wakes_onBatchComplete _ _ _ _)

theorem wakes_processBatches (due : TaskBatch → Bool) (now : ℕ) (categories : List String)
    (s : QueueSystem) : Wakes s (processBatches due now categories s) :=
  processBatches_rule (P := Wakes s) (fun t category ht => ht.trans (wakes_processBatch t category now))
    categories (.refl s)

/-- Tasks have left the queues, and the signals and the slots are as before. -/
structure Thins (s s' : QueueSystem) : Prop where
  high : s'.state.highPriorityQueue.Sublist s.state.highPriorityQueue
  normal : s'.state.normalPriorityQueue.Sublist s.state.normalPriorityQueue
  low : s'.state.lowPriorityQueue.Sublist s.state.lowPriorityQueue
  memoryPressure : s'.memoryPressure = s.memoryPressure
  activeRequests : s'.state.activeRequests = s.state.activeRequests
  config : s'.state.config = s.state.config
  idle : s'.state.isProcessingQueue = s.state.isProcessingQueue
  signal : s'.state.processSignalPending = s.state.processSignalPending

/-- Tasks that leave the queues leave nothing new to do. -/
theorem Thins.wakes {s s' : QueueSystem} (h : Thins s s') : Wakes s s' := by
  have hvisited : s'.visited.Sublist s.visited := by
    unfold visited
    rw [h.memoryPressure]
    refine (h.high.append h.normal).append ?_
    split
    · exact .refl _
    · exact h.low
  refine ⟨h.idle, .inr ⟨fun hne hnil => hne ?_, fun hslot => ?_, fun hsignal => h.signal.trans hsignal⟩⟩
  · rw [hnil] at hvisited
    exact List.sublist_nil.mp hvisited
  · unfold HasSlot at hslot ⊢
    rw [h.activeRequests, h.config] at hslot
    exact hslot

/-- A task that leaves its queue leaves the others in their order. -/
theorem removeTaskFromQueues_sublist (s : QueueStateHolder) (task : QueueTask) :
    ((s.removeTaskFromQueues task).2.highPriorityQueue.Sublist s.highPriorityQueue) ∧
      ((s.removeTaskFromQueues task).2.normalPriorityQueue.Sublist s.normalPriorityQueue) ∧
      (s.removeTaskFromQueues task).2.lowPriorityQueue.Sublist s.lowPriorityQueue := by
  unfold QueueStateHolder.removeTaskFromQueues
  split
  · exact ⟨List.eraseP_sublist, .refl _, .refl _⟩
  · split
    · exact ⟨.refl _, List.eraseP_sublist, .refl _⟩
    · split
      · exact ⟨.refl _, .refl _, List.eraseP_sublist⟩
      · cases s.batchOf task <;> exact ⟨.refl _, .refl _, .refl _⟩

theorem wakes_onQueueWaitTimeout (s : QueueSystem) (task : QueueTask) :
    Wakes s (s.onQueueWaitTimeout task) := by
  obtain ⟨hhigh, hnormal, hlow⟩ := removeTaskFromQueues_sublist s.state task
  have hframe := QueueStateHolder.removeTaskFromQueues_frame s.state task
  unfold onQueueWaitTimeout
  split
  · rename_i state hremove
    rw [hremove] at hhigh hnormal hlow hframe
    dsimp only at hhigh hnormal hlow hframe
    refine Thins.wakes ⟨hhigh, hnormal, hlow, rfl, ?_, ?_, ?_, ?_⟩
    all_goals
      simp only [record, countTimeout]
      rw [hframe]
  · exact .refl s

theorem wakes_cleanupOldTasks (s : QueueSystem) (now : ℕ) : Wakes s (s.cleanupOldTasks now) :=
  Thins.wakes ⟨List.filter_sublist, List.filter_sublist, List.filter_sublist, rfl, rfl, rfl, rfl, rfl⟩

theorem wakes_forceReduceQueues (s : QueueSystem) (now : ℕ) : Wakes s (s.forceReduceQueues now) := by
  let kept : QueueSystem := { s with state := { s.state with
    lowPriorityQueue := MemoryService.keptLow s.state.lowPriorityQueue } }
  have hkept : ∀ calls, Wakes s (kept.record calls) := fun calls =>
    Thins.wakes ⟨.refl _, .refl _, List.take_sublist _ _, rfl, rfl, rfl, rfl, rfl⟩
  exact ((hkept _).trans (wakes_processBatches MemoryService.isHeavy now _ _)).trans
    ⟨rfl, .inr ⟨id, id, id⟩⟩

/-- A task that is accepted requests the signal; a call that is refused changes no queue. -/
theorem wakes_enqueue (s : QueueSystem) (options : EnqueueOptions) (now : ℕ) :
    Wakes s (s.enqueue options now).2 := by
  have haccept : ∀ (t : QueueSystem) options, Wakes t (t.accept options now) := by
    intro t options
    refine ⟨?_, .inl rfl⟩
    simp only [accept, requestProcessQueue, place]
    split
    · rfl
    · split
      · rfl
      · split <;> rfl
  unfold enqueue
  dsimp only
  split
  · exact ⟨rfl, .inr ⟨id, id, id⟩⟩
  · split
    · exact ⟨rfl, .inr ⟨id, id, id⟩⟩
    · split
      · exact ⟨rfl, .inr ⟨id, id, id⟩⟩
      · refine Wakes.trans ?_ (haccept _ _)
        exact ⟨rfl, .inr ⟨id, id, id⟩⟩

theorem wakes_advanceSingle {s u : QueueSystem} {k : ℕ} {p : PromiseStep}
    (h : s.advanceSingle k p = some u) : Wakes s u := by
  obtain ⟨r, stage, -, -, rfl⟩ := advanceSingle_cases h
  unfold countSingle
  split <;> exact ⟨rfl, .inr ⟨id, id, id⟩⟩

/-! ### No lost wake-up -/

/-- Where the queues are visited, some task waits. -/
theorem getTotalQueueLength_pos {s : QueueSystem} (h : s.visited ≠ []) :
    0 < s.state.getTotalQueueLength := by
  have hpos := List.length_pos_iff.mpr h
  unfold visited at hpos
  unfold QueueStateHolder.getTotalQueueLength
  split at hpos
  · simp only [List.length_append, List.length_nil] at hpos
    omega
  · simp only [List.length_append] at hpos
    omega

/-- Re-arming leaves nothing to do without a signal. -/
theorem wakeful_rearm {s : QueueSystem} (h : s.state.isProcessingQueue = false) : Wakeful s.rearm := by
  unfold rearm
  split
  · exact ⟨h, fun _ _ => rfl⟩
  · rename_i hnot
    refine ⟨h, fun hvisited hslot => absurd ?_ hnot⟩
    rw [Bool.and_eq_true]
    exact ⟨decide_eq_true hslot, decide_eq_true (getTotalQueueLength_pos hvisited)⟩

/-- A call of `processQueue` leaves nothing to do without a signal, also where it returns at once. -/
theorem wakeful_processQueue (post : PostMessage) {s : QueueSystem}
    (h : s.state.isProcessingQueue = false) : Wakeful (s.processQueue post) := by
  by_cases hslot : s.HasSlot
  · rw [processQueue_eq post h hslot]
    apply wakeful_rearm
    have hdrain : (s.drainQueues s.availableSlots).1.state.isProcessingQueue = false := by
      rw [drainQueues_eq]
      exact h
    unfold afterLoops
    split
    · exact hdrain
    · exact (wakes_afterPool _ _).idle.trans hdrain
  · have hreturns : s.processQueue post = s := by
      unfold processQueue
      rw [if_neg (by simp [h]), if_pos (not_lt.mp hslot)]
    rw [hreturns]
    exact ⟨h, fun _ hslot' => absurd hslot' hslot⟩

/-- The memory check requests the signal when it makes the low-priority tasks visible. -/
theorem wakeful_checkMemoryUsage {s : QueueSystem} (hs : Wakeful s) (usage : MemoryUsage) (now : ℕ) :
    Wakeful (s.checkMemoryUsage usage now) := by
  unfold checkMemoryUsage
  dsimp only
  by_cases hhigh : MemoryService.isHigh usage = true
  · -- fewer tasks are visited under memory pressure
    have hpressure : Wakes s { s with memoryPressure := true } := by
      refine ⟨rfl, .inr ⟨fun hne hnil => hne ?_, id, id⟩⟩
      simp only [visited, List.append_eq_nil_iff] at hnil ⊢
      exact ⟨hnil.1, rfl⟩
    have hrelieve : Wakes { s with memoryPressure := true }
        ({ s with memoryPressure := true }.relieveMemory usage now) := by
      unfold relieveMemory
      rw [if_pos hhigh]
      dsimp only
      split
      · exact (wakes_cleanupOldTasks _ now).trans (wakes_forceReduceQueues _ now)
      · exact wakes_cleanupOldTasks _ now
    rw [hhigh]
    split
    · exact hs.wakes ((hpressure.trans hrelieve).trans (wakes_requestProcessQueue _))
    · exact hs.wakes (hpressure.trans hrelieve)
  · have hlow : MemoryService.isHigh usage = false := by simpa using hhigh
    have hrelieve : ∀ t : QueueSystem, t.relieveMemory usage now = t := by
      intro t
      unfold relieveMemory
      rw [if_neg hhigh]
    rw [hlow, hrelieve]
    split
    · exact ⟨hs.idle, fun _ _ => rfl⟩
    · rename_i hempty
      have hnil : s.state.lowPriorityQueue = [] := by simpa using hempty
      refine hs.wakes ⟨rfl, .inr ⟨fun hne hnil' => hne ?_, id, id⟩⟩
      simp only [visited, List.append_eq_nil_iff] at hnil' ⊢
      exact ⟨hnil'.1, hnil⟩

/-- **Each step wakes the queue where it makes something to do.** -/
theorem wakeful_step {s u : QueueSystem} {e : QueueEvent} (hs : Wakeful s) (h : s.step e = some u) :
    Wakeful u := by
  cases takes_of_step h with
  | enqueue options now => exact hs.wakes (wakes_enqueue s options now)
  | processSignal _ => exact wakeful_processQueue _ hs.idle
  | tasksWait _ => exact hs.wakes (wakes_requestProcessQueue s)
  | nothingWaits _ => exact hs
  | batchTrigger _ =>
    refine hs.wakes (Wakes.trans ?_ (wakes_processBatch _ _ _))
    exact ⟨rfl, .inr ⟨id, id, id⟩⟩
  | batchAgingTimer now => exact hs.wakes (wakes_processBatches _ now _ s)
  | memoryCheckTimer usage now => exact wakeful_checkMemoryUsage hs usage now
  | statsLogTimer => exact hs.wakes ⟨rfl, .inr ⟨id, id, id⟩⟩
  | queueWaitTimer _ =>
    refine hs.wakes (Wakes.trans ?_ (wakes_onQueueWaitTimeout _ _))
    exact ⟨rfl, .inr ⟨id, id, id⟩⟩
  | single h => exact hs.wakes (wakes_advanceSingle h)
  | member h =>
    obtain ⟨g, r, stage, -, -, -, rfl⟩ := advanceMember_cases h
    exact hs.wakes ⟨rfl, .inr ⟨id, id, id⟩⟩
  | finallySingle h =>
    obtain ⟨r, -, -, rfl⟩ := finallySingle_cases h
    exact hs.wakes ⟨rfl, .inl rfl⟩
  | finallyGroup h =>
    obtain ⟨g, -, -, rfl⟩ := finallyGroup_cases h
    refine hs.wakes (Wakes.trans ?_ (wakes_onBatchComplete _ _ _ _))
    exact ⟨rfl, .inr ⟨id, id, id⟩⟩
  | workerMessage _ =>
    refine hs.wakes (Wakes.trans ?_ (wakes_afterPool _ _))
    exact ⟨rfl, .inr ⟨id, id, id⟩⟩
  | workerFailure _ => exact hs.wakes (wakes_afterPool _ _)

theorem wakeful_initial (config : QueueConfig) (taskIdCounter : ℕ) (stats : QueueStatsService)
    (allowCustomWorkload useWorkers : Bool) (workerCount : ℕ) (cpu memory custom : Option ℕ) :
    Wakeful (initial config taskIdCounter stats allowCustomWorkload useWorkers workerCount cpu memory
      custom) :=
  ⟨rfl, fun hne => absurd rfl hne⟩

variable {config : QueueConfig} {taskIdCounter : ℕ} {stats : QueueStatsService}
  {allowCustomWorkload useWorkers : Bool} {workerCount : ℕ} {cpu memory custom : Option ℕ}

theorem wakeful_of_reachable {s : QueueSystem}
    (h : Reachable step (initial config taskIdCounter stats allowCustomWorkload useWorkers
      workerCount cpu memory custom) s) : Wakeful s :=
  h.invariant (wakeful_initial _ _ _ _ _ _ _ _ _) fun _ _ _ hs _ hstep => wakeful_step hs hstep

/-- Between two callbacks no call of `processQueue` is under way. -/
theorem isProcessingQueue_eq_false {s : QueueSystem}
    (h : Reachable step (initial config taskIdCounter stats allowCustomWorkload useWorkers
      workerCount cpu memory custom) s) : s.state.isProcessingQueue = false :=
  (wakeful_of_reachable h).idle

/-- **No lost wake-up**: in every state of every run, where `processQueue` would visit a task and a
request more may be active, the signal is pending. -/
theorem no_lost_wakeup {s : QueueSystem}
    (h : Reachable step (initial config taskIdCounter stats allowCustomWorkload useWorkers
      workerCount cpu memory custom) s) (hvisited : s.visited ≠ []) (hslot : s.HasSlot) :
    s.state.processSignalPending = true :=
  (wakeful_of_reachable h).armed hvisited hslot

/-- A queue with one slot and no workers: one task is running and the next one waits; when the slot
is given back, the signal is pending. -/
theorem no_lost_wakeup_of_two_tasks : ∃ s : QueueSystem,
    s.state.normalPriorityQueue.length = 1 ∧ s.state.processSignalPending = true := by
  obtain ⟨s, hs, hseen⟩ := exists_reaches_of_runEvents step (fun _ _ => True)
    (fun s => (s.state.normalPriorityQueue.length, s.visited.length,
      decide (s.state.activeRequests < s.state.config.maxConcurrentRequests)))
    (s := initial { maxConcurrentRequests := 1 } 0 {} false false 0 none none none)
    [.enqueue {} 0, .enqueue {} 1, .processSignal fun _ => none,
      .single 0 .start, .single 0 (.finish (.value .null)), .single 0 .settle, .finallySingle 0]
    (1, 1, true) (by decide +kernel)
  simp only [Prod.mk.injEq, decide_eq_true_eq] at hseen
  obtain ⟨hqueue, hvisited, hslot⟩ := hseen
  refine ⟨s, hqueue, no_lost_wakeup hs (fun hnil => ?_) hslot⟩
  rw [hnil] at hvisited
  cases hvisited

/-! ### Re-arming without progress -/

/-- How many tasks wait where `processQueue` does not look. -/
def unvisited (s : QueueSystem) : ℕ :=
  s.state.getBatchTaskCount + if s.memoryPressure then s.state.lowPriorityQueue.length else 0

theorem getTotalQueueLength_eq_add (s : QueueSystem) :
    s.state.getTotalQueueLength = s.visited.length + s.unvisited := by
  unfold QueueStateHolder.getTotalQueueLength visited unvisited
  split
  · simp only [List.length_append, List.length_nil]
    omega
  · simp only [List.length_append]
    omega

end QueueSystem

/-- Does the callback give a slot back? A pass makes such a call where a dispatch fails. -/
def Call.givesBack : Call → Bool
  | .onSuccess _ | .onFailed _ | .onTaskFailed _ => true
  | _ => false

namespace WorkerPoolService

/-- Of the pending tasks that come up in the turns of the idle workers, one is of an unknown type, or
its message cannot be posted. -/
def dispatchFails (post : PostMessage) (s : WorkerPoolService) : Bool :=
  !(s.strays post s.idleSlots.length).isEmpty ||
    ((s.due post).take s.idleSlots.length).any fun td => !postable post td

variable {post : PostMessage} {s : WorkerPoolService}

/-- A dispatch gives a slot back for a task of an unknown type on the way, and for the task taken
where its message cannot be posted. -/
theorem givesBack_dispatchTo (i : ℕ) : (s.dispatchTo post i).2.any Call.givesBack =
    (!(ClassQueue.dropped dispatchableType s.router.canDispatchType s.workerTaskQueue).isEmpty ||
      s.next.any fun c => !postable post c) := by
  have hdropped : s.dequeued.calls.any Call.givesBack =
      !(ClassQueue.dropped dispatchableType s.router.canDispatchType s.workerTaskQueue).isEmpty := by
    rw [dequeued, WorkerTaskRouterService.dequeueDispatchableTask_eq]
    cases ClassQueue.dropped dispatchableType s.router.canDispatchType s.workerTaskQueue with
    | nil => rfl
    | cons c q => rfl
  have hturn : s.takesTask post = s.next.any (postable post) := (dispatchTo_turn post s i).2.2
  rw [← hdropped]
  obtain ⟨hp, hd⟩ | ⟨td, type, hp, hpost, hd⟩ | ⟨td, type, thrown, hp, hpost, hd⟩ :=
    dispatchTo_cases post s i
  · have hnext : s.next = none := (WorkerTaskRouterService.picked_eq_none_iff _).mp hp
    simp [hd, hnext]
  · obtain ⟨c, hc, -⟩ := s.router.picked_eq_some_iff.mp hp
    have hnext : s.next = some c := hc
    have hposts : postable post c = true := by simpa [takesTask, hp, hpost, hnext] using hturn
    simp [hd, Call.givesBack, hnext, hposts]
  · obtain ⟨c, hc, -⟩ := s.router.picked_eq_some_iff.mp hp
    have hnext : s.next = some c := hc
    have hposts : postable post c = false := by simpa [takesTask, hp, hpost, hnext] using hturn
    simp [hd, Call.givesBack, hnext, hposts]

theorem givesBack_processSlots {is : List ℕ} (hnodup : is.Nodup) (s : WorkerPoolService) :
    (processSlots post is s).2.any Call.givesBack =
      (!(s.strays post (is.filter s.idle).length).isEmpty ||
        ((s.due post).take (is.filter s.idle).length).any fun td => !postable post td) := by
  induction is generalizing s with
  | nil => simp [processSlots, strays]
  | cons i is ih =>
    obtain ⟨hi, hnodup⟩ := List.nodup_cons.mp hnodup
    simp only [processSlots, not_idle_of_skip]
    by_cases hidle : s.idle i = true
    · simp only [hidle, Bool.not_true, Bool.false_eq_true, if_false, List.filter_cons_of_pos]
      split
      · rename_i hempty
        have hnil : s.workerTaskQueue = [] := by simpa using hempty
        rw [due_of_empty hnil, strays_of_empty hnil, List.take_nil]
        rfl
      · dsimp only
        have hrest := ih hnodup (s.dispatchTo post i).1
        rw [filter_idle_dispatchTo hi] at hrest
        -- the first of the tasks that are due, and those that are due in the turns to come
        have htake : ((s.due post).take ((is.filter s.idle).length + 1)).any (fun td => !postable post td) =
            (s.next.any (fun td => !postable post td) ||
              ((s.dispatchTo post i).1.due post |>.take (is.filter s.idle).length).any
                fun td => !postable post td) := by
          rw [due_dispatchTo, ← due_head post s]
          cases s.due post with
          | nil => rw [List.tail_nil, List.take_nil, List.take_nil]; rfl
          | cons c q => rfl
        rw [List.any_append, givesBack_dispatchTo, hrest, List.length_cons, strays_dispatchTo _ i, htake]
        cases ClassQueue.dropped dispatchableType s.router.canDispatchType s.workerTaskQueue with
        | nil => simp only [List.isEmpty_nil, Bool.not_true, Bool.false_or, List.nil_append, Bool.or_left_comm]
        | cons c q => rfl
    · simp only [hidle, Bool.not_false, if_true, Bool.false_eq_true, not_false_eq_true,
        List.filter_cons_of_neg, ih hnodup]

theorem givesBack_processWorkerTasks (huse : s.useWorkers = true) :
    (s.processWorkerTasks post).2.any Call.givesBack = s.dispatchFails post := by
  unfold processWorkerTasks
  split
  · rename_i hc
    have hnil : s.workerTaskQueue = [] := by simpa [huse] using hc
    rw [dispatchFails, due_of_empty hnil, strays_of_empty hnil, List.take_nil]
    rfl
  · exact givesBack_processSlots List.nodup_range s

end WorkerPoolService

namespace QueueSystem

/-- Does a dispatch to a worker fail when the pool is given the worker tasks that a call of
`processQueue` takes? -/
def dispatchFails (post : PostMessage) (s : QueueSystem) : Bool :=
  let tasks := toWorkers s.pool.useWorkers (s.visited.take s.availableSlots)
  !tasks.isEmpty && { s.pool with
    workerTaskQueue := s.pool.workerTaskQueue ++ tasks.map createWorkerTaskData }.dispatchFails post

theorem useWorkers_of_toWorkers {isEnabled : Bool} {tasks : List QueueTask}
    (h : toWorkers isEnabled tasks ≠ []) : isEnabled = true := by
  cases isEnabled with
  | true => rfl
  | false => simp [toWorkers, isWorkerEligibleTask] at h

/-- What a call that leads from `s` to `s'` has to do with the signal. -/
structure RearmsForProgress (s s' : QueueSystem) : Prop where
  /-- Where it has requested the signal, the next call can dispatch a task. -/
  progress : s.state.processSignalPending = false → s'.state.processSignalPending = true →
    s'.visited ≠ [] ∧ s'.HasSlot
  /-- Where it finds no task to dispatch, it changes nothing. -/
  quiet : s.visited = [] → s' = s

/-- When a call requests the signal for a task only. Either it has nothing to request, as the signal
is pending or the call returns at once; or it leaves a task that it visited; or no dispatch to a
worker fails in it, and it takes the last free slots or no task waits where it does not look. -/
def RearmOk (post : PostMessage) (s : QueueSystem) : Prop :=
  s.state.processSignalPending = true ∨ s.state.isProcessingQueue = true ∨ ¬ s.HasSlot ∨
    s.availableSlots < s.visited.length ∨
    (s.dispatchFails post = false ∧
      ((s.state.config.maxConcurrentRequests : ℤ) ≤ s.state.activeRequests + s.visited.length ∨
        s.unvisited = 0))

/-- The callbacks that give a slot back request the signal. -/
theorem callbacks_signal (calls : List Call) (s : QueueSystem) :
    (calls.any Call.givesBack = false → (calls.foldl callback s).state = s.state) ∧
      (calls.any Call.givesBack = true →
        (calls.foldl callback s).state.processSignalPending = true ∧
          (s.state.activeRequests ≤ s.state.config.maxConcurrentRequests →
            (calls.foldl callback s).HasSlot)) := by
  have hpos : ∀ t : QueueSystem, (0 : ℤ) < t.state.config.maxConcurrentRequests := fun t => by
    have := t.state.config.maxConcurrentRequests_pos
    omega
  induction calls generalizing s with
  | nil => exact ⟨fun _ => rfl, fun h => Bool.noConfusion h⟩
  | cons c calls ih =>
    obtain ⟨hnone, hsome⟩ := ih (s.callback c)
    by_cases hc : c.givesBack = true
    · -- the slot is free from here on, and the signal is pending
      have hcall : (s.callback c).state.processSignalPending = true ∧
          (s.callback c).state.config = s.state.config ∧
          (s.callback c).state.activeRequests = max 0 (s.state.activeRequests - 1) := by
        cases c with
        | onSuccess t | onFailed t | onTaskFailed t => exact ⟨rfl, rfl, rfl⟩
        | _ => cases hc
      obtain ⟨hsignal, hconfig, hactive⟩ := hcall
      refine ⟨fun h => by simp [hc] at h, fun _ => ?_⟩
      rw [List.foldl_cons]
      have := hpos s
      by_cases hrest : calls.any Call.givesBack = true
      · obtain ⟨hpending, hslot⟩ := hsome hrest
        refine ⟨hpending, fun hle => hslot ?_⟩
        rw [hconfig, hactive]
        omega
      · have hstate := hnone (by simpa using hrest)
        refine ⟨by rw [hstate]; exact hsignal, fun hle => ?_⟩
        simp only [HasSlot, hstate, hconfig, hactive]
        omega
    · have hsame : s.callback c = s := by
        cases c with
        | onSuccess t | onFailed t | onTaskFailed t => exact absurd rfl hc
        | _ => rfl
      rw [hsame] at hnone hsome
      rw [List.foldl_cons, hsame, List.any_cons, Bool.eq_false_iff.mpr hc, Bool.false_or]
      exact ⟨hnone, hsome⟩

theorem visited_of_sameQueues {s s' : QueueSystem} (h : SameQueues s s') : s'.visited = s.visited := by
  unfold visited
  rw [h.high, h.normal, h.low, h.memoryPressure]

/-- The loops leave the signal, the settings and what they do not visit as they are. -/
theorem drainQueues_frame (s : QueueSystem) :
    (s.drainQueues s.availableSlots).1.unvisited = s.unvisited ∧
      (s.drainQueues s.availableSlots).1.memoryPressure = s.memoryPressure ∧
      (s.drainQueues s.availableSlots).1.state.processSignalPending = s.state.processSignalPending ∧
      (s.drainQueues s.availableSlots).1.state.config = s.state.config := by
  rw [drainQueues_eq]
  refine ⟨?_, rfl, rfl, rfl⟩
  unfold unvisited
  by_cases hpressure : s.memoryPressure = true
  · have htaken : (s.take s.availableSlots).low = [] := if_pos hpressure
    simp only [withQueues, dispatchAll, hpressure, htaken, if_true, List.length_nil, List.drop_zero]
    rfl
  · simp only [withQueues, dispatchAll, hpressure, Bool.false_eq_true, if_false]
    rfl

/-- The pass leaves the signal and the slots alone where no dispatch fails; where one does, the
signal is pending and a slot is free. -/
theorem afterLoops_signal (post : PostMessage) {s : QueueSystem} (hslot : s.HasSlot) :
    (s.dispatchFails post = false →
        (afterLoops post s (s.drainQueues s.availableSlots).1).state =
          (s.drainQueues s.availableSlots).1.state) ∧
      (s.dispatchFails post = true →
        (afterLoops post s (s.drainQueues s.availableSlots).1).state.processSignalPending = true ∧
          (afterLoops post s (s.drainQueues s.availableSlots).1).HasSlot) := by
  have hpool : (s.drainQueues s.availableSlots).1.pool = { s.pool with
      workerTaskQueue := s.pool.workerTaskQueue ++
        (toWorkers s.pool.useWorkers (s.visited.take s.availableSlots)).map createWorkerTaskData } := by
    rw [drainQueues_eq, take_all_eq]
    rfl
  have hactive : (s.drainQueues s.availableSlots).1.state.activeRequests ≤
      s.state.config.maxConcurrentRequests := by
    rw [(dispatched_drainQueues s s.availableSlots).activeRequests]
    unfold HasSlot at hslot
    have : s.availableSlots ≤ ((s.state.config.maxConcurrentRequests : ℤ) - s.state.activeRequests).toNat :=
      Nat.min_le_right _ _
    omega
  obtain ⟨-, -, -, hconfig⟩ := drainQueues_frame s
  generalize (s.drainQueues s.availableSlots).1 = m at hpool hactive hconfig ⊢
  unfold dispatchFails afterLoops
  dsimp only
  rw [← hpool]
  by_cases hempty : toWorkers s.pool.useWorkers (s.visited.take s.availableSlots) = []
  · simp [hempty]
  · have huse : m.pool.useWorkers = true := by
      rw [hpool]
      exact useWorkers_of_toWorkers hempty
    rw [← WorkerPoolService.givesBack_processWorkerTasks huse]
    obtain ⟨hnone, hsome⟩ := callbacks_signal (m.pool.processWorkerTasks post).2
      ({ m with pool := (m.pool.processWorkerTasks post).1 }.record (m.pool.processWorkerTasks post).2)
    rw [List.isEmpty_eq_false_iff.mpr hempty]
    simp only [Bool.false_eq_true, if_false, Bool.not_false, Bool.true_and]
    refine ⟨hnone, fun hfails => ?_⟩
    obtain ⟨hpending, hfree⟩ := hsome hfails
    exact ⟨hpending, hfree (by simp only [record]; rw [hconfig]; exact hactive)⟩

/-- What a call leaves when it does not return at once. -/
theorem processQueue_signal (post : PostMessage) {s : QueueSystem}
    (hidle : s.state.isProcessingQueue = false) (hslot : s.HasSlot)
    (hsignal : s.state.processSignalPending = false) :
    (s.processQueue post).visited = s.visited.drop s.availableSlots ∧
      (s.dispatchFails post = true →
        (s.processQueue post).state.processSignalPending = true ∧ (s.processQueue post).HasSlot) ∧
      (s.dispatchFails post = false →
        (s.processQueue post).state.activeRequests =
          s.state.activeRequests + min s.availableSlots s.visited.length ∧
        (s.processQueue post).state.config = s.state.config ∧
        ((s.processQueue post).state.processSignalPending = true ↔
          s.state.activeRequests + min s.availableSlots s.visited.length <
              s.state.config.maxConcurrentRequests ∧
            0 < (s.visited.drop s.availableSlots).length + s.unvisited)) := by
  have hdispatched := dispatched_drainQueues s s.availableSlots
  obtain ⟨hunvisited, hpressure, hpending, hconfig⟩ := drainQueues_frame s
  obtain ⟨hquiet, hfails⟩ := afterLoops_signal post hslot
  have hqueues := sameQueues_afterLoops post s (s.drainQueues s.availableSlots).1
  have hvisited := hdispatched.visited_drop hpressure
  rw [processQueue_eq post hidle hslot]
  generalize (s.drainQueues s.availableSlots).1 = m at *
  refine ⟨(visited_of_sameQueues hqueues).trans hvisited, fun h => ?_, fun h => ?_⟩
  · obtain ⟨hsignal', hslot'⟩ := hfails h
    unfold rearm
    split
    · exact ⟨rfl, hslot'⟩
    · exact ⟨hsignal', hslot'⟩
  · have hstate := hquiet h
    have hlength : (afterLoops post s m).state.getTotalQueueLength =
        (s.visited.drop s.availableSlots).length + s.unvisited := by
      rw [hstate, getTotalQueueLength_eq_add, hvisited, hunvisited]
    have hrearm : (afterLoops post s m).rearm.state.activeRequests = m.state.activeRequests ∧
        (afterLoops post s m).rearm.state.config = m.state.config := by
      unfold rearm
      split
      · simp only [requestProcessQueue, hstate, and_self]
      · simp only [hstate, and_self]
    refine ⟨hrearm.1.trans hdispatched.activeRequests, hrearm.2.trans hconfig, ?_⟩
    rw [← hdispatched.activeRequests, ← hlength]
    unfold rearm
    rw [hstate, hconfig]
    split
    · rename_i hcond
      rw [Bool.and_eq_true, decide_eq_true_eq, decide_eq_true_eq] at hcond
      exact ⟨fun _ => hcond, fun _ => rfl⟩
    · rename_i hcond
      rw [Bool.and_eq_true, decide_eq_true_eq, decide_eq_true_eq] at hcond
      refine ⟨fun hp => ?_, fun hc => absurd hc hcond⟩
      rw [hstate, hpending, hsignal] at hp
      cases hp

/-- A call that finds no task to dispatch only re-arms. -/
theorem processQueue_of_nothing (post : PostMessage) {s : QueueSystem} (hvisited : s.visited = [])
    (hidle : s.state.isProcessingQueue = false) (hslot : s.HasSlot) :
    s.processQueue post = s.rearm := by
  have htaken : (s.take s.availableSlots).all = [] := by rw [take_all_eq, hvisited, List.take_nil]
  have hparts := htaken
  simp only [Taken.all, List.append_eq_nil_iff] at hparts
  obtain ⟨⟨hhigh, hnormal⟩, hlow⟩ := hparts
  have hdrain : (s.drainQueues s.availableSlots).1 = s := by
    rw [drainQueues_eq, htaken, hhigh, hnormal, hlow, dispatchAll_nil]
    rfl
  rw [processQueue_eq post hidle hslot, hdrain, afterLoops, hvisited, List.take_nil]
  rfl

/-- **A call requests the signal for a task only** exactly when `RearmOk` says so. -/
theorem rearms_iff (post : PostMessage) (s : QueueSystem) :
    RearmsForProgress s (s.processQueue post) ↔ s.RearmOk post := by
  by_cases hidle : s.state.isProcessingQueue = true
  · have hreturns : s.processQueue post = s := by
      unfold processQueue
      exact if_pos hidle
    refine iff_of_true ⟨fun h h' => ?_, fun _ => hreturns⟩ (.inr (.inl hidle))
    rw [hreturns, h] at h'
    cases h'
  have hidle : s.state.isProcessingQueue = false := by simpa using hidle
  by_cases hslot : s.HasSlot
  swap
  · have hreturns : s.processQueue post = s := by
      unfold processQueue
      rw [if_neg (by simp [hidle]), if_pos (not_lt.mp hslot)]
    refine iff_of_true ⟨fun h h' => ?_, fun _ => hreturns⟩ (.inr (.inr (.inl hslot)))
    rw [hreturns, h] at h'
    cases h'
  by_cases hsignal : s.state.processSignalPending = true
  · -- requesting the signal again changes nothing
    refine iff_of_true ⟨fun h => ?_, fun hvisited => ?_⟩ (.inl hsignal)
    · rw [hsignal] at h
      cases h
    · rw [processQueue_of_nothing post hvisited hidle hslot]
      unfold rearm
      split
      · unfold requestProcessQueue
        rw [← hsignal]
      · rfl
  have hsignal : s.state.processSignalPending = false := by simpa using hsignal
  obtain ⟨hvisited, hfails, hquiet⟩ := processQueue_signal post hidle hslot hsignal
  by_cases hmore : s.availableSlots < s.visited.length
  · -- a task is left that the call has visited
    have hleft : s.visited.drop s.availableSlots ≠ [] := by
      rw [Ne, List.drop_eq_nil_iff]
      omega
    refine iff_of_true ⟨fun _ hpending => ⟨by rw [hvisited]; exact hleft, ?_⟩, fun hnil => ?_⟩
      (.inr (.inr (.inr (.inl hmore))))
    · cases hf : s.dispatchFails post with
      | true => exact (hfails hf).2
      | false =>
        obtain ⟨hactive, hconfig, hiff⟩ := hquiet hf
        unfold HasSlot
        rw [hactive, hconfig]
        exact (hiff.mp hpending).1
    · rw [hnil] at hmore
      exact absurd hmore (Nat.not_lt_zero _)
  · -- all the visited tasks are taken
    have hdrop : s.visited.drop s.availableSlots = [] := List.drop_eq_nil_iff.mpr (Nat.le_of_not_lt hmore)
    have hmin : min s.availableSlots s.visited.length = s.visited.length :=
      Nat.min_eq_right (Nat.le_of_not_lt hmore)
    rw [hdrop] at hvisited hquiet
    rw [hmin, List.length_nil, Nat.zero_add] at hquiet
    have hok : s.RearmOk post ↔ s.dispatchFails post = false ∧
        ((s.state.config.maxConcurrentRequests : ℤ) ≤ s.state.activeRequests + s.visited.length ∨
          s.unvisited = 0) := by
      simp only [RearmOk, hsignal, hidle, hslot, hmore, Bool.false_eq_true, not_true_eq_false,
        false_or]
    rw [hok]
    constructor
    · rintro ⟨hprogress, -⟩
      have hpending : ¬ (s.processQueue post).state.processSignalPending = true := by
        intro hpending
        exact (hprogress hsignal hpending).1 hvisited
      have hf : s.dispatchFails post = false := by
        by_contra hf
        exact hpending (hfails (by simpa using hf)).1
      obtain ⟨-, -, hiff⟩ := hquiet hf
      rw [hiff] at hpending
      exact ⟨hf, by omega⟩
    · rintro ⟨hf, hrest⟩
      obtain ⟨-, -, hiff⟩ := hquiet hf
      have hpending : ¬ (s.processQueue post).state.processSignalPending = true := by
        rw [hiff]
        omega
      refine ⟨fun _ h => absurd h hpending, fun hnil => ?_⟩
      rw [processQueue_of_nothing post hnil hidle hslot] at hpending ⊢
      unfold rearm at hpending ⊢
      split
      · rename_i hcond
        rw [if_pos hcond] at hpending
        exact absurd rfl hpending
      · rfl

/-- A queue whose only task waits in a batch. -/
def batchedTask (config : QueueConfig) : QueueSystem where
  state := {
    config := config
    batchQueues := JsMap.empty.set "report" {
      category := "report", tasks := [{ id := 1, timestamp := 0, priority := 0 }],
      createdAt := 0, totalSize := .finite 1 } }
  pool := { useWorkers := false, router := .create 1 none none none }

/-- A call that has nothing to dispatch requests the signal again, and the next one does too. -/
theorem rearms_without_progress : ¬ RearmsForProgress (batchedTask {})
    ((batchedTask {}).processQueue fun _ => none) := by
  rintro ⟨hprogress, -⟩
  exact (hprogress rfl (by decide +kernel)).1 rfl

end QueueSystem

end BulkTraffic.Queue
