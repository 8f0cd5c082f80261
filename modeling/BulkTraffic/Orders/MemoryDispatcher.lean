import BulkTraffic.Lib.Runs
import BulkTraffic.Orders.Events

/-!
# The dispatcher within the process

`MemoryOrderDispatcher`: a queue in the memory of the process and the loop `drain` that
empties it. Every `dispatch` calls `drain`, which runs up to its first `await`. The state
keeps the calls of `drain` that wait at an `await`: `delaying e` waits for the delay before
`e`, `recording e` for the store. When the store answers, the loop goes on up to its next
`await` or to its end. `recordEvent` is asynchronous: it answers later, never while it is called.

A list of such calls is kept, not at most one: that there is never a second one is part of
what is proved.

`accepted` and `attempted` are no fields of the source: the events that were dispatched and
the records that were handed to the store, in order.

* `Ledger`: the invariant of all runs.
* `memoryDispatcher_conserves`: what was accepted is processed, failed, pending or in
  flight, one loop at most is active, and no event waits without one.
-/

namespace BulkTraffic.Orders

open BulkTraffic.Lib

/-- `QUEUE_NAME`. -/
def queueName : String := "memory://orders"

/-- What the constructor and the process give. -/
structure MemoryDispatcherConfig where
  /-- `MEMORY_CONSUMER_DELAY_MS`. -/
  processingDelayMs : ℕ
  /-- `process.pid`. -/
  pid : ℕ

/-- A call of `drain` that waits at an `await`. -/
inductive Drain where
  /-- It waits for the delay. -/
  | delaying (event : OrderEventPayload)
  /-- It waits for `store.recordEvent`. -/
  | recording (event : OrderEventPayload)
  deriving DecidableEq

/-- The result of `dispatch`. -/
structure DispatchResult where
  destination : String
  partition : Option ℕ
  offset : Option String
  key : Option String
  deriving DecidableEq

/-- `MemoryOrderDispatcher`. -/
structure MemoryOrderDispatcher where
  queue : List OrderEventPayload := []
  draining : Bool := false
  stopped : Bool := false
  enqueued : ℕ := 0
  processed : ℕ := 0
  failed : ℕ := 0
  /-- The calls of `drain` that wait. -/
  loops : List Drain := []
  /-- The errors that were logged. -/
  logged : List String := []
  accepted : List OrderEventPayload := []
  attempted : List OrderEventRecord := []
  deriving DecidableEq

/-- What happens to the dispatcher. -/
inductive DispatcherEvent where
  /-- `dispatch(payload)`; `now` is `Date.now()` where it is read. -/
  | dispatch (payload : OrderEventPayload) (now : TimeValue)
  /-- The delay of a loop ends. -/
  | delayEnds (loop : ℕ) (now : TimeValue)
  /-- The store has recorded the event of a loop. -/
  | stored (loop : ℕ) (now : TimeValue)
  /-- The store has failed to. -/
  | storeFails (loop : ℕ) (reason : String) (now : TimeValue)
  /-- `onModuleDestroy()`. -/
  | destroy

namespace MemoryOrderDispatcher

variable (config : MemoryDispatcherConfig)

/-- What `drain` hands to the store. -/
def recordOf (event : OrderEventPayload) (now : TimeValue) : OrderEventRecord where
  orderId := event.orderId
  eventType := event.eventType
  topic := queueName
  partition := -1
  offset := ""
  consumerId := "memory/" ++ toString config.pid
  consumedAt := now

/-- `store.recordEvent({..})` is called. -/
def callStore (s : MemoryOrderDispatcher) (event : OrderEventPayload) (now : TimeValue) :
    MemoryOrderDispatcher :=
  { s with
    loops := s.loops ++ [.recording event]
    attempted := s.attempted ++ [recordOf config event now] }

/-- The head of the loop of `drain`, up to the next `await` or to the end of the loop. -/
def loopHead (s : MemoryOrderDispatcher) (now : TimeValue) : MemoryOrderDispatcher :=
  if s.stopped then { s with draining := false }
  else match s.queue with
    | [] => { s with draining := false }
    | event :: rest =>
      let s := { s with queue := rest }
      if 0 < config.processingDelayMs then { s with loops := s.loops ++ [.delaying event] }
      else s.callStore config event now

/-- `drain()`. -/
def drain (s : MemoryOrderDispatcher) (now : TimeValue) : MemoryOrderDispatcher :=
  if s.draining then s else { s with draining := true }.loopHead config now

/-- `dispatch(payload)`. -/
def dispatch (s : MemoryOrderDispatcher) (payload : OrderEventPayload) (now : TimeValue) :
    MemoryOrderDispatcher × Except String DispatchResult :=
  if s.stopped then (s, .error "프로세스 안의 큐가 이미 멈춰 있습니다.")
  else
    let s := { s with
      queue := s.queue ++ [payload]
      enqueued := s.enqueued + 1
      accepted := s.accepted ++ [payload] }
    (s.drain config now, .ok ⟨queueName, none, none, none⟩)

/-- The result of `getStats`. -/
structure Stats where
  enqueued : ℕ
  processed : ℕ
  failed : ℕ
  pending : ℕ
  deriving DecidableEq

/-- `getStats()`. -/
def getStats (s : MemoryOrderDispatcher) : Stats :=
  ⟨s.enqueued, s.processed, s.failed, s.queue.length⟩

/-- `isReady()`. -/
def isReady (s : MemoryOrderDispatcher) : Bool := !s.stopped

/-- The call number `loop` of `drain` goes on: it waits no longer. -/
def resume (s : MemoryOrderDispatcher) (loop : ℕ) : MemoryOrderDispatcher :=
  { s with loops := s.loops.eraseIdx loop }

/-- One event. -/
def step (s : MemoryOrderDispatcher) : DispatcherEvent → Option MemoryOrderDispatcher
  | .dispatch payload now => some (s.dispatch config payload now).1
  | .delayEnds loop now =>
    match s.loops[loop]? with
    | some (.delaying event) => some ((s.resume loop).callStore config event now)
    | _ => none
  | .stored loop now =>
    match s.loops[loop]? with
    | some (.recording _) =>
      some ({ s.resume loop with processed := s.processed + 1 }.loopHead config now)
    | _ => none
  | .storeFails loop reason now =>
    match s.loops[loop]? with
    | some (.recording event) =>
      some ({ s.resume loop with
        failed := s.failed + 1
        logged := s.logged ++ ["처리 실패로 유실 orderId=" ++ event.orderId ++ ": " ++ reason]
        }.loopHead config now)
    | _ => none
  | .destroy => some { s with stopped := true }

/-- The dispatcher after its construction. -/
def initial : MemoryOrderDispatcher := {}

/-! ### The invariant -/

/-- The record is of the event. -/
def Records (event : OrderEventPayload) (record : OrderEventRecord) : Prop :=
  ∃ now, record = recordOf config event now

/-- The events whose record the store has been handed, the one `drain` holds back, if any, and
the ones in the queue are the accepted events in order. `busy` are the attempts under way. -/
structure Holds (s : MemoryOrderDispatcher) (before held : List OrderEventPayload) (busy : ℕ) :
    Prop where
  accepted_eq : s.accepted = before ++ held ++ s.queue
  records : List.Forall₂ (Records config) before s.attempted
  enqueued_eq : s.enqueued = s.accepted.length
  attempts_eq : s.attempted.length = s.processed + s.failed + busy

/-- What holds in every run: either one call of `drain` waits, with the event it holds, or none
does and, unless the dispatcher is stopped, the queue is empty. -/
inductive Ledger (s : MemoryOrderDispatcher) : Prop where
  | idle (before : List OrderEventPayload) : s.draining = false → s.loops = [] →
      (s.stopped = false → s.queue = []) → s.Holds config before [] 0 → Ledger s
  | delaying (before : List OrderEventPayload) (event : OrderEventPayload) : s.draining = true →
      s.loops = [.delaying event] → s.Holds config before [event] 0 → Ledger s
  | recording (before : List OrderEventPayload) (event : OrderEventPayload) : s.draining = true →
      s.loops = [.recording event] → s.Holds config before [] 1 → Ledger s

variable {config} {s t : MemoryOrderDispatcher}

theorem ledger_initial : Ledger config initial :=
  .idle [] rfl rfl (fun _ => rfl) ⟨rfl, .nil, rfl, rfl⟩

/-- The store is handed the event that was held. -/
theorem Holds.callStore (before : List OrderEventPayload) {event : OrderEventPayload}
    (h : s.Holds config before [event] 0)
    (hdraining : s.draining = true) (hloops : s.loops = []) (now : TimeValue) :
    Ledger config (s.callStore config event now) := by
  obtain ⟨haccepted, hrecords, henqueued, hattempts⟩ := h
  refine .recording (before ++ [event]) event hdraining ?_ ⟨?_, ?_, henqueued, ?_⟩
  · simp [MemoryOrderDispatcher.callStore, hloops]
  · simpa [MemoryOrderDispatcher.callStore] using haccepted
  · exact List.rel_append hrecords (.cons ⟨now, rfl⟩ .nil)
  · show (s.attempted ++ _).length = s.processed + s.failed + 1
    simp only [List.length_append, List.length_singleton]
    omega

/-- A loop that goes on either takes the next event or ends. -/
theorem Holds.loopHead (before : List OrderEventPayload) (h : s.Holds config before [] 0)
    (hdraining : s.draining = true) (hloops : s.loops = []) (now : TimeValue) : Ledger config (s.loopHead config now) := by
  unfold MemoryOrderDispatcher.loopHead
  obtain ⟨haccepted, hrecords, henqueued, hattempts⟩ := h
  split
  · rename_i hstopped
    refine .idle before rfl hloops (fun hrunning => ?_) ⟨haccepted, hrecords, henqueued, hattempts⟩
    exact absurd hstopped (by simp_all)
  · split
    · rename_i hqueue
      exact .idle before rfl hloops (fun _ => hqueue) ⟨haccepted, hrecords, henqueued, hattempts⟩
    · rename_i event rest hqueue
      have hheld : { s with queue := rest }.Holds config before [event] 0 :=
        ⟨by simpa [hqueue] using haccepted, hrecords, henqueued, hattempts⟩
      split
      · obtain ⟨haccepted, hrecords, henqueued, hattempts⟩ := hheld
        refine .delaying before event hdraining ?_ ⟨haccepted, hrecords, henqueued, hattempts⟩
        simp [hloops]
      · exact hheld.callStore before hdraining hloops now

/-- An event is put in the queue. -/
theorem Holds.push {before held : List OrderEventPayload} {busy : ℕ} (h : s.Holds config before held busy)
    (payload : OrderEventPayload) :
    { s with
      queue := s.queue ++ [payload]
      enqueued := s.enqueued + 1
      accepted := s.accepted ++ [payload] }.Holds config before held busy := by
  obtain ⟨haccepted, hrecords, henqueued, hattempts⟩ := h
  exact ⟨by simp [haccepted], hrecords, by simp [henqueued], hattempts⟩

/-- `dispatch` keeps the invariant: it starts a loop exactly where none is active. -/
theorem Ledger.dispatch (h : Ledger config s) (payload : OrderEventPayload) (now : TimeValue) :
    Ledger config (s.dispatch config payload now).1 := by
  unfold MemoryOrderDispatcher.dispatch
  split
  · exact h
  · show Ledger config (MemoryOrderDispatcher.drain config _ now)
    unfold MemoryOrderDispatcher.drain
    cases h with
    | idle before hdraining hloops hqueue hholds =>
      rw [if_neg (by simp [hdraining])]
      obtain ⟨haccepted, hrecords, henqueued, hattempts⟩ := hholds.push payload
      refine Holds.loopHead before ?_ ?_ ?_ now
      · exact ⟨haccepted, hrecords, henqueued, hattempts⟩
      · rfl
      · exact hloops
    | delaying before event hdraining hloops hholds =>
      rw [if_pos hdraining]
      exact .delaying before event hdraining hloops (hholds.push payload)
    | recording before event hdraining hloops hholds =>
      rw [if_pos hdraining]
      exact .recording before event hdraining hloops (hholds.push payload)

/-- The call that goes on is the only one that waits. -/
theorem loops_resume {d d' : Drain} {loop : ℕ} (hloops : s.loops = [d])
    (h : s.loops[loop]? = some d') : d' = d ∧ (s.resume loop).loops = [] := by
  rw [hloops] at h
  cases loop with
  | zero =>
    simp only [List.getElem?_cons_zero, Option.some.injEq] at h
    exact ⟨h.symm, by simp [resume, hloops]⟩
  | succ loop => simp at h

/-- The call that waits for the store: nothing is held, and one attempt is under way. -/
theorem Ledger.recording_of {loop : ℕ} {event : OrderEventPayload} (h : Ledger config s)
    (hloop : s.loops[loop]? = some (.recording event)) :
    s.draining = true ∧ (s.resume loop).loops = [] ∧ ∃ before, s.Holds config before [] 1 := by
  cases h with
  | idle before hdraining hloops hqueue hholds => simp [hloops] at hloop
  | delaying before event' hdraining hloops hholds =>
    obtain ⟨heq, -⟩ := loops_resume hloops hloop
    cases heq
  | recording before event' hdraining hloops hholds =>
    obtain ⟨-, hresume⟩ := loops_resume hloops hloop
    exact ⟨hdraining, hresume, before, hholds⟩

/-- **One step** keeps the invariant. -/
theorem Ledger.step {e : DispatcherEvent} (h : Ledger config s)
    (hstep : s.step config e = some t) : Ledger config t := by
  cases e with
  | dispatch payload now =>
    cases hstep
    exact h.dispatch payload now
  | delayEnds loop now =>
    simp only [MemoryOrderDispatcher.step] at hstep
    split at hstep
    · rename_i event hloop
      cases hstep
      cases h with
      | idle before hdraining hloops hqueue hholds => simp [hloops] at hloop
      | delaying before event' hdraining hloops hholds =>
        obtain ⟨heq, hresume⟩ := loops_resume hloops hloop
        cases heq
        obtain ⟨haccepted, hrecords, henqueued, hattempts⟩ := hholds
        refine Holds.callStore before ?_ ?_ ?_ now
        · exact ⟨haccepted, hrecords, henqueued, hattempts⟩
        · exact hdraining
        · exact hresume
      | recording before event' hdraining hloops hholds =>
        obtain ⟨heq, -⟩ := loops_resume hloops hloop
        cases heq
    · cases hstep
  | stored loop now =>
    simp only [MemoryOrderDispatcher.step] at hstep
    split at hstep
    · rename_i event hloop
      cases hstep
      obtain ⟨hdraining, hresume, before, haccepted, hrecords, henqueued, hattempts⟩ :=
        h.recording_of hloop
      refine Holds.loopHead before ?_ ?_ ?_ now
      · refine ⟨haccepted, hrecords, henqueued, ?_⟩
        show s.attempted.length = s.processed + 1 + s.failed + 0
        omega
      · exact hdraining
      · exact hresume
    · cases hstep
  | storeFails loop reason now =>
    simp only [MemoryOrderDispatcher.step] at hstep
    split at hstep
    · rename_i event hloop
      cases hstep
      obtain ⟨hdraining, hresume, before, haccepted, hrecords, henqueued, hattempts⟩ :=
        h.recording_of hloop
      refine Holds.loopHead before ?_ ?_ ?_ now
      · refine ⟨haccepted, hrecords, henqueued, ?_⟩
        show s.attempted.length = s.processed + (s.failed + 1) + 0
        omega
      · exact hdraining
      · exact hresume
    · cases hstep
  | destroy =>
    cases hstep
    cases h with
    | idle before hdraining hloops hqueue hholds =>
      obtain ⟨haccepted, hrecords, henqueued, hattempts⟩ := hholds
      exact .idle before hdraining hloops nofun ⟨haccepted, hrecords, henqueued, hattempts⟩
    | delaying before event hdraining hloops hholds =>
      obtain ⟨haccepted, hrecords, henqueued, hattempts⟩ := hholds
      exact .delaying before event hdraining hloops ⟨haccepted, hrecords, henqueued, hattempts⟩
    | recording before event hdraining hloops hholds =>
      obtain ⟨haccepted, hrecords, henqueued, hattempts⟩ := hholds
      exact .recording before event hdraining hloops ⟨haccepted, hrecords, henqueued, hattempts⟩

theorem ledger_of_reachable (h : Reachable (step config) initial s) : Ledger config s :=
  h.invariant ledger_initial fun _ _ _ hs _ hstep => hs.step hstep

/-! ### What holds in every run -/

/-- `before` are the first of the accepted events, as many as were attempted. -/
theorem Holds.take_accepted {before held : List OrderEventPayload} {busy : ℕ}
    (h : s.Holds config before held busy) : s.accepted.take s.attempted.length = before := by
  rw [h.accepted_eq, ← h.records.length_eq, List.append_assoc, List.take_left]

theorem Ledger.holds (h : Ledger config s) :
    ∃ before held busy, s.Holds config before held busy ∧ held.length + busy = s.loops.length ∧
      s.loops.length ≤ 1 := by
  cases h with
  | idle before hdraining hloops hqueue hholds => exact ⟨before, [], 0, hholds, by simp [hloops]⟩
  | delaying before event hdraining hloops hholds =>
    exact ⟨before, [event], 0, hholds, by simp [hloops]⟩
  | recording before event hdraining hloops hholds =>
    exact ⟨before, [], 1, hholds, by simp [hloops]⟩

/-- A dispatcher that was stopped refuses every event and stays as it is. -/
theorem dispatch_of_stopped (h : s.stopped = true) (payload : OrderEventPayload) (now : TimeValue) :
    s.dispatch config payload now = (s, .error "프로세스 안의 큐가 이미 멈춰 있습니다.") :=
  if_pos h

/-- **The dispatcher loses nothing**: in every run what was enqueued is processed, failed,
pending or in flight, one event at most is in flight and one loop at most is active, which is
the one `draining` tells of. The store was handed the first of the accepted events, in their
order and each once. A stopped dispatcher takes nothing, and unless it is stopped no event is
left in the queue without an active loop. -/
theorem memoryDispatcher_conserves (h : Reachable (step config) initial s) :
    s.getStats.enqueued
        = s.getStats.processed + s.getStats.failed + s.getStats.pending + s.loops.length ∧
      s.loops.length ≤ 1 ∧ (s.draining = true ↔ s.loops.length = 1) ∧
      List.Forall₂ (Records config) (s.accepted.take s.attempted.length) s.attempted ∧
      (s.stopped = true → ∀ payload now,
        s.dispatch config payload now = (s, .error "프로세스 안의 큐가 이미 멈춰 있습니다.")) ∧
      (s.stopped = false → s.loops = [] → s.queue = []) := by
  have hledger := ledger_of_reachable h
  obtain ⟨before, held, busy, hholds, hinFlight, hone⟩ := hledger.holds
  refine ⟨?_, hone, ?_, ?_, fun hstopped payload now => dispatch_of_stopped hstopped payload now, ?_⟩
  · show s.enqueued = s.processed + s.failed + s.queue.length + s.loops.length
    have hlength := congrArg List.length hholds.accepted_eq
    simp only [List.length_append] at hlength
    have := hholds.enqueued_eq
    have := hholds.attempts_eq
    have := hholds.records.length_eq
    omega
  · cases hledger with
    | idle before hdraining hloops hqueue hholds => simp [hdraining, hloops]
    | delaying before event hdraining hloops hholds => simp [hdraining, hloops]
    | recording before event hdraining hloops hholds => simp [hdraining, hloops]
  · rw [hholds.take_accepted]
    exact hholds.records
  · intro hstopped hempty
    cases hledger with
    | idle before hdraining hloops hqueue hholds => exact hqueue hstopped
    | delaying before event hdraining hloops hholds => simp [hempty] at hloops
    | recording before event hdraining hloops hholds => simp [hempty] at hloops

/-- An event of a test. -/
def eventOf (orderId : String) : OrderEventPayload :=
  ⟨.created, orderId, (.ofString "user-1"), .finite 10000, [], .epoch⟩

/-- Two events, the first is recorded, the second fails, and a third comes after the stop. -/
theorem memoryDispatcher_conserves_after_failure :
    ∃ s, Reachable (step ⟨5, 1⟩) initial s ∧ s.getStats = ⟨2, 1, 1, 0⟩ ∧ s.loops.length ≤ 1 ∧
      (s.stopped = true → ∀ payload now, s.dispatch ⟨5, 1⟩ payload now
        = (s, .error "프로세스 안의 큐가 이미 멈춰 있습니다.")) := by
  obtain ⟨s, hs, hseen⟩ := exists_reaches_of_runEvents (step ⟨5, 1⟩) (fun _ _ => True)
    getStats (s := initial)
    [.dispatch (eventOf "ord-1") .epoch, .dispatch (eventOf "ord-2") .epoch, .delayEnds 0 .epoch,
      .stored 0 .epoch, .delayEnds 0 .epoch, .storeFails 0 "disk" .epoch, .destroy,
      .dispatch (eventOf "ord-3") .epoch]
    ⟨2, 1, 1, 0⟩ (by decide +kernel)
  obtain ⟨-, hone, -, -, hstopped, -⟩ := memoryDispatcher_conserves hs
  exact ⟨s, hs, hseen, hone, hstopped⟩

end MemoryOrderDispatcher

end BulkTraffic.Orders
