import BulkTraffic.Lib.Runs
import BulkTraffic.Orders.OrderService

/-!
# Lifecycles side by side

`dispatchLifecycle` stops at every `await`, and the lifecycles of several orders go on in turn
there. What an `await` is answered comes from outside: dispatching can fail, and so can an
update of the status.

A call goes through `LifecyclePhase`. An event of the system is one call going on.

`answers` is no variable of the source. It records what the awaits of a call were answered.
-/

namespace BulkTraffic.Orders

open BulkTraffic.Lib

/-- Where a call of `dispatchLifecycle` is. -/
inductive LifecyclePhase where
  /-- At `store.findOrder`. -/
  | finding
  /-- At `dispatcher.dispatch` for an event type, with those that come after it. -/
  | dispatching (order : Order) (eventType : OrderEventType) (rest : List OrderEventType)
      (steps : List LifecycleStep)
  /-- At `store.updateStatus`. -/
  | updating (order : Order) (eventType : OrderEventType) (dispatch : DispatchResult)
      (rest : List OrderEventType) (steps : List LifecycleStep)
  | returned (result : LifecycleResult)
  | threw (message : String)

/-- What an `await` in the loop was answered. -/
inductive LifecycleAnswer where
  | dispatched (ok : Bool)
  | updated (ok : Bool)
  deriving DecidableEq

/-- A call of `dispatchLifecycle`. -/
structure LifecycleCall where
  orderId : String
  phase : LifecyclePhase := .finding
  answers : List LifecycleAnswer := []

/-- The answer a call goes on with. -/
inductive LifecycleResume where
  | found
  /-- The dispatcher answers, at the time `Date.now()` that the payload was made with. -/
  | dispatched (emittedAt : TimeValue) (answer : Except String DispatchResult)
  /-- The update fails, or is made at the time `now`. -/
  | updated (failure : Option String) (now : TimeValue)

/-- The head of the loop. -/
def nextPhase (orderId : String) (order : Order) (steps : List LifecycleStep) :
    List OrderEventType → LifecyclePhase
  | [] => .returned { orderId := orderId, steps := steps }
  | eventType :: rest => .dispatching order eventType rest steps

/-- What `store.updateStatus` is answered. -/
def updateAnswer (store : SqliteOrderStore) (orderId : String) (eventType : OrderEventType)
    (failure : Option String) (now : TimeValue) : Except String SqliteOrderStore :=
  match failure with
  | some message => .error message
  | none => store.updateStatus orderId (statusAfter eventType) now

namespace LifecycleCall

/-- A call goes on: the call, the store and what was dispatched. -/
def resume (store : SqliteOrderStore) (c : LifecycleCall) (e : LifecycleResume) :
    Option (LifecycleCall × SqliteOrderStore × List OrderEventPayload) :=
  match c.phase, e with
  | .finding, .found =>
    match store.findOrder c.orderId with
    | none => some ({ c with phase := .threw ("주문을 찾을 수 없습니다: " ++ c.orderId) }, store, [])
    | some order => some ({ c with phase := nextPhase c.orderId order [] lifecycleEventTypes }, store, [])
  | .dispatching order eventType rest steps, .dispatched emittedAt answer =>
    match answer with
    | .error message =>
      some ({ c with phase := .threw message, answers := c.answers ++ [.dispatched false] }, store, [])
    | .ok dispatch =>
      some ({ c with
        phase := .updating order eventType dispatch rest steps
        answers := c.answers ++ [.dispatched true] }, store, [order.toPayload eventType emittedAt])
  | .updating order eventType dispatch rest steps, .updated failure now =>
    match updateAnswer store c.orderId eventType failure now with
    | .error message =>
      some ({ c with phase := .threw message, answers := c.answers ++ [.updated false] }, store, [])
    | .ok store =>
      some ({ c with
        phase := nextPhase c.orderId order (steps ++
          [{ eventType := eventType
             destination := dispatch.destination
             partition := dispatch.partition
             offset := dispatch.offset
             key := dispatch.key }]) rest
        answers := c.answers ++ [.updated true] }, store, [])
  | _, _ => none

/-- How many events of the call were dispatched. -/
def dispatches (c : LifecycleCall) : ℕ := c.answers.count (.dispatched true)

/-- How many updates of the status succeeded. -/
def updates (c : LifecycleCall) : ℕ := c.answers.count (.updated true)

/-- Was an answer a failure? -/
def Failed (c : LifecycleCall) : Prop :=
  .dispatched false ∈ c.answers ∨ .updated false ∈ c.answers

end LifecycleCall

/-- The store, the calls and what was dispatched so far. -/
structure Lifecycles where
  store : SqliteOrderStore
  calls : List LifecycleCall
  dispatched : List OrderEventPayload := []

namespace Lifecycles

/-- The calls for some orders begin. -/
def start (store : SqliteOrderStore) (orderIds : List String) : Lifecycles where
  store := store
  calls := orderIds.map fun orderId => { orderId := orderId }

/-- One call goes on. -/
def step (s : Lifecycles) (e : ℕ × LifecycleResume) : Option Lifecycles :=
  match s.calls[e.1]? with
  | none => none
  | some c => (c.resume s.store e.2).map fun (c, store, sent) =>
    { store := store, calls := s.calls.set e.1 c, dispatched := s.dispatched ++ sent }

/-- The events of an order that were dispatched, in order. -/
def dispatchedOf (s : Lifecycles) (orderId : String) : List OrderEventType :=
  (s.dispatched.filter fun payload => payload.orderId = orderId).map OrderEventPayload.eventType

end Lifecycles

/-! ### One call -/

/-- The order as it is stored after `u` updates, the last one at the time `updatedAt`. -/
def Order.afterUpdates (order : Order) (updatedAt : TimeValue) (u : ℕ) : Order :=
  match (lifecycleEventTypes.take u).getLast? with
  | none => order
  | some eventType => { order with status := statusAfter eventType, updatedAt := updatedAt }

/-- The next event after `u` of them. -/
theorem drop_lifecycleEventTypes {u : ℕ} {eventType : OrderEventType} {rest : List OrderEventType}
    (h : lifecycleEventTypes.drop u = eventType :: rest) :
    u < 3 ∧ lifecycleEventTypes.drop (u + 1) = rest ∧
      lifecycleEventTypes.take (u + 1) = lifecycleEventTypes.take u ++ [eventType] := by
  have hu : u < lifecycleEventTypes.length := by
    by_contra hge
    rw [List.drop_eq_nil_of_le (Nat.le_of_not_lt hge)] at h
    exact List.cons_ne_nil _ _ h.symm
  rw [List.drop_eq_getElem_cons hu] at h
  obtain ⟨rfl, rfl⟩ := List.cons.inj h
  exact ⟨hu, rfl, List.take_succ_eq_append_getElem hu⟩

theorem Order.afterUpdates_succ (order : Order) (t now : TimeValue) {u : ℕ} {eventType : OrderEventType}
    {rest : List OrderEventType} (h : lifecycleEventTypes.drop u = eventType :: rest) :
    { order.afterUpdates t u with status := statusAfter eventType, updatedAt := now } =
      order.afterUpdates now (u + 1) := by
  obtain ⟨-, -, htake⟩ := drop_lifecycleEventTypes h
  rw [afterUpdates, afterUpdates, htake, List.getLast?_concat]
  split <;> rfl

namespace LifecycleCall

/-- What the answers were, phase by phase. -/
def Stage (c : LifecycleCall) : Prop :=
  match c.phase with
  | .finding => c.answers = []
  | .dispatching order eventType rest steps =>
    order.orderId = c.orderId ∧ lifecycleEventTypes.drop c.updates = eventType :: rest ∧
      steps.map LifecycleStep.eventType = lifecycleEventTypes.take c.updates ∧
      c.dispatches = c.updates ∧ ¬ c.Failed
  | .updating order eventType _ rest steps =>
    order.orderId = c.orderId ∧ lifecycleEventTypes.drop c.updates = eventType :: rest ∧
      steps.map LifecycleStep.eventType = lifecycleEventTypes.take c.updates ∧
      c.dispatches = c.updates + 1 ∧ ¬ c.Failed
  | .returned result =>
    result.orderId = c.orderId ∧ result.steps.map LifecycleStep.eventType = lifecycleEventTypes ∧
      c.updates = 3 ∧ c.dispatches = 3 ∧ ¬ c.Failed
  | .threw _ =>
    c.updates < 3 ∧ c.updates ≤ c.dispatches ∧ c.dispatches ≤ c.updates + 1 ∧ c.Failed

/-- What holds of a call for `order`, as it was stored at the start, where `row` is stored now and
`events` were dispatched. -/
structure Inv (order row : Order) (events : List OrderEventType) (c : LifecycleCall) : Prop where
  orderId : order.orderId = c.orderId
  dispatched : events = lifecycleEventTypes.take c.dispatches
  stored : row = order.afterUpdates row.updatedAt c.updates
  stage : c.Stage

variable {store store' : SqliteOrderStore} {c c' : LifecycleCall} {e : LifecycleResume}
  {sent : List OrderEventPayload} {order row : Order} {events : List OrderEventType}

/-- The head of the loop, after `u` rounds without a failure. -/
theorem stage_nextPhase {found : Order} {steps : List LifecycleStep} {answers : List LifecycleAnswer}
    {rest : List OrderEventType} {orderId : String} (hid : found.orderId = orderId)
    (hrest : lifecycleEventTypes.drop (answers.count (.updated true)) = rest)
    (hsteps : steps.map LifecycleStep.eventType = lifecycleEventTypes.take (answers.count (.updated true)))
    (hle : answers.count (.updated true) ≤ 3)
    (hcount : answers.count (.dispatched true) = answers.count (.updated true))
    (hok : ¬ (LifecycleAnswer.dispatched false ∈ answers ∨ LifecycleAnswer.updated false ∈ answers)) :
    Stage { orderId := orderId, phase := nextPhase orderId found steps rest, answers := answers } := by
  cases rest with
  | nil =>
    have hge : 3 ≤ answers.count (.updated true) := List.drop_eq_nil_iff.mp hrest
    have hall : answers.count (.updated true) = 3 := by omega
    rw [hall] at hsteps hcount
    exact ⟨rfl, hsteps, hall, hcount, hok⟩
  | cons eventType rest => exact ⟨hid, hrest, hsteps, hcount, hok⟩

/-- An update that succeeds is made. -/
theorem updateStatus_of_updateAnswer {orderId : String} {eventType : OrderEventType}
    {failure : Option String} {now : TimeValue}
    (h : updateAnswer store orderId eventType failure now = .ok store') :
    store.updateStatus orderId (statusAfter eventType) now = .ok store' := by
  cases failure with
  | some message => cases h
  | none => exact h

/-- A call that goes on changes its own order only. -/
theorem resume_frame (h : c.resume store e = some (c', store', sent)) :
    c'.orderId = c.orderId ∧ ∀ id, id ≠ c.orderId → store'.findOrder id = store.findOrder id := by
  unfold resume at h
  split at h
  · split at h
    · cases h
      exact ⟨rfl, fun _ _ => rfl⟩
    · cases h
      exact ⟨rfl, fun _ _ => rfl⟩
  · split at h
    · cases h
      exact ⟨rfl, fun _ _ => rfl⟩
    · cases h
      exact ⟨rfl, fun _ _ => rfl⟩
  · split at h
    · cases h
      exact ⟨rfl, fun _ _ => rfl⟩
    · rename_i hupdate
      cases h
      refine ⟨rfl, fun id hne => ?_⟩
      rw [SqliteOrderStore.findOrder_updateStatus (updateStatus_of_updateAnswer hupdate)]
      cases hfound : store.findOrder id with
      | none => rfl
      | some row =>
        have hid := SqliteOrderStore.orderId_of_findOrder hfound
        rw [Option.map_some, if_neg (hid ▸ hne)]
  · cases h

/-- **A call that goes on keeps what holds of it.** -/
theorem Inv.resume (hc : c.Inv order row events) (hrow : store.findOrder c.orderId = some row)
    (h : c.resume store e = some (c', store', sent)) :
    (∀ payload ∈ sent, payload.orderId = c.orderId) ∧
      ∃ row', store'.findOrder c.orderId = some row' ∧
        c'.Inv order row' (events ++ sent.map OrderEventPayload.eventType) := by
  obtain ⟨hid, hdispatched, hstored, hstage⟩ := hc
  obtain ⟨orderId, phase, answers⟩ := c
  simp only [Stage, dispatches, updates, Failed] at hdispatched hstored hstage hid hrow
  unfold LifecycleCall.resume at h
  split at h
  · -- `findOrder`
    rename_i hphase
    obtain rfl : phase = .finding := hphase
    obtain rfl : answers = [] := hstage
    simp only [hrow] at h
    cases h
    refine ⟨by simp, row, hrow, hid, (List.append_nil events).trans hdispatched, hstored, ?_⟩
    exact stage_nextPhase (SqliteOrderStore.orderId_of_findOrder hrow) rfl rfl (Nat.zero_le 3) rfl (by simp)
  · -- `dispatch`
    rename_i found eventType rest steps emittedAt answer hphase
    obtain rfl : phase = .dispatching found eventType rest steps := hphase
    obtain ⟨hfound, hrest, hsteps, hcount, hok⟩ := hstage
    obtain ⟨hlt, hdrop, htake⟩ := drop_lifecycleEventTypes hrest
    split at h
    · cases h
      refine ⟨by simp, row, hrow, hid, by simpa [dispatches] using hdispatched,
        by simpa [updates] using hstored, ?_⟩
      refine ⟨?_, ?_, ?_, .inl (by simp)⟩
      · simpa [updates] using hlt
      · simp [updates, dispatches, hcount]
      · simp [updates, dispatches, hcount]
    · cases h
      refine ⟨by simpa [Order.toPayload] using hfound, row, hrow, hid, ?_, by simpa [updates] using hstored, ?_⟩
      · simp [dispatches, Order.toPayload, hdispatched, hcount, htake]
      · refine ⟨hfound, by simpa [updates] using hrest, by simpa [updates] using hsteps, ?_, ?_⟩
        · simp [updates, dispatches, hcount]
        · simpa [Failed] using hok
  · -- `updateStatus`
    rename_i found eventType dispatch rest steps failure now hphase
    obtain rfl : phase = .updating found eventType dispatch rest steps := hphase
    obtain ⟨hfound, hrest, hsteps, hcount, hok⟩ := hstage
    obtain ⟨hlt, hdrop, htake⟩ := drop_lifecycleEventTypes hrest
    split at h
    · cases h
      refine ⟨by simp, row, hrow, hid, by simpa [dispatches] using hdispatched,
        by simpa [updates] using hstored, ?_⟩
      refine ⟨?_, ?_, ?_, .inr (by simp)⟩
      · simpa [updates] using hlt
      · simp [updates, dispatches, hcount]
      · simp [updates, dispatches, hcount]
    · rename_i hupdate
      cases h
      have hrow' := SqliteOrderStore.findOrder_updateStatus (updateStatus_of_updateAnswer hupdate) orderId
      rw [hrow, Option.map_some, if_pos (SqliteOrderStore.orderId_of_findOrder hrow)] at hrow'
      refine ⟨by simp, _, hrow', hid, by simpa [dispatches] using hdispatched, ?_, ?_⟩
      · have hsucc := order.afterUpdates_succ row.updatedAt now hrest
        rw [← hstored] at hsucc
        simpa [updates] using hsucc
      · apply stage_nextPhase hfound
        · simpa using hdrop
        · simpa [hsteps] using htake.symm
        · simpa using Nat.succ_le_of_lt hlt
        · simpa using hcount
        · simpa using hok
  · cases h

/-- A call that has not ended goes on with some answer. -/
theorem exists_resume (store : SqliteOrderStore) (c : LifecycleCall) :
    (∃ result, c.phase = .returned result) ∨ (∃ message, c.phase = .threw message) ∨
      ∃ e, (c.resume store e).isSome = true := by
  obtain ⟨orderId, phase, answers⟩ := c
  cases phase with
  | finding =>
    refine .inr (.inr ⟨.found, ?_⟩)
    simp only [resume]
    split <;> rfl
  | dispatching order eventType rest steps =>
    exact .inr (.inr ⟨.dispatched .epoch (.error ""), rfl⟩)
  | updating order eventType dispatch rest steps =>
    exact .inr (.inr ⟨.updated (some "") .epoch, rfl⟩)
  | returned result => exact .inl ⟨result, rfl⟩
  | threw message => exact .inr (.inl ⟨message, rfl⟩)

end LifecycleCall

/-! ### All calls -/

namespace Lifecycles

/-- What holds of the system that started with `store` and a call for each of `orderIds`. -/
structure Inv (store : SqliteOrderStore) (orderIds : List String) (s : Lifecycles) : Prop where
  ids : s.calls.map LifecycleCall.orderId = orderIds
  calls : ∀ c ∈ s.calls, ∃ order row, store.findOrder c.orderId = some order ∧
    s.store.findOrder c.orderId = some row ∧ c.Inv order row (s.dispatchedOf c.orderId)
  others : ∀ id ∉ orderIds, s.store.findOrder id = store.findOrder id

variable {store : SqliteOrderStore} {orderIds : List String} {s s' : Lifecycles}

theorem start_inv (hstored : ∀ id ∈ orderIds, (store.findOrder id).isSome = true) :
    Inv store orderIds (start store orderIds) where
  ids := by simp [start, Function.comp_def]
  calls := by
    intro c hc
    obtain ⟨id, hid, rfl⟩ := List.mem_map.mp hc
    obtain ⟨order, horder⟩ := Option.isSome_iff_exists.mp (hstored id hid)
    exact ⟨order, order, horder, horder, SqliteOrderStore.orderId_of_findOrder horder, rfl, rfl, rfl⟩
  others := fun _ _ => rfl

/-- The call that goes on, and what it leaves. -/
theorem step_cases {e : ℕ × LifecycleResume} (h : s.step e = some s') :
    ∃ c c' store' sent, s.calls[e.1]? = some c ∧ c.resume s.store e.2 = some (c', store', sent) ∧
      s' = { store := store', calls := s.calls.set e.1 c', dispatched := s.dispatched ++ sent } := by
  rw [step] at h
  cases hc : s.calls[e.1]? with
  | none =>
    rw [hc] at h
    cases h
  | some c =>
    rw [hc] at h
    obtain ⟨⟨c', store', sent⟩, hresume, rfl⟩ := Option.map_eq_some_iff.mp h
    exact ⟨c, c', store', sent, rfl, hresume, rfl⟩

theorem dispatchedOf_append (s : Lifecycles) (sent : List OrderEventPayload) (store : SqliteOrderStore)
    (calls : List LifecycleCall) (id : String) :
    dispatchedOf { store := store, calls := calls, dispatched := s.dispatched ++ sent } id =
      s.dispatchedOf id ++ (sent.filter fun payload => payload.orderId = id).map OrderEventPayload.eventType := by
  rw [dispatchedOf, dispatchedOf, List.filter_append, List.map_append]

/-- Two calls are not for one order. -/
theorem Inv.orderId_ne (hinv : Inv store orderIds s) (hnodup : orderIds.Nodup) {i j : ℕ}
    {a c : LifecycleCall} (hne : i ≠ j) (hc : s.calls[i]? = some c) (ha : s.calls[j]? = some a) :
    a.orderId ≠ c.orderId := by
  intro heq
  rw [← hinv.ids] at hnodup
  have hi : i < (s.calls.map LifecycleCall.orderId).length := by
    rw [List.length_map]
    exact (List.getElem?_eq_some_iff.mp hc).1
  apply hne
  apply (List.getElem?_inj hi hnodup).mp
  rw [List.getElem?_map, List.getElem?_map, hc, ha, Option.map_some, Option.map_some, heq]

/-- **The invariant is kept by every step**, whichever call goes on. -/
theorem Inv.step (hinv : Inv store orderIds s) (hnodup : orderIds.Nodup) {e : ℕ × LifecycleResume}
    (h : s.step e = some s') : Inv store orderIds s' := by
  obtain ⟨c, c', store', sent, hc, hresume, rfl⟩ := step_cases h
  obtain ⟨hid, hframe⟩ := LifecycleCall.resume_frame hresume
  obtain ⟨order, row, horder, hrow, hcall⟩ := hinv.calls c (List.mem_of_getElem? hc)
  obtain ⟨hsent, row', hrow', hcall'⟩ := hcall.resume hrow hresume
  refine ⟨?_, ?_, ?_⟩
  · obtain ⟨hlt, rfl⟩ := List.getElem?_eq_some_iff.mp hc
    rw [List.map_set, hid, ← List.map_set, List.set_getElem_self]
    exact hinv.ids
  · intro a ha
    obtain ⟨j, ha⟩ := List.mem_iff_getElem?.mp ha
    rw [List.getElem?_set] at ha
    split at ha
    · -- the call that went on
      obtain ⟨-, rfl⟩ : _ ∧ c' = a := by simpa using ha
      have hall : sent.filter (fun payload => payload.orderId = c.orderId) = sent :=
        List.filter_eq_self.mpr fun payload hmem => decide_eq_true (hsent payload hmem)
      refine ⟨order, row', hid ▸ horder, hid ▸ hrow', ?_⟩
      rw [dispatchedOf_append, hid, hall]
      exact hcall'
    · -- another call
      rename_i hne
      have hother := hinv.orderId_ne hnodup hne hc ha
      have hnone : sent.filter (fun payload => payload.orderId = a.orderId) = [] :=
        List.filter_eq_nil_iff.mpr fun payload hmem => by
          rw [hsent payload hmem]
          simpa using hother.symm
      obtain ⟨order, row, horder, hrow, hcall⟩ := hinv.calls a (List.mem_of_getElem? ha)
      refine ⟨order, row, horder, (hframe _ hother).trans hrow, ?_⟩
      rw [dispatchedOf_append, hnone, List.map_nil, List.append_nil]
      exact hcall
  · intro id hmiss
    have hne : id ≠ c.orderId := by
      rintro rfl
      exact hmiss (hinv.ids ▸ List.mem_map_of_mem (List.mem_of_getElem? hc))
    exact (hframe id hne).trans (hinv.others id hmiss)

theorem inv_of_reachable (hnodup : orderIds.Nodup)
    (hstored : ∀ id ∈ orderIds, (store.findOrder id).isSome = true)
    (h : Reachable step (start store orderIds) s) : Inv store orderIds s :=
  h.invariant (start_inv hstored) fun _ _ _ hinv _ he => hinv.step hnodup he

/-- A call left nothing half done but what it was answered: what it dispatched and what is stored
come from its answers, and it throws exactly if one of them is a failure. -/
structure FailsCleanly (store : SqliteOrderStore) (s : Lifecycles) (c : LifecycleCall) : Prop where
  dispatched : s.dispatchedOf c.orderId = lifecycleEventTypes.take c.dispatches
  created_notMem : .created ∉ s.dispatchedOf c.orderId
  behind : c.updates ≤ c.dispatches ∧ c.dispatches ≤ c.updates + 1
  stored : ∃ order row, store.findOrder c.orderId = some order ∧
    s.store.findOrder c.orderId = some row ∧ row = order.afterUpdates row.updatedAt c.updates
  steps : ∀ result, c.phase = .returned result →
    result.orderId = c.orderId ∧ result.steps.map LifecycleStep.eventType = lifecycleEventTypes
  returned_iff : (∃ result, c.phase = .returned result) ↔ c.updates = 3 ∧ ¬ c.Failed
  threw_iff : (∃ message, c.phase = .threw message) ↔ c.Failed

theorem Inv.failsCleanly (hinv : Inv store orderIds s) {c : LifecycleCall} (hc : c ∈ s.calls) :
    FailsCleanly store s c := by
  obtain ⟨order, row, horder, hrow, -, hdispatched, hstored, hstage⟩ := hinv.calls c hc
  have hcreated : .created ∉ s.dispatchedOf c.orderId := by
    rw [hdispatched]
    exact fun hmem => absurd (List.mem_of_mem_take hmem) (by decide)
  suffices h : (c.updates ≤ c.dispatches ∧ c.dispatches ≤ c.updates + 1) ∧
      (∀ result, c.phase = .returned result →
        result.orderId = c.orderId ∧ result.steps.map LifecycleStep.eventType = lifecycleEventTypes) ∧
      ((∃ result, c.phase = .returned result) ↔ c.updates = 3 ∧ ¬ c.Failed) ∧
      ((∃ message, c.phase = .threw message) ↔ c.Failed) from
    ⟨hdispatched, hcreated, h.1, ⟨order, row, horder, hrow, hstored⟩, h.2.1, h.2.2.1, h.2.2.2⟩
  unfold LifecycleCall.Stage at hstage
  split at hstage
  · rename_i hphase
    simp [hphase, LifecycleCall.updates, LifecycleCall.dispatches, LifecycleCall.Failed, hstage]
  · rename_i hphase
    obtain ⟨-, hrest, -, hcount, hok⟩ := hstage
    have hlt := (drop_lifecycleEventTypes hrest).1
    simp only [hphase, reduceCtorEq, exists_false, false_iff, false_implies, implies_true, true_and]
    exact ⟨by omega, fun h => absurd h.1 (by omega), hok⟩
  · rename_i hphase
    obtain ⟨-, hrest, -, hcount, hok⟩ := hstage
    have hlt := (drop_lifecycleEventTypes hrest).1
    simp only [hphase, reduceCtorEq, exists_false, false_iff, false_implies, implies_true, true_and]
    exact ⟨by omega, fun h => absurd h.1 (by omega), hok⟩
  · rename_i result hphase
    obtain ⟨hid, hsteps, hu, hd, hok⟩ := hstage
    refine ⟨by omega, ?_, iff_of_true ⟨result, hphase⟩ ⟨hu, hok⟩, iff_of_false ?_ hok⟩
    · intro other hother
      obtain rfl := LifecyclePhase.returned.inj (hphase.symm.trans hother)
      exact ⟨hid, hsteps⟩
    · rintro ⟨message, hthrew⟩
      exact LifecyclePhase.noConfusion (hphase.symm.trans hthrew)
  · rename_i message hphase
    obtain ⟨hu, hle, hle', hfailed⟩ := hstage
    simp only [hphase, reduceCtorEq, exists_false, false_iff, false_implies, implies_true, true_and]
    exact ⟨⟨hle, hle'⟩, fun h => h.2 hfailed, iff_of_true ⟨message, rfl⟩ hfailed⟩

/-- A step changes the order of its call only. -/
theorem step_frame {e : ℕ × LifecycleResume} {c : LifecycleCall} (h : s.step e = some s')
    (hc : s.calls[e.1]? = some c) {id : String} (hne : id ≠ c.orderId) :
    s'.store.findOrder id = s.store.findOrder id := by
  obtain ⟨c', d, store', sent, hc', hresume, rfl⟩ := step_cases h
  obtain rfl := Option.some.inj (hc.symm.trans hc')
  exact (LifecycleCall.resume_frame hresume).2 id hne

/-- A call that has not ended can go on. -/
theorem ended_or_step (s : Lifecycles) {i : ℕ} {c : LifecycleCall} (hc : s.calls[i]? = some c) :
    (∃ result, c.phase = .returned result) ∨ (∃ message, c.phase = .threw message) ∨
      ∃ e s', s.step (i, e) = some s' := by
  refine (c.exists_resume s.store).imp_right (Or.imp_right ?_)
  rintro ⟨e, he⟩
  obtain ⟨⟨c', store', sent⟩, hresume⟩ := Option.isSome_iff_exists.mp he
  simp only [step, hc]
  exact ⟨e, _, by rw [hresume, Option.map_some]⟩

/-- **Lifecycles fail cleanly**, however those of different orders take turns. -/
theorem failsCleanly_of_reachable (hnodup : orderIds.Nodup)
    (hstored : ∀ id ∈ orderIds, (store.findOrder id).isSome = true)
    (h : Reachable step (start store orderIds) s) :
    (∀ c ∈ s.calls, FailsCleanly store s c) ∧
      (∀ i c, s.calls[i]? = some c →
        (∃ result, c.phase = .returned result) ∨ (∃ message, c.phase = .threw message) ∨
          ∃ e s', s.step (i, e) = some s') ∧
      (∀ id ∉ orderIds, s.store.findOrder id = store.findOrder id) ∧
      (∀ e s' c, s.step e = some s' → s.calls[e.1]? = some c →
        ∀ id ≠ c.orderId, s'.store.findOrder id = s.store.findOrder id) := by
  have hinv := inv_of_reachable hnodup hstored h
  refine ⟨fun c hc => hinv.failsCleanly hc, fun i c hc => s.ended_or_step hc, hinv.others, ?_⟩
  intro e s' c he hc id hne
  exact step_frame he hc hne

/-- A newly created order. -/
def storedOrder (orderId : String) : Order where
  orderId := orderId
  userId := .ofString "user-1"
  amount := .finite 10000
  items := [defaultItem]
  status := .created
  createdAt := .epoch
  updatedAt := .epoch

/-- What the dispatcher answers. -/
def dispatchAnswer : DispatchResult where
  destination := "orders"
  partition := none
  offset := none
  key := none

/-- Two lifecycles in turn: the update of the first order fails, the second goes on. -/
theorem failsCleanly_of_turns :
    ∃ s : Lifecycles, (s.dispatchedOf "ord-a", s.dispatchedOf "ord-b",
        (s.store.findOrder "ord-a").map Order.status, (s.store.findOrder "ord-b").map Order.status) =
        ([.inventoryReserved], [.inventoryReserved, .paymentApproved], some .created,
          some .inventoryReserved) ∧
      ∀ c ∈ s.calls, FailsCleanly { orders := [storedOrder "ord-a", storedOrder "ord-b"] } s c := by
  obtain ⟨s, hs, hview⟩ := exists_reaches_of_runEvents step (fun _ _ => True)
    (fun s => (s.dispatchedOf "ord-a", s.dispatchedOf "ord-b",
      (s.store.findOrder "ord-a").map Order.status, (s.store.findOrder "ord-b").map Order.status))
    (s := start { orders := [storedOrder "ord-a", storedOrder "ord-b"] } ["ord-a", "ord-b"])
    [(0, .found), (1, .found), (0, .dispatched .epoch (.ok dispatchAnswer)),
      (1, .dispatched .epoch (.ok dispatchAnswer)), (0, .updated (some "database is locked") .epoch),
      (1, .updated none .epoch), (1, .dispatched .epoch (.ok dispatchAnswer))]
    ([.inventoryReserved], [.inventoryReserved, .paymentApproved], some .created,
      some .inventoryReserved) (by decide +kernel)
  exact ⟨s, hview, (failsCleanly_of_reachable (by decide) (by decide) hs).1⟩

end Lifecycles

/-! ### One call alone -/

/-- What a call ended with. -/
def LifecyclePhase.result? : LifecyclePhase → Option (Except String LifecycleResult)
  | returned result => some (.ok result)
  | threw message => some (.error message)
  | _ => none

namespace Lifecycles

/-- The only call of a system has ended with `result`, and the store is `store`. -/
def EndsWith (s : Lifecycles) (store : SqliteOrderStore) (result : Except String LifecycleResult) : Prop :=
  s.store = store ∧ ∃ c, s.calls = [c] ∧ c.phase.result? = some result

theorem dispatch_store (s : OrderService) (payload : OrderEventPayload)
    (answer : Except String RecordMetadata) : (s.dispatch payload answer).1.store = s.store := by
  rcases s.dispatch_cases payload answer with ⟨error, hd⟩ | ⟨record, -, hd⟩
  · rw [hd]
  · rw [hd]

/-- Alone, the system goes on as the call does. -/
theorem reachable_alone {store store' : SqliteOrderStore} {c c' : LifecycleCall} {sent : List OrderEventPayload}
    {dispatched : List OrderEventPayload} {t : Lifecycles} (e : LifecycleResume)
    (h : c.resume store e = some (c', store', sent))
    (ht : Reachable step { store := store', calls := [c'], dispatched := dispatched ++ sent } t) :
    Reachable step { store := store, calls := [c], dispatched := dispatched } t := by
  have hstep : step { store := store, calls := [c], dispatched := dispatched } (0, e) =
      some { store := store', calls := [c'], dispatched := dispatched ++ sent } := by
    simp only [step, List.getElem?_cons_zero, h, Option.map_some, List.set_cons_zero]
  exact (Reaches.single trivial hstep).trans ht

/-- The loop, with nothing else going on. -/
theorem reachable_lifecycleLoop {order : Order} {draws : OrderEventType → StepDraws}
    (rest : List OrderEventType) (s : OrderService) (steps : List LifecycleStep)
    (answers : List LifecycleAnswer) (dispatched : List OrderEventPayload) :
    ∃ t, Reachable step
        { store := s.store
          calls := [{ orderId := order.orderId, phase := nextPhase order.orderId order steps rest,
                      answers := answers }]
          dispatched := dispatched } t ∧
      t.EndsWith (OrderService.lifecycleLoop order draws s rest).1.store
        ((OrderService.lifecycleLoop order draws s rest).2.map fun more =>
          { orderId := order.orderId, steps := steps ++ more }) := by
  induction rest generalizing s steps answers dispatched with
  | nil =>
    refine ⟨_, .refl, rfl, _, rfl, ?_⟩
    simp only [nextPhase, LifecyclePhase.result?, OrderService.lifecycleLoop, Except.map, List.append_nil]
  | cons eventType rest ih =>
    have hstore := dispatch_store s (order.toPayload eventType (draws eventType).emittedAt)
      (draws eventType).answer
    simp only [OrderService.lifecycleLoop]
    generalize s.dispatch (order.toPayload eventType (draws eventType).emittedAt)
      (draws eventType).answer = d at hstore ⊢
    obtain ⟨s', answer⟩ := d
    cases answer with
    | error error =>
      exact ⟨_, reachable_alone (.dispatched (draws eventType).emittedAt (.error error)) rfl .refl,
        hstore.symm, _, rfl, rfl⟩
    | ok dispatch =>
      dsimp only at hstore ⊢
      rw [hstore]
      cases hupdate : s.store.updateStatus order.orderId (statusAfter eventType) (draws eventType).updatedAt with
      | error error =>
        have hthrows : ∀ c : LifecycleCall, c.orderId = order.orderId →
            c.phase = .updating order eventType dispatch rest steps →
            c.resume s.store (.updated none (draws eventType).updatedAt) =
              some ({ c with phase := .threw error, answers := c.answers ++ [.updated false] }, s.store, []) := by
          intro c horder hphase
          simp only [LifecycleCall.resume, hphase, horder, updateAnswer, hupdate]
        exact ⟨_, reachable_alone (.dispatched (draws eventType).emittedAt (.ok dispatch)) rfl
          (reachable_alone (.updated none (draws eventType).updatedAt) (hthrows _ rfl rfl) .refl),
          hstore.symm, _, rfl, rfl⟩
      | ok store =>
        obtain ⟨t, ht, hstored, c, hc, hresult⟩ := ih { s' with store := store }
          (steps ++ [{ eventType := eventType
                       destination := dispatch.destination
                       partition := dispatch.partition
                       offset := dispatch.offset
                       key := dispatch.key }])
          (answers ++ [.dispatched true] ++ [.updated true])
          (dispatched ++ [order.toPayload eventType (draws eventType).emittedAt] ++ [])
        refine ⟨t, reachable_alone (.dispatched (draws eventType).emittedAt (.ok dispatch)) rfl
          (reachable_alone (.updated none (draws eventType).updatedAt) ?_ ht), hstored, c, hc, hresult.trans ?_⟩
        · simp only [LifecycleCall.resume, updateAnswer, hupdate]
        · dsimp only
          generalize (OrderService.lifecycleLoop order draws { s' with store := store } rest).2 = more
          cases more with
          | error error => rfl
          | ok more => simp only [Except.map, List.append_assoc, List.singleton_append]

/-- **A call that nothing interrupts is `dispatchLifecycle`.** -/
theorem reachable_dispatchLifecycle (s : OrderService) (orderId : String)
    (draws : OrderEventType → StepDraws) :
    ∃ t, Reachable step (start s.store [orderId]) t ∧
      t.EndsWith (s.dispatchLifecycle orderId draws).1.store (s.dispatchLifecycle orderId draws).2 := by
  simp only [OrderService.dispatchLifecycle]
  cases hfound : s.store.findOrder orderId with
  | none =>
    have hthrows : LifecycleCall.resume s.store { orderId := orderId } .found =
        some ({ orderId := orderId, phase := .threw ("주문을 찾을 수 없습니다: " ++ orderId) }, s.store, []) := by
      simp only [LifecycleCall.resume, hfound]
    exact ⟨_, reachable_alone .found hthrows .refl, rfl, _, rfl, rfl⟩
  | some order =>
    obtain rfl := SqliteOrderStore.orderId_of_findOrder hfound
    obtain ⟨t, ht, hend⟩ := @reachable_lifecycleLoop order draws lifecycleEventTypes s [] [] ([] ++ [])
    refine ⟨t, reachable_alone .found ?_ ht, hend⟩
    simp only [LifecycleCall.resume, hfound]

end Lifecycles

end BulkTraffic.Orders
