import BulkTraffic.Queue.CustomWorkload
import BulkTraffic.Http.Middleware

/-!
# No custom code from requests

The runs of the queue with a request on its way through the middleware: whatever the request
and whatever the other callers of `enqueue` ask for, no worker is posted custom code where
`ALLOW_CUSTOM_WORKLOAD` is not `'true'`.
-/

namespace BulkTraffic.Http

open BulkTraffic.Lib BulkTraffic.Js BulkTraffic.Queue

/-- `process.env.ALLOW_CUSTOM_WORKLOAD === 'true'`. -/
def allowCustomWorkload (env : Option String) : Bool := env == some "true"

namespace RequestSystem

variable {s u : RequestSystem}

/-- What every step of the queue keeps, every step of the request does. -/
theorem noCustom_step (h : s.queue.NoCustom) {e : RequestEvent} (hu : s.step e = some u) :
    u.queue.NoCustom := by
  cases e with
  | arrive requestId now =>
    simp only [RequestSystem.step] at hu
    split at hu
    · cases hu
      unfold use
      dsimp only
      split
      · exact h
      · split
        · exact h
        · split
          · exact h
          · exact h.enqueue _ now
    · cases hu
  | queue e nextThrows =>
    simp only [RequestSystem.step] at hu
    split at hu
    · cases hu
    · rename_i queue hqueue
      cases hu
      exact h.step hqueue
  | resume =>
    simp only [RequestSystem.step] at hu
    split at hu
    · split at hu
      · cases hu
      · cases hu
        exact h
      · cases hu
        exact h
    · cases hu
  | answerSent =>
    simp only [RequestSystem.step] at hu
    split at hu
    · cases hu
      exact h
    · cases hu
  | responseFinished =>
    simp only [RequestSystem.step] at hu
    split at hu
    · cases hu
      exact h
    · cases hu
  | processingTimer =>
    simp only [RequestSystem.step] at hu
    split at hu
    · cases hu
      exact h
    · cases hu
  | stateExpired =>
    cases hu
    exact h

variable {config : QueueConfig} {taskIdCounter : ℕ} {stats : QueueStatsService}
  {useWorkers : Bool} {workerCount : ℕ} {cpu memory custom : Option ℕ}
  {requestProcessingTimeoutMs : ℕ} {req : Request}

/-- **Custom code never runs where it is not allowed.** With `ALLOW_CUSTOM_WORKLOAD` other than
`'true'`, in every state of every run, for every request and whatever `enqueue` is called with
meanwhile, no message a worker has been posted, alive or terminated, is of type `custom` or
carries code: a message stays with its worker until it is answered, and no step both posts and
answers one. A call of `enqueue` that asks for custom code is refused, and changes nothing but
what the parser has counted. -/
theorem customWorkload_disabled {env : Option String} (henv : env ≠ some "true")
    (h : Reachable step (initial (.initial config taskIdCounter stats (allowCustomWorkload env)
      useWorkers workerCount cpu memory custom) requestProcessingTimeoutMs
      (allowCustomWorkload env) req) s) :
    (∀ w : Worker, (∃ i, s.queue.pool.worker i = some w) ∨ w ∈ s.queue.pool.terminated →
      ∀ p ∈ w.unanswered, p.message.type ≠ .custom ∧ p.message.functionCode = none) ∧
      ∀ options now, QueueOptionsParser.AsksForCustom options →
        ∃ message parser, s.queue.enqueue options now
          = (.error message, { s.queue with parser := parser }) := by
  have hdisabled : allowCustomWorkload env = false := by
    simpa [allowCustomWorkload] using henv
  rw [hdisabled] at h
  have hs : s.queue.NoCustom :=
    h.invariant (P := fun s => s.queue.NoCustom)
      (QueueSystem.noCustom_initial config taskIdCounter stats useWorkers workerCount cpu memory custom)
      fun _ _ _ hs _ hu => noCustom_step hs hu
  refine ⟨?_, fun options now hasks => QueueSystem.enqueue_of_asksForCustom hs.disabled hasks now⟩
  rintro w (⟨i, hw⟩ | hw) p hp
  · obtain ⟨htype, hcode⟩ := hs.pool.live i w hw p hp
    exact ⟨htype, hcode⟩
  · obtain ⟨htype, hcode⟩ := hs.pool.terminated w hw p hp
    exact ⟨htype, hcode⟩

/-- The worker of slot `0` and what it has been posted. -/
def postedTypes (s : RequestSystem) : List DispatchableWorkloadType :=
  (s.queue.pool.worker 0).elim [] fun w => w.unanswered.map fun p => p.message.type

/-- A request with code for the workers, next to a task that is posted. -/
theorem customWorkload_disabled_with_code :
    ∃ s, Reachable step (initial (.initial {} 0 {} (allowCustomWorkload none) true 1 none none none)
        10000 (allowCustomWorkload none)
        { path := "/api/run", method := "POST", body := .obj [("functionCode", .str "return 1")] }) s ∧
      s.postedTypes = [.cpu] ∧
      (∀ w : Worker, (∃ i, s.queue.pool.worker i = some w) ∨ w ∈ s.queue.pool.terminated →
        ∀ p ∈ w.unanswered, p.message.type ≠ .custom ∧ p.message.functionCode = none) := by
  obtain ⟨s, hs, hseen⟩ := exists_reaches_of_runEvents step (fun _ _ => True) postedTypes
    (s := initial (.initial {} 0 {} (allowCustomWorkload none) true 1 none none none) 10000
      (allowCustomWorkload none)
      { path := "/api/run", method := "POST", body := .obj [("functionCode", .str "return 1")] })
    [.queue (.workerMessage 0 { initialized := true } fun _ => none) false, .arrive "r" 0,
      .queue (.enqueue { workloadType := .str " CUSTOM" } 0) false,
      .queue (.enqueue { workloadType := .str "cpu" } 0) false,
      .queue (.processSignal fun _ => none) false]
    [.cpu] (by decide +kernel)
  have hunset : (none : Option String) ≠ some "true" := nofun
  exact ⟨s, hs, hseen, (customWorkload_disabled hunset hs).1⟩

end RequestSystem

end BulkTraffic.Http
