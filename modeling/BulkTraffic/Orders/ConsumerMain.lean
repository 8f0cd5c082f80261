import BulkTraffic.Lib.Runs
import Mathlib.Data.List.Basic

/-!
# The consumer process

`consumer.ts`: a process starts its consumers one after the other. A consumer that has processed
`crashAfter` messages leaves the group without a commit, and the process is to end when all have left; a
signal ends it too. Both go through `shutdown`, which stops the consumers and closes the store first.

* `step`: the answers that `bootstrap` and `shutdown` wait for, the messages of the consumers and the
  signals, in any order. A consumer gets messages once `start` has returned, and one at a time.
* `Kept`: what holds between any two events.
* `exit_codes`: which exit code says what. A process that is ready has a running consumer unless it is
  shutting down. The shutdown with code 137 comes when every consumer has left, or, as `onCrashPoint`
  also takes a consumer that is still being started for one that has left, while some are missing.
-/

namespace BulkTraffic.Orders

open BulkTraffic.Lib

/-- A consumer whose `start` has returned. -/
structure Instance where
  /-- `running`. -/
  running : Bool := false
  /-- `crashed`. -/
  crashed : Bool := false
  /-- `stats.processed`. -/
  processed : ℕ := 0
  /-- `leaveWithoutCommit` waits for `disconnect`. -/
  leaving : Bool := false
  /-- `stop` waits for `disconnect`. -/
  stopping : Bool := false
  /-- The `disconnect` of `stop` has rejected. No field of the source. -/
  stopFailed : Bool := false
  deriving DecidableEq

/-- `handleMessage`, up to the check of `crashAfter`: `ok` if the message could be processed. -/
def Instance.afterMessage (c : Instance) (crashAfter : ℕ) (ok : Bool) : Instance :=
  let processed := c.processed + ok.toNat
  if 0 < crashAfter ∧ crashAfter ≤ processed then
    { c with processed := processed, crashed := true, leaving := true }
  else { c with processed := processed }

/-- Where `bootstrap` is. -/
inductive BootstrapPhase where
  /-- `store.init`. -/
  | init
  /-- `start` of the next consumer. -/
  | starting
  /-- Behind the loop: the signals are handled. -/
  | ready
  deriving DecidableEq

/-- Where `shutdown` is. -/
inductive ShutdownPhase where
  /-- It has not been called. -/
  | notCalled
  /-- `Promise.all` of the stops. -/
  | stopping (exitCode : ℕ)
  /-- `store.destroy`. -/
  | destroying (exitCode : ℕ)
  deriving DecidableEq

/-- The code `shutdown` was called with. -/
def ShutdownPhase.exitCode : ShutdownPhase → Option ℕ
  | notCalled => none
  | stopping exitCode | destroying exitCode => some exitCode

/-- How a process ends. -/
inductive Ending where
  /-- `process.exit(code)`. -/
  | exit (code : ℕ)
  /-- By a signal. -/
  | signal
  deriving DecidableEq

/-- The process. -/
structure ConsumerMain where
  phase : BootstrapPhase := .init
  /-- The consumers whose `start` has returned. -/
  started : List Instance := []
  shuttingDown : ShutdownPhase := .notCalled
  ended : Option Ending := none
  deriving DecidableEq

/-- The settings it reads. -/
structure ConsumerMainConfig where
  instances : ℕ
  crashAfter : ℕ

/-- What can happen. An answer is `false` where the call rejects. -/
inductive ConsumerMainEvent where
  /-- `store.init` is answered. -/
  | storeInit (ok : Bool)
  /-- `start` of the next consumer is answered. -/
  | startAnswered (ok : Bool)
  /-- `process` is done with a message. -/
  | processed (i : ℕ) (ok : Bool)
  /-- The `disconnect` of `leaveWithoutCommit` is answered. -/
  | left (i : ℕ) (ok : Bool)
  /-- `SIGINT` or `SIGTERM`. -/
  | signal
  /-- `SIGKILL`. -/
  | kill
  /-- The `disconnect` of `stop` is answered. -/
  | stopped (i : ℕ) (ok : Bool)
  /-- All stops are done. -/
  | allStopped
  /-- `store.destroy` is done. -/
  | destroyed

namespace ConsumerMain

variable (config : ConsumerMainConfig)

/-- `consumers`: the one that is being started has been pushed. -/
def consumers (s : ConsumerMain) : List Instance :=
  match s.phase with
  | .starting => s.started ++ [{}]
  | _ => s.started

/-- The loop of `bootstrap`. -/
def loop (s : ConsumerMain) : ConsumerMain :=
  if s.started.length < config.instances then { s with phase := .starting } else { s with phase := .ready }

/-- The consumer that was being started is running. -/
def addStarted (s : ConsumerMain) : ConsumerMain := { s with started := s.started ++ [{ running := true }] }

/-- The consumer `i` goes on. -/
def setInstance (s : ConsumerMain) (i : ℕ) (c : Instance) : ConsumerMain :=
  { s with started := s.started.set i c }

/-- `shutdown(reason, exitCode)`. -/
def shutdown (s : ConsumerMain) (exitCode : ℕ) : ConsumerMain :=
  match s.shuttingDown with
  | .notCalled =>
    { s with
      shuttingDown := .stopping exitCode
      started := s.started.map fun c => if c.running then { c with stopping := true } else c }
  | _ => s

/-- `onCrashPoint(stats)`. -/
def onCrashPoint (s : ConsumerMain) : ConsumerMain :=
  if s.consumers.all fun c => !c.running then s.shutdown 137 else s

/-- What an event does. -/
def handle (s : ConsumerMain) : ConsumerMainEvent → Option ConsumerMain
  | .storeInit ok =>
    match s.phase with
    | .init => some (if ok then s.loop config else { s with ended := some (.exit 1) })
    | _ => none
  | .startAnswered ok =>
    match s.phase with
    | .starting =>
      some (if ok then s.addStarted.loop config else { s with ended := some (.exit 1) })
    | _ => none
  | .processed i ok =>
    match s.started[i]? with
    | some c =>
      if c.running && !c.leaving then
        some (s.setInstance i (c.afterMessage config.crashAfter ok))
      else none
    | none => none
  | .left i ok =>
    match s.started[i]? with
    | some c =>
      if c.leaving then
        some (if ok then (s.setInstance i { c with running := false, leaving := false }).onCrashPoint
          else s.setInstance i { c with leaving := false })
      else none
    | none => none
  | .signal =>
    match s.phase with
    | .ready => some (s.shutdown 0)
    | _ => some { s with ended := some .signal }
  | .kill => some { s with ended := some .signal }
  | .stopped i ok =>
    match s.started[i]? with
    | some c =>
      if c.stopping then
        some (s.setInstance i
          { c with running := c.running && !ok, stopping := false, stopFailed := c.stopFailed || !ok })
      else none
    | none => none
  | .allStopped =>
    match s.shuttingDown with
    | .stopping exitCode =>
      if s.started.all fun c => !c.stopping then some { s with shuttingDown := .destroying exitCode } else none
    | _ => none
  | .destroyed =>
    match s.shuttingDown with
    | .destroying exitCode => some { s with ended := some (.exit exitCode) }
    | _ => none

/-- One event: as long as the process has not ended. -/
def step (s : ConsumerMain) (e : ConsumerMainEvent) : Option ConsumerMain :=
  if s.ended = none then s.handle config e else none

/-- The process has been started. -/
def initial : ConsumerMain := {}

variable {config} {s t : ConsumerMain} {i : ℕ} {c after : Instance}

/-! ### What a step does -/

/-- What can happen, and the process behind it. -/
inductive Moves (config : ConsumerMainConfig) (s : ConsumerMain) : ConsumerMain → Prop where
  | storeReady : s.phase = .init → Moves config s (s.loop config)
  | starts : s.phase = .starting → Moves config s (s.addStarted.loop config)
  | refuses : s.phase ≠ .ready → Moves config s { s with ended := some (.exit 1) }
  | processes (i : ℕ) (c : Instance) (ok : Bool) : s.started[i]? = some c → c.running = true →
      Moves config s (s.setInstance i (c.afterMessage config.crashAfter ok))
  | leaves (i : ℕ) (c : Instance) : s.started[i]? = some c → c.leaving = true →
      Moves config s (s.setInstance i { c with running := false, leaving := false }).onCrashPoint
  | stays (i : ℕ) (c : Instance) : s.started[i]? = some c →
      Moves config s (s.setInstance i { c with leaving := false })
  | stops (i : ℕ) (c : Instance) (ok : Bool) : s.started[i]? = some c → c.stopping = true →
      Moves config s (s.setInstance i
        { c with running := c.running && !ok, stopping := false, stopFailed := c.stopFailed || !ok })
  | signal : s.phase = .ready → Moves config s (s.shutdown 0)
  | dies : Moves config s { s with ended := some .signal }
  | allStopped (code : ℕ) : s.shuttingDown = .stopping code → (∀ c ∈ s.started, c.stopping = false) →
      Moves config s { s with shuttingDown := .destroying code }
  | destroyed (code : ℕ) : s.shuttingDown = .destroying code →
      Moves config s { s with ended := some (.exit code) }

theorem moves_of_step {e : ConsumerMainEvent} (h : step config s e = some t) :
    s.ended = none ∧ Moves config s t := by
  unfold step at h
  split at h
  · rename_i hended
    refine ⟨hended, ?_⟩
    cases e with
    | storeInit ok =>
      simp only [handle] at h
      split at h
      · rename_i hphase
        simp only [Option.some.injEq] at h
        subst h
        cases ok with
        | true => exact .storeReady hphase
        | false => exact .refuses (by simp [hphase])
      · cases h
    | startAnswered ok =>
      simp only [handle] at h
      split at h
      · rename_i hphase
        simp only [Option.some.injEq] at h
        subst h
        cases ok with
        | true => exact .starts hphase
        | false => exact .refuses (by simp [hphase])
      · cases h
    | processed i ok =>
      simp only [handle] at h
      split at h
      · rename_i c hget
        split at h
        · rename_i hc
          simp only [Option.some.injEq] at h
          subst h
          exact .processes i c ok hget (Bool.and_eq_true_iff.mp hc).1
        · cases h
      · cases h
    | left i ok =>
      simp only [handle] at h
      split at h
      · rename_i c hget
        split at h
        · rename_i hc
          simp only [Option.some.injEq] at h
          subst h
          cases ok with
          | true => exact .leaves i c hget hc
          | false => exact .stays i c hget
        · cases h
      · cases h
    | signal =>
      simp only [handle] at h
      split at h
      · rename_i hphase
        simp only [Option.some.injEq] at h
        subst h
        exact .signal hphase
      · simp only [Option.some.injEq] at h
        subst h
        exact .dies
    | kill =>
      simp only [handle, Option.some.injEq] at h
      subst h
      exact .dies
    | stopped i ok =>
      simp only [handle] at h
      split at h
      · rename_i c hget
        split at h
        · rename_i hc
          simp only [Option.some.injEq] at h
          subst h
          exact .stops i c ok hget hc
        · cases h
      · cases h
    | allStopped =>
      simp only [handle] at h
      split at h
      · rename_i code hcode
        split at h
        · rename_i hall
          simp only [Option.some.injEq] at h
          subst h
          exact .allStopped code hcode (by simpa using hall)
        · cases h
      · cases h
    | destroyed =>
      simp only [handle] at h
      split at h
      · rename_i code hcode
        simp only [Option.some.injEq] at h
        subst h
        exact .destroyed code hcode
      · cases h
  · cases h

/-! ### What holds between two events -/

/-- What a consumer says about itself. -/
structure Counted (config : ConsumerMainConfig) (c : Instance) : Prop where
  crashed : c.crashed = true ↔ 0 < config.crashAfter ∧ config.crashAfter ≤ c.processed
  leaving : c.leaving = true → c.crashed = true

/-- The invariant. -/
structure Kept (config : ConsumerMainConfig) (s : ConsumerMain) : Prop where
  counted : ∀ c ∈ s.started, Counted config c
  /-- Before the shutdown a consumer that does not run has left. -/
  before : s.shuttingDown = .notCalled →
    ∀ c ∈ s.started, (c.running = true ∨ c.crashed = true) ∧ c.stopping = false
  size : match s.phase with
    | .init => s.started = []
    | .starting => s.started.length < config.instances
    | .ready => s.started.length = config.instances
  called : ∀ code, s.shuttingDown.exitCode = some code →
    code = 0 ∧ s.phase = .ready ∨ code = 137 ∧ ∃ c ∈ s.started, c.crashed = true
  /-- A signal stops every consumer. -/
  stopping : s.shuttingDown = .stopping 0 →
    ∀ c ∈ s.started, c.running = true → c.stopping = true ∨ c.stopFailed = true
  stopped : s.shuttingDown = .destroying 0 → ∀ c ∈ s.started, c.running = true → c.stopFailed = true
  ended : ∀ code, s.ended = some (.exit code) → s.shuttingDown = .destroying code ∨ code = 1 ∧ s.phase ≠ .ready

/-- A process that is ready and is not to end has a running consumer. -/
def Runs (s : ConsumerMain) : Prop :=
  s.phase = .ready → s.shuttingDown = .notCalled → ∃ c ∈ s.started, c.running = true

/-! ### One consumer -/

/-- What no step of a consumer undoes. -/
structure Next (before after : Instance) : Prop where
  runs : after.running = true → before.running = true
  crashed : before.crashed = true → after.crashed = true
  failed : before.stopFailed = true → after.stopFailed = true
  stopping : before.stopping = true → after.running = true → after.stopping = true ∨ after.stopFailed = true

theorem counted_afterMessage (h : Counted config c) (ok : Bool) :
    Counted config (c.afterMessage config.crashAfter ok) := by
  have hle : c.processed ≤ c.processed + ok.toNat := Nat.le_add_right _ _
  simp only [Instance.afterMessage]
  split
  · rename_i hpoint
    exact ⟨⟨fun _ => hpoint, fun _ => rfl⟩, fun _ => rfl⟩
  · rename_i hpoint
    have hcrashed : ¬c.crashed = true := fun hc =>
      hpoint ⟨(h.crashed.mp hc).1, Nat.le_trans (h.crashed.mp hc).2 hle⟩
    exact ⟨⟨fun hc => absurd hc hcrashed, fun hc => absurd hc hpoint⟩, h.leaving⟩

theorem next_afterMessage (c : Instance) (crashAfter : ℕ) (ok : Bool) : Next c (c.afterMessage crashAfter ok) := by
  simp only [Instance.afterMessage]
  split
  · exact ⟨id, fun _ => rfl, id, fun h _ => .inl h⟩
  · exact ⟨id, id, id, fun h _ => .inl h⟩

@[simp] theorem running_afterMessage (c : Instance) (crashAfter : ℕ) (ok : Bool) :
    (c.afterMessage crashAfter ok).running = c.running := by
  simp only [Instance.afterMessage]
  split <;> rfl

@[simp] theorem stopping_afterMessage (c : Instance) (crashAfter : ℕ) (ok : Bool) :
    (c.afterMessage crashAfter ok).stopping = c.stopping := by
  simp only [Instance.afterMessage]
  split <;> rfl

/-- A step of one consumer. -/
theorem Kept.setInstance (h : Kept config s) (hget : s.started[i]? = some c)
    (hcounted : Counted config after) (hnext : Next c after)
    (hbefore : s.shuttingDown = .notCalled →
      (after.running = true ∨ after.crashed = true) ∧ after.stopping = false) :
    Kept config (s.setInstance i after) := by
  have hc : c ∈ s.started := List.mem_of_getElem? hget
  obtain ⟨hi, -⟩ := List.getElem?_eq_some_iff.mp hget
  have hmem : ∀ {P : Instance → Prop}, (∀ d ∈ s.started, P d) → P after → ∀ d ∈ s.started.set i after, P d := by
    intro P hall hafter d hd
    rcases List.mem_or_eq_of_mem_set hd with hd | rfl
    · exact hall d hd
    · exact hafter
  constructor
  · exact hmem h.counted hcounted
  · intro hno
    exact hmem (h.before hno) (hbefore hno)
  · have hsize := h.size
    simp only [ConsumerMain.setInstance]
    cases hphase : s.phase with
    | init =>
      rw [hphase] at hsize
      simp [hsize] at hi
    | starting => simpa [hphase] using hsize
    | ready => simpa [hphase] using hsize
  · intro code hcode
    refine (h.called code hcode).imp_right fun ⟨hcode, d, hd, hcrashed⟩ => ⟨hcode, ?_⟩
    obtain ⟨j, hj⟩ := List.getElem?_of_mem hd
    by_cases hij : i = j
    · subst hij
      obtain rfl := Option.some.inj (hget.symm.trans hj)
      exact ⟨after, List.mem_set hi after, hnext.crashed hcrashed⟩
    · exact ⟨d, List.mem_of_getElem? ((List.getElem?_set_ne hij).trans hj), hcrashed⟩
  · intro hcode
    refine hmem (h.stopping hcode) fun hrunning => ?_
    rcases h.stopping hcode c hc (hnext.runs hrunning) with hstopping | hfailed
    · exact hnext.stopping hstopping hrunning
    · exact .inr (hnext.failed hfailed)
  · intro hcode
    exact hmem (h.stopped hcode) fun hrunning => hnext.failed (h.stopped hcode c hc (hnext.runs hrunning))
  · exact h.ended

theorem runs_setInstance (h : Runs s) (hget : s.started[i]? = some c)
    (hrunning : s.shuttingDown = .notCalled → c.running = true → after.running = true) :
    Runs (s.setInstance i after) := by
  intro hphase hno
  obtain ⟨hi, -⟩ := List.getElem?_eq_some_iff.mp hget
  obtain ⟨d, hd, hdrunning⟩ := h hphase hno
  obtain ⟨j, hj⟩ := List.getElem?_of_mem hd
  by_cases hij : i = j
  · subst hij
    obtain rfl := Option.some.inj (hget.symm.trans hj)
    exact ⟨after, List.mem_set hi after, hrunning hno hdrunning⟩
  · exact ⟨d, List.mem_of_getElem? ((List.getElem?_set_ne hij).trans hj), hdrunning⟩

/-! ### The shutdown -/

theorem shutdown_of_called {code : ℕ} (h : s.shuttingDown ≠ .notCalled) : s.shutdown code = s := by
  unfold shutdown
  split
  · contradiction
  · rfl

/-- `shutdown` runs once, and changes only which consumers wait for `disconnect`. -/
theorem Kept.shutdown (h : Kept config s) {code : ℕ}
    (hcode : code = 0 ∧ s.phase = .ready ∨ code = 137 ∧ ∃ c ∈ s.started, c.crashed = true) :
    Kept config (s.shutdown code) := by
  by_cases hno : s.shuttingDown = .notCalled
  · have hmem : ∀ {P : Instance → Prop}, (∀ c ∈ s.started, P (if c.running then { c with stopping := true } else c)) →
        ∀ c ∈ s.started.map (fun c => if c.running then { c with stopping := true } else c), P c := by
      intro P hall c hc
      obtain ⟨d, hd, rfl⟩ := List.mem_map.mp hc
      exact hall d hd
    simp only [ConsumerMain.shutdown, hno]
    constructor
    · refine hmem fun c hc => ?_
      have hcounted := h.counted c hc
      split
      · exact ⟨hcounted.crashed, hcounted.leaving⟩
      · exact hcounted
    · exact nofun
    · have hsize := h.size
      cases hphase : s.phase <;> simpa [hphase] using hsize
    · intro code' hcode'
      obtain rfl := Option.some.inj hcode'
      refine hcode.imp_right fun ⟨heq, c, hc, hcrashed⟩ => ⟨heq, _, List.mem_map_of_mem hc, ?_⟩
      split <;> exact hcrashed
    · intro _
      refine hmem fun c hc => ?_
      split
      · exact fun _ => .inl rfl
      · rename_i hrunning
        exact fun h => absurd h hrunning
    · exact nofun
    · intro code' hended
      rcases h.ended code' hended with hdestroying | hone
      · simp [hno] at hdestroying
      · exact .inr hone
  · rwa [shutdown_of_called hno]

theorem runs_shutdown (s : ConsumerMain) (code : ℕ) : Runs (s.shutdown code) := by
  intro _ hno
  unfold shutdown at hno
  split at hno
  · cases hno
  · rename_i hcalled
    exact absurd hno hcalled

/-- The hook of a consumer that has left. -/
theorem kept_onCrashPoint (h : Kept config s) (hcrashed : ∃ c ∈ s.started, c.crashed = true) :
    Kept config s.onCrashPoint ∧ Runs s.onCrashPoint := by
  unfold onCrashPoint
  split
  · exact ⟨h.shutdown (.inr ⟨rfl, hcrashed⟩), runs_shutdown s 137⟩
  · rename_i hall
    refine ⟨h, fun hphase _ => ?_⟩
    simpa [consumers, hphase] using hall

/-! ### One step -/

/-- Before the process is ready only a consumer that has left can have called `shutdown`. -/
theorem Kept.crashed (h : Kept config s) (hphase : s.phase ≠ .ready) {code : ℕ}
    (hcode : s.shuttingDown.exitCode = some code) : code = 137 ∧ ∃ c ∈ s.started, c.crashed = true :=
  (h.called code hcode).resolve_left fun ⟨_, hready⟩ => hphase hready

theorem Kept.loop (h : Kept config s) (hphase : s.phase ≠ .ready) (hended : s.ended = none)
    {started : List Instance} (hkeeps : s.started ⊆ started) (hsize : started.length ≤ config.instances)
    (hnew : ∀ c ∈ started, c ∉ s.started → Counted config c ∧ c.running = true ∧ c.stopping = false) :
    Kept config ({ s with started := started }.loop config) := by
  have hphases : ({ s with started := started }.loop config).started = started ∧
      ({ s with started := started }.loop config).shuttingDown = s.shuttingDown ∧
      ({ s with started := started }.loop config).ended = none := by
    unfold ConsumerMain.loop
    split <;> exact ⟨rfl, rfl, hended⟩
  obtain ⟨hstarted, hshutdown, hnone⟩ := hphases
  have hcodes : ∀ code, s.shuttingDown.exitCode = some code → code ≠ 0 := by
    intro code hcode
    simp [(h.crashed hphase hcode).1]
  constructor
  · rw [hstarted]
    intro c hc
    by_cases hold : c ∈ s.started
    · exact h.counted c hold
    · exact (hnew c hc hold).1
  · rw [hstarted, hshutdown]
    intro hno c hc
    by_cases hold : c ∈ s.started
    · exact h.before hno c hold
    · exact ⟨.inl (hnew c hc hold).2.1, (hnew c hc hold).2.2⟩
  · by_cases hlt : started.length < config.instances
    · simpa only [ConsumerMain.loop, if_pos hlt] using hlt
    · simpa only [ConsumerMain.loop, if_neg hlt] using Nat.le_antisymm hsize (Nat.not_lt.mp hlt)
  · rw [hstarted, hshutdown]
    intro code hcode
    obtain ⟨heq, c, hc, hcrashed⟩ := h.crashed hphase hcode
    exact .inr ⟨heq, c, hkeeps hc, hcrashed⟩
  · rw [hshutdown]
    exact fun hcode => absurd rfl (hcodes 0 (by rw [hcode]; rfl))
  · rw [hshutdown]
    exact fun hcode => absurd rfl (hcodes 0 (by rw [hcode]; rfl))
  · simp [hnone]

/-- **A step** keeps the invariant. -/
theorem kept_of_moves (hinstances : 0 < config.instances) (h : Kept config s) (hruns : Runs s)
    (hended : s.ended = none) (hmoves : Moves config s t) : Kept config t ∧ Runs t := by
  cases hmoves with
  | storeReady hphase =>
    have hnil : s.started = [] := by simpa [hphase] using h.size
    refine ⟨h.loop (by simp [hphase]) hended (List.Subset.refl _) (by simp [hnil]) fun c hc hnew =>
      absurd hc hnew, ?_⟩
    simp [Runs, ConsumerMain.loop, hnil, hinstances]
  | starts hphase =>
    have hsize : s.started.length < config.instances := by simpa [hphase] using h.size
    have hnew : ∀ c ∈ s.started ++ [({ running := true } : Instance)], c ∉ s.started →
        Counted config c ∧ c.running = true ∧ c.stopping = false := by
      intro c hc hnew
      obtain rfl : c = { running := true } := by simpa [hnew] using hc
      refine ⟨⟨⟨nofun, fun ⟨hpos, hle⟩ => absurd hpos (Nat.not_lt.mpr hle)⟩, nofun⟩, rfl, rfl⟩
    refine ⟨h.loop (by simp [hphase]) hended (List.subset_append_left _ _)
      (by rw [List.length_append]; exact hsize) hnew, ?_⟩
    intro _ _
    refine ⟨{ running := true }, ?_, rfl⟩
    unfold ConsumerMain.loop addStarted
    split <;> simp
  | refuses hphase =>
    refine ⟨{ h with ended := fun code hcode => ?_ }, hruns⟩
    simp only [Option.some.injEq, Ending.exit.injEq] at hcode
    exact .inr ⟨hcode.symm, hphase⟩
  | processes i c ok hget hrunning =>
    have hc := List.mem_of_getElem? hget
    refine ⟨h.setInstance hget (counted_afterMessage (h.counted c hc) ok) (next_afterMessage c _ ok) ?_,
      runs_setInstance hruns hget fun _ => by simp⟩
    intro hno
    simpa [hrunning] using (h.before hno c hc).2
  | leaves i c hget hleaving =>
    have hc := List.mem_of_getElem? hget
    have hcounted := h.counted c hc
    have hcrashed := hcounted.leaving hleaving
    refine kept_onCrashPoint (h.setInstance hget ⟨hcounted.crashed, nofun⟩
      ⟨nofun, id, id, fun _ => nofun⟩ fun hno => ⟨.inr hcrashed, (h.before hno c hc).2⟩) ?_
    exact ⟨_, List.mem_set (List.getElem?_eq_some_iff.mp hget).1 _, hcrashed⟩
  | stays i c hget =>
    have hc := List.mem_of_getElem? hget
    exact ⟨h.setInstance hget ⟨(h.counted c hc).crashed, nofun⟩ ⟨id, id, id, fun hs _ => .inl hs⟩
      fun hno => h.before hno c hc, runs_setInstance hruns hget fun _ hrunning => hrunning⟩
  | stops i c ok hget hstopping =>
    have hc := List.mem_of_getElem? hget
    have hcalled : s.shuttingDown ≠ .notCalled := fun hno => by
      simp [(h.before hno c hc).2] at hstopping
    refine ⟨h.setInstance hget ⟨(h.counted c hc).crashed, (h.counted c hc).leaving⟩ ?_
      fun hno => absurd hno hcalled, fun _ hno => absurd hno hcalled⟩
    refine ⟨fun hr => (Bool.and_eq_true_iff.mp hr).1, id, fun hf => by simp [hf], fun _ hr => .inr ?_⟩
    simp [(Bool.and_eq_true_iff.mp hr).2]
  | signal hphase => exact ⟨h.shutdown (.inl ⟨rfl, hphase⟩), runs_shutdown s 0⟩
  | dies => exact ⟨{ h with ended := nofun }, hruns⟩
  | allStopped code hcode hall =>
    refine ⟨{ h with before := nofun, called := ?_, stopping := nofun, stopped := ?_, ended := ?_ }, fun _ => nofun⟩
    · intro code' hcode'
      exact h.called code' (by rw [hcode]; exact hcode')
    · rintro hzero c hc hrunning
      obtain rfl : code = 0 := by simpa using hzero
      refine (h.stopping hcode c hc hrunning).resolve_left fun hstopping => ?_
      simp [hall c hc] at hstopping
    · simp [hended]
  | destroyed code hcode =>
    refine ⟨{ h with ended := fun code' hcode' => ?_ }, hruns⟩
    simp only [Option.some.injEq, Ending.exit.injEq] at hcode'
    exact .inl (hcode' ▸ hcode)

theorem kept_of_reachable (hinstances : 0 < config.instances) (h : Reachable (step config) initial s) :
    Kept config s ∧ Runs s := by
  refine h.invariant (P := fun s => Kept config s ∧ Runs s) ⟨?_, nofun⟩ ?_
  · exact ⟨nofun, fun _ => nofun, rfl, nofun, nofun, nofun, nofun⟩
  · rintro s e t ⟨hkept, hruns⟩ - hstep
    obtain ⟨hended, hmoves⟩ := moves_of_step hstep
    exact kept_of_moves hinstances hkept hruns hended hmoves

/-! ### How the process ends -/

/-- The first call of `shutdown` keeps its code. -/
theorem exitCode_of_moves (h : Moves config s t) {code : ℕ} (hcode : s.shuttingDown.exitCode = some code) :
    t.shuttingDown.exitCode = some code := by
  have hcalled : s.shuttingDown ≠ .notCalled := fun hno => by simp [hno, ShutdownPhase.exitCode] at hcode
  cases h with
  | storeReady _ | starts _ =>
    unfold ConsumerMain.loop
    split <;> exact hcode
  | leaves i c hget _ =>
    unfold onCrashPoint
    split
    · rwa [shutdown_of_called (s := s.setInstance i _) hcalled]
    · exact hcode
  | signal _ => rwa [shutdown_of_called hcalled]
  | allStopped code' hcode' _ =>
    rw [hcode'] at hcode
    exact hcode
  | _ => exact hcode

theorem ready_of_moves (h : Moves config s t) (hphase : s.phase = .ready) : t.phase = .ready := by
  cases h with
  | storeReady hinit => simp [hinit] at hphase
  | starts hstarting => simp [hstarting] at hphase
  | leaves i c hget _ =>
    unfold onCrashPoint shutdown
    split
    · split <;> exact hphase
    · exact hphase
  | signal _ =>
    unfold shutdown
    split <;> exact hphase
  | _ => exact hphase

/-- The hook calls `shutdown` when no consumer is running: all that have been started have left. -/
theorem shutdown_of_crashPoint (h : Kept config s) (hno : s.shuttingDown = .notCalled) {code : ℕ}
    (hcode : s.onCrashPoint.shuttingDown = .stopping code) :
    code = 137 ∧ s.onCrashPoint.started = s.started ∧
    ∀ c ∈ s.started, c.running = false ∧ c.crashed = true ∧ config.crashAfter ≤ c.processed := by
  unfold onCrashPoint at hcode ⊢
  split at hcode
  · rename_i hall
    have hnone : ∀ c ∈ s.started, c.running = false := by
      intro c hc
      have hmem : c ∈ s.consumers := by
        unfold consumers
        split
        · exact List.mem_append_left _ hc
        · exact hc
      simpa using List.all_eq_true.mp hall c hmem
    simp only [shutdown, hno, ShutdownPhase.stopping.injEq] at hcode
    refine ⟨hcode.symm, ?_, fun c hc => ?_⟩
    · rw [if_pos hall]
      simp only [shutdown, hno]
      refine (List.map_congr_left fun c hc => ?_).trans (List.map_id _)
      simp [hnone c hc]
    · have hleft := (h.before hno c hc).1.resolve_left (by simp [hnone c hc])
      exact ⟨hnone c hc, hleft, ((h.counted c hc).crashed.mp hleft).2⟩
  · simp [hno] at hcode

/-- **The call of `shutdown`**: for a signal, or by a consumer that leaves when no other is running. Then
every consumer that has been started has left, and some are missing unless the process was ready. -/
theorem shutdown_of_moves (h : Kept config s) (hmoves : Moves config s t)
    (hno : s.shuttingDown = .notCalled) {code : ℕ} (hcode : t.shuttingDown = .stopping code) :
    code = 0 ∧ s.phase = .ready ∨
    code = 137 ∧ (∀ c ∈ t.started, c.running = false ∧ c.crashed = true ∧ config.crashAfter ≤ c.processed) ∧
      (t.started.length = config.instances ↔ s.phase = .ready) := by
  cases hmoves with
  | storeReady _ | starts _ =>
    unfold ConsumerMain.loop at hcode
    split at hcode <;> simp [addStarted, hno] at hcode
  | leaves i c hget hleaving =>
    right
    have hc := List.mem_of_getElem? hget
    have hcounted := h.counted c hc
    have hcrashed := hcounted.leaving hleaving
    have hkept : Kept config (s.setInstance i { c with running := false, leaving := false }) :=
      h.setInstance hget ⟨hcounted.crashed, nofun⟩ ⟨nofun, id, id, fun _ => nofun⟩
        fun hno => ⟨.inr hcrashed, (h.before hno c hc).2⟩
    obtain ⟨heq, hstarted, hall⟩ := shutdown_of_crashPoint hkept hno hcode
    refine ⟨heq, hstarted ▸ hall, ?_⟩
    rw [hstarted, setInstance, List.length_set]
    have hsize := h.size
    cases hphase : s.phase with
    | init =>
      rw [hphase] at hsize
      simp [hsize] at hget
    | starting =>
      rw [hphase] at hsize
      simp [Nat.ne_of_lt hsize]
    | ready =>
      rw [hphase] at hsize
      simp [hsize]
  | signal hphase =>
    simp only [shutdown, hno, ShutdownPhase.stopping.injEq] at hcode
    exact .inl ⟨hcode.symm, hphase⟩
  | allStopped code' hcode' _ => simp [hno] at hcode'
  | destroyed code' hcode' => simp [hno] at hcode'
  | _ => simp [setInstance, hno] at hcode

/-- Only a signal and a consumer that has left call `shutdown`. -/
theorem event_of_shutdown {e : ConsumerMainEvent} (h : step config s e = some t)
    (hno : s.shuttingDown = .notCalled) {code : ℕ} (hcode : t.shuttingDown = .stopping code) :
    code = 0 ∧ e = .signal ∨ code = 137 ∧ ∃ i, e = .left i true := by
  unfold step at h
  split at h
  · cases e with
    | signal =>
      simp only [handle] at h
      split at h
      · cases h
        simp only [shutdown, hno, ShutdownPhase.stopping.injEq] at hcode
        exact .inl ⟨hcode.symm, rfl⟩
      · cases h
        simp [hno] at hcode
    | left i ok =>
      simp only [handle] at h
      split at h
      · split at h
        · cases h
          cases ok with
          | true =>
            simp only [if_true, onCrashPoint] at hcode
            split at hcode
            · simp only [shutdown, setInstance, hno, ShutdownPhase.stopping.injEq] at hcode
              exact .inr ⟨hcode.symm, i, rfl⟩
            · simp [setInstance, hno] at hcode
          | false => simp [setInstance, hno] at hcode
        · cases h
      · cases h
    | storeInit ok | startAnswered ok =>
      simp only [handle] at h
      split at h
      · cases h
        split at hcode
        · unfold ConsumerMain.loop at hcode
          split at hcode <;> simp [addStarted, hno] at hcode
        · simp [hno] at hcode
      · cases h
    | processed i ok | stopped i ok =>
      simp only [handle] at h
      split at h
      · split at h
        · cases h
          simp [setInstance, hno] at hcode
        · cases h
      · cases h
    | kill =>
      cases h
      simp [hno] at hcode
    | allStopped | destroyed => simp [handle, hno] at h
  · cases h

/-- **The exit codes**. A process that is ready, and not to end, has a running consumer. `shutdown` is
called for a signal, with code 0, or by a consumer that leaves once every consumer that has been started
has left after `crashAfter` messages, with code 137; those are all consumers exactly if the process was
ready. A process that exits with 0 has stopped every consumer, and code 1 says that it did not get
ready. -/
theorem exit_codes (hinstances : 0 < config.instances) (h : Reachable (step config) initial s) :
    (s.phase = .ready → s.shuttingDown = .notCalled → ∃ c ∈ s.started, c.running = true) ∧
    (∀ e t code, step config s e = some t → s.shuttingDown = .notCalled → t.shuttingDown = .stopping code →
      code = 0 ∧ e = .signal ∧ s.phase = .ready ∨
      code = 137 ∧ (∃ i, e = .left i true) ∧
        (∀ c ∈ t.started, c.running = false ∧ c.crashed = true ∧ config.crashAfter ≤ c.processed) ∧
        (t.started.length = config.instances ↔ s.phase = .ready)) ∧
    (∀ code, s.ended = some (.exit code) →
      code = 0 ∧ s.phase = .ready ∧ (∀ c ∈ s.started, c.running = true → c.stopFailed = true) ∨
      code = 137 ∧ (∃ c ∈ s.started, c.crashed = true) ∨ code = 1 ∧ s.phase ≠ .ready) ∧
    ∀ code, s.shuttingDown.exitCode = some code → ∀ t, Reachable (step config) s t →
      ∀ last, t.ended = some (.exit last) → last = code ∨ last = 1 ∧ s.phase = .starting := by
  obtain ⟨hkept, hruns⟩ := kept_of_reachable hinstances h
  refine ⟨hruns, fun e t code hstep hno hcode => ?_, fun code hended => ?_, fun code hcode t ht last hlast => ?_⟩
  · have hcause := shutdown_of_moves hkept (moves_of_step hstep).2 hno hcode
    rcases event_of_shutdown hstep hno hcode with ⟨rfl, hsignal⟩ | ⟨rfl, hleft⟩
    · exact .inl ⟨rfl, hsignal, (hcause.resolve_right fun h => absurd h.1 (by decide)).2⟩
    · exact .inr ⟨rfl, hleft, (hcause.resolve_left fun h => absurd h.1 (by decide)).2⟩
  · rcases hkept.ended code hended with hdestroying | hone
    · rcases hkept.called code (by rw [hdestroying]; rfl) with ⟨hzero, hphase⟩ | hcrashed
      · exact .inl ⟨hzero, hphase, hkept.stopped (hzero ▸ hdestroying)⟩
      · exact .inr (.inl hcrashed)
    · exact .inr (.inr hone)
  · obtain ⟨htcode, htphase⟩ : t.shuttingDown.exitCode = some code ∧ (s.phase = .ready → t.phase = .ready) := by
      refine ht.invariant (P := fun t => t.shuttingDown.exitCode = some code ∧
        (s.phase = .ready → t.phase = .ready)) ⟨hcode, id⟩ ?_
      rintro t e u ⟨hcode, hphase⟩ - hstep
      have hmoves := (moves_of_step hstep).2
      exact ⟨exitCode_of_moves hmoves hcode, fun hready => ready_of_moves hmoves (hphase hready)⟩
    have htkept := (kept_of_reachable hinstances (h.trans ht)).1
    rcases htkept.ended last hlast with hdestroying | ⟨hone, hnotReady⟩
    · rw [hdestroying] at htcode
      exact .inl (Option.some.inj htcode)
    · refine .inr ⟨hone, ?_⟩
      cases hphase : s.phase with
      | init =>
        obtain ⟨-, c, hc, -⟩ := hkept.crashed (by simp [hphase]) hcode
        have hsize := hkept.size
        rw [hphase] at hsize
        simp [hsize] at hc
      | starting => rfl
      | ready => exact absurd (htphase hphase) hnotReady

/-- The first of two consumers leaves after its first message, while the second is being started: the
process shuts down without it. -/
theorem exit_codes_of_early_leave :
    ∃ s t, Reachable (step { instances := 2, crashAfter := 1 }) initial s ∧
      step { instances := 2, crashAfter := 1 } s (.left 0 true) = some t ∧
      t.shuttingDown = .stopping 137 ∧ t.started.length ≠ 2 := by
  have hrun : runEvents (step { instances := 2, crashAfter := 1 }) (fun _ _ => True) initial
      [.storeInit true, .startAnswered true, .processed 0 true] =
      some { phase := .starting
             started := [{ running := true, crashed := true, processed := 1, leaving := true }] } := by
    decide
  have hreach := reaches_of_runEvents hrun
  obtain ⟨hzero, -⟩ | ⟨-, -, -, hall⟩ :=
    (exit_codes (by decide) hreach).2.1 (.left 0 true) _ 137 rfl rfl rfl
  · cases hzero
  · exact ⟨_, _, hreach, rfl, rfl, fun htwo => nomatch hall.mp htwo⟩

end ConsumerMain

end BulkTraffic.Orders
