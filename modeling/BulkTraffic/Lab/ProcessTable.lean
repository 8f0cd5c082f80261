import BulkTraffic.Lab.ConsumerLogs
import BulkTraffic.Lab.ConsumerProcess
import BulkTraffic.Lib.JsMap
import BulkTraffic.Lib.Runs

/-!
# The table of consumer processes

`ConsumerProcessManager` keeps two maps by pid: `processes` has the record of each child, `handles`
the child itself as long as its exit has not been reported. The operating system gives a pid again
once the exit of the process that had it was reported, and the new child then takes over the entry.

The child that an entry is about is its place in the order in which the children were started. Events
of a child come between any two calls (`Event`). What holds between them is `Consistent`: a child
that is alive is what both maps have under its pid, and `handles` has no others. So a signal goes to
the child that is recorded, and never to a process that has taken the pid over
(`tableHolds_of_reachable`).
-/

namespace BulkTraffic.Lab

open BulkTraffic.Js BulkTraffic.Lib

/-- A child process: its place in the order of starting. -/
abbrev Child := ℕ

/-- The signals the lab sends. -/
inductive Signal where
  /-- `SIGKILL`. -/
  | sigkill
  /-- `SIGTERM`. -/
  | sigterm
  deriving DecidableEq

/-- `ConsumerProcessInfo`. -/
structure ConsumerProcessInfo where
  /-- The number the operating system gave the process. -/
  pid : ℕ
  /-- The consumer group. -/
  groupId : Utf16.Units
  /-- How many consumers the process runs. -/
  instances : Number
  /-- When the process was started. -/
  startedAt : ℕ
  /-- What it was started with. -/
  options : NormalizedOptions
  /-- Has no exit been reported? -/
  alive : Bool
  /-- The exit code of a process that ended by itself. -/
  exitCode : Option ℤ
  /-- The signal that ended the process. -/
  exitSignal : Option String
  /-- The last lines it has written. -/
  recentLogs : List String

/-- The manager, with the children it has started and the signals it has sent them. -/
structure Manager where
  /-- The `info` of each child. -/
  children : List ConsumerProcessInfo
  /-- `processes`. -/
  processes : JsMap ℕ Child
  /-- `handles`. -/
  handles : JsMap ℕ Child
  /-- What was sent, to which child. -/
  signals : List (Child × Signal)

namespace Manager

/-- The manager at the start. -/
def start : Manager := { children := [], processes := JsMap.empty, handles := JsMap.empty, signals := [] }

/-- `resolveScriptPath()`. -/
def resolveScriptPath (scriptPath : String) (scriptExists : Bool) : Except String String :=
  if scriptExists then .ok scriptPath
  else .error s!"컨슈머 스크립트를 찾을 수 없습니다: {scriptPath}. npm run build 를 먼저 실행하세요."

/-- The record of a child that has just been started. -/
def newInfo (pid startedAt : ℕ) (options : NormalizedOptions) : ConsumerProcessInfo :=
  { pid, groupId := options.groupId, instances := options.instances, startedAt, options, alive := true
    exitCode := none, exitSignal := none, recentLogs := [] }

/-- What a call of `spawnConsumer` gets from outside: the script, the options, and the pid that the
operating system gives, if it starts the process. -/
structure SpawnCall where
  /-- The script. -/
  scriptPath : String
  /-- `fs.existsSync(scriptPath)`. -/
  scriptExists : Bool
  /-- The options. -/
  options : SpawnConsumerOptions
  /-- `child.pid`. -/
  pid : Option ℕ
  /-- `Date.now()`. -/
  startedAt : ℕ

/-- `spawnConsumer(options)`. -/
def spawnConsumer (m : Manager) (call : SpawnCall) : Except String (Child × Manager) := do
  let _ ← resolveScriptPath call.scriptPath call.scriptExists
  let normalized ← normalize call.options
  match call.pid with
  | none => .error "컨슈머 프로세스를 띄우지 못했습니다."
  | some pid => .ok (m.children.length,
      { m with
        children := m.children ++ [newInfo pid call.startedAt normalized]
        processes := m.processes.set pid m.children.length
        handles := m.handles.set pid m.children.length })

/-- A chunk of the child's output. -/
def output (m : Manager) (c : Child) (chunk : List UInt8) : Manager :=
  { m with children := m.children.modify c fun info => { info with recentLogs := collect info.recentLogs chunk } }

/-- The exit of a child is reported. -/
def exit (m : Manager) (c : Child) (code : Option ℤ) (signal : Option String) : Manager :=
  { m with
    children := m.children.modify c fun info =>
      { info with alive := false, exitCode := code, exitSignal := signal }
    handles := match m.children[c]? with
      | some info => m.handles.delete info.pid
      | none => m.handles }

/-- `handle.kill(signal)`. -/
def kill (m : Manager) (c : Child) (signal : Signal) : Manager :=
  { m with signals := m.signals ++ [(c, signal)] }

/-- `stop(pid, signal)`. -/
def stop (m : Manager) (pid : ℕ) (signal : Signal) : Except String (Child × Manager) :=
  match m.processes.get? pid with
  | none => .error s!"그런 컨슈머 프로세스가 없습니다: pid={pid}"
  | some info =>
    match m.handles.get? pid with
    | none => .error s!"이미 종료된 프로세스입니다: pid={pid}"
    | some handle => .ok (info, m.kill handle signal)

/-- A `stop` whose exception is caught. -/
def tryStop (signal : Signal) (m : Manager) (pid : ℕ) : Manager :=
  match m.stop pid signal with
  | .ok (_, m') => m'
  | .error _ => m

/-- `stopAll(signal)`. -/
def stopAll (m : Manager) (signal : Signal) : ℕ × Manager :=
  (m.handles.keys.length, m.handles.keys.foldl (tryStop signal) m)

/-- Is the record of the child one of a process that has ended? -/
def isFinished (m : Manager) (c : Child) : Bool := (m.children[c]?).any fun info => !info.alive

/-- `info.pid`, of a child. -/
def pidOf (m : Manager) (c : Child) : Option ℕ := (m.children[c]?).map ConsumerProcessInfo.pid

/-- `clearFinished()`. -/
def clearFinished (m : Manager) : ℕ × Manager :=
  let finished := m.processes.values.filter m.isFinished
  (finished.length, { m with processes := (finished.filterMap m.pidOf).foldl JsMap.delete m.processes })

/-- The loop of `onModuleDestroy()`, which an exception would end. -/
def stopEach (m : Manager) : List ℕ → Manager
  | [] => m
  | pid :: pids => match m.stop pid .sigterm with
    | .ok (_, m') => m'.stopEach pids
    | .error _ => m

/-- `onModuleDestroy()`. -/
def onModuleDestroy (m : Manager) : Manager := m.stopEach m.handles.keys

/-! ### Runs -/

/-- What can happen next: a call of the server, or an event of a child. -/
inductive Event where
  /-- `spawnConsumer`. -/
  | spawn (call : SpawnCall)
  /-- A child writes. -/
  | output (c : Child) (chunk : List UInt8)
  /-- A child's exit is reported. -/
  | exit (c : Child) (code : Option ℤ) (signal : Option String)
  /-- `stop`. -/
  | stop (pid : ℕ) (signal : Signal)
  /-- `stopAll`. -/
  | stopAll (signal : Signal)
  /-- `clearFinished`. -/
  | clearFinished
  /-- `onModuleDestroy`. -/
  | destroy

/-- The child has been started and its exit has not been reported. -/
def IsAlive (m : Manager) (c : Child) : Prop := ∃ info, m.children[c]? = some info ∧ info.alive = true

instance (m : Manager) (c : Child) : Decidable (m.IsAlive c) :=
  decidable_of_iff ((m.children[c]?).any ConsumerProcessInfo.alive = true) (by
    rw [IsAlive]
    cases m.children[c]? <;> simp)

/-- No process whose exit has not been reported has the pid. -/
def IsFree (m : Manager) (pid : ℕ) : Prop := ∀ info ∈ m.children, info.alive = true → info.pid ≠ pid

instance (m : Manager) (pid : ℕ) : Decidable (m.IsFree pid) :=
  inferInstanceAs (Decidable (∀ info ∈ m.children, info.alive = true → info.pid ≠ pid))

/-- One event. The operating system gives out pids that are free, and an exit is reported once. -/
def step (m : Manager) : Event → Option Manager
  | .spawn call =>
    if ∀ pid ∈ call.pid, m.IsFree pid then
      match m.spawnConsumer call with
      | .ok (_, m') => some m'
      | .error _ => some m
    else none
  | .output c chunk => if c < m.children.length then some (m.output c chunk) else none
  | .exit c code signal => if m.IsAlive c then some (m.exit c code signal) else none
  | .stop pid signal => some (tryStop signal m pid)
  | .stopAll signal => some (m.stopAll signal).2
  | .clearFinished => some m.clearFinished.2
  | .destroy => some m.onModuleDestroy

/-! ### The invariant -/

/-- What holds between the calls. -/
structure Consistent (m : Manager) : Prop where
  /-- A child that is alive is in both maps under its pid. -/
  recorded : ∀ c info, m.children[c]? = some info → info.alive = true →
    m.processes.get? info.pid = some c ∧ m.handles.get? info.pid = some c
  /-- A handle is of a child that is alive, under its pid. -/
  handle : ∀ pid c, m.handles.get? pid = some c →
    ∃ info, m.children[c]? = some info ∧ info.alive = true ∧ info.pid = pid
  /-- A record is of a child with the pid. -/
  record : ∀ pid c, m.processes.get? pid = some c → ∃ info, m.children[c]? = some info ∧ info.pid = pid

theorem consistent_start : Consistent start := by
  refine ⟨?_, ?_, ?_⟩
  · rintro c info ⟨⟩
  · rintro pid c ⟨⟩
  · rintro pid c ⟨⟩

theorem isAlive_iff {m : Manager} {c : Child} {info : ConsumerProcessInfo} (h : m.children[c]? = some info) :
    m.IsAlive c ↔ info.alive = true := by
  rw [IsAlive, h]
  simp

/-- Signals change neither the records nor the maps. -/
theorem Consistent.of_same {m m' : Manager} (h : Consistent m) (hchildren : m'.children = m.children)
    (hprocesses : m'.processes = m.processes) (hhandles : m'.handles = m.handles) : Consistent m' := by
  refine ⟨?_, ?_, ?_⟩
  · rw [hchildren, hprocesses, hhandles]
    exact h.recorded
  · rw [hchildren, hhandles]
    exact h.handle
  · rw [hchildren, hprocesses]
    exact h.record

/-! ### What a call does -/

/-- What `spawnConsumer` does where it does not throw. -/
theorem spawnConsumer_ok {m m' : Manager} {call : SpawnCall} {c : Child}
    (h : m.spawnConsumer call = .ok (c, m')) :
    ∃ pid options, call.pid = some pid ∧ c = m.children.length ∧
      m' = { m with
        children := m.children ++ [newInfo pid call.startedAt options]
        processes := m.processes.set pid m.children.length
        handles := m.handles.set pid m.children.length } := by
  obtain ⟨path, -, h⟩ := bind_eq_ok h
  obtain ⟨options, -, h⟩ := bind_eq_ok h
  cases hpid : call.pid with
  | none =>
    rw [hpid] at h
    cases h
  | some pid =>
    rw [hpid] at h
    cases h
    exact ⟨pid, options, rfl, rfl, rfl⟩

/-- A new child takes a pid that is free. -/
theorem consistent_spawn {m : Manager} (h : Consistent m) {pid : ℕ} (hfree : m.IsFree pid) (startedAt : ℕ)
    (options : NormalizedOptions) :
    Consistent { m with
      children := m.children ++ [newInfo pid startedAt options]
      processes := m.processes.set pid m.children.length
      handles := m.handles.set pid m.children.length } := by
  have hold : ∀ (c : ℕ) info, m.children[c]? = some info →
      (m.children ++ [newInfo pid startedAt options])[c]? = some info := by
    intro c info hc
    have hlt := (List.getElem?_eq_some_iff.mp hc).1
    rw [List.getElem?_append_left hlt, hc]
  have hnew : (m.children ++ [newInfo pid startedAt options])[m.children.length]? =
      some (newInfo pid startedAt options) := List.getElem?_concat_length
  refine ⟨?_, ?_, ?_⟩
  · intro c info hc halive
    by_cases hlt : c < m.children.length
    · rw [List.getElem?_append_left hlt] at hc
      have hne : pid ≠ info.pid := (hfree info (List.mem_of_getElem? hc) halive).symm
      dsimp only
      rw [JsMap.get?_set_of_ne _ hne, JsMap.get?_set_of_ne _ hne]
      exact h.recorded c info hc halive
    · have hle : c < (m.children ++ [newInfo pid startedAt options]).length :=
        (List.getElem?_eq_some_iff.mp hc).1
      rw [List.length_append, List.length_singleton] at hle
      obtain rfl : c = m.children.length :=
        Nat.le_antisymm (Nat.le_of_lt_succ hle) (Nat.le_of_not_lt hlt)
      rw [hnew] at hc
      rw [← Option.some.inj hc]
      exact ⟨JsMap.get?_set_self _ _ _, JsMap.get?_set_self _ _ _⟩
  · intro pid' c hc
    dsimp only at hc
    rw [JsMap.get?_set] at hc
    split at hc
    · rename_i heq
      rw [← Option.some.inj hc]
      exact ⟨_, hnew, rfl, heq⟩
    · obtain ⟨info, hinfo, halive, hpid⟩ := h.handle pid' c hc
      exact ⟨info, hold c info hinfo, halive, hpid⟩
  · intro pid' c hc
    dsimp only at hc
    rw [JsMap.get?_set] at hc
    split at hc
    · rename_i heq
      rw [← Option.some.inj hc]
      exact ⟨_, hnew, heq⟩
    · obtain ⟨info, hinfo, hpid⟩ := h.record pid' c hc
      exact ⟨info, hold c info hinfo, hpid⟩

/-- The record of a child, after another record or this one has changed. -/
theorem getElem?_modify_eq_some {infos : List ConsumerProcessInfo} {f : ConsumerProcessInfo → ConsumerProcessInfo}
    {c j : Child} {info' : ConsumerProcessInfo} :
    (infos.modify c f)[j]? = some info' ↔
      ∃ info, infos[j]? = some info ∧ (if c = j then f info else info) = info' := by
  rw [List.getElem?_modify]
  exact Option.map_eq_some_iff

/-- A chunk of output changes the logs of a record only. -/
theorem consistent_output {m : Manager} (h : Consistent m) (c : Child) (chunk : List UInt8) :
    Consistent (m.output c chunk) := by
  have hback : ∀ (j : Child) (info' : ConsumerProcessInfo), (m.output c chunk).children[j]? = some info' →
      ∃ info : ConsumerProcessInfo, m.children[j]? = some info ∧ info.alive = info'.alive ∧
        info.pid = info'.pid := by
    intro j info' hj
    obtain ⟨info, hinfo, rfl⟩ := getElem?_modify_eq_some.mp hj
    exact ⟨info, hinfo, by split <;> rfl, by split <;> rfl⟩
  have hforth : ∀ (j : Child) (info : ConsumerProcessInfo), m.children[j]? = some info →
      ∃ info' : ConsumerProcessInfo, (m.output c chunk).children[j]? = some info' ∧
        info'.alive = info.alive ∧ info'.pid = info.pid :=
    fun j info hj => ⟨_, getElem?_modify_eq_some.mpr ⟨info, hj, rfl⟩, by split <;> rfl, by split <;> rfl⟩
  refine ⟨?_, ?_, ?_⟩
  · intro j info' hj halive
    obtain ⟨info, hinfo, halive', hpid⟩ := hback j info' hj
    rw [← hpid]
    exact h.recorded j info hinfo (halive'.trans halive)
  · intro pid j hj
    obtain ⟨info, hinfo, halive, hpid⟩ := h.handle pid j hj
    obtain ⟨info', hinfo', halive', hpid'⟩ := hforth j info hinfo
    exact ⟨info', hinfo', halive'.trans halive, hpid'.trans hpid⟩
  · intro pid j hj
    obtain ⟨info, hinfo, hpid⟩ := h.record pid j hj
    obtain ⟨info', hinfo', -, hpid'⟩ := hforth j info hinfo
    exact ⟨info', hinfo', hpid'.trans hpid⟩

/-- The child whose exit is reported leaves `handles`. -/
theorem consistent_exit {m : Manager} (h : Consistent m) {c : Child} (halive : m.IsAlive c)
    (code : Option ℤ) (signal : Option String) : Consistent (m.exit c code signal) := by
  obtain ⟨gone, hgone, hgoneAlive⟩ := halive
  have hhandles : (m.exit c code signal).handles = m.handles.delete gone.pid := by
    rw [exit, hgone]
  have hchildren : ∀ (j : Child) info', (m.exit c code signal).children[j]? = some info' ↔
      ∃ info, m.children[j]? = some info ∧
        (if c = j then { info with alive := false, exitCode := code, exitSignal := signal } else info) = info' :=
    fun j info' => getElem?_modify_eq_some
  refine ⟨?_, ?_, ?_⟩
  · intro j info' hj halive
    obtain ⟨info, hinfo, rfl⟩ := (hchildren j info').mp hj
    split at halive
    · cases halive
    · rename_i hne
      obtain ⟨hprocess, hhandle⟩ := h.recorded j info hinfo halive
      have hpid : gone.pid ≠ info.pid := by
        intro heq
        have hsame := (h.recorded c gone hgone hgoneAlive).2
        rw [heq, hhandle] at hsame
        exact hne (Option.some.inj hsame).symm
      rw [if_neg hne, hhandles, JsMap.get?_delete_of_ne _ hpid]
      exact ⟨hprocess, hhandle⟩
  · intro pid j hj
    rw [hhandles, JsMap.get?_delete] at hj
    split at hj
    · cases hj
    · rename_i hne
      obtain ⟨info, hinfo, halive, hpid⟩ := h.handle pid j hj
      have hother : c ≠ j := by
        rintro rfl
        rw [hgone] at hinfo
        exact hne ((congrArg ConsumerProcessInfo.pid (Option.some.inj hinfo)).trans hpid)
      exact ⟨info, (hchildren j info).mpr ⟨info, hinfo, if_neg hother⟩, halive, hpid⟩
  · intro pid j hj
    obtain ⟨info, hinfo, hpid⟩ := h.record pid j hj
    exact ⟨_, (hchildren j _).mpr ⟨info, hinfo, rfl⟩, by split <;> exact hpid⟩

/-! ### Signals -/

/-- **The recorded child is signalled**, if it is alive. -/
theorem stop_of_isAlive {m : Manager} (h : Consistent m) {pid : ℕ} {c : Child}
    (hrecord : m.processes.get? pid = some c) (halive : m.IsAlive c) (signal : Signal) :
    m.stop pid signal = .ok (c, m.kill c signal) := by
  obtain ⟨info, hinfo, hpid⟩ := h.record pid c hrecord
  obtain ⟨-, hhandle⟩ := h.recorded c info hinfo ((isAlive_iff hinfo).mp halive)
  rw [stop, hrecord, ← hpid, hhandle]

/-- A process that is not known is not signalled. -/
theorem stop_of_unknown {m : Manager} {pid : ℕ} (hrecord : m.processes.get? pid = none) (signal : Signal) :
    m.stop pid signal = .error s!"그런 컨슈머 프로세스가 없습니다: pid={pid}" := by
  rw [stop, hrecord]

/-- One that has ended is not either. -/
theorem stop_of_finished {m : Manager} (h : Consistent m) {pid : ℕ} {c : Child}
    (hrecord : m.processes.get? pid = some c) (hfinished : ¬ m.IsAlive c) (signal : Signal) :
    m.stop pid signal = .error s!"이미 종료된 프로세스입니다: pid={pid}" := by
  have hnone : m.handles.get? pid = none := by
    by_contra hsome
    obtain ⟨other, hother⟩ := Option.ne_none_iff_exists'.mp hsome
    obtain ⟨info, hinfo, halive, rfl⟩ := h.handle pid other hother
    obtain ⟨hprocess, -⟩ := h.recorded other info hinfo halive
    rw [hrecord] at hprocess
    rw [Option.some.inj hprocess] at hfinished
    exact hfinished ((isAlive_iff hinfo).mpr halive)
  rw [stop, hrecord, hnone]

/-- Stopping several children that both maps have. -/
theorem foldl_tryStop (signal : Signal) (entries : List (ℕ × Child)) {m : Manager}
    (h : ∀ e ∈ entries, m.processes.get? e.1 = some e.2 ∧ m.handles.get? e.1 = some e.2) :
    (entries.map Prod.fst).foldl (tryStop signal) m =
      { m with signals := m.signals ++ (entries.map Prod.snd).map fun c => (c, signal) } := by
  induction entries generalizing m with
  | nil => simp
  | cons e entries ih =>
    obtain ⟨hprocess, hhandle⟩ := h e (List.mem_cons_self ..)
    have hstop : tryStop signal m e.1 = m.kill e.2 signal := by
      rw [tryStop, stop, hprocess, hhandle]
    have hrest := ih (m := m.kill e.2 signal) fun e' he' => h e' (List.mem_cons_of_mem e he')
    rw [List.map_cons, List.foldl_cons, hstop, hrest, kill]
    simp

/-- The loop that an exception would end is not ended. -/
theorem stopEach_eq_foldl (entries : List (ℕ × Child)) {m : Manager}
    (h : ∀ e ∈ entries, m.processes.get? e.1 = some e.2 ∧ m.handles.get? e.1 = some e.2) :
    m.stopEach (entries.map Prod.fst) = (entries.map Prod.fst).foldl (tryStop .sigterm) m := by
  induction entries generalizing m with
  | nil => rfl
  | cons e entries ih =>
    obtain ⟨hprocess, hhandle⟩ := h e (List.mem_cons_self ..)
    have hstop : m.stop e.1 .sigterm = .ok (e.2, m.kill e.2 .sigterm) := by rw [stop, hprocess, hhandle]
    rw [List.map_cons, List.foldl_cons, stopEach, tryStop, hstop]
    exact ih fun e' he' => h e' (List.mem_cons_of_mem e he')

/-- Both maps have the children in `handles`. -/
theorem Consistent.of_mem_handles {m : Manager} (h : Consistent m) {e : ℕ × Child} (he : e ∈ m.handles.entries) :
    m.processes.get? e.1 = some e.2 ∧ m.handles.get? e.1 = some e.2 := by
  have hhandle := JsMap.get?_of_mem he
  obtain ⟨info, hinfo, halive, hpid⟩ := h.handle e.1 e.2 hhandle
  rw [← hpid]
  exact h.recorded e.2 info hinfo halive

theorem Consistent.mem_handles_iff {m : Manager} (h : Consistent m) (c : Child) :
    c ∈ m.handles.values ↔ m.IsAlive c := by
  constructor
  · intro hc
    obtain ⟨e, he, rfl⟩ := List.mem_map.mp hc
    obtain ⟨info, hinfo, halive, -⟩ := h.handle e.1 e.2 (JsMap.get?_of_mem he)
    exact ⟨info, hinfo, halive⟩
  · rintro ⟨info, hinfo, halive⟩
    exact List.mem_map.mpr ⟨(info.pid, c), JsMap.mem_entries_iff.mpr (h.recorded c info hinfo halive).2, rfl⟩

/-- No child is in `handles` twice. -/
theorem Consistent.nodup_handles {m : Manager} (h : Consistent m) : m.handles.values.Nodup := by
  apply List.Nodup.map_on _ m.handles.nodup.of_map
  intro e he f hf heq
  obtain ⟨info, hinfo, -, hpid⟩ := h.handle e.1 e.2 (JsMap.get?_of_mem he)
  obtain ⟨info', hinfo', -, hpid'⟩ := h.handle f.1 f.2 (JsMap.get?_of_mem hf)
  rw [← heq, hinfo] at hinfo'
  rw [← Option.some.inj hinfo'] at hpid'
  exact Prod.ext (hpid.symm.trans hpid') heq

theorem stopAll_eq {m : Manager} (h : Consistent m) (signal : Signal) :
    m.stopAll signal = (m.handles.values.length,
      { m with signals := m.signals ++ m.handles.values.map fun c => (c, signal) }) := by
  apply Prod.ext
  · rw [stopAll, JsMap.keys, JsMap.values, List.length_map, List.length_map]
  · exact foldl_tryStop signal m.handles.entries fun _ he => h.of_mem_handles he

theorem onModuleDestroy_eq {m : Manager} (h : Consistent m) : m.onModuleDestroy = (m.stopAll .sigterm).2 :=
  stopEach_eq_foldl m.handles.entries fun _ he => h.of_mem_handles he

/-! ### Finished processes -/

theorem isFinished_iff {m : Manager} {c : Child} {info : ConsumerProcessInfo} (h : m.children[c]? = some info) :
    m.isFinished c = true ↔ info.alive = false := by
  rw [isFinished, h]
  simp

/-- What is cleared are the entries of finished processes. -/
theorem entries_clearFinished {m : Manager} (h : Consistent m) :
    m.clearFinished.2.processes.entries = m.processes.entries.filter fun e => !m.isFinished e.2 := by
  have hdelete := JsMap.entries_foldl_delete ((m.processes.values.filter m.isFinished).filterMap m.pidOf)
    m.processes
  rw [clearFinished, hdelete]
  apply List.filter_congr
  intro e he
  have hrecord : ∀ f ∈ m.processes.entries, m.pidOf f.2 = some f.1 := by
    intro f hf
    obtain ⟨info, hinfo, hpid⟩ := h.record f.1 f.2 (JsMap.get?_of_mem hf)
    rw [pidOf, hinfo, Option.map_some, hpid]
  have hmem : e.1 ∈ (m.processes.values.filter m.isFinished).filterMap m.pidOf ↔ m.isFinished e.2 = true := by
    rw [List.mem_filterMap]
    constructor
    · rintro ⟨c, hc, hpid⟩
      obtain ⟨hvalue, hfinished⟩ := List.mem_filter.mp hc
      obtain ⟨f, hf, rfl⟩ := List.mem_map.mp hvalue
      -- the pid leads back to one entry
      have hkey : f.1 = e.1 := Option.some.inj ((hrecord f hf).symm.trans hpid)
      have hsame := (JsMap.get?_of_mem hf).symm.trans (hkey ▸ JsMap.get?_of_mem he)
      rwa [← Option.some.inj hsame]
    · intro hfinished
      exact ⟨e.2, List.mem_filter.mpr ⟨List.mem_map_of_mem he, hfinished⟩, hrecord e he⟩
  simp [hmem]

/-- Which records are left. -/
theorem get?_clearFinished {m : Manager} (h : Consistent m) (pid : ℕ) (c : Child) :
    m.clearFinished.2.processes.get? pid = some c ↔ m.processes.get? pid = some c ∧ m.IsAlive c := by
  rw [← JsMap.mem_entries_iff, entries_clearFinished h, List.mem_filter, JsMap.mem_entries_iff]
  apply and_congr_right
  intro hrecord
  obtain ⟨info, hinfo, -⟩ := h.record pid c hrecord
  rw [isAlive_iff hinfo, Bool.not_eq_true', ← Bool.not_eq_true, isFinished_iff hinfo]
  simp

/-- The number that is returned is how many records are cleared. -/
theorem size_clearFinished {m : Manager} (h : Consistent m) :
    m.clearFinished.1 + m.clearFinished.2.processes.size = m.processes.size := by
  have hcount : m.clearFinished.1 = (m.processes.entries.filter fun e => m.isFinished e.2).length := by
    rw [clearFinished, JsMap.values, List.filter_map, List.length_map]
    rfl
  rw [hcount, JsMap.size, JsMap.size, entries_clearFinished h]
  exact (List.length_eq_length_filter_add _).symm

theorem consistent_clearFinished {m : Manager} (h : Consistent m) : Consistent m.clearFinished.2 := by
  refine ⟨?_, h.handle, ?_⟩
  · intro c info hinfo halive
    obtain ⟨hprocess, hhandle⟩ := h.recorded c info hinfo halive
    exact ⟨(get?_clearFinished h info.pid c).mpr ⟨hprocess, (isAlive_iff hinfo).mpr halive⟩, hhandle⟩
  · intro pid c hrecord
    exact h.record pid c ((get?_clearFinished h pid c).mp hrecord).1

/-! ### Every run -/

theorem consistent_tryStop {m : Manager} (h : Consistent m) (signal : Signal) (pid : ℕ) :
    Consistent (tryStop signal m pid) := by
  rw [tryStop, stop]
  split
  · rename_i heq
    split at heq
    · cases heq
    · split at heq
      · cases heq
      · cases heq
        exact h.of_same rfl rfl rfl
  · exact h

/-- **Every event keeps the maps consistent.** -/
theorem consistent_step {m m' : Manager} {event : Event} (h : Consistent m) (hstep : m.step event = some m') :
    Consistent m' := by
  cases event with
  | spawn call =>
    rw [step] at hstep
    split at hstep
    · rename_i hfree
      split at hstep
      · rename_i hspawn
        obtain ⟨pid, options, hpid, -, rfl⟩ := spawnConsumer_ok hspawn
        rw [← Option.some.inj hstep]
        exact consistent_spawn h (hfree pid hpid) call.startedAt options
      · rw [← Option.some.inj hstep]
        exact h
    · cases hstep
  | output c chunk =>
    rw [step] at hstep
    split at hstep
    · rw [← Option.some.inj hstep]
      exact consistent_output h c chunk
    · cases hstep
  | exit c code signal =>
    rw [step] at hstep
    split at hstep
    · rename_i halive
      rw [← Option.some.inj hstep]
      exact consistent_exit h halive code signal
    · cases hstep
  | stop pid signal =>
    rw [← Option.some.inj hstep]
    exact consistent_tryStop h signal pid
  | stopAll signal =>
    rw [← Option.some.inj hstep, stopAll_eq h]
    exact h.of_same rfl rfl rfl
  | clearFinished =>
    rw [← Option.some.inj hstep]
    exact consistent_clearFinished h
  | destroy =>
    rw [← Option.some.inj hstep, onModuleDestroy_eq h, stopAll_eq h]
    exact h.of_same rfl rfl rfl

theorem consistent_of_reachable {m : Manager} (h : Reachable step start m) : Consistent m :=
  h.invariant consistent_start fun _ _ _ ht _ hstep => consistent_step ht hstep

/-- What the table promises between the calls. -/
structure TableHolds (m : Manager) : Prop where
  /-- `handles` has exactly the pids whose record is alive. -/
  handles : ∀ pid, m.handles.has pid = true ↔ ∃ c, m.processes.get? pid = some c ∧ m.IsAlive c
  /-- A child that is alive is recorded under its pid. -/
  recorded : ∀ c info, m.children[c]? = some info → info.alive = true → m.processes.get? info.pid = some c
  /-- `stop` signals the child that is recorded under the pid and alive. -/
  stopAlive : ∀ pid c signal, m.processes.get? pid = some c → m.IsAlive c →
    m.pidOf c = some pid ∧ m.stop pid signal = .ok (c, m.kill c signal)
  /-- `stop` throws for a pid that is not known. -/
  stopUnknown : ∀ pid signal, m.processes.get? pid = none →
    m.stop pid signal = .error s!"그런 컨슈머 프로세스가 없습니다: pid={pid}"
  /-- And for a process that has ended. -/
  stopFinished : ∀ pid c signal, m.processes.get? pid = some c → ¬ m.IsAlive c →
    m.stop pid signal = .error s!"이미 종료된 프로세스입니다: pid={pid}"
  /-- `stopAll` signals every child that is alive, once, and no other. -/
  stopAll : ∀ signal, ∃ live : List Child, live.Nodup ∧ (∀ c, c ∈ live ↔ m.IsAlive c) ∧
    m.stopAll signal = (live.length, { m with signals := m.signals ++ live.map fun c => (c, signal) })
  /-- `clearFinished` leaves the records of processes that are alive. -/
  cleared : ∀ pid c, m.clearFinished.2.processes.get? pid = some c ↔ m.processes.get? pid = some c ∧ m.IsAlive c
  /-- It returns how many it removes. -/
  clearedCount : m.clearFinished.1 + m.clearFinished.2.processes.size = m.processes.size
  /-- And changes nothing else. -/
  clearedOnly : m.clearFinished.2 = { m with processes := m.clearFinished.2.processes }

theorem Consistent.handles_iff {m : Manager} (h : Consistent m) (pid : ℕ) :
    m.handles.has pid = true ↔ ∃ c, m.processes.get? pid = some c ∧ m.IsAlive c := by
  rw [JsMap.has, Option.isSome_iff_exists]
  constructor
  · rintro ⟨c, hc⟩
    obtain ⟨info, hinfo, halive, rfl⟩ := h.handle pid c hc
    exact ⟨c, (h.recorded c info hinfo halive).1, info, hinfo, halive⟩
  · rintro ⟨c, hrecord, info, hinfo, halive⟩
    obtain ⟨info', hinfo', hpid⟩ := h.record pid c hrecord
    rw [hinfo] at hinfo'
    rw [← Option.some.inj hinfo'] at hpid
    exact ⟨c, hpid ▸ (h.recorded c info hinfo halive).2⟩

/-- **The table of processes is consistent after every run**, in which pids are given again. -/
theorem tableHolds_of_reachable {m : Manager} (h : Reachable step start m) : TableHolds m := by
  have hm := consistent_of_reachable h
  refine ⟨hm.handles_iff, fun c info hinfo halive => (hm.recorded c info hinfo halive).1, ?_,
    fun pid signal hnone => stop_of_unknown hnone signal,
    fun pid c signal hrecord hfinished => stop_of_finished hm hrecord hfinished signal,
    fun signal => ⟨_, hm.nodup_handles, hm.mem_handles_iff, stopAll_eq hm signal⟩,
    get?_clearFinished hm, size_clearFinished hm, rfl⟩
  intro pid c signal hrecord halive
  obtain ⟨info, hinfo, hpid⟩ := hm.record pid c hrecord
  refine ⟨?_, stop_of_isAlive hm hrecord halive signal⟩
  rw [pidOf, hinfo, Option.map_some, hpid]

/-- A call of `spawnConsumer` with the default options. -/
def spawnDefault (pid : ℕ) : Event :=
  .spawn { scriptPath := "dist/consumer.js", scriptExists := true, options := {}, pid := some pid, startedAt := 0 }

/-- A process ends, its pid is given to the next one, and `stop` signals the new child. -/
theorem tableHolds_of_reuse : ∃ m, Reachable step start m ∧
    (m.children.length, m.processes.get? 100, m.handles.get? 100, m.signals) =
      (2, some 1, some 1, [(1, .sigkill)]) ∧ TableHolds m := by
  obtain ⟨m, hreach, hview⟩ := exists_reaches_of_runEvents step (fun _ _ => True)
    (fun m => (m.children.length, m.processes.get? 100, m.handles.get? 100, m.signals)) (s := start)
    [spawnDefault 100, .exit 0 (some 1) none, spawnDefault 100, .stop 100 .sigkill]
    (2, some 1, some 1, [(1, .sigkill)]) (by decide +kernel)
  exact ⟨m, hreach, hview, tableHolds_of_reachable hreach⟩

end Manager

end BulkTraffic.Lab
