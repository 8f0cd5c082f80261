import BulkTraffic.Queue.CustomWorkload

/-!
# The fallback counter

`workloadGeneralQueueFallbackCount` is counted up in the middle of `normalizeEnqueueOptions`, where
a workload type is not recognised. Options read after it can still be refused, and so can the task,
for memory pressure or overflow; the counter then keeps what it has counted.

So it counts the accepted tasks of unknown type in the runs in which no call is refused once its
workload type has fallen back (`fallbackCount_of_reaches`). Any other call breaks this for good
(`enqueue_of_refusedLater`).
-/

namespace BulkTraffic.Queue

open BulkTraffic.Lib BulkTraffic.Js

/-- The workload type is given, and not one of the three the pool knows. -/
def EnqueueOptions.FallsBack (options : EnqueueOptions) : Prop :=
  ∃ text, options.workloadType = .str text ∧ text ≠ "" ∧
    toLowerCase (trim text) ∉ ["cpu", "memory", "custom"]

namespace QueueOptionsParser

variable {p : QueueOptionsParser} {options : EnqueueOptions}

/-- A workload type that falls back is counted. -/
theorem parseWorkloadTypeOption_of_fallsBack (h : options.FallsBack) :
    p.parseWorkloadTypeOption options.workloadType = (.ok (some .unknown),
      { p with workloadGeneralQueueFallbackCount := p.workloadGeneralQueueFallbackCount + 1 }) := by
  obtain ⟨text, htext, hne, hmiss⟩ := h
  simp only [List.mem_cons, List.not_mem_nil, or_false, not_or] at hmiss
  obtain ⟨hcpu, hmemory, hcustom⟩ := hmiss
  have hblank : isBlank (.str text) = false := by simpa [isBlank] using hne
  simp only [htext, parseWorkloadTypeOption, hblank, hcpu, hmemory, hcustom, if_false, Bool.false_eq_true]

/-- Every other workload type leaves the counter alone, and is not unknown. -/
theorem parseWorkloadTypeOption_of_not_fallsBack (h : ¬ options.FallsBack) :
    (p.parseWorkloadTypeOption options.workloadType).2 = p ∧
      (p.parseWorkloadTypeOption options.workloadType).1 ≠ .ok (some .unknown) := by
  unfold parseWorkloadTypeOption
  split
  · exact ⟨rfl, fun heq => by cases heq⟩
  · rename_i hblank
    split
    · rename_i text htext
      dsimp only
      split
      · exact ⟨rfl, fun heq => by cases heq⟩
      · rename_i hcpu
        split
        · exact ⟨rfl, fun heq => by cases heq⟩
        · rename_i hmemory
          split
          · refine ⟨rfl, fun heq => ?_⟩
            dsimp only at heq
            split at heq <;> cases heq
          · rename_i hcustom
            refine absurd ⟨text, htext, ?_, by simp [hcpu, hmemory, hcustom]⟩ h
            rintro rfl
            exact hblank (htext ▸ rfl)
    · exact ⟨rfl, fun heq => by cases heq⟩

/-- The parser after it has counted a workload type that fell back. -/
def countFallback (p : QueueOptionsParser) : QueueOptionsParser :=
  { p with workloadGeneralQueueFallbackCount := p.workloadGeneralQueueFallbackCount + 1 }

/-- Options whose workload type is not read, or does not fall back, are not counted. -/
theorem normalizeEnqueueOptions_of_not_counted {defaultTimeout : ℕ}
    (h : options.FallsBack → ∀ leading, parseLeading options defaultTimeout ≠ .ok leading) :
    (p.normalizeEnqueueOptions options defaultTimeout).2 = p ∧
      ∀ n, (p.normalizeEnqueueOptions options defaultTimeout).1 = .ok n → n.workloadType ≠ some .unknown := by
  unfold normalizeEnqueueOptions
  cases hleading : parseLeading options defaultTimeout with
  | error message => exact ⟨rfl, fun n hn => by cases hn⟩
  | ok leading =>
    obtain ⟨priority, category, size, timeout⟩ := leading
    have hnot : ¬ options.FallsBack := fun hfalls => h hfalls _ hleading
    obtain ⟨hparser, htype⟩ := parseWorkloadTypeOption_of_not_fallsBack (p := p) hnot
    generalize p.parseWorkloadTypeOption options.workloadType = parsed at hparser htype
    obtain ⟨workloadType, q⟩ := parsed
    obtain rfl : q = p := hparser
    cases workloadType with
    | error message => exact ⟨rfl, fun n hn => by cases hn⟩
    | ok workloadType =>
      dsimp only at htype ⊢
      cases q.parseTrailing options with
      | error message => exact ⟨rfl, fun n hn => by cases hn⟩
      | ok trailing =>
        refine ⟨rfl, fun n hn => ?_⟩
        cases hn
        exact fun heq => htype (congrArg Except.ok heq)

/-- A workload type that falls back is counted before the other options are read. -/
theorem normalizeEnqueueOptions_of_counted {defaultTimeout : ℕ} {priority : ℤ} {category : String}
    {size timeout : ℕ} (h : options.FallsBack)
    (hleading : parseLeading options defaultTimeout = .ok (priority, category, size, timeout)) :
    (p.normalizeEnqueueOptions options defaultTimeout).2 = p.countFallback ∧
      ((∃ message, p.parseTrailing options = .error message ∧
        (p.normalizeEnqueueOptions options defaultTimeout).1 = .error message) ∨
      ∃ trailing n, p.parseTrailing options = .ok trailing ∧
        (p.normalizeEnqueueOptions options defaultTimeout).1 = .ok n ∧
          n.workloadType = some .unknown ∧ n.priority = priority) := by
  have hsame : parseTrailing p.countFallback options = p.parseTrailing options := rfl
  unfold normalizeEnqueueOptions
  rw [hleading]
  dsimp only
  rw [parseWorkloadTypeOption_of_fallsBack h]
  dsimp only
  rw [← hsame]
  unfold countFallback
  split
  · rename_i message htrailing
    exact ⟨rfl, .inl ⟨message, htrailing, rfl⟩⟩
  · rename_i params functionCode htrailing
    exact ⟨rfl, .inr ⟨_, _, htrailing, rfl, rfl, rfl⟩⟩

end QueueOptionsParser

namespace QueueSystem

variable {s u : QueueSystem}

/-- What was accepted and counted is as before. -/
structure SameIntake (s u : QueueSystem) : Prop where
  parser : u.parser = s.parser
  accepted : u.accepted = s.accepted

theorem SameIntake.trans {t : QueueSystem} (h : SameIntake s t) (h' : SameIntake t u) : SameIntake s u :=
  ⟨h'.parser.trans h.parser, h'.accepted.trans h.accepted⟩

/-- A change of other fields comes first. -/
theorem SameIntake.after {t : QueueSystem} (h : SameIntake t u) (h' : SameIntake s t) : SameIntake s u :=
  h'.trans h

theorem sameIntake_rearm (s : QueueSystem) : SameIntake s s.rearm :=
  ⟨parser_rearm s, (sameTasks_rearm s).accepted⟩

theorem sameIntake_onBatchComplete (s : QueueSystem) (processed : ℕ) (activeChange : ℤ) (failed : ℕ) :
    SameIntake s (s.onBatchComplete processed activeChange failed) :=
  ⟨parser_onBatchComplete _ _ _ _, (sameTasks_onBatchComplete _ _ _ _).accepted⟩

theorem sameIntake_afterPool (s : QueueSystem) (result : WorkerPoolService × List Call) :
    SameIntake s (s.afterPool result) :=
  ⟨parser_callbacks result.2 _, (sameTasks_callbacks result.2 _).accepted⟩

theorem sameIntake_processQueue (post : PostMessage) (s : QueueSystem) : SameIntake s (s.processQueue post) := by
  have hdrained : ∀ slots, SameIntake s (s.drainQueues slots).1 := by
    intro slots
    rw [drainQueues_eq]
    exact ⟨rfl, rfl⟩
  refine processQueue_rule (P := SameIntake s) ⟨rfl, rfl⟩ (fun slots _ => hdrained slots)
    (fun t ht => ?_) fun t ht => ?_
  · exact ht.trans (sameIntake_afterPool _ _)
  · exact ht.trans (sameIntake_rearm _)

theorem sameIntake_processBatch (s : QueueSystem) (category : String) (now : ℕ) :
    SameIntake s (s.processBatch category now) := by
  obtain ⟨taken, rfl, ⟨-, hb⟩ | hb⟩ := processBatch_cases s category now
  · rw [hb]
    exact ⟨rfl, rfl⟩
  · rw [hb]
    exact (sameIntake_onBatchComplete _ _ _ _).after ⟨rfl, rfl⟩

theorem sameIntake_processBatches (due : TaskBatch → Bool) (now : ℕ) (categories : List String)
    (s : QueueSystem) : SameIntake s (processBatches due now categories s) :=
  processBatches_rule (P := SameIntake s)
    (fun t category h => h.trans (sameIntake_processBatch t category now)) categories ⟨rfl, rfl⟩

theorem sameIntake_checkMemoryUsage (s : QueueSystem) (usage : MemoryUsage) (now : ℕ) :
    SameIntake s (s.checkMemoryUsage usage now) := by
  refine checkMemoryUsage_rule (P := SameIntake s) ⟨rfl, rfl⟩ (fun t h => ?_) (fun t h => ?_) fun t h => ?_
  · exact h.trans ⟨rfl, rfl⟩
  · refine h.trans (SameIntake.trans (t := processBatches MemoryService.isHeavy now _ _) ?_ ⟨rfl, rfl⟩)
    exact (sameIntake_processBatches MemoryService.isHeavy now _ _).after ⟨rfl, rfl⟩
  · exact h.trans ⟨rfl, rfl⟩

theorem sameIntake_onQueueWaitTimeout (s : QueueSystem) (task : QueueTask) :
    SameIntake s (s.onQueueWaitTimeout task) := by
  rw [onQueueWaitTimeout]
  split
  · exact ⟨rfl, rfl⟩
  · exact ⟨rfl, rfl⟩

/-- Only `enqueue` reads options. -/
theorem sameIntake_of_step {e : QueueEvent} (hu : s.step e = some u)
    (he : ∀ options now, e ≠ .enqueue options now) : SameIntake s u := by
  cases takes_of_step hu with
  | enqueue options now => exact absurd rfl (he options now)
  | @processSignal post _ => exact (sameIntake_processQueue post _).after ⟨rfl, rfl⟩
  | tasksWait _ => exact ⟨rfl, rfl⟩
  | nothingWaits _ => exact ⟨rfl, rfl⟩
  | @batchTrigger _ now _ _ => exact (sameIntake_processBatch _ _ now).after ⟨rfl, rfl⟩
  | batchAgingTimer now => exact sameIntake_processBatches _ now _ s
  | memoryCheckTimer usage now => exact sameIntake_checkMemoryUsage s usage now
  | statsLogTimer => exact ⟨rfl, rfl⟩
  | queueWaitTimer _ => exact (sameIntake_onQueueWaitTimeout _ _).after ⟨rfl, rfl⟩
  | single hadvances =>
    obtain ⟨r, stage, -, -, rfl⟩ := advanceSingle_cases hadvances
    exact ⟨parser_countSingle _ _ _, (sameTasks_countSingle _ _ _).accepted⟩
  | member hadvances =>
    obtain ⟨g, r, stage, -, -, -, rfl⟩ := advanceMember_cases hadvances
    exact ⟨rfl, rfl⟩
  | finallySingle hleaves =>
    obtain ⟨r, -, -, rfl⟩ := finallySingle_cases hleaves
    exact ⟨rfl, rfl⟩
  | finallyGroup hleaves =>
    obtain ⟨g, -, -, rfl⟩ := finallyGroup_cases hleaves
    exact (sameIntake_onBatchComplete _ _ _ _).after ⟨rfl, rfl⟩
  | workerMessage _ => exact (sameIntake_afterPool _ _).after ⟨rfl, rfl⟩
  | workerFailure _ => exact sameIntake_afterPool _ _

/-! ### `enqueue` -/

/-- The accepted tasks of unknown type. -/
def unknownAccepted (s : QueueSystem) : ℕ := s.accepted.countP fun task => task.workloadType == some .unknown

/-- Once the workload type has fallen back, nothing refuses the call. -/
def CountsAccepted (s : QueueSystem) : QueueEvent → Prop
  | .enqueue options _ => ∀ priority category size timeout,
    QueueOptionsParser.parseLeading options s.state.config.executionTimeoutMs =
        .ok (priority, category, size, timeout) → options.FallsBack →
      (∃ trailing, s.parser.parseTrailing options = .ok trailing) ∧
        ¬ (s.memoryPressure = true ∧ priority < 0) ∧
        s.state.getTotalQueueLength < s.state.config.queueOverflowThreshold
  | _ => True

theorem sameIntake_place (s : QueueSystem) (task : QueueTask) (batch : Bool) (now : ℕ) :
    SameIntake s (s.place task batch now) := by
  unfold place
  split
  · exact ⟨rfl, rfl⟩
  · split
    · exact ⟨rfl, rfl⟩
    · split
      · exact ⟨rfl, rfl⟩
      · exact ⟨rfl, rfl⟩

/-- A task that is accepted keeps the type that was read. -/
theorem accept_intake (s : QueueSystem) (normalized : NormalizedEnqueueOptions) (now : ℕ) :
    (s.accept normalized now).parser = s.parser ∧
      (s.accept normalized now).unknownAccepted =
        s.unknownAccepted + if normalized.workloadType = some .unknown then 1 else 0 := by
  obtain ⟨hparser, haccepted⟩ := sameIntake_place (s.register (s.newTask normalized now))
    (s.newTask normalized now) normalized.batch now
  refine ⟨hparser, ?_⟩
  have hlist : (s.accept normalized now).accepted = s.accepted ++ [s.newTask normalized now] := haccepted
  rw [unknownAccepted, hlist, List.countP_append, List.countP_singleton, unknownAccepted]
  congr 1
  exact if_congr beq_iff_eq rfl rfl

/-- A call that is not counted accepts no task of unknown type. -/
theorem enqueue_of_not_counted {options : EnqueueOptions} (now : ℕ)
    (h : options.FallsBack → ∀ leading,
      QueueOptionsParser.parseLeading options s.state.config.executionTimeoutMs ≠ .ok leading) :
    (s.enqueue options now).2.parser = s.parser ∧
      (s.enqueue options now).2.unknownAccepted = s.unknownAccepted ∧
      ∀ message, (s.enqueue options now).1 = .error message → (s.enqueue options now).2.state = s.state := by
  obtain ⟨hparser, htype⟩ := QueueOptionsParser.normalizeEnqueueOptions_of_not_counted (p := s.parser) h
  unfold enqueue
  generalize s.parser.normalizeEnqueueOptions options s.state.config.executionTimeoutMs = parsed
    at hparser htype
  obtain ⟨normalized, parser⟩ := parsed
  obtain rfl : parser = s.parser := hparser
  cases normalized with
  | error message => exact ⟨rfl, rfl, fun _ _ => rfl⟩
  | ok normalized =>
    dsimp only
    split
    · exact ⟨rfl, rfl, fun _ _ => rfl⟩
    · split
      · exact ⟨rfl, rfl, fun _ _ => rfl⟩
      · obtain ⟨haccept, hunknown⟩ := s.accept_intake normalized now
        rw [if_neg (htype normalized rfl), Nat.add_zero] at hunknown
        exact ⟨haccept, hunknown, fun message herror => by cases herror⟩

/-- **A call that is counted is accepted, or leaves the counter one too high.** -/
theorem enqueue_of_counted {options : EnqueueOptions} (now : ℕ) (h : options.FallsBack)
    {priority : ℤ} {category : String} {size timeout : ℕ}
    (hleading : QueueOptionsParser.parseLeading options s.state.config.executionTimeoutMs =
      .ok (priority, category, size, timeout)) :
    (s.enqueue options now).2.parser = s.parser.countFallback ∧
      ((s.CountsAccepted (.enqueue options now) ∧ (∃ task, (s.enqueue options now).1 = .ok task) ∧
        (s.enqueue options now).2.unknownAccepted = s.unknownAccepted + 1) ∨
      (¬ s.CountsAccepted (.enqueue options now) ∧
        (∃ message, (s.enqueue options now).1 = .error message) ∧
        (s.enqueue options now).2.unknownAccepted = s.unknownAccepted)) := by
  obtain ⟨hparser, hcases⟩ := QueueOptionsParser.normalizeEnqueueOptions_of_counted (p := s.parser) h hleading
  have hcounts : s.CountsAccepted (.enqueue options now) ↔
      (∃ trailing, s.parser.parseTrailing options = .ok trailing) ∧
        ¬ (s.memoryPressure = true ∧ priority < 0) ∧
        s.state.getTotalQueueLength < s.state.config.queueOverflowThreshold := by
    constructor
    · exact fun hok => hok priority category size timeout hleading h
    · intro hadmitted priority' category' size' timeout' hleading' _
      obtain ⟨rfl, -⟩ := Prod.mk.inj (Except.ok.inj (hleading.symm.trans hleading'))
      exact hadmitted
  rw [hcounts]
  unfold enqueue
  generalize s.parser.normalizeEnqueueOptions options s.state.config.executionTimeoutMs = parsed
    at hparser hcases
  obtain ⟨normalized, parser⟩ := parsed
  obtain rfl : parser = s.parser.countFallback := hparser
  rcases hcases with ⟨message, htrailing, hresult⟩ | ⟨trailing, n, htrailing, hresult, htype, rfl⟩
  · obtain rfl : normalized = .error message := hresult
    refine ⟨rfl, .inr ⟨?_, ⟨message, rfl⟩, rfl⟩⟩
    rintro ⟨⟨trailing, hok⟩, -⟩
    exact absurd (htrailing.symm.trans hok) (by simp)
  · obtain rfl : normalized = .ok n := hresult
    dsimp only
    split
    · rename_i hpressure
      exact ⟨rfl, .inr ⟨fun hok => hok.2.1 (by simpa using hpressure), ⟨_, rfl⟩, rfl⟩⟩
    · rename_i hpressure
      split
      · rename_i hfull
        exact ⟨rfl, .inr ⟨fun hok => absurd hok.2.2 (Nat.not_lt.mpr hfull), ⟨_, rfl⟩, rfl⟩⟩
      · rename_i hroom
        obtain ⟨haccept, hunknown⟩ := ({ s with parser := s.parser.countFallback } : QueueSystem).accept_intake n now
        rw [if_pos htype] at hunknown
        refine ⟨haccept, .inl ⟨⟨⟨trailing, htrailing⟩, ?_, Nat.lt_of_not_le hroom⟩, ⟨_, rfl⟩, hunknown⟩⟩
        simpa using hpressure

/-- Either nothing is counted, or the leading options are read and the type falls back. -/
theorem counted_or_not (s : QueueSystem) (options : EnqueueOptions) :
    (options.FallsBack → ∀ leading,
      QueueOptionsParser.parseLeading options s.state.config.executionTimeoutMs ≠ .ok leading) ∨
    options.FallsBack ∧ ∃ priority category size timeout,
      QueueOptionsParser.parseLeading options s.state.config.executionTimeoutMs =
        .ok (priority, category, size, timeout) := by
  by_cases h : options.FallsBack
  · cases hleading : QueueOptionsParser.parseLeading options s.state.config.executionTimeoutMs with
    | error message => exact .inl fun _ leading heq => by cases heq
    | ok leading => exact .inr ⟨h, leading.1, leading.2.1, leading.2.2.1, leading.2.2.2, rfl⟩
  · exact .inl fun hfalls => absurd hfalls h

/-- A refused call that meets the condition leaves the counter and the queues alone. -/
theorem enqueue_refused {options : EnqueueOptions} {now : ℕ} {message : String}
    (hok : s.CountsAccepted (.enqueue options now)) (h : (s.enqueue options now).1 = .error message) :
    (s.enqueue options now).2.parser = s.parser ∧ (s.enqueue options now).2.state = s.state := by
  rcases s.counted_or_not options with hnot | ⟨hfalls, priority, category, size, timeout, hleading⟩
  · obtain ⟨hparser, -, hstate⟩ := enqueue_of_not_counted now hnot
    exact ⟨hparser, hstate message h⟩
  · obtain ⟨-, ⟨-, ⟨task, htask⟩, -⟩ | ⟨hnot, -⟩⟩ := enqueue_of_counted now hfalls hleading
    · cases htask.symm.trans h
    · exact absurd hok hnot

/-- The counter is the number of accepted tasks of unknown type. -/
def CounterExact (s : QueueSystem) : Prop :=
  s.parser.workloadGeneralQueueFallbackCount = s.unknownAccepted

/-- **A step that meets the condition keeps the counter exact.** -/
theorem CounterExact.step (h : s.CounterExact) {e : QueueEvent} (hok : s.CountsAccepted e)
    (hu : s.step e = some u) : u.CounterExact := by
  by_cases he : ∃ options now, e = .enqueue options now
  · obtain ⟨options, now, rfl⟩ := he
    obtain rfl : (s.enqueue options now).2 = u := Option.some.inj hu
    rw [CounterExact] at h ⊢
    rcases s.counted_or_not options with hnot | ⟨hfalls, priority, category, size, timeout, hleading⟩
    · obtain ⟨hparser, hunknown, -⟩ := enqueue_of_not_counted now hnot
      rw [hparser, hunknown, h]
    · obtain ⟨hparser, ⟨-, -, hunknown⟩ | ⟨hnot, -⟩⟩ := enqueue_of_counted now hfalls hleading
      · rw [hparser, hunknown, QueueOptionsParser.countFallback, h]
      · exact absurd hok hnot
  · obtain ⟨hparser, haccepted⟩ := sameIntake_of_step hu fun options now heq => he ⟨options, now, heq⟩
    rw [CounterExact, unknownAccepted, hparser, haccepted]
    exact h

/-- **The counter is exact in every run whose calls are not refused once they are counted**, and a
refused call changes neither the counter nor the queues. -/
theorem fallbackCount_of_reaches {config : QueueConfig} {taskIdCounter : ℕ} {stats : QueueStatsService}
    {allowCustomWorkload useWorkers : Bool} {workerCount : ℕ} {cpu memory custom : Option ℕ}
    (h : Reaches step CountsAccepted (initial config taskIdCounter stats allowCustomWorkload useWorkers
      workerCount cpu memory custom) s) :
    s.parser.workloadGeneralQueueFallbackCount = s.unknownAccepted ∧
      ∀ options now message, s.CountsAccepted (.enqueue options now) →
        (s.enqueue options now).1 = .error message →
          (s.enqueue options now).2.parser = s.parser ∧ (s.enqueue options now).2.state = s.state :=
  ⟨h.invariant (P := CounterExact) rfl fun _ _ _ hexact hok hu => hexact.step hok hu,
    fun _ _ _ hok herror => enqueue_refused hok herror⟩

/-- A task whose type is not recognised is accepted and counted. -/
theorem fallbackCount_of_accepted : ∃ s : QueueSystem, s.unknownAccepted = 1 ∧
    s.parser.workloadGeneralQueueFallbackCount = s.unknownAccepted := by
  have hok : (initial {} 0 {} false false 0 none none none).CountsAccepted
      (.enqueue { workloadType := .str "gpu" } 0) := by
    intro priority category size timeout _ _
    refine ⟨⟨([], none), rfl⟩, fun hpressure => ?_, by decide⟩
    exact Bool.noConfusion hpressure.1
  exact ⟨_, by decide +kernel, (fallbackCount_of_reaches (Reaches.single hok rfl)).1⟩

/-- The type is counted, and then `params` is refused. -/
theorem not_counterExact_of_refused : ∃ s : QueueSystem,
    Reachable step (initial {} 0 {} false false 0 none none none) s ∧
      s.parser.workloadGeneralQueueFallbackCount = 1 ∧ s.unknownAccepted = 0 := by
  obtain ⟨s, hs, hseen⟩ := exists_reaches_of_runEvents step (fun _ _ => True)
    (fun s => (s.parser.workloadGeneralQueueFallbackCount, s.unknownAccepted))
    (s := initial {} 0 {} false false 0 none none none)
    [.enqueue { workloadType := .str "gpu", params := .str "x" } 0] (1, 0) (by decide +kernel)
  exact ⟨s, hs, congrArg Prod.fst hseen, congrArg Prod.snd hseen⟩

end QueueSystem

end BulkTraffic.Queue
