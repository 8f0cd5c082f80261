import BulkTraffic.Orders.Consumer

/-!
# What the commit modes guarantee

Committing after the processing processes every message at least once, committing before it
processes every message at most once, whatever crashes there are.

Both rest on the position stored after a message being the next offset. `commit` computes it
in JavaScript numbers: it is right for offsets below `2 ^ 53` (`commitOffset_of_lt`), and for
`2 ^ 53` itself it stores the offset again.

* `AtLeastOnce`, `AtMostOnce`: the invariants of the two modes.
* `commitModes`: the guarantees, in runs whose commits store the next offset.
-/

namespace BulkTraffic.Orders

open BulkTraffic.Lib BulkTraffic.Js

/-- Below `2 ^ 53` the next offset is stored. -/
theorem commitOffset_of_lt {offset : ℕ} (h : offset < 2 ^ 53) : commitOffset offset = offset + 1 := by
  have hsum : roundNat (offset + 1) = offset + 1 := by
    rcases Nat.lt_or_eq_of_le (Nat.succ_le_of_lt h) with hlt | heq
    · exact roundNat_of_lt hlt
    · rw [← Nat.succ_eq_add_one, heq]
      decide
  rw [commitOffset, roundNat_of_lt h, hsum]
  exact shortestDecimal_of_le (Nat.succ_le_of_lt h)

/-- The first of the messages from a position on. -/
structure PartitionLog.Next (log : PartitionLog) (position : ℕ) (m : Message) : Prop where
  mem : m ∈ log.messages
  le : position ≤ m.offset
  first : ∀ a ∈ log.messages, position ≤ a.offset → m.offset ≤ a.offset

theorem PartitionLog.next_of_nextFrom {log : PartitionLog} {position : ℕ} {m : Message}
    (h : log.nextFrom position = some m) : log.Next position m := by
  refine ⟨List.mem_of_find?_eq_some h, by simpa using List.find?_some h, ?_⟩
  obtain ⟨-, before, after, hmessages, hbefore⟩ := List.find?_eq_some_iff_append.mp h
  intro a ha hle
  have hsorted := log.sorted
  rw [hmessages] at ha hsorted
  rcases List.mem_append.mp ha with ha | ha
  · have := hbefore a ha
    simp only [Bool.not_eq_true', decide_eq_false_iff_not] at this
    exact absurd hle this
  · rcases List.mem_cons.mp ha with rfl | ha
    · exact Nat.le_refl _
    · have hcons := (List.pairwise_append.mp hsorted).2.1
      exact Nat.le_of_lt ((List.pairwise_cons.mp hcons).1 a ha)

namespace ConsumerRun

variable {config : ConsumerConfig} {log : PartitionLog} {start : ℕ} {s u : ConsumerRun}

/-- A commit stores the offset after the message's. -/
def commitsNext (s : ConsumerRun) : ConsumerEvent → Bool
  | .commitStored =>
    match s.phase with
    | .committing m => commitOffset m.offset == m.offset + 1
    | _ => true
  | _ => true

/-! ### One step -/

/-- The message was processed with an error. -/
def countFailed (s : ConsumerRun) (m : Message) : ConsumerRun :=
  { s with failed := s.failed + 1, failures := s.failures ++ [m.offset] }

/-- What a step does whose commit, if it has one, stores the next offset. -/
inductive Moves (config : ConsumerConfig) (log : PartitionLog) (s : ConsumerRun) :
    ConsumerRun → Prop where
  | commitFirst (m : Message) : config.commitMode = .beforeProcess → s.phase = .idle →
      log.Next s.position m → Moves config log s { s with phase := .committing m }
  | processFirst (m : Message) : config.commitMode = .afterProcess → s.phase = .idle →
      log.Next s.position m → Moves config log s (s.startProcessing m)
  | commitStored (m : Message) : s.phase = .committing m →
      Moves config log s { s with phase := .committed m, committed := m.offset + 1 }
  | processNext (m : Message) : config.commitMode = .beforeProcess → s.phase = .committed m →
      Moves config log s (s.startProcessing m)
  | finish (m : Message) : config.commitMode = .afterProcess → s.phase = .committed m →
      Moves config log s (s.finishMessage m)
  | record (m : Message) : s.phase = .processing m →
      Moves config log s { s with phase := .recorded m, store := s.store ++ [m.offset] }
  | succeed (m : Message) : s.phase = .recorded m →
      Moves config log s ({ s with processed := s.processed + 1 }.afterProcessing config m)
  | fail (m : Message) : s.phase = .processing m ∨ s.phase = .recorded m →
      Moves config log s ((s.countFailed m).afterProcessing config m)
  | delayEnds (m : Message) : s.phase = .delaying m →
      Moves config log s { s with phase := .committing m }
  | count : s.phase = .idle → Moves config log s { s with processed := s.processed + 1 }
  | goDown : Moves config log s s.goDown
  | rejoin : s.phase = .down →
      Moves config log s { s with phase := .idle, position := s.committed, processed := 0, failed := 0 }

theorem moves_of_step {e : ConsumerEvent} (hok : s.commitsNext e = true)
    (hu : s.step config log e = some u) : s.Moves config log u := by
  cases e with
  | deliver =>
    simp only [step] at hu
    split at hu
    · rename_i m hidle hnext
      have hnext := PartitionLog.next_of_nextFrom hnext
      cases hu
      cases hmode : config.commitMode with
      | afterProcess => exact .processFirst m hmode hidle hnext
      | beforeProcess => exact .commitFirst m hmode hidle hnext
    · cases hu
  | commitStored =>
    simp only [step] at hu
    split at hu
    · rename_i m hphase
      obtain rfl := Option.some.inj hu
      have hexact : commitOffset m.offset = m.offset + 1 := by simpa [commitsNext, hphase] using hok
      rw [hexact]
      exact .commitStored m hphase
    · cases hu
  | commitReturns =>
    simp only [step] at hu
    split at hu
    · rename_i m hphase
      cases hu
      cases hmode : config.commitMode with
      | afterProcess => exact .finish m hmode hphase
      | beforeProcess => exact .processNext m hmode hphase
    · cases hu
  | eventStored =>
    simp only [step] at hu
    split at hu
    · rename_i m hphase
      split at hu
      · cases hu
        exact .record m hphase
      · cases hu
    · cases hu
  | processReturns =>
    simp only [step] at hu
    split at hu
    · rename_i m hphase
      cases hu
      exact .succeed m hphase
    · cases hu
  | processThrows =>
    simp only [step] at hu
    split at hu
    · rename_i m hphase
      cases hu
      exact .fail m (.inl hphase)
    · rename_i m hphase
      cases hu
      exact .fail m (.inr hphase)
    · cases hu
  | delayEnds =>
    simp only [step] at hu
    split at hu
    · rename_i m hphase
      cases hu
      exact .delayEnds m hphase
    · cases hu
  | disconnected =>
    simp only [step] at hu
    split at hu
    · cases hu
      exact .goDown
    · cases hu
  | processedElsewhere =>
    simp only [step] at hu
    split at hu
    · rename_i hidle
      cases hu
      exact .count hidle
    · cases hu
  | crash =>
    simp only [step] at hu
    split at hu
    · cases hu
    · cases hu
      exact .goDown
  | rejoin =>
    simp only [step] at hu
    split at hu
    · rename_i hdown
      cases hu
      exact .rejoin hdown
    · cases hu

/-! ### Counting -/

theorem Completed.recorded {n : ℕ} (h : s.Completed n) (phase : Phase) (m : Message) :
    Completed { s with phase := phase, store := s.store ++ [m.offset] } n :=
  h.imp (fun hn => List.mem_append_left _ hn) id

theorem Completed.failed {n : ℕ} (h : s.Completed n) (m : Message) :
    (s.countFailed m).Completed n :=
  h.imp id fun hn => List.mem_append_left _ hn

theorem starts_startProcessing (s : ConsumerRun) (m : Message) (n : ℕ) :
    (s.startProcessing m).starts n = s.starts n + if m.offset = n then 1 else 0 := by
  simp only [starts, startProcessing, List.count_append, List.count_singleton, beq_iff_eq]

theorem crashesWith_goDown (s : ConsumerRun) (n : ℕ) :
    s.goDown.crashesWith n = s.crashesWith n + if s.phase.inFlight = some n then 1 else 0 := by
  simp only [crashesWith, goDown, List.count_append, List.count_singleton, beq_iff_eq]

/-! ### At least once -/

/-- The invariant of committing after the processing. -/
structure AtLeastOnce (log : PartitionLog) (start : ℕ) (s : ConsumerRun) : Prop where
  /-- Below the committed position every message is processed. -/
  below : ∀ a ∈ log.messages, start ≤ a.offset → a.offset < s.committed → s.Completed a.offset
  /-- Only a crash with the message in flight makes `process` be called for it again. -/
  again : ∀ n, s.starts n ≤ 1 + s.crashesWith n
  /-- From the committed position on, every call was followed by a crash, but for the message
  in flight. -/
  above : ∀ n, s.committed ≤ n →
    s.starts n ≤ s.crashesWith n + if s.phase.inFlight = some n then 1 else 0
  phase : match s.phase with
    | .down => True
    | .idle => s.position = s.committed
    | .processing m => log.Next s.committed m
    | .recorded m | .delaying m | .committing m | .leaving m =>
      log.Next s.committed m ∧ s.Completed m.offset
    | .committed m => s.committed = m.offset + 1

/-- `handleMessage` after the `try` statement, with the message processed. -/
theorem AtLeastOnce.afterProcessing (hmode : config.commitMode = .afterProcess)
    (h : AtLeastOnce log start s) {m : Message} (hphase : s.phase.inFlight = some m.offset)
    (hnext : log.Next s.committed m) (hdone : s.Completed m.offset) :
    AtLeastOnce log start (s.afterProcessing config m) := by
  have hmove : ∀ p : Phase, p.inFlight = some m.offset →
      (match p with
        | .recorded m | .delaying m | .committing m | .leaving m =>
          log.Next s.committed m ∧ s.Completed m.offset
        | _ => False) → AtLeastOnce log start { s with phase := p } := by
    intro p hp hok
    refine ⟨h.below, h.again, ?_, ?_⟩
    · intro n hn
      have := h.above n hn
      rw [hphase] at this
      change s.starts n ≤ s.crashesWith n + if p.inFlight = some n then 1 else 0
      rw [hp]
      exact this
    · cases p <;> first | exact hok | exact hok.elim
  unfold ConsumerRun.afterProcessing
  split
  · exact hmove (.leaving m) rfl ⟨hnext, hdone⟩
  · rw [hmode]
    dsimp only
    split
    · exact hmove (.delaying m) rfl ⟨hnext, hdone⟩
    · exact hmove (.committing m) rfl ⟨hnext, hdone⟩

theorem AtLeastOnce.goDown (h : AtLeastOnce log start s) : AtLeastOnce log start s.goDown := by
  refine ⟨h.below, fun n => ?_, fun n hn => ?_, trivial⟩
  · have := h.again n
    rw [crashesWith_goDown]
    change s.starts n ≤ _
    omega
  · have := h.above n hn
    rw [crashesWith_goDown]
    exact this

/-- Every step whose commit stores the next offset keeps the invariant. -/
theorem AtLeastOnce.step (hmode : config.commitMode = .afterProcess) (h : AtLeastOnce log start s)
    (hu : s.Moves config log u) : AtLeastOnce log start u := by
  have hp := h.phase
  cases hu with
  | commitFirst m hbefore => rw [hmode] at hbefore; cases hbefore
  | processNext m hbefore => rw [hmode] at hbefore; cases hbefore
  | processFirst m hafter hidle hnext =>
    rw [hidle] at hp
    dsimp only at hp
    rw [hp] at hnext
    have habove := h.above
    simp only [hidle, Phase.inFlight, reduceCtorEq, if_false, Nat.add_zero] at habove
    refine ⟨h.below, fun n => ?_, fun n hn => ?_, hnext⟩
    · have hagain := h.again n
      rw [starts_startProcessing]
      change _ ≤ 1 + s.crashesWith n
      split
      · rename_i heq
        have := habove n (heq ▸ hnext.le)
        omega
      · omega
    · have := habove n hn
      rw [starts_startProcessing]
      change _ ≤ s.crashesWith n + if some m.offset = some n then 1 else 0
      simp only [Option.some.injEq]
      omega
  | commitStored m hphase =>
    -- the message is the last one below the new position, and it is processed
    rw [hphase] at hp
    obtain ⟨hnext, hdone⟩ := hp
    refine ⟨fun a ha hstart hlt => ?_, h.again, fun n hn => ?_, rfl⟩
    · rcases Nat.lt_or_ge a.offset s.committed with hold | hnew
      · exact h.below a ha hstart hold
      · have heq : a.offset = m.offset :=
          Nat.le_antisymm (Nat.lt_succ_iff.mp hlt) (hnext.first a ha hnew)
        rw [heq]
        exact hdone
    · have habove := h.above n (Nat.le_trans hnext.le (Nat.le_of_succ_le hn))
      rw [hphase] at habove
      exact habove
  | finish m hafter hphase =>
    rw [hphase] at hp
    dsimp only at hp
    refine ⟨h.below, h.again, fun n hn => ?_, hp.symm⟩
    have habove := h.above n hn
    rw [hphase] at habove
    change s.committed ≤ n at hn
    simp only [Phase.inFlight, Option.some.injEq] at habove
    rw [if_neg (by omega)] at habove
    exact habove
  | record m hphase =>
    rw [hphase] at hp
    refine ⟨fun a ha hstart hlt => ?_, h.again, fun n hn => ?_, hp, .inl (by simp)⟩
    · exact (h.below a ha hstart hlt).recorded _ m
    · have habove := h.above n hn
      rw [hphase] at habove
      exact habove
  | succeed m hphase =>
    rw [hphase] at hp
    have hcounted : AtLeastOnce log start { s with processed := s.processed + 1 } :=
      ⟨h.below, h.again, h.above, h.phase⟩
    exact hcounted.afterProcessing hmode (by simp [hphase, Phase.inFlight]) hp.1 hp.2
  | fail m hphase =>
    have hfailed : AtLeastOnce log start (s.countFailed m) := by
      refine ⟨fun a ha hstart hlt => (h.below a ha hstart hlt).failed m, h.again, h.above, ?_⟩
      unfold countFailed
      cases hcase : s.phase <;> rw [hcase] at hp <;> dsimp only at hp ⊢ <;>
        first | exact hp | exact ⟨hp.1, hp.2.failed m⟩
    refine hfailed.afterProcessing hmode ?_ ?_ (.inr (by simp [countFailed]))
    · rcases hphase with hphase | hphase <;> simp [countFailed, hphase, Phase.inFlight]
    · rcases hphase with hphase | hphase <;> rw [hphase] at hp
      · exact hp
      · exact hp.1
  | delayEnds m hphase =>
    rw [hphase] at hp
    refine ⟨h.below, h.again, fun n hn => ?_, hp⟩
    have habove := h.above n hn
    rw [hphase] at habove
    exact habove
  | count hidle => exact ⟨h.below, h.again, h.above, h.phase⟩
  | goDown => exact h.goDown
  | rejoin hdown =>
    refine ⟨h.below, h.again, fun n hn => ?_, rfl⟩
    have habove := h.above n hn
    rw [hdown] at habove
    exact habove

/-! ### At most once -/

/-- The invariant of committing before the processing. -/
structure AtMostOnce (log : PartitionLog) (start : ℕ) (s : ConsumerRun) : Prop where
  /-- Below the committed position only messages in flight, now or at a crash, are not processed. -/
  below : ∀ a ∈ log.messages, start ≤ a.offset → a.offset < s.committed →
    s.Completed a.offset ∨ s.phase.inFlight = some a.offset ∨ 0 < s.crashesWith a.offset
  once : ∀ n, s.starts n ≤ 1
  /-- From the committed position on, `process` was called for no message. -/
  above : ∀ n, s.committed ≤ n → s.starts n = 0
  phase : match s.phase with
    | .down => True
    | .idle => s.position = s.committed
    | .committing m => log.Next s.committed m
    | .committed m => s.committed = m.offset + 1 ∧ s.starts m.offset = 0
    | .processing m => s.committed = m.offset + 1
    | .recorded m | .leaving m => s.committed = m.offset + 1 ∧ s.Completed m.offset
    | .delaying _ => False

/-- `handleMessage` after the `try` statement, with the message processed. -/
theorem AtMostOnce.afterProcessing (hmode : config.commitMode = .beforeProcess)
    (h : AtMostOnce log start s) {m : Message} (hphase : s.phase.inFlight = some m.offset)
    (hcommitted : s.committed = m.offset + 1) (hdone : s.Completed m.offset) :
    AtMostOnce log start (s.afterProcessing config m) := by
  have hbelow : ∀ a ∈ log.messages, start ≤ a.offset → a.offset < s.committed →
      s.Completed a.offset ∨ 0 < s.crashesWith a.offset := by
    intro a ha hstart hlt
    rcases h.below a ha hstart hlt with hc | hf | hcrash
    · exact .inl hc
    · rw [hphase, Option.some.injEq] at hf
      exact .inl (hf ▸ hdone)
    · exact .inr hcrash
  unfold ConsumerRun.afterProcessing
  split
  · refine ⟨fun a ha hstart hlt => ?_, h.once, h.above, hcommitted, hdone⟩
    exact (hbelow a ha hstart hlt).imp id .inr
  · rw [hmode]
    refine ⟨fun a ha hstart hlt => ?_, h.once, h.above, hcommitted.symm⟩
    exact (hbelow a ha hstart hlt).imp id .inr

theorem AtMostOnce.goDown (h : AtMostOnce log start s) : AtMostOnce log start s.goDown := by
  refine ⟨fun a ha hstart hlt => ?_, h.once, h.above, trivial⟩
  rw [crashesWith_goDown]
  rcases h.below a ha hstart hlt with hc | hf | hcrash
  · exact .inl hc
  · rw [if_pos hf]
    exact .inr (.inr (Nat.succ_pos _))
  · exact .inr (.inr (Nat.lt_of_lt_of_le hcrash (Nat.le_add_right _ _)))

/-- Every step whose commit stores the next offset keeps the invariant. -/
theorem AtMostOnce.step (hmode : config.commitMode = .beforeProcess) (h : AtMostOnce log start s)
    (hu : s.Moves config log u) : AtMostOnce log start u := by
  have hp := h.phase
  cases hu with
  | processFirst m hafter => rw [hmode] at hafter; cases hafter
  | finish m hafter => rw [hmode] at hafter; cases hafter
  | commitFirst m hbefore hidle hnext =>
    rw [hidle] at hp
    dsimp only at hp
    rw [hp] at hnext
    refine ⟨fun a ha hstart hlt => ?_, h.once, h.above, hnext⟩
    rcases h.below a ha hstart hlt with hc | hf | hcrash
    · exact .inl hc
    · rw [hidle] at hf
      cases hf
    · exact .inr (.inr hcrash)
  | commitStored m hphase =>
    -- the message is the only one that gets below the position, and it is in flight
    rw [hphase] at hp
    refine ⟨fun a ha hstart hlt => ?_, h.once, fun n hn => ?_, rfl, h.above _ hp.le⟩
    · rcases Nat.lt_or_ge a.offset s.committed with hold | hnew
      · have hbelow := h.below a ha hstart hold
        rw [hphase] at hbelow
        exact hbelow
      · have heq : a.offset = m.offset :=
          Nat.le_antisymm (Nat.lt_succ_iff.mp hlt) (hp.first a ha hnew)
        exact .inr (.inl (congrArg some heq.symm))
    · exact h.above n (Nat.le_trans hp.le (Nat.le_of_succ_le hn))
  | processNext m hbefore hphase =>
    rw [hphase] at hp
    obtain ⟨hcommitted, hstarts⟩ := hp
    refine ⟨fun a ha hstart hlt => ?_, fun n => ?_, fun n hn => ?_, hcommitted⟩
    · have hbelow := h.below a ha hstart hlt
      rw [hphase] at hbelow
      exact hbelow
    · rw [starts_startProcessing]
      split
      · rename_i heq
        rw [← heq, hstarts]
      · exact h.once n
    · change s.committed ≤ n at hn
      rw [starts_startProcessing, h.above n hn, if_neg (by omega)]
  | record m hphase =>
    rw [hphase] at hp
    refine ⟨fun a ha hstart hlt => ?_, h.once, h.above, hp, .inl (by simp)⟩
    have hbelow := h.below a ha hstart hlt
    rw [hphase] at hbelow
    exact hbelow.imp (·.recorded _ m) id
  | succeed m hphase =>
    rw [hphase] at hp
    have hcounted : AtMostOnce log start { s with processed := s.processed + 1 } :=
      ⟨h.below, h.once, h.above, h.phase⟩
    exact hcounted.afterProcessing hmode (by simp [hphase, Phase.inFlight]) hp.1 hp.2
  | fail m hphase =>
    have hfailed : AtMostOnce log start (s.countFailed m) := by
      refine ⟨fun a ha hstart hlt => ?_, h.once, h.above, ?_⟩
      · exact (h.below a ha hstart hlt).imp (·.failed m) id
      · unfold countFailed
        cases hcase : s.phase <;> rw [hcase] at hp <;> dsimp only at hp ⊢ <;>
          first | exact hp | exact ⟨hp.1, hp.2.failed m⟩
    refine hfailed.afterProcessing hmode ?_ ?_ (.inr (by simp [countFailed]))
    · rcases hphase with hphase | hphase <;> simp [countFailed, hphase, Phase.inFlight]
    · rcases hphase with hphase | hphase <;> rw [hphase] at hp
      · exact hp
      · exact hp.1
  | delayEnds m hphase =>
    rw [hphase] at hp
    exact hp.elim
  | count hidle => exact ⟨h.below, h.once, h.above, h.phase⟩
  | goDown => exact h.goDown
  | rejoin hdown =>
    refine ⟨fun a ha hstart hlt => ?_, h.once, h.above, rfl⟩
    have hbelow := h.below a ha hstart hlt
    rw [hdown] at hbelow
    exact hbelow

/-! ### The guarantees -/

theorem atLeastOnce_initial : AtLeastOnce log start (initial start) :=
  ⟨fun _ _ hstart hlt => absurd hlt (Nat.not_lt.mpr hstart), fun _ => Nat.zero_le _,
    fun _ _ => Nat.zero_le _, trivial⟩

theorem atMostOnce_initial : AtMostOnce log start (initial start) :=
  ⟨fun _ _ hstart hlt => absurd hlt (Nat.not_lt.mpr hstart), fun _ => Nat.zero_le _,
    fun _ _ => rfl, trivial⟩

/-- **The commit modes**: in runs whose commits store the next offset, committing after the
processing processes every message below the position at least once, and more than once only
for the messages in flight at crashes; committing before it processes no message more than
once, and leaves out only those. -/
theorem commitModes
    (h : Reaches (step config log) (fun s e => s.commitsNext e = true) (initial start) s) :
    (config.commitMode = .afterProcess →
      (∀ m ∈ log.messages, start ≤ m.offset → m.offset < s.committed → s.Completed m.offset) ∧
      ∀ n, s.starts n ≤ 1 + s.crashesWith n) ∧
    (config.commitMode = .beforeProcess →
      (∀ n, s.starts n ≤ 1) ∧
      ∀ m ∈ log.messages, start ≤ m.offset → m.offset < s.committed →
        s.Completed m.offset ∨ s.phase.inFlight = some m.offset ∨ 0 < s.crashesWith m.offset) := by
  refine ⟨fun hmode => ?_, fun hmode => ?_⟩
  · have hinv : AtLeastOnce log start s :=
      h.invariant atLeastOnce_initial fun _ _ _ hs hok hu => hs.step hmode (moves_of_step hok hu)
    exact ⟨hinv.below, hinv.again⟩
  · have hinv : AtMostOnce log start s :=
      h.invariant atMostOnce_initial fun _ _ _ hs hok hu => hs.step hmode (moves_of_step hok hu)
    exact ⟨hinv.once, hinv.below⟩

/-- The committed position, the events recorded and the messages processed. -/
def outcome (s : ConsumerRun) : ℕ × List ℕ × List ℕ := (s.committed, s.store, s.started)

/-- A partition with one message. -/
def oneMessage (offset : ℕ) : PartitionLog :=
  ⟨[{ offset := offset
      value := some (.ok (.obj [("orderId", .str "o-1"), ("eventType", .str "orders.created")])) }],
    List.pairwise_singleton _ _⟩

/-- A crash between the processing and the commit: the message is processed again. -/
theorem commitModes_after_crash :
    ∃ s, Reaches (step {} (oneMessage 41)) (fun s e => s.commitsNext e = true) (initial 41) s ∧
      s.outcome = (42, [41, 41], [41, 41]) ∧ s.Completed 41 ∧ s.starts 41 ≤ 1 + s.crashesWith 41 := by
  obtain ⟨s, hs, hseen⟩ := exists_reaches_of_runEvents (step {} (oneMessage 41))
    (fun s e => s.commitsNext e = true) outcome (s := initial 41)
    [.rejoin, .deliver, .eventStored, .processReturns, .crash,
      .rejoin, .deliver, .eventStored, .processReturns, .commitStored, .commitReturns]
    (42, [41, 41], [41, 41]) (by decide +kernel)
  have hcommitted : s.committed = 42 := congrArg Prod.fst hseen
  obtain ⟨hbelow, hagain⟩ := (commitModes hs).1 rfl
  exact ⟨s, hs, hseen, hbelow _ (List.mem_singleton_self _) (by decide) (by rw [hcommitted]; decide),
    hagain 41⟩

/-- The commit of the offset `2 ^ 53` stores `2 ^ 53`: the message is read and processed again,
although it was committed before it was processed. -/
theorem commitModes_fails_at_large_offset :
    ∃ s, Reachable (step { commitMode := .beforeProcess } (oneMessage (2 ^ 53))) (initial (2 ^ 53)) s ∧
      ¬ s.starts (2 ^ 53) ≤ 1 := by
  obtain ⟨s, hs, hseen⟩ := exists_reaches_of_runEvents
    (step { commitMode := .beforeProcess } (oneMessage (2 ^ 53))) (fun _ _ => True)
    outcome (s := initial (2 ^ 53))
    [.rejoin, .deliver, .commitStored, .commitReturns, .eventStored, .processReturns, .crash,
      .rejoin, .deliver, .commitStored, .commitReturns]
    (2 ^ 53, [2 ^ 53], [2 ^ 53, 2 ^ 53]) (by decide +kernel)
  refine ⟨s, hs, ?_⟩
  have hstarted : s.started = [2 ^ 53, 2 ^ 53] := congrArg (fun o => o.2.2) hseen
  rw [starts, hstarted]
  decide

end ConsumerRun

end BulkTraffic.Orders
