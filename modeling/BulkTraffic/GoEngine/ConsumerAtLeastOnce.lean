import BulkTraffic.GoEngine.ConsumerGroup

/-!
# Committing after the processing

Whatever is committed was processed, for any number of consumers of a group: whatever partitions are
given to whom in between, whichever commits are stored late, again or never, and however often the
process is killed. A group that reads from the beginning has processed all of it, another one what lies
behind the place where a partition was last read without a committed offset (`origin`).

* `AtLeastOnce`: the invariant.
* `Repeats`: what lets a message be processed again.
* `processes_at_least_once`: both, over whole runs.
-/

namespace BulkTraffic.GoEngine.Consumer

open BulkTraffic.Lib BulkTraffic.Js

namespace Group

variable {config : Config} {log : TopicPartition → PartitionLog} {s u : Group}

/-- `process` returned for the message, and its result was counted. -/
def Completed (s : Group) (p : TopicPartition) (m : Message) : Prop :=
  match process m.value with
  | .ok _ => (p, m.offset) ∈ s.successes
  | .error _ => (p, m.offset) ∈ s.failures

/-- The calls of `process` for a message. -/
def starts (s : Group) (key : Key) : ℕ := s.started.count key

/-- How often the committed offset went back over a message. -/
def rewoundOver (s : Group) (key : Key) : ℕ :=
  s.rewinds.countP fun r => r.1 = key.1 ∧ r.2.1 ≤ key.2 ∧ key.2 < r.2.2

/-- The committed offset is not after the message. -/
def Uncovered (s : Group) (p : TopicPartition) (n : ℕ) : Prop := ∀ c, s.committed p = some c → c ≤ n

/-! ### The operations -/

theorem Completed.mono {p : TopicPartition} {m : Message} (h : s.Completed p m)
    (hsuccesses : s.successes ⊆ u.successes) (hfailures : s.failures ⊆ u.failures) :
    u.Completed p m := by
  unfold Completed at h ⊢
  split at h
  · exact hsuccesses h
  · exact hfailures h

/-- What `processReturns` does before `handle` goes on. -/
theorem exists_processReturns (config : Config) (s : Group) (c : ℕ) (k : Member) (f : Flight) :
    ∃ (successes failures : List Key) (k' : Member), s.processReturns config c k f =
        { s with successes := successes, failures := failures }.afterProcess config c k' f ∧
      s.successes ⊆ successes ∧ s.failures ⊆ failures ∧ k'.processed ≤ k.processed + 1 ∧
      Completed { s with successes := successes, failures := failures } f.partition f.message := by
  unfold processReturns Completed
  cases process f.message.value with
  | ok event =>
    exact ⟨_, _, _, rfl, List.subset_append_left _ _, fun _ h => h, Nat.le_refl _,
      List.mem_append_right _ (List.mem_singleton_self _)⟩
  | error text =>
    exact ⟨_, _, _, rfl, fun _ h => h, List.subset_append_left _ _, Nat.le_succ _,
      List.mem_append_right _ (List.mem_singleton_self _)⟩

theorem rewoundOver_le_storeCommit (s : Group) (p : TopicPartition) (offset : ℕ) (key : Key) :
    s.rewoundOver key ≤ (s.storeCommit p offset).rewoundOver key := by
  rw [rewoundOver, rewoundOver, storeCommit, List.countP_append]
  exact Nat.le_add_right _ _

/-- A commit that goes back over a message is counted. -/
theorem rewoundOver_storeCommit {p : TopicPartition} {offset n : ℕ} (hlt : offset < n)
    (hcovered : ¬ s.Uncovered p n) :
    s.rewoundOver (p, n) + 1 ≤ (s.storeCommit p offset).rewoundOver (p, n) := by
  obtain ⟨c, hc, hn⟩ : ∃ c, s.committed p = some c ∧ n < c := by
    simpa [Uncovered] using hcovered
  rw [rewoundOver, rewoundOver, storeCommit, List.countP_append, Nat.add_le_add_iff_left]
  refine List.countP_pos_iff.mpr ⟨(p, offset + 1, c), ?_, by simpa using ⟨hlt, hn⟩⟩
  have hback : (some c).filter (offset + 1 < ·) = some c := by
    rw [Option.filter_some, if_pos (by simpa using Nat.lt_of_le_of_lt hlt hn)]
  rw [hc, hback]
  exact List.mem_singleton_self _

/-! ### What holds in both modes -/

/-- A consumer that stops after a number of messages processes no more. -/
def Bounded (config : Config) (k : Member) : Prop :=
  0 < config.maxMessages →
    (k.processed : ℤ) + (k.phase.drop config).length ≤ config.maxMessages.toInt

theorem bounded_new (config : Config) : Bounded config {} := by
  intro hmax
  have hpos : 0 < config.maxMessages.toInt := Int64.lt_iff_toInt_lt.mp hmax
  exact Int.le_of_lt hpos

theorem Bounded.enter {k k' : Member} {phase : Phase} (h : Bounded config k)
    (hle : k'.processed + (phase.drop config).length ≤ k.processed + (k.phase.drop config).length) :
    Bounded config { k' with phase := phase } := by
  intro hmax
  have hk := h hmax
  show (k'.processed : ℤ) + (phase.drop config).length ≤ _
  omega

/-- A member after one of them went on. -/
theorem mem_enter {c : ℕ} {k k' : Member} {phase : Phase} (h : k' ∈ (s.enter c k phase).members) :
    k' = { k with phase := phase } ∨ k' ∈ s.members :=
  (List.mem_or_eq_of_mem_set h).symm

theorem bounded_step (h : ∀ k ∈ s.members, Bounded config k) (hmoves : s.Moves config log u) :
    ∀ k ∈ u.members, Bounded config k := by
  intro k' hk'
  cases hmoves with
  | fetch c k p m hk hphase howner hmax hnext =>
    have hnew : ∀ phase : Phase, (phase.drop config).length ≤ 1 →
        Bounded config { k with phase := phase } := by
      intro phase hone hpos
      have hlt : (k.processed : ℤ) < config.maxMessages.toInt :=
        Int.not_le.mp fun hle => hmax ⟨hpos, hle⟩
      show (k.processed : ℤ) + (phase.drop config).length ≤ _
      omega
    cases hmode : config.commitMode with
    | beforeProcess =>
      simp only [startHandle, hmode] at hk'
      rcases mem_enter hk' with rfl | hk'
      · exact hnew _ (by simp [Phase.drop, hmode])
      · exact h k' hk'
    | afterProcess =>
      simp only [startHandle, hmode] at hk'
      rcases mem_enter hk' with rfl | hk'
      · exact hnew _ (by simp [Phase.drop])
      · exact h k' hk'
  | leave c k error hk hphase =>
    rcases mem_enter hk' with rfl | hk'
    · exact (h k (List.mem_of_getElem? hk)).enter (by simp [Phase.drop])
    · exact h k' hk'
  | process c k f hk hphase =>
    obtain ⟨successes, failures, k₁, heq, -, -, hle, -⟩ := exists_processReturns config s c k f
    have hnew : ∀ phase : Phase, phase.drop config = [] →
        Bounded config { k₁ with phase := phase } := by
      intro phase hdrop
      refine (h k (List.mem_of_getElem? hk)).enter ?_
      rw [hdrop, hphase]
      exact hle
    rw [heq] at hk'
    cases hmode : config.commitMode with
    | beforeProcess =>
      simp only [afterProcess, hmode] at hk'
      rcases mem_enter hk' with rfl | hk'
      · exact hnew _ rfl
      · exact h k' hk'
    | afterProcess =>
      simp only [afterProcess, hmode] at hk'
      rcases mem_enter hk' with rfl | hk'
      · exact hnew _ (by simp only [Phase.drop, hmode])
      · exact h k' hk'
  | store p offset hmem =>
    obtain ⟨k, hk, rfl⟩ := List.mem_map.mp hk'
    refine (h k hk).enter (Nat.add_le_add_left (Nat.le_of_eq ?_) _)
    cases k.phase <;> simp only [Phase.store, Phase.drop]
    cases config.commitMode <;> rfl
  | commit c k f hk hphase hcond =>
    cases hmode : config.commitMode with
    | beforeProcess =>
      simp only [afterCommit, hmode] at hk'
      rcases mem_enter hk' with rfl | hk'
      · refine (h k (List.mem_of_getElem? hk)).enter ?_
        simp [Phase.drop, hphase, hmode]
      · exact h k' hk'
    | afterProcess =>
      simp only [afterCommit, hmode] at hk'
      rcases mem_enter hk' with rfl | hk'
      · exact (h k (List.mem_of_getElem? hk)).enter (by simp [Phase.drop])
      · exact h k' hk'
  | fail c k f error hk hphase =>
    rcases mem_enter hk' with rfl | hk'
    · exact (h k (List.mem_of_getElem? hk)).enter (by simp [Phase.drop])
    · exact h k' hk'
  | assign p c latest horigin =>
    obtain ⟨k, hk, rfl⟩ := List.mem_map.mp hk'
    refine (h k hk).enter (Nat.add_le_add_left (Nat.le_of_eq ?_) _)
    cases k.phase <;> simp only [Phase.release, Phase.map, Phase.drop] <;>
      cases config.commitMode <;> rfl
  | signal => exact h k' hk'
  | restart instances =>
    obtain rfl := List.eq_of_mem_replicate hk'
    exact bounded_new config

/-- A partition is read from the beginning. -/
theorem origin_step (hbeginning : config.fromBeginning = true) (h : ∀ p, s.origin p = 0)
    (hmoves : s.Moves config log u) : ∀ p, u.origin p = 0 := by
  cases hmoves with
  | fetch c k p m hk hphase howner hmax hnext =>
    unfold startHandle
    cases config.commitMode <;> exact h
  | leave c k error hk hphase => exact h
  | process c k f hk hphase =>
    obtain ⟨successes, failures, k₁, heq, -, -, -, -⟩ := exists_processReturns config s c k f
    rw [heq, afterProcess]
    cases config.commitMode <;> exact h
  | store p offset hmem => exact h
  | commit c k f hk hphase hcond =>
    unfold afterCommit
    cases config.commitMode <;> exact h
  | fail c k f error hk hphase => exact h
  | assign p c latest horigin =>
    intro q
    simp only [assign, startOffset, hbeginning, if_true]
    split
    · by_cases hqp : q = p
      · rw [hqp, Function.update_self]
      · rw [Function.update_of_ne hqp, h q]
    · exact h q
  | signal => exact h
  | restart instances => exact h

/-! ### Processing before committing -/

/-- What a consumer knows of the messages it has passed. -/
def Reader (log : TopicPartition → PartitionLog) (s : Group) (c : ℕ) (k : Member) : Prop :=
  match k.phase with
  | .fetching =>
    ∀ p, s.owner p = some c → (log p).Upto (s.Completed p) (s.origin p) (s.position p)
  | .processing f =>
    f.message ∈ (log f.partition).entries ∧
    (log f.partition).Upto (s.Completed f.partition) (s.origin f.partition) f.message.offset ∧
    ∀ p, s.owner p = some c →
      (log p).Upto (fun m => s.Completed p m ∨ f.key = (p, m.offset)) (s.origin p) (s.position p)
  | .committing f =>
    (log f.partition).Upto (s.Completed f.partition) (s.origin f.partition) (f.message.offset + 1) ∧
    ∀ p, s.owner p = some c → (log p).Upto (s.Completed p) (s.origin p) (s.position p)
  | .returned _ => True

/-- The invariant of committing after the processing. -/
structure AtLeastOnce (log : TopicPartition → PartitionLog) (s : Group) : Prop where
  /-- Before the committed offset every message was processed. -/
  below : ∀ p n, s.committed p = some n → (log p).Upto (s.Completed p) (s.origin p) n
  /-- A commit may be stored whenever it was asked for. -/
  requests : ∀ p n, (p, n) ∈ s.requests → (log p).Upto (s.Completed p) (s.origin p) (n + 1)
  members : ∀ c k, s.members[c]? = some k → Reader log s c k

/-- A consumer keeps what it knows when more is processed, and others' partitions move. -/
theorem Reader.mono {c : ℕ} {k : Member} (h : Reader log s c k)
    (hdone : ∀ p m, s.Completed p m → u.Completed p m) (horigin : ∀ p, s.origin p ≤ u.origin p)
    (howner : ∀ p, u.owner p = some c →
      s.owner p = some c ∧ u.position p = s.position p ∨
        (log p).Upto (u.Completed p) (u.origin p) (u.position p)) : Reader log u c k := by
  have hpassed : ∀ p, u.owner p = some c →
      (s.owner p = some c → (log p).Upto (s.Completed p) (s.origin p) (s.position p)) →
      (log p).Upto (u.Completed p) (u.origin p) (u.position p) := by
    intro p hp hold
    rcases howner p hp with ⟨hs, hposition⟩ | hnew
    · rw [hposition]
      exact ((hold hs).origin_le (horigin p)).imp fun m _ => hdone p m
    · exact hnew
  unfold Reader at h ⊢
  split at h
  · exact fun p hp => hpassed p hp (h p)
  · rename_i f _
    obtain ⟨hmem, hupto, hpos⟩ := h
    refine ⟨hmem, (hupto.origin_le (horigin _)).imp fun m _ => hdone _ m, fun p hp => ?_⟩
    rcases howner p hp with ⟨hs, hposition⟩ | hnew
    · rw [hposition]
      exact ((hpos p hs).origin_le (horigin p)).imp fun m _ => Or.imp_left (hdone p m)
    · exact hnew.imp fun m _ => Or.inl
  · exact ⟨(h.1.origin_le (horigin _)).imp fun m _ => hdone _ m, fun p hp => hpassed p hp (h.2 p)⟩
  · trivial

theorem Reader.release {c : ℕ} {k : Member} (h : Reader log s c k) (p : TopicPartition) :
    Reader log s c { k with phase := k.phase.release p } := by
  obtain ⟨phase, processed, failed⟩ := k
  cases phase with
  | fetching => exact h
  | committing f =>
    simp only [Phase.release, Phase.map, Flight.release]
    split <;> exact h
  | processing f =>
    simp only [Phase.release, Phase.map, Flight.release]
    split <;> exact h
  | returned error => exact h

theorem Reader.store {c : ℕ} {k : Member} (h : Reader log s c k) (key : Key) :
    Reader log s c { k with phase := k.phase.store key } := by
  obtain ⟨phase, processed, failed⟩ := k
  cases phase with
  | committing f =>
    simp only [Phase.store, Flight.store]
    split <;> exact h
  | fetching => exact h
  | processing f => exact h
  | returned error => exact h

theorem AtLeastOnce.step (hmode : config.commitMode = .afterProcess) (h : AtLeastOnce log s)
    (hmoves : s.Moves config log u) : AtLeastOnce log u := by
  cases hmoves with
  | fetch c k p m hk hphase howner hmax hnext =>
    simp only [startHandle, hmode]
    refine ⟨h.below, h.requests, fun d k' hk' => ?_⟩
    have hread : (log p).Upto (s.Completed p) (s.origin p) (s.position p) := by
      have hreader := h.members c k hk
      rw [Reader, hphase] at hreader
      exact hreader p howner
    rcases members_enter hk' with ⟨rfl, rfl⟩ | ⟨hne, hk'⟩
    · refine ⟨hnext.mem, hread.next hnext, fun q hq => ?_⟩
      by_cases hpq : q = p
      · subst hpq
        show (log q).Upto _ _ ((s.advance q m).position q)
        rw [position_advance_self]
        exact ((hread.next hnext).imp fun _ _ => Or.inl).snoc hnext.mem (.inr rfl)
      · show (log q).Upto _ _ ((s.advance p m).position q)
        rw [position_advance_of_ne hpq]
        have hreader := h.members d k hk
        rw [Reader, hphase] at hreader
        exact (hreader q hq).imp fun _ _ => Or.inl
    · refine (h.members d k' hk').mono (fun _ _ h => h) (fun _ => Nat.le_refl _) fun q hq => .inl ⟨hq, ?_⟩
      have hpq : q ≠ p := by
        rintro rfl
        exact hne (Option.some.inj (hq.symm.trans howner))
      exact position_advance_of_ne hpq m
  | leave c k error hk hphase =>
    refine ⟨h.below, h.requests, fun d k' hk' => ?_⟩
    rcases members_enter hk' with ⟨rfl, rfl⟩ | ⟨hne, hk'⟩
    · trivial
    · exact h.members d k' hk'
  | process c k f hk hphase =>
    obtain ⟨successes, failures, k', heq, hsuccesses, hfailures, -, hdone⟩ :=
      exists_processReturns config s c k f
    have hmono : ∀ p m, s.Completed p m →
        Completed { s with successes := successes, failures := failures } p m :=
      fun p m hm => hm.mono hsuccesses hfailures
    have hreader := h.members c k hk
    rw [Reader, hphase] at hreader
    obtain ⟨hmem, hupto, hpos⟩ := hreader
    have hsnoc := (hupto.imp fun m _ => hmono _ m).snoc hmem hdone
    rw [heq]
    simp only [afterProcess, hmode]
    refine ⟨fun p n hp => (h.below p n hp).imp fun m _ => hmono p m, fun p n hp => ?_,
      fun d k'' hk'' => ?_⟩
    · rcases List.mem_append.mp hp with hp | hp
      · exact (h.requests p n hp).imp fun m _ => hmono p m
      · cases List.mem_singleton.mp hp
        exact hsnoc
    · rcases members_enter hk'' with ⟨rfl, rfl⟩ | ⟨hne, hk''⟩
      · refine ⟨hsnoc, fun p hp m hm hle hlt => ?_⟩
        rcases hpos p hp m hm hle hlt with hm' | hkey
        · exact hmono p m hm'
        · obtain ⟨rfl, hoffset⟩ := Prod.mk.injEq .. ▸ hkey
          exact OffsetLog.eq_of_offset hmem hm hoffset ▸ hdone
      · exact (h.members d k'' hk'').mono hmono (fun _ => Nat.le_refl _) fun p hp => .inl ⟨hp, rfl⟩
  | store p offset hmem =>
    refine ⟨fun q n hq => ?_, h.requests, fun d k' hk' => ?_⟩
    · by_cases hpq : q = p
      · subst hpq
        rw [committed_storeCommit_self] at hq
        obtain rfl := Option.some.inj hq
        exact h.requests q offset hmem
      · rw [committed_storeCommit_of_ne hpq] at hq
        exact h.below q n hq
    · obtain ⟨k, hk, rfl⟩ := members_map hk'
      exact (h.members d k hk).store _
  | commit c k f hk hphase hcond =>
    simp only [afterCommit, hmode]
    refine ⟨h.below, h.requests, fun d k' hk' => ?_⟩
    rcases members_enter hk' with ⟨rfl, rfl⟩ | ⟨hne, hk'⟩
    · have hreader := h.members d k hk
      rw [Reader, hphase] at hreader
      exact hreader.2
    · exact h.members d k' hk'
  | fail c k f error hk hphase =>
    refine ⟨h.below, h.requests, fun d k' hk' => ?_⟩
    rcases members_enter hk' with ⟨rfl, rfl⟩ | ⟨hne, hk'⟩
    · trivial
    · exact h.members d k' hk'
  | assign p c latest horigin =>
    have hle := le_origin_assign horigin c
    refine ⟨fun q n hq => (h.below q n hq).origin_le (hle q),
      fun q n hq => (h.requests q n hq).origin_le (hle q), fun d k' hk' => ?_⟩
    obtain ⟨k, hk, rfl⟩ := members_map hk'
    refine ((h.members d k hk).release p).mono (fun _ _ h => h) hle fun q hq => ?_
    by_cases hpq : q = p
    · subst hpq
      right
      rw [position_assign_self]
      cases hcommitted : s.committed q with
      | none =>
        rw [origin_assign_self hcommitted]
        exact (log q).upto_origin _ _
      | some n => exact (h.below q n hcommitted).origin_le (hle q)
    · left
      exact ⟨owner_assign_of_ne hpq c latest ▸ hq, position_assign_of_ne hpq c latest⟩
  | signal => exact ⟨h.below, h.requests, h.members⟩
  | restart instances =>
    refine ⟨h.below, h.requests, fun d k' hk' => ?_⟩
    obtain rfl := eq_of_members_replicate hk'
    exact fun p hp => by cases hp

/-! ### Processing again -/

/-- A message is in flight, its partition was not given away, and no commit was stored. -/
def FreshAt (s : Group) (key : Key) : Prop :=
  ∃ (c : ℕ) (k : Member), s.members[c]? = some k ∧ key ∈ k.phase.abandon

/-- What lets a message be processed again. -/
def causes (s : Group) (key : Key) : ℕ := s.abandoned.count key + s.rewoundOver key

/-- How often a message is processed. -/
structure Repeats (s : Group) : Prop where
  again : ∀ key, s.starts key ≤ 1 + s.causes key
  /-- What is still to be read. -/
  ahead : ∀ p n, s.position p ≤ n → s.starts (p, n) ≤ s.causes (p, n)
  /-- What would be read again after a restart. -/
  above : ∀ p n, s.Uncovered p n → s.starts (p, n) ≤ s.causes (p, n) ∨ s.FreshAt (p, n)

theorem mem_abandon {phase : Phase} {key : Key} :
    key ∈ phase.abandon ↔ ∃ f, phase.flight? = some f ∧ f.fresh = true ∧ f.key = key := by
  unfold Phase.abandon
  cases phase.flight? with
  | none => simp
  | some f =>
    simp only [Option.map_some, Option.getD_some, Flight.abandon, Option.some.injEq,
      exists_eq_left']
    cases hfresh : f.fresh
    · simp
    · simp [eq_comm]

theorem mem_abandon_release {phase : Phase} {p : TopicPartition} {key : Key}
    (h : key ∈ phase.abandon) (hne : key.1 ≠ p) : key ∈ (phase.release p).abandon := by
  obtain ⟨f, hf, hfresh, rfl⟩ := mem_abandon.mp h
  have hsame : f.release p = f := if_neg hne
  refine mem_abandon.mpr ⟨f, ?_, hfresh, rfl⟩
  cases phase <;> cases hf <;> simp only [Phase.release, Phase.map, Phase.flight?, hsame]

theorem mem_abandon_store {phase : Phase} {key stored : Key} (h : key ∈ phase.abandon)
    (hne : key ≠ stored) : key ∈ (phase.store stored).abandon := by
  obtain ⟨f, hf, hfresh, rfl⟩ := mem_abandon.mp h
  have hsame : f.store stored = f := if_neg hne
  refine mem_abandon.mpr ⟨f, ?_, hfresh, rfl⟩
  cases phase <;> cases hf <;> simp only [Phase.store, Phase.flight?, hsame]

/-- A message is in flight at the member or at another one, which stays. -/
theorem FreshAt.enter {key : Key} (h : s.FreshAt key) {c : ℕ} {k k' : Member} {phase : Phase}
    (hk : s.members[c]? = some k) :
    key ∈ k.phase.abandon ∨ (s.enter c k' phase).FreshAt key := by
  obtain ⟨d, k₀, hd, hkey⟩ := h
  by_cases hdc : d = c
  · subst hdc
    rw [hk] at hd
    cases hd
    exact .inl hkey
  · refine .inr ⟨d, k₀, ?_, hkey⟩
    rw [Group.enter, setMember, List.getElem?_set_ne (Ne.symm hdc)]
    exact hd

theorem starts_startProcessing (s : Group) (c : ℕ) (k : Member) (f : Flight) (key : Key) :
    (s.startProcessing c k f).starts key = s.starts key + if f.key = key then 1 else 0 := by
  simp only [starts, startProcessing, enter, setMember, List.count_append, List.count_singleton,
    beq_iff_eq]

/-- A step that calls `process` for no message and stores no commit. -/
theorem Repeats.quiet (h : Repeats s) {l : List Key} (hstarted : u.started = s.started)
    (hrewinds : u.rewinds = s.rewinds) (hcommitted : u.committed = s.committed)
    (habandoned : u.abandoned = s.abandoned ++ l)
    (hfresh : ∀ key, s.FreshAt key → key ∈ l ∨ u.FreshAt key)
    (hposition : ∀ p n, u.position p ≤ n →
      s.position p ≤ n ∨ s.Uncovered p n ∧ (s.FreshAt (p, n) → (p, n) ∈ l)) : Repeats u := by
  have hstarts : ∀ key, u.starts key = s.starts key := fun key => by rw [starts, hstarted, starts]
  have hcauses : ∀ key, u.causes key = s.causes key + l.count key := by
    intro key
    rw [causes, rewoundOver, habandoned, hrewinds, List.count_append, causes, rewoundOver]
    omega
  have hmem : ∀ key, key ∈ l → u.starts key ≤ u.causes key := by
    intro key hkey
    have hone : 1 ≤ l.count key := List.one_le_count_iff.mpr hkey
    have hagain := h.again key
    rw [hstarts, hcauses]
    omega
  refine ⟨fun key => ?_, fun p n hle => ?_, fun p n hunc => ?_⟩
  · have hagain := h.again key
    rw [hstarts, hcauses]
    omega
  · rcases hposition p n hle with hle | ⟨hunc, hl⟩
    · have hahead := h.ahead p n hle
      rw [hstarts, hcauses]
      omega
    · rcases h.above p n hunc with hle | hat
      · rw [hstarts, hcauses]
        omega
      · exact hmem _ (hl hat)
  · rw [Uncovered, hcommitted] at hunc
    rcases h.above p n hunc with hle | hat
    · left
      rw [hstarts, hcauses]
      omega
    · exact (hfresh _ hat).imp (hmem _) id

theorem Repeats.step (hmode : config.commitMode = .afterProcess) (h : Repeats s)
    (hmoves : s.Moves config log u) : Repeats u := by
  cases hmoves with
  | fetch c k p m hk hphase howner hmax hnext =>
    simp only [startHandle, hmode]
    set f : Flight := { partition := p, message := m }
    have hstarts : ∀ key, ((s.advance p m).startProcessing c k f).starts key =
        s.starts key + if (p, m.offset) = key then 1 else 0 :=
      starts_startProcessing (s.advance p m) c k f
    have hahead := h.ahead p m.offset hnext.le
    refine ⟨fun key => ?_, fun q n hle => ?_, fun q n hunc => ?_⟩
    · rw [hstarts]
      show s.starts key + _ ≤ 1 + s.causes key
      split
      · rename_i hkey
        subst hkey
        omega
      · exact h.again key
    · rw [hstarts, if_neg]
      · refine h.ahead q n ?_
        by_cases hqp : q = p
        · subst hqp
          have hle : (s.advance q m).position q ≤ n := hle
          rw [position_advance_self] at hle
          exact Nat.le_trans hnext.le (Nat.le_of_succ_le hle)
        · exact (position_advance_of_ne hqp m).symm.le.trans hle
      · intro hkey
        obtain ⟨rfl, rfl⟩ := Prod.mk.inj hkey
        have hle : (s.advance p m).position p ≤ m.offset := hle
        rw [position_advance_self] at hle
        exact absurd hle (Nat.not_succ_le_self _)
    · by_cases hkey : (q, n) = (p, m.offset)
      · refine .inr ⟨c, _, members_enter_self hk _, mem_abandon.mpr ⟨_, rfl, rfl, hkey.symm⟩⟩
      · rw [hstarts, if_neg (Ne.symm hkey)]
        refine (h.above q n hunc).imp id fun hat => ?_
        refine (FreshAt.enter (s := s.advance p m) hat hk).resolve_left ?_
        simp [hphase, Phase.abandon, Phase.flight?]
  | leave c k error hk hphase =>
    refine h.quiet (l := []) rfl rfl rfl (List.append_nil _).symm (fun key hat => .inr ?_)
      fun p n hle => .inl hle
    refine (FreshAt.enter hat hk).resolve_left ?_
    simp [hphase, Phase.abandon, Phase.flight?]
  | process c k f hk hphase =>
    obtain ⟨successes, failures, k', heq, -, -, -, -⟩ := exists_processReturns config s c k f
    rw [heq]
    simp only [afterProcess, hmode]
    refine h.quiet (l := []) rfl rfl rfl (List.append_nil _).symm (fun key hat => .inr ?_)
      fun p n hle => .inl hle
    rcases FreshAt.enter hat hk with hkey | hat
    · obtain ⟨g, hg, hfresh, rfl⟩ := mem_abandon.mp hkey
      rw [hphase] at hg
      cases hg
      refine ⟨c, _, members_enter_self hk _, mem_abandon.mpr ⟨_, rfl, ?_, rfl⟩⟩
      simp only [Flight.fresh, Bool.and_eq_true, Bool.not_eq_true'] at hfresh ⊢
      exact ⟨hfresh.1, trivial⟩
    · exact hat
  | store p offset hmem =>
    have hcauses : ∀ key, s.causes key ≤ (s.storeCommit p offset).causes key := fun key =>
      Nat.add_le_add_left (rewoundOver_le_storeCommit s p offset key) _
    refine ⟨fun key => (h.again key).trans (Nat.add_le_add_left (hcauses key) 1),
      fun q n hle => (h.ahead q n hle).trans (hcauses _), fun q n hunc => ?_⟩
    by_cases hold : s.Uncovered q n
    · refine (h.above q n hold).imp (fun hle => hle.trans (hcauses _)) ?_
      rintro ⟨c, k, hk, hkey⟩
      refine ⟨c, { k with phase := k.phase.store (p, offset) }, ?_, mem_abandon_store hkey ?_⟩
      · rw [storeCommit, List.getElem?_map, hk, Option.map_some]
      · intro heq
        obtain ⟨rfl, rfl⟩ := Prod.mk.inj heq
        exact absurd (hunc _ (committed_storeCommit_self q n)) (Nat.not_succ_le_self _)
    · left
      have hqp : q = p := by
        by_contra hqp
        refine hold fun c hc => hunc c ?_
        rw [committed_storeCommit_of_ne hqp, hc]
      subst hqp
      have hlt : offset < n := hunc _ (committed_storeCommit_self q offset)
      have hrewound := rewoundOver_storeCommit hlt hold
      have hagain := h.again (q, n)
      unfold causes at hagain ⊢
      show s.starts (q, n) ≤ s.abandoned.count (q, n) + _
      omega
  | commit c k f hk hphase hcond =>
    simp only [afterCommit, hmode]
    refine h.quiet (l := f.abandon) rfl rfl rfl rfl (fun key hat => ?_) fun p n hle => .inl hle
    refine (FreshAt.enter (s := s.abandon f) hat hk).imp (fun hkey => ?_) id
    rwa [hphase] at hkey
  | fail c k f error hk hphase =>
    refine h.quiet (l := f.abandon) rfl rfl rfl rfl (fun key hat => ?_) fun p n hle => .inl hle
    refine (FreshAt.enter (s := { s.abandon f with dropped := _ }) hat hk).imp (fun hkey => ?_) id
    rwa [hphase] at hkey
  | assign p c latest horigin =>
    have hgiven : ∀ n, s.FreshAt (p, n) → (p, n) ∈ s.members.flatMap fun k => k.phase.abandonOf p := by
      rintro n ⟨d, k, hk, hkey⟩
      exact List.mem_flatMap.mpr ⟨k, List.mem_of_getElem? hk, List.mem_filter.mpr ⟨hkey, by simp⟩⟩
    refine h.quiet rfl rfl rfl rfl (fun key hat => ?_) fun q n hle => ?_
    · obtain ⟨q, n⟩ := key
      by_cases hqp : q = p
      · subst hqp
        exact .inl (hgiven n hat)
      · obtain ⟨d, k, hk, hkey⟩ := hat
        refine .inr ⟨d, { k with phase := k.phase.release p }, ?_, mem_abandon_release hkey hqp⟩
        rw [assign, List.getElem?_map, hk, Option.map_some]
    · by_cases hqp : q = p
      · subst hqp
        rw [position_assign_self] at hle
        refine .inr ⟨fun d hd => ?_, hgiven n⟩
        rwa [hd, Option.getD_some] at hle
      · rw [position_assign_of_ne hqp] at hle
        exact .inl hle
  | signal =>
    exact h.quiet (l := []) rfl rfl rfl (List.append_nil _).symm (fun _ hat => .inr hat)
      fun p n hle => .inl hle
  | restart instances =>
    refine h.quiet rfl rfl rfl rfl (fun key hat => .inl ?_) fun p n hle => .inl hle
    obtain ⟨d, k, hk, hkey⟩ := hat
    exact List.mem_flatMap.mpr ⟨k, List.mem_of_getElem? hk, hkey⟩

/-! ### Whole runs -/

/-- Every consumer keeps to its number of messages. -/
theorem bounded {instances : ℕ} (h : Reachable (step config log) (initial instances) s) :
    ∀ k ∈ s.members, Bounded config k := by
  refine h.invariant (P := fun s => ∀ k ∈ s.members, Bounded config k) (fun k hk => ?_)
    fun _ _ _ hs _ hu => bounded_step hs (moves_of_step hu)
  obtain rfl := List.eq_of_mem_replicate hk
  exact bounded_new config

/-- A group that reads from the beginning reads every message. -/
theorem origin_le {instances : ℕ} (h : Reachable (step config log) (initial instances) s)
    {p : TopicPartition} {n : ℕ} (hfrom : config.fromBeginning = true ∨ s.origin p ≤ n) :
    s.origin p ≤ n := by
  rcases hfrom with hbeginning | hle
  · have horigin : ∀ p, s.origin p = 0 := h.invariant (P := fun s => ∀ p, s.origin p = 0)
      (fun _ => rfl) fun _ _ _ hs _ hu => origin_step hbeginning hs (moves_of_step hu)
    rw [horigin p]
    exact Nat.zero_le _
  · exact hle

theorem atLeastOnce_initial (log : TopicPartition → PartitionLog) (instances : ℕ) :
    AtLeastOnce log (initial instances) := by
  refine ⟨fun p n hp => (nomatch hp), fun p n hp => (nomatch hp), fun c k hk => ?_⟩
  obtain rfl := eq_of_members_replicate hk
  exact fun p hp => (nomatch hp)

theorem repeats_initial (instances : ℕ) : Repeats (initial instances) :=
  ⟨fun _ => Nat.zero_le _, fun _ _ _ => Nat.zero_le _, fun _ _ _ => .inl (Nat.zero_le _)⟩

/-- Below a number of messages nothing is left to count. -/
theorem Bounded.le {k : Member} (h : Bounded config k) (hmax : 0 < config.maxMessages) :
    (k.processed : ℤ) ≤ config.maxMessages.toInt :=
  (Int.le_add_of_nonneg_right (Int.natCast_nonneg _)).trans (h hmax)

/-- **Committing after the processing**: every message before the committed offset was processed and
its result counted, from the first one or from where the reading began. `process` is called once
for a message, and once more only for each time it went out of flight or its partition was given
away before a commit was stored, and for each time the committed offset went back over it. -/
theorem processes_at_least_once (hmode : config.commitMode = .afterProcess) {instances : ℕ}
    (h : Reachable (step config log) (initial instances) s) :
    (∀ p n, s.committed p = some n → ∀ m ∈ (log p).entries, m.offset < n →
      config.fromBeginning = true ∨ s.origin p ≤ m.offset → s.Completed p m) ∧
    (∀ key, s.starts key ≤ 1 + s.abandoned.count key + s.rewoundOver key) ∧
    ∀ k ∈ s.members, 0 < config.maxMessages → (k.processed : ℤ) ≤ config.maxMessages.toInt := by
  have hdone : AtLeastOnce log s := h.invariant (atLeastOnce_initial log instances)
    fun _ _ _ hs _ hu => hs.step hmode (moves_of_step hu)
  have hrepeats : Repeats s := h.invariant (repeats_initial instances)
    fun _ _ _ hs _ hu => hs.step hmode (moves_of_step hu)
  refine ⟨fun p n hp m hm hlt hfrom => hdone.below p n hp m hm (origin_le h hfrom) hlt,
    fun key => ?_, fun k hk => (bounded h k hk).le⟩
  have hagain := hrepeats.again key
  rw [causes] at hagain
  omega

/-- Two consumers that stop after two messages. -/
def twoConsumers (commitMode : Orders.CommitMode) : Config where
  brokers := ["localhost:9092"]
  groupID := "order-processor-go"
  topics := ["orders.created"]
  instances := 2
  processingDelay := 0
  commitMode := commitMode
  fromBeginning := true
  reportInterval := 0
  maxMessages := 2

/-- The partition of the messages. -/
def onePartition : TopicPartition := ⟨"orders.created", 0⟩

/-- A message whose body is an event, and one whose body is empty. -/
def twoMessages (_ : TopicPartition) : PartitionLog where
  entries := [⟨0, some (.ok (.obj [("orderId", .str "o-1"), ("eventType", .str "orders.created")]))⟩,
    ⟨3, none⟩]
  sorted := by simp

/-- What is seen of the messages and of the counts. -/
def outcome (s : Group) : Option ℕ × List Key × List (ℕ × ℕ) :=
  (s.committed onePartition, s.started, s.members.map fun k => (k.processed, k.failed))

/-- The partition is given away while its first message is processed: the message is processed
twice. -/
theorem processes_at_least_once_of_rebalance :
    ∃ s, Reachable (step (twoConsumers .afterProcess) twoMessages) (initial 2) s ∧
      s.outcome = (some 4, [(onePartition, 0), (onePartition, 0), (onePartition, 3)],
        [(1, 0), (1, 1)]) ∧
      (∀ m ∈ (twoMessages onePartition).entries, s.Completed onePartition m) ∧
      s.starts (onePartition, 0) ≤
        1 + s.abandoned.count (onePartition, 0) + s.rewoundOver (onePartition, 0) := by
  obtain ⟨s, hs, hseen⟩ := exists_reaches_of_runEvents
    (step (twoConsumers .afterProcess) twoMessages) (fun _ _ => True) outcome (s := initial 2)
    [.assigned onePartition 0 0, .fetched 0 onePartition, .assigned onePartition 1 0,
      .fetched 1 onePartition, .processReturns 1, .processReturns 0,
      .commitStored onePartition 0, .commitReturns 1 none, .fetched 1 onePartition,
      .processReturns 1, .commitReturns 0 none, .commitStored onePartition 3]
    (some 4, [(onePartition, 0), (onePartition, 0), (onePartition, 3)], [(1, 0), (1, 1)])
    (by decide +kernel)
  have hcommitted : s.committed onePartition = some 4 := congrArg Prod.fst hseen
  obtain ⟨hbelow, hagain, -⟩ := processes_at_least_once rfl hs
  refine ⟨s, hs, hseen, fun m hm => hbelow onePartition 4 hcommitted m hm ?_ (.inl rfl),
    hagain (onePartition, 0)⟩
  have hlt : ∀ m ∈ (twoMessages onePartition).entries, m.offset < 4 := by simp [twoMessages]
  exact hlt m hm

end Group

end BulkTraffic.GoEngine.Consumer
