import BulkTraffic.GoEngine.Consumer
import BulkTraffic.GoEngine.ConsumerConfig
import BulkTraffic.Lib.OffsetLog
import BulkTraffic.Lib.Runs
import Mathlib.Logic.Function.Basic

/-!
# The consumers of one group

`main` of `cmd/consumer` starts a number of consumers of one group, each of which runs `Run`: fetch
a message, `handle` it, and again. What the library and the broker do is an event: which partition
the next message is of, which answer a commit gets, and when.

A commit that was asked for may be stored at any time, more than once or never, also after the
consumer was told that its context has ended. A partition may be given to another consumer, or
to the same one again, while a message of it is in flight; it is read from the committed offset.
A partition without one is read from its first message or, if the group does not read from the
beginning, from where it ends at that time, which never goes back. A consumer that has returned
stays in the group. The process may be killed and started again.

* `Group.step`: one event.
* `Moves`: what a step does.
-/

namespace BulkTraffic.GoEngine.Consumer

open BulkTraffic.Lib BulkTraffic.Js

/-- A partition of a topic. -/
structure TopicPartition where
  topic : String
  partition : ℕ
  deriving DecidableEq

/-- `kafka.Message`: the offset and what stands in the value. -/
structure Message where
  offset : ℕ
  value : Option (Except String Json)

/-- The messages of a partition. -/
abbrev PartitionLog := OffsetLog Message.offset

/-- A partition and an offset. -/
abbrev Key := TopicPartition × ℕ

/-- A message that was fetched and that `handle` has not returned for. -/
structure Flight where
  partition : TopicPartition
  message : Message
  /-- The partition was given to a consumer again. -/
  released : Bool := false
  /-- The commit was stored since the consumer asked for it. -/
  stored : Bool := false

/-- The message's partition and offset. -/
def Flight.key (f : Flight) : Key := (f.partition, f.message.offset)

/-- Where `Run` stands. -/
inductive Phase where
  | fetching
  | committing (flight : Flight)
  | processing (flight : Flight)
  | returned (error : Option String)

/-- The message in flight. -/
def Phase.flight? : Phase → Option Flight
  | .committing f | .processing f => some f
  | .fetching | .returned _ => none

/-- A consumer: where it stands and its counts. -/
structure Member where
  phase : Phase := .fetching
  processed : ℕ := 0
  failed : ℕ := 0

/-- The consumers, the group at the broker, and what has happened so far. -/
structure Group where
  members : List Member
  /-- The context has ended. -/
  cancelled : Bool := false
  /-- The consumer a partition is read by. -/
  owner : TopicPartition → Option ℕ := fun _ => none
  /-- The offset the next message of a partition is read from. -/
  position : TopicPartition → ℕ := fun _ => 0
  /-- Where the reading of a partition began last without a committed offset. -/
  origin : TopicPartition → ℕ := fun _ => 0
  /-- The committed offset of a partition. -/
  committed : TopicPartition → Option ℕ := fun _ => none
  /-- The commits asked for. -/
  requests : List Key := []
  /-- The calls of `process`. -/
  started : List Key := []
  /-- The calls of `process` before which no commit was stored, or whose partition was given away. -/
  late : List Key := []
  successes : List Key := []
  failures : List Key := []
  /-- The messages that went out of flight, or whose partition was given away, before a commit was
  stored. -/
  abandoned : List Key := []
  /-- The messages that went out of flight before `process` returned. -/
  dropped : List Key := []
  /-- The partitions whose committed offset went back, to and from where. -/
  rewinds : List (TopicPartition × ℕ × ℕ) := []

/-- An error of the library. -/
inductive LibraryError where
  /-- `context.Canceled`. -/
  | canceled
  /-- `io.EOF`. -/
  | eof
  | other (text : String)

/-- `err.Error()`. -/
def LibraryError.text : LibraryError → String
  | .canceled => "context canceled"
  | .eof => "EOF"
  | .other text => text

/-- What happens. -/
inductive GroupEvent where
  /-- `FetchMessage` gives the next message of a partition. -/
  | fetched (member : ℕ) (partition : TopicPartition)
  /-- `FetchMessage` fails. -/
  | fetchFails (member : ℕ) (error : LibraryError)
  /-- A consumer has processed as many messages as it should. -/
  | reachesMax (member : ℕ)
  /-- `process` returns. -/
  | processReturns (member : ℕ)
  /-- The broker stores a commit. -/
  | commitStored (partition : TopicPartition) (offset : ℕ)
  /-- `CommitMessages` returns. -/
  | commitReturns (member : ℕ) (error : Option LibraryError)
  /-- A partition is given to a consumer. -/
  | assigned (partition : TopicPartition) (member : ℕ) (latest : ℕ)
  /-- A signal ends the context. -/
  | signal
  /-- The process is killed, or has ended, and is started again. -/
  | restart (instances : ℕ)

namespace Flight

/-- Its partition was not given away, and no commit was stored. -/
def fresh (f : Flight) : Bool := !f.released && !f.stored

/-- A message that goes out of flight. -/
def abandon (f : Flight) : List Key := if f.fresh then [f.key] else []

/-- Its partition is given to a consumer. -/
def release (p : TopicPartition) (f : Flight) : Flight :=
  if f.partition = p then { f with released := true } else f

/-- A commit of it is stored. -/
def store (key : Key) (f : Flight) : Flight := if f.key = key then { f with stored := true } else f

end Flight

namespace Phase

/-- The messages in flight change. -/
def map (g : Flight → Flight) : Phase → Phase
  | .committing f => .committing (g f)
  | .processing f => .processing (g f)
  | phase => phase

/-- A commit is stored. Only a consumer that waits for it is concerned. -/
def store (key : Key) : Phase → Phase
  | .committing f => .committing (f.store key)
  | phase => phase

/-- The message goes out of flight. -/
def abandon (phase : Phase) : List Key := (phase.flight?.map Flight.abandon).getD []

/-- The message goes out of flight and was not processed. -/
def drop (config : Config) : Phase → List Key
  | .processing f => [f.key]
  | .committing f =>
    match config.commitMode with
    | .beforeProcess => [f.key]
    | .afterProcess => []
  | .fetching | .returned _ => []

/-- The partition is given to a consumer. -/
def release (p : TopicPartition) (phase : Phase) : Phase := phase.map (Flight.release p)

/-- What is abandoned then. -/
def abandonOf (p : TopicPartition) (phase : Phase) : List Key :=
  phase.abandon.filter fun key => key.1 = p

end Phase

/-- `c.config.MaxMessages > 0 && c.stats.Processed() >= c.config.MaxMessages`. -/
def Member.reachedMax (config : Config) (k : Member) : Prop :=
  0 < config.maxMessages ∧ config.maxMessages.toInt ≤ k.processed

instance (config : Config) (k : Member) : Decidable (k.reachedMax config) :=
  inferInstanceAs (Decidable (_ ∧ _))

namespace Group

/-- A consumer changes. -/
def setMember (s : Group) (c : ℕ) (k : Member) : Group := { s with members := s.members.set c k }

/-- A consumer goes on to another phase. -/
def enter (s : Group) (c : ℕ) (k : Member) (phase : Phase) : Group :=
  s.setMember c { k with phase := phase }

/-- The reader has given a message of a partition. -/
def advance (s : Group) (p : TopicPartition) (m : Message) : Group :=
  { s with position := Function.update s.position p (m.offset + 1) }

/-- `process(msg)` is called. -/
def startProcessing (s : Group) (c : ℕ) (k : Member) (f : Flight) : Group :=
  { s with
    started := s.started ++ [f.key]
    late := s.late ++ if f.released || !f.stored then [f.key] else [] }.enter c k (.processing f)

/-- `CommitMessages(ctx, msg)` is called. -/
def startCommit (s : Group) (c : ℕ) (k : Member) (f : Flight) : Group :=
  { s with requests := s.requests ++ [f.key] }.enter c k (.committing { f with stored := false })

/-- `handle(ctx, msg)` is called. -/
def startHandle (config : Config) (s : Group) (c : ℕ) (k : Member) (f : Flight) : Group :=
  match config.commitMode with
  | .beforeProcess => s.startCommit c k f
  | .afterProcess => s.startProcessing c k f

/-- The message goes out of flight. -/
def abandon (s : Group) (f : Flight) : Group := { s with abandoned := s.abandoned ++ f.abandon }

/-- `handle` goes on after `commit` returned no error. -/
def afterCommit (config : Config) (s : Group) (c : ℕ) (k : Member) (f : Flight) : Group :=
  match config.commitMode with
  | .beforeProcess => (s.abandon f).startProcessing c k f
  | .afterProcess => (s.abandon f).enter c k .fetching

/-- `commit` returned an error, and so do `handle` and `Run`. -/
def commitFailed (config : Config) (s : Group) (c : ℕ) (k : Member) (f : Flight)
    (error : LibraryError) : Group :=
  { s.abandon f with dropped := s.dropped ++ k.phase.drop config }.enter c k
    (.returned (some ("오프셋 커밋 실패 topic=" ++ f.partition.topic ++ " partition=" ++
      toString f.partition.partition ++ " offset=" ++ toString f.message.offset ++ ": " ++
      error.text)))

/-- `handle` goes on after `process` returned. -/
def afterProcess (config : Config) (s : Group) (c : ℕ) (k : Member) (f : Flight) : Group :=
  match config.commitMode with
  | .beforeProcess => s.enter c k .fetching
  | .afterProcess => s.startCommit c k f

/-- `process(msg)` returns, and its result is counted. -/
def processReturns (config : Config) (s : Group) (c : ℕ) (k : Member) (f : Flight) : Group :=
  match process f.message.value with
  | .ok _ =>
    { s with successes := s.successes ++ [f.key] }.afterProcess config c
      { k with processed := k.processed + 1 } f
  | .error _ =>
    { s with failures := s.failures ++ [f.key] }.afterProcess config c
      { k with failed := k.failed + 1 } f

/-- The broker stores the offset after a message. -/
def storeCommit (s : Group) (p : TopicPartition) (offset : ℕ) : Group :=
  { s with
    committed := Function.update s.committed p (some (offset + 1))
    rewinds := s.rewinds ++ ((s.committed p).filter (offset + 1 < ·)).toList.map fun c =>
      (p, offset + 1, c)
    members := s.members.map fun k => { k with phase := k.phase.store (p, offset) } }

/-- A partition without a committed offset is read from here. -/
def startOffset (config : Config) (latest : ℕ) : ℕ := if config.fromBeginning then 0 else latest

/-- A partition is given to a consumer. -/
def assign (config : Config) (s : Group) (p : TopicPartition) (c latest : ℕ) : Group :=
  { s with
    owner := Function.update s.owner p (some c)
    position := Function.update s.position p ((s.committed p).getD (startOffset config latest))
    origin :=
      if s.committed p = none then Function.update s.origin p (startOffset config latest)
      else s.origin
    abandoned := s.abandoned ++ s.members.flatMap fun k => k.phase.abandonOf p
    members := s.members.map fun k => { k with phase := k.phase.release p } }

/-- The process is started again. -/
def restart (config : Config) (s : Group) (instances : ℕ) : Group :=
  { s with
    members := List.replicate instances {}
    cancelled := false
    owner := fun _ => none
    abandoned := s.abandoned ++ s.members.flatMap fun k => k.phase.abandon
    dropped := s.dropped ++ s.members.flatMap fun k => k.phase.drop config }

/-- One event. -/
def step (config : Config) (log : TopicPartition → PartitionLog) (s : Group) :
    GroupEvent → Option Group
  | .fetched c p =>
    match s.members[c]? with
    | some k =>
      match k.phase, (log p).nextFrom (s.position p) with
      | .fetching, some m =>
        if s.owner p = some c ∧ ¬ k.reachedMax config then
          some (startHandle config (s.advance p m) c k { partition := p, message := m })
        else none
      | _, _ => none
    | none => none
  | .fetchFails c error =>
    match s.members[c]? with
    | some k =>
      match k.phase with
      | .fetching =>
        if k.reachedMax config then none
        else
          match error with
          | .canceled => if s.cancelled then some (s.enter c k (.returned none)) else none
          | .eof => some (s.enter c k (.returned none))
          | .other text => some (s.enter c k (.returned (some ("메시지 읽기 실패: " ++ text))))
      | _ => none
    | none => none
  | .reachesMax c =>
    match s.members[c]? with
    | some k =>
      match k.phase with
      | .fetching => if k.reachedMax config then some (s.enter c k (.returned none)) else none
      | _ => none
    | none => none
  | .processReturns c =>
    match s.members[c]? with
    | some k =>
      match k.phase with
      | .processing f => some (s.processReturns config c k f)
      | _ => none
    | none => none
  | .commitStored p offset => if (p, offset) ∈ s.requests then some (s.storeCommit p offset) else none
  | .commitReturns c error =>
    match s.members[c]? with
    | some k =>
      match k.phase with
      | .committing f =>
        match error with
        | none => if f.stored then some (s.afterCommit config c k f) else none
        | some .canceled => if s.cancelled then some (s.afterCommit config c k f) else none
        | some error => some (s.commitFailed config c k f error)
      | _ => none
    | none => none
  | .assigned p c latest =>
    if c < s.members.length ∧ s.origin p ≤ startOffset config latest then
      some (s.assign config p c latest)
    else none
  | .signal => some { s with cancelled := true }
  | .restart instances => some (s.restart config instances)

/-- A new group. -/
def initial (instances : ℕ) : Group := { members := List.replicate instances {} }

/-! ### One step -/

variable {config : Config} {log : TopicPartition → PartitionLog} {s u : Group}

/-- What a step does. -/
inductive Moves (config : Config) (log : TopicPartition → PartitionLog) (s : Group) :
    Group → Prop where
  | fetch (c : ℕ) (k : Member) (p : TopicPartition) (m : Message) : s.members[c]? = some k →
      k.phase = .fetching → s.owner p = some c → ¬ k.reachedMax config →
      (log p).Next (s.position p) m →
      Moves config log s
        (startHandle config (s.advance p m) c k { partition := p, message := m })
  | leave (c : ℕ) (k : Member) (error : Option String) : s.members[c]? = some k →
      k.phase = .fetching → Moves config log s (s.enter c k (.returned error))
  | process (c : ℕ) (k : Member) (f : Flight) : s.members[c]? = some k →
      k.phase = .processing f → Moves config log s (s.processReturns config c k f)
  | store (p : TopicPartition) (offset : ℕ) : (p, offset) ∈ s.requests →
      Moves config log s (s.storeCommit p offset)
  | commit (c : ℕ) (k : Member) (f : Flight) : s.members[c]? = some k →
      k.phase = .committing f → f.stored = true ∨ s.cancelled = true →
      Moves config log s (s.afterCommit config c k f)
  | fail (c : ℕ) (k : Member) (f : Flight) (error : LibraryError) : s.members[c]? = some k →
      k.phase = .committing f → Moves config log s (s.commitFailed config c k f error)
  | assign (p : TopicPartition) (c latest : ℕ) : s.origin p ≤ startOffset config latest →
      Moves config log s (s.assign config p c latest)
  | signal : Moves config log s { s with cancelled := true }
  | restart (instances : ℕ) : Moves config log s (s.restart config instances)

theorem moves_of_step {e : GroupEvent} (hu : s.step config log e = some u) :
    s.Moves config log u := by
  cases e with
  | fetched c p =>
    simp only [step] at hu
    split at hu
    · rename_i k hk
      split at hu
      · rename_i m hphase hnext
        split at hu
        · rename_i hcond
          simp only [Option.some.injEq] at hu
          subst hu
          exact .fetch c k p m hk hphase hcond.1 hcond.2 (OffsetLog.next_of_nextFrom hnext)
        · cases hu
      · cases hu
    · cases hu
  | fetchFails c error =>
    simp only [step] at hu
    split at hu
    · rename_i k hk
      split at hu
      · rename_i hphase
        split at hu
        · cases hu
        · split at hu
          · split at hu
            · simp only [Option.some.injEq] at hu
              subst hu
              exact .leave c k _ hk hphase
            · cases hu
          · simp only [Option.some.injEq] at hu
            subst hu
            exact .leave c k _ hk hphase
          · simp only [Option.some.injEq] at hu
            subst hu
            exact .leave c k _ hk hphase
      · cases hu
    · cases hu
  | reachesMax c =>
    simp only [step] at hu
    split at hu
    · rename_i k hk
      split at hu
      · rename_i hphase
        split at hu
        · simp only [Option.some.injEq] at hu
          subst hu
          exact .leave c k _ hk hphase
        · cases hu
      · cases hu
    · cases hu
  | processReturns c =>
    simp only [step] at hu
    split at hu
    · rename_i k hk
      split at hu
      · rename_i f hphase
        simp only [Option.some.injEq] at hu
        subst hu
        exact .process c k f hk hphase
      · cases hu
    · cases hu
  | commitStored p offset =>
    simp only [step] at hu
    split at hu
    · rename_i hmem
      simp only [Option.some.injEq] at hu
      subst hu
      exact .store p offset hmem
    · cases hu
  | commitReturns c error =>
    simp only [step] at hu
    split at hu
    · rename_i k hk
      split at hu
      · rename_i f hphase
        split at hu
        · split at hu
          · rename_i hstored
            simp only [Option.some.injEq] at hu
            subst hu
            exact .commit c k f hk hphase (.inl hstored)
          · cases hu
        · split at hu
          · rename_i hcancelled
            simp only [Option.some.injEq] at hu
            subst hu
            exact .commit c k f hk hphase (.inr hcancelled)
          · cases hu
        · simp only [Option.some.injEq] at hu
          subst hu
          exact .fail c k f _ hk hphase
      · cases hu
    · cases hu
  | assigned p c latest =>
    simp only [step] at hu
    split at hu
    · rename_i hcond
      simp only [Option.some.injEq] at hu
      subst hu
      exact .assign p c latest hcond.2
    · cases hu
  | signal =>
    simp only [step, Option.some.injEq] at hu
    subst hu
    exact .signal
  | restart instances =>
    simp only [step, Option.some.injEq] at hu
    subst hu
    exact .restart instances

theorem committed_storeCommit_self (p : TopicPartition) (offset : ℕ) :
    (s.storeCommit p offset).committed p = some (offset + 1) :=
  Function.update_self ..

theorem committed_storeCommit_of_ne {p q : TopicPartition} (h : q ≠ p) (offset : ℕ) :
    (s.storeCommit p offset).committed q = s.committed q :=
  Function.update_of_ne h ..

theorem position_advance_self (p : TopicPartition) (m : Message) :
    (s.advance p m).position p = m.offset + 1 :=
  Function.update_self ..

theorem position_advance_of_ne {p q : TopicPartition} (h : q ≠ p) (m : Message) :
    (s.advance p m).position q = s.position q :=
  Function.update_of_ne h ..

theorem owner_assign_of_ne {p q : TopicPartition} (h : q ≠ p) (c latest : ℕ) :
    (s.assign config p c latest).owner q = s.owner q :=
  Function.update_of_ne h ..

theorem position_assign_self (p : TopicPartition) (c latest : ℕ) :
    (s.assign config p c latest).position p =
      (s.committed p).getD (startOffset config latest) :=
  Function.update_self ..

theorem position_assign_of_ne {p q : TopicPartition} (h : q ≠ p) (c latest : ℕ) :
    (s.assign config p c latest).position q = s.position q :=
  Function.update_of_ne h ..

/-- Without a committed offset the reading begins anew. -/
theorem origin_assign_self {p : TopicPartition} (h : s.committed p = none) (c latest : ℕ) :
    (s.assign config p c latest).origin p = startOffset config latest := by
  simp only [assign, if_pos h, Function.update_self]

theorem le_origin_assign {p : TopicPartition} {latest : ℕ}
    (h : s.origin p ≤ startOffset config latest) (c : ℕ) (q : TopicPartition) :
    s.origin q ≤ (s.assign config p c latest).origin q := by
  simp only [assign]
  split
  · by_cases hpq : q = p
    · rw [hpq, Function.update_self]
      exact h
    · rw [Function.update_of_ne hpq]
  · exact Nat.le_refl _

/-- The members when one of them goes on to another phase. -/
theorem members_enter {c d : ℕ} {k k' : Member} {phase : Phase}
    (h : (s.enter c k phase).members[d]? = some k') :
    d = c ∧ k' = { k with phase := phase } ∨ d ≠ c ∧ s.members[d]? = some k' := by
  simp only [enter, setMember, List.getElem?_set] at h
  split at h
  · rename_i hcd
    split at h
    · exact .inl ⟨hcd.symm, (Option.some.inj h).symm⟩
    · cases h
  · rename_i hcd
    exact .inr ⟨Ne.symm hcd, h⟩

theorem members_enter_self {c : ℕ} {k k₀ : Member} (h : s.members[c]? = some k₀) (phase : Phase) :
    (s.enter c k phase).members[c]? = some { k with phase := phase } := by
  rw [enter, setMember, List.getElem?_set_self]
  exact (List.getElem?_eq_some_iff.mp h).1

/-- The members when all of them change. -/
theorem members_map {g : Member → Member} {d : ℕ} {k' : Member}
    (h : (s.members.map g)[d]? = some k') : ∃ k, s.members[d]? = some k ∧ g k = k' := by
  rwa [List.getElem?_map, Option.map_eq_some_iff] at h

/-- The members of a new process. -/
theorem eq_of_members_replicate {n d : ℕ} {k : Member}
    (h : (List.replicate n ({} : Member))[d]? = some k) : k = {} :=
  List.eq_of_mem_replicate (List.mem_of_getElem? h)

end Group

end BulkTraffic.GoEngine.Consumer
