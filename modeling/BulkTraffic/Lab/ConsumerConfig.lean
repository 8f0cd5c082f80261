import BulkTraffic.Js.NumberText
import BulkTraffic.Orders.Consumer

/-!
# The consumer's configuration

`consumerConfigFromEnv` reads the settings of a consumer process from its environment. Each
setting has its own parser: texts are taken as they are, numbers with `parseInt`, the commit mode
in any case and with white space around it, a flag by comparison with `true`.

`parseTopics_ok_iff` says which lists of topics are accepted, and `readNonNegativeIntEnv_natCast`
and `readPositiveIntEnv_natCast` that a number's own text is read back, below `10 ^ 21`.
-/

namespace BulkTraffic.Lab

open BulkTraffic.Js BulkTraffic.Orders

/-- `process.env`: the variables that are set. -/
abbrev Env := String → Option String

/-! ### Reading the environment -/

/-- `raw.split(',').map((s) => s.trim()).filter(Boolean)`. -/
def commaSeparated (raw : String) : List String :=
  ((raw.toList.splitOn ',').map fun cs => trim (String.ofList cs)).filter fun s => s != ""

/-- `readPositiveIntEnv(name, fallback)`. -/
def readPositiveIntEnv (env : Env) (name : String) (fallback : Number) : Number :=
  match env name with
  | none | some "" => fallback
  | some raw =>
    let parsed := parseInt raw
    if parsed.isFinite && Number.lt (.finite 0) parsed then parsed else fallback

/-- `readNonNegativeIntEnv(name, fallback)`. -/
def readNonNegativeIntEnv (env : Env) (name : String) (fallback : Number) :
    Except String Number :=
  match env name with
  | none | some "" => .ok fallback
  | some raw =>
    let parsed := parseInt raw
    if !parsed.isFinite || Number.lt parsed (.finite 0) then
      .error s!"{name} 는 0 이상 정수여야 합니다. 현재 값: {raw}"
    else .ok parsed

/-- `readKafkaBrokersEnv()`. -/
def readKafkaBrokersEnv (env : Env) : List String :=
  commaSeparated ((env "KAFKA_BROKERS").getD "localhost:9092")

/-- The text of a commit mode. -/
def commitModeText : CommitMode → String
  | .afterProcess => "after-process"
  | .beforeProcess => "before-process"

/-- `parseCommitMode(raw)`. -/
def parseCommitMode (raw : Option String) : Except String CommitMode :=
  match raw with
  | none => .ok .afterProcess
  | some raw =>
    if trim raw = "" then .ok .afterProcess
    else
      let normalized := toLowerCase (trim raw)
      if normalized = "after-process" then .ok .afterProcess
      else if normalized = "before-process" then .ok .beforeProcess
      else .error (s!"CONSUMER_COMMIT_MODE 는 after-process 또는 before-process 여야 합니다. " ++
        s!"현재 값: {raw}")

/-- `DEFAULT_TOPICS`: the values of `ORDER_TOPICS`. -/
def defaultTopics : List String := orderEventTypes

/-- `parseTopics(raw)`. -/
def parseTopics (raw : Option String) : Except String (List String) :=
  match raw with
  | none => .ok defaultTopics
  | some raw =>
    if raw = "" ∨ trim raw = "" then .ok defaultTopics
    else
      let topics := commaSeparated raw
      if topics.length = 0 then .error "CONSUMER_TOPICS 에 구독할 토픽이 하나도 없습니다."
      else .ok topics

/-- `ConsumerConfig`. -/
structure ConsumerConfig where
  /-- The brokers. -/
  brokers : List String
  /-- The client's name. -/
  clientId : String
  /-- The consumer group. -/
  groupId : String
  /-- The topics. -/
  topics : List String
  /-- How many consumers the process runs. -/
  instances : Number
  /-- The time a message takes. -/
  processingDelayMs : Number
  /-- When offsets are committed. -/
  commitMode : CommitMode
  /-- The time between processing and commit. -/
  commitDelayMs : Number
  /-- Does a new group read from the start? -/
  fromBeginning : Bool
  /-- After how many messages the process kills itself, `0` for never. -/
  crashAfter : Number
  /-- After what time without a sign of life the broker gives the consumer up. -/
  sessionTimeoutMs : Number
  deriving DecidableEq

/-- `consumerConfigFromEnv()`. -/
def consumerConfigFromEnv (env : Env) : Except String ConsumerConfig := do
  let brokers := readKafkaBrokersEnv env
  let clientId := (env "CONSUMER_CLIENT_ID").getD "order-consumer"
  let groupId := (env "CONSUMER_GROUP_ID").getD "order-processor"
  let topics ← parseTopics (env "CONSUMER_TOPICS")
  let instances := readPositiveIntEnv env "CONSUMER_COUNT" (.finite 1)
  let processingDelayMs ← readNonNegativeIntEnv env "CONSUMER_DELAY_MS" (.finite 0)
  let commitMode ← parseCommitMode (env "CONSUMER_COMMIT_MODE")
  let commitDelayMs ← readNonNegativeIntEnv env "CONSUMER_COMMIT_DELAY_MS" (.finite 0)
  let fromBeginning := env "CONSUMER_FROM_BEGINNING" == some "true"
  let crashAfter ← readNonNegativeIntEnv env "CONSUMER_CRASH_AFTER" (.finite 0)
  let sessionTimeoutMs := readPositiveIntEnv env "CONSUMER_SESSION_TIMEOUT_MS" (.finite 60000)
  return { brokers, clientId, groupId, topics, instances, processingDelayMs, commitMode,
           commitDelayMs, fromBeginning, crashAfter, sessionTimeoutMs }

/-! ### What is read -/

/-- What a computation that succeeds has computed on the way. -/
theorem bind_eq_ok {α β : Type} {x : Except String α} {f : α → Except String β} {b : β}
    (h : (x >>= f) = .ok b) : ∃ a, x = .ok a ∧ f a = .ok b := by
  cases x with
  | error e => cases h
  | ok a => exact ⟨a, rfl, h⟩

/-- Each setting is read by its own parser. -/
structure ReadAs (env : Env) (config : ConsumerConfig) : Prop where
  /-- The group. -/
  groupId : config.groupId = (env "CONSUMER_GROUP_ID").getD "order-processor"
  /-- The topics. -/
  topics : parseTopics (env "CONSUMER_TOPICS") = .ok config.topics
  /-- The number of consumers. -/
  instances : config.instances = readPositiveIntEnv env "CONSUMER_COUNT" (.finite 1)
  /-- The processing delay. -/
  processingDelayMs :
    readNonNegativeIntEnv env "CONSUMER_DELAY_MS" (.finite 0) = .ok config.processingDelayMs
  /-- The commit mode. -/
  commitMode : parseCommitMode (env "CONSUMER_COMMIT_MODE") = .ok config.commitMode
  /-- The commit delay. -/
  commitDelayMs :
    readNonNegativeIntEnv env "CONSUMER_COMMIT_DELAY_MS" (.finite 0) = .ok config.commitDelayMs
  /-- The flag. -/
  fromBeginning : config.fromBeginning = (env "CONSUMER_FROM_BEGINNING" == some "true")
  /-- The number of messages before the crash. -/
  crashAfter :
    readNonNegativeIntEnv env "CONSUMER_CRASH_AFTER" (.finite 0) = .ok config.crashAfter
  /-- The session timeout. -/
  sessionTimeoutMs :
    config.sessionTimeoutMs = readPositiveIntEnv env "CONSUMER_SESSION_TIMEOUT_MS" (.finite 60000)

theorem readAs_of_ok {env : Env} {config : ConsumerConfig}
    (h : consumerConfigFromEnv env = .ok config) : ReadAs env config := by
  obtain ⟨topics, htopics, h⟩ := bind_eq_ok h
  obtain ⟨processingDelayMs, hprocessing, h⟩ := bind_eq_ok h
  obtain ⟨commitMode, hmode, h⟩ := bind_eq_ok h
  obtain ⟨commitDelayMs, hcommit, h⟩ := bind_eq_ok h
  obtain ⟨crashAfter, hcrash, h⟩ := bind_eq_ok h
  obtain rfl := Except.ok.inj h
  exact ⟨rfl, htopics, rfl, hprocessing, hmode, hcommit, rfl, hcrash, rfl⟩

/-- If the parsers that can fail do not, there is a configuration. -/
theorem exists_ok {env : Env} {topics : List String} {processingDelayMs commitDelayMs : Number}
    {commitMode : CommitMode} {crashAfter : Number}
    (htopics : parseTopics (env "CONSUMER_TOPICS") = .ok topics)
    (hprocessing :
      readNonNegativeIntEnv env "CONSUMER_DELAY_MS" (.finite 0) = .ok processingDelayMs)
    (hmode : parseCommitMode (env "CONSUMER_COMMIT_MODE") = .ok commitMode)
    (hcommit :
      readNonNegativeIntEnv env "CONSUMER_COMMIT_DELAY_MS" (.finite 0) = .ok commitDelayMs)
    (hcrash : readNonNegativeIntEnv env "CONSUMER_CRASH_AFTER" (.finite 0) = .ok crashAfter) :
    ∃ config, consumerConfigFromEnv env = .ok config := by
  unfold consumerConfigFromEnv
  rw [htopics, hprocessing, hmode, hcommit, hcrash]
  exact ⟨_, rfl⟩

/-- `CONSUMER_TOPICS` is not set, is blank, or names a topic. -/
def NamesTopic (raw : Option String) : Prop :=
  ∀ text ∈ raw, trim text = "" ∨ commaSeparated text ≠ []

theorem parseTopics_ok_iff (raw : Option String) :
    (∃ topics, parseTopics raw = .ok topics) ↔ NamesTopic raw := by
  cases raw with
  | none => simp [parseTopics, NamesTopic]
  | some text =>
    have hempty : trim "" = "" := by decide
    simp only [parseTopics, NamesTopic, Option.mem_def, Option.some.injEq, forall_eq']
    by_cases hblank : text = "" ∨ trim text = ""
    · have htrim : trim text = "" := by
        rcases hblank with rfl | h
        · exact hempty
        · exact h
      simp [htrim]
    · obtain ⟨hne, htrim⟩ := not_or.mp hblank
      by_cases htopics : commaSeparated text = []
      · simp [hne, htrim, htopics]
      · simp [hne, htrim, htopics]

/-- A variable that is set and not empty is parsed. -/
theorem readNonNegativeIntEnv_of_ne {env : Env} {name raw : String} (h : env name = some raw)
    (hne : raw ≠ "") (fallback : Number) :
    readNonNegativeIntEnv env name fallback =
      if !(parseInt raw).isFinite || Number.lt (parseInt raw) (.finite 0) then
        .error s!"{name} 는 0 이상 정수여야 합니다. 현재 값: {raw}"
      else .ok (parseInt raw) := by
  unfold readNonNegativeIntEnv
  rw [h]
  split
  · rename_i heq
    cases heq
  · rename_i heq
    exact absurd (Option.some.inj heq) hne
  · rename_i heq
    rw [Option.some.inj heq]

theorem readPositiveIntEnv_of_ne {env : Env} {name raw : String} (h : env name = some raw)
    (hne : raw ≠ "") (fallback : Number) :
    readPositiveIntEnv env name fallback =
      if (parseInt raw).isFinite && Number.lt (.finite 0) (parseInt raw) then parseInt raw
      else fallback := by
  unfold readPositiveIntEnv
  rw [h]
  split
  · rename_i heq
    cases heq
  · rename_i heq
    exact absurd (Option.some.inj heq) hne
  · rename_i heq
    rw [Option.some.inj heq]

/-- The text of an integer is not empty. -/
theorem numberText_natCast_ne {n : ℕ} (hn : roundNat n = n) (h : n < 10 ^ 21) :
    numberText (.finite n) ≠ "" := by
  intro hempty
  have hread := parseInt_numberText hn h
  have hnan : parseInt "" = .nan := by decide
  rw [hempty, hnan] at hread
  cases hread

/-- An integer's text is read back. -/
theorem readNonNegativeIntEnv_natCast {env : Env} {name : String} {n : ℕ}
    (henv : env name = some (numberText (.finite n))) (hn : roundNat n = n) (h : n < 10 ^ 21)
    (fallback : Number) : readNonNegativeIntEnv env name fallback = .ok (.finite n) := by
  rw [readNonNegativeIntEnv_of_ne henv (numberText_natCast_ne hn h), parseInt_numberText hn h]
  simp [Number.isFinite, Number.lt]

/-- A positive integer's text is read back. -/
theorem readPositiveIntEnv_natCast {env : Env} {name : String} {n : ℕ}
    (henv : env name = some (numberText (.finite n))) (hn : roundNat n = n) (hpos : 0 < n)
    (h : n < 10 ^ 21) (fallback : Number) :
    readPositiveIntEnv env name fallback = .finite n := by
  rw [readPositiveIntEnv_of_ne henv (numberText_natCast_ne hn h), parseInt_numberText hn h]
  simp [Number.isFinite, Number.lt, hpos]

/-- From `10 ^ 21` on an integer's text is not read back. -/
theorem readNonNegativeIntEnv_ne {env : Env} {name : String} {n : ℕ}
    (henv : env name = some (numberText (.finite n))) (h : 10 ^ 21 ≤ n) :
    readNonNegativeIntEnv env name (.finite 0) ≠ .ok (.finite n) := by
  by_cases hne : numberText (.finite n) = ""
  · have hfallback : readNonNegativeIntEnv env name (.finite 0) = .ok (.finite 0) := by
      rw [hne] at henv
      simp only [readNonNegativeIntEnv, henv]
    rw [hfallback]
    intro heq
    have hzero : n = 0 := by
      have := Number.finite.inj (Except.ok.inj heq)
      exact_mod_cast this.symm
    omega
  · rw [readNonNegativeIntEnv_of_ne henv hne]
    split
    · exact fun heq => by cases heq
    · intro heq
      exact parseInt_numberText_ne h (Except.ok.inj heq)

/-- The text of a commit mode is read back. -/
theorem parseCommitMode_commitModeText (mode : CommitMode) :
    parseCommitMode (some (commitModeText mode)) = .ok mode := by
  cases mode <;> decide +kernel

end BulkTraffic.Lab
