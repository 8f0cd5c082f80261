import BulkTraffic.GoEngine.Consumer
import BulkTraffic.GoEngine.Durations
import BulkTraffic.Lab.ConsumerConfig

/-!
# The configuration of the Go consumer

`fromEnv` reads the settings of a consumer process from its environment and refuses what it cannot
read. A variable that is not set reads as the empty string. Numbers are `int`s of 64 bits, and the
two durations are given in milliseconds and kept in nanoseconds.

`readAs_of_ok` says what each setting of an accepted configuration was read from.
-/

namespace BulkTraffic.GoEngine.Consumer

open BulkTraffic.Js BulkTraffic.Lab BulkTraffic.Orders

/-- `os.Getenv`. -/
abbrev GoEnv := String → String

/-! ### Strings -/

/-- `unicode.IsSpace(r)`. -/
def isSpace (c : Char) : Bool :=
  let n := c.toNat
  (0x9 ≤ n && n ≤ 0xD) || n == 0x20 || n == 0x85 || n == 0xA0 || n == 0x1680 ||
    (0x2000 ≤ n && n ≤ 0x200A) || n == 0x2028 || n == 0x2029 || n == 0x202F || n == 0x205F ||
    n == 0x3000

/-- `strings.TrimSpace(s)`. -/
def trimSpace (s : String) : String :=
  String.ofList ((s.toList.dropWhile isSpace).reverse.dropWhile isSpace).reverse

/-- `strings.ToLower(s)`. The result is only compared with words of ASCII letters, so of the other
characters only those with an ASCII lower case count. -/
def toLower (s : String) : String :=
  String.ofList (s.toList.map fun c =>
    if c.toNat = 0x130 then 'i' else if c.toNat = 0x212A then 'k' else c.toLower)

/-- `strings.Split(raw, ",")`, trimmed and without the blank parts. -/
def splitTrimmed (raw : String) : List String :=
  ((raw.toList.splitOn ',').map fun cs => trimSpace (String.ofList cs)).filter fun s => s != ""

/-- `%q`, for a text of printable characters. The others, control characters among them, `%q` writes
as escapes, and here they are left as they are; only texts of errors contain what it gives. -/
def quote (s : String) : String :=
  "\"" ++ String.ofList (s.toList.flatMap fun c =>
    if c = '"' ∨ c = '\\' then ['\\', c] else [c]) ++ "\""

/-! ### The settings -/

/-- `Config`, with the durations in nanoseconds. -/
structure Config where
  /-- The brokers. -/
  brokers : List String
  /-- The consumer group. -/
  groupID : String
  /-- The topics. -/
  topics : List String
  /-- How many consumers the process runs. -/
  instances : Int64
  /-- The time a message takes. -/
  processingDelay : Int64
  /-- When offsets are committed. -/
  commitMode : CommitMode
  /-- Does a new group read from the start? -/
  fromBeginning : Bool
  /-- The time between two reports. -/
  reportInterval : Int64
  /-- After how many messages the consumer stops, `0` for never. -/
  maxMessages : Int64

/-- `DefaultTopics`. -/
def defaultTopics : List String :=
  ["orders.created", "inventory.reserved", "payments.approved", "shipments.started"]

/-- `envString(key, fallback)`. -/
def envString (env : GoEnv) (key fallback : String) : String :=
  if trimSpace (env key) != "" then trimSpace (env key) else fallback

/-- `envInt(key, fallback)`. -/
def envInt (env : GoEnv) (key : String) (fallback : Int64) : Except String Int64 :=
  let raw := trimSpace (env key)
  if raw = "" then .ok fallback
  else
    let error := s!"{key} 는 0 이상 정수여야 합니다. 현재 값: {quote raw}"
    match parseInt64 raw with
    | none => .error error
    | some n => if n < 0 then .error error else .ok n

/-- `envBool(key, fallback)`. -/
def envBool (env : GoEnv) (key : String) (fallback : Bool) : Except String Bool :=
  let raw := trimSpace (env key)
  if raw = "" then .ok fallback
  else if toLower raw = "true" then .ok true
  else if toLower raw = "false" then .ok false
  else .error s!"{key} 는 true 또는 false 여야 합니다. 현재 값: {quote raw}"

/-- `parseCommitMode(raw)`. -/
def parseCommitMode (raw : String) : Except String CommitMode :=
  let trimmed := trimSpace (toLower raw)
  if trimmed = "" then .ok .afterProcess
  else if trimmed = "after-process" then .ok .afterProcess
  else if trimmed = "before-process" then .ok .beforeProcess
  else .error (s!"GO_CONSUMER_COMMIT_MODE 는 after-process 또는 before-process 여야 합니다. " ++
    s!"현재 값: {quote raw}")

/-- `parseBrokers(raw)`. -/
def parseBrokers (raw : String) : List String := splitTrimmed raw

/-- `parseTopics(raw)`. -/
def parseTopics (raw : String) : List String :=
  if trimSpace raw = "" then defaultTopics else splitTrimmed raw

/-- `FromEnv()`. -/
def fromEnv (env : GoEnv) : Except String Config :=
  let brokers := parseBrokers (envString env "KAFKA_BROKERS" "localhost:9092")
  if brokers.length = 0 then .error "KAFKA_BROKERS 가 비어 있습니다"
  else do
    let instances ← envInt env "GO_CONSUMER_COUNT" 1
    if instances < 1 then
      .error s!"GO_CONSUMER_COUNT 는 1 이상이어야 합니다: {instances.toInt}"
    else
      let delayMs ← envInt env "GO_CONSUMER_DELAY_MS" 0
      let reportMs ← envInt env "GO_CONSUMER_REPORT_INTERVAL_MS" 10000
      let maxMessages ← envInt env "GO_CONSUMER_MAX_MESSAGES" 0
      let fromBeginning ← envBool env "GO_CONSUMER_FROM_BEGINNING" false
      let commitMode ← parseCommitMode (env "GO_CONSUMER_COMMIT_MODE")
      return {
        brokers := brokers
        groupID := envString env "GO_CONSUMER_GROUP_ID" "order-processor-go"
        topics := parseTopics (env "GO_CONSUMER_TOPICS")
        instances := instances
        processingDelay := milliseconds delayMs
        commitMode := commitMode
        fromBeginning := fromBeginning
        reportInterval := milliseconds reportMs
        maxMessages := maxMessages }

/-! ### What is read -/

/-- What the settings of an accepted configuration were read from. -/
structure ReadAs (env : GoEnv) (config : Config) (delayMs reportMs : Int64) : Prop where
  brokers : config.brokers = parseBrokers (envString env "KAFKA_BROKERS" "localhost:9092") ∧
    config.brokers ≠ []
  groupID : config.groupID = envString env "GO_CONSUMER_GROUP_ID" "order-processor-go"
  topics : config.topics = parseTopics (env "GO_CONSUMER_TOPICS")
  instances : envInt env "GO_CONSUMER_COUNT" 1 = .ok config.instances ∧ ¬ config.instances < 1
  delay : envInt env "GO_CONSUMER_DELAY_MS" 0 = .ok delayMs
  processingDelay : config.processingDelay = milliseconds delayMs
  report : envInt env "GO_CONSUMER_REPORT_INTERVAL_MS" 10000 = .ok reportMs
  reportInterval : config.reportInterval = milliseconds reportMs
  maxMessages : envInt env "GO_CONSUMER_MAX_MESSAGES" 0 = .ok config.maxMessages
  fromBeginning : envBool env "GO_CONSUMER_FROM_BEGINNING" false = .ok config.fromBeginning
  commitMode : parseCommitMode (env "GO_CONSUMER_COMMIT_MODE") = .ok config.commitMode

/-- **Each setting is read by its own reader.** -/
theorem readAs_of_ok {env : GoEnv} {config : Config} (h : fromEnv env = .ok config) :
    ∃ delayMs reportMs, ReadAs env config delayMs reportMs := by
  rw [fromEnv] at h
  split at h
  · cases h
  · rename_i hbrokers
    obtain ⟨instances, hinstances, h⟩ := bind_eq_ok h
    split at h
    · cases h
    · rename_i hone
      obtain ⟨delayMs, hdelay, h⟩ := bind_eq_ok h
      obtain ⟨reportMs, hreport, h⟩ := bind_eq_ok h
      obtain ⟨maxMessages, hmax, h⟩ := bind_eq_ok h
      obtain ⟨fromBeginning, hfrom, h⟩ := bind_eq_ok h
      obtain ⟨commitMode, hmode, h⟩ := bind_eq_ok h
      obtain rfl := Except.ok.inj h
      have hsome := mt List.length_eq_zero_iff.mpr hbrokers
      refine ⟨delayMs, reportMs, ?_⟩
      constructor
      · dsimp only
        exact ⟨rfl, hsome⟩
      · dsimp only
      · dsimp only
      · exact ⟨hinstances, hone⟩
      · exact hdelay
      · dsimp only
      · exact hreport
      · dsimp only
      · exact hmax
      · exact hfrom
      · exact hmode

/-- An accepted number is not negative. -/
theorem nonneg_of_envInt {env : GoEnv} {key : String} {fallback n : Int64} (hfallback : 0 ≤ fallback)
    (h : envInt env key fallback = .ok n) : 0 ≤ n := by
  rw [envInt] at h
  dsimp only at h
  split at h
  · exact Except.ok.inj h ▸ hfallback
  · split at h
    · cases h
    · split at h
      · cases h
      · rename_i hneg
        obtain rfl := Except.ok.inj h
        exact Int64.not_lt.mp hneg

end BulkTraffic.GoEngine.Consumer
