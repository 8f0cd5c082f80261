import BulkTraffic.Lab.ConsumerConfig
import BulkTraffic.Lib.Trim
import BulkTraffic.Lib.Utf16

/-!
# Launching consumers

`ConsumerProcessManager` starts a consumer process with options from the lab: `normalize` checks
them and fills in the defaults, `spawnConsumer` hands them over as environment variables, and
`consumerConfigFromEnv` reads them in the child.

The options survive exactly when `crashAfter` is below `10 ^ 21`, the group's name is a text and the
`CONSUMER_TOPICS` the child inherits names a topic or nothing (`launch_roundTrips_iff`). `normalize`
bounds every other number, but takes any `crashAfter`; from `10 ^ 21` on `String(..)` writes an
exponent, and the child reads the leading digit. It takes any string as a name, too; an environment
holds texts, with `U+FFFD` in place of a surrogate without a partner.
-/

namespace BulkTraffic.Lab

open BulkTraffic.Js BulkTraffic.Lib BulkTraffic.Orders

/-- A number as a program can have it: its finite values are binary64 values. -/
structure Binary64 where
  /-- The number. -/
  value : Number
  /-- It is a binary64 value. -/
  valid : ∀ q, value = .finite q → binary64 q = .finite q

/-- `SpawnConsumerOptions`. -/
structure SpawnConsumerOptions where
  /-- The consumer group, any string. -/
  groupId : Option Utf16.Units := none
  /-- How many consumers the process runs. -/
  instances : Option Binary64 := none
  /-- The time a message takes. -/
  processingDelayMs : Option Binary64 := none
  /-- When offsets are committed, any text. -/
  commitMode : Option String := none
  /-- The time between processing and commit. -/
  commitDelayMs : Option Binary64 := none
  /-- Does a new group read from the start? -/
  fromBeginning : Option Bool := none
  /-- After how many messages the process kills itself. -/
  crashAfter : Option Binary64 := none
  /-- After what time without a sign of life the broker gives the consumer up. -/
  sessionTimeoutMs : Option Binary64 := none

/-- `Required<SpawnConsumerOptions>`. -/
structure NormalizedOptions where
  /-- The consumer group. -/
  groupId : Utf16.Units
  /-- How many consumers the process runs. -/
  instances : Number
  /-- The time a message takes. -/
  processingDelayMs : Number
  /-- When offsets are committed. -/
  commitMode : CommitMode
  /-- The time between processing and commit. -/
  commitDelayMs : Number
  /-- Does a new group read from the start? -/
  fromBeginning : Bool
  /-- After how many messages the process kills itself. -/
  crashAfter : Number
  /-- After what time without a sign of life the broker gives the consumer up. -/
  sessionTimeoutMs : Number
  deriving DecidableEq

/-! ### `normalize` -/

/-- `value ?? fallback`. -/
def optionOr (value : Option Binary64) (fallback : Number) : Number :=
  (value.map Binary64.value).getD fallback

/-- `Number.isInteger(n) && n >= least && n <= most`. -/
def isIntegerIn (least : ℤ) (most : Option ℤ) (n : Number) : Bool :=
  match n.toInteger? with
  | some z => decide (least ≤ z) && most.all fun m => decide (z ≤ m)
  | none => false

/-- An integer in its bounds, or the error. -/
def requireInteger (least : ℤ) (most : Option ℤ) (n : Number) (error : String) :
    Except String Number :=
  if isIntegerIn least most n then .ok n else .error error

/-- `MAX_INSTANCES`. -/
def maxInstances : ℤ := 20

/-- `MAX_DELAY_MS`. -/
def maxDelayMs : ℤ := 60000

/-- `MIN_SESSION_TIMEOUT_MS`. -/
def minSessionTimeoutMs : ℤ := 6000

/-- `MAX_SESSION_TIMEOUT_MS`. -/
def maxSessionTimeoutMs : ℤ := 1800000

/-- `COMMIT_MODES`. -/
def commitModes : List CommitMode := [.afterProcess, .beforeProcess]

/-- The check of `instances`. -/
def normalizeInstances (n : Number) : Except String Number :=
  requireInteger 1 (some maxInstances) n
    s!"컨슈머 개수는 1~{maxInstances} 사이 정수여야 합니다: {numberText n}"

/-- The check of `processingDelayMs`. -/
def normalizeProcessingDelay (n : Number) : Except String Number :=
  requireInteger 0 (some maxDelayMs) n
    s!"처리 지연은 0~{maxDelayMs}ms 사이여야 합니다: {numberText n}"

/-- The check of `commitDelayMs`. -/
def normalizeCommitDelay (n : Number) : Except String Number :=
  requireInteger 0 (some maxDelayMs) n
    s!"커밋 지연은 0~{maxDelayMs}ms 사이여야 합니다: {numberText n}"

/-- The check of `crashAfter`, which has no upper bound. -/
def normalizeCrashAfter (n : Number) : Except String Number :=
  requireInteger 0 none n s!"강제 종료 건수는 0 이상 정수여야 합니다: {numberText n}"

/-- The check of `sessionTimeoutMs`. -/
def normalizeSessionTimeout (n : Number) : Except String Number :=
  requireInteger minSessionTimeoutMs (some maxSessionTimeoutMs) n
    (s!"세션 만료 시간은 {minSessionTimeoutMs}~{maxSessionTimeoutMs}ms 사이여야 합니다: " ++
      numberText n)

/-- The check of `commitMode`. -/
def normalizeCommitMode (text : String) : Except String CommitMode :=
  match commitModes.find? fun mode => commitModeText mode == text with
  | some mode => .ok mode
  | none => .error s!"커밋 방식은 after-process 또는 before-process 여야 합니다: {text}"

/-- Is the code unit white space? No surrogate is. -/
def isWhiteUnit (u : UInt16) : Bool := isWhite (Char.ofNat u.toNat)

/-- The check of `groupId`: `groupId.trim()` is not empty. -/
def normalizeGroupId (groupId : Utf16.Units) : Except String Utf16.Units :=
  let trimmed := trimBy isWhiteUnit groupId
  if trimmed = [] then .error "컨슈머 그룹 이름이 비어 있습니다." else .ok trimmed

/-- `normalize(options)`. -/
def normalize (options : SpawnConsumerOptions) : Except String NormalizedOptions := do
  let instances ← normalizeInstances (optionOr options.instances (.finite 1))
  let processingDelayMs ← normalizeProcessingDelay (optionOr options.processingDelayMs (.finite 0))
  let commitDelayMs ← normalizeCommitDelay (optionOr options.commitDelayMs (.finite 0))
  let crashAfter ← normalizeCrashAfter (optionOr options.crashAfter (.finite 0))
  let sessionTimeoutMs ←
    normalizeSessionTimeout (optionOr options.sessionTimeoutMs (.finite 60000))
  let commitMode ← normalizeCommitMode (options.commitMode.getD "after-process")
  let groupId ← normalizeGroupId (options.groupId.getD (Utf16.encode "order-processor"))
  return { groupId, instances, processingDelayMs, commitMode, commitDelayMs,
           fromBeginning := options.fromBeginning.getD false, crashAfter, sessionTimeoutMs }

/-! ### `spawnConsumer` -/

/-- The variables `spawnConsumer` sets for the child. -/
def launchVariables (parent : Env) (options : NormalizedOptions) : List (String × String) :=
  [("ORDER_DB_PATH", (parent "ORDER_DB_PATH").getD ".orders.sqlite"),
    ("CONSUMER_GROUP_ID", Utf16.toWellFormed options.groupId),
    ("CONSUMER_COUNT", numberText options.instances),
    ("CONSUMER_DELAY_MS", numberText options.processingDelayMs),
    ("CONSUMER_COMMIT_MODE", commitModeText options.commitMode),
    ("CONSUMER_COMMIT_DELAY_MS", numberText options.commitDelayMs),
    ("CONSUMER_FROM_BEGINNING", if options.fromBeginning then "true" else "false"),
    ("CONSUMER_CRASH_AFTER", numberText options.crashAfter),
    ("CONSUMER_SESSION_TIMEOUT_MS", numberText options.sessionTimeoutMs),
    ("CONSUMER_REPORT_INTERVAL_MS", "5000")]

/-- The child's environment: the parent's, with these variables on top. -/
def childEnv (parent : Env) (options : NormalizedOptions) : Env := fun name =>
  match (launchVariables parent options).lookup name with
  | some value => some value
  | none => parent name

/-- The child reads back what the manager was given. -/
def RoundTrips (parent : Env) (options : NormalizedOptions) : Prop :=
  ∃ config, consumerConfigFromEnv (childEnv parent options) = .ok config ∧
    Utf16.encode config.groupId = options.groupId ∧ config.instances = options.instances ∧
    config.processingDelayMs = options.processingDelayMs ∧
    config.commitMode = options.commitMode ∧ config.commitDelayMs = options.commitDelayMs ∧
    config.fromBeginning = options.fromBeginning ∧ config.crashAfter = options.crashAfter ∧
    config.sessionTimeoutMs = options.sessionTimeoutMs

/-! ### What `normalize` accepts -/

theorem requireInteger_ok {least : ℤ} {most : Option ℤ} {n m : Number} {error : String}
    (h : requireInteger least most n error = .ok m) :
    m = n ∧ ∃ z : ℤ, n = .finite z ∧ least ≤ z ∧ ∀ b ∈ most, z ≤ b := by
  unfold requireInteger at h
  split at h
  · rename_i hint
    obtain rfl := Except.ok.inj h
    refine ⟨rfl, ?_⟩
    unfold isIntegerIn at hint
    split at hint
    · rename_i z hz
      obtain ⟨hleast, hmost⟩ := Bool.and_eq_true_iff.mp hint
      refine ⟨z, ?_, of_decide_eq_true hleast, ?_⟩
      · cases n with
        | finite q =>
          simp only [Number.toInteger?] at hz
          split at hz
          · rename_i hden
            rw [← Option.some.inj hz]
            exact congrArg Number.finite (Rat.den_eq_one_iff q |>.mp hden).symm
          · cases hz
        | _ => cases hz
      · intro b hb
        rw [Option.mem_def] at hb
        subst hb
        simpa using hmost
    · cases hint
  · cases h

/-- A natural number with a lower bound. -/
theorem requireInteger_natCast (least : ℕ) {most : Option ℤ} {n m : Number} {error : String}
    (h : requireInteger least most n error = .ok m) :
    ∃ k : ℕ, m = n ∧ n = .finite k ∧ least ≤ k ∧ ∀ b ∈ most, (k : ℤ) ≤ b := by
  obtain ⟨rfl, z, hz, hleast, hmost⟩ := requireInteger_ok h
  obtain ⟨k, rfl⟩ := Int.eq_ofNat_of_zero_le (by omega : 0 ≤ z)
  exact ⟨k, rfl, by simpa using hz, by exact_mod_cast hleast, hmost⟩

/-- What options are after `normalize`. -/
structure Accepted (options : NormalizedOptions) : Prop where
  /-- From one to twenty consumers. -/
  instances : ∃ k : ℕ, options.instances = .finite k ∧ 1 ≤ k ∧ k ≤ 20
  /-- At most a minute. -/
  processingDelayMs : ∃ k : ℕ, options.processingDelayMs = .finite k ∧ k ≤ 60000
  /-- At most a minute. -/
  commitDelayMs : ∃ k : ℕ, options.commitDelayMs = .finite k ∧ k ≤ 60000
  /-- Any natural number a program can have. -/
  crashAfter : ∃ k : ℕ, options.crashAfter = .finite k ∧ binary64 k = .finite k
  /-- From six seconds to half an hour. -/
  sessionTimeoutMs : ∃ k : ℕ, options.sessionTimeoutMs = .finite k ∧ 6000 ≤ k ∧ k ≤ 1800000

/-- **What `normalize` lets through.** Only `crashAfter` is unbounded. -/
theorem accepted_of_normalize {given : SpawnConsumerOptions} {options : NormalizedOptions}
    (h : normalize given = .ok options) : Accepted options := by
  obtain ⟨instances, hinstances, h⟩ := bind_eq_ok h
  obtain ⟨processingDelayMs, hprocessing, h⟩ := bind_eq_ok h
  obtain ⟨commitDelayMs, hcommit, h⟩ := bind_eq_ok h
  obtain ⟨crashAfter, hcrash, h⟩ := bind_eq_ok h
  obtain ⟨sessionTimeoutMs, hsession, h⟩ := bind_eq_ok h
  obtain ⟨commitMode, -, h⟩ := bind_eq_ok h
  obtain ⟨groupId, -, h⟩ := bind_eq_ok h
  obtain rfl := Except.ok.inj h
  refine ⟨?_, ?_, ?_, ?_, ?_⟩
  · obtain ⟨k, rfl, hk, hleast, hmost⟩ := requireInteger_natCast 1 hinstances
    have hle : (k : ℤ) ≤ 20 := hmost _ rfl
    exact ⟨k, hk, hleast, by omega⟩
  · obtain ⟨k, rfl, hk, -, hmost⟩ := requireInteger_natCast 0 hprocessing
    have hle : (k : ℤ) ≤ 60000 := hmost _ rfl
    exact ⟨k, hk, by omega⟩
  · obtain ⟨k, rfl, hk, -, hmost⟩ := requireInteger_natCast 0 hcommit
    have hle : (k : ℤ) ≤ 60000 := hmost _ rfl
    exact ⟨k, hk, by omega⟩
  · obtain ⟨k, rfl, hk, -, -⟩ := requireInteger_natCast 0 hcrash
    refine ⟨k, hk, ?_⟩
    cases hgiven : given.crashAfter with
    | none =>
      have hzero : k = 0 := by
        rw [hgiven] at hk
        have hq : (0 : ℚ) = k := Number.finite.inj hk
        exact_mod_cast hq.symm
      rw [hzero]
      decide
    | some value =>
      rw [hgiven] at hk
      exact value.valid _ hk
  · obtain ⟨k, rfl, hk, hleast, hmost⟩ := requireInteger_natCast 6000 hsession
    have hle : (k : ℤ) ≤ 1800000 := hmost _ rfl
    exact ⟨k, hk, hleast, by omega⟩

/-! ### What the child reads -/

/-- A number that `normalize` bounds is read back from the variable it is written to. -/
theorem readNonNegativeIntEnv_bounded {env : Env} {name : String} {n : Number} {k : ℕ}
    (henv : env name = some (numberText n)) (hn : n = .finite k) (hk : k ≤ 1800000)
    (fallback : Number) : readNonNegativeIntEnv env name fallback = .ok n := by
  subst hn
  exact readNonNegativeIntEnv_natCast henv (roundNat_of_lt (by omega)) (by omega) fallback

/-- So is a positive one. -/
theorem readPositiveIntEnv_bounded {env : Env} {name : String} {n : Number} {k : ℕ}
    (henv : env name = some (numberText n)) (hn : n = .finite k) (hpos : 1 ≤ k)
    (hk : k ≤ 1800000) (fallback : Number) : readPositiveIntEnv env name fallback = n := by
  subst hn
  exact readPositiveIntEnv_natCast henv (roundNat_of_lt (by omega)) hpos (by omega) fallback

/-! ### Main result -/

/-- **The launch options survive the environment exactly when `crashAfter` is below `10 ^ 21`, every
surrogate in the group's name is in a pair and the inherited `CONSUMER_TOPICS` names a topic or
nothing**: for all options that `normalize` accepts and every environment of the parent. -/
theorem launch_roundTrips_iff (parent : Env) {given : SpawnConsumerOptions}
    {options : NormalizedOptions} (h : normalize given = .ok options) :
    RoundTrips parent options ↔
      Number.lt options.crashAfter (.finite (10 ^ 21)) = true ∧
        Utf16.paired options.groupId = true ∧ NamesTopic (parent "CONSUMER_TOPICS") := by
  obtain ⟨⟨instances, hinstances, hone, htwenty⟩, ⟨processing, hprocessing, hminute⟩,
    ⟨commit, hcommit, hminute'⟩, ⟨crash, hcrash, hvalid⟩, ⟨session, hsession, hsix, hhalf⟩⟩ :=
    accepted_of_normalize h
  have hcrashEnv : childEnv parent options "CONSUMER_CRASH_AFTER" =
      some (numberText (.finite crash)) := hcrash ▸ rfl
  have hlt : Number.lt options.crashAfter (.finite (10 ^ 21)) = true ↔ crash < 10 ^ 21 := by
    rw [hcrash]
    simp only [Number.lt, decide_eq_true_eq]
    exact_mod_cast Iff.rfl
  rw [hlt, ← parseTopics_ok_iff, ← Utf16.encode_toWellFormed_iff]
  constructor
  · rintro ⟨config, hconfig, hgroup, -, -, -, -, -, hread, -⟩
    have hparsed := readAs_of_ok hconfig
    have hgroupRead : config.groupId = Utf16.toWellFormed options.groupId := hparsed.groupId
    refine ⟨?_, hgroupRead ▸ hgroup, config.topics, hparsed.topics⟩
    by_contra hlarge
    refine readNonNegativeIntEnv_ne hcrashEnv (by omega) ?_
    rw [hparsed.crashAfter, hread, hcrash]
  · rintro ⟨hcrashSmall, hgroup, topics, htopics⟩
    have hround : roundNat crash = crash := by
      rw [binary64_natCast_eq (by omega)] at hvalid
      exact_mod_cast Number.finite.inj hvalid
    have hreadProcessing : readNonNegativeIntEnv (childEnv parent options) "CONSUMER_DELAY_MS"
        (.finite 0) = .ok options.processingDelayMs := by
      refine readNonNegativeIntEnv_bounded ?_ hprocessing (by omega) _
      rfl
    have hreadCommit : readNonNegativeIntEnv (childEnv parent options) "CONSUMER_COMMIT_DELAY_MS"
        (.finite 0) = .ok options.commitDelayMs := by
      refine readNonNegativeIntEnv_bounded ?_ hcommit (by omega) _
      rfl
    have hreadCrash := readNonNegativeIntEnv_natCast hcrashEnv hround hcrashSmall (.finite 0)
    have hmode : parseCommitMode (childEnv parent options "CONSUMER_COMMIT_MODE") =
        .ok options.commitMode := parseCommitMode_commitModeText _
    -- the child inherits the topics
    have htopics' : parseTopics (childEnv parent options "CONSUMER_TOPICS") = .ok topics := htopics
    obtain ⟨config, hconfig⟩ := exists_ok htopics' hreadProcessing hmode hreadCommit hreadCrash
    have hparsed := readAs_of_ok hconfig
    refine ⟨config, hconfig, ?_, ?_, ?_, ?_, ?_, ?_, ?_, ?_⟩
    · have hgroupRead : config.groupId = Utf16.toWellFormed options.groupId := hparsed.groupId
      rw [hgroupRead, hgroup]
    · exact hparsed.instances.trans
        (readPositiveIntEnv_bounded rfl hinstances hone (by omega) _)
    · exact Except.ok.inj (hparsed.processingDelayMs.symm.trans hreadProcessing)
    · exact Except.ok.inj (hparsed.commitMode.symm.trans hmode)
    · exact Except.ok.inj (hparsed.commitDelayMs.symm.trans hreadCommit)
    · rw [hparsed.fromBeginning]
      show (some (if options.fromBeginning then "true" else "false") == some "true") = _
      cases options.fromBeginning <;> decide
    · rw [hcrash]
      exact Except.ok.inj (hparsed.crashAfter.symm.trans hreadCrash)
    · exact hparsed.sessionTimeoutMs.trans
        (readPositiveIntEnv_bounded rfl hsession (by omega) hhalf _)

/-- The default options and 1000 messages before the crash, from a parent without variables. -/
theorem launch_roundTrips_thousand :
    ∃ options, normalize { crashAfter := some ⟨.finite 1000, by rintro q ⟨⟩; decide +kernel⟩ } =
        .ok options ∧ RoundTrips (fun _ => none) options := by
  have haccepted : normalize
      { crashAfter := some ⟨.finite 1000, by rintro q ⟨⟩; decide +kernel⟩ } =
      .ok ⟨Utf16.encode "order-processor", .finite 1, .finite 0, .afterProcess, .finite 0, false,
        .finite 1000, .finite 60000⟩ := by
    decide +kernel
  refine ⟨_, haccepted, (launch_roundTrips_iff _ haccepted).mpr
    ⟨by decide +kernel, Utf16.paired_encode _, ?_⟩⟩
  rintro text ⟨⟩

/-- `crashAfter = 1e21` is accepted and written as `1e+21`, and the child crashes after one
message. -/
theorem launch_loses_crashAfter :
    ∃ options, normalize { crashAfter := some ⟨.finite (10 ^ 21), by rintro q ⟨⟩; decide +kernel⟩ } =
        .ok options ∧
      childEnv (fun _ => none) options "CONSUMER_CRASH_AFTER" = some "1e+21" ∧
      (consumerConfigFromEnv (childEnv (fun _ => none) options)).map ConsumerConfig.crashAfter =
        .ok (.finite 1) ∧
      ¬ RoundTrips (fun _ => none) options := by
  have haccepted : normalize
      { crashAfter := some ⟨.finite (10 ^ 21), by rintro q ⟨⟩; decide +kernel⟩ } =
      .ok ⟨Utf16.encode "order-processor", .finite 1, .finite 0, .afterProcess, .finite 0, false,
        .finite (10 ^ 21), .finite 60000⟩ := by
    decide +kernel
  refine ⟨_, haccepted, by decide +kernel, by decide +kernel, ?_⟩
  rintro ⟨config, hconfig, -, -, -, -, -, -, hread, -⟩
  have hcrash : (consumerConfigFromEnv (childEnv (fun _ => none)
      ⟨Utf16.encode "order-processor", .finite 1, .finite 0, .afterProcess, .finite 0, false,
        .finite (10 ^ 21), .finite 60000⟩)).map ConsumerConfig.crashAfter = .ok (.finite 1) := by
    decide +kernel
  rw [hconfig] at hcrash
  have hone := Except.ok.inj hcrash
  rw [hread] at hone
  revert hone
  decide

end BulkTraffic.Lab
