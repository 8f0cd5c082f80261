import BulkTraffic.GoEngine.ConsumerConfig
import BulkTraffic.Lib.Trim

/-!
# Which settings the Go consumer accepts

What `FromEnv` accepts is a configuration the consumer can run with (`WellFormed`), but for two
things. A list of topics made of separators names no topic and is accepted, where the Node consumer
refuses it. A number of milliseconds from `2 ^ 63 / 10 ^ 6` on wraps around when it becomes a
`time.Duration`, and the duration may be negative.

On ASCII text both consumers trim, split and lower alike, so they read topics alike if a topic is
named, and commit modes always.
-/

namespace BulkTraffic.GoEngine.Consumer

open BulkTraffic.Js BulkTraffic.Lib BulkTraffic.Orders

/-! ### ASCII text -/

/-- Text of ASCII characters. -/
def Ascii (s : String) : Prop := ∀ c ∈ s.toList, c.toNat < 128

instance (s : String) : Decidable (Ascii s) := List.decidableBAll (fun c : Char => c.toNat < 128) s.toList

theorem isSpace_eq_isWhite {c : Char} (h : c.toNat < 128) : isSpace c = isWhite c := by
  rw [isSpace, isWhite, Bool.eq_iff_iff]
  simp only [Bool.or_eq_true, Bool.and_eq_true, decide_eq_true_eq, beq_iff_eq]
  omega

theorem trimSpace_eq_trim {s : String} (h : Ascii s) : trimSpace s = trim s :=
  congrArg String.ofList (trimBy_congr fun c hc => isSpace_eq_isWhite (h c hc))

theorem splitTrimmed_eq_commaSeparated {s : String} (h : Ascii s) :
    splitTrimmed s = Lab.commaSeparated s := by
  rw [splitTrimmed, Lab.commaSeparated]
  apply congrArg (List.filter fun s => s != "")
  apply List.map_congr_left
  intro cs hcs
  apply trimSpace_eq_trim
  intro c hc
  rw [String.toList_ofList] at hc
  exact h c (mem_of_mem_splitOnP hcs hc)

/-- What holds of the 128 characters holds of ASCII text. -/
theorem forall_ascii {P : Char → Prop} (h : ∀ n < 128, P (Char.ofNat n)) {c : Char} (hc : c.toNat < 128) :
    P c := by
  rw [← Char.ofNat_toNat c]
  exact h c.toNat hc

theorem lowerChar_eq_toLower {c : Char} (h : c.toNat < 128) : lowerChar c = [c.toLower] :=
  forall_ascii (P := fun c => lowerChar c = [c.toLower]) (by decide +kernel) h

theorem isWhite_toLower {c : Char} (h : c.toNat < 128) : isWhite c.toLower = isWhite c :=
  forall_ascii (P := fun c => isWhite c.toLower = isWhite c) (by decide +kernel) h

theorem toLower_toNat_lt {c : Char} (h : c.toNat < 128) : c.toLower.toNat < 128 :=
  forall_ascii (P := fun c => c.toLower.toNat < 128) (by decide +kernel) h

theorem toLower_toList {s : String} (h : Ascii s) : (toLower s).toList = s.toList.map Char.toLower := by
  rw [toLower, String.toList_ofList]
  apply List.map_congr_left
  intro c hc
  have hlt := h c hc
  rw [if_neg (by omega), if_neg (by omega)]

theorem toLowerCase_ofList {cs : List Char} (h : ∀ c ∈ cs, c.toNat < 128) :
    toLowerCase (String.ofList cs) = String.ofList (cs.map Char.toLower) := by
  rw [toLowerCase, String.toList_ofList, List.map_eq_flatMap]
  congr 1
  apply List.flatMap_congr
  intro c hc
  exact lowerChar_eq_toLower (h c hc)

/-- Lowering before or after trimming gives the same text. -/
theorem trimSpace_toLower {s : String} (h : Ascii s) : trimSpace (toLower s) = toLowerCase (trim s) := by
  have hlower : Ascii (toLower s) := by
    intro c hc
    rw [toLower_toList h] at hc
    obtain ⟨a, ha, rfl⟩ := List.mem_map.mp hc
    exact toLower_toNat_lt (h a ha)
  have htrim : trimBy (fun c => isWhite c.toLower) s.toList = trimBy isWhite s.toList :=
    trimBy_congr fun c hc => isWhite_toLower (h c hc)
  calc trimSpace (toLower s) = trim (toLower s) := trimSpace_eq_trim hlower
    _ = String.ofList (trimBy isWhite (s.toList.map Char.toLower)) := by rw [← toLower_toList h]; rfl
    _ = String.ofList ((trimBy isWhite s.toList).map Char.toLower) := by rw [trimBy_map, htrim]
    _ = toLowerCase (trim s) := (toLowerCase_ofList fun c hc => h c (mem_of_mem_trimBy hc)).symm

/-! ### Topics and commit modes -/

/-- The variable is blank, or one of its parts is not. -/
def NamesTopic (raw : String) : Prop :=
  trimSpace raw = "" ∨ ∃ part ∈ raw.toList.splitOn ',', trimSpace (String.ofList part) ≠ ""

theorem splitTrimmed_ne_nil_iff (raw : String) :
    splitTrimmed raw ≠ [] ↔ ∃ part ∈ raw.toList.splitOn ',', trimSpace (String.ofList part) ≠ "" := by
  rw [splitTrimmed, ne_eq, List.filter_eq_nil_iff]
  simp

/-- Topics are read if the variable names one. -/
theorem parseTopics_ne_nil_iff (raw : String) : parseTopics raw ≠ [] ↔ NamesTopic raw := by
  rw [parseTopics, NamesTopic, ← splitTrimmed_ne_nil_iff]
  split
  · rename_i hblank
    exact iff_of_true (by decide) (.inl hblank)
  · rename_i hblank
    exact (or_iff_right hblank).symm

theorem defaultTopics_eq : defaultTopics = Lab.defaultTopics := rfl

/-- **The two consumers read the same topics exactly if the variable names a topic.** -/
theorem parseTopics_agree_iff {raw : String} (h : Ascii raw) :
    Lab.parseTopics (some raw) = .ok (parseTopics raw) ↔ NamesTopic raw := by
  rw [← parseTopics_ne_nil_iff, Lab.parseTopics, parseTopics, trimSpace_eq_trim h,
    splitTrimmed_eq_commaSeparated h, defaultTopics_eq]
  have hempty : trim "" = "" := by decide
  by_cases hblank : trim raw = ""
  · rw [if_pos hblank, if_pos (.inr hblank)]
    exact iff_of_true rfl (by decide)
  · have hne : ¬ (raw = "" ∨ trim raw = "") := by
      rintro (rfl | h)
      · exact hblank hempty
      · exact hblank h
    rw [if_neg hblank, if_neg hne]
    by_cases htopics : Lab.commaSeparated raw = []
    · simp [htopics]
    · simp [htopics]

/-- A text and its lower case are empty together. -/
theorem toLowerCase_eq_empty_iff {s : String} (h : Ascii s) : toLowerCase (trim s) = "" ↔ trim s = "" := by
  have hlower : toLowerCase (trim s) = String.ofList ((trimBy isWhite s.toList).map Char.toLower) :=
    toLowerCase_ofList fun c hc => h c (mem_of_mem_trimBy hc)
  have htrim : trim s = String.ofList (trimBy isWhite s.toList) := rfl
  rw [hlower, htrim, ← String.ofList_nil, String.ofList_inj, String.ofList_inj, List.map_eq_nil_iff]

/-- **The two consumers read the same commit modes.** -/
theorem parseCommitMode_agree {raw : String} (h : Ascii raw) :
    (parseCommitMode raw).toOption = (Lab.parseCommitMode (some raw)).toOption := by
  simp only [parseCommitMode, Lab.parseCommitMode, trimSpace_toLower h, toLowerCase_eq_empty_iff h]
  split
  · rfl
  · split
    · rfl
    · split
      · rfl
      · rfl

/-! ### The configuration -/

/-- A configuration the consumer can run with. Its commit mode is one of the two by its type. -/
structure WellFormed (config : Config) : Prop where
  brokers : config.brokers ≠ [] ∧ ∀ broker ∈ config.brokers, trimSpace broker ≠ ""
  topics : config.topics ≠ [] ∧ ∀ topic ∈ config.topics, trimSpace topic ≠ ""
  instances : 1 ≤ config.instances
  maxMessages : 0 ≤ config.maxMessages
  processingDelay : 0 ≤ config.processingDelay
  reportInterval : 0 ≤ config.reportInterval

/-- The product with a million, as an `int64`, is not negative. -/
def FitsDuration (ms : Int64) : Prop := 0 ≤ (ms.toInt * 1000000).bmod (2 ^ 64)

instance (ms : Int64) : Decidable (FitsDuration ms) :=
  inferInstanceAs (Decidable (0 ≤ (ms.toInt * 1000000).bmod (2 ^ 64)))

theorem milliseconds_nonneg_iff (ms : Int64) : 0 ≤ milliseconds ms ↔ FitsDuration ms := by
  rw [Int64.le_iff_toInt_le, Int64.toInt_zero, toInt_milliseconds, FitsDuration]

/-- What is split and trimmed is not blank. -/
theorem not_blank_of_mem_splitTrimmed {raw part : String} (h : part ∈ splitTrimmed raw) :
    trimSpace part ≠ "" := by
  obtain ⟨hmem, hne⟩ := List.mem_filter.mp h
  obtain ⟨cs, -, rfl⟩ := List.mem_map.mp hmem
  have htwice : trimSpace (trimSpace (String.ofList cs)) = trimSpace (String.ofList cs) := by
    have := trimBy_trimBy isSpace cs
    simp only [trimBy] at this
    simp only [trimSpace, String.toList_ofList, this]
  rw [htwice]
  simpa using hne

theorem not_blank_of_mem_parseTopics {raw topic : String} (h : topic ∈ parseTopics raw) :
    trimSpace topic ≠ "" := by
  rw [parseTopics] at h
  split at h
  · exact (by decide : ∀ topic ∈ defaultTopics, trimSpace topic ≠ "") topic h
  · exact not_blank_of_mem_splitTrimmed h

/-- An accepted configuration is well formed but for its topics and durations. -/
theorem wellFormed_iff {env : GoEnv} {config : Config} {delayMs reportMs : Int64}
    (h : ReadAs env config delayMs reportMs) :
    WellFormed config ↔
      NamesTopic (env "GO_CONSUMER_TOPICS") ∧ FitsDuration delayMs ∧ FitsDuration reportMs := by
  rw [← milliseconds_nonneg_iff, ← milliseconds_nonneg_iff, ← h.processingDelay, ← h.reportInterval,
    ← parseTopics_ne_nil_iff, ← h.topics]
  constructor
  · exact fun hwell => ⟨hwell.topics.1, hwell.processingDelay, hwell.reportInterval⟩
  · rintro ⟨htopics, hdelay, hreport⟩
    refine ⟨⟨h.brokers.2, ?_⟩, ⟨htopics, ?_⟩, ?_, nonneg_of_envInt (by decide) h.maxMessages, hdelay, hreport⟩
    · rw [h.brokers.1]
      exact fun broker hmem => not_blank_of_mem_splitTrimmed hmem
    · rw [h.topics]
      exact fun topic hmem => not_blank_of_mem_parseTopics hmem
    · exact Int64.not_lt.mp h.instances.2

/-- The milliseconds a variable is read as make a duration that is not negative. -/
def DurationFits (env : GoEnv) (key : String) (fallback : Int64) : Prop :=
  ∀ ms, envInt env key fallback = .ok ms → FitsDuration ms

theorem durationFits_iff {env : GoEnv} {key : String} {fallback ms : Int64}
    (h : envInt env key fallback = .ok ms) : DurationFits env key fallback ↔ FitsDuration ms := by
  constructor
  · exact fun hfits => hfits ms h
  · intro hfits other hother
    rwa [← Except.ok.inj (h.symm.trans hother)]

/-- **Which accepted settings are usable, and which texts both consumers read alike.** -/
theorem consumerSettings {env : GoEnv} {config : Config} (h : fromEnv env = .ok config) {raw : String}
    (hraw : Ascii raw) :
    (WellFormed config ↔ NamesTopic (env "GO_CONSUMER_TOPICS") ∧
      DurationFits env "GO_CONSUMER_DELAY_MS" 0 ∧
      DurationFits env "GO_CONSUMER_REPORT_INTERVAL_MS" 10000) ∧
    (Lab.parseTopics (some raw) = .ok (parseTopics raw) ↔ NamesTopic raw) ∧
    (parseCommitMode raw).toOption = (Lab.parseCommitMode (some raw)).toOption ∧
    Lab.parseTopics none = .ok (parseTopics "") ∧
    Lab.parseCommitMode none = parseCommitMode "" := by
  obtain ⟨delayMs, reportMs, hread⟩ := readAs_of_ok h
  refine ⟨?_, parseTopics_agree_iff hraw, parseCommitMode_agree hraw, by decide, by decide⟩
  rw [wellFormed_iff hread, durationFits_iff hread.delay, durationFits_iff hread.report]

/-- With no variable set the settings are usable, and `" A ,"` names a topic. -/
theorem consumerSettings_default : ∃ config, fromEnv (fun _ => "") = .ok config ∧ WellFormed config ∧
    Lab.parseTopics (some " A ,") = .ok (parseTopics " A ,") := by
  have hdelay : envInt (fun _ => "") "GO_CONSUMER_DELAY_MS" 0 = .ok 0 := rfl
  have hreport : envInt (fun _ => "") "GO_CONSUMER_REPORT_INTERVAL_MS" 10000 = .ok 10000 := rfl
  obtain ⟨hwell, htopics, -⟩ := @consumerSettings (fun _ => "") _ rfl " A ," (by decide)
  refine ⟨_, rfl, hwell.mpr ⟨.inl (by decide), ?_, ?_⟩, htopics.mpr (.inr ⟨[' ', 'A', ' '], by decide, by decide⟩)⟩
  · exact (durationFits_iff hdelay).mpr (by decide)
  · exact (durationFits_iff hreport).mpr (by decide)

/-- Separators alone name no topic and are accepted; Node refuses them. A delay of
`9223372036855` milliseconds becomes negative. -/
theorem not_wellFormed_of_accepted :
    (∃ config, fromEnv (fun key => if key = "GO_CONSUMER_TOPICS" then "," else "") = .ok config ∧
      ¬ WellFormed config) ∧
    ¬ Lab.parseTopics (some ",") = .ok (parseTopics ",") ∧
    ∃ config, fromEnv (fun key => if key = "GO_CONSUMER_DELAY_MS" then "9223372036855" else "") =
      .ok config ∧ ¬ WellFormed config := by
  refine ⟨⟨_, rfl, fun h => h.topics.1 (by rfl)⟩, by decide, ⟨_, rfl, fun h => ?_⟩⟩
  have hneg : ¬ 0 ≤ milliseconds 9223372036855 := by decide
  exact hneg h.processingDelay

end BulkTraffic.GoEngine.Consumer
