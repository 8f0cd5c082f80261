import BulkTraffic.Js.Text
import BulkTraffic.Lib.Lines
import BulkTraffic.Lib.Trim
import BulkTraffic.Lib.Utf8

/-!
# The logs of a consumer process

The manager keeps the last lines a consumer process has written. `collect` gets the bytes in chunks,
decodes and splits each of them by itself, and pushes the lines that are not blank.

So a line that comes in two chunks is kept as two lines, and a character that does as two or more
replacement characters. What is kept is what the process has written last if no chunk ends inside one
of these lines, or inside a character of a blank line between or behind them (`UncutEnd`). Where no
replacement character is written that is also necessary (`recentLogs_iff`).
-/

namespace BulkTraffic.Lab

open BulkTraffic.Js BulkTraffic.Lib

/-! ### Collecting the output -/

/-- `MAX_LOG_LINES`. -/
def maxLogLines : ℕ := 50

/-- `chunk.toString()`. -/
def chunkText (chunk : List UInt8) : String := String.ofList (Utf8.decode chunk)

/-- `text.split('\n')`. -/
def splitLines (text : String) : List String := (text.toList.splitOn '\n').map String.ofList

/-- `line.trim() === ''`. -/
def isBlank (line : String) : Bool := trim line == ""

/-- `recentLogs.push(line)`, and the first line goes if there are too many. -/
def pushLog (logs : List String) (line : String) : List String :=
  if (logs ++ [line]).length > maxLogLines then (logs ++ [line]).drop 1 else logs ++ [line]

/-- `collect(chunk)`. -/
def collect (logs : List String) (chunk : List UInt8) : List String :=
  (splitLines (chunkText chunk)).foldl (fun logs line => if isBlank line then logs else pushLog logs line) logs

/-- `info.recentLogs` when the stream has ended. -/
def recentLogs (chunks : List (List UInt8)) : List String := chunks.foldl collect []

/-- The lines of a text that are not blank. -/
def logLines (text : String) : List String := (splitLines text).filter fun line => !isBlank line

/-- The last lines of a stream that are not blank. -/
def lastLogs (bytes : List UInt8) : List String := (logLines (chunkText bytes)).rtake maxLogLines

/-! ### What is kept -/

theorem rtake_rtake {α : Type} (m n : ℕ) (l : List α) : (l.rtake n).rtake m = l.rtake (min m n) := by
  rw [List.rtake_eq_reverse_take_reverse, List.rtake_eq_reverse_take_reverse,
    List.rtake_eq_reverse_take_reverse, List.reverse_reverse, List.take_take]

theorem length_rtake_le {α : Type} (n : ℕ) (l : List α) : (l.rtake n).length ≤ n := by
  rw [List.rtake, List.length_drop]
  omega

/-- A log that is not too long stays so. -/
theorem pushLog_of_length_le {logs : List String} (h : logs.length ≤ maxLogLines) (line : String) :
    pushLog logs line = (logs ++ [line]).rtake maxLogLines := by
  have hlength : (logs ++ [line]).length = logs.length + 1 := List.length_append
  rw [pushLog, List.rtake, hlength]
  split
  · rw [(by omega : logs.length + 1 - maxLogLines = 1)]
  · rw [(by omega : logs.length + 1 - maxLogLines = 0), List.drop_zero]

theorem pushLog_rtake (logs : List String) (line : String) :
    pushLog (logs.rtake maxLogLines) line = (logs ++ [line]).rtake maxLogLines := by
  rw [pushLog_of_length_le (length_rtake_le _ _), maxLogLines, List.rtake_concat_succ,
    List.rtake_concat_succ, rtake_rtake]
  rfl

/-- The log holds the last of the lines that were pushed. -/
theorem foldl_pushLog (logs lines : List String) :
    lines.foldl pushLog (logs.rtake maxLogLines) = (logs ++ lines).rtake maxLogLines := by
  induction lines generalizing logs with
  | nil => rw [List.foldl_nil, List.append_nil]
  | cons line lines ih => rw [List.foldl_cons, pushLog_rtake, ih, List.append_assoc]; rfl

theorem collect_eq (logs : List String) (chunk : List UInt8) :
    collect logs chunk = (logLines (chunkText chunk)).foldl pushLog logs := by
  rw [collect, logLines, List.foldl_filter]
  apply List.foldl_ext
  intro logs line _
  cases isBlank line <;> rfl

/-- **What is kept** are the last lines of the chunks. -/
theorem recentLogs_eq (chunks : List (List UInt8)) :
    recentLogs chunks = (chunks.flatMap fun chunk => logLines (chunkText chunk)).rtake maxLogLines := by
  have hrun : ∀ logs, chunks.foldl collect (logs.rtake maxLogLines) =
      (logs ++ chunks.flatMap fun chunk => logLines (chunkText chunk)).rtake maxLogLines := by
    induction chunks with
    | nil =>
      intro logs
      rw [List.foldl_nil, List.flatMap_nil, List.append_nil]
    | cons chunk chunks ih =>
      intro logs
      rw [List.foldl_cons, collect_eq, foldl_pushLog, ih, List.flatMap_cons, List.append_assoc]
  exact hrun []

/-! ### Lines and their pieces -/

/-- A line of the stream, with marks where one chunk ends and the next begins. -/
abbrev CutLine := List (Option UInt8)

/-- The lines of a stream that comes in chunks. -/
def streamLines (chunks : List (List UInt8)) : List CutLine := cutLines (fun b => b == 0x0A) chunks

/-- What is kept of some bytes without a line break. -/
def entry (bytes : List UInt8) : List String := [chunkText bytes].filter fun line => !isBlank line

/-- What is kept of a line that comes in pieces. -/
def entries (line : CutLine) : List String := (pieces line).flatMap entry

/-- What is to be kept of a line. -/
def wholeEntry (line : CutLine) : List String := entry line.reduceOption

/-- No chunk ends strictly inside the line, or the line and all its pieces are blank. -/
def Uncut (line : CutLine) : Prop :=
  ((pieces line).filter fun piece => piece != []).length ≤ 1 ∨
    ∀ piece ∈ pieces line, isBlank (chunkText piece) = true

/-- No chunk ends inside a line that is one of the last `n` that are not blank, or behind them. -/
def UncutEnd (n : ℕ) (lines : List CutLine) : Prop :=
  ∀ before line behind, lines = before ++ line :: behind → (behind.flatMap wholeEntry).length < n → Uncut line

theorem logLines_chunkText (bytes : List UInt8) :
    logLines (chunkText bytes) = (bytes.splitOnP fun b => b == 0x0A).flatMap entry := by
  have hlines : splitLines (chunkText bytes) = (bytes.splitOnP fun b => b == 0x0A).map chunkText := by
    rw [splitLines, chunkText, String.toList_ofList, Utf8.splitOn_decode, List.map_map]
    rfl
  rw [logLines, hlines]
  induction bytes.splitOnP fun b => b == 0x0A with
  | nil => rfl
  | cons line lines ih =>
    rw [List.map_cons, List.flatMap_cons, ← ih, entry, ← List.filter_append]
    rfl

/-- **What is kept, line by line.** -/
theorem recentLogs_eq_entries (chunks : List (List UInt8)) :
    recentLogs chunks = ((streamLines chunks).flatMap entries).rtake maxLogLines := by
  by_cases hnil : chunks = []
  · subst hnil
    rfl
  · have hpieces := flatMap_pieces hnil fun b : UInt8 => b == 0x0A
    simp only [recentLogs_eq, logLines_chunkText]
    rw [← List.flatMap_assoc, ← hpieces, List.flatMap_assoc]
    rfl

/-- **What is to be kept.** -/
theorem lastLogs_eq_entries (chunks : List (List UInt8)) :
    lastLogs chunks.flatten = ((streamLines chunks).flatMap wholeEntry).rtake maxLogLines := by
  rw [lastLogs, logLines_chunkText, ← map_reduceOption_cutLines, List.flatMap_map]
  rfl

/-! ### Blank text -/

theorem isBlank_iff (line : String) : isBlank line = true ↔ ∀ c ∈ line.toList, isWhite c = true := by
  have htrim : trim line = String.ofList (trimBy isWhite line.toList) := rfl
  rw [isBlank, beq_iff_eq, htrim, ← String.ofList_nil, String.ofList_inj, trimBy_eq_nil_iff]

theorem isBlank_chunkText_iff (bytes : List UInt8) :
    isBlank (chunkText bytes) = true ↔ ∀ c ∈ Utf8.decode bytes, isWhite c = true := by
  rw [isBlank_iff, chunkText, String.toList_ofList]

/-- A replacement character is not white space. -/
theorem clean_of_isBlank {bytes : List UInt8} (h : isBlank (chunkText bytes) = true) :
    Utf8.replacement ∉ Utf8.decode bytes := by
  intro hmem
  have hwhite := (isBlank_chunkText_iff bytes).mp h _ hmem
  exact absurd hwhite (by decide)

theorem entry_of_isBlank {bytes : List UInt8} (h : isBlank (chunkText bytes) = true) : entry bytes = [] := by
  rw [entry, List.filter_cons_of_neg (by simp [h]), List.filter_nil]

theorem entry_of_not_isBlank {bytes : List UInt8} (h : ¬ isBlank (chunkText bytes) = true) :
    entry bytes = [chunkText bytes] := by
  rw [entry, List.filter_cons_of_pos (by simp [h]), List.filter_nil]

/-- Blank pieces make a blank line. -/
theorem isBlank_flatten {ps : List (List UInt8)} (h : ∀ piece ∈ ps, isBlank (chunkText piece) = true) :
    isBlank (chunkText ps.flatten) = true := by
  induction ps with
  | nil => rfl
  | cons piece ps ih =>
    have hpiece := h piece (List.mem_cons_self ..)
    have hps := ih fun other hmem => h other (List.mem_cons_of_mem piece hmem)
    rw [isBlank_chunkText_iff] at hps ⊢
    rw [List.flatten_cons, Utf8.decode_append_right (clean_of_isBlank hpiece)]
    intro c hc
    rcases List.mem_append.mp hc with hc | hc
    · exact (isBlank_chunkText_iff piece).mp hpiece c hc
    · exact hps c hc

/-! ### One line -/

theorem flatten_filter_ne_nil (ps : List (List UInt8)) : (ps.filter fun piece => piece != []).flatten = ps.flatten := by
  induction ps with
  | nil => rfl
  | cons piece ps ih =>
    cases piece with
    | nil => exact ih
    | cons b piece => simp [ih]

theorem flatMap_entry_filter (ps : List (List UInt8)) :
    (ps.filter fun piece => piece != []).flatMap entry = ps.flatMap entry := by
  induction ps with
  | nil => rfl
  | cons piece ps ih =>
    cases piece with
    | nil => exact ih
    | cons b piece => simp [ih]

/-- **A line that is not cut is kept whole.** -/
theorem entries_of_uncut {line : CutLine} (h : Uncut line) : entries line = wholeEntry line := by
  rw [entries, wholeEntry, ← flatten_pieces]
  rcases h with hone | hblank
  · rw [← flatMap_entry_filter, ← flatten_filter_ne_nil]
    generalize (pieces line).filter (fun piece => piece != []) = ps at hone ⊢
    match ps, hone with
    | [], _ => rfl
    | [piece], _ => rw [List.flatMap_singleton, List.flatten_singleton]
    | _ :: _ :: _, hone => simp at hone
  · rw [entry_of_isBlank (isBlank_flatten hblank), List.flatMap_eq_nil_iff]
    exact fun piece hmem => entry_of_isBlank (hblank piece hmem)

theorem filter_eq_nil_of_flatten {ps : List (List UInt8)} (h : ps.flatten = []) :
    (ps.filter fun piece => piece != []) = [] := by
  rw [List.filter_eq_nil_iff]
  intro piece hmem
  simp [List.flatten_eq_nil_iff.mp h piece hmem]

/-- **A line that is cut is kept otherwise**: each of its entries has a replacement character or is
shorter than the line. -/
theorem entries_of_cut {line : CutLine} (h : ¬ Uncut line) :
    entries line ≠ [] ∧
      ∀ q ∈ entries line, Utf8.replacement ∈ q.toList ∨ ∃ w, wholeEntry line = [w] ∧ q ≠ w := by
  obtain ⟨hcount, hblank⟩ := not_or.mp h
  constructor
  · intro hnil
    apply hblank
    intro piece hmem
    by_contra hnot
    have hentry := List.flatMap_eq_nil_iff.mp hnil piece hmem
    rw [entry_of_not_isBlank hnot] at hentry
    cases hentry
  · intro q hq
    obtain ⟨piece, hmem, hentry⟩ := List.mem_flatMap.mp hq
    obtain ⟨hq, hnot⟩ := List.mem_filter.mp hentry
    obtain rfl := List.mem_singleton.mp hq
    have htext : (chunkText piece).toList = Utf8.decode piece := String.toList_ofList
    rw [htext]
    by_cases hclean : Utf8.replacement ∈ Utf8.decode piece
    · exact .inl hclean
    -- the piece stands in the line as it is, with something else beside it
    obtain ⟨before, behind, hpieces⟩ := List.append_of_mem hmem
    have hne : piece ≠ [] := by
      rintro rfl
      exact absurd hnot (by decide)
    have hwhole : Utf8.decode line.reduceOption =
        Utf8.decode before.flatten ++ (Utf8.decode piece ++ Utf8.decode behind.flatten) := by
      rw [← flatten_pieces, hpieces, List.flatten_append, List.flatten_cons]
      exact Utf8.decode_between hclean hne _ _
    have hkept : ¬ isBlank (chunkText line.reduceOption) = true := by
      intro hwhite
      apply (by simpa using hnot : ¬ isBlank (chunkText piece) = true)
      rw [isBlank_chunkText_iff] at hwhite ⊢
      intro c hc
      apply hwhite
      rw [hwhole]
      exact List.mem_append_right _ (List.mem_append_left _ hc)
    refine .inr ⟨_, entry_of_not_isBlank hkept, fun heq => ?_⟩
    have hlength := congrArg List.length (String.ofList_injective heq)
    rw [hwhole, List.length_append, List.length_append] at hlength
    have hbefore : before.flatten = [] := Utf8.decode_eq_nil_iff.mp (List.length_eq_zero_iff.mp (by omega))
    have hbehind : behind.flatten = [] := Utf8.decode_eq_nil_iff.mp (List.length_eq_zero_iff.mp (by omega))
    apply hcount
    rw [hpieces, List.filter_append, filter_eq_nil_of_flatten hbefore, List.filter_cons,
      filter_eq_nil_of_flatten hbehind]
    split <;> simp

/-! ### The end of the stream -/

theorem wholeEntry_cases (line : CutLine) : wholeEntry line = [] ∨ ∃ w, wholeEntry line = [w] := by
  by_cases h : isBlank (chunkText line.reduceOption) = true
  · exact .inl (entry_of_isBlank h)
  · exact .inr ⟨_, entry_of_not_isBlank h⟩

/-- The last line, and those before it. -/
theorem uncutEnd_concat_iff (n : ℕ) (lines : List CutLine) (line : CutLine) :
    UncutEnd n (lines ++ [line]) ↔ (0 < n → Uncut line) ∧ UncutEnd (n - (wholeEntry line).length) lines := by
  constructor
  · intro h
    refine ⟨fun hn => h lines line [] rfl hn, fun before l behind hlines hcount => ?_⟩
    apply h before l (behind ++ [line])
    · rw [hlines, List.append_assoc]
      rfl
    · rw [List.flatMap_append, List.length_append, List.flatMap_singleton]
      omega
  · rintro ⟨hlast, hinit⟩ before l behind hlines hcount
    rcases List.eq_nil_or_concat behind with rfl | ⟨behind, last, rfl⟩
    · obtain ⟨-, hline⟩ := List.append_inj' hlines rfl
      rw [← List.singleton_inj.mp hline]
      exact hlast hcount
    · rw [List.concat_eq_append] at hlines hcount
      rw [← List.cons_append, ← List.append_assoc] at hlines
      obtain ⟨hlines, hline⟩ := List.append_inj' hlines rfl
      rw [List.flatMap_append, List.length_append, List.flatMap_singleton,
        ← List.singleton_inj.mp hline] at hcount
      exact hinit before l behind hlines (by omega)

/-- **Where the end is not cut, the last lines are kept.** -/
theorem rtake_entries {n : ℕ} {lines : List CutLine} (h : UncutEnd n lines) :
    (lines.flatMap entries).rtake n = (lines.flatMap wholeEntry).rtake n := by
  induction lines using List.reverseRecOn generalizing n with
  | nil => rw [List.flatMap_nil, List.flatMap_nil]
  | append_singleton lines line ih =>
    obtain ⟨hlast, hinit⟩ := (uncutEnd_concat_iff n lines line).mp h
    cases n with
    | zero => rw [List.rtake_zero, List.rtake_zero]
    | succ n =>
      rw [List.flatMap_append, List.flatMap_append, List.flatMap_singleton, List.flatMap_singleton,
        entries_of_uncut (hlast (Nat.succ_pos n))]
      rcases wholeEntry_cases line with hnone | ⟨w, hw⟩
      · rw [hnone] at hinit ⊢
        rw [List.append_nil, List.append_nil]
        exact ih hinit
      · rw [hw] at hinit ⊢
        rw [List.rtake_concat_succ, List.rtake_concat_succ]
        exact congrArg (· ++ [w]) (ih hinit)

theorem getLast_mem_entries {line : CutLine} (lines : List CutLine) (h : entries line ≠ []) (n : ℕ) :
    ∃ q ∈ entries line, ∃ rest, ((lines ++ [line]).flatMap entries).rtake (n + 1) = rest ++ [q] := by
  refine ⟨_, List.getLast_mem h, (lines.flatMap entries ++ (entries line).dropLast).rtake n, ?_⟩
  rw [List.flatMap_append, List.flatMap_singleton, ← List.rtake_concat_succ, List.append_assoc,
    List.dropLast_append_getLast h]

/-- **Where it is cut, they are not**, as far as they have no replacement character. -/
theorem uncutEnd_of_rtake {n : ℕ} {lines : List CutLine}
    (hclean : ∀ q ∈ (lines.flatMap wholeEntry).rtake n, Utf8.replacement ∉ q.toList)
    (h : (lines.flatMap entries).rtake n = (lines.flatMap wholeEntry).rtake n) : UncutEnd n lines := by
  induction lines using List.reverseRecOn generalizing n with
  | nil =>
    intro before line behind hlines
    simp at hlines
  | append_singleton lines line ih =>
    cases n with
    | zero => exact fun before line behind _ hcount => absurd hcount (Nat.not_lt_zero _)
    | succ n =>
      rw [uncutEnd_concat_iff]
      by_cases hline : Uncut line
      · refine ⟨fun _ => hline, ?_⟩
        rw [List.flatMap_append, List.flatMap_singleton] at hclean h
        rw [List.flatMap_append, List.flatMap_singleton, entries_of_uncut hline] at h
        rcases wholeEntry_cases line with hnone | ⟨w, hw⟩
        · rw [hnone, List.append_nil] at hclean h
          rw [List.append_nil] at h
          rw [hnone]
          exact ih hclean h
        · rw [hw, List.rtake_concat_succ] at hclean h
          rw [List.rtake_concat_succ] at h
          rw [hw]
          exact ih (fun q hq => hclean q (List.mem_append_left _ hq)) (List.append_inj_left' h rfl)
      · -- the last entry is a piece of the line
        obtain ⟨hne, hpieces⟩ := entries_of_cut hline
        obtain ⟨q, hq, rest, hlast⟩ := getLast_mem_entries lines hne n
        rw [h] at hlast
        have hqclean : Utf8.replacement ∉ q.toList := by
          apply hclean
          rw [hlast]
          exact List.mem_append_right _ (List.mem_singleton_self q)
        obtain ⟨w, hw, hqw⟩ := (hpieces q hq).resolve_left hqclean
        rw [List.flatMap_append, List.flatMap_singleton, hw, List.rtake_concat_succ] at hlast
        exact absurd (List.singleton_inj.mp (List.append_inj_right' hlast rfl)).symm hqw

/-- **When the log holds the last lines of the stream.** -/
theorem recentLogs_iff (chunks : List (List UInt8)) :
    (UncutEnd maxLogLines (streamLines chunks) → recentLogs chunks = lastLogs chunks.flatten) ∧
    ((∀ line ∈ lastLogs chunks.flatten, Utf8.replacement ∉ line.toList) →
      (recentLogs chunks = lastLogs chunks.flatten ↔ UncutEnd maxLogLines (streamLines chunks))) := by
  have hsuffices : UncutEnd maxLogLines (streamLines chunks) → recentLogs chunks = lastLogs chunks.flatten := by
    intro h
    rw [recentLogs_eq_entries, lastLogs_eq_entries]
    exact rtake_entries h
  refine ⟨hsuffices, fun hclean => ⟨fun h => ?_, hsuffices⟩⟩
  rw [lastLogs_eq_entries] at hclean h
  rw [recentLogs_eq_entries] at h
  exact uncutEnd_of_rtake hclean h

/-- `ab` in two chunks is kept as two lines, and the bytes of `가` as replacement characters. -/
theorem not_recentLogs_of_cut :
    ¬ (recentLogs [[0x61], [0x62, 0x0A]] = recentLogs [[0x61, 0x62, 0x0A]]) ∧
    ¬ (recentLogs [[0xEA], [0xB0, 0x80, 0x0A]] = lastLogs [0xEA, 0xB0, 0x80, 0x0A]) := by
  decide +kernel

end BulkTraffic.Lab
