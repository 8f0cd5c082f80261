import BulkTraffic.Js.Text
import BulkTraffic.Lib.Lines
import BulkTraffic.Lib.Utf8

/-!
# Reading a stream of events

`readSseStream` reads the body of a response in chunks. It decodes each chunk with a `TextDecoder`
that remembers an unfinished character, adds the text to a buffer, and takes the finished lines out
of it. A line that begins with `data: ` and goes on with JSON is a message.

The messages are those of the lines of the whole stream that a line break ends, however it is cut
into chunks (`readSseStream_eq`). A byte order mark at the very start of the stream is no part of its
first line; the decoder leaves it out, and a stream without one is read as it is
(`readSseStream_of_head`).
-/

namespace BulkTraffic.LoadTest

open BulkTraffic.Js BulkTraffic.Lib

/-! ### The decoder -/

/-- `TextDecoder`, which leaves out a byte order mark at the start of the stream. -/
structure TextDecoder where
  /-- The bytes of an unfinished character. -/
  state : Utf8.State
  /-- Has a character come? -/
  bomSeen : Bool

/-- `new TextDecoder()`. -/
def TextDecoder.start : TextDecoder := { state := none, bomSeen := false }

/-- The text without a byte order mark at its start. -/
def withoutBom : List Char → List Char
  | [] => []
  | c :: cs => if c = Char.ofNat 0xFEFF then cs else c :: cs

/-- `decoder.decode(value, { stream: true })`. -/
def TextDecoder.decode (decoder : TextDecoder) (value : List UInt8) : List Char × TextDecoder :=
  let text := (Utf8.run decoder.state value).1
  (if decoder.bomSeen then text else withoutBom text,
    { state := (Utf8.run decoder.state value).2, bomSeen := decoder.bomSeen || !text.isEmpty })

/-- The text of a stream, as far as its characters are finished. -/
def decodedText (bytes : List UInt8) : List Char := (TextDecoder.start.decode bytes).1

/-! ### The reader -/

/-- The parts of a text between its line breaks. -/
def textLines (text : List Char) : List (List Char) := text.splitOnP fun c => c == '\n'

/-- The lines of a text that a line break ends. -/
def finishedLines (text : List Char) : List (List Char) := (textLines text).dropLast

/-- `'data: '`. -/
def dataPrefix : List Char := ['d', 'a', 't', 'a', ':', ' ']

section

variable {β : Type} (jsonParse : String → Option β)

/-- The message of a line: nothing where it is another line, is blank, or `JSON.parse` throws. -/
def messageOf (line : List Char) : Option β :=
  if dataPrefix.isPrefixOf line then
    let raw := trim (String.ofList (line.drop 6))
    if raw = "" then none else jsonParse raw
  else none

/-- The variables of `readSseStream` between two chunks. -/
structure SseReader where
  /-- `decoder`. -/
  decoder : TextDecoder
  /-- `buffer`. -/
  buffer : List Char

/-- The reader at the start. -/
def SseReader.start : SseReader := { decoder := TextDecoder.start, buffer := [] }

/-- What comes behind the last line break. -/
def unfinishedLine (text : List Char) : List Char :=
  (textLines text).getLast (List.splitOnP_ne_nil _ text)

/-- One chunk: the calls of `onMessage`, and the reader behind it. -/
def SseReader.read (reader : SseReader) (value : List UInt8) : List β × SseReader :=
  let text := reader.buffer ++ (reader.decoder.decode value).1
  ((finishedLines text).filterMap (messageOf jsonParse),
    { decoder := (reader.decoder.decode value).2, buffer := unfinishedLine text })

/-- The chunks that are still to come. -/
def SseReader.readAll (reader : SseReader) : List (List UInt8) → List β
  | [] => []
  | value :: values => (reader.read jsonParse value).1 ++ (reader.read jsonParse value).2.readAll values

/-- `readSseStream(res, onMessage)`: the values `onMessage` is called with. -/
def readSseStream (values : List (List UInt8)) : List β := SseReader.start.readAll jsonParse values

/-! ### Decoding in parts -/

theorem withoutBom_of_head {text : List Char} (h : text.head? ≠ some (Char.ofNat 0xFEFF)) :
    withoutBom text = text := by
  cases text with
  | nil => rfl
  | cons c cs => exact if_neg fun hc => h (congrArg some hc)

theorem withoutBom_append {xs : List Char} (h : xs ≠ []) (ys : List Char) :
    withoutBom (xs ++ ys) = withoutBom xs ++ ys := by
  obtain ⟨c, cs, rfl⟩ := List.exists_cons_of_ne_nil h
  rw [List.cons_append, withoutBom, withoutBom]
  split <;> rfl

/-- **A stream is decoded as the whole.** -/
theorem TextDecoder.decode_append (decoder : TextDecoder) (xs ys : List UInt8) :
    (decoder.decode (xs ++ ys)).1 = (decoder.decode xs).1 ++ ((decoder.decode xs).2.decode ys).1 := by
  obtain ⟨state, bomSeen⟩ := decoder
  simp only [decode, Utf8.run_append]
  cases bomSeen with
  | true => rfl
  | false =>
    by_cases hnil : (Utf8.run state xs).1 = []
    · rw [hnil]
      rfl
    · have hseen : (Utf8.run state xs).1.isEmpty = false := by simpa using hnil
      simp only [hseen, Bool.not_false, Bool.or_true, if_true, Bool.false_eq_true, if_false]
      exact withoutBom_append hnil _

/-! ### The messages -/

theorem finishedLines_append (xs ys : List Char) :
    finishedLines (xs ++ ys) = finishedLines xs ++ finishedLines (unfinishedLine xs ++ ys) := by
  rw [finishedLines, textLines, splitOnP_append, List.dropLast_append_of_ne_nil (List.splitOnP_ne_nil _ _)]
  rfl

theorem newline_not_mem_unfinishedLine (text : List Char) : '\n' ∉ unfinishedLine text := by
  intro hmem
  have hfalse := not_of_mem_splitOnP (List.getLast_mem (List.splitOnP_ne_nil (fun c => c == '\n') text)) hmem
  simp at hfalse

theorem finishedLines_eq_nil {text : List Char} (h : '\n' ∉ text) : finishedLines text = [] := by
  have hsplit : textLines text = [text] := by
    apply List.splitOnP_eq_singleton
    intro c hc
    rw [beq_eq_false_iff_ne]
    rintro rfl
    exact h hc
  rw [finishedLines, hsplit]
  rfl

/-- What is read from a buffer and the chunks to come. -/
theorem readAll_eq (values : List (List UInt8)) (reader : SseReader) (h : '\n' ∉ reader.buffer) :
    reader.readAll jsonParse values =
      (finishedLines (reader.buffer ++ (reader.decoder.decode values.flatten).1)).filterMap
        (messageOf jsonParse) := by
  induction values generalizing reader with
  | nil =>
    have hnone : (reader.decoder.decode []).1 = [] := by
      cases hseen : reader.decoder.bomSeen <;> simp [TextDecoder.decode, Utf8.run, hseen, withoutBom]
    rw [SseReader.readAll, List.flatten_nil, hnone, List.append_nil, finishedLines_eq_nil h]
    rfl
  | cons value values ih =>
    rw [SseReader.readAll, ih _ (newline_not_mem_unfinishedLine _), List.flatten_cons,
      TextDecoder.decode_append, ← List.append_assoc,
      finishedLines_append (reader.buffer ++ (reader.decoder.decode value).1), List.filterMap_append]
    rfl

/-- Which lines are messages. -/
theorem messageOf_eq_some_iff (line : List Char) (message : β) :
    messageOf jsonParse line = some message ↔ ∃ rest, line = dataPrefix ++ rest ∧
      trim (String.ofList rest) ≠ "" ∧ jsonParse (trim (String.ofList rest)) = some message := by
  rw [messageOf]
  constructor
  · intro h
    split at h
    · rename_i hprefix
      obtain ⟨rest, rfl⟩ := List.isPrefixOf_iff_prefix.mp hprefix
      have hdrop : (dataPrefix ++ rest).drop 6 = rest := rfl
      rw [hdrop] at h
      by_cases hblank : trim (String.ofList rest) = ""
      · simp [hblank] at h
      · simp only [if_neg hblank] at h
        exact ⟨rest, rfl, hblank, h⟩
    · cases h
  · rintro ⟨rest, rfl, hblank, h⟩
    have hprefix : dataPrefix.isPrefixOf (dataPrefix ++ rest) = true :=
      List.isPrefixOf_iff_prefix.mpr (List.prefix_append _ _)
    have hdrop : (dataPrefix ++ rest).drop 6 = rest := rfl
    simp only [if_pos hprefix, hdrop, if_neg hblank, h]

theorem readSseStream_eq_decoded (values : List (List UInt8)) :
    readSseStream jsonParse values =
      (finishedLines (decodedText values.flatten)).filterMap (messageOf jsonParse) :=
  readAll_eq jsonParse values SseReader.start List.not_mem_nil

theorem decodedText_encode (text : List Char) : decodedText (Utf8.encode text) = withoutBom text := by
  rw [decodedText, TextDecoder.decode, TextDecoder.start, Utf8.run_encode]
  rfl

/-- A text that does not begin with a byte order mark: the messages are those of its finished lines,
however its bytes are cut into chunks. -/
theorem readSseStream_of_head {text : List Char} (h : text.head? ≠ some (Char.ofNat 0xFEFF))
    {values : List (List UInt8)} (hvalues : values.flatten = Utf8.encode text) :
    readSseStream jsonParse values = (finishedLines text).filterMap (messageOf jsonParse) := by
  rw [readSseStream_eq_decoded, hvalues, decodedText_encode, withoutBom_of_head h]

end

/-- **The messages do not depend on the chunks.** They are the messages of the finished lines of the
stream, and of the text whose bytes it is. -/
theorem readSseStream_eq {β : Type} (jsonParse : String → Option β) (values : List (List UInt8)) :
    readSseStream jsonParse values =
      (finishedLines (decodedText values.flatten)).filterMap (messageOf jsonParse) ∧
    (∀ text, values.flatten = Utf8.encode text → readSseStream jsonParse values =
      (finishedLines (withoutBom text)).filterMap (messageOf jsonParse)) ∧
    ∀ line message, messageOf jsonParse line = some message ↔ ∃ rest, line = dataPrefix ++ rest ∧
      trim (String.ofList rest) ≠ "" ∧ jsonParse (trim (String.ofList rest)) = some message := by
  refine ⟨readSseStream_eq_decoded jsonParse values, fun text h => ?_, messageOf_eq_some_iff jsonParse⟩
  rw [readSseStream_eq_decoded, h, decodedText_encode]

end BulkTraffic.LoadTest
