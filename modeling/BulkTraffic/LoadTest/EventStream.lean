import BulkTraffic.Js.JsonRoundTrip
import BulkTraffic.Lib.Runs
import BulkTraffic.LoadTest.SseStream

/-!
# A stream of events, from the work to the page

`createEventStream(work)` runs a piece of work that calls `emit`, and sends every event on the stream
of the response: as JSON text on one line of it, which the framework puts between lines of its own
(`Framing`). The page reads the bytes of the response with `readSseStream`.

* `EventStream.step`: the subscription, the microtask in which the work begins, the calls of `emit`,
  the end of the work and the end of the connection, in any order in which they can come.
* `Delivers`: what the stream has sent, over every run.
* `page_receives`: the page gets every event the work has emitted, once and in order, and behind them
  an event `error` where the work has thrown. However the bytes are cut into chunks, and wherever they
  break off, it gets nothing else.
-/

namespace BulkTraffic.LoadTest

open BulkTraffic.Js BulkTraffic.Lib

/-! ### Events -/

/-- A call `emit(event, payload)`. The payload is given as JSON, so what `JSON.stringify` leaves out is
left out; no name of it is the index of an array. -/
structure Emitted where
  /-- The name of the event. -/
  event : String
  /-- The payload. -/
  payload : List (String × Json)

/-- Sets a member of an object: in its place, or behind the others. -/
def setMember (members : List (String × Json)) (member : String × Json) : List (String × Json) :=
  if members.any fun m => m.1 == member.1 then
    members.map fun m => if m.1 == member.1 then member else m
  else members ++ [member]

namespace Emitted

/-- `{ event, ...payload }`. -/
def json (e : Emitted) : Json := .obj (e.payload.foldl setMember [("event", .str e.event)])

/-- `data`: `JSON.stringify({ event, ...payload })`. -/
def data (e : Emitted) : List Char := e.json.text

/-- What the page makes of it. -/
def message (e : Emitted) : JsValue := e.json.parse

/-- All numbers of the payload are number literals. -/
def WellFormed (e : Emitted) : Prop := Json.MembersWellFormed e.payload

end Emitted

/-- ``emit('error', { message: `스트림 작업 실패: ${reason}` })``. -/
def failureEvent (reason : String) : Emitted where
  event := "error"
  payload := [("message", .str ("스트림 작업 실패: " ++ reason))]

theorem membersWellFormed_iff (members : List (String × Json)) :
    Json.MembersWellFormed members ↔ ∀ m ∈ members, m.2.WellFormed := by
  induction members with
  | nil => simp [Json.MembersWellFormed]
  | cons m members ih => rw [Json.MembersWellFormed, ih, List.forall_mem_cons]

theorem wellFormed_setMember {members : List (String × Json)} {member : String × Json}
    (h : ∀ m ∈ members, m.2.WellFormed) (hmember : member.2.WellFormed) :
    ∀ m ∈ setMember members member, m.2.WellFormed := by
  intro m hm
  rw [setMember] at hm
  split at hm
  · obtain ⟨m', hm', rfl⟩ := List.mem_map.mp hm
    split
    · exact hmember
    · exact h m' hm'
  · rcases List.mem_append.mp hm with hm | hm
    · exact h m hm
    · rw [List.mem_singleton.mp hm]
      exact hmember

theorem Emitted.WellFormed.json {e : Emitted} (h : e.WellFormed) : e.json.WellFormed := by
  have hfold : ∀ payload : List (String × Json), (∀ m ∈ payload, m.2.WellFormed) →
      ∀ members : List (String × Json), (∀ m ∈ members, m.2.WellFormed) →
      ∀ m ∈ payload.foldl setMember members, m.2.WellFormed := by
    intro payload
    induction payload with
    | nil => exact fun _ members hmembers => hmembers
    | cons member payload ih =>
      rw [List.forall_mem_cons]
      exact fun hpayload members hmembers =>
        ih hpayload.2 _ (wellFormed_setMember hmembers hpayload.1)
  rw [Emitted.json, Json.WellFormed, membersWellFormed_iff]
  exact hfold _ ((membersWellFormed_iff _).mp h) _ (List.forall_mem_cons.mpr ⟨trivial, nofun⟩)

theorem wellFormed_failureEvent (reason : String) : (failureEvent reason).WellFormed :=
  ⟨trivial, trivial⟩

/-! ### The stream -/

/-- How far the work of a stream is. -/
inductive StreamWork where
  /-- Nobody has subscribed: `defer` has not run. -/
  | deferred
  /-- The subject is there, and the work waits in the microtask queue. -/
  | queued
  /-- `work(emit)` is running. -/
  | running
  /-- Its promise has settled: with the reason it was rejected with, if it was. -/
  | settled (reason : Option String)
  deriving DecidableEq

/-- The stream of one response. -/
structure EventStream where
  /-- The work. -/
  work : StreamWork := .deferred
  /-- The response is subscribed to the subject. -/
  listening : Bool := false
  /-- The calls of `emit` the work has made before its promise settled. -/
  calls : List Emitted := []
  /-- What the response has been given. -/
  sent : List Emitted := []
  /-- The response has been told that the stream is complete. -/
  ended : Bool := false

/-- What can happen to a stream. -/
inductive EventStream.Event where
  /-- The response subscribes. -/
  | subscribe
  /-- The microtask runs `work(emit)`. -/
  | microtask
  /-- `emit(event, payload)`. -/
  | emit (e : Emitted)
  /-- The callback of `.then`: `subject.complete()`. -/
  | fulfilled
  /-- The callback of `.catch`. -/
  | rejected (reason : String)
  /-- The client goes away. -/
  | unsubscribe

/-- The numbers an event carries are number literals. -/
def EventStream.Event.WellFormed : EventStream.Event → Prop
  | .emit e => e.WellFormed
  | _ => True

namespace EventStream

/-- The stream at the start. -/
def initial : EventStream := {}

/-- `subject.next(..)`: it reaches who is subscribed now, for the subject keeps nothing. -/
def next (s : EventStream) (e : Emitted) : EventStream :=
  { s with sent := if s.listening then s.sent ++ [e] else s.sent }

/-- `subject.complete()`. -/
def complete (s : EventStream) : EventStream :=
  { s with listening := false, ended := s.ended || s.listening }

/-- One step. -/
def step (s : EventStream) : Event → Option EventStream
  | .subscribe =>
    -- The factory of `defer` and the subscription are one piece: the microtask comes after both.
    if s.work = .deferred then some { s with work := .queued, listening := true } else none
  | .microtask => if s.work = .queued then some { s with work := .running } else none
  | .emit e =>
    match s.work with
    | .running => some { s.next e with calls := s.calls ++ [e] }
    -- A callback the work has left behind: the subject is complete.
    | .settled _ => some s
    | _ => none
  | .fulfilled => if s.work = .running then some { s.complete with work := .settled none } else none
  | .rejected reason =>
    if s.work = .running then
      some { (s.next (failureEvent reason)).complete with work := .settled (some reason) }
    else none
  | .unsubscribe => if s.listening then some { s with listening := false } else none

/-- The events the stream is there to deliver: those of the work, and its failure. -/
def expected (s : EventStream) : List Emitted :=
  match s.work with
  | .settled (some reason) => s.calls ++ [failureEvent reason]
  | _ => s.calls

/-- What has been sent. -/
structure Delivers (s : EventStream) : Prop where
  /-- Nothing but what is expected, in order. -/
  order : s.sent <+: s.expected
  /-- All of it, for who is still there or was there to the end. -/
  all : s.listening = true ∨ s.ended = true → s.sent = s.expected
  /-- Nobody listens behind the end. -/
  settled : ∀ reason, s.work = .settled reason → s.listening = false
  /-- The end is told at the end. -/
  ended : s.ended = true → ∃ reason, s.work = .settled reason
  /-- Nothing is emitted before the work runs. -/
  calls : s.work = .deferred ∨ s.work = .queued → s.calls = []
  /-- What is sent can be written. -/
  wellFormed : ∀ e ∈ s.sent, e.WellFormed

theorem delivers_initial : Delivers initial where
  order := List.prefix_refl _
  all := fun _ => rfl
  settled := nofun
  ended := nofun
  calls := fun _ => rfl
  wellFormed := nofun

/-- `subject.next(..)` keeps what has been sent in step with what is expected. -/
theorem Delivers.next {s : EventStream} (h : Delivers s) (hopen : s.work = .running) (e : Emitted) :
    (s.next e).sent <+: s.calls ++ [e] ∧ (s.listening = true → (s.next e).sent = s.calls ++ [e]) := by
  have hexpected : s.expected = s.calls := by rw [expected, hopen]
  have horder := h.order
  have hall := h.all
  rw [hexpected] at horder hall
  simp only [EventStream.next]
  split
  · rename_i hlistening
    rw [hall (.inl hlistening)]
    exact ⟨List.prefix_refl _, fun _ => rfl⟩
  · rename_i hlistening
    exact ⟨horder.trans (List.prefix_append _ _), fun hl => absurd hl hlistening⟩

theorem not_ended_of_running {s : EventStream} (h : Delivers s) (hopen : s.work = .running) :
    s.ended = false := by
  rw [Bool.eq_false_iff]
  intro hended
  obtain ⟨reason, hreason⟩ := h.ended hended
  rw [hopen] at hreason
  cases hreason

theorem wellFormed_next {s : EventStream} (h : Delivers s) {e : Emitted} (he : e.WellFormed) :
    ∀ e' ∈ (s.next e).sent, e'.WellFormed := by
  simp only [EventStream.next]
  split
  · exact List.forall_mem_append.mpr ⟨h.wellFormed, List.forall_mem_singleton.mpr he⟩
  · exact h.wellFormed

/-- **One step** keeps the invariant. -/
theorem Delivers.step {s t : EventStream} {e : Event} (h : Delivers s) (he : e.WellFormed)
    (ht : s.step e = some t) : Delivers t := by
  cases e with
  | subscribe =>
    simp only [EventStream.step] at ht
    split at ht
    · rename_i hwork
      simp only [Option.some.injEq] at ht
      subst ht
      have hcalls := h.calls (.inl hwork)
      have horder := h.order
      rw [expected, hwork] at horder
      simp only [hcalls, List.prefix_nil] at horder
      refine ⟨?_, fun _ => ?_, nofun, fun hended => ?_, fun _ => hcalls, h.wellFormed⟩
      · simp only [expected, hcalls, horder, List.prefix_refl]
      · simp only [expected, hcalls, horder]
      · obtain ⟨reason, hreason⟩ := h.ended hended
        rw [hwork] at hreason
        cases hreason
    · cases ht
  | microtask =>
    simp only [EventStream.step] at ht
    split at ht
    · rename_i hwork
      simp only [Option.some.injEq] at ht
      subst ht
      have horder := h.order
      have hall := h.all
      simp only [expected, hwork] at horder hall
      refine ⟨horder, hall, nofun, fun hended => ?_, nofun, h.wellFormed⟩
      obtain ⟨reason, hreason⟩ := h.ended hended
      rw [hwork] at hreason
      cases hreason
    · cases ht
  | emit e =>
    simp only [EventStream.step] at ht
    split at ht
    · rename_i hwork
      simp only [Option.some.injEq] at ht
      subst ht
      have hended := not_ended_of_running h hwork
      obtain ⟨horder, hall⟩ := h.next hwork e
      refine ⟨?_, ?_, ?_, ?_, ?_, wellFormed_next h he⟩
      · simpa [expected, hwork, EventStream.next] using horder
      · simpa [expected, hwork, hended, EventStream.next] using hall
      · intro reason hreason
        simp [EventStream.next, hwork] at hreason
      · simp [EventStream.next, hended]
      · simp [EventStream.next, hwork]
    · simp only [Option.some.injEq] at ht
      exact ht ▸ h
    · cases ht
  | fulfilled =>
    simp only [EventStream.step] at ht
    split at ht
    · rename_i hwork
      simp only [Option.some.injEq] at ht
      subst ht
      have hended := not_ended_of_running h hwork
      have horder := h.order
      have hall := h.all
      simp only [expected, hwork] at horder hall
      refine ⟨horder, ?_, fun _ _ => rfl, fun _ => ⟨none, rfl⟩, nofun, h.wellFormed⟩
      simpa [complete, expected, hended] using hall
    · cases ht
  | rejected reason =>
    simp only [EventStream.step] at ht
    split at ht
    · rename_i hwork
      simp only [Option.some.injEq] at ht
      subst ht
      have hended := not_ended_of_running h hwork
      obtain ⟨horder, hall⟩ := h.next hwork (failureEvent reason)
      refine ⟨horder, ?_, fun _ _ => rfl, fun _ => ⟨some reason, rfl⟩, nofun,
        wellFormed_next h (wellFormed_failureEvent reason)⟩
      simpa [complete, expected, EventStream.next, hended] using hall
    · cases ht
  | unsubscribe =>
    simp only [EventStream.step] at ht
    split at ht
    · simp only [Option.some.injEq] at ht
      subst ht
      refine ⟨h.order, fun hl => ?_, fun _ _ => rfl, h.ended, h.calls, h.wellFormed⟩
      rcases hl with hl | hl
      · cases hl
      · exact h.all (.inr hl)
    · cases ht

/-- **What a stream has sent**, over every run. -/
theorem delivers_of_reaches {s : EventStream}
    (h : Reaches step (fun _ e => e.WellFormed) initial s) : Delivers s :=
  h.invariant delivers_initial fun _ _ _ hs he ht => hs.step he ht

end EventStream

/-! ### The response -/

/-- The lines of a text, each with its line break. -/
def linesText (lines : List (List Char)) : List Char := lines.flatMap fun line => line ++ ['\n']

/-- A line that is no data: another field of an event, or the blank line behind it. -/
structure IsPlainLine (line : List Char) : Prop where
  /-- It is one line. -/
  newline : '\n' ∉ line
  /-- It is another field. -/
  noData : dataPrefix.isPrefixOf line = false
  /-- It does not begin with a byte order mark. -/
  noBom : line.head? ≠ some (Char.ofNat 0xFEFF)

/-- What the framework writes around the data of an event, which is one line. -/
structure Framing where
  /-- The lines before the first event. -/
  opening : List (List Char)
  /-- The lines before the data of the `n`-th event. -/
  before : ℕ → List (List Char)
  /-- The lines behind it. -/
  after : ℕ → List (List Char)
  plain : ∀ line, (line ∈ opening ∨ ∃ n, line ∈ before n ∨ line ∈ after n) → IsPlainLine line

namespace Framing

/-- The lines of the events from the `n`-th on. -/
def frames (f : Framing) : ℕ → List Emitted → List (List Char)
  | _, [] => []
  | n, e :: es => f.before n ++ (dataPrefix ++ e.data) :: (f.after n ++ f.frames (n + 1) es)

/-- The text of the response, as far as it has been written. -/
def body (f : Framing) (sent : List Emitted) : List Char := linesText (f.opening ++ f.frames 1 sent)

end Framing

/-- `JSON.parse(raw)`: nothing where it throws. -/
def jsonParse (raw : String) : Option JsValue := (Json.read raw.toList).map Json.parse

/-! ### Reading the response -/

theorem finishedLines_linesText {lines : List (List Char)} (h : ∀ line ∈ lines, '\n' ∉ line) :
    finishedLines (linesText lines) = lines := by
  induction lines with
  | nil => rfl
  | cons line lines ih =>
    rw [List.forall_mem_cons] at h
    have hline : line.splitOnP (fun c => c == '\n') = [line] := by
      apply List.splitOnP_eq_singleton
      intro c hc
      rw [beq_eq_false_iff_ne]
      rintro rfl
      exact h.1 hc
    have htext : linesText (line :: lines) = line ++ '\n' :: linesText lines := by
      rw [linesText, List.flatMap_cons, List.append_assoc]
      rfl
    rw [htext, finishedLines, textLines, List.splitOnP_append_cons _ _ rfl, hline, List.singleton_append,
      List.dropLast_cons_of_ne_nil (List.splitOnP_ne_nil _ _)]
    exact congrArg (line :: ·) (ih h.2)

theorem head_linesText {lines : List (List Char)}
    (h : ∀ line ∈ lines, line.head? ≠ some (Char.ofNat 0xFEFF)) :
    (linesText lines).head? ≠ some (Char.ofNat 0xFEFF) := by
  cases lines with
  | nil => exact (by decide : none ≠ some (Char.ofNat 0xFEFF))
  | cons line lines =>
    have hline := h line List.mem_cons_self
    cases line with
    | nil => exact (by decide : some '\n' ≠ some (Char.ofNat 0xFEFF))
    | cons c cs => exact hline

/-- What begins and ends with no white space has nothing to trim. -/
theorem trim_of_ends {c d : Char} (hc : isWhite c = false) (hd : isWhite d = false) (cs : List Char) :
    trim (String.ofList (c :: cs ++ [d])) = String.ofList (c :: cs ++ [d]) := by
  have hleft : (c :: cs ++ [d]).dropWhile isWhite = c :: cs ++ [d] :=
    List.dropWhile_cons_of_neg (by simp [hc])
  have hright : (c :: cs ++ [d]).reverse.dropWhile isWhite = (c :: cs ++ [d]).reverse := by
    rw [List.reverse_append]
    exact List.dropWhile_cons_of_neg (by simp [hd])
  rw [trim, String.toList_ofList, hleft, hright, List.reverse_reverse]

/-- **The data line of an event** is read as the event. -/
theorem messageOf_data {e : Emitted} (h : e.WellFormed) :
    messageOf jsonParse (dataPrefix ++ e.data) = some e.message := by
  have htext : e.data = '\x7b' :: Json.membersText Json.escapeChar
      (e.payload.foldl setMember [("event", .str e.event)]) ++ ['\x7d'] := rfl
  have htrim : trim (String.ofList e.data) = String.ofList e.data := by
    rw [htext]
    exact trim_of_ends (by decide) (by decide) _
  rw [messageOf_eq_some_iff]
  refine ⟨e.data, rfl, ?_, ?_⟩
  · rw [htrim, htext]
    intro hnil
    have hlist := congrArg String.toList hnil
    simp at hlist
  · rw [htrim, jsonParse, String.toList_ofList, Emitted.data, Json.read_text h.json]
    rfl

theorem messageOf_plain {line : List Char} (h : IsPlainLine line) : messageOf jsonParse line = none := by
  simp [messageOf, h.noData]

namespace Framing

variable (f : Framing)

theorem filterMap_plain {lines : List (List Char)} (h : ∀ line ∈ lines, IsPlainLine line) :
    lines.filterMap (messageOf jsonParse) = [] :=
  List.filterMap_eq_nil_iff.mpr fun line hline => messageOf_plain (h line hline)

theorem messages_frames {sent : List Emitted} (h : ∀ e ∈ sent, e.WellFormed) (n : ℕ) :
    (f.frames n sent).filterMap (messageOf jsonParse) = sent.map Emitted.message := by
  induction sent generalizing n with
  | nil => rfl
  | cons e sent ih =>
    rw [List.forall_mem_cons] at h
    have hbefore := filterMap_plain fun line hl => f.plain line (.inr ⟨n, .inl hl⟩)
    have hafter := filterMap_plain fun line hl => f.plain line (.inr ⟨n, .inr hl⟩)
    rw [frames, List.filterMap_append, hbefore, List.nil_append,
      List.filterMap_cons_some (messageOf_data h.1), List.filterMap_append, hafter, ih h.2]
    rfl

/-- Every line of the response is one line, and none begins with a byte order mark. -/
theorem lines_frames {sent : List Emitted} (h : ∀ e ∈ sent, e.WellFormed) (n : ℕ) :
    ∀ line ∈ f.frames n sent, '\n' ∉ line ∧ line.head? ≠ some (Char.ofNat 0xFEFF) := by
  induction sent generalizing n with
  | nil => nofun
  | cons e sent ih =>
    rw [List.forall_mem_cons] at h
    have hplain : ∀ {lines : List (List Char)}, (∀ line ∈ lines, IsPlainLine line) →
        ∀ line ∈ lines, '\n' ∉ line ∧ line.head? ≠ some (Char.ofNat 0xFEFF) :=
      fun hlines line hl => ⟨(hlines line hl).newline, (hlines line hl).noBom⟩
    have hhead : (dataPrefix ++ e.data).head? ≠ some (Char.ofNat 0xFEFF) :=
      (by decide : some 'd' ≠ some (Char.ofNat 0xFEFF))
    rw [frames, List.forall_mem_append, List.forall_mem_cons, List.forall_mem_append]
    refine ⟨hplain fun line hl => f.plain line (.inr ⟨n, .inl hl⟩), ⟨fun hmem => ?_, hhead⟩,
      hplain fun line hl => f.plain line (.inr ⟨n, .inr hl⟩), ih h.2 (n + 1)⟩
    rcases List.mem_append.mp hmem with hmem | hmem
    · exact absurd hmem (by decide)
    · exact absurd (Json.printable_text _ h.1.json _ hmem) (by decide)

/-- **The page reads what the response says.** -/
theorem readSseStream_body {sent : List Emitted} (h : ∀ e ∈ sent, e.WellFormed)
    {values : List (List UInt8)} (hvalues : values.flatten = Utf8.encode (f.body sent)) :
    readSseStream jsonParse values = sent.map Emitted.message := by
  have hopening : ∀ line ∈ f.opening, IsPlainLine line := fun line hl => f.plain line (.inl hl)
  have hlines : ∀ line ∈ f.opening ++ f.frames 1 sent,
      '\n' ∉ line ∧ line.head? ≠ some (Char.ofNat 0xFEFF) :=
    List.forall_mem_append.mpr ⟨fun line hl => ⟨(hopening line hl).newline, (hopening line hl).noBom⟩,
      f.lines_frames h 1⟩
  rw [readSseStream_of_head jsonParse (head_linesText fun line hl => (hlines line hl).2) hvalues,
    finishedLines_linesText fun line hl => (hlines line hl).1, List.filterMap_append,
    filterMap_plain hopening, f.messages_frames h, List.nil_append]

end Framing

/-- **What arrives first is read first**: more bytes only add messages. -/
theorem readSseStream_prefix {β : Type} (parse : String → Option β) {values whole : List (List UInt8)}
    (h : values.flatten <+: whole.flatten) :
    readSseStream parse values <+: readSseStream parse whole := by
  obtain ⟨rest, hrest⟩ := h
  rw [readSseStream_eq_decoded, readSseStream_eq_decoded, ← hrest, decodedText, decodedText,
    TextDecoder.decode_append, finishedLines_append, List.filterMap_append]
  exact List.prefix_append _ _

namespace EventStream

/-- **From the work to the page**: however the bytes of the response are cut into chunks and wherever
they break off, the page gets the first events of the work, and what it gets of its failure comes
behind all of them. Once the stream is complete and its bytes are there, it has all. -/
theorem page_receives (f : Framing) {s : EventStream}
    (h : Reaches step (fun _ e => e.WellFormed) initial s) (values : List (List UInt8)) :
    (values.flatten <+: Utf8.encode (f.body s.sent) →
      readSseStream jsonParse values <+: s.expected.map Emitted.message) ∧
    (s.ended = true → values.flatten = Utf8.encode (f.body s.sent) →
      (s.work = .settled none ∧ readSseStream jsonParse values = s.calls.map Emitted.message) ∨
      ∃ reason, s.work = .settled (some reason) ∧ readSseStream jsonParse values =
        (s.calls ++ [failureEvent reason]).map Emitted.message) := by
  have hsent := delivers_of_reaches h
  constructor
  · intro hvalues
    have hwhole : readSseStream jsonParse [Utf8.encode (f.body s.sent)] = s.sent.map Emitted.message :=
      f.readSseStream_body hsent.wellFormed (by simp)
    have hprefix : readSseStream jsonParse values <+:
        readSseStream jsonParse [Utf8.encode (f.body s.sent)] :=
      readSseStream_prefix jsonParse (by simpa using hvalues)
    rw [hwhole] at hprefix
    exact hprefix.trans (hsent.order.map _)
  · intro hended hvalues
    obtain ⟨reason, hreason⟩ := hsent.ended hended
    rw [f.readSseStream_body hsent.wellFormed hvalues, hsent.all (.inr hended), expected, hreason]
    cases reason with
    | none => exact .inl ⟨rfl, rfl⟩
    | some reason => exact .inr ⟨reason, rfl, rfl⟩

/-! ### A response -/

/-- The field `id: n`. -/
def idLine (n : ℕ) : List Char := "id: ".toList ++ Nat.toDigits 10 n

theorem isPlainLine_idLine (n : ℕ) : IsPlainLine (idLine n) where
  newline h := by
    rcases List.mem_append.mp h with h | h
    · exact absurd h (by decide)
    · exact absurd (isDigit_of_mem_toDigits h) (by decide)
  noData := rfl
  noBom := (by decide : some 'i' ≠ some (Char.ofNat 0xFEFF))

/-- Each event is numbered, and a blank line is behind it. -/
def numbered : Framing where
  opening := [[]]
  before n := [idLine n]
  after _ := [[]]
  plain line h := by
    have hblank : IsPlainLine [] := ⟨List.not_mem_nil, rfl, nofun⟩
    rcases h with h | ⟨n, h | h⟩
    · exact List.mem_singleton.mp h ▸ hblank
    · exact List.mem_singleton.mp h ▸ isPlainLine_idLine n
    · exact List.mem_singleton.mp h ▸ hblank

/-- The first event of a load test. -/
def startEvent : Emitted := { event := "start", payload := [("type", .str "cpu"), ("count", .num "20")] }

/-- The work has emitted its first event and thrown. -/
def failed : EventStream where
  work := .settled (some "no memory")
  calls := [startEvent]
  sent := [startEvent, failureEvent "no memory"]
  ended := true

theorem page_receives_of_failure : Reaches step (fun _ e => e.WellFormed) initial failed ∧
    readSseStream jsonParse [Utf8.encode (numbered.body failed.sent)] =
      [startEvent.message, (failureEvent "no memory").message] := by
  have hstart : Reaches step (fun _ e => e.WellFormed) initial initial := .refl
  have hwhole : IsWhole ['2', '0'] := .digits rfl (by decide) (by simp)
  have hcount : IsNumber "20".toList := .positive (.parts hwhole .none .none)
  have hwell : (Event.emit startEvent).WellFormed := ⟨trivial, hcount, trivial⟩
  have hsubscribed := hstart.next Event.subscribe trivial rfl
  have hrunning := hsubscribed.next Event.microtask trivial rfl
  have hemitted := hrunning.next (Event.emit startEvent) hwell rfl
  have hfailed : Reaches step (fun _ e => e.WellFormed) initial failed :=
    hemitted.next (Event.rejected "no memory") trivial rfl
  refine ⟨hfailed, ?_⟩
  rcases (page_receives numbered hfailed [Utf8.encode (numbered.body failed.sent)]).2 rfl
    (List.append_nil _) with ⟨hnone, -⟩ | ⟨reason, hsome, hread⟩
  · cases hnone
  · obtain rfl : "no memory" = reason := Option.some.inj (StreamWork.settled.inj hsome)
    exact hread

end EventStream

end BulkTraffic.LoadTest
