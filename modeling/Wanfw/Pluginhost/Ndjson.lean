import Wanfw.Js.JsonText
import Wanfw.Js.Lines
import Wanfw.Js.Regex

/-!
# Newline-delimited JSON

`ndjson.ts`: `writeNdjson` writes a value as one line, and `NdjsonReader` emits an event for every
line that has become complete, whichever chunks it arrives in. The text of a syntax error is that of
`JSON.parse`, a parameter.

`ndjson_round_trip`: of values and other lines that are written, in any order, the reader emits the
values, an error for every other line that is not blank, in that order, and nothing is left over.
-/

namespace Wanfw.Pluginhost

open Wanfw.Js

/-- What a reader emits. -/
inductive NdjsonEvent where
  | message (value : Json)
  | error (message : JsString)

/-- `NdjsonReader`, with what it has emitted. -/
structure NdjsonReader where
  buffer : JsString := []
  emitted : List NdjsonEvent := []

section Source

variable (N : Numerals) (syntaxError : JsString → JsString)

/-- What is emitted for a complete line. -/
def lineEvents (line : JsString) : List NdjsonEvent :=
  if trim line = [] then []
  else
    match parse N line with
    | some value => [.message value]
    | none => [.error (js "invalid NDJSON line: " ++ syntaxError line)]

namespace NdjsonReader

/-- `onData`. -/
def onData (chunk : JsString) (r : NdjsonReader) : NdjsonReader :=
  let buffer := r.buffer ++ chunk
  let (buffer, emitted) :=
    eachLine (fun line emitted => emitted ++ lineEvents N syntaxError line) buffer.length buffer r.emitted
  { buffer, emitted }

/-- The chunks of a stream. -/
def onChunks (chunks : List JsString) (r : NdjsonReader) : NdjsonReader :=
  chunks.foldl (fun r chunk => r.onData N syntaxError chunk) r

end NdjsonReader

/-- `writeNdjson`. -/
def writeNdjson (message : Json) : JsString := stringify message ++ [10]

end Source

/-! ### Chunks -/

section Chunks

variable {N : Numerals} {syntaxError : JsString → JsString} {r : NdjsonReader}

theorem foldl_lineEvents (ls : List JsString) (emitted : List NdjsonEvent) :
    ls.foldl (fun emitted line => emitted ++ lineEvents N syntaxError line) emitted =
      emitted ++ ls.flatMap (lineEvents N syntaxError) := by
  induction ls generalizing emitted with
  | nil => simp
  | cons l ls ih => rw [List.foldl_cons, ih, List.flatMap_cons, List.append_assoc]

theorem onData_eq (chunk : JsString) : r.onData N syntaxError chunk =
    ⟨openLine (r.buffer ++ chunk), r.emitted ++ (completeLines (r.buffer ++ chunk)).flatMap (lineEvents N syntaxError)⟩ := by
  unfold NdjsonReader.onData
  dsimp only
  rw [eachLine_eq _ le_rfl, foldl_lineEvents]

/-- **Only the text counts**, and not how it is divided. -/
theorem onChunks_eq (chunks : List JsString) (hbuffer : (10 : UInt16) ∉ r.buffer) : r.onChunks N syntaxError chunks =
    ⟨openLine (r.buffer ++ chunks.flatten),
      r.emitted ++ (completeLines (r.buffer ++ chunks.flatten)).flatMap (lineEvents N syntaxError)⟩ := by
  induction chunks generalizing r with
  | nil =>
    rw [List.flatten_nil, List.append_nil, openLine_of_not_mem hbuffer, completeLines_of_not_mem hbuffer]
    simp [NdjsonReader.onChunks]
  | cons chunk chunks ih =>
    obtain ⟨hcomplete, hopen⟩ := lines_append (r.buffer ++ chunk) chunks.flatten
    rw [NdjsonReader.onChunks, List.foldl_cons, ← NdjsonReader.onChunks, onData_eq, ih (not_mem_openLine _), List.flatten_cons,
      ← List.append_assoc, hcomplete, hopen, List.flatMap_append, List.append_assoc]

end Chunks

/-! ### Lines -/

/-- What is written: a value, or a line that is no JSON. -/
inductive Written (N : Numerals) where
  | value (v : Json) (proper : v.Proper)
  | other (line : JsString) (oneLine : (10 : UInt16) ∉ line) (invalid : parse N line = none)

namespace Written

variable {N : Numerals} (syntaxError : JsString → JsString)

/-- The line of what is written, without its end. -/
def line : Written N → JsString
  | value v _ => stringify v
  | other line _ _ => line

/-- The text of what is written. -/
def text (w : Written N) : JsString := w.line ++ [10]

/-- The events for what is written: the value, or one error unless the line is blank. -/
def events : Written N → List NdjsonEvent
  | value v _ => [.message v]
  | other line _ _ => if trim line = [] then [] else [.error (js "invalid NDJSON line: " ++ syntaxError line)]

theorem not_mem_line (w : Written N) : (10 : UInt16) ∉ w.line := by
  cases w with
  | value v _ =>
    intro h
    exact absurd (noControl_stringify v _ h) (by decide)
  | other line oneLine _ => exact oneLine

theorem lineEvents_line (w : Written N) : lineEvents N syntaxError w.line = w.events syntaxError := by
  cases w with
  | value v hv =>
    rw [line, lineEvents, if_neg (trim_stringify_ne_nil v), parse_stringify hv]
    rfl
  | other line _ invalid =>
    rw [Written.line, lineEvents, invalid]
    rfl

end Written

/-- The values among what is emitted. -/
def messages (events : List NdjsonEvent) : List Json :=
  events.filterMap fun
    | .message v => some v
    | .error _ => none

/-- The values among what is written. -/
def Written.values {N : Numerals} (ws : List (Written N)) : List Json :=
  ws.filterMap fun
    | .value v _ => some v
    | .other _ _ _ => none

theorem messages_flatMap_events {N : Numerals} (syntaxError : JsString → JsString) (ws : List (Written N)) :
    messages (ws.flatMap fun w => w.events syntaxError) = Written.values ws := by
  induction ws with
  | nil => rfl
  | cons w ws ih =>
    rw [List.flatMap_cons, messages, List.filterMap_append, ← messages, ← messages, ih]
    cases w with
    | value v hv => rfl
    | other line _ _ => by_cases hblank : trim line = [] <;> simp [Written.events, hblank, messages, Written.values]

/-- **What is written is read**, in whichever chunks it arrives: the values in their order, one error for each other line that is
not blank, and nothing is left in the buffer. -/
theorem ndjson_round_trip (N : Numerals) (syntaxError : JsString → JsString) (ws : List (Written N)) (chunks : List JsString)
    (htext : chunks.flatten = ws.flatMap Written.text) :
    NdjsonReader.onChunks N syntaxError chunks {} = ⟨[], ws.flatMap fun w => w.events syntaxError⟩ ∧
      messages (NdjsonReader.onChunks N syntaxError chunks {}).emitted = Written.values ws := by
  have hlines : ws.flatMap Written.text = (ws.map Written.line).flatMap fun l => l ++ [10] := by
    rw [List.flatMap_map]
    rfl
  have hone : ∀ l ∈ ws.map Written.line, (10 : UInt16) ∉ l := by
    intro l hl
    obtain ⟨w, -, rfl⟩ := List.mem_map.mp hl
    exact w.not_mem_line
  obtain ⟨hcomplete, hopen⟩ := lines_flatMap hone
  have hread : NdjsonReader.onChunks N syntaxError chunks {} = ⟨[], ws.flatMap fun w => w.events syntaxError⟩ := by
    rw [onChunks_eq chunks List.not_mem_nil, List.nil_append, List.nil_append, htext, hlines, hcomplete, hopen, List.flatMap_map]
    exact congrArg _ (List.flatMap_congr fun w _ => w.lineEvents_line syntaxError)
  exact ⟨hread, by rw [hread, messages_flatMap_events]⟩

/-- Two values with another line between them, in three chunks. -/
theorem ndjson_round_trip_chunks :
    NdjsonReader.onChunks .exact (fun _ => js "Unexpected token") [js "nul", js "l\nx", js "\ntrue\n"] {} =
        ⟨[], [.message .null, .error (js "invalid NDJSON line: " ++ js "Unexpected token"), .message (.bool true)]⟩ ∧
      messages (NdjsonReader.onChunks .exact (fun _ => js "Unexpected token") [js "nul", js "l\nx", js "\ntrue\n"] {}).emitted =
        [.null, .bool true] :=
  ndjson_round_trip .exact (fun _ => js "Unexpected token")
    [.value .null .null, .other (js "x") (by decide) rfl, .value (.bool true) (.bool true)]
    [js "nul", js "l\nx", js "\ntrue\n"] (by decide +kernel)

end Wanfw.Pluginhost
