import Wanfw.Js.Act
import Wanfw.Js.JsonParse
import Wanfw.Js.Utf8

/-!
# URLs

`decodeURIComponent` and the path of a URL. A request target is read as a URL relative to a
host: `UrlParser` is the parser, of which only what the URL Standard says about a target in
origin form is known, one that starts with a single slash. Its path is read by the path state of
the standard: dot segments are taken away there, also the escaped ones (`%2e`), a backslash is a
slash, and what may not stand in a path is escaped.

`pathState_segment` and `pathState_last`: a segment that is no dot segment comes out as it is, escaped.
-/

namespace Wanfw.Js

/-! ### `decodeURIComponent` -/

/-- A piece of an escaped text: a unit that stands for itself, or an escaped byte. -/
inductive Piece where
  | unit (u : UInt16)
  | byte (b : UInt8)
  deriving DecidableEq

/-- The pieces of a text, if every `%` is followed by two hexadecimal digits. -/
def pieces : JsString → Option (List Piece)
  | [] => some []
  | [u] => if u = 37 then none else some [.unit u]
  | [u, v] => if u = 37 ∨ v = 37 then none else some [.unit u, .unit v]
  | u :: v :: w :: rest =>
    if u = 37 then
      match hexDigitValue v, hexDigitValue w with
      | some high, some low => (pieces rest).map fun ps => .byte (16 * high + low).toUInt8 :: ps
      | _, _ => none
    else (pieces (v :: w :: rest)).map fun ps => .unit u :: ps

/-- The text of the pieces, if the escaped bytes are UTF-8. -/
def decodePieces : Utf8State → List Piece → Option JsString
  | s, [] => if s.need = 0 then some [] else none
  | s, .unit u :: ps => if s.need = 0 then (decodePieces s ps).map fun t => u :: t else none
  | s, .byte b :: ps =>
    match s.push b with
    | none => none
    | some (s, text) => (decodePieces s ps).map fun t => text ++ t

/-- `decodeURIComponent(text)`. -/
def decodeURIComponent (text : JsString) : Except JsError JsString :=
  match (pieces text).bind (decodePieces .start) with
  | some t => .ok t
  | none => .error (.error (js "URI malformed"))

/-! ### The path state -/

/-- An upper-case hexadecimal digit. -/
def upperHexDigit (n : ℕ) : UInt16 := if n < 10 then (48 + n).toUInt16 else (55 + n).toUInt16

/-- A byte, escaped. -/
def percentByte (b : UInt8) : JsString := [37, upperHexDigit (b.toNat / 16), upperHexDigit (b.toNat % 16)]

/-- The path percent-encode set. -/
def inPathSet (c : Char) : Bool := c.toNat < 0x21 || 0x7E < c.toNat || (js "\"#<>?^\x60\x7b\x7d").contains c.toNat.toUInt16

/-- A character in a path. -/
def pathChar (c : Char) : JsString := if inPathSet c then (String.utf8EncodeChar c).flatMap percentByte else utf16 c

/-- A segment that stands for the one above it. -/
def isDoubleDot (segment : JsString) : Bool :=
  [js "..", js ".%2e", js ".%2E", js "%2e.", js "%2E.", js "%2e%2e", js "%2e%2E", js "%2E%2e", js "%2E%2E"].contains segment

/-- A segment that stands for nothing. -/
def isSingleDot (segment : JsString) : Bool := [js ".", js "%2e", js "%2E"].contains segment

/-- The end of a segment, at a slash or at the end of the path. -/
def endSegment (path : List JsString) (buffer : JsString) (slash : Bool) : List JsString :=
  if isDoubleDot buffer then if slash then path.dropLast else path.dropLast ++ [[]]
  else if isSingleDot buffer then if slash then path else path ++ [[]]
  else path ++ [buffer]

/-- A slash, or what counts as one. -/
def isSlash (c : Char) : Bool := c.toNat == 0x2F || c.toNat == 0x5C

/-- The end of the path: a query or a fragment begins. -/
def endsPath (c : Char) : Bool := c.toNat == 0x3F || c.toNat == 0x23

/-- The path state, with the segments that are complete and the one that is being read. -/
def pathState : List JsString → JsString → List Char → List JsString
  | path, buffer, [] => endSegment path buffer false
  | path, buffer, c :: cs =>
    if isSlash c then pathState (endSegment path buffer true) [] cs
    else if endsPath c then endSegment path buffer false
    else pathState path (buffer ++ pathChar c) cs

/-- The characters that stay in a segment. -/
def InSegment (c : Char) : Prop := isSlash c = false ∧ endsPath c = false

theorem pathState_chars (path : List JsString) (buffer : JsString) {cs : List Char} (h : ∀ c ∈ cs, InSegment c)
    (rest : List Char) : pathState path buffer (cs ++ rest) = pathState path (buffer ++ cs.flatMap pathChar) rest := by
  induction cs generalizing buffer with
  | nil => rw [List.nil_append, List.flatMap_nil, List.append_nil]
  | cons c cs ih =>
    obtain ⟨hslash, hends⟩ := h c List.mem_cons_self
    rw [List.cons_append, pathState, hslash, hends, if_neg (by decide), if_neg (by decide),
      ih _ fun d hd => h d (List.mem_cons_of_mem _ hd), List.flatMap_cons, List.append_assoc]

theorem endSegment_plain (path : List JsString) {buffer : JsString} (h : isDoubleDot buffer = false ∧ isSingleDot buffer = false)
    (slash : Bool) : endSegment path buffer slash = path ++ [buffer] := by
  rw [endSegment, h.1, h.2, if_neg (by decide), if_neg (by decide)]

/-- A segment before a slash. -/
theorem pathState_segment (path : List JsString) {cs : List Char} (h : ∀ c ∈ cs, InSegment c)
    (hdot : isDoubleDot (cs.flatMap pathChar) = false ∧ isSingleDot (cs.flatMap pathChar) = false) (rest : List Char) :
    pathState path [] (cs ++ '/' :: rest) = pathState (path ++ [cs.flatMap pathChar]) [] rest := by
  rw [pathState_chars path [] h, List.nil_append, pathState, if_pos (by decide), endSegment_plain path hdot]

/-- The last segment. -/
theorem pathState_last (path : List JsString) {cs : List Char} (h : ∀ c ∈ cs, InSegment c)
    (hdot : isDoubleDot (cs.flatMap pathChar) = false ∧ isSingleDot (cs.flatMap pathChar) = false) :
    pathState path [] cs = path ++ [cs.flatMap pathChar] := by
  have hchars := pathState_chars path [] h []
  rw [List.append_nil, List.nil_append] at hchars
  rw [hchars, pathState, endSegment_plain path hdot]

/-- `pathname`: the segments, each behind a slash. -/
def pathnameOf (path : List JsString) : JsString := path.flatMap fun segment => 47 :: segment

/-- The input of the parser: without blanks and controls around it, and without tabs and line ends. -/
def urlInput (target : JsString) : List Char :=
  (((decode target).dropWhile (·.toNat < 0x21)).reverse.dropWhile (·.toNat < 0x21)).reverse.filter fun c =>
    !(c.toNat == 9 || c.toNat == 10 || c.toNat == 13)

/-- The path of a target in origin form: it starts with one slash. -/
def originPath : List Char → Option (List Char)
  | [] => none
  | c :: cs => if c.toNat = 0x2F ∧ (cs.head?.any isSlash) = false then some cs else none

/-- `new URL(target, base).pathname` for a base whose scheme is `http` and that has no path. -/
structure UrlParser where
  pathname : JsString → Except JsError JsString
  origin_form : ∀ target rest, originPath (urlInput target) = some rest →
    pathname target = .ok (pathnameOf (pathState [] [] rest))

/-- A parser that knows targets in origin form only. -/
def UrlParser.origin : UrlParser where
  pathname target :=
    match originPath (urlInput target) with
    | some rest => .ok (pathnameOf (pathState [] [] rest))
    | none => .error (.typeError (js "Invalid URL"))
  origin_form target rest h := by rw [h]

end Wanfw.Js
