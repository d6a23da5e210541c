import Wanfw.Js.Act
import Wanfw.Js.Json

/-!
# Values from the wire

What a message of another process holds: a JSON value, or nothing where a property
is missing. The operations below take such a value as it comes, and throw where the
language does: reading a property of `undefined`, calling a method that a value of
another type has not, turning an object into text.
-/

namespace Wanfw.Js

/-- A value that was sent, `none` for `undefined`. -/
abbrev Value := Option Json

namespace Value

/-- `const { k } = v`, where the source calls the value `name`. -/
def destructure (name k : JsString) : Value → Except JsError Value
  | none => .error (.typeError (js "Cannot destructure property '" ++ k ++ js "' of '" ++ name ++ js "' as it is undefined."))
  | some .null => .error (.typeError (js "Cannot destructure property '" ++ k ++ js "' of '" ++ name ++ js "' as it is null."))
  | some v => .ok (v.prop k)

/-- The own properties that `{ ...v }` copies. -/
def ownProps : Value → Obj Json
  | some (.obj o) => o
  | some (.arr xs) => xs.zipIdx.map fun e => (natToString e.2, e.1)
  | some (.str s) => s.zipIdx.map fun e => (natToString e.2, .str [e.1])
  | _ => []

/-- An object literal, without the members that are `undefined`. -/
def object (members : List (JsString × Value)) : Obj Json := members.filterMap fun e => e.2.map fun v => (e.1, v)

mutual

/-- `String(v)`. An object with a property `toString` of its own cannot be turned into text. -/
def jsonToText : Json → Except JsError JsString
  | .null => .ok (js "null")
  | .bool b => .ok (if b then js "true" else js "false")
  | .num d => .ok (numberToString d)
  | .str s => .ok s
  | .arr xs => do return join (← itemsToText xs) (js ",")
  | .obj o =>
    if js "toString" ∈ Obj.keys o then .error (.typeError (js "Cannot convert object to primitive value"))
    else .ok (js "[object Object]")

/-- The texts of the items of an array; `null` is empty. -/
def itemsToText : List Json → Except JsError (List JsString)
  | [] => .ok []
  | .null :: xs => do return [] :: (← itemsToText xs)
  | x :: xs => do
    let t ← jsonToText x
    return t :: (← itemsToText xs)

end

/-- `String(v)`. -/
def toText : Value → Except JsError JsString
  | none => .ok (js "undefined")
  | some v => jsonToText v

/-- `v ?? d`. -/
def coalesce (v : Value) (d : Json) : Json :=
  match v with
  | none | some .null => d
  | some x => x

/-- `v === x`, for a value `x` that was not taken from the message. -/
def strictEq (v : Value) (x : Json) : Bool := v.any fun y => y.strictEq x

/-- `v.startsWith(t)`, where the source calls the value `name`. -/
def startsWithE (name : JsString) (t : JsString) : Value → Except JsError Bool
  | some (.str s) => .ok (startsWith s t)
  | none => .error (.typeError (js "Cannot read properties of undefined (reading 'startsWith')"))
  | some .null => .error (.typeError (js "Cannot read properties of null (reading 'startsWith')"))
  | some _ => .error (.typeError (name ++ js ".startsWith is not a function"))

end Value

end Wanfw.Js
