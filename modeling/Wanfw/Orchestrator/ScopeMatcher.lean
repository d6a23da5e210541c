import Wanfw.Js.Act
import Wanfw.Js.Json

/-!
# Scope matching

`host-api/scope-matcher.ts`: the primitives that compare what a plugin asks for
with the scope of a grant. A scope is whatever JSON the grant row holds; the
source casts its fields to arrays of strings without a check, so that a scope of
another shape throws (`TypeError`) where an array method is missing. The matchers
here throw where those do.
-/

namespace Wanfw.Orchestrator

open Wanfw.Js

/-- A decoded grant: a capability and its scope. -/
structure Grant where
  cap : JsString
  scope : Json

/-! ### Scopes of any shape -/

/-- `(scope.k as T[]) ?? []`. -/
def scopeField (scope : Json) (k : JsString) : Except JsError Json :=
  match scope with
  | .null => .error (.typeError (js "Cannot read properties of null (reading '" ++ k ++ js "')"))
  | _ =>
    match scope.prop k with
    | none | some .null => .ok (.arr [])
    | some v => .ok v

/-- The elements `patterns.some` iterates over. -/
def patternsOf : Json → Except JsError (List Json)
  | .arr xs => .ok xs
  | _ => .error (.typeError (js "patterns.some is not a function"))

/-- The string of a pattern, for `p.endsWith`. -/
def patternText (variableName : JsString) : Json → Except JsError JsString
  | .str s => .ok s
  | .null => .error (.typeError (js "Cannot read properties of null (reading 'endsWith')"))
  | _ => .error (.typeError (variableName ++ js ".endsWith is not a function"))

/-- `v.includes(x)` for a string or a number `x`, written `text`: membership in an array,
a substring of a string. -/
def includesE (expr : JsString) (v x : Json) (text : JsString) : Except JsError Bool :=
  match v with
  | .arr xs => .ok (xs.any fun y => y.strictEq x)
  | .str s => .ok (includesText s text)
  | _ => .error (.typeError (expr ++ js ".includes is not a function"))

/-! ### Paths -/

/-- `canonicalizePath`: `none` if the path is not a safe absolute path. -/
def canonicalizePath (path : JsString) : Option JsString :=
  if startsWith path (js "/") then
    let segments := (split path 47).filter fun s => 0 < s.length
    if js ".." ∈ segments ∨ js "." ∈ segments then none else some (js "/" ++ join segments (js "/"))
  else none

/-- `pattern.slice(0, -2) || "/"`, for a pattern that ends with `/*`; else the pattern. -/
def globStem (pattern : JsString) : JsString :=
  if endsWith pattern (js "/*") then
    (if pattern.length ≤ 2 then js "/" else pattern.take (pattern.length - 2))
  else pattern

/-- `matchPathGlob`. -/
def matchPathGlob (pattern path : JsString) : Bool :=
  match canonicalizePath path, canonicalizePath (globStem pattern) with
  | some canonicalPath, some canonicalPattern =>
    if endsWith pattern (js "/*") then
      canonicalPattern == js "/" || canonicalPath == canonicalPattern ||
        startsWith canonicalPath (canonicalPattern ++ js "/")
    else canonicalPath == canonicalPattern
  | _, _ => false

/-- `matchAnyPathGlob`. -/
def matchAnyPathGlob (patterns : Json) (path : JsString) : Except JsError Bool := do
  let ps ← patternsOf patterns
  someE (fun p => do
    let pattern ← patternText (js "pattern") p
    return matchPathGlob pattern path) ps

/-! ### Names, zones and ports -/

/-- One pattern of `matchNamePrefix`: a prefix for `…/*`, anything for `*`, else the name itself. -/
def matchNamePattern (p name : JsString) : Bool :=
  if endsWith p (js "/*") then startsWith name (p.take (p.length - 1)) else p == js "*" || p == name

/-- `matchNamePrefix`. -/
def matchNamePrefix (patterns : Json) (name : JsString) : Except JsError Bool := do
  let ps ← patternsOf patterns
  someE (fun p => do
    let pattern ← patternText (js "p") p
    return matchNamePattern pattern name) ps

/-- `matchZone`: the zone itself, or `*` for any. -/
def matchZone (zones : Json) (zone : JsString) : Except JsError Bool := do
  if ← includesE (js "zones") zones (.str (js "*")) (js "*") then return true
  includesE (js "zones") zones (.str zone) zone

/-- `matchPort`. -/
def matchPort (ports : Json) (port : Decimal) : Except JsError Bool :=
  includesE (js "ports") ports (.num port) (numberToString port)

/-- `matchPortRange`: every requested port. -/
def matchPortRange (ports : Json) (requested : List Decimal) : Except JsError Bool :=
  everyE (matchPort ports) requested

/-- `hasGrant`: a grant of the capability whose scope matches. -/
def hasGrant (grants : List Grant) (cap : JsString) (p : Json → Except JsError Bool) : Except JsError Bool :=
  someE (fun g => if g.cap = cap then p g.scope else .ok false) grants

theorem hasGrant_ok_true {grants : List Grant} {cap : JsString} {p : Json → Except JsError Bool}
    (h : hasGrant grants cap p = .ok true) : ∃ g ∈ grants, g.cap = cap ∧ p g.scope = .ok true := by
  obtain ⟨g, hg, h⟩ := someE_ok_true h
  split at h
  · exact ⟨g, hg, by assumption, h⟩
  · cases h

end Wanfw.Orchestrator
