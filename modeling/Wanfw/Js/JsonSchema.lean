import Wanfw.Js.Json

/-!
# JSON Schema

A schema is a JSON value: `true` and `false`, or an object of keywords. A value is accepted when
every keyword holds of it. The keywords of objects (`properties`, `required`, `additionalProperties`)
are those of the standard; what the others say is a parameter, a relation between the value of the
keyword and the instance.

`accepts_obj_iff` reads the keywords of a schema, and `accepts_object_iff` those of a schema for
objects member by member: what it asks of a member is `AcceptsMember`.
-/

namespace Wanfw.Js

/-- What keywords say: the keyword, its value and the instance. -/
abbrev Assertions := JsString → Json → Json → Prop

/-- The keywords of objects. -/
def objectKeywords : List JsString := [js "properties", js "required", js "additionalProperties"]

/-- The schemas of `properties`. -/
def subschemas (o : Obj Json) : Obj Json :=
  match Obj.get o (js "properties") with
  | some (.obj props) => props
  | _ => []

/-- The keys of `required`. -/
def requiredKeys (o : Obj Json) : List Json :=
  match Obj.get o (js "required") with
  | some (.arr keys) => keys
  | _ => []

/-- The schema accepts the value. -/
inductive Accepts (A : Assertions) : Json → Json → Prop
  | always (v : Json) : Accepts A (.bool true) v
  | obj {o : Obj Json} {v : Json} (hother : ∀ k s, Obj.get o k = some s → k ∉ objectKeywords → A k s v)
    (hproperties : ∀ w k s x, v = .obj w → Obj.get (subschemas o) k = some s → Obj.get w k = some x → Accepts A s x)
    (hrequired : ∀ w k, v = .obj w → .str k ∈ requiredKeys o → k ∈ Obj.keys w)
    (hadditional : ∀ w k s x, v = .obj w → Obj.get o (js "additionalProperties") = some s → k ∉ Obj.keys (subschemas o) →
      Obj.get w k = some x → Accepts A s x) : Accepts A (.obj o) v

/-- What a schema asks of the member `k` of an object. -/
structure AcceptsMember (A : Assertions) (o : Obj Json) (k : JsString) (x : Json) : Prop where
  listed : ∀ s, Obj.get (subschemas o) k = some s → Accepts A s x
  unlisted : ∀ s, k ∉ Obj.keys (subschemas o) → Obj.get o (js "additionalProperties") = some s → Accepts A s x

variable {A : Assertions} {o w : Obj Json} {v x : Json} {k : JsString}

theorem accepts_obj_iff : Accepts A (.obj o) v ↔
    (∀ k s, Obj.get o k = some s → k ∉ objectKeywords → A k s v) ∧
    ∀ w, v = .obj w → (∀ k, .str k ∈ requiredKeys o → k ∈ Obj.keys w) ∧ ∀ k x, Obj.get w k = some x → AcceptsMember A o k x := by
  constructor
  · intro h
    cases h with
    | obj hother hproperties hrequired hadditional =>
      refine ⟨hother, fun w hw => ⟨fun k => hrequired w k hw, fun k x hx => ⟨fun s hs => ?_, fun s hk hs => ?_⟩⟩⟩
      · exact hproperties w k s x hw hs hx
      · exact hadditional w k s x hw hs hk hx
  · rintro ⟨hother, hobject⟩
    refine .obj hother (fun w k s x hw hs hx => ?_) (fun w k hw => (hobject w hw).1 k) fun w k s x hw hs hk hx => ?_
    · exact ((hobject w hw).2 k x hx).listed s hs
    · exact ((hobject w hw).2 k x hx).unlisted s hk hs

/-- The keywords of a schema for an object. -/
theorem accepts_object_iff : Accepts A (.obj o) (.obj w) ↔
    (∀ k s, Obj.get o k = some s → k ∉ objectKeywords → A k s (.obj w)) ∧
    (∀ k, .str k ∈ requiredKeys o → k ∈ Obj.keys w) ∧ ∀ k x, Obj.get w k = some x → AcceptsMember A o k x := by
  rw [accepts_obj_iff]
  constructor
  · exact fun h => ⟨h.1, h.2 w rfl⟩
  · rintro ⟨hother, hobject⟩
    refine ⟨hother, fun w' hw => ?_⟩
    cases hw
    exact hobject

/-- What a schema asks of a member that it lists. -/
theorem acceptsMember_of_listed {s : Json} (hs : Obj.get (subschemas o) k = some s) (h : Accepts A s x) : AcceptsMember A o k x where
  listed s' hs' := by
    rw [hs, Option.some.injEq] at hs'
    exact hs' ▸ h
  unlisted s' hk _ := absurd (Obj.mem_keys_iff_get.mpr ⟨s, hs⟩) hk

/-! ### Keywords of the standard -/

/-- `type`. -/
def HasType (t : JsString) : Json → Prop
  | .null => t = js "null"
  | .bool _ => t = js "boolean"
  | .num d => t = js "number" ∨ t = js "integer" ∧ 0 ≤ d.exp
  | .str _ => t = js "string"
  | .arr _ => t = js "array"
  | .obj _ => t = js "object"

/-- What `type` says: one type, or any of several. -/
def AllowsType (s v : Json) : Prop := (∃ t, s = .str t ∧ HasType t v) ∨ ∃ ts t, s = .arr ts ∧ .str t ∈ ts ∧ HasType t v

/-- Equal values, whatever the order of the keys. -/
inductive DeepEqual : Json → Json → Prop
  | null : DeepEqual .null .null
  | bool (b : Bool) : DeepEqual (.bool b) (.bool b)
  | num (d : Decimal) : DeepEqual (.num d) (.num d)
  | str (t : JsString) : DeepEqual (.str t) (.str t)
  | arr {xs ys : List Json} (hlength : xs.length = ys.length)
    (h : ∀ (i : ℕ) x y, xs[i]? = some x → ys[i]? = some y → DeepEqual x y) : DeepEqual (.arr xs) (.arr ys)
  | obj {o p : Obj Json} (hkeys : ∀ k, k ∈ Obj.keys o ↔ k ∈ Obj.keys p)
    (h : ∀ k x y, Obj.get o k = some x → Obj.get p k = some y → DeepEqual x y) : DeepEqual (.obj o) (.obj p)

/-- Keywords that say nothing about the instance. -/
def annotations : List JsString := [js "$schema", js "$id", js "title", js "description", js "default"]

/-- Keywords for single values; what the rest of them say is a parameter. -/
def standard (rest : Assertions) : Assertions := fun k s v =>
  if k ∈ annotations then True
  else if k = js "type" then AllowsType s v
  else if k = js "enum" then ∃ vs w, s = .arr vs ∧ w ∈ vs ∧ DeepEqual w v
  else if k = js "minLength" then ∀ n t, s = .num n → v = .str t → n ≤ .ofNat (codePoints t).length
  else if k = js "minimum" then ∀ n m, s = .num n → v = .num m → n ≤ m
  else if k = js "maximum" then ∀ n m, s = .num n → v = .num m → m ≤ n
  else rest k s v

end Wanfw.Js
