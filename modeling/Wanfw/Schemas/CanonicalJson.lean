import Wanfw.Js.JsonParse
import Wanfw.Schemas.Projection

/-!
# Which values have one canonical text

`canonical-json.ts`: the canonical text of a value is that of a copy whose members are in the
order of their keys. The copy is made with assignments, and assigning `__proto__` makes no
member: such a member is lost, at any depth.

`canonical_eq_iff`: two values have the same canonical text just when they are equal up to the
order of their members, those with the key `__proto__` left out. `Parsed` adds the infinities
that `JSON.parse` reads and `JSON.stringify` writes as `null`, and `canonical_iff` says for which
parsed values the canonical text is that of a value up to the order of all members.
-/

namespace Wanfw.Schemas

open Wanfw.Js

/-! ### Equality up to order -/

/-- Equal up to the order of the members. Only members with keys that satisfy `p` count. -/
inductive SameOn (p : JsString → Prop) : Json → Json → Prop
  | null : SameOn p .null .null
  | bool (b : Bool) : SameOn p (.bool b) (.bool b)
  | num (d : Decimal) : SameOn p (.num d) (.num d)
  | str (s : JsString) : SameOn p (.str s) (.str s)
  | arr {xs ys : List Json} (hlength : xs.length = ys.length)
    (h : ∀ (i : ℕ) (x y : Json), xs[i]? = some x → ys[i]? = some y → SameOn p x y) : SameOn p (.arr xs) (.arr ys)
  | obj {o o' : Obj Json} (hkeys : ∀ k, p k → (k ∈ Obj.keys o ↔ k ∈ Obj.keys o'))
    (h : ∀ k x y, p k → Obj.get o k = some x → Obj.get o' k = some y → SameOn p x y) : SameOn p (.obj o) (.obj o')

/-- Equal up to the order of object keys and to members with the key `__proto__`. -/
def SameButProto (a b : Json) : Prop := SameOn (fun k => k ≠ js "__proto__") a b

variable {p : JsString → Prop} {a b : Json} {o o' : Obj Json}

/-! ### The canonical object -/

/-- Assigning `__proto__` makes no member. -/
theorem foldl_assign_filter (members acc : Obj Json) : members.foldl (fun out e => Obj.assign out e.1 e.2) acc =
    (members.filter fun e => e.1 ≠ js "__proto__").foldl (fun out e => Obj.assign out e.1 e.2) acc := by
  induction members generalizing acc with
  | nil => rfl
  | cons e members ih =>
    rw [List.foldl_cons, ih]
    by_cases he : e.1 = js "__proto__"
    · rw [List.filter_cons_of_neg (by simpa using he), Obj.assign, if_pos he]
    · rw [List.filter_cons_of_pos (by simpa using he), List.foldl_cons]

/-- The members that count, in their order, are determined by the properties. -/
theorem membersInOrder_congr (hnd : (Obj.keys o).Nodup) (hnd' : (Obj.keys o').Nodup)
    (h : ∀ k, k ≠ js "__proto__" → Obj.get o k = Obj.get o' k) :
    (membersInOrder o).filter (fun e => e.1 ≠ js "__proto__") = (membersInOrder o').filter fun e => e.1 ≠ js "__proto__" := by
  have hfilter : ∀ (o : Obj Json) (keys : List JsString),
      (keys.filterMap fun k => (Obj.get o k).map fun v => (k, v)).filter (fun e => e.1 ≠ js "__proto__") =
        (keys.filter fun k => k ≠ js "__proto__").filterMap fun k => (Obj.get o k).map fun v => (k, v) := by
    intro o keys
    rw [List.filter_filterMap, List.filterMap_filter]
    refine List.filterMap_congr fun k _ => ?_
    cases Obj.get o k with
    | none => simp
    | some v => by_cases hk : k = js "__proto__" <;> simp [hk, Option.filter]
  have hkeys : sortStrings ((Obj.keys o).filter fun k => k ≠ js "__proto__") =
      sortStrings ((Obj.keys o').filter fun k => k ≠ js "__proto__") := by
    rw [sortStrings_eq_iff]
    refine (List.perm_ext_iff_of_nodup (hnd.filter _) (hnd'.filter _)).mpr fun k => ?_
    simp only [List.mem_filter, decide_eq_true_eq]
    refine and_congr_left fun hk => ?_
    rw [Obj.mem_keys_iff_get, Obj.mem_keys_iff_get, h k hk]
  unfold membersInOrder
  rw [hfilter, hfilter, sortStrings_filter, sortStrings_filter, hkeys]
  refine List.filterMap_congr fun k hk => ?_
  rw [← sortStrings_filter, List.mem_filter, decide_eq_true_eq] at hk
  rw [h k hk.2]

/-- Two objects with the same canonical form. -/
theorem canonicalize_obj_eq_iff (hnd : (Obj.keys o).Nodup) (hnd' : (Obj.keys o').Nodup) :
    canonicalize (.obj o) = canonicalize (.obj o') ↔
      ∀ k, k ≠ js "__proto__" → (Obj.get o k).map canonicalize = (Obj.get o' k).map canonicalize := by
  constructor
  · intro h k hk
    rw [← prop_canonicalize hk, ← prop_canonicalize hk, h]
  · intro h
    rw [canonicalize, canonicalize, foldl_assign_filter, membersInOrder_congr, ← foldl_assign_filter]
    · rwa [keys_canonicalizeMembers]
    · rwa [keys_canonicalizeMembers]
    · intro k hk
      rw [get_canonicalizeMembers, get_canonicalizeMembers, h k hk]

/-! ### The canonical text -/

theorem nodup_of_proper (h : (Json.obj o).Proper) : (Obj.keys o).Nodup := by
  cases h with
  | obj hown h =>
    have hnil : (Obj.keys ([] : Obj Json)).Nodup := List.nodup_nil
    rw [← hown]
    exact Obj.nodup_spread hnil o

theorem canonicalize_of_same (h : SameButProto a b) (ha : a.Proper) (hb : b.Proper) : canonicalize a = canonicalize b := by
  induction h with
  | null => rfl
  | bool b => rfl
  | num d => rfl
  | str s => rfl
  | @arr xs ys hlength _ ih =>
    cases ha with
    | arr hxs =>
      cases hb with
      | arr hys =>
        rw [canonicalize, canonicalize, canonicalizeItems_eq_map, canonicalizeItems_eq_map]
        refine congrArg Json.arr (List.ext_getElem (by simp [hlength]) fun i hi hi' => ?_)
        rw [List.getElem_map, List.getElem_map]
        rw [List.length_map] at hi hi'
        exact ih i _ _ (List.getElem?_eq_getElem hi) (List.getElem?_eq_getElem hi') (hxs _ (List.getElem_mem hi))
          (hys _ (List.getElem_mem hi'))
  | @obj o o' hkeys _ ih =>
    rw [canonicalize_obj_eq_iff (nodup_of_proper ha) (nodup_of_proper hb)]
    cases ha with
    | obj _ ho =>
      cases hb with
      | obj _ ho' =>
        intro k hk
        have hmem := hkeys k hk
        rw [Obj.mem_keys_iff_get, Obj.mem_keys_iff_get] at hmem
        cases hx : Obj.get o k with
        | none =>
          cases hy : Obj.get o' k with
          | none => rfl
          | some y => simp [hx, hy] at hmem
        | some x =>
          obtain ⟨y, hy⟩ := hmem.mp ⟨x, hx⟩
          rw [hy, Option.map_some, Option.map_some, ih k x y hk hx hy (ho _ (Obj.mem_of_get hx)) (ho' _ (Obj.mem_of_get hy))]

theorem same_of_canonicalize (ha : a.Proper) (hb : b.Proper) (h : canonicalize a = canonicalize b) : SameButProto a b := by
  induction ha generalizing b with
  | null => cases hb <;> cases h; exact .null
  | bool x => cases hb <;> cases h; exact .bool x
  | num d => cases hb <;> cases h; exact .num d
  | str s => cases hb <;> cases h; exact .str s
  | @arr xs hxs ih =>
    cases hb with
    | @arr ys hys =>
      rw [canonicalize, canonicalize, canonicalizeItems_eq_map, canonicalizeItems_eq_map, Json.arr.injEq] at h
      refine .arr (by simpa using congrArg List.length h) fun i x y hx hy => ?_
      have hxy := congrArg (·[i]?) h
      simp only [List.getElem?_map, hx, hy, Option.map_some, Option.some.injEq] at hxy
      exact ih x (List.mem_of_getElem? hx) (hys y (List.mem_of_getElem? hy)) hxy
    | _ => cases h
  | @obj o hown ho ih =>
    cases hb with
    | @obj o' hown' ho' =>
      have hget := (canonicalize_obj_eq_iff (nodup_of_proper (.obj hown ho)) (nodup_of_proper (.obj hown' ho'))).mp h
      refine .obj (fun k hk => ?_) fun k x y hk hx hy => ?_
      · have hk := hget k hk
        rw [Obj.mem_keys_iff_get, Obj.mem_keys_iff_get]
        cases hx : Obj.get o k <;> cases hy : Obj.get o' k <;> simp [hx, hy] at hk ⊢
      · have hk := hget k hk
        rw [hx, hy, Option.map_some, Option.map_some, Option.some.injEq] at hk
        exact ih _ (Obj.mem_of_get hx) (ho' _ (Obj.mem_of_get hy)) hk
    | _ => cases h

/-- **Canonical texts**: two values have the same one just when they are equal up to the order of their keys, members with the
key `__proto__` left out. -/
theorem canonical_eq_iff (ha : a.Proper) (hb : b.Proper) :
    canonicalJSONStringify a = canonicalJSONStringify b ↔ SameButProto a b := by
  constructor
  · intro h
    exact same_of_canonicalize ha hb (stringify_inj h)
  · intro h
    exact congrArg stringify (canonicalize_of_same h ha hb)

/-! ### Parsed values -/

/-- A value that `JSON.parse` returns: a JSON value, but for the numerals that are too large, which it reads as infinities. -/
inductive Parsed where
  | null
  | bool (b : Bool)
  | num (d : Decimal)
  | infinity (neg : Bool)
  | str (s : JsString)
  | arr (xs : List Parsed)
  | obj (o : List (JsString × Parsed))

namespace Parsed

mutual

/-- The JSON value that `JSON.stringify` writes: an infinity is written as `null`. -/
def written : Parsed → Json
  | .null => .null
  | .bool b => .bool b
  | .num d => .num d
  | .infinity _ => .null
  | .str s => .str s
  | .arr xs => .arr (writtenItems xs)
  | .obj o => .obj (writtenMembers o)

/-- The items of an array, as they are written. -/
def writtenItems : List Parsed → List Json
  | [] => []
  | x :: xs => written x :: writtenItems xs

/-- The members of an object, as they are written. -/
def writtenMembers : List (JsString × Parsed) → List (JsString × Json)
  | [] => []
  | (k, x) :: o => (k, written x) :: writtenMembers o

end

/-- `canonicalJSONStringify` of a parsed value: `canonicalize` keeps the numbers as they are. -/
def canonicalText (v : Parsed) : JsString := canonicalJSONStringify v.written

/-- Equal up to the order of object keys. -/
inductive SameUpToOrder : Parsed → Parsed → Prop
  | null : SameUpToOrder .null .null
  | bool (b : Bool) : SameUpToOrder (.bool b) (.bool b)
  | num (d : Decimal) : SameUpToOrder (.num d) (.num d)
  | infinity (neg : Bool) : SameUpToOrder (.infinity neg) (.infinity neg)
  | str (s : JsString) : SameUpToOrder (.str s) (.str s)
  | arr {xs ys : List Parsed} (hlength : xs.length = ys.length)
    (h : ∀ (i : ℕ) (x y : Parsed), xs[i]? = some x → ys[i]? = some y → SameUpToOrder x y) : SameUpToOrder (.arr xs) (.arr ys)
  | obj {o o' : Obj Parsed} (hkeys : ∀ k, k ∈ Obj.keys o ↔ k ∈ Obj.keys o')
    (h : ∀ k x y, Obj.get o k = some x → Obj.get o' k = some y → SameUpToOrder x y) : SameUpToOrder (.obj o) (.obj o')

theorem writtenItems_eq_map (xs : List Parsed) : writtenItems xs = xs.map written := by
  induction xs with
  | nil => rfl
  | cons x xs ih => rw [writtenItems, ih, List.map_cons]

theorem keys_writtenMembers (o : Obj Parsed) : Obj.keys (writtenMembers o) = Obj.keys o := by
  induction o with
  | nil => rfl
  | cons e o ih => simpa [writtenMembers, Obj.keys] using ih

theorem get_writtenMembers (o : Obj Parsed) (k : JsString) : Obj.get (writtenMembers o) k = (Obj.get o k).map written := by
  induction o with
  | nil => rfl
  | cons e o ih =>
    rw [writtenMembers, Obj.get_cons, Obj.get_cons, ih]
    split <;> rfl

theorem SameUpToOrder.written {v w : Parsed} (h : SameUpToOrder v w) : SameOn p v.written w.written := by
  induction h with
  | null => exact .null
  | bool b => exact .bool b
  | num d => exact .num d
  | infinity neg => exact .null
  | str s => exact .str s
  | @arr xs ys hlength _ ih =>
    rw [Parsed.written, Parsed.written, writtenItems_eq_map, writtenItems_eq_map]
    refine .arr (by simpa using hlength) fun i x y hx hy => ?_
    rw [List.getElem?_map, Option.map_eq_some_iff] at hx hy
    obtain ⟨x', hx, rfl⟩ := hx
    obtain ⟨y', hy, rfl⟩ := hy
    exact ih i x' y' hx hy
  | @obj o o' hkeys _ ih =>
    rw [Parsed.written, Parsed.written]
    refine .obj (fun k _ => ?_) fun k x y _ hx hy => ?_
    · rw [keys_writtenMembers, keys_writtenMembers]
      exact hkeys k
    · rw [get_writtenMembers, Option.map_eq_some_iff] at hx hy
      obtain ⟨x', hx, rfl⟩ := hx
      obtain ⟨y', hy, rfl⟩ := hy
      exact ih k x' y' hx hy

end Parsed

open Parsed

/-- **When the canonical text is canonical**: for two values that, as they are written, are not equal apart from members with the
key `__proto__`, or that are equal with these members and their infinities as well. -/
theorem canonical_iff {v w : Parsed} (hv : v.written.Proper) (hw : w.written.Proper) :
    (canonicalText v = canonicalText w ↔ SameUpToOrder v w) ↔ (SameButProto v.written w.written → SameUpToOrder v w) := by
  rw [canonicalText, canonicalText, canonical_eq_iff hv hw]
  constructor
  · exact fun h => h.mp
  · exact fun h => ⟨h, fun hsame => hsame.written⟩

/-- Two orders of the members of `{"b": 1, "a": null}`. -/
theorem canonical_iff_two_orders :
    canonicalText (.obj [(js "b", .num (.ofNat 1)), (js "a", .null)]) =
      canonicalText (.obj [(js "a", .null), (js "b", .num (.ofNat 1))]) := by
  have hv : (Parsed.obj [(js "b", .num (.ofNat 1)), (js "a", .null)]).written.Proper := by
    refine .plain (by decide) (by decide) fun e he => ?_
    rcases List.mem_pair.mp he with rfl | rfl
    · exact .num _
    · exact .null
  have hw : (Parsed.obj [(js "a", .null), (js "b", .num (.ofNat 1))]).written.Proper := by
    refine .plain (by decide) (by decide) fun e he => ?_
    rcases List.mem_pair.mp he with rfl | rfl
    · exact .null
    · exact .num _
  have hsame : SameUpToOrder (.obj [(js "b", .num (.ofNat 1)), (js "a", .null)]) (.obj [(js "a", .null), (js "b", .num (.ofNat 1))]) := by
    refine .obj (fun k => List.mem_pair.trans (or_comm.trans List.mem_pair.symm)) fun k x y hx hy => ?_
    simp only [Obj.get_cons, Obj.get_nil] at hx hy
    by_cases hb : js "b" = k
    · rw [if_pos hb, Option.some.injEq] at hx
      rw [if_neg (by rw [← hb]; decide), if_pos hb, Option.some.injEq] at hy
      rw [← hx, ← hy]
      exact .num _
    · rw [if_neg hb] at hx hy
      by_cases ha : js "a" = k
      · rw [if_pos ha, Option.some.injEq] at hx hy
        rw [← hx, ← hy]
        exact .null
      · rw [if_neg ha] at hx
        cases hx
  exact ((canonical_iff hv hw).mpr fun _ => hsame).mpr hsame

/-- The objects `{"__proto__": 1}` and `{}` have the same canonical text. -/
theorem proto_lost : ¬ ∀ v w : Parsed, v.written.Proper → w.written.Proper →
    (canonicalText v = canonicalText w ↔ SameUpToOrder v w) := by
  intro h
  have hproper : (Parsed.obj [(js "__proto__", .num (.ofNat 1))]).written.Proper := by
    refine .plain (by decide) (by decide) fun e he => ?_
    rw [List.mem_singleton.mp he]
    exact .num _
  have hnil : (Parsed.obj []).written.Proper :=
    .plain List.nodup_nil (List.forall_mem_nil _) (List.forall_mem_nil _)
  have hsame := (h _ _ hproper hnil).mp (by decide +kernel)
  cases hsame with
  | obj hkeys _ => simpa [Obj.keys] using hkeys (js "__proto__")

end Wanfw.Schemas
