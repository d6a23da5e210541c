import Wanfw.Js.JsonParse
import Wanfw.Js.KeyOrder

/-!
# Documents

A program makes a document from another (`{ ...o, k: v }`), writes it over several lines, and
reads it back. `stringifyIndent` is `JSON.stringify` with a gap: every item and every member
stands on a line of its own, behind as many gaps as it is deep. The reader passes over the white
space (`parse_stringifyIndent`).
-/

namespace Wanfw.Js

/-! ### Objects made of others -/

section Build

variable {α : Type} {o o' : Obj α} {k : JsString} {v : α} {e : JsString × α}

theorem Obj.mem_setOwn (h : e ∈ Obj.setOwn o k v) : e = (k, v) ∨ e ∈ o := by
  unfold Obj.setOwn at h
  split at h
  · obtain ⟨e', he', rfl⟩ := List.mem_map.mp h
    by_cases hk : e'.1 = k
    · exact .inl (if_pos (beq_iff_eq.mpr hk))
    · rw [if_neg (by simpa using hk)]
      exact .inr he'
  · induction o with
    | nil => exact .inl (List.mem_singleton.mp h)
    | cons e' o ih =>
      unfold Obj.insertNew at h
      split at h
      · exact List.mem_cons.mp h
      · rename_i hnew _
        rcases List.mem_cons.mp h with rfl | h
        · exact .inr List.mem_cons_self
        · rcases ih (fun hany => hnew (by simp [hany])) h with he | he
          · exact .inl he
          · exact .inr (List.mem_cons_of_mem _ he)

theorem Obj.mem_spread (h : e ∈ Obj.spread o o') : e ∈ o ∨ e ∈ o' := by
  unfold Obj.spread at h
  induction o' generalizing o with
  | nil => exact .inl h
  | cons e' o' ih =>
    rcases ih h with h | h
    · rcases Obj.mem_setOwn h with rfl | h
      · exact .inr List.mem_cons_self
      · exact .inl h
    · exact .inr (List.mem_cons_of_mem _ h)

end Build

namespace Json.Proper

/-- The empty object has its keys in order, and none twice. -/
theorem keys_nil : InOrder (Obj.keys ([] : Obj Json)) ∧ (Obj.keys ([] : Obj Json)).Nodup :=
    ⟨List.Pairwise.nil, List.nodup_nil⟩

variable {o : Obj Json} {k : JsString} {v : Json}

theorem inOrder (h : (Json.obj o).Proper) : InOrder (Obj.keys o) := by
  cases h with
  | obj hown _ =>
    rw [← hown]
    exact Obj.inOrder_spread keys_nil.1 o

theorem nodup (h : (Json.obj o).Proper) : (Obj.keys o).Nodup := by
  cases h with
  | obj hown _ =>
    rw [← hown]
    exact Obj.nodup_spread keys_nil.2 o

theorem own (h : (Json.obj o).Proper) : Obj.spread [] o = o := by
  cases h with
  | obj hown _ => exact hown

theorem items {xs : List Json} (h : (Json.arr xs).Proper) : ∀ x ∈ xs, x.Proper := by
  cases h with
  | arr hitems => exact hitems

theorem member (h : (Json.obj o).Proper) : ∀ e ∈ o, e.2.Proper := by
  cases h with
  | obj _ hmember => exact hmember

/-- `{ ...o }`. -/
theorem spread (h : ∀ e ∈ o, e.2.Proper) : (Json.obj (Obj.spread [] o)).Proper := by
  refine .obj (Obj.spread_self (Obj.inOrder_spread keys_nil.1 o) (Obj.nodup_spread keys_nil.2 o)) fun e he => ?_
  rcases Obj.mem_spread he with he | he
  · exact absurd he List.not_mem_nil
  · exact h e he

/-- `{ ...o, k: v }`. -/
theorem setOwn (h : (Json.obj o).Proper) (k : JsString) (hv : v.Proper) :
    (Json.obj (Obj.setOwn o k v)).Proper := by
  refine .obj (Obj.spread_self (Obj.inOrder_setOwn h.inOrder k v) (Obj.nodup_setOwn h.nodup k v)) fun e he => ?_
  rcases Obj.mem_setOwn he with rfl | he
  · exact hv
  · exact h.member e he

end Json.Proper

/-! ### The text -/

mutual

/-- `JSON.stringify(v, null, gap)`, behind an indentation. -/
def stringifyIndent (gap : JsString) (indent : JsString) : Json → JsString
  | .null => js "null"
  | .bool true => js "true"
  | .bool false => js "false"
  | .num d => numberToString d
  | .str s => quote s
  | .arr [] => js "[]"
  | .arr (x :: xs) =>
    js "[\n" ++ (indent ++ gap ++ stringifyIndent gap (indent ++ gap) x) ++ indentItems gap indent xs
  | .obj [] => js "\x7b\x7d"
  | .obj ((k, x) :: o) =>
    js "\x7b\n" ++ (indent ++ gap ++ quote k ++ js ": " ++ stringifyIndent gap (indent ++ gap) x) ++
      indentMembers gap indent o

/-- The items of an array after the first, and its end. -/
def indentItems (gap : JsString) (indent : JsString) : List Json → JsString
  | [] => js "\n" ++ indent ++ js "]"
  | x :: xs =>
    js ",\n" ++ (indent ++ gap ++ stringifyIndent gap (indent ++ gap) x) ++ indentItems gap indent xs

/-- The members of an object after the first, and its end. -/
def indentMembers (gap : JsString) (indent : JsString) : List (JsString × Json) → JsString
  | [] => js "\n" ++ indent ++ js "\x7d"
  | (k, x) :: o =>
    js ",\n" ++ (indent ++ gap ++ quote k ++ js ": " ++ stringifyIndent gap (indent ++ gap) x) ++
      indentMembers gap indent o

end

/-! ### White space -/

/-- White space only. -/
def Blank (s : JsString) : Prop := ∀ u ∈ s, jsonSpace u = true

theorem Blank.append {s t : JsString} (hs : Blank s) (ht : Blank t) : Blank (s ++ t) :=
  List.forall_mem_append.mpr ⟨hs, ht⟩

theorem Blank.cons {u : UInt16} {s : JsString} (hu : jsonSpace u = true) (hs : Blank s) :
    Blank (u :: s) :=
  List.forall_mem_cons.mpr ⟨hu, hs⟩

section Space

variable {N : Numerals} {s t r : JsString} {n : ℕ}

theorem skipSpace_blank (h : Blank s) (t : JsString) : skipSpace (s ++ t) = skipSpace t :=
  List.dropWhile_append_of_pos h

/-- A value is read behind white space. -/
theorem parseValue_skipSpace (h : skipSpace s = skipSpace t) : parseValue N n s = parseValue N n t := by
  cases n with
  | zero => rfl
  | succ n => rw [parseValue, parseValue, h]

theorem parseMembers_skipSpace (h : skipSpace s = skipSpace t) :
    parseMembers N n s = parseMembers N n t := by
  cases n with
  | zero => rfl
  | succ n => rw [parseMembers, parseMembers, h]

theorem parseItems_skipSpace (h : skipSpace s = skipSpace t) : parseItems N n s = parseItems N n t := by
  cases n with
  | zero => rfl
  | succ n => rw [parseItems, parseItems, parseValue_skipSpace h]

end Space

/-! ### Reading it back -/

section RoundTrip

variable {N : Numerals} {gap : JsString}

/-- The text of a value starts with none of the units that end or separate. -/
theorem stringifyIndent_head (gap indent : JsString) (a : Json) :
    ∃ u t, stringifyIndent gap indent a = u :: t ∧ jsonSpace u = false ∧ u ≠ 93 ∧ u ≠ 125 := by
  have hplain := stringify_head_plain a
  cases a with
  | null => simpa [stringify, stringifyIndent] using hplain
  | bool b => cases b <;> simpa [stringify, stringifyIndent] using hplain
  | num d => simpa [stringify, stringifyIndent] using hplain
  | str s => simpa [stringify, stringifyIndent] using hplain
  | arr xs =>
    cases xs with
    | nil => exact ⟨91, [93], rfl, by decide⟩
    | cons x xs => exact ⟨91, _, rfl, by decide⟩
  | obj o =>
    cases o with
    | nil => exact ⟨123, [125], rfl, by decide⟩
    | cons e o => exact ⟨123, _, rfl, by decide⟩

theorem skipSpace_stringifyIndent (gap indent : JsString) (a : Json) (r : JsString) :
    skipSpace (stringifyIndent gap indent a ++ r) = stringifyIndent gap indent a ++ r := by
  obtain ⟨u, t, hu, hspace, -⟩ := stringifyIndent_head gap indent a
  rw [hu, List.cons_append, skipSpace_cons hspace]

theorem stops_indentItems (gap indent : JsString) (xs : List Json) (r : JsString) :
    Stops (indentItems gap indent xs ++ r) := by
  cases xs <;> simp [indentItems, Stops, js, encode, utf16] <;> decide

theorem stops_indentMembers (gap indent : JsString) (o : List (JsString × Json)) (r : JsString) :
    Stops (indentMembers gap indent o ++ r) := by
  cases o <;> simp [indentMembers, Stops, js, encode, utf16] <;> decide

/-- A member is read behind white space, and its value behind a blank. -/
theorem parseMembers_key {ws : JsString} (hws : Blank ws) (k t : JsString) (n : ℕ) :
    parseMembers N n (ws ++ quote k ++ js ": " ++ t) = parseMembers N n (quote k ++ js ":" ++ (32 :: t)) := by
  refine parseMembers_skipSpace ?_
  rw [List.append_assoc, List.append_assoc, skipSpace_blank hws]
  simp [js, encode, utf16]

theorem parseValue_blank (t : JsString) (n : ℕ) : parseValue N n (32 :: t) = parseValue N n t :=
  parseValue_skipSpace (skipSpace_blank (s := [32]) (by simp [Blank, jsonSpace]) t)

theorem parseItems_end_space {s r t : JsString} {n : ℕ} {x : Json} (hx : parseValue N n s = some (x, r))
    (hr : skipSpace r = 93 :: t) : parseItems N (n + 1) s = some ([x], t) := by
  rw [parseItems, hx, Option.bind_some, hr]
  rfl

mutual

/-- **What was written over several lines is read back**, and what follows it with it. -/
theorem parseValue_stringifyIndent (hgap : Blank gap) (indent : JsString) (hindent : Blank indent)
    (a : Json) (ha : a.Proper)
    (n : ℕ) (hn : (stringifyIndent gap indent a).length < n) (r : JsString) (hr : Stops r) :
    parseValue N n (stringifyIndent gap indent a ++ r) = some (a, r) := by
  obtain ⟨n, rfl⟩ : ∃ m, n = m + 1 := ⟨n - 1, by omega⟩
  have hspace := skipSpace_stringifyIndent gap indent a r
  cases a with
  | null => rfl
  | bool b => cases b <;> rfl
  | num d =>
    obtain ⟨u, t, hu, hnum⟩ := numberToString_head d
    rw [stringifyIndent, hu, List.cons_append] at hspace
    have hother : ∀ v : UInt16, ¬ IsNumeral v → u ≠ v := fun v hv h => hv (h ▸ hnum)
    have hvalue : parseValue N (n + 1) (u :: (t ++ r)) = _ :=
      parseValue_other hspace (hother 34 (by decide)) (hother 91 (by decide)) (hother 123 (by decide))
    rw [stringifyIndent, hu, List.cons_append, hvalue, ← List.cons_append, ← hu, parseWord_numberToString,
      parseNumber_numberToString d hr]
    rfl
  | str s =>
    rw [stringifyIndent, quote] at hspace ⊢
    rw [parseValue_str (t := quoteBody s ++ 34 :: r) (by simpa using hspace), parseString_quoteBody]
    rfl
  | arr xs =>
    cases xs with
    | nil => rfl
    | cons x xs =>
      have htext : stringifyIndent gap indent (.arr (x :: xs)) ++ r =
          91 :: (10 :: (indent ++ gap) ++
            (stringifyIndent gap (indent ++ gap) x ++ (indentItems gap indent xs ++ r))) := by
        simp [stringifyIndent, js, encode, utf16]
      have hblank : Blank (10 :: (indent ++ gap)) := (hindent.append hgap).cons (by decide)
      rw [htext] at hspace ⊢
      have hinner := skipSpace_blank hblank
        (stringifyIndent gap (indent ++ gap) x ++ (indentItems gap indent xs ++ r))
      rw [skipSpace_stringifyIndent] at hinner
      rw [parseValue_arr hspace ?_, hinner, parseItems_stringifyIndent hgap indent hindent x xs ha.items n ?_ r]
      · rfl
      · have := congrArg List.length htext
        simp only [List.length_append, List.length_cons] at this
        omega
      · obtain ⟨u, t, hu, -, hne, -⟩ := stringifyIndent_head gap (indent ++ gap) x
        rw [hinner, hu]
        exact fun heq => hne (Option.some.inj heq)
  | obj o =>
    cases o with
    | nil => rfl
    | cons e o =>
      obtain ⟨k, x⟩ := e
      have htext : stringifyIndent gap indent (.obj ((k, x) :: o)) ++ r =
          123 :: (10 :: (indent ++ gap) ++ (quote k ++
            (js ": " ++ (stringifyIndent gap (indent ++ gap) x ++ (indentMembers gap indent o ++ r))))) := by
        simp [stringifyIndent, js, encode, utf16]
      have hblank : Blank (10 :: (indent ++ gap)) := (hindent.append hgap).cons (by decide)
      rw [htext] at hspace ⊢
      have hquote := quote_head k
        (js ": " ++ (stringifyIndent gap (indent ++ gap) x ++ (indentMembers gap indent o ++ r)))
      have hinner := skipSpace_blank hblank (quote k ++
        (js ": " ++ (stringifyIndent gap (indent ++ gap) x ++ (indentMembers gap indent o ++ r))))
      have hlen := congrArg List.length htext
      simp only [List.length_append, List.length_cons] at hlen
      have hmembers := parseMembers_stringifyIndent hgap indent hindent []
        (fun _ hu => absurd hu List.not_mem_nil) k x o ha.member n (by omega) r
      rw [List.nil_append, List.append_assoc] at hmembers
      rw [parseValue_obj hspace (by rw [hinner]; exact hquote.1), hinner, hquote.2, hmembers, Option.map_some, ha.own]
termination_by n

theorem parseItems_stringifyIndent (hgap : Blank gap) (indent : JsString) (hindent : Blank indent)
    (x : Json) (xs : List Json) (h : ∀ y ∈ x :: xs, y.Proper) (n : ℕ)
    (hn : (stringifyIndent gap (indent ++ gap) x).length + (indentItems gap indent xs).length < n) (r : JsString) :
    parseItems N n (stringifyIndent gap (indent ++ gap) x ++ (indentItems gap indent xs ++ r)) =
      some (x :: xs, r) := by
  obtain ⟨n, rfl⟩ : ∃ m, n = m + 1 := ⟨n - 1, by omega⟩
  have hend : 0 < (indentItems gap indent xs).length := by
    cases xs <;> simp [indentItems, js, encode, utf16]
  have hx := parseValue_stringifyIndent hgap (indent ++ gap) (hindent.append hgap) x (h x (by simp)) n (by omega) _
    (stops_indentItems gap indent xs r)
  cases xs with
  | nil =>
    refine parseItems_end_space hx ?_
    have htext : indentItems gap indent [] ++ r = (10 :: indent) ++ 93 :: r := by
      simp [indentItems, js, encode, utf16]
    rw [htext, skipSpace_blank (hindent.cons (by decide)), skipSpace_cons (by decide)]
  | cons y ys =>
    have htext : indentItems gap indent (y :: ys) ++ r =
        44 :: (10 :: (indent ++ gap) ++
          (stringifyIndent gap (indent ++ gap) y ++ (indentItems gap indent ys ++ r))) := by
      simp [indentItems, js, encode, utf16]
    have hlen := congrArg List.length htext
    simp only [List.length_append, List.length_cons] at hlen
    have hblank : Blank (10 :: (indent ++ gap)) := (hindent.append hgap).cons (by decide)
    rw [htext] at hx ⊢
    rw [parseItems_comma hx, parseItems_skipSpace (skipSpace_blank hblank _),
      parseItems_stringifyIndent hgap indent hindent y ys (fun z hz => h z (List.mem_cons_of_mem _ hz)) n (by omega) r]
    rfl
termination_by n

theorem parseMembers_stringifyIndent (hgap : Blank gap) (indent : JsString) (hindent : Blank indent)
    (ws : JsString) (hws : Blank ws) (k : JsString) (x : Json) (o : List (JsString × Json))
    (h : ∀ e ∈ (k, x) :: o, e.2.Proper) (n : ℕ)
    (hn : (quote k).length + (js ": ").length + (stringifyIndent gap (indent ++ gap) x).length +
      (indentMembers gap indent o).length < n) (r : JsString) :
    parseMembers N n (ws ++ quote k ++ js ": " ++
      (stringifyIndent gap (indent ++ gap) x ++ (indentMembers gap indent o ++ r))) = some ((k, x) :: o, r) := by
  obtain ⟨n, rfl⟩ : ∃ m, n = m + 1 := ⟨n - 1, by omega⟩
  have hcolon : (js ": ").length = 2 := rfl
  have hx := parseValue_stringifyIndent hgap (indent ++ gap) (hindent.append hgap) x (h (k, x) (by simp)) n
    (by omega) _ (stops_indentMembers gap indent o r)
  rw [parseMembers_key hws, parseMembers_quote, parseValue_blank, hx, Option.bind_some]
  cases o with
  | nil =>
    have htext : indentMembers gap indent [] ++ r = (10 :: indent) ++ 125 :: r := by
      simp [indentMembers, js, encode, utf16]
    rw [htext, skipSpace_blank (hindent.cons (by decide)), skipSpace_cons (by decide)]
    rfl
  | cons e o =>
    obtain ⟨k', y⟩ := e
    have htext : indentMembers gap indent ((k', y) :: o) ++ r =
        44 :: (10 :: (indent ++ gap) ++ quote k' ++ js ": " ++
          (stringifyIndent gap (indent ++ gap) y ++ (indentMembers gap indent o ++ r))) := by
      simp [indentMembers, js, encode, utf16]
    have hlen := congrArg List.length htext
    simp only [List.length_append, List.length_cons] at hlen
    have hrest := parseMembers_stringifyIndent hgap indent hindent (10 :: (indent ++ gap))
      ((hindent.append hgap).cons (by decide)) k' y o (fun e he => h e (List.mem_cons_of_mem _ he))
      n (by omega) r
    rw [htext, skipSpace_cons (by decide)]
    change (parseMembers N n (10 :: (indent ++ gap) ++ quote k' ++ js ": " ++ _)).map _ = _
    rw [hrest]
    rfl
termination_by n

end

/-- **The reader takes back what was written over several lines.** -/
theorem parse_stringifyIndent {a : Json} (hgap : Blank gap) (ha : a.Proper) :
    parse N (stringifyIndent gap [] a) = some a := by
  have h := parseValue_stringifyIndent (N := N) hgap [] (fun _ hu => absurd hu List.not_mem_nil) a ha
    ((stringifyIndent gap [] a).length + 1) (Nat.lt_succ_self _) [] (by simp [Stops])
  rw [List.append_nil] at h
  rw [parse, h]
  rfl

end RoundTrip

end Wanfw.Js
