import Wanfw.Js.Numbers

/-!
# Objects and JSON

An object is the list of its own properties, in the order in which the language
enumerates them: array indices by value, then the other keys as they were
added. `setOwn` defines a property (object literals, spread, `JSON.parse`),
`assign` is the assignment `o[k] = v`, which differs on `__proto__` alone.

A JSON value is a tree of these, and `stringify` is `JSON.stringify`: no white
space, strings quoted with the shortest escapes, a lone surrogate escaped.

## What is proved

* `unquote_quoteBody`: a quoted string is read back, and what follows it with it.
* `stringify_inj`: different values have different texts. The values here have
  finite numbers only; infinities, which `JSON.stringify` writes as `null`, are
  no JSON values.
* `wellFormed_stringify`: the text of a value has no lone surrogate, so that its
  bytes determine it (`utf8_stringify_inj`).
-/

namespace Wanfw.Js

/-! ### Objects -/

/-- The own properties of an object, in their order. -/
abbrev Obj (α : Type) := List (JsString × α)

/-- The array index that a key denotes, if it is one. -/
def arrayIndex (k : JsString) : Option ℕ :=
  if natToString (digitsValue k) = k ∧ digitsValue k < 2 ^ 32 - 1 then some (digitsValue k) else none

/-- Whether a new key `k` goes before the present key `k'`. -/
def goesBefore (k k' : JsString) : Bool :=
  match arrayIndex k, arrayIndex k' with
  | some i, some j => i < j
  | some _, none => true
  | none, _ => false

namespace Obj

variable {α β : Type}

/-- `o[k]`, for an own property. -/
def get (o : Obj α) (k : JsString) : Option α := (o.find? fun e => e.1 == k).map (·.2)

/-- `Object.keys(o)`. -/
def keys (o : Obj α) : List JsString := o.map (·.1)

/-- Put a new property in its place. -/
def insertNew (k : JsString) (v : α) : Obj α → Obj α
  | [] => [(k, v)]
  | e :: o => if goesBefore k e.1 then (k, v) :: e :: o else e :: insertNew k v o

/-- Define the own property `k`. -/
def setOwn (o : Obj α) (k : JsString) (v : α) : Obj α :=
  if o.any fun e => e.1 == k then o.map fun e => if e.1 == k then (k, v) else e else insertNew k v o

/-- `o[k] = v`. Assigning `__proto__` sets the prototype, and no own property. -/
def assign (o : Obj α) (k : JsString) (v : α) : Obj α := if k = js "__proto__" then o else setOwn o k v

/-- `{ ...o, ...o' }`. -/
def spread (o o' : Obj α) : Obj α := o'.foldl (fun acc e => acc.setOwn e.1 e.2) o

@[simp] theorem get_nil (k : JsString) : get ([] : Obj α) k = none := rfl

theorem get_cons (e : JsString × α) (o : Obj α) (k : JsString) :
    get (e :: o) k = if e.1 = k then some e.2 else get o k := by
  unfold get
  by_cases h : e.1 = k
  · rw [List.find?_cons_of_pos (by simpa using h), if_pos h]
    rfl
  · rw [List.find?_cons_of_neg (by simpa using h), if_neg h]

theorem get_eq_none {o : Obj α} {k : JsString} (h : k ∉ o.keys) : get o k = none := by
  simp only [keys, List.mem_map, not_exists, not_and] at h
  simp only [get, Option.map_eq_none_iff, List.find?_eq_none, beq_iff_eq]
  exact h

theorem mem_keys_iff_get {o : Obj α} {k : JsString} : k ∈ o.keys ↔ ∃ v, get o k = some v := by
  constructor
  · intro h
    have hne : get o k ≠ none := by
      intro hnone
      obtain ⟨e, he, hk⟩ := List.mem_map.mp h
      rw [get, Option.map_eq_none_iff, List.find?_eq_none] at hnone
      exact hnone e he (beq_iff_eq.mpr hk)
    exact Option.ne_none_iff_exists'.mp hne
  · rintro ⟨v, hv⟩
    by_contra h
    rw [get_eq_none h] at hv
    cases hv

/-- A property that is read is one of the members. -/
theorem mem_of_get {o : Obj α} {k : JsString} {x : α} (h : get o k = some x) : (k, x) ∈ o := by
  obtain ⟨e, he, rfl⟩ := Option.map_eq_some_iff.mp h
  have hkey := List.find?_some he
  rw [beq_iff_eq] at hkey
  rw [← hkey]
  exact List.mem_of_find?_eq_some he

theorem get_insertNew (k k' : JsString) (v : α) (o : Obj α) (h : k ∉ o.keys) :
    get (insertNew k v o) k' = if k = k' then some v else get o k' := by
  induction o with
  | nil => simp [insertNew, get_cons]
  | cons e o ih =>
    simp only [keys, List.map_cons, List.mem_cons, not_or] at h
    unfold insertNew
    split
    · rw [get_cons]
    · rw [get_cons, ih h.2, get_cons]
      by_cases h1 : e.1 = k' <;> by_cases h2 : k = k' <;> simp [h1, h2]
      exact absurd (h2.trans h1.symm) h.1

theorem get_map_set (k k' : JsString) (v : α) (o : Obj α) :
    get (o.map fun e => if e.1 == k then (k, v) else e) k' =
      if k = k' ∧ k ∈ o.keys then some v else get o k' := by
  induction o with
  | nil => simp [keys]
  | cons e o ih =>
    rw [List.map_cons, get_cons, ih, get_cons]
    grind [keys]

theorem mem_keys_iff_any {o : Obj α} {k : JsString} : (o.any fun e => e.1 == k) = true ↔ k ∈ o.keys := by
  simp [keys]

/-- Reading a property back after one was defined. -/
theorem get_setOwn (o : Obj α) (k k' : JsString) (v : α) :
    get (o.setOwn k v) k' = if k = k' then some v else get o k' := by
  unfold setOwn
  split
  · rename_i h
    rw [get_map_set]
    simp [mem_keys_iff_any.mp h]
  · rename_i h
    exact get_insertNew k k' v o (fun hk => h (mem_keys_iff_any.mpr hk))

theorem keys_insertNew_perm (k : JsString) (v : α) (o : Obj α) : (insertNew k v o).keys.Perm (k :: o.keys) := by
  induction o with
  | nil => exact List.Perm.refl _
  | cons e o ih =>
    unfold insertNew
    split
    · exact List.Perm.refl _
    · exact (ih.cons e.1).trans (List.Perm.swap _ _ _)

theorem keys_map_set (k : JsString) (v : α) (o : Obj α) :
    (Obj.keys (o.map fun e => if e.1 == k then (k, v) else e)) = o.keys := by
  rw [keys, keys, List.map_map]
  refine List.map_congr_left fun e _ => ?_
  by_cases h : e.1 = k <;> simp [h]

/-- Defining a property makes no key twice. -/
theorem nodup_setOwn {o : Obj α} (h : o.keys.Nodup) (k : JsString) (v : α) : (o.setOwn k v).keys.Nodup := by
  unfold setOwn
  split
  · rwa [keys_map_set]
  · rename_i hnew
    rw [(keys_insertNew_perm k v o).nodup_iff, List.nodup_cons]
    exact ⟨fun hk => hnew (mem_keys_iff_any.mpr hk), h⟩

/-- A spread makes no key twice. -/
theorem nodup_spread {o : Obj α} (h : o.keys.Nodup) (o' : Obj α) : (spread o o').keys.Nodup := by
  unfold spread
  induction o' generalizing o with
  | nil => exact h
  | cons e o' ih => exact ih (nodup_setOwn h e.1 e.2)

/-- An assignment adds at most its own key, and no key twice. -/
theorem keys_assign (o : Obj α) (k : JsString) (v : α) (hnd : o.keys.Nodup) (hplain : js "__proto__" ∉ o.keys) :
    (o.assign k v).keys.Nodup ∧ js "__proto__" ∉ (o.assign k v).keys := by
  unfold assign
  split
  · exact ⟨hnd, hplain⟩
  · rename_i hk
    refine ⟨nodup_setOwn hnd k v, ?_⟩
    unfold setOwn
    split
    · rwa [keys_map_set]
    · rw [(keys_insertNew_perm k v o).mem_iff, List.mem_cons, not_or]
      exact ⟨fun h => hk h.symm, hplain⟩

theorem mem_iff_get {o : Obj α} (hnd : o.keys.Nodup) {k : JsString} {v : α} : (k, v) ∈ o ↔ get o k = some v := by
  induction o with
  | nil => simp
  | cons e o ih =>
    simp only [keys, List.map_cons, List.nodup_cons] at hnd
    rw [List.mem_cons, get_cons]
    by_cases h : e.1 = k
    · rw [if_pos h]
      constructor
      · rintro (he | hm)
        · rw [← he]
        · exact absurd (List.mem_map.mpr ⟨(k, v), hm, h.symm⟩) hnd.1
      · intro hv
        exact .inl (Prod.ext h.symm (Option.some.inj hv).symm)
    · rw [if_neg h, ← ih hnd.2]
      constructor
      · rintro (he | hm)
        · exact absurd (congrArg Prod.fst he).symm h
        · exact hm
      · exact .inr

theorem get_assign {k : JsString} (hk : k ≠ js "__proto__") (o : Obj α) (k' : JsString) (v : α) :
    get (o.assign k v) k' = if k = k' then some v else get o k' := by
  rw [assign, if_neg hk, get_setOwn]

theorem insertNew_plain {k : JsString} (hk : arrayIndex k = none) (v : α) (o : Obj α) :
    insertNew k v o = o ++ [(k, v)] := by
  induction o with
  | nil => rfl
  | cons e o ih => simp [insertNew, goesBefore, hk, ih]

/-- Assigning new keys that are no array indices keeps their order. -/
theorem foldl_assign_plain (o acc : Obj α) (hnd : (acc ++ o).keys.Nodup)
    (hplain : ∀ k ∈ o.keys, arrayIndex k = none ∧ k ≠ js "__proto__") :
    o.foldl (fun out e => assign out e.1 e.2) acc = acc ++ o := by
  induction o generalizing acc with
  | nil => simp
  | cons e o ih =>
    obtain ⟨hidx, hproto⟩ := hplain e.1 (by simp [keys])
    have hnew : ¬ (acc.any fun e' => e'.1 == e.1) = true := by
      rw [mem_keys_iff_any]
      simp only [keys, List.map_append, List.map_cons, List.nodup_append, List.mem_cons] at hnd
      exact fun h => hnd.2.2 e.1 h e.1 (.inl rfl) rfl
    rw [List.foldl_cons, assign, if_neg hproto, setOwn, if_neg hnew, insertNew_plain hidx, ih]
    · simp
    · simpa using hnd
    · intro k hk
      exact hplain k (by simp only [keys, List.map_cons, List.mem_cons] at hk ⊢; exact .inr hk)

/-- The later object of a spread wins. -/
theorem get_spread (o o' : Obj α) (hnd : o'.keys.Nodup) (k : JsString) :
    get (spread o o') k = (get o' k).or (get o k) := by
  unfold spread
  induction o' generalizing o with
  | nil => simp
  | cons e o' ih =>
    simp only [keys, List.map_cons, List.nodup_cons] at hnd
    rw [List.foldl_cons, ih _ hnd.2, get_setOwn, get_cons]
    split
    · rename_i h
      rw [get_eq_none (by rw [← h]; exact hnd.1)]
      rfl
    · rfl

end Obj

/-! ### Values -/

/-- A JSON value, with finite numbers. -/
inductive Json where
  | null
  | bool (b : Bool)
  | num (d : Decimal)
  | str (s : JsString)
  | arr (xs : List Json)
  | obj (o : List (JsString × Json))
  deriving Inhabited

/-- `v.k`, for a key that no prototype has. -/
def Json.prop : Json → JsString → Option Json
  | .obj o, k => Obj.get o k
  | _, _ => none

/-- `a === b`, where at least one side is a primitive value. -/
def Json.strictEq : Json → Json → Bool
  | .null, .null => true
  | .bool a, .bool b => a == b
  | .num a, .num b => a == b
  | .str a, .str b => a == b
  | _, _ => false

/-! ### Strings -/

/-- A lower-case hexadecimal digit. -/
def hexDigit (n : ℕ) : UInt16 := if n < 10 then (48 + n).toUInt16 else (87 + n).toUInt16

/-- What a hexadecimal digit denotes. -/
def hexValue (u : UInt16) : ℕ := if u.toNat < 58 then u.toNat - 48 else u.toNat - 87

/-- `\uxxxx`. -/
def unicodeEscape (u : UInt16) : JsString :=
  [92, 117, hexDigit (u.toNat / 4096), hexDigit (u.toNat / 256 % 16), hexDigit (u.toNat / 16 % 16),
    hexDigit (u.toNat % 16)]

/-- A code unit that is not part of a surrogate pair, within quotes. -/
def quoteUnit (u : UInt16) : JsString :=
  if u = 8 then [92, 98]
  else if u = 9 then [92, 116]
  else if u = 10 then [92, 110]
  else if u = 12 then [92, 102]
  else if u = 13 then [92, 114]
  else if u = 34 then [92, 34]
  else if u = 92 then [92, 92]
  else if u.toNat < 32 || isHigh u || isLow u then unicodeEscape u
  else [u]

/-- The text of a string, within the quotes. -/
def quoteBody : JsString → JsString
  | [] => []
  | [u] => quoteUnit u
  | u :: v :: rest =>
    if isHigh u && isLow v then u :: v :: quoteBody rest else quoteUnit u ++ quoteBody (v :: rest)

/-- `QuoteJSONString`. -/
def quote (s : JsString) : JsString := 34 :: (quoteBody s ++ [34])

/-- Read a string up to its closing quote, and what follows it. -/
def unquote : JsString → Option (JsString × JsString)
  | [] => none
  | 34 :: r => some ([], r)
  | 92 :: 117 :: a :: b :: c :: d :: r =>
    (unquote r).map fun p =>
      ((hexValue a * 4096 + hexValue b * 256 + hexValue c * 16 + hexValue d).toUInt16 :: p.1, p.2)
  | 92 :: 98 :: r => (unquote r).map fun p => (8 :: p.1, p.2)
  | 92 :: 116 :: r => (unquote r).map fun p => (9 :: p.1, p.2)
  | 92 :: 110 :: r => (unquote r).map fun p => (10 :: p.1, p.2)
  | 92 :: 102 :: r => (unquote r).map fun p => (12 :: p.1, p.2)
  | 92 :: 114 :: r => (unquote r).map fun p => (13 :: p.1, p.2)
  | 92 :: u :: r => (unquote r).map fun p => (u :: p.1, p.2)
  | u :: r => (unquote r).map fun p => (u :: p.1, p.2)

theorem hexValue_hexDigit {n : ℕ} (h : n < 16) : hexValue (hexDigit n) = n := by
  unfold hexDigit hexValue
  split
  · rw [show ((48 + n).toUInt16).toNat = 48 + n by simp [Nat.toUInt16]; omega]
    split <;> omega
  · rw [show ((87 + n).toUInt16).toNat = 87 + n by simp [Nat.toUInt16]; omega]
    split <;> omega

theorem unquote_unicodeEscape (u : UInt16) (r : JsString) :
    unquote (unicodeEscape u ++ r) = (unquote r).map fun p => (u :: p.1, p.2) := by
  have hu := u.toNat_lt
  have h : (hexValue (hexDigit (u.toNat / 4096)) * 4096 + hexValue (hexDigit (u.toNat / 256 % 16)) * 256 +
      hexValue (hexDigit (u.toNat / 16 % 16)) * 16 + hexValue (hexDigit (u.toNat % 16))).toUInt16 = u := by
    rw [hexValue_hexDigit (by omega), hexValue_hexDigit (by omega), hexValue_hexDigit (by omega),
      hexValue_hexDigit (by omega)]
    rw [show u.toNat / 4096 * 4096 + u.toNat / 256 % 16 * 256 + u.toNat / 16 % 16 * 16 + u.toNat % 16 = u.toNat by omega]
    simp [Nat.toUInt16]
  simp only [unicodeEscape, List.cons_append, List.nil_append, unquote, h]

theorem unquote_plain {u : UInt16} (h1 : u ≠ 34) (h2 : u ≠ 92) (r : JsString) :
    unquote (u :: r) = (unquote r).map fun p => (u :: p.1, p.2) := by
  rw [unquote.eq_def]
  split <;> simp_all

theorem unquote_quoteUnit (u : UInt16) (r : JsString) :
    unquote (quoteUnit u ++ r) = (unquote r).map fun p => (u :: p.1, p.2) := by
  unfold quoteUnit
  split_ifs with h1 h2 h3 h4 h5 h6 h7 h8
  · rw [h1]; rfl
  · rw [h2]; rfl
  · rw [h3]; rfl
  · rw [h4]; rfl
  · rw [h5]; rfl
  · rw [h6]; rfl
  · rw [h7]; rfl
  · exact unquote_unicodeEscape u r
  · exact unquote_plain h6 h7 r

theorem not_special_of_surrogate {u : UInt16} (h : isHigh u = true ∨ isLow u = true) : u ≠ 34 ∧ u ≠ 92 := by
  constructor <;> rintro rfl <;> revert h <;> decide

/-- **A quoted string is read back**, and what follows it with it. -/
theorem unquote_quoteBody (s r : JsString) : unquote (quoteBody s ++ 34 :: r) = some (s, r) := by
  induction s using quoteBody.induct with
  | case1 => simp [quoteBody, unquote]
  | case2 u =>
    rw [quoteBody, unquote_quoteUnit]
    simp [unquote]
  | case3 u v rest h ih =>
    rw [Bool.and_eq_true] at h
    have hu := not_special_of_surrogate (.inl h.1)
    have hv := not_special_of_surrogate (.inr h.2)
    simp only [quoteBody, h.1, h.2, Bool.and_self, if_true, List.cons_append]
    rw [unquote_plain hu.1 hu.2, unquote_plain hv.1 hv.2, ih]
    rfl
  | case4 u v rest h ih =>
    simp only [quoteBody, h, Bool.false_eq_true, if_false, List.append_assoc]
    rw [unquote_quoteUnit, ih]
    rfl

theorem quote_append_inj {s s' r r' : JsString} (h : quote s ++ r = quote s' ++ r') : s = s' ∧ r = r' := by
  simp only [quote, List.cons_append, List.append_assoc, List.nil_append, List.cons.injEq, true_and] at h
  have := congrArg unquote h
  rw [unquote_quoteBody, unquote_quoteBody] at this
  exact Prod.mk.inj (Option.some.inj this)

/-! ### The text of a value -/

mutual

/-- `JSON.stringify(v)`. -/
def stringify : Json → JsString
  | .null => js "null"
  | .bool true => js "true"
  | .bool false => js "false"
  | .num d => numberToString d
  | .str s => quote s
  | .arr [] => js "[]"
  | .arr (x :: xs) => js "[" ++ stringify x ++ stringifyItems xs
  | .obj [] => js "\x7b\x7d"
  | .obj ((k, x) :: o) => js "\x7b" ++ quote k ++ js ":" ++ stringify x ++ stringifyMembers o

/-- The items of an array after the first, and its end. -/
def stringifyItems : List Json → JsString
  | [] => js "]"
  | x :: xs => js "," ++ stringify x ++ stringifyItems xs

/-- The members of an object after the first, and its end. -/
def stringifyMembers : List (JsString × Json) → JsString
  | [] => js "\x7d"
  | (k, x) :: o => js "," ++ quote k ++ js ":" ++ stringify x ++ stringifyMembers o

end

/-- What follows a value: nothing, a comma or the end of an array or an object. -/
def Delimited (r : JsString) : Prop := ∀ u ∈ r.head?, u = 44 ∨ u = 93 ∨ u = 125

theorem delimited_items (xs : List Json) (r : JsString) : Delimited (stringifyItems xs ++ r) := by
  cases xs <;> simp [stringifyItems, Delimited, js, encode, utf16]

theorem delimited_members (o : List (JsString × Json)) (r : JsString) : Delimited (stringifyMembers o ++ r) := by
  cases o <;> simp [stringifyMembers, Delimited, js, encode, utf16]

/-- The constructor of a value, numbered. -/
def Json.tag : Json → ℕ
  | .null => 0
  | .bool _ => 1
  | .num _ => 2
  | .str _ => 3
  | .arr _ => 4
  | .obj _ => 5

/-- The constructor of the value whose text starts with `u`, if there is one. -/
def tagOfHead (u : UInt16) : ℕ :=
  if u = 110 then 0
  else if u = 116 ∨ u = 102 then 1
  else if u = 34 then 3
  else if u = 91 then 4
  else if u = 123 then 5
  else if u = 93 then 6
  else 2

theorem numberToString_head (d : Decimal) : ∃ u t, numberToString d = u :: t ∧ IsNumeral u := by
  have h := isNumeral_numberToString d
  cases hn : numberToString d with
  | nil =>
    exfalso
    unfold numberToString at hn
    split_ifs at hn with h0
    · cases hn
    · cases hn
    · obtain ⟨u, t, hu, -⟩ := unsignedToString_head h0 d.exp
      rw [hu] at hn
      cases hn
  | cons u t => exact ⟨u, t, rfl, h u (by simp [hn])⟩

theorem tagOfHead_numeral {u : UInt16} (h : IsNumeral u) : tagOfHead u = 2 := by
  have ne : ∀ c : UInt16, ¬ IsNumeral c → u ≠ c := by
    rintro c hc rfl
    exact hc h
  simp [tagOfHead, ne 110 (by decide), ne 116 (by decide), ne 102 (by decide), ne 34 (by decide),
    ne 91 (by decide), ne 123 (by decide), ne 93 (by decide)]

theorem stringify_head (a : Json) : ∃ u t, stringify a = u :: t ∧ tagOfHead u = a.tag := by
  cases a with
  | null => exact ⟨110, _, rfl, rfl⟩
  | bool b => cases b <;> exact ⟨_, _, rfl, rfl⟩
  | num d =>
    obtain ⟨u, t, hu, hn⟩ := numberToString_head d
    exact ⟨u, t, by rw [stringify, hu], tagOfHead_numeral hn⟩
  | str s => exact ⟨34, _, rfl, rfl⟩
  | arr xs =>
    cases xs with
    | nil => exact ⟨91, _, rfl, rfl⟩
    | cons x xs => exact ⟨91, _, by rw [stringify]; rfl, rfl⟩
  | obj o =>
    cases o with
    | nil => exact ⟨123, _, rfl, rfl⟩
    | cons e o => exact ⟨123, _, by rw [stringify]; rfl, rfl⟩

theorem tag_eq_of_append {a b : Json} {r r' : JsString} (h : stringify a ++ r = stringify b ++ r') :
    a.tag = b.tag := by
  obtain ⟨u, t, ha, hu⟩ := stringify_head a
  obtain ⟨u', t', hb, hu'⟩ := stringify_head b
  rw [ha, hb] at h
  rw [← hu, ← hu', (List.cons.inj h).1]

/-- A maximal run of units of one kind is determined by the whole. -/
theorem append_inj_of_run {P : UInt16 → Prop} {xs ys r r' : JsString} (hx : ∀ u ∈ xs, P u) (hy : ∀ u ∈ ys, P u)
    (hr : ∀ u ∈ r.head?, ¬ P u) (hr' : ∀ u ∈ r'.head?, ¬ P u) (h : xs ++ r = ys ++ r') : xs = ys ∧ r = r' := by
  induction xs generalizing ys with
  | nil =>
    cases ys with
    | nil => exact ⟨rfl, h⟩
    | cons y ys =>
      rw [List.nil_append] at h
      exact absurd (hy y (by simp)) (hr y (by simp [h]))
  | cons x xs ih =>
    cases ys with
    | nil =>
      rw [List.nil_append] at h
      exact absurd (hx x (by simp)) (hr' x (by simp [← h]))
    | cons y ys =>
      obtain ⟨rfl, htail⟩ := List.cons.inj h
      obtain ⟨rfl, hrr⟩ := ih (fun u hu => hx u (by simp [hu])) (fun u hu => hy u (by simp [hu])) htail
      exact ⟨rfl, hrr⟩

theorem not_isNumeral_of_delimited {r : JsString} (h : Delimited r) : ∀ u ∈ r.head?, ¬ IsNumeral u := by
  intro u hu
  rcases h u hu with rfl | rfl | rfl <;> decide

mutual

/-- The text of a value ends where the value does. -/
theorem stringify_append_inj (a b : Json) {r r' : JsString} (hr : Delimited r) (hr' : Delimited r')
    (h : stringify a ++ r = stringify b ++ r') : a = b ∧ r = r' := by
  have htag := tag_eq_of_append h
  match a, b with
  | .null, .null => exact ⟨rfl, List.append_cancel_left h⟩
  | .bool x, .bool y =>
    cases x <;> cases y
    · exact ⟨rfl, List.append_cancel_left h⟩
    · cases (List.cons.inj h).1
    · cases (List.cons.inj h).1
    · exact ⟨rfl, List.append_cancel_left h⟩
  | .num d, .num d' =>
    simp only [stringify] at h
    obtain ⟨hd, hrr⟩ := append_inj_of_run (isNumeral_numberToString d) (isNumeral_numberToString d')
      (not_isNumeral_of_delimited hr) (not_isNumeral_of_delimited hr') h
    exact ⟨by rw [numberToString_inj hd], hrr⟩
  | .str s, .str s' =>
    simp only [stringify] at h
    obtain ⟨rfl, hrr⟩ := quote_append_inj h
    exact ⟨rfl, hrr⟩
  | .arr [], .arr [] => exact ⟨rfl, List.append_cancel_left h⟩
  | .arr [], .arr (y :: ys) =>
    obtain ⟨u, t, hy, hu⟩ := stringify_head y
    simp only [stringify, hy] at h
    rw [← (List.cons.inj (List.cons.inj h).2).1] at hu
    cases y <;> cases hu
  | .arr (x :: xs), .arr [] =>
    obtain ⟨u, t, hx, hu⟩ := stringify_head x
    simp only [stringify, hx] at h
    rw [(List.cons.inj (List.cons.inj h).2).1] at hu
    cases x <;> cases hu
  | .arr (x :: xs), .arr (y :: ys) =>
    simp only [stringify, List.append_assoc] at h
    obtain ⟨rfl, hxs⟩ := stringify_append_inj x y (delimited_items xs r) (delimited_items ys r')
      (List.append_cancel_left h)
    obtain ⟨rfl, hrr⟩ := stringifyItems_append_inj xs ys hr hr' hxs
    exact ⟨rfl, hrr⟩
  | .obj [], .obj [] => exact ⟨rfl, List.append_cancel_left h⟩
  | .obj [], .obj ((k, y) :: ys) =>
    simp only [stringify, quote] at h
    cases (List.cons.inj (List.cons.inj h).2).1
  | .obj ((k, x) :: xs), .obj [] =>
    simp only [stringify, quote] at h
    cases (List.cons.inj (List.cons.inj h).2).1
  | .obj ((k, x) :: xs), .obj ((l, y) :: ys) =>
    simp only [stringify, List.append_assoc] at h
    obtain ⟨rfl, hx⟩ := quote_append_inj (List.append_cancel_left h)
    obtain ⟨rfl, hxs⟩ := stringify_append_inj x y (delimited_members xs r) (delimited_members ys r')
      (List.append_cancel_left hx)
    obtain ⟨rfl, hrr⟩ := stringifyMembers_append_inj xs ys hr hr' hxs
    exact ⟨rfl, hrr⟩

theorem stringifyItems_append_inj (xs ys : List Json) {r r' : JsString} (hr : Delimited r) (hr' : Delimited r')
    (h : stringifyItems xs ++ r = stringifyItems ys ++ r') : xs = ys ∧ r = r' := by
  match xs, ys with
  | [], [] => exact ⟨rfl, List.append_cancel_left h⟩
  | [], y :: ys =>
    simp only [stringifyItems] at h
    cases (List.cons.inj h).1
  | x :: xs, [] =>
    simp only [stringifyItems] at h
    cases (List.cons.inj h).1
  | x :: xs, y :: ys =>
    simp only [stringifyItems, List.append_assoc] at h
    obtain ⟨rfl, hxs⟩ := stringify_append_inj x y (delimited_items xs r) (delimited_items ys r')
      (List.append_cancel_left h)
    obtain ⟨rfl, hrr⟩ := stringifyItems_append_inj xs ys hr hr' hxs
    exact ⟨rfl, hrr⟩

theorem stringifyMembers_append_inj (xs ys : List (JsString × Json)) {r r' : JsString} (hr : Delimited r)
    (hr' : Delimited r') (h : stringifyMembers xs ++ r = stringifyMembers ys ++ r') : xs = ys ∧ r = r' := by
  match xs, ys with
  | [], [] => exact ⟨rfl, List.append_cancel_left h⟩
  | [], (l, y) :: ys =>
    simp only [stringifyMembers] at h
    cases (List.cons.inj h).1
  | (k, x) :: xs, [] =>
    simp only [stringifyMembers] at h
    cases (List.cons.inj h).1
  | (k, x) :: xs, (l, y) :: ys =>
    simp only [stringifyMembers, List.append_assoc] at h
    obtain ⟨rfl, hx⟩ := quote_append_inj (List.append_cancel_left h)
    obtain ⟨rfl, hxs⟩ := stringify_append_inj x y (delimited_members xs r) (delimited_members ys r')
      (List.append_cancel_left hx)
    obtain ⟨rfl, hrr⟩ := stringifyMembers_append_inj xs ys hr hr' hxs
    exact ⟨rfl, hrr⟩

end

/-- **Different values have different texts.** -/
theorem stringify_inj {a b : Json} (h : stringify a = stringify b) : a = b := by
  have hnil : Delimited [] := by simp [Delimited]
  have h' : stringify a ++ [] = stringify b ++ [] := by rw [h]
  exact (stringify_append_inj a b hnil hnil h').1

/-! ### The text has no lone surrogate -/

/-- Units below the surrogates. -/
theorem wellFormed_of_lt {s : JsString} (h : ∀ u ∈ s, u.toNat < 0xD800) : WellFormed s := by
  refine wellFormed_of_units fun u hu => ?_
  have := h u hu
  simp only [isHigh, isLow, Bool.and_eq_false_iff, decide_eq_false_iff_not]
  omega

theorem wellFormed_quoteUnit (u : UInt16) : WellFormed (quoteUnit u) := by
  have hex : ∀ n, n < 16 → (hexDigit n).toNat < 0xD800 := by
    intro n hn
    unfold hexDigit
    split <;> simp [Nat.toUInt16] <;> omega
  have hu := u.toNat_lt
  unfold quoteUnit
  split_ifs with h1 h2 h3 h4 h5 h6 h7 h8
  · exact wellFormed_of_lt (by simp)
  · exact wellFormed_of_lt (by simp)
  · exact wellFormed_of_lt (by simp)
  · exact wellFormed_of_lt (by simp)
  · exact wellFormed_of_lt (by simp)
  · exact wellFormed_of_lt (by simp)
  · exact wellFormed_of_lt (by simp)
  · have e1 := hex (u.toNat / 4096) (by omega)
    have e2 := hex (u.toNat / 256 % 16) (by omega)
    have e3 := hex (u.toNat / 16 % 16) (by omega)
    have e4 := hex (u.toNat % 16) (by omega)
    exact wellFormed_of_lt (by simp [unicodeEscape, e1, e2, e3, e4])
  · rw [Bool.or_eq_true, Bool.or_eq_true, not_or, not_or] at h8
    exact wellFormed_unit ⟨by simpa using h8.1.2, by simpa using h8.2⟩

theorem wellFormed_quoteBody (s : JsString) : WellFormed (quoteBody s) := by
  induction s using quoteBody.induct with
  | case1 => exact wellFormed_nil
  | case2 u => exact wellFormed_quoteUnit u
  | case3 u v rest h ih =>
    simp only [quoteBody, h, if_true]
    rw [Bool.and_eq_true] at h
    exact (wellFormed_pair h.1 h.2).append ih
  | case4 u v rest h ih =>
    simp only [quoteBody, h, Bool.false_eq_true, if_false]
    exact (wellFormed_quoteUnit u).append ih

theorem wellFormed_quote (s : JsString) : WellFormed (quote s) :=
  (wellFormed_js "\"").append ((wellFormed_quoteBody s).append (wellFormed_js "\""))

theorem wellFormed_numberToString (d : Decimal) : WellFormed (numberToString d) := by
  refine wellFormed_of_lt fun u hu => ?_
  rcases isNumeral_numberToString d u hu with h | rfl | rfl | rfl | rfl
  · exact lt_of_le_of_lt h.2 (by decide)
  all_goals decide

mutual

theorem wellFormed_stringify (a : Json) : WellFormed (stringify a) := by
  match a with
  | .null => exact wellFormed_js _
  | .bool true => exact wellFormed_js _
  | .bool false => exact wellFormed_js _
  | .num d => exact wellFormed_numberToString d
  | .str s => exact wellFormed_quote s
  | .arr [] => exact wellFormed_js _
  | .arr (x :: xs) =>
    rw [stringify]
    exact ((wellFormed_js _).append (wellFormed_stringify x)).append (wellFormed_stringifyItems xs)
  | .obj [] => exact wellFormed_js _
  | .obj ((k, x) :: o) =>
    rw [stringify]
    exact ((((wellFormed_js _).append (wellFormed_quote k)).append (wellFormed_js _)).append
      (wellFormed_stringify x)).append (wellFormed_stringifyMembers o)

theorem wellFormed_stringifyItems (xs : List Json) : WellFormed (stringifyItems xs) := by
  match xs with
  | [] => exact wellFormed_js _
  | x :: xs =>
    rw [stringifyItems]
    exact ((wellFormed_js _).append (wellFormed_stringify x)).append (wellFormed_stringifyItems xs)

theorem wellFormed_stringifyMembers (o : List (JsString × Json)) : WellFormed (stringifyMembers o) := by
  match o with
  | [] => exact wellFormed_js _
  | (k, x) :: o =>
    rw [stringifyMembers]
    exact ((((wellFormed_js _).append (wellFormed_quote k)).append (wellFormed_js _)).append
      (wellFormed_stringify x)).append (wellFormed_stringifyMembers o)

end

/-- **The bytes of its text determine a value.** -/
theorem utf8_stringify_inj {a b : Json} (h : utf8 (stringify a) = utf8 (stringify b)) : a = b :=
  stringify_inj (utf8_inj (wellFormed_stringify a) (wellFormed_stringify b) h)

end Wanfw.Js
