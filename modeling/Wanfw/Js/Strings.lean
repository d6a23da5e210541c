import Mathlib

/-!
# JavaScript strings

A JavaScript string is a finite sequence of 16-bit code units, compared unit by
unit. Most strings are UTF-16 texts, but not all: a surrogate may stand alone,
as in the value of the JSON text `"\ud800"`. `JsString` is the list of units, so
that the string operations are list operations and the order `<` of two strings
is the lexicographic order of the lists.

`js` writes a literal. `decode` reads the units back as characters, a lone
surrogate as U+FFFD, and `utf8` is what a hash or a socket is given for a
string. On texts (`encode cs`) nothing is lost: `decode_encode`, `utf8_encode_inj`.
-/

namespace Wanfw.Js

/-- The order of code units. -/
instance instLinearOrderUnit : LinearOrder UInt16 where
  le_refl _ := UInt16.le_refl _
  le_trans _ _ _ := UInt16.le_trans
  le_antisymm _ _ := UInt16.le_antisymm
  le_total := UInt16.le_total
  lt_iff_le_not_ge a b := by
    show a < b ↔ a ≤ b ∧ ¬ b ≤ a
    simp only [UInt16.lt_iff_toNat_lt, UInt16.le_iff_toNat_le]
    omega
  toDecidableLE := inferInstance
  toDecidableEq := inferInstance
  toDecidableLT := inferInstance

/-- A string: its code units. -/
abbrev JsString := List UInt16

instance instLawfulBEqText : LawfulBEq (List UInt16) := inferInstance

/-! ### Texts -/

/-- The units of a character: one, or a surrogate pair. -/
def utf16 (c : Char) : JsString :=
  if c.toNat < 0x10000 then [c.toNat.toUInt16]
  else [(0xD800 + (c.toNat - 0x10000) / 0x400).toUInt16, (0xDC00 + (c.toNat - 0x10000) % 0x400).toUInt16]

/-- The string of a text. -/
def encode (cs : List Char) : JsString := cs.flatMap utf16

/-- A string literal. -/
def js (s : String) : JsString := encode s.toList

/-- The first unit of a surrogate pair. -/
def isHigh (u : UInt16) : Bool := 0xD800 ≤ u.toNat && u.toNat < 0xDC00

/-- The second unit of a surrogate pair. -/
def isLow (u : UInt16) : Bool := 0xDC00 ≤ u.toNat && u.toNat < 0xE000

/-- The character of a unit that is not part of a pair. -/
def unitChar (u : UInt16) : Char :=
  if isHigh u || isLow u then Char.ofNat 0xFFFD else Char.ofNat u.toNat

/-- The character of a surrogate pair. -/
def pairChar (u v : UInt16) : Char :=
  Char.ofNat (0x10000 + (u.toNat - 0xD800) * 0x400 + (v.toNat - 0xDC00))

/-- The characters of a string, a lone surrogate read as U+FFFD. -/
def decode : JsString → List Char
  | [] => []
  | [u] => [unitChar u]
  | u :: v :: rest =>
    if isHigh u && isLow v then pairChar u v :: decode rest else unitChar u :: decode (v :: rest)

/-- The bytes of a string in UTF-8. -/
def utf8 (s : JsString) : List UInt8 := (decode s).flatMap String.utf8EncodeChar

theorem decode_cons {u : UInt16} (h : isHigh u = false) (rest : JsString) :
    decode (u :: rest) = unitChar u :: decode rest := by
  cases rest with
  | nil => rfl
  | cons v rest => simp [decode, h]

theorem char_toNat_lt (c : Char) : c.toNat < 0x110000 := by
  have := c.valid
  simp only [UInt32.isValidChar, Nat.isValidChar] at this
  change c.val.toNat < _
  omega

theorem char_not_surrogate (c : Char) : c.toNat < 0xD800 ∨ 0xE000 ≤ c.toNat := by
  have := c.valid
  simp only [UInt32.isValidChar, Nat.isValidChar] at this
  change c.val.toNat < _ ∨ _ ≤ c.val.toNat
  omega

theorem decode_utf16_append (c : Char) (rest : JsString) : decode (utf16 c ++ rest) = c :: decode rest := by
  have hlt := char_toNat_lt c
  have hs := char_not_surrogate c
  unfold utf16
  split
  · rename_i h
    have hu : (c.toNat.toUInt16).toNat = c.toNat := by simp [Nat.toUInt16]; omega
    have hh : isHigh c.toNat.toUInt16 = false := by
      simp only [isHigh, hu, Bool.and_eq_false_iff, decide_eq_false_iff_not]; omega
    have hl : isLow c.toNat.toUInt16 = false := by
      simp only [isLow, hu, Bool.and_eq_false_iff, decide_eq_false_iff_not]; omega
    rw [List.cons_append, List.nil_append, decode_cons hh]
    simp only [unitChar, hh, hl, Bool.or_self, Bool.false_eq_true, if_false, hu, Char.ofNat_toNat]
  · rename_i h
    have hu : ((0xD800 + (c.toNat - 0x10000) / 0x400).toUInt16).toNat =
        0xD800 + (c.toNat - 0x10000) / 0x400 := by simp [Nat.toUInt16]; omega
    have hv : ((0xDC00 + (c.toNat - 0x10000) % 0x400).toUInt16).toNat =
        0xDC00 + (c.toNat - 0x10000) % 0x400 := by simp [Nat.toUInt16]; omega
    have hh : isHigh (0xD800 + (c.toNat - 0x10000) / 0x400).toUInt16 = true := by
      simp only [isHigh, hu, Bool.and_eq_true, decide_eq_true_eq]; omega
    have hl : isLow (0xDC00 + (c.toNat - 0x10000) % 0x400).toUInt16 = true := by
      simp only [isLow, hv, Bool.and_eq_true, decide_eq_true_eq]; omega
    have hn : 0x10000 + (0xD800 + (c.toNat - 0x10000) / 0x400 - 0xD800) * 0x400 +
        (0xDC00 + (c.toNat - 0x10000) % 0x400 - 0xDC00) = c.toNat := by omega
    have hp : pairChar (0xD800 + (c.toNat - 0x10000) / 0x400).toUInt16
        (0xDC00 + (c.toNat - 0x10000) % 0x400).toUInt16 = c := by
      rw [pairChar, hu, hv, hn, Char.ofNat_toNat]
    simp only [List.cons_append, List.nil_append, decode, hh, hl, Bool.and_self, if_true, hp]

/-- **A text is read back as it was written.** -/
theorem decode_encode (cs : List Char) : decode (encode cs) = cs := by
  induction cs with
  | nil => rfl
  | cons c cs ih => rw [encode, List.flatMap_cons, decode_utf16_append, ← encode, ih]

theorem encode_append (xs ys : List Char) : encode (xs ++ ys) = encode xs ++ encode ys := by
  simp [encode]

/-- A string that is a text: no surrogate stands alone. -/
def WellFormed (s : JsString) : Prop := ∃ cs, s = encode cs

theorem WellFormed.append {s t : JsString} (hs : WellFormed s) (ht : WellFormed t) : WellFormed (s ++ t) := by
  obtain ⟨xs, rfl⟩ := hs
  obtain ⟨ys, rfl⟩ := ht
  exact ⟨xs ++ ys, (encode_append xs ys).symm⟩

theorem wellFormed_nil : WellFormed [] := ⟨[], rfl⟩

theorem wellFormed_js (s : String) : WellFormed (js s) := ⟨s.toList, rfl⟩

theorem toNat_ofNat_valid {n : ℕ} (h : n < 0xD800 ∨ 0xE000 ≤ n ∧ n < 0x110000) : (Char.ofNat n).toNat = n := by
  have hv : n.isValidChar := by
    simp only [Nat.isValidChar]
    omega
  simp [Char.ofNat, hv, Char.toNat, Char.ofNatAux]

theorem utf16_ofNat_unit {u : UInt16} (h : isHigh u = false ∧ isLow u = false) :
    utf16 (Char.ofNat u.toNat) = [u] := by
  have hu := u.toNat_lt
  simp only [isHigh, isLow, Bool.and_eq_false_iff, decide_eq_false_iff_not] at h
  have hn : (Char.ofNat u.toNat).toNat = u.toNat := toNat_ofNat_valid (by omega)
  rw [utf16, hn, if_pos (by omega)]
  simp [Nat.toUInt16]

theorem utf16_pairChar {u v : UInt16} (hu : isHigh u = true) (hv : isLow v = true) : utf16 (pairChar u v) = [u, v] := by
  simp only [isHigh, isLow, Bool.and_eq_true, decide_eq_true_eq] at hu hv
  have hn : (pairChar u v).toNat = 0x10000 + (u.toNat - 0xD800) * 0x400 + (v.toNat - 0xDC00) :=
    toNat_ofNat_valid (by omega)
  rw [utf16, hn, if_neg (by omega)]
  rw [show 0xD800 + (0x10000 + (u.toNat - 0xD800) * 0x400 + (v.toNat - 0xDC00) - 0x10000) / 0x400 = u.toNat by omega,
    show 0xDC00 + (0x10000 + (u.toNat - 0xD800) * 0x400 + (v.toNat - 0xDC00) - 0x10000) % 0x400 = v.toNat by omega]
  simp [Nat.toUInt16]

theorem wellFormed_unit {u : UInt16} (h : isHigh u = false ∧ isLow u = false) : WellFormed [u] :=
  ⟨[Char.ofNat u.toNat], by simp [encode, utf16_ofNat_unit h]⟩

theorem wellFormed_pair {u v : UInt16} (hu : isHigh u = true) (hv : isLow v = true) : WellFormed [u, v] :=
  ⟨[pairChar u v], by simp [encode, utf16_pairChar hu hv]⟩

/-- A string without surrogates is a text. -/
theorem wellFormed_of_units {s : JsString} (h : ∀ u ∈ s, isHigh u = false ∧ isLow u = false) : WellFormed s := by
  induction s with
  | nil => exact wellFormed_nil
  | cons u s ih =>
    exact (wellFormed_unit (h u (by simp))).append (ih fun v hv => h v (by simp [hv]))

/-! ### Bytes -/

/-- The bytes of a text. -/
def utf8Text (cs : List Char) : List UInt8 := cs.flatMap String.utf8EncodeChar

theorem utf8Text_inj {xs ys : List Char} (h : utf8Text xs = utf8Text ys) : xs = ys := by
  have hb : xs.utf8Encode = ys.utf8Encode := by
    unfold List.utf8Encode
    exact congrArg List.toByteArray h
  have hs : String.ofList xs = String.ofList ys :=
    String.toByteArray_inj.mp (by rw [String.toByteArray_ofList, String.toByteArray_ofList, hb])
  simpa using congrArg String.toList hs

theorem utf8_encode (cs : List Char) : utf8 (encode cs) = utf8Text cs := by
  rw [utf8, decode_encode, utf8Text]

/-- Two texts with the same bytes are the same. -/
theorem utf8_inj {s t : JsString} (hs : WellFormed s) (ht : WellFormed t) (h : utf8 s = utf8 t) : s = t := by
  obtain ⟨xs, rfl⟩ := hs
  obtain ⟨ys, rfl⟩ := ht
  rw [utf8_encode, utf8_encode] at h
  rw [utf8Text_inj h]

/-! ### String operations -/

/-- `s.startsWith(p)`. -/
def startsWith (s p : JsString) : Bool := p.isPrefixOf s

/-- `s.endsWith(p)`. -/
def endsWith (s p : JsString) : Bool := p.isSuffixOf s

/-- `s.split(sep)`, for a separator of one unit. -/
def split (s : JsString) (sep : UInt16) : List JsString := s.splitOn sep

/-- `xs.join(sep)`. -/
def join (xs : List JsString) (sep : JsString) : JsString := sep.intercalate xs

/-- `s.includes(t)`. -/
def includesText (s t : JsString) : Bool := s.tails.any fun u => t.isPrefixOf u

/-- `[...s]`, for a text: by code points. -/
def codePoints : JsString → List JsString
  | [] => []
  | [u] => [[u]]
  | u :: v :: rest => if isHigh u && isLow v then [u, v] :: codePoints rest else [u] :: codePoints (v :: rest)

@[simp] theorem startsWith_iff {s p : JsString} : startsWith s p = true ↔ ∃ t, s = p ++ t := by
  rw [startsWith, List.isPrefixOf_iff_prefix]
  exact ⟨fun ⟨t, h⟩ => ⟨t, h.symm⟩, fun ⟨t, h⟩ => ⟨t, h.symm⟩⟩

@[simp] theorem endsWith_iff {s p : JsString} : endsWith s p = true ↔ ∃ t, s = t ++ p := by
  rw [endsWith, List.isSuffixOf_iff_suffix]
  exact ⟨fun ⟨t, h⟩ => ⟨t, h.symm⟩, fun ⟨t, h⟩ => ⟨t, h.symm⟩⟩

theorem split_length_lt_two {s : JsString} {sep : UInt16} : (split s sep).length < 2 ↔ sep ∉ s := by
  constructor
  · intro h hmem
    obtain ⟨x, y, rfl⟩ := List.append_of_mem hmem
    rw [split, List.splitOn_append_cons_self, List.length_append] at h
    have hx := List.length_pos_of_ne_nil (List.splitOn_ne_nil sep x)
    have hy := List.length_pos_of_ne_nil (List.splitOn_ne_nil sep y)
    omega
  · intro h
    rw [split, List.splitOn_eq_singleton h]
    simp

theorem split_append_cons {s : JsString} {c : UInt16} (h : c ∉ s) (t : JsString) :
    split (s ++ c :: t) c = s :: split t c := by
  rw [split, List.splitOn_append_cons_self, List.splitOn_eq_singleton h]
  rfl

theorem split_of_not_mem {s : JsString} {c : UInt16} (h : c ∉ s) : split s c = [s] := List.splitOn_eq_singleton h

/-- The pieces have the units of the string, without the separator. -/
theorem mem_split {s p : JsString} {c : UInt16} (h : p ∈ split s c) : c ∉ p ∧ ∀ u ∈ p, u ∈ s := by
  induction hn : s.length using Nat.strong_induction_on generalizing s with
  | _ n ih =>
    by_cases hs : c ∈ s
    · obtain ⟨x, r, rfl, hx⟩ := List.eq_append_cons_of_mem hs
      rw [split_append_cons hx] at h
      rcases List.mem_cons.mp h with rfl | h
      · exact ⟨hx, fun u hu => List.mem_append_left _ hu⟩
      · have hlt : r.length < n := by
          simp only [List.length_append, List.length_cons] at hn
          omega
        obtain ⟨hp, hr⟩ := ih _ hlt h rfl
        exact ⟨hp, fun u hu => List.mem_append_right _ (List.mem_cons_of_mem _ (hr u hu))⟩
    · rw [split_of_not_mem hs, List.mem_singleton] at h
      rw [h]
      exact ⟨hs, fun u hu => hu⟩

theorem join_split (s : JsString) (sep : UInt16) : join (split s sep) [sep] = s := List.intercalate_splitOn sep

theorem mem_join_iff {u : UInt16} {sep : JsString} (hu : u ∉ sep) {xs : List JsString} :
    u ∈ join xs sep ↔ ∃ x ∈ xs, u ∈ x := by
  induction xs with
  | nil => simp [join, List.intercalate]
  | cons x xs ih =>
    cases xs with
    | nil => simp [join, List.intercalate]
    | cons y ys =>
      have hjoin : join (x :: y :: ys) sep = x ++ (sep ++ join (y :: ys) sep) := by simp [join, List.intercalate]
      rw [hjoin, List.mem_append, List.mem_append, or_iff_right hu, ih]
      simp

theorem join_append {xs ys : List JsString} (hx : xs ≠ []) (hy : ys ≠ []) (sep : JsString) :
    join (xs ++ ys) sep = join xs sep ++ sep ++ join ys sep := by
  induction xs with
  | nil => exact absurd rfl hx
  | cons x xs ih =>
    obtain ⟨y, ys, rfl⟩ := List.exists_cons_of_ne_nil hy
    cases xs with
    | nil => simp [join, List.intercalate]
    | cons x' xs =>
      have h : ∀ zs : List JsString, join (x :: x' :: zs) sep = x ++ sep ++ join (x' :: zs) sep := by
        intro zs
        simp [join, List.intercalate]
      rw [List.cons_append, List.cons_append, h, h, ← List.cons_append, ih (by simp), List.append_assoc, List.append_assoc,
        List.append_assoc, List.append_assoc, List.append_assoc]

/-! ### First occurrences -/

/-- What stands before and after the first occurrence of `t` in a string. -/
def cut (t : JsString) : JsString → Option (JsString × JsString)
  | [] => if t = [] then some ([], []) else none
  | u :: s =>
    if t <+: u :: s then some ([], (u :: s).drop t.length)
    else (cut t s).map fun q => (u :: q.1, q.2)

/-- The strings occur in this order, one after the other. -/
def occursInOrder : List JsString → JsString → Bool
  | [], _ => true
  | t :: ts, s =>
    match cut t s with
    | none => false
    | some (_, after) => occursInOrder ts after

theorem eq_append_of_cut {t s x y : JsString} (h : cut t s = some (x, y)) : s = x ++ t ++ y := by
  induction s generalizing x with
  | nil =>
    unfold cut at h
    split at h
    · rename_i ht
      cases h
      simp [ht]
    · cases h
  | cons u s ih =>
    unfold cut at h
    split at h
    · rename_i ht
      obtain ⟨z, hz⟩ := ht
      cases h
      rw [← hz]
      simp
    · obtain ⟨⟨x', y'⟩, hcut, heq⟩ := Option.map_eq_some_iff.mp h
      cases heq
      rw [ih hcut]
      simp

/-- The first occurrence leaves at least what any other leaves. -/
theorem cut_of_append {t x y : JsString} : ∃ x' z, cut t (x ++ t ++ y) = some (x', z ++ y) := by
  induction x with
  | nil =>
    refine ⟨[], [], ?_⟩
    rw [List.nil_append]
    cases hs : t ++ y with
    | nil =>
      obtain ⟨rfl, rfl⟩ := List.append_eq_nil_iff.mp hs
      rfl
    | cons u s =>
      have ht : t <+: u :: s := hs ▸ List.prefix_append t y
      rw [cut, if_pos ht, ← hs, List.drop_left]
      rfl
  | cons u x ih =>
    obtain ⟨x', z, h⟩ := ih
    rw [List.cons_append, List.cons_append, cut]
    split
    · rename_i ht
      obtain ⟨w, hw⟩ := ht
      -- an earlier occurrence leaves more
      have hsuffix : y <:+ w := by
        have h1 : w <:+ u :: (x ++ t ++ y) := ⟨t, hw⟩
        have h2 : y <:+ u :: (x ++ t ++ y) := ⟨u :: (x ++ t), by simp⟩
        refine List.suffix_of_suffix_length_le h2 h1 ?_
        have := congrArg List.length hw
        simp only [List.length_append, List.length_cons] at this
        omega
      obtain ⟨z', rfl⟩ := hsuffix
      refine ⟨[], z', ?_⟩
      rw [← hw, List.drop_left]
    · exact ⟨u :: x', z, by rw [h]; rfl⟩

/-- A character does not occur before its first occurrence. -/
theorem not_mem_of_cut {c : UInt16} {s x y : JsString} (h : cut [c] s = some (x, y)) : c ∉ x := by
  induction s generalizing x with
  | nil =>
    rw [cut, if_neg (by simp)] at h
    cases h
  | cons u s ih =>
    unfold cut at h
    split at h
    · cases h
      simp
    · rename_i hne
      obtain ⟨⟨x', y'⟩, hcut, heq⟩ := Option.map_eq_some_iff.mp h
      cases heq
      rw [List.mem_cons, not_or]
      refine ⟨?_, ih hcut⟩
      rintro rfl
      exact hne ⟨s, rfl⟩

theorem cut_eq_none_of_suffix {t s y : JsString} (h : cut t s = none) (hy : y <:+ s) : cut t y = none := by
  cases hcut : cut t y with
  | none => rfl
  | some q =>
    obtain ⟨a, b⟩ := q
    obtain ⟨x, rfl⟩ := hy
    obtain ⟨x', z, h'⟩ := cut_of_append (t := t) (x := x ++ a) (y := b)
    rw [eq_append_of_cut hcut, show x ++ (a ++ t ++ b) = x ++ a ++ t ++ b by simp, h'] at h
    cases h

theorem occursInOrder_append {ts : List JsString} {y : JsString} (x : JsString) (h : occursInOrder ts y = true) :
    occursInOrder ts (x ++ y) = true := by
  induction ts generalizing x y with
  | nil => rfl
  | cons t ts ih =>
    unfold occursInOrder at h
    split at h
    · cases h
    · rename_i a b hcut
      obtain ⟨x', z, h'⟩ := cut_of_append (t := t) (x := x ++ a) (y := b)
      rw [eq_append_of_cut hcut, show x ++ (a ++ t ++ b) = x ++ a ++ t ++ b by simp, occursInOrder, h']
      exact ih z h

theorem occursInOrder_cons_iff {t : JsString} {ts : List JsString} {s : JsString} :
    occursInOrder (t :: ts) s = true ↔ ∃ x y, s = x ++ t ++ y ∧ occursInOrder ts y = true := by
  constructor
  · intro h
    unfold occursInOrder at h
    split at h
    · cases h
    · rename_i x y hcut
      exact ⟨x, y, eq_append_of_cut hcut, h⟩
  · rintro ⟨x, y, rfl, h⟩
    obtain ⟨x', z, hcut⟩ := cut_of_append (t := t) (x := x) (y := y)
    rw [occursInOrder, hcut]
    exact occursInOrder_append z h

/-! ### Fields between delimiters -/

/-- No delimiter starts inside another one. -/
def NoOverlap (ds : List JsString) : Prop :=
  ∀ d ∈ ds, ∀ d' ∈ ds, ∀ k < d.length, 0 < k → ¬ d.drop k <+: d' ∧ ¬ d' <+: d.drop k

instance (ds : List JsString) : Decidable (NoOverlap ds) := by unfold NoOverlap; infer_instance

/-- A rest of the text: the end, or a delimiter and what follows. -/
def StartsOne (ds : List JsString) (r : JsString) : Prop := r = [] ∨ ∃ d ∈ ds, d <+: r

/-- A field holds none of the delimiters. -/
def FreeOf (ds : List JsString) (s : JsString) : Prop := ∀ d ∈ ds, ¬ d <:+: s

instance (ds : List JsString) (s : JsString) : Decidable (FreeOf ds s) := by unfold FreeOf; infer_instance

variable {ds : List JsString} {s s' r r' : JsString}

theorem length_le_of_delimited (hno : NoOverlap ds) (hs' : FreeOf ds s') (hr : StartsOne ds r) (hr' : StartsOne ds r')
    (h : s ++ r = s' ++ r') : s'.length ≤ s.length := by
  by_contra hlt
  rw [not_le] at hlt
  obtain ⟨x, rfl, hx⟩ : ∃ x, s' = s ++ x ∧ r = x ++ r' := by
    rcases List.append_eq_append_iff.mp h with ⟨x, hx, hrx⟩ | ⟨x, rfl, -⟩
    · exact ⟨x, hx, hrx⟩
    · rw [List.length_append] at hlt
      omega
  have hpos : 0 < x.length := by
    rw [List.length_append] at hlt
    omega
  rcases hr with rfl | ⟨d, hd, hdr⟩
  · rw [List.nil_eq_append_iff] at hx
    rw [hx.1] at hpos
    simp at hpos
  · rw [hx] at hdr
    rcases List.prefix_or_prefix_of_prefix hdr (List.prefix_append x r') with hdx | ⟨y, rfl⟩
    · exact hs' d hd (hdx.isInfix.trans (List.suffix_append s x).isInfix)
    · -- the delimiter reaches into the rest of the other text
      rw [List.prefix_append_right_inj] at hdr
      rcases hr' with rfl | ⟨d', hd', hdr'⟩
      · refine hs' _ hd ?_
        rw [List.prefix_nil.mp hdr, List.append_nil]
        exact (List.suffix_append s x).isInfix
      · have hy : y = (x ++ y).drop x.length := by simp
        by_cases hnil : y = []
        · refine hs' _ hd ?_
          rw [hnil, List.append_nil]
          exact (List.suffix_append s x).isInfix
        · have hlen : x.length < (x ++ y).length := by
            rw [List.length_append]
            have := List.length_pos_of_ne_nil hnil
            omega
          have hboth := hno _ hd d' hd' x.length hlen hpos
          rw [← hy] at hboth
          exact (List.prefix_or_prefix_of_prefix hdr hdr').elim hboth.1 hboth.2

/-- **Fields that are free of the delimiters are determined by the text.** -/
theorem append_inj_of_delimited (hno : NoOverlap ds) (hs : FreeOf ds s) (hs' : FreeOf ds s') (hr : StartsOne ds r)
    (hr' : StartsOne ds r') (h : s ++ r = s' ++ r') : s = s' ∧ r = r' :=
  List.append_inj h (le_antisymm (length_le_of_delimited hno hs hr' hr h.symm) (length_le_of_delimited hno hs' hr hr' h))

end Wanfw.Js
