import Wanfw.Js.Json

/-!
# Reading JSON

`JSON.parse`. A numeral denotes the nearest number of the language; which one that is
enters as a parameter, of which the reader needs one thing: the text of a number is
read back as that number (`Numerals`). `Numerals.exact` takes a numeral at its value.

* `parse_stringify`: what `JSON.stringify` writes is read back. The value has to be one
  that the language has: an object's members are in the order of its properties, each
  once (`Json.Proper`).
* `parseValue_append`: what is read does not depend on what follows, so that a proper
  prefix of the text of an object is no JSON text (`parse_truncated`).
-/

namespace Wanfw.Js

/-- What numerals denote. -/
structure Numerals where
  value : JsString → Decimal
  value_numberToString : ∀ d, value (numberToString d) = d

/-! ### Numerals -/

/-- A digit, as a test. -/
def digit (u : UInt16) : Bool := decide (IsDigit u)

/-- A unit of a numeral. -/
def numeralUnit (u : UInt16) : Bool := decide (IsNumeral u) || u == 69

/-- One or more digits. -/
def validDigits (t : JsString) : Bool := !t.isEmpty && t.all digit

/-- The end of a numeral: an exponent, or nothing. -/
def validExp : JsString → Bool
  | [] => true
  | u :: r => (u == 101 || u == 69) && (match r with
    | 43 :: r => validDigits r
    | 45 :: r => validDigits r
    | r => validDigits r)

/-- What follows the integer part. -/
def validFrac : JsString → Bool
  | 46 :: r => validDigits (r.takeWhile digit) && validExp (r.dropWhile digit)
  | r => validExp r

/-- A numeral without a sign. -/
def validUnsigned (t : JsString) : Bool :=
  let ip := t.takeWhile digit
  validDigits ip && (ip == js "0" || ip.head? != some 48) && validFrac (t.dropWhile digit)

/-- A numeral of the JSON grammar. -/
def validNumeral : JsString → Bool
  | 45 :: t => validUnsigned t
  | t => validUnsigned t

/-! ### Strings -/

/-- The value of a hexadecimal digit, in either case. -/
def hexDigitValue (u : UInt16) : Option ℕ :=
  if 48 ≤ u.toNat ∧ u.toNat ≤ 57 then some (u.toNat - 48)
  else if 97 ≤ u.toNat ∧ u.toNat ≤ 102 then some (u.toNat - 87)
  else if 65 ≤ u.toNat ∧ u.toNat ≤ 70 then some (u.toNat - 55)
  else none

/-- The unit of `\uxxxx`. -/
def hexUnit (a b c d : UInt16) : Option UInt16 := do
  let a ← hexDigitValue a
  let b ← hexDigitValue b
  let c ← hexDigitValue c
  let d ← hexDigitValue d
  return (a * 4096 + b * 256 + c * 16 + d).toUInt16

/-- The unit of an escape of one character. -/
def escapedUnit (u : UInt16) : Option UInt16 :=
  if u = 34 ∨ u = 92 ∨ u = 47 then some u
  else if u = 98 then some 8
  else if u = 102 then some 12
  else if u = 110 then some 10
  else if u = 114 then some 13
  else if u = 116 then some 9
  else none

/-- A string after its opening quote, and what follows it. -/
def parseString : JsString → Option (JsString × JsString)
  | [] => none
  | 34 :: r => some ([], r)
  | 92 :: 117 :: a :: b :: c :: d :: r =>
    match hexUnit a b c d with
    | none => none
    | some v => (parseString r).map fun p => (v :: p.1, p.2)
  | 92 :: u :: r =>
    match escapedUnit u with
    | none => none
    | some v => (parseString r).map fun p => (v :: p.1, p.2)
  | u :: r => if u.toNat < 32 ∨ u = 92 then none else (parseString r).map fun p => (u :: p.1, p.2)

/-! ### Values -/

/-- White space of the JSON grammar. -/
def jsonSpace (u : UInt16) : Bool := u == 32 || u == 9 || u == 10 || u == 13

/-- Go past white space. -/
def skipSpace (s : JsString) : JsString := s.dropWhile jsonSpace

/-- One of the three words. -/
def parseWord : JsString → Option (Json × JsString)
  | 110 :: 117 :: 108 :: 108 :: r => some (.null, r)
  | 116 :: 114 :: 117 :: 101 :: r => some (.bool true, r)
  | 102 :: 97 :: 108 :: 115 :: 101 :: r => some (.bool false, r)
  | _ => none

section Parse

variable (N : Numerals)

/-- A number, and what follows it. -/
def parseNumber (s : JsString) : Option (Json × JsString) :=
  let t := s.takeWhile numeralUnit
  if validNumeral t then some (.num (N.value t), s.dropWhile numeralUnit) else none

mutual

/-- A value and what follows it; `fuel` bounds the depth. -/
def parseValue : ℕ → JsString → Option (Json × JsString)
  | 0, _ => none
  | fuel + 1, s =>
    match skipSpace s with
    | 34 :: r => (parseString r).map fun p => (.str p.1, p.2)
    | 91 :: r =>
      match skipSpace r with
      | 93 :: r' => some (.arr [], r')
      | r' => (parseItems fuel r').map fun p => (.arr p.1, p.2)
    | 123 :: r =>
      match skipSpace r with
      | 125 :: r' => some (.obj [], r')
      | r' => (parseMembers fuel r').map fun p => (.obj (Obj.spread [] p.1), p.2)
    | r => (parseWord r).or (parseNumber N r)

/-- The items of an array, and what follows its end. -/
def parseItems : ℕ → JsString → Option (List Json × JsString)
  | 0, _ => none
  | fuel + 1, s =>
    (parseValue fuel s).bind fun p =>
      match skipSpace p.2 with
      | 44 :: r => (parseItems fuel r).map fun q => (p.1 :: q.1, q.2)
      | 93 :: r => some ([p.1], r)
      | _ => none

/-- The members of an object, and what follows its end. -/
def parseMembers : ℕ → JsString → Option (List (JsString × Json) × JsString)
  | 0, _ => none
  | fuel + 1, s =>
    match skipSpace s with
    | 34 :: r =>
      (parseString r).bind fun k =>
        match skipSpace k.2 with
        | 58 :: r =>
          (parseValue fuel r).bind fun p =>
            match skipSpace p.2 with
            | 44 :: r => (parseMembers fuel r).map fun q => ((k.1, p.1) :: q.1, q.2)
            | 125 :: r => some ([(k.1, p.1)], r)
            | _ => none
        | _ => none
    | _ => none

end

/-- `JSON.parse(s)`. -/
def parse (s : JsString) : Option Json :=
  match parseValue N (s.length + 1) s with
  | some (v, r) => if (skipSpace r).isEmpty then some v else none
  | none => none

end Parse

/-! ### Reading strings back -/

theorem hexDigitValue_hexDigit {n : ℕ} (h : n < 16) : hexDigitValue (hexDigit n) = some n := by
  unfold hexDigit hexDigitValue
  split
  · rw [show ((48 + n).toUInt16).toNat = 48 + n by simp [Nat.toUInt16]; omega, if_pos (by omega)]
    congr 1
    omega
  · rw [show ((87 + n).toUInt16).toNat = 87 + n by simp [Nat.toUInt16]; omega, if_neg (by omega), if_pos (by omega)]
    congr 1
    omega

theorem parseString_unicodeEscape (u : UInt16) (r : JsString) :
    parseString (unicodeEscape u ++ r) = (parseString r).map fun p => (u :: p.1, p.2) := by
  have hu := u.toNat_lt
  have h : hexUnit (hexDigit (u.toNat / 4096)) (hexDigit (u.toNat / 256 % 16)) (hexDigit (u.toNat / 16 % 16))
      (hexDigit (u.toNat % 16)) = some u := by
    simp only [hexUnit, hexDigitValue_hexDigit (show u.toNat / 4096 < 16 by omega),
      hexDigitValue_hexDigit (show u.toNat / 256 % 16 < 16 by omega),
      hexDigitValue_hexDigit (show u.toNat / 16 % 16 < 16 by omega),
      hexDigitValue_hexDigit (show u.toNat % 16 < 16 by omega), Option.bind_eq_bind, Option.bind_some]
    rw [show u.toNat / 4096 * 4096 + u.toNat / 256 % 16 * 256 + u.toNat / 16 % 16 * 16 + u.toNat % 16 = u.toNat by omega]
    simp [Nat.toUInt16]
  simp only [unicodeEscape, List.cons_append, List.nil_append, parseString, h]

theorem parseString_plain {u : UInt16} (h1 : u ≠ 34) (h2 : u ≠ 92) (h3 : 32 ≤ u.toNat) (r : JsString) :
    parseString (u :: r) = (parseString r).map fun p => (u :: p.1, p.2) := by
  rw [parseString.eq_def]
  split
  · simp_all
  · simp_all
  · simp_all
  · simp_all
  · rename_i heq
    obtain ⟨rfl, rfl⟩ := List.cons.inj heq
    rw [if_neg]
    rintro (h | h)
    · omega
    · exact h2 h

theorem parseString_quoteUnit (u : UInt16) (r : JsString) :
    parseString (quoteUnit u ++ r) = (parseString r).map fun p => (u :: p.1, p.2) := by
  unfold quoteUnit
  split_ifs with h1 h2 h3 h4 h5 h6 h7 h8
  · rw [h1]; rfl
  · rw [h2]; rfl
  · rw [h3]; rfl
  · rw [h4]; rfl
  · rw [h5]; rfl
  · rw [h6]; rfl
  · rw [h7]; rfl
  · exact parseString_unicodeEscape u r
  · refine parseString_plain h6 h7 ?_ r
    simp only [Bool.or_eq_true, decide_eq_true_eq, not_or] at h8
    omega

theorem toNat_of_surrogate {u : UInt16} (h : isHigh u = true ∨ isLow u = true) : 32 ≤ u.toNat := by
  simp only [isHigh, isLow, Bool.and_eq_true, decide_eq_true_eq] at h
  omega

/-- **A quoted string is read back.** -/
theorem parseString_quoteBody (s r : JsString) : parseString (quoteBody s ++ 34 :: r) = some (s, r) := by
  induction s using quoteBody.induct with
  | case1 => simp [quoteBody, parseString]
  | case2 u =>
    rw [quoteBody, parseString_quoteUnit]
    simp [parseString]
  | case3 u v rest h ih =>
    rw [Bool.and_eq_true] at h
    have hu := not_special_of_surrogate (.inl h.1)
    have hv := not_special_of_surrogate (.inr h.2)
    simp only [quoteBody, h.1, h.2, Bool.and_self, if_true, List.cons_append]
    rw [parseString_plain hu.1 hu.2 (toNat_of_surrogate (.inl h.1)),
      parseString_plain hv.1 hv.2 (toNat_of_surrogate (.inr h.2)), ih]
    rfl
  | case4 u v rest h ih =>
    simp only [quoteBody, h, Bool.false_eq_true, if_false, List.append_assoc]
    rw [parseString_quoteUnit, ih]
    rfl

theorem parseString_escape {u v : UInt16} (h : escapedUnit u = some v) (r : JsString) :
    parseString (92 :: u :: r) = (parseString r).map fun p => (v :: p.1, p.2) := by
  have hu : u ≠ 117 := by
    rintro rfl
    cases h
  rw [parseString.eq_4 u r fun a b c d r' hu' _ => hu hu', h]

/-- A string ends at its closing quote, whatever follows. -/
theorem parseString_append {s t r : JsString} (h : parseString s = some (t, r)) (q : JsString) :
    parseString (s ++ q) = some (t, r ++ q) := by
  fun_induction parseString s generalizing t r with
  | case1 => cases h
  | case2 r' =>
    cases h
    rfl
  | case3 => cases h
  | case4 a b c d r' v hv ih =>
    obtain ⟨⟨t', r''⟩, hp, heq⟩ := Option.map_eq_some_iff.mp h
    cases heq
    simp only [List.cons_append, parseString, hv, ih hp, Option.map_some]
  | case5 => cases h
  | case6 u r' hr' v hv ih =>
    obtain ⟨⟨t', r''⟩, hp, heq⟩ := Option.map_eq_some_iff.mp h
    cases heq
    rw [List.cons_append, List.cons_append, parseString_escape hv, ih hp]
    rfl
  | case7 => cases h
  | case8 u r' h1 h2 h3 h4 ih =>
    obtain ⟨⟨t', r''⟩, hp, heq⟩ := Option.map_eq_some_iff.mp h
    cases heq
    rw [not_or] at h4
    rw [List.cons_append, parseString_plain (fun hu => h1 hu) h4.2 (by omega), ih hp]
    rfl

/-! ### Reading numbers back -/

section Numeral

variable {ip r t : JsString}

theorem digit_of_isDigit (h : ∀ u ∈ ip, IsDigit u) : ∀ u ∈ ip, digit u = true := fun u hu => decide_eq_true (h u hu)

theorem validDigits_of (hne : ip ≠ []) (h : ∀ u ∈ ip, IsDigit u) : validDigits ip = true := by
  rw [validDigits, Bool.and_eq_true, List.all_eq_true]
  exact ⟨by simpa using hne, digit_of_isDigit h⟩

/-- A run of digits ends where another unit stands. -/
theorem span_digits (h : ∀ u ∈ ip, IsDigit u) (hr : ∀ u ∈ r.head?, ¬ IsDigit u) :
    (ip ++ r).takeWhile digit = ip ∧ (ip ++ r).dropWhile digit = r := by
  rw [List.takeWhile_append_of_pos (digit_of_isDigit h), List.dropWhile_append_of_pos (digit_of_isDigit h)]
  cases r with
  | nil => simp
  | cons u r =>
    have hu : ¬ digit u = true := by
      rw [digit, decide_eq_true_eq]
      exact hr u rfl
    rw [List.takeWhile_cons_of_neg hu, List.dropWhile_cons_of_neg hu, List.append_nil]
    exact ⟨rfl, rfl⟩

theorem validUnsigned_append (hne : ip ≠ []) (h : ∀ u ∈ ip, IsDigit u) (hzero : ip = js "0" ∨ ip.head? ≠ some 48)
    (hr : ∀ u ∈ r.head?, ¬ IsDigit u) (hfrac : validFrac r = true) : validUnsigned (ip ++ r) = true := by
  unfold validUnsigned
  dsimp only
  rw [(span_digits h hr).1, (span_digits h hr).2, validDigits_of hne h, hfrac]
  simpa using hzero

theorem validExp_expText (x : ℤ) : validExp (js "e" ++ expText x) = true := by
  have hdigits : validDigits (natToString x.natAbs) = true := by
    refine validDigits_of ?_ (isDigit_natToString _)
    unfold natToString
    split
    · decide
    · exact List.ne_nil_of_length_pos (digitsText_length_pos (by assumption))
  unfold expText
  split
  · exact hdigits
  · exact hdigits

theorem validFrac_point (hne : ip ≠ []) (h : ∀ u ∈ ip, IsDigit u) (hr : ∀ u ∈ r.head?, ¬ IsDigit u)
    (hexp : validExp r = true) : validFrac (js "." ++ ip ++ r) = true := by
  have heq : js "." ++ ip ++ r = 46 :: (ip ++ r) := rfl
  rw [heq, validFrac, (span_digits h hr).1, (span_digits h hr).2, validDigits_of hne h, hexp]
  rfl

/-- The digits of a number do not start with a zero. -/
theorem digitsText_head {n : ℕ} (h : n ≠ 0) : (digitsText n).head? ≠ some 48 := by
  have hne : Nat.digits 10 n ≠ [] := Nat.digits_ne_nil_iff_ne_zero.mpr h
  rw [digitsText, List.head?_map, List.head?_reverse, List.getLast?_eq_some_getLast hne, Option.map_some]
  intro heq
  have hlast := Nat.getLast_digit_ne_zero 10 h
  have hlt : (Nat.digits 10 n).getLast hne < 10 := Nat.digits_lt_base (by omega) (List.getLast_mem hne)
  have := congrArg UInt16.toNat (Option.some.inj heq)
  rw [toNat_digitUnit hlt] at this
  simp at this
  exact hlast this

theorem head?_take_ne {ds : JsString} {n : ℕ} (hn : 0 < n) (h : ds.head? ≠ some 48) : (ds.take n).head? ≠ some 48 := by
  rwa [List.head?_take, if_neg (by omega)]

/-- The text of a positive number is a numeral. -/
theorem validUnsigned_unsignedToString {s : ℕ} (hs : s ≠ 0) (e : ℤ) : validUnsigned (unsignedToString s e) = true := by
  have hd := isDigit_digitsText s
  have hlen := digitsText_length_pos hs
  have hne := List.ne_nil_of_length_pos hlen
  have hhead := digitsText_head hs
  have htake : ∀ n, ∀ u ∈ (digitsText s).take n, IsDigit u := fun n u hu => hd u (List.mem_of_mem_take hu)
  have hdrop : ∀ n, ∀ u ∈ (digitsText s).drop n, IsDigit u := fun n u hu => hd u (List.mem_of_mem_drop hu)
  have hpoint : ∀ (x : JsString), ∀ u ∈ (js "." ++ x).head?, ¬ IsDigit u := by
    intro x u hu
    cases hu
    decide
  have hexp : ∀ (x : JsString), ∀ u ∈ (js "e" ++ x).head?, ¬ IsDigit u := by
    intro x u hu
    cases hu
    decide
  unfold unsignedToString
  dsimp only
  split_ifs with h1 h2 h3 h4
  · have hall : ∀ u ∈ digitsText s ++ zeros (e + (digitsText s).length - (digitsText s).length).toNat, IsDigit u := by
      intro u hu
      rcases List.mem_append.mp hu with hu | hu
      · exact hd u hu
      · exact isDigit_zeros _ u hu
    have hnot : ∀ u ∈ ([] : JsString).head?, ¬ IsDigit u := by simp
    have hvalid := validUnsigned_append (List.append_ne_nil_of_left_ne_nil hne _) hall
      (.inr (by rwa [List.head?_append_of_ne_nil _ hne])) hnot rfl
    rwa [List.append_nil] at hvalid
  · have hpos : 0 < (e + (digitsText s).length).toNat := by omega
    rw [List.append_assoc, ← List.append_nil ((digitsText s).drop _), ← List.append_assoc (js ".")]
    refine validUnsigned_append ?_ (htake _) (.inr (head?_take_ne hpos hhead)) (hpoint _) ?_
    · exact List.ne_nil_of_length_pos (by rw [List.length_take]; omega)
    · refine validFrac_point (List.ne_nil_of_length_pos ?_) (hdrop _) (by simp) rfl
      rw [List.length_drop]
      omega
  · rw [show js "0." ++ zeros (-(e + (digitsText s).length)).toNat ++ digitsText s =
      js "0" ++ (js "." ++ (zeros (-(e + (digitsText s).length)).toNat ++ digitsText s) ++ []) by
        simp [js, encode, utf16]]
    refine validUnsigned_append (by decide) (fun u hu => ?_) (.inl rfl) (hpoint _) ?_
    · rw [List.mem_singleton.mp hu]
      decide
    · refine validFrac_point (List.append_ne_nil_of_right_ne_nil _ hne) (fun u hu => ?_) (by simp) rfl
      rcases List.mem_append.mp hu with hu | hu
      · exact isDigit_zeros _ u hu
      · exact hd u hu
  · rw [List.append_assoc]
    exact validUnsigned_append hne hd (.inr hhead) (hexp _) (validExp_expText _)
  · rw [List.append_assoc, List.append_assoc, List.append_assoc, ← List.append_assoc (js ".")]
    refine validUnsigned_append ?_ (htake _) (.inr (head?_take_ne Nat.one_pos hhead)) (hpoint _) ?_
    · exact List.ne_nil_of_length_pos (by rw [List.length_take]; omega)
    · refine validFrac_point (List.ne_nil_of_length_pos ?_) (hdrop _) (hexp _) (validExp_expText _)
      rw [List.length_drop]
      omega

theorem validDigits_units (h : validDigits t = true) : ∀ u ∈ t, numeralUnit u = true := by
  rw [validDigits, Bool.and_eq_true, List.all_eq_true] at h
  intro u hu
  have hdigit : IsDigit u := of_decide_eq_true (h.2 u hu)
  simp [numeralUnit, IsNumeral, hdigit]

theorem validExp_units (h : validExp t = true) : ∀ u ∈ t, numeralUnit u = true := by
  cases t with
  | nil => simp
  | cons v t =>
    unfold validExp at h
    rw [Bool.and_eq_true] at h
    obtain ⟨he, hdigits⟩ := h
    have hv : numeralUnit v = true := by
      simp only [Bool.or_eq_true, beq_iff_eq] at he
      rcases he with rfl | rfl <;> decide
    have hrest : ∀ u ∈ t, numeralUnit u = true := by
      split at hdigits
      · exact List.forall_mem_cons.mpr ⟨by decide, validDigits_units hdigits⟩
      · exact List.forall_mem_cons.mpr ⟨by decide, validDigits_units hdigits⟩
      · exact validDigits_units hdigits
    exact List.forall_mem_cons.mpr ⟨hv, hrest⟩

theorem validNumeral_numberToString (d : Decimal) : validNumeral (numberToString d) = true := by
  unfold numberToString
  split_ifs with h0 hneg
  · rfl
  · exact validUnsigned_unsignedToString h0 d.exp
  · obtain ⟨u, rest, hu, hdigit⟩ := unsignedToString_head h0 d.exp
    have hvalid := validUnsigned_unsignedToString h0 d.exp
    rw [List.nil_append, validNumeral.eq_def]
    split
    · rename_i heq
      rw [hu] at heq
      rw [(List.cons.inj heq).1] at hdigit
      exact absurd hdigit (by decide)
    · exact hvalid

end Numeral

/-! ### Numerals at their value -/

/-- The number `n · 10 ^ e`, negated or not. -/
def Decimal.ofParts (neg : Bool) (n : ℕ) (e : ℤ) : Decimal :=
  if h : n = 0 then ⟨false, 0, 0, Decimal.canonical_zero⟩
  else ⟨neg, (stripTens n n e).1, (stripTens n n e).2, by
    have := stripTens_spec n n e h le_rfl
    rw [if_neg this.1]
    exact this.2⟩

theorem stripTens_mul {s : ℕ} (hs : s % 10 ≠ 0) (z fuel : ℕ) (e : ℤ) (hf : s * 10 ^ z ≤ fuel) :
    stripTens fuel (s * 10 ^ z) (e - z) = (s, e) := by
  have hpos : 0 < s := by omega
  induction z generalizing fuel with
  | zero =>
    rw [pow_zero, mul_one, Nat.cast_zero, sub_zero]
    cases fuel with
    | zero => rfl
    | succ fuel => rw [stripTens, if_neg hs]
  | succ z ih =>
    have hlt : 0 < s * 10 ^ z := Nat.mul_pos hpos (by positivity)
    have hmul : s * 10 ^ (z + 1) = s * 10 ^ z * 10 := by rw [pow_succ, mul_assoc]
    obtain ⟨fuel, rfl⟩ : ∃ n, fuel = n + 1 := ⟨fuel - 1, by omega⟩
    rw [stripTens, if_pos (by omega), hmul, Nat.mul_div_cancel _ (by omega)]
    rw [show e - ((z + 1 : ℕ) : ℤ) + 1 = e - z by push_cast; omega]
    exact ih fuel (by omega)

/-- What a numeral denotes, without rounding. -/
def numeralValue (t : JsString) : Decimal :=
  let (neg, t) := match t with
    | 45 :: t => (true, t)
    | t => (false, t)
  let (n, e) := readUnsigned (t.map fun u => if u = 69 then 101 else u)
  Decimal.ofParts neg n e

theorem ofParts_readUnsigned {d : Decimal} (h : d.digits ≠ 0) :
    Decimal.ofParts d.neg (readUnsigned (unsignedToString d.digits d.exp)).1
      (readUnsigned (unsignedToString d.digits d.exp)).2 = d := by
  have hc := Decimal.canonical_ne h
  obtain ⟨z, hz⟩ := readUnsigned_unsignedToString h d.exp
  have hne : d.digits * 10 ^ z ≠ 0 := Nat.mul_ne_zero h (by positivity)
  rw [hz, Decimal.ofParts, dif_neg hne]
  have hstrip := stripTens_mul hc z (d.digits * 10 ^ z) d.exp le_rfl
  refine Decimal.ext rfl ?_ ?_
  · exact congrArg Prod.fst hstrip
  · exact congrArg Prod.snd hstrip

theorem map_numeral {t : JsString} (h : ∀ u ∈ t, IsNumeral u) : (t.map fun u => if u = 69 then 101 else u) = t := by
  refine (List.map_congr_left fun u hu => ?_).trans (List.map_id t)
  rw [if_neg]
  · rfl
  · rintro rfl
    exact absurd (h 69 hu) (by decide)

theorem numeralValue_numberToString (d : Decimal) : numeralValue (numberToString d) = d := by
  unfold numberToString
  split_ifs with h0 hneg
  · obtain ⟨h1, h2⟩ := Decimal.eq_zero h0
    exact Decimal.ext h1.symm h0.symm h2.symm
  · have hparts := ofParts_readUnsigned h0
    rw [hneg] at hparts
    rw [show js "-" ++ unsignedToString d.digits d.exp = 45 :: unsignedToString d.digits d.exp from rfl, numeralValue]
    dsimp only
    rw [map_numeral (isNumeral_unsignedToString _ _)]
    exact hparts
  · have hparts := ofParts_readUnsigned h0
    rw [show d.neg = false by simpa using hneg] at hparts
    obtain ⟨u, rest, hu, hdigit⟩ := unsignedToString_head h0 d.exp
    have hsign : ∀ t, unsignedToString d.digits d.exp ≠ 45 :: t := by
      intro t heq
      rw [hu] at heq
      rw [(List.cons.inj heq).1] at hdigit
      exact absurd hdigit (by decide)
    rw [List.nil_append, numeralValue]
    split
    · rename_i n e heq
      rw [map_numeral (isNumeral_unsignedToString _ _)] at heq
      rwa [heq] at hparts
    · exact hsign

/-- Numerals at their value. -/
def Numerals.exact : Numerals := ⟨numeralValue, numeralValue_numberToString⟩

/-! ### Integers -/

/-- An integer. -/
def Decimal.ofInt (n : ℤ) : Decimal := Decimal.ofParts (decide (n < 0)) n.natAbs 0

/-- A number as an integer, if it is one. -/
def intOf (d : Decimal) : Option ℤ :=
  if 0 ≤ d.exp then some ((if d.neg then -1 else 1) * (d.digits * 10 ^ d.exp.toNat : ℕ)) else none

theorem intOf_ofInt (n : ℤ) : intOf (Decimal.ofInt n) = some n := by
  unfold Decimal.ofInt Decimal.ofParts intOf
  split
  · rename_i h
    rw [Int.natAbs_eq_zero] at h
    simp [h]
  · rename_i h
    obtain ⟨hexp, hvalue⟩ := stripTens_value n.natAbs n.natAbs 0 le_rfl h
    simp only [hexp, if_true, hvalue, Int.toNat_zero, pow_zero, mul_one, decide_eq_true_eq]
    split <;> exact congrArg some (by omega)

/-- `String(n)`, for an integer. -/
def intText (n : ℤ) : JsString := numberToString (Decimal.ofInt n)

theorem intText_inj {m n : ℤ} (h : intText m = intText n) : m = n := by
  have hsame := congrArg intOf (numberToString_inj h)
  rwa [intOf_ofInt, intOf_ofInt, Option.some.injEq] at hsame

/-! ### Reading values back -/

/-- A value of the language: the members of an object are its properties, in their order. -/
inductive Json.Proper : Json → Prop
  | null : Proper .null
  | bool (b : Bool) : Proper (.bool b)
  | num (d : Decimal) : Proper (.num d)
  | str (s : JsString) : Proper (.str s)
  | arr {xs : List Json} (h : ∀ x ∈ xs, Proper x) : Proper (.arr xs)
  | obj {o : Obj Json} (hown : Obj.spread [] o = o) (h : ∀ e ∈ o, Proper e.2) : Proper (.obj o)

/-- New keys that are no array indices keep their order. -/
theorem spread_plain (o acc : Obj Json) (hnd : (acc ++ o).keys.Nodup) (hplain : ∀ k ∈ o.keys, arrayIndex k = none) :
    Obj.spread acc o = acc ++ o := by
  induction o generalizing acc with
  | nil => simp [Obj.spread]
  | cons e o ih =>
    have hnew : ¬ (acc.any fun e' => e'.1 == e.1) = true := by
      rw [Obj.mem_keys_iff_any]
      simp only [Obj.keys, List.map_append, List.map_cons, List.nodup_append, List.mem_cons] at hnd
      exact fun h => hnd.2.2 e.1 h e.1 (.inl rfl) rfl
    have hset : Obj.setOwn acc e.1 e.2 = acc ++ [e] := by
      rw [Obj.setOwn, if_neg hnew, Obj.insertNew_plain (hplain e.1 List.mem_cons_self)]
    change Obj.spread (Obj.setOwn acc e.1 e.2) o = _
    rw [hset, ih _ (by simpa using hnd) fun k hk => hplain k (List.mem_cons_of_mem _ hk)]
    simp

/-- An object whose keys differ and are no array indices. -/
theorem Json.Proper.plain {o : Obj Json} (hnd : o.keys.Nodup) (hplain : ∀ k ∈ o.keys, arrayIndex k = none)
    (h : ∀ e ∈ o, e.2.Proper) : (Json.obj o).Proper :=
  .obj (spread_plain o [] hnd hplain) h

section RoundTrip

variable {N : Numerals} {a : Json} {r : JsString}

/-- A text of a value starts with none of the units that end or separate. -/
theorem stringify_head_plain (a : Json) :
    ∃ u t, stringify a = u :: t ∧ jsonSpace u = false ∧ u ≠ 93 ∧ u ≠ 125 := by
  cases a with
  | num d =>
    obtain ⟨u, t, hu, hn⟩ := numberToString_head d
    refine ⟨u, t, by rw [stringify, hu], ?_⟩
    rcases hn with h | rfl | rfl | rfl | rfl
    · refine ⟨?_, ?_, ?_⟩
      · simp only [jsonSpace, Bool.or_eq_false_iff, beq_eq_false_iff_ne]
        refine ⟨⟨⟨?_, ?_⟩, ?_⟩, ?_⟩ <;> rintro rfl <;> revert h <;> decide
      · rintro rfl
        exact absurd h (by decide)
      · rintro rfl
        exact absurd h (by decide)
    · decide
    · decide
    · decide
    · decide
  | null => exact ⟨110, _, rfl, by decide⟩
  | bool b =>
    cases b with
    | true => exact ⟨116, _, rfl, by decide⟩
    | false => exact ⟨102, _, rfl, by decide⟩
  | str s => exact ⟨34, _, rfl, by decide⟩
  | arr xs =>
    cases xs with
    | nil => exact ⟨91, _, rfl, by decide⟩
    | cons x xs => exact ⟨91, stringify x ++ stringifyItems xs, by simp [stringify, js, encode, utf16], by decide⟩
  | obj o =>
    cases o with
    | nil => exact ⟨123, _, rfl, by decide⟩
    | cons e o =>
      exact ⟨123, quote e.1 ++ js ":" ++ stringify e.2 ++ stringifyMembers o, by simp [stringify, js, encode, utf16],
        by decide⟩

theorem skipSpace_stringify (a : Json) (r : JsString) : skipSpace (stringify a ++ r) = stringify a ++ r := by
  obtain ⟨u, t, hu, hspace, -⟩ := stringify_head_plain a
  rw [hu, List.cons_append, skipSpace, List.dropWhile_cons_of_neg (by simp [hspace])]

theorem skipSpace_cons {u : UInt16} (h : jsonSpace u = false) (r : JsString) : skipSpace (u :: r) = u :: r := by
  rw [skipSpace, List.dropWhile_cons_of_neg (by simp [h])]

/-- What follows a value is no part of a number. -/
def Stops (r : JsString) : Prop := ∀ u ∈ r.head?, numeralUnit u = false

theorem Delimited.stops (h : Delimited r) : Stops r := by
  intro u hu
  rcases h u hu with rfl | rfl | rfl <;> decide

theorem parseNumber_numberToString (d : Decimal) (hr : Stops r) :
    parseNumber N (numberToString d ++ r) = some (.num d, r) := by
  have hunit : ∀ u ∈ numberToString d, numeralUnit u = true := by
    intro u hu
    rw [numeralUnit, decide_eq_true (isNumeral_numberToString d u hu)]
    rfl
  have hspan : (numberToString d ++ r).takeWhile numeralUnit = numberToString d ∧
      (numberToString d ++ r).dropWhile numeralUnit = r := by
    rw [List.takeWhile_append_of_pos hunit, List.dropWhile_append_of_pos hunit]
    cases r with
    | nil => simp
    | cons u r =>
      have hu : ¬ numeralUnit u = true := by simp [hr u rfl]
      rw [List.takeWhile_cons_of_neg hu, List.dropWhile_cons_of_neg hu, List.append_nil]
      exact ⟨rfl, rfl⟩
  rw [parseNumber, hspan.1, hspan.2, if_pos (validNumeral_numberToString d), N.value_numberToString]

theorem parseWord_numberToString (d : Decimal) : parseWord (numberToString d ++ r) = none := by
  obtain ⟨u, t, hu, hn⟩ := numberToString_head d
  rw [hu, List.cons_append, parseWord.eq_def]
  split
  · rename_i heq
    rw [(List.cons.inj heq).1] at hn
    exact absurd hn (by decide)
  · rename_i heq
    rw [(List.cons.inj heq).1] at hn
    exact absurd hn (by decide)
  · rename_i heq
    rw [(List.cons.inj heq).1] at hn
    exact absurd hn (by decide)
  · rfl

/-! The reader, by the first unit of the text. -/

theorem parseValue_other {s : JsString} {n : ℕ} {u : UInt16} {t : JsString} (hs : skipSpace s = u :: t) (h1 : u ≠ 34)
    (h2 : u ≠ 91) (h3 : u ≠ 123) : parseValue N (n + 1) s = (parseWord (u :: t)).or (parseNumber N (u :: t)) := by
  rw [parseValue, hs]
  split
  · rename_i heq
    exact absurd (List.cons.inj heq).1 h1
  · rename_i heq
    exact absurd (List.cons.inj heq).1 h2
  · rename_i heq
    exact absurd (List.cons.inj heq).1 h3
  · rfl

theorem parseValue_arr {s t : JsString} {n : ℕ} (hs : skipSpace s = 91 :: t) (ht : (skipSpace t).head? ≠ some 93) :
    parseValue N (n + 1) s = (parseItems N n (skipSpace t)).map fun p => (.arr p.1, p.2) := by
  rw [parseValue, hs]
  change (match skipSpace t with
    | 93 :: r' => some (Json.arr [], r')
    | r' => (parseItems N n r').map fun p : List Json × JsString => (Json.arr p.1, p.2)) = _
  split
  · rename_i heq
    rw [heq] at ht
    exact absurd rfl ht
  · rfl

theorem parseValue_obj {s t : JsString} {n : ℕ} (hs : skipSpace s = 123 :: t) (ht : (skipSpace t).head? ≠ some 125) :
    parseValue N (n + 1) s = (parseMembers N n (skipSpace t)).map fun p => (.obj (Obj.spread [] p.1), p.2) := by
  rw [parseValue, hs]
  change (match skipSpace t with
    | 125 :: r' => some (Json.obj [], r')
    | r' => (parseMembers N n r').map fun p : Obj Json × JsString => (Json.obj (Obj.spread [] p.1), p.2)) = _
  split
  · rename_i heq
    rw [heq] at ht
    exact absurd rfl ht
  · rfl

theorem parseValue_str {s t : JsString} {n : ℕ} (hs : skipSpace s = 34 :: t) :
    parseValue N (n + 1) s = (parseString t).map fun p => (.str p.1, p.2) := by
  rw [parseValue, hs]
  rfl

theorem parseValue_arr_nil {s t r : JsString} {n : ℕ} (hs : skipSpace s = 91 :: t) (ht : skipSpace t = 93 :: r) :
    parseValue N (n + 1) s = some (.arr [], r) := by
  have hinner : parseValue N (n + 1) s = (match skipSpace t with
      | 93 :: r' => some (Json.arr [], r')
      | r' => (parseItems N n r').map fun p : List Json × JsString => (Json.arr p.1, p.2)) := by
    rw [parseValue, hs]
    rfl
  rw [hinner, ht]
  rfl

theorem parseValue_obj_nil {s t r : JsString} {n : ℕ} (hs : skipSpace s = 123 :: t) (ht : skipSpace t = 125 :: r) :
    parseValue N (n + 1) s = some (.obj [], r) := by
  have hinner : parseValue N (n + 1) s = (match skipSpace t with
      | 125 :: r' => some (Json.obj [], r')
      | r' => (parseMembers N n r').map fun p : Obj Json × JsString => (Json.obj (Obj.spread [] p.1), p.2)) := by
    rw [parseValue, hs]
    rfl
  rw [hinner, ht]
  rfl

theorem parseItems_end {s t : JsString} {n : ℕ} {x : Json} (hx : parseValue N n s = some (x, 93 :: t)) :
    parseItems N (n + 1) s = some ([x], t) := by
  rw [parseItems, hx, Option.bind_some, skipSpace_cons (by decide)]
  rfl

theorem parseItems_comma {s t : JsString} {n : ℕ} {x : Json} (hx : parseValue N n s = some (x, 44 :: t)) :
    parseItems N (n + 1) s = (parseItems N n t).map fun q => (x :: q.1, q.2) := by
  rw [parseItems, hx, Option.bind_some, skipSpace_cons (by decide)]
  rfl

theorem parseMembers_quote (k t : JsString) (n : ℕ) :
    parseMembers N (n + 1) (quote k ++ js ":" ++ t) =
      (parseValue N n t).bind fun p =>
        match skipSpace p.2 with
        | 44 :: r => (parseMembers N n r).map fun q => ((k, p.1) :: q.1, q.2)
        | 125 :: r => some ([(k, p.1)], r)
        | _ => none := by
  have hquote : quote k ++ js ":" ++ t = 34 :: (quoteBody k ++ 34 :: (58 :: t)) := by
    simp [quote, js, encode, utf16]
  rw [hquote, parseMembers, skipSpace_cons (by decide)]
  change ((parseString (quoteBody k ++ 34 :: (58 :: t))).bind fun k => _) = _
  rw [parseString_quoteBody, Option.bind_some, skipSpace_cons (by decide)]
  rfl

theorem quote_head (k t : JsString) : (skipSpace (quote k ++ t)).head? ≠ some 125 ∧ skipSpace (quote k ++ t) = quote k ++ t := by
  rw [quote, List.cons_append, skipSpace_cons (by decide)]
  exact ⟨fun h => absurd (Option.some.inj h) (by decide), rfl⟩

mutual

/-- **What was written is read back**, and what follows it with it. -/
theorem parseValue_stringify (a : Json) (ha : a.Proper) (n : ℕ) (hn : (stringify a).length < n) (r : JsString)
    (hr : Delimited r) : parseValue N n (stringify a ++ r) = some (a, r) := by
  obtain ⟨n, rfl⟩ : ∃ m, n = m + 1 := ⟨n - 1, by omega⟩
  have hspace := skipSpace_stringify a r
  match a, ha with
  | .null, _ => rfl
  | .bool true, _ => rfl
  | .bool false, _ => rfl
  | .num d, _ =>
    obtain ⟨u, t, hu, hnum⟩ := numberToString_head d
    rw [stringify, hu, List.cons_append] at hspace
    have hother : ∀ v : UInt16, ¬ IsNumeral v → u ≠ v := fun v hv h => hv (h ▸ hnum)
    have hvalue : parseValue N (n + 1) (u :: (t ++ r)) = _ :=
      parseValue_other hspace (hother 34 (by decide)) (hother 91 (by decide)) (hother 123 (by decide))
    rw [stringify, hu, List.cons_append, hvalue, ← List.cons_append, ← hu, parseWord_numberToString,
      parseNumber_numberToString d hr.stops]
    rfl
  | .str s, _ =>
    rw [parseValue, hspace, stringify, quote]
    simp only [List.cons_append, List.append_assoc, List.nil_append]
    rw [parseString_quoteBody]
    rfl
  | .arr [], _ => rfl
  | .arr (x :: xs), .arr h =>
    have htext : stringify (.arr (x :: xs)) ++ r = 91 :: (stringify x ++ (stringifyItems xs ++ r)) := by
      simp [stringify, js, encode, utf16]
    have hhead : (skipSpace (stringify x ++ (stringifyItems xs ++ r))).head? ≠ some 93 := by
      obtain ⟨u, t, hu, -, hne, -⟩ := stringify_head_plain x
      rw [skipSpace_stringify, hu]
      exact fun heq => hne (Option.some.inj heq)
    rw [htext] at hspace ⊢
    rw [parseValue_arr hspace hhead, skipSpace_stringify, parseItems_stringify x xs h n ?_ r]
    · rfl
    · have := congrArg List.length htext
      simp only [List.length_append, List.length_cons] at this
      omega
  | .obj [], _ => rfl
  | .obj ((k, x) :: o), .obj hown h =>
    have htext : stringify (.obj ((k, x) :: o)) ++ r = 123 :: (quote k ++ js ":" ++ (stringify x ++ (stringifyMembers o ++ r))) := by
      simp [stringify, js, encode, utf16]
    rw [htext] at hspace ⊢
    have hquote := quote_head k (js ":" ++ (stringify x ++ (stringifyMembers o ++ r)))
    rw [← List.append_assoc] at hquote
    rw [parseValue_obj hspace hquote.1, hquote.2, parseMembers_stringify k x o h n ?_ r, Option.map_some, hown]
    have := congrArg List.length htext
    simp only [List.length_append, List.length_cons] at this ⊢
    omega
termination_by n

theorem parseItems_stringify (x : Json) (xs : List Json) (h : ∀ y ∈ x :: xs, y.Proper) (n : ℕ)
    (hn : (stringify x).length + (stringifyItems xs).length < n) (r : JsString) :
    parseItems N n (stringify x ++ (stringifyItems xs ++ r)) = some (x :: xs, r) := by
  obtain ⟨n, rfl⟩ : ∃ m, n = m + 1 := ⟨n - 1, by omega⟩
  match xs with
  | [] =>
    have hlen : (stringifyItems []).length = 1 := rfl
    exact parseItems_end (parseValue_stringify x (h x (by simp)) n (by omega) _ (delimited_items [] r))
  | y :: ys =>
    have htext : stringifyItems (y :: ys) ++ r = 44 :: (stringify y ++ (stringifyItems ys ++ r)) := by
      simp [stringifyItems, js, encode, utf16]
    have hlen : (stringifyItems (y :: ys)).length = 1 + (stringify y).length + (stringifyItems ys).length := by
      simp [stringifyItems, js, encode, utf16]
      omega
    have hx := parseValue_stringify x (h x (by simp)) n (by omega) _ (delimited_items (y :: ys) r)
    rw [htext] at hx ⊢
    rw [parseItems_comma hx, parseItems_stringify y ys (fun z hz => h z (List.mem_cons_of_mem _ hz)) n (by omega) r]
    rfl
termination_by n

theorem parseMembers_stringify (k : JsString) (x : Json) (o : List (JsString × Json)) (h : ∀ e ∈ (k, x) :: o, e.2.Proper)
    (n : ℕ) (hn : (quote k ++ js ":").length + (stringify x).length + (stringifyMembers o).length < n) (r : JsString) :
    parseMembers N n (quote k ++ js ":" ++ (stringify x ++ (stringifyMembers o ++ r))) = some ((k, x) :: o, r) := by
  obtain ⟨n, rfl⟩ : ∃ m, n = m + 1 := ⟨n - 1, by omega⟩
  rw [parseMembers_quote]
  match o with
  | [] =>
    have hlen : (stringifyMembers []).length = 1 := rfl
    rw [parseValue_stringify x (h (k, x) (by simp)) n (by omega) _ (delimited_members [] r)]
    rfl
  | (k', y) :: o =>
    have htext : stringifyMembers ((k', y) :: o) ++ r =
        44 :: (quote k' ++ js ":" ++ (stringify y ++ (stringifyMembers o ++ r))) := by
      simp [stringifyMembers, js, encode, utf16]
    have hlen : (stringifyMembers ((k', y) :: o)).length =
        1 + (quote k' ++ js ":").length + (stringify y).length + (stringifyMembers o).length := by
      simp [stringifyMembers, js, encode, utf16]
      omega
    rw [parseValue_stringify x (h (k, x) (by simp)) n (by omega) _ (delimited_members _ r), htext, Option.bind_some,
      skipSpace_cons (by decide)]
    have hrest := parseMembers_stringify k' y o (fun e he => h e (List.mem_cons_of_mem _ he)) n (by omega) r
    change (parseMembers N n (quote k' ++ js ":" ++ (stringify y ++ (stringifyMembers o ++ r)))).map _ = _
    rw [hrest]
    rfl
termination_by n

end

theorem parse_stringify (ha : a.Proper) : parse N (stringify a) = some a := by
  have hdelimited : Delimited [] := by simp [Delimited]
  have h : parseValue N ((stringify a).length + 1) (stringify a ++ []) = some (a, []) :=
    parseValue_stringify a ha _ (Nat.lt_succ_self _) [] hdelimited
  rw [List.append_nil] at h
  rw [parse, h]
  rfl

end RoundTrip

/-! ### What follows a value -/

section Append

variable {N : Numerals} {s t r q : JsString}

theorem skipSpace_append (h : skipSpace s ≠ []) (q : JsString) : skipSpace (s ++ q) = skipSpace s ++ q := by
  induction s with
  | nil => exact absurd rfl h
  | cons u s ih =>
    unfold skipSpace at h ih ⊢
    rw [List.cons_append, List.dropWhile_cons, List.dropWhile_cons] at *
    split
    · rename_i hu
      rw [if_pos hu] at h
      exact ih h
    · rfl

theorem parseWord_append {v : Json} (h : parseWord s = some (v, r)) (q : JsString) :
    parseWord (s ++ q) = some (v, r ++ q) := by
  unfold parseWord at h
  split at h
  · cases h
    rfl
  · cases h
    rfl
  · cases h
    rfl
  · cases h

/-- A number starts with a unit of a numeral. -/
theorem parseNumber_cons {v : Json} {u : UInt16} (h : parseNumber N (u :: t) = some (v, r)) : numeralUnit u = true := by
  by_contra hu
  rw [parseNumber, List.takeWhile_cons_of_neg hu] at h
  cases h

theorem parseWord_of_numeral {u : UInt16} (hu : numeralUnit u = true) (t : JsString) : parseWord (u :: t) = none := by
  rw [parseWord.eq_def]
  split
  · rename_i heq
    rw [(List.cons.inj heq).1] at hu
    exact absurd hu (by decide)
  · rename_i heq
    rw [(List.cons.inj heq).1] at hu
    exact absurd hu (by decide)
  · rename_i heq
    rw [(List.cons.inj heq).1] at hu
    exact absurd hu (by decide)
  · rfl

theorem parseNumber_append {v : Json} (h : parseNumber N s = some (v, r)) (hr : r ≠ []) (q : JsString) :
    parseNumber N (s ++ q) = some (v, r ++ q) := by
  rw [parseNumber] at h
  split at h
  · rename_i hvalid
    cases h
    have hspan : (s ++ q).takeWhile numeralUnit = s.takeWhile numeralUnit ∧
        (s ++ q).dropWhile numeralUnit = s.dropWhile numeralUnit ++ q := by
      obtain ⟨u, z, hz⟩ := List.exists_cons_of_ne_nil hr
      have hu : ¬ numeralUnit u = true := by
        have := List.head?_dropWhile_not numeralUnit s
        rw [hz] at this
        simpa using this
      have hs : s = s.takeWhile numeralUnit ++ u :: z := by rw [← hz, List.takeWhile_append_dropWhile]
      have hall : ∀ v ∈ s.takeWhile numeralUnit, numeralUnit v = true := fun v hv => List.mem_takeWhile_imp hv
      rw [hz]
      generalize s.takeWhile numeralUnit = x at hs hall
      subst hs
      rw [List.append_assoc, List.takeWhile_append_of_pos hall, List.dropWhile_append_of_pos hall, List.cons_append,
        List.takeWhile_cons_of_neg hu, List.dropWhile_cons_of_neg hu, List.append_nil]
      exact ⟨rfl, rfl⟩
    rw [parseNumber, hspan.1, hspan.2, if_pos hvalid]
  · cases h

theorem parseValue_nil (n : ℕ) : parseValue N n [] = none := by
  cases n with
  | zero => rfl
  | succ n => rfl

theorem parseItems_nil (n : ℕ) : parseItems N n [] = none := by
  cases n with
  | zero => rfl
  | succ n => rw [parseItems, parseValue_nil]; rfl

theorem parseMembers_nil (n : ℕ) : parseMembers N n [] = none := by
  cases n with
  | zero => rfl
  | succ n => rfl

/-- The value is a number, which could go on. -/
def Json.isNum : Json → Bool
  | .num _ => true
  | _ => false

mutual

/-- **A value is read the same, whatever follows**, and with any larger fuel. Only a number at the end
of the text could go on. -/
theorem parseValue_append {n m : ℕ} {s r q : JsString} (hm : n ≤ m) {v : Json} (h : parseValue N n s = some (v, r))
    (hq : q = [] ∨ r ≠ [] ∨ v.isNum = false) : parseValue N m (s ++ q) = some (v, r ++ q) := by
  match n with
  | 0 => cases h
  | n + 1 =>
    obtain ⟨m, rfl⟩ : ∃ k, m = k + 1 := ⟨m - 1, by omega⟩
    have hne : skipSpace s ≠ [] := by
      intro hnil
      rw [parseValue, hnil] at h
      cases h
    have hskip := skipSpace_append hne q
    obtain ⟨u, t, ht⟩ := List.exists_cons_of_ne_nil hne
    rw [ht, List.cons_append] at hskip
    by_cases h34 : u = 34
    · subst h34
      rw [parseValue_str ht] at h
      obtain ⟨p, hp, heq⟩ := Option.map_eq_some_iff.mp h
      cases heq
      rw [parseValue_str hskip, parseString_append hp]
      rfl
    by_cases h91 : u = 91
    · subst h91
      by_cases hend : (skipSpace t).head? = some 93
      · obtain ⟨r', hr'⟩ := List.head?_eq_some_iff.mp hend
        rw [parseValue_arr_nil ht hr'] at h
        cases h
        refine parseValue_arr_nil hskip ?_
        rw [skipSpace_append (by rw [hr']; simp), hr', List.cons_append]
      · rw [parseValue_arr ht hend] at h
        obtain ⟨p, hp, heq⟩ := Option.map_eq_some_iff.mp h
        cases heq
        have hne' : skipSpace t ≠ [] := by
          intro hnil
          rw [hnil, parseItems_nil] at hp
          cases hp
        have hskip' := skipSpace_append hne' q
        have hhead : (skipSpace (t ++ q)).head? ≠ some 93 := by rwa [hskip', List.head?_append_of_ne_nil _ hne']
        rw [parseValue_arr hskip hhead, hskip', parseItems_append (show n ≤ m by omega) hp q]
        rfl
    by_cases h123 : u = 123
    · subst h123
      by_cases hend : (skipSpace t).head? = some 125
      · obtain ⟨r', hr'⟩ := List.head?_eq_some_iff.mp hend
        rw [parseValue_obj_nil ht hr'] at h
        cases h
        refine parseValue_obj_nil hskip ?_
        rw [skipSpace_append (by rw [hr']; simp), hr', List.cons_append]
      · rw [parseValue_obj ht hend] at h
        obtain ⟨p, hp, heq⟩ := Option.map_eq_some_iff.mp h
        cases heq
        have hne' : skipSpace t ≠ [] := by
          intro hnil
          rw [hnil, parseMembers_nil] at hp
          cases hp
        have hskip' := skipSpace_append hne' q
        have hhead : (skipSpace (t ++ q)).head? ≠ some 125 := by rwa [hskip', List.head?_append_of_ne_nil _ hne']
        rw [parseValue_obj hskip hhead, hskip', parseMembers_append (show n ≤ m by omega) hp q]
        rfl
    · rw [parseValue_other ht h34 h91 h123] at h
      rw [parseValue_other hskip h34 h91 h123]
      rcases Option.or_eq_some_iff.mp h with hword | ⟨hnone, hnumber⟩
      · rw [← List.cons_append, parseWord_append hword]
        rfl
      · have hu := parseNumber_cons hnumber
        rw [parseWord_of_numeral hu]
        have hnum : v.isNum = true := by
          rw [parseNumber] at hnumber
          split at hnumber
          · cases hnumber
            rfl
          · cases hnumber
        rcases hq with rfl | hr | hv
        · rw [List.append_nil, List.append_nil, hnumber]
          rfl
        · rw [← List.cons_append, parseNumber_append hnumber hr]
          rfl
        · rw [hnum] at hv
          cases hv
termination_by n

theorem parseItems_append {n m : ℕ} {s r : JsString} (hm : n ≤ m) {xs : List Json} (h : parseItems N n s = some (xs, r))
    (q : JsString) :
    parseItems N m (s ++ q) = some (xs, r ++ q) := by
  match n with
  | 0 => cases h
  | n + 1 =>
    obtain ⟨m, rfl⟩ : ∃ k, m = k + 1 := ⟨m - 1, by omega⟩
    rw [parseItems] at h
    obtain ⟨⟨x, r₁⟩, hx, h⟩ := Option.bind_eq_some_iff.mp h
    have hne : skipSpace r₁ ≠ [] := by
      intro hnil
      simp only [hnil] at h
      cases h
    have hr₁ : r₁ ≠ [] := by
      rintro rfl
      exact hne rfl
    have hx' := parseValue_append (q := q) (show n ≤ m by omega) hx (.inr (.inl hr₁))
    rw [parseItems, hx', Option.bind_some, skipSpace_append hne]
    dsimp only at h ⊢
    split at h
    · rename_i t ht
      obtain ⟨p, hp, heq⟩ := Option.map_eq_some_iff.mp h
      cases heq
      rw [ht, List.cons_append]
      change (parseItems N m (t ++ q)).map _ = _
      rw [parseItems_append (show n ≤ m by omega) hp q]
      rfl
    · rename_i t ht
      cases h
      rw [ht]
      rfl
    · cases h
termination_by n

theorem parseMembers_append {n m : ℕ} {s r : JsString} (hm : n ≤ m) {o : Obj Json} (h : parseMembers N n s = some (o, r))
    (q : JsString) :
    parseMembers N m (s ++ q) = some (o, r ++ q) := by
  match n with
  | 0 => cases h
  | n + 1 =>
    obtain ⟨m, rfl⟩ : ∃ k, m = k + 1 := ⟨m - 1, by omega⟩
    rw [parseMembers] at h
    split at h
    · rename_i t ht
      obtain ⟨⟨k, r₀⟩, hk, h⟩ := Option.bind_eq_some_iff.mp h
      dsimp only at h
      split at h
      · rename_i t' ht'
        obtain ⟨⟨x, r₁⟩, hx, h⟩ := Option.bind_eq_some_iff.mp h
        have hne : skipSpace r₁ ≠ [] := by
          intro hnil
          simp only [hnil] at h
          cases h
        have hr₁ : r₁ ≠ [] := by
          rintro rfl
          exact hne rfl
        have hx' := parseValue_append (q := q) (show n ≤ m by omega) hx (.inr (.inl hr₁))
        have hs : skipSpace (s ++ q) = 34 :: (t ++ q) := by rw [skipSpace_append (by rw [ht]; simp), ht, List.cons_append]
        have hr₀ : skipSpace (r₀ ++ q) = 58 :: (t' ++ q) := by
          rw [skipSpace_append (by rw [ht']; simp), ht', List.cons_append]
        rw [parseMembers, hs]
        change (parseString (t ++ q)).bind _ = _
        rw [parseString_append hk, Option.bind_some]
        dsimp only
        rw [hr₀]
        change (parseValue N m (t' ++ q)).bind _ = _
        rw [hx', Option.bind_some, skipSpace_append hne]
        dsimp only at h ⊢
        split at h
        · rename_i t₂ ht₂
          obtain ⟨p, hp, heq⟩ := Option.map_eq_some_iff.mp h
          cases heq
          rw [ht₂, List.cons_append]
          change (parseMembers N m (t₂ ++ q)).map _ = _
          rw [parseMembers_append (show n ≤ m by omega) hp q]
          rfl
        · rename_i t₂ ht₂
          cases h
          rw [ht₂]
          rfl
        · cases h
      · cases h
    · cases h
termination_by n

end

theorem parseValue_brace {n : ℕ} {v : Json} (hs : skipSpace s = 123 :: t) (h : parseValue N (n + 1) s = some (v, r)) :
    v.isNum = false := by
  by_cases hend : (skipSpace t).head? = some 125
  · obtain ⟨r', hr'⟩ := List.head?_eq_some_iff.mp hend
    rw [parseValue_obj_nil hs hr'] at h
    cases h
    rfl
  · rw [parseValue_obj hs hend] at h
    obtain ⟨p, -, heq⟩ := Option.map_eq_some_iff.mp h
    cases heq
    rfl

/-- A proper prefix of the text of an object is no JSON text. -/
theorem parse_truncated {o : Obj Json} (ho : (Json.obj o).Proper) (h : stringify (.obj o) = s ++ q) (hq : q ≠ []) :
    parse N s = none := by
  cases hs : parse N s with
  | none => rfl
  | some v =>
    exfalso
    rw [parse] at hs
    split at hs
    · rename_i v' r hvalue
      split at hs
      · rename_i hr
        have hwhole : parseValue N ((stringify (.obj o)).length + 1) (stringify (.obj o) ++ []) = some (.obj o, []) :=
          parseValue_stringify _ ho _ (Nat.lt_succ_self _) [] (by simp [Delimited])
        have hnum : v'.isNum = false := by
          cases s with
          | nil =>
            rw [parseValue_nil] at hvalue
            cases hvalue
          | cons u s' =>
            have hu : u = 123 := by
              obtain ⟨t, ht⟩ : ∃ t, stringify (.obj o) = 123 :: t := by
                cases o with
                | nil => exact ⟨_, rfl⟩
                | cons e o => exact ⟨quote e.1 ++ js ":" ++ stringify e.2 ++ stringifyMembers o, by
                    simp [stringify, js, encode, utf16]⟩
              rw [ht, List.cons_append] at h
              exact (List.cons.inj h).1.symm
            subst hu
            exact parseValue_brace (skipSpace_cons (by decide) s') hvalue
        have hext : parseValue N ((s ++ q).length + 1) (s ++ q) = some (v', r ++ q) :=
          parseValue_append (by rw [List.length_append]; omega) hvalue (.inr (.inr hnum))
        rw [List.append_nil, h, hext] at hwhole
        have := (Prod.mk.inj (Option.some.inj hwhole)).2
        exact hq (List.append_eq_nil_iff.mp this).2
      · cases hs
    · cases hs

end Append

end Wanfw.Js
