import Wanfw.Js.Strings

/-!
# JavaScript numbers

A finite number is kept as the decimal its text is made from: the language
writes a number with the fewest digits that still denote it
(`Number::toString`), so the digits and the exponent of that decimal determine
the number, and the text is a function of them. `Decimal` is such a decimal,
without trailing zeros, ordered by value; `0` and `-0` are the same.

`numberToString` follows the cases of `Number::toString`: plain digits up to
`10 ^ 21`, a decimal point within the digits, leading zeros down to `10 ^ -7`,
and the exponent form beyond. Different numbers have different texts
(`numberToString_inj`), over the characters of a numeral.
-/

namespace Wanfw.Js

/-! ### Digits -/

/-- The unit of a decimal digit. -/
def digitUnit (d : ℕ) : UInt16 := (48 + d).toUInt16

/-- The decimal digits of a natural number, most significant first. -/
def digitsText (n : ℕ) : JsString := (Nat.digits 10 n).reverse.map digitUnit

/-- The text of a natural number. -/
def natToString (n : ℕ) : JsString := if n = 0 then js "0" else digitsText n

/-- The number that a run of digits denotes. -/
def digitsValue (t : JsString) : ℕ := t.foldl (fun a u => 10 * a + (u.toNat - 48)) 0

theorem toNat_digitUnit {d : ℕ} (h : d < 10) : (digitUnit d).toNat = 48 + d := by
  simp [digitUnit, Nat.toUInt16]
  omega

/-- A decimal digit. -/
def IsDigit (u : UInt16) : Prop := 48 ≤ u.toNat ∧ u.toNat ≤ 57

theorem isDigit_digitsText (n : ℕ) : ∀ u ∈ digitsText n, IsDigit u := by
  intro u hu
  simp only [digitsText, List.map_reverse, List.mem_reverse, List.mem_map] at hu
  obtain ⟨d, hd, rfl⟩ := hu
  have hlt := Nat.digits_lt_base (by decide) hd
  unfold IsDigit
  rw [toNat_digitUnit hlt]
  omega

theorem digitsText_length_pos {n : ℕ} (h : n ≠ 0) : 0 < (digitsText n).length := by
  simpa [digitsText, List.length_pos_iff] using Nat.digits_ne_nil_iff_ne_zero.mpr h

theorem foldl_digits (ds : List ℕ) (h : ∀ d ∈ ds, d < 10) (a : ℕ) :
    (ds.map digitUnit).foldl (fun a u => 10 * a + (u.toNat - 48)) a = ds.foldl (fun a d => 10 * a + d) a := by
  induction ds generalizing a with
  | nil => rfl
  | cons d ds ih =>
    simp only [List.map_cons, List.foldl_cons]
    rw [toNat_digitUnit (h d (by simp)), Nat.add_sub_cancel_left]
    exact ih (fun x hx => h x (by simp [hx])) _

theorem digitsValue_digitsText (n : ℕ) : digitsValue (digitsText n) = n := by
  unfold digitsValue digitsText
  rw [foldl_digits _ (fun d hd => Nat.digits_lt_base (by decide) (List.mem_reverse.mp hd)), List.foldl_reverse]
  conv_rhs => rw [← Nat.ofDigits_digits 10 n]
  rw [Nat.ofDigits_eq_foldr]
  congr 1
  funext x y
  simp [Nat.add_comm]

theorem digitsValue_append_zeros (t : JsString) (z : ℕ) :
    digitsValue (t ++ List.replicate z 48) = digitsValue t * 10 ^ z := by
  induction z with
  | zero => simp
  | succ z ih =>
    rw [List.replicate_succ', ← List.append_assoc, digitsValue, List.foldl_append, ← digitsValue, ih]
    simp only [List.foldl_cons, List.foldl_nil]
    rw [show (48 : UInt16).toNat = 48 from rfl, pow_succ]
    ring

theorem digitsValue_zeros_append (z : ℕ) (t : JsString) : digitsValue (List.replicate z 48 ++ t) = digitsValue t := by
  unfold digitsValue
  rw [List.foldl_append]
  congr 1
  induction z with
  | zero => rfl
  | succ z ih => simpa [List.replicate_succ] using ih

/-! ### Decimals -/

/-- A finite number `± digits · 10 ^ exp`, without trailing zeros. -/
@[ext]
structure Decimal where
  /-- The sign. -/
  neg : Bool
  /-- The digits, as a natural number. -/
  digits : ℕ
  /-- The power of ten. -/
  exp : ℤ
  canonical : if digits = 0 then neg = false ∧ exp = 0 else digits % 10 ≠ 0
  deriving DecidableEq

/-- The trailing zeros of `n · 10 ^ e`, moved into the exponent; at most `fuel` of them. -/
def stripTens : ℕ → ℕ → ℤ → ℕ × ℤ
  | 0, n, e => (n, e)
  | fuel + 1, n, e => if n % 10 = 0 then stripTens fuel (n / 10) (e + 1) else (n, e)

theorem stripTens_spec (fuel n : ℕ) (e : ℤ) (hn : n ≠ 0) (hf : n ≤ fuel) :
    (stripTens fuel n e).1 ≠ 0 ∧ (stripTens fuel n e).1 % 10 ≠ 0 := by
  induction fuel generalizing n e with
  | zero => omega
  | succ fuel ih =>
    unfold stripTens
    split
    · exact ih (n / 10) (e + 1) (by omega) (by omega)
    · exact ⟨hn, by assumption⟩

theorem Decimal.canonical_zero : if (0 : ℕ) = 0 then false = false ∧ (0 : ℤ) = 0 else 0 % 10 ≠ 0 := by simp

/-- A natural number. -/
def Decimal.ofNat (n : ℕ) : Decimal :=
  if h : n = 0 then ⟨false, 0, 0, Decimal.canonical_zero⟩
  else ⟨false, (stripTens n n 0).1, (stripTens n n 0).2, by
    have := stripTens_spec n n 0 h le_rfl
    rw [if_neg this.1]
    exact this.2⟩

instance (n : ℕ) : OfNat Decimal n := ⟨Decimal.ofNat n⟩

/-- A number as a natural number, if it is one. -/
def natOf (d : Decimal) : Option ℕ := if d.neg = false ∧ 0 ≤ d.exp then some (d.digits * 10 ^ d.exp.toNat) else none

theorem stripTens_value (fuel n : ℕ) (e : ℤ) (he : 0 ≤ e) (hn : n ≠ 0) :
    0 ≤ (stripTens fuel n e).2 ∧ (stripTens fuel n e).1 * 10 ^ (stripTens fuel n e).2.toNat = n * 10 ^ e.toNat := by
  induction fuel generalizing n e with
  | zero => exact ⟨he, rfl⟩
  | succ fuel ih =>
    unfold stripTens
    split
    · rename_i h0
      obtain ⟨hexp, hvalue⟩ := ih (n / 10) (e + 1) (by omega) (by omega)
      refine ⟨hexp, hvalue.trans ?_⟩
      rw [show (e + 1).toNat = e.toNat + 1 by omega, pow_succ, mul_comm (10 ^ e.toNat) 10, ← mul_assoc,
        Nat.div_mul_cancel (Nat.dvd_of_mod_eq_zero h0)]
    · exact ⟨he, rfl⟩

theorem natOf_ofNat (n : ℕ) : natOf (Decimal.ofNat n) = some n := by
  unfold Decimal.ofNat natOf
  split
  · rename_i h
    simp [h]
  · rename_i h
    obtain ⟨hexp, hvalue⟩ := stripTens_value n n 0 le_rfl h
    simp only [hexp, and_self, if_true, hvalue]
    simp

/-- The value of a number. -/
def Decimal.toRat (d : Decimal) : ℚ := (if d.neg then -1 else 1) * d.digits * 10 ^ d.exp

theorem stripTens_toRat (fuel n : ℕ) (e : ℤ) :
    ((stripTens fuel n e).1 : ℚ) * 10 ^ (stripTens fuel n e).2 = n * 10 ^ e := by
  induction fuel generalizing n e with
  | zero => rfl
  | succ fuel ih =>
    unfold stripTens
    split
    · rename_i h0
      have hdiv : ((n / 10 : ℕ) : ℚ) * 10 = n := by exact_mod_cast Nat.div_mul_cancel (Nat.dvd_of_mod_eq_zero h0)
      rw [ih, zpow_add_one₀ (by norm_num), mul_left_comm, mul_comm (10 ^ e : ℚ), mul_comm _ (10 : ℚ), ← hdiv]
      ring
    · rfl

theorem Decimal.toRat_ofNat (n : ℕ) : (Decimal.ofNat n).toRat = n := by
  unfold Decimal.ofNat Decimal.toRat
  split
  · rename_i h
    simp [h]
  · have hvalue := stripTens_toRat n n 0
    simpa using hvalue

theorem mul_pow_ten_inj {s s' z z' : ℕ} (hs : s % 10 ≠ 0) (hs' : s' % 10 ≠ 0) (h : s * 10 ^ z = s' * 10 ^ z') :
    s = s' ∧ z = z' := by
  have key : ∀ {a b x y : ℕ}, a % 10 ≠ 0 → a * 10 ^ x = b * 10 ^ y → y ≤ x := by
    intro a b x y ha hab
    by_contra hlt
    obtain ⟨k, rfl⟩ : ∃ k, y = x + (k + 1) := ⟨y - x - 1, by omega⟩
    rw [pow_add, ← mul_assoc, mul_right_comm] at hab
    have := Nat.eq_of_mul_eq_mul_right (by positivity) hab
    rw [this, pow_succ, ← mul_assoc, Nat.mul_mod_left] at ha
    exact ha rfl
  have hz : z = z' := le_antisymm (key hs' h.symm) (key hs h)
  subst hz
  exact ⟨Nat.eq_of_mul_eq_mul_right (by positivity) h, rfl⟩

theorem mul_zpow_ten_inj {s s' : ℕ} {e e' : ℤ} (hs : s % 10 ≠ 0) (hs' : s' % 10 ≠ 0)
    (h : (s : ℚ) * 10 ^ e = s' * 10 ^ e') : s = s' ∧ e = e' := by
  obtain ⟨m, x, y, rfl, rfl⟩ : ∃ (m : ℤ) (x y : ℕ), e = m + x ∧ e' = m + y :=
    ⟨min e e', (e - min e e').toNat, (e' - min e e').toNat, by omega, by omega⟩
  have h10 : (10 : ℚ) ≠ 0 := by norm_num
  rw [zpow_add₀ h10, zpow_add₀ h10, mul_left_comm, mul_left_comm (s' : ℚ)] at h
  have h' := mul_left_cancel₀ (zpow_ne_zero m h10) h
  rw [zpow_natCast, zpow_natCast] at h'
  have hn : s * 10 ^ x = s' * 10 ^ y := by exact_mod_cast h'
  obtain ⟨rfl, rfl⟩ := mul_pow_ten_inj hs hs' hn
  exact ⟨rfl, rfl⟩

theorem Decimal.toRat_pos {d : Decimal} (h : d.digits ≠ 0) : (0 : ℚ) < d.digits * 10 ^ d.exp :=
  mul_pos (by exact_mod_cast Nat.pos_of_ne_zero h) (zpow_pos (by norm_num) _)

theorem Decimal.canonical_ne {d : Decimal} (h : d.digits ≠ 0) : d.digits % 10 ≠ 0 := by
  simpa [h] using d.canonical

theorem Decimal.eq_zero {d : Decimal} (h : d.digits = 0) : d.neg = false ∧ d.exp = 0 := by
  simpa [h] using d.canonical

/-- A number is determined by its value. -/
theorem Decimal.toRat_injective : Function.Injective Decimal.toRat := by
  intro a b h
  unfold Decimal.toRat at h
  rw [mul_assoc, mul_assoc] at h
  by_cases ha : a.digits = 0 <;> by_cases hb : b.digits = 0
  · obtain ⟨h1, h2⟩ := Decimal.eq_zero ha
    obtain ⟨h3, h4⟩ := Decimal.eq_zero hb
    exact Decimal.ext (h1.trans h3.symm) (ha.trans hb.symm) (h2.trans h4.symm)
  · have := Decimal.toRat_pos hb
    rw [ha] at h
    cases b.neg <;> simp at h <;> grind
  · have := Decimal.toRat_pos ha
    rw [hb] at h
    cases a.neg <;> simp at h <;> grind
  · have hpa := Decimal.toRat_pos ha
    have hpb := Decimal.toRat_pos hb
    have hsign : a.neg = b.neg := by
      cases hna : a.neg <;> cases hnb : b.neg <;> simp [hna, hnb] at h ⊢ <;> linarith
    have hval : (a.digits : ℚ) * 10 ^ a.exp = b.digits * 10 ^ b.exp := by
      rw [hsign] at h
      cases hnb : b.neg <;> simp [hnb] at h <;> linarith
    obtain ⟨hd, he⟩ := mul_zpow_ten_inj (Decimal.canonical_ne ha) (Decimal.canonical_ne hb) hval
    exact Decimal.ext hsign hd he

/-- Numbers are ordered by value. -/
instance : LinearOrder Decimal := LinearOrder.lift' Decimal.toRat Decimal.toRat_injective

theorem Decimal.le_iff {a b : Decimal} : a ≤ b ↔ a.toRat ≤ b.toRat := Iff.rfl

theorem Decimal.ofNat_le_ofNat {m n : ℕ} : Decimal.ofNat m ≤ Decimal.ofNat n ↔ m ≤ n := by
  rw [Decimal.le_iff, Decimal.toRat_ofNat, Decimal.toRat_ofNat, Nat.cast_le]

/-! ### The text of a number -/

/-- `z` zeros. -/
def zeros (z : ℕ) : JsString := List.replicate z 48

/-- An exponent with its sign. -/
def expText (x : ℤ) : JsString := (if 0 ≤ x then js "+" else js "-") ++ natToString x.natAbs

/-- `Number::toString` of `s · 10 ^ e`, for the shortest digits `s`: with `k` digits,
and the decimal point after the `n`-th of them. -/
def unsignedToString (s : ℕ) (e : ℤ) : JsString :=
  let ds := digitsText s
  let k : ℤ := ds.length
  let n := e + k
  if k ≤ n ∧ n ≤ 21 then ds ++ zeros (n - k).toNat
  else if 0 < n ∧ n ≤ 21 then ds.take n.toNat ++ js "." ++ ds.drop n.toNat
  else if -6 < n ∧ n ≤ 0 then js "0." ++ zeros (-n).toNat ++ ds
  else (if k = 1 then ds else ds.take 1 ++ js "." ++ ds.drop 1) ++ js "e" ++ expText (n - 1)

/-- `String(d)`. -/
def numberToString (d : Decimal) : JsString :=
  if d.digits = 0 then js "0" else (if d.neg then js "-" else []) ++ unsignedToString d.digits d.exp

/-- A character of a numeral: a digit or one of `+ - . e`. -/
def IsNumeral (u : UInt16) : Prop := IsDigit u ∨ u = 43 ∨ u = 45 ∨ u = 46 ∨ u = 101

instance (u : UInt16) : Decidable (IsDigit u) := inferInstanceAs (Decidable (_ ∧ _))

instance (u : UInt16) : Decidable (IsNumeral u) := inferInstanceAs (Decidable (_ ∨ _))

/-- What an exponent denotes, with or without a sign. -/
def readExp : JsString → ℤ
  | [] => 0
  | u :: ds => if u = 45 then -(digitsValue ds : ℤ) else if u = 43 then digitsValue ds else digitsValue (u :: ds)

/-- What the text of an unsigned number denotes, as digits and a power of ten. -/
def readUnsigned (t : JsString) : ℕ × ℤ :=
  let m := t.takeWhile (· != 101)
  let fp := (m.dropWhile (· != 46)).drop 1
  (digitsValue (m.takeWhile (· != 46) ++ fp), readExp ((t.dropWhile (· != 101)).drop 1) - fp.length)

section Cut

variable {c : UInt16} {xs ys : JsString}

theorem forall_mem_bne (h : c ∉ xs) : ∀ x ∈ xs, (x != c) = true := by
  intro x hx
  rw [bne_iff_ne]
  rintro rfl
  exact h hx

theorem takeWhile_ne (h : c ∉ xs) : xs.takeWhile (· != c) = xs := by
  rw [List.takeWhile_eq_self_iff]
  exact forall_mem_bne h

theorem dropWhile_ne (h : c ∉ xs) : xs.dropWhile (· != c) = [] := by
  rw [List.dropWhile_eq_nil_iff]
  exact forall_mem_bne h

theorem takeWhile_ne_append (h : c ∉ xs) : (xs ++ c :: ys).takeWhile (· != c) = xs := by
  rw [List.takeWhile_append_of_pos (forall_mem_bne h)]
  simp

theorem dropWhile_ne_append (h : c ∉ xs) : (xs ++ c :: ys).dropWhile (· != c) = c :: ys := by
  rw [List.dropWhile_append_of_pos (forall_mem_bne h)]
  simp

end Cut

theorem not_mem_of_digits {c : UInt16} (hc : ¬ IsDigit c) {ds : JsString} (h : ∀ u ∈ ds, IsDigit u) : c ∉ ds :=
  fun hm => hc (h c hm)

theorem isDigit_zeros (z : ℕ) : ∀ u ∈ zeros z, IsDigit u := by
  intro u hu
  rw [List.eq_of_mem_replicate hu]
  decide

theorem isDigit_natToString (n : ℕ) : ∀ u ∈ natToString n, IsDigit u := by
  unfold natToString
  split
  · simp [show js "0" = [48] from rfl, IsDigit]
  · exact isDigit_digitsText n

theorem digitsValue_natToString (n : ℕ) : digitsValue (natToString n) = n := by
  unfold natToString
  split
  · rename_i h
    rw [h]
    rfl
  · exact digitsValue_digitsText n

theorem readExp_expText (x : ℤ) : readExp (expText x) = x := by
  unfold expText
  split
  · rw [show js "+" = [43] from rfl, List.singleton_append, readExp, digitsValue_natToString,
      if_neg (by decide), if_pos rfl]
    omega
  · rw [show js "-" = [45] from rfl, List.singleton_append, readExp, digitsValue_natToString, if_pos rfl]
    omega

section Read

variable {ip fp : JsString} (hi : ∀ u ∈ ip, IsDigit u) (hf : ∀ u ∈ fp, IsDigit u)

include hi in
theorem readUnsigned_int : readUnsigned ip = (digitsValue ip, 0) := by
  have he := not_mem_of_digits (c := 101) (by decide) hi
  have hp := not_mem_of_digits (c := 46) (by decide) hi
  simp only [readUnsigned, takeWhile_ne he, dropWhile_ne he, takeWhile_ne hp, dropWhile_ne hp]
  simp [readExp]

include hi in
theorem readUnsigned_int_exp (x : ℤ) : readUnsigned (ip ++ 101 :: expText x) = (digitsValue ip, x) := by
  have he := not_mem_of_digits (c := 101) (by decide) hi
  have hp := not_mem_of_digits (c := 46) (by decide) hi
  simp only [readUnsigned, takeWhile_ne_append he, dropWhile_ne_append he, takeWhile_ne hp, dropWhile_ne hp]
  simp [readExp_expText]

include hi hf

theorem not_mem_point : (101 : UInt16) ∉ ip ++ 46 :: fp := by
  have := not_mem_of_digits (c := 101) (by decide) hi
  have := not_mem_of_digits (c := 101) (by decide) hf
  simp [*]

theorem readUnsigned_point : readUnsigned (ip ++ 46 :: fp) = (digitsValue (ip ++ fp), -(fp.length : ℤ)) := by
  have he := not_mem_point hi hf
  have hp := not_mem_of_digits (c := 46) (by decide) hi
  simp only [readUnsigned, takeWhile_ne he, dropWhile_ne he, takeWhile_ne_append hp, dropWhile_ne_append hp]
  simp [readExp]

theorem readUnsigned_point_exp (x : ℤ) :
    readUnsigned (ip ++ 46 :: fp ++ 101 :: expText x) = (digitsValue (ip ++ fp), x - fp.length) := by
  have he := not_mem_point hi hf
  have hp := not_mem_of_digits (c := 46) (by decide) hi
  simp only [readUnsigned, takeWhile_ne_append he, dropWhile_ne_append he, takeWhile_ne_append hp,
    dropWhile_ne_append hp]
  simp [readExp_expText]

end Read

/-- The text of `s · 10 ^ e` denotes it, up to zeros moved between the digits and the
exponent. -/
theorem readUnsigned_unsignedToString {s : ℕ} (hs : s ≠ 0) (e : ℤ) :
    ∃ z : ℕ, readUnsigned (unsignedToString s e) = (s * 10 ^ z, e - z) := by
  have hd := isDigit_digitsText s
  have hv := digitsValue_digitsText s
  have hne := digitsText_length_pos hs
  have hlen : ∀ n : ℕ, (n : ℤ) ≤ (digitsText s).length → ((digitsText s).drop n).length + (n : ℤ) = (digitsText s).length := by
    intro n hn
    rw [List.length_drop]
    omega
  unfold unsignedToString
  simp only
  split_ifs with h1 h2 h3 h4
  · -- all digits before the point, then zeros
    refine ⟨(e + (digitsText s).length - (digitsText s).length).toNat, ?_⟩
    rw [readUnsigned_int (by
      intro u hu
      rcases List.mem_append.mp hu with hu | hu
      · exact hd u hu
      · exact isDigit_zeros _ u hu), zeros, digitsValue_append_zeros, hv]
    congr 1
    omega
  · -- a point within the digits
    refine ⟨0, ?_⟩
    rw [show js "." = [46] from rfl, List.append_assoc, List.singleton_append,
      readUnsigned_point (fun u hu => hd u (List.mem_of_mem_take hu)) (fun u hu => hd u (List.mem_of_mem_drop hu)),
      List.take_append_drop, hv]
    have := hlen (e + (digitsText s).length).toNat (by omega)
    simp
    omega
  · -- a point and zeros before the digits
    refine ⟨0, ?_⟩
    rw [show js "0." = [48] ++ [46] from rfl, List.append_assoc, List.append_assoc, List.singleton_append,
      List.singleton_append,
      show (48 : UInt16) :: 46 :: (zeros (-(e + (digitsText s).length)).toNat ++ digitsText s) =
        [48] ++ 46 :: (zeros (-(e + (digitsText s).length)).toNat ++ digitsText s) from rfl,
      readUnsigned_point (by simp [IsDigit]) (by
        intro u hu
        rcases List.mem_append.mp hu with hu | hu
        · exact isDigit_zeros _ u hu
        · exact hd u hu),
      show [(48 : UInt16)] = List.replicate 1 48 from rfl, digitsValue_zeros_append, zeros, digitsValue_zeros_append, hv]
    simp
    omega
  · -- one digit and an exponent
    refine ⟨0, ?_⟩
    rw [show js "e" = [101] from rfl, List.append_assoc, List.singleton_append, readUnsigned_int_exp hd, hv]
    simp
    omega
  · -- several digits and an exponent
    refine ⟨0, ?_⟩
    rw [show js "e" = [101] from rfl, show js "." = [46] from rfl, List.append_assoc, List.singleton_append,
      List.append_assoc (List.take 1 _), List.singleton_append,
      readUnsigned_point_exp (fun u hu => hd u (List.mem_of_mem_take hu)) (fun u hu => hd u (List.mem_of_mem_drop hu)),
      List.take_append_drop, hv]
    have := hlen 1 (by omega)
    simp at this ⊢
    omega

theorem isNumeral_unsignedToString (s : ℕ) (e : ℤ) : ∀ u ∈ unsignedToString s e, IsNumeral u := by
  have hd : ∀ u ∈ digitsText s, IsNumeral u := fun u hu => .inl (isDigit_digitsText s u hu)
  have hz : ∀ z, ∀ u ∈ zeros z, IsNumeral u := fun z u hu => .inl (isDigit_zeros z u hu)
  have hx : ∀ x, ∀ u ∈ expText x, IsNumeral u := by
    intro x u hu
    rcases List.mem_append.mp hu with hu | hu
    · split_ifs at hu <;> rw [List.mem_singleton.mp hu] <;> decide
    · exact .inl (isDigit_natToString _ u hu)
  have hp : ∀ u ∈ js ".", IsNumeral u := by simp [show js "." = [46] from rfl, IsNumeral]
  have h0 : ∀ u ∈ js "0.", IsNumeral u := by simp [show js "0." = [48, 46] from rfl, IsNumeral, IsDigit]
  have he : ∀ u ∈ js "e", IsNumeral u := by simp [show js "e" = [101] from rfl, IsNumeral]
  intro u hu
  unfold unsignedToString at hu
  simp only at hu
  split_ifs at hu <;> simp only [List.mem_append] at hu
  · exact hu.elim (hd u) (hz _ u)
  · rcases hu with (hu | hu) | hu
    · exact hd u (List.mem_of_mem_take hu)
    · exact hp u hu
    · exact hd u (List.mem_of_mem_drop hu)
  · rcases hu with (hu | hu) | hu
    · exact h0 u hu
    · exact hz _ u hu
    · exact hd u hu
  · rcases hu with (hu | hu) | hu
    · exact hd u hu
    · exact he u hu
    · exact hx _ u hu
  · rcases hu with (((hu | hu) | hu) | hu) | hu
    · exact hd u (List.mem_of_mem_take hu)
    · exact hp u hu
    · exact hd u (List.mem_of_mem_drop hu)
    · exact he u hu
    · exact hx _ u hu

/-- The text of a number is over the characters of a numeral. -/
theorem isNumeral_numberToString (d : Decimal) : ∀ u ∈ numberToString d, IsNumeral u := by
  intro u hu
  unfold numberToString at hu
  split_ifs at hu
  · rw [List.mem_singleton.mp hu]
    decide
  · rcases List.mem_append.mp hu with hu | hu
    · rw [List.mem_singleton.mp hu]
      decide
    · exact isNumeral_unsignedToString _ _ u hu
  · exact isNumeral_unsignedToString _ _ u hu

/-- The text of a positive number starts with a digit. -/
theorem unsignedToString_head {s : ℕ} (hs : s ≠ 0) (e : ℤ) :
    ∃ u rest, unsignedToString s e = u :: rest ∧ IsDigit u := by
  obtain ⟨d, ds, hds⟩ := List.exists_cons_of_length_pos (digitsText_length_pos hs)
  have hd : IsDigit d := isDigit_digitsText s d (by simp [hds])
  unfold unsignedToString
  simp only [hds]
  split_ifs with h1 h2 h3 h4
  · exact ⟨d, _, rfl, hd⟩
  · obtain ⟨n, hn⟩ : ∃ n, (e + ((d :: ds).length : ℤ)).toNat = n + 1 :=
      ⟨(e + ((d :: ds).length : ℤ)).toNat - 1, by omega⟩
    rw [hn]
    exact ⟨d, _, rfl, hd⟩
  · exact ⟨48, _, rfl, by decide⟩
  · exact ⟨d, _, rfl, hd⟩
  · exact ⟨d, _, rfl, hd⟩

theorem unsignedToString_inj {s s' : ℕ} {e e' : ℤ} (hs : s % 10 ≠ 0) (hs' : s' % 10 ≠ 0)
    (h : unsignedToString s e = unsignedToString s' e') : s = s' ∧ e = e' := by
  obtain ⟨z, hz⟩ := readUnsigned_unsignedToString (s := s) (by rintro rfl; simp at hs) e
  obtain ⟨z', hz'⟩ := readUnsigned_unsignedToString (s := s') (by rintro rfl; simp at hs') e'
  rw [h, hz'] at hz
  obtain ⟨h1, h2⟩ := Prod.mk.inj hz
  obtain ⟨rfl, rfl⟩ := mul_pow_ten_inj hs hs' h1.symm
  exact ⟨rfl, by omega⟩

/-- **Different numbers have different texts.** -/
theorem numberToString_inj {a b : Decimal} (h : numberToString a = numberToString b) : a = b := by
  -- the sign is the first character: a positive number starts with a digit
  have minus : ∀ {d : Decimal} {t : JsString}, d.digits ≠ 0 →
      unsignedToString d.digits d.exp ≠ js "-" ++ t := by
    intro d t hd heq
    obtain ⟨u, rest, hu, hdig⟩ := unsignedToString_head hd d.exp
    rw [hu] at heq
    rw [(List.cons.inj heq).1] at hdig
    exact absurd hdig (by decide)
  -- and zero is the only number whose text denotes zero
  have zero : ∀ {d : Decimal}, d.digits ≠ 0 → unsignedToString d.digits d.exp ≠ js "0" := by
    intro d hd heq
    obtain ⟨z, hz⟩ := readUnsigned_unsignedToString hd d.exp
    rw [heq, show readUnsigned (js "0") = (0, 0) from rfl] at hz
    have := (Prod.mk.inj hz).1.symm
    rcases Nat.mul_eq_zero.mp this with h0 | h0
    · exact hd h0
    · simp at h0
  unfold numberToString at h
  by_cases ha : a.digits = 0 <;> by_cases hb : b.digits = 0
  · obtain ⟨h1, h2⟩ := Decimal.eq_zero ha
    obtain ⟨h3, h4⟩ := Decimal.eq_zero hb
    exact Decimal.ext (h1.trans h3.symm) (ha.trans hb.symm) (h2.trans h4.symm)
  · rw [if_pos ha, if_neg hb] at h
    split_ifs at h
    · cases (List.cons.inj h).1
    · exact absurd h.symm (zero hb)
  · rw [if_neg ha, if_pos hb] at h
    split_ifs at h
    · cases (List.cons.inj h).1
    · exact absurd h (zero ha)
  · rw [if_neg ha, if_neg hb] at h
    have hca := Decimal.canonical_ne ha
    have hcb := Decimal.canonical_ne hb
    split_ifs at h with hna hnb hnb
    · obtain ⟨hd, he⟩ := unsignedToString_inj hca hcb (List.append_cancel_left h)
      exact Decimal.ext (hna.trans hnb.symm) hd he
    · exact absurd h.symm (minus hb)
    · exact absurd h (minus ha)
    · obtain ⟨hd, he⟩ := unsignedToString_inj hca hcb h
      exact Decimal.ext (by simp [hna, hnb]) hd he

theorem digitsText_mul_pow {s : ℕ} (hs : 0 < s) (z : ℕ) : digitsText (s * 10 ^ z) = digitsText s ++ zeros z := by
  rw [digitsText, mul_comm, Nat.digits_base_pow_mul (by decide) hs, List.reverse_append, List.map_append,
    List.reverse_replicate, List.map_replicate]
  rfl

/-- A natural number below `10 ^ 21` is written with its digits alone. -/
theorem numberToString_of_natOf {d : Decimal} {n : ℕ} (h : natOf d = some n) (hn : n < 10 ^ 21) :
    numberToString d = natToString n := by
  unfold natOf at h
  split at h
  · rename_i hnat
    obtain ⟨hneg, hexp⟩ := hnat
    cases h
    unfold numberToString
    split
    · rename_i h0
      rw [h0, zero_mul]
      rfl
    · rename_i h0
      have hpos : 0 < d.digits := by omega
      have htext := digitsText_mul_pow hpos d.exp.toNat
      have hlength : (digitsText (d.digits * 10 ^ d.exp.toNat)).length ≤ 21 := by
        simpa [digitsText] using (Nat.digits_length_le_iff (b := 10) (k := 21) (by decide) _).mpr hn
      rw [htext, List.length_append] at hlength
      simp only [zeros, List.length_replicate] at hlength
      have hne : d.digits * 10 ^ d.exp.toNat ≠ 0 := Nat.mul_ne_zero h0 (by positivity)
      have hunsigned : unsignedToString d.digits d.exp = digitsText d.digits ++ zeros d.exp.toNat := by
        rw [unsignedToString, if_pos (by omega), add_sub_cancel_right]
      rw [natToString, if_neg hne, htext, hneg, hunsigned]
      rfl
  · cases h

/-! ### All numbers -/

/-- A number: a finite one, an infinity, or `NaN`. -/
inductive JsNumber where
  | nan
  | infinity (neg : Bool)
  | finite (d : Decimal)

/-- The place of a number in the order; `NaN` has none. -/
def JsNumber.place : JsNumber → Option (WithBot (WithTop ℚ))
  | .nan => none
  | .infinity true => some ⊥
  | .infinity false => some ⊤
  | .finite d => some ((d.toRat : WithTop ℚ) : WithBot (WithTop ℚ))

/-- `String(x)`. -/
def JsNumber.toText : JsNumber → JsString
  | .nan => js "NaN"
  | .infinity true => js "-Infinity"
  | .infinity false => js "Infinity"
  | .finite d => numberToString d

end Wanfw.Js
