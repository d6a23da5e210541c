import Mathlib

/-!
# DER

Elements of a tag, a length and contents (X.690). A length is written in one way only: below 128 in
one byte, else behind a byte that counts its bytes, without a leading zero. `readElement` takes no
other, `Der.read` neither, at any level, and nothing may be left over behind an element.

`readElement_iff`: what is read is what was written, and the other way round; `Der.read_iff`: the
same for elements within elements.
-/

namespace Wanfw.Asn1

/-! ### Numbers in bytes -/

/-- A number in bytes, the highest first, without a leading zero. -/
def bytesOf (n : ℕ) : List UInt8 := (Nat.digits 256 n).reverse.map Nat.toUInt8

/-- The number of a list of bytes. -/
def valueOf (bs : List UInt8) : ℕ := Nat.ofDigits 256 (bs.reverse.map UInt8.toNat)

/-- A number in `k` bytes, the highest first. -/
def bigEndian : ℕ → ℕ → List UInt8
  | 0, _ => []
  | k + 1, n => bigEndian k (n / 256) ++ [n.toUInt8]

section Bytes

variable {n k : ℕ} {bs : List UInt8}

theorem toNat_toUInt8 (h : n < 256) : n.toUInt8.toNat = n := by
  rw [Nat.toUInt8, UInt8.toNat_ofNat', Nat.mod_eq_of_lt h]

theorem toUInt8_mod (n : ℕ) : (n % 256).toUInt8 = n.toUInt8 := by
  apply UInt8.toNat_inj.mp
  show (UInt8.ofNat (n % 256)).toNat = (UInt8.ofNat n).toNat
  rw [UInt8.toNat_ofNat', UInt8.toNat_ofNat', Nat.mod_mod]

@[simp] theorem bytesOf_zero : bytesOf 0 = [] := rfl

/-- The last byte, and those before it. -/
theorem bytesOf_of_ne_zero (hn : n ≠ 0) : bytesOf n = bytesOf (n / 256) ++ [n.toUInt8] := by
  rw [bytesOf, Nat.digits_def' (by decide) (Nat.pos_of_ne_zero hn), List.reverse_cons, List.map_append, List.map_singleton,
    toUInt8_mod]
  rfl

theorem length_bytesOf_le : (bytesOf n).length ≤ k ↔ n < 256 ^ k := by
  rw [bytesOf, List.length_map, List.length_reverse]
  exact Nat.digits_length_le_iff (by decide) n

/-- A number is read back. -/
theorem valueOf_bytesOf (n : ℕ) : valueOf (bytesOf n) = n := by
  have hdigits : (Nat.digits 256 n).map (UInt8.toNat ∘ Nat.toUInt8) = Nat.digits 256 n := by
    refine (List.map_congr_left fun d hd => ?_).trans (List.map_id _)
    exact toNat_toUInt8 (Nat.digits_lt_base (by decide) hd)
  rw [valueOf, bytesOf, ← List.map_reverse, List.reverse_reverse, List.map_map, hdigits, Nat.ofDigits_digits]

/-- Without a leading zero, bytes are those of their number. -/
theorem bytesOf_valueOf (h : bs.head? ≠ some 0) : bytesOf (valueOf bs) = bs := by
  have hlt : ∀ d ∈ bs.reverse.map UInt8.toNat, d < 256 := by
    intro d hd
    obtain ⟨b, -, rfl⟩ := List.mem_map.mp hd
    exact b.toNat_lt
  have hlast : ∀ hne : bs.reverse.map UInt8.toNat ≠ [], (bs.reverse.map UInt8.toNat).getLast hne ≠ 0 := by
    intro hne hzero
    cases bs with
    | nil => exact hne rfl
    | cons b bs =>
      rw [List.getLast_map (by simp), List.getLast_reverse (by simp), List.head_cons] at hzero
      exact h (congrArg some (UInt8.toNat_inj.mp hzero))
  rw [bytesOf, valueOf, Nat.digits_ofDigits 256 (by decide) _ hlt hlast, ← List.map_reverse, List.reverse_reverse, List.map_map]
  exact (List.map_congr_left fun b _ => UInt8.ofNat_toNat).trans (List.map_id _)

theorem head?_bytesOf (n : ℕ) : (bytesOf n).head? ≠ some 0 := by
  induction n using Nat.strong_induction_on with
  | _ n ih =>
    by_cases hn : n = 0
    · simp [hn]
    · rw [bytesOf_of_ne_zero hn]
      by_cases hsmall : n / 256 = 0
      · have hlt : n < 256 := by omega
        rw [hsmall, bytesOf_zero, List.nil_append, List.head?_cons, ne_eq, Option.some.injEq]
        intro hzero
        exact hn (by rw [← toNat_toUInt8 hlt, hzero]; rfl)
      · rw [List.head?_append_of_ne_nil _ (by rw [bytesOf_of_ne_zero hsmall]; simp)]
        exact ih _ (by omega)

/-- In more bytes than it needs, a number has zeros before it. -/
theorem bigEndian_eq (h : n < 256 ^ k) : bigEndian k n = List.replicate (k - (bytesOf n).length) 0 ++ bytesOf n := by
  induction k generalizing n with
  | zero =>
    obtain rfl : n = 0 := by simpa using h
    rfl
  | succ k ih =>
    have hdiv : n / 256 < 256 ^ k := by
      rw [Nat.div_lt_iff_lt_mul (by decide), ← Nat.pow_succ]
      exact h
    rw [bigEndian, ih hdiv]
    by_cases hn : n = 0
    · subst hn
      simpa using (List.replicate_succ' (n := k) (a := (0 : UInt8))).symm
    · rw [bytesOf_of_ne_zero hn, List.length_append, List.length_singleton, Nat.add_sub_add_right, List.append_assoc]

end Bytes

/-! ### Elements -/

/-- The bytes of a length. -/
def lengthBytes (n : ℕ) : List UInt8 :=
  if n < 128 then [n.toUInt8] else (128 + (bytesOf n).length).toUInt8 :: bytesOf n

/-- An element with a tag and contents. -/
def element (tag : UInt8) (content : List UInt8) : List UInt8 := tag :: (lengthBytes content.length ++ content)

/-- A length, if it is written as it should be, and what follows. -/
def readLength : List UInt8 → Option (ℕ × List UInt8)
  | [] => none
  | b :: s =>
    if b.toNat < 128 then some (b.toNat, s)
    else
      let ds := s.take (b.toNat - 128)
      if b ≠ 255 ∧ ds.length = b.toNat - 128 ∧ ds.head? ≠ some 0 ∧ 128 ≤ valueOf ds then
        some (valueOf ds, s.drop (b.toNat - 128))
      else none

/-- A tag in one byte. -/
def ShortTag (tag : UInt8) : Prop := tag.toNat % 32 ≠ 31

instance (tag : UInt8) : Decidable (ShortTag tag) := inferInstanceAs (Decidable (tag.toNat % 32 ≠ 31))

/-- An element's tag and contents, and what follows. -/
def readElement : List UInt8 → Option (UInt8 × List UInt8 × List UInt8)
  | [] => none
  | tag :: s =>
    match readLength s with
    | some (n, s') => if ShortTag tag ∧ n ≤ s'.length then some (tag, s'.take n, s'.drop n) else none
    | none => none

section Elements

variable {n : ℕ} {tag : UInt8} {content s rest : List UInt8}

theorem readLength_lengthBytes (hn : n < 256 ^ 126) (rest : List UInt8) : readLength (lengthBytes n ++ rest) = some (n, rest) := by
  unfold lengthBytes
  split
  · rename_i hsmall
    have hbyte := toNat_toUInt8 (hsmall.trans (by decide))
    rw [List.singleton_append, readLength, if_pos (by rwa [hbyte]), hbyte]
  · rename_i hlarge
    have hcount : (bytesOf n).length ≤ 126 := length_bytesOf_le.mpr hn
    have hbyte : (128 + (bytesOf n).length).toUInt8.toNat = 128 + (bytesOf n).length := toNat_toUInt8 (by omega)
    have hne : (128 + (bytesOf n).length).toUInt8 ≠ 255 := by
      intro h
      rw [h] at hbyte
      have : (255 : UInt8).toNat = 255 := rfl
      omega
    rw [List.cons_append, readLength, if_neg (by omega), hbyte, Nat.add_sub_cancel_left, List.take_left, List.drop_left,
      if_pos ⟨hne, rfl, head?_bytesOf n, by rw [valueOf_bytesOf]; omega⟩, valueOf_bytesOf]

theorem eq_of_readLength (h : readLength s = some (n, rest)) : n < 256 ^ 126 ∧ s = lengthBytes n ++ rest := by
  cases s with
  | nil => cases h
  | cons b s =>
    rw [readLength] at h
    split at h
    · rename_i hsmall
      cases h
      have hbyte : b.toNat.toUInt8 = b := UInt8.ofNat_toNat
      rw [lengthBytes, if_pos hsmall, hbyte]
      exact ⟨hsmall.trans (by norm_num), rfl⟩
    · rename_i hlarge
      dsimp only at h
      split at h
      · rename_i hds
        obtain ⟨hne, hlength, hhead, hvalue⟩ := hds
        rw [Option.some.injEq, Prod.mk.injEq] at h
        obtain ⟨rfl, rfl⟩ := h
        have hback := bytesOf_valueOf hhead
        have hb := b.toNat_lt
        have h255 : b.toNat ≠ 255 := fun h => hne (UInt8.toNat_inj.mp h)
        have hcount : (bytesOf (valueOf (s.take (b.toNat - 128)))).length = b.toNat - 128 := by rw [hback, hlength]
        refine ⟨length_bytesOf_le.mp (by omega), ?_⟩
        have hbyte : (128 + (b.toNat - 128)).toUInt8 = b := by
          rw [show 128 + (b.toNat - 128) = b.toNat by omega]
          exact UInt8.ofNat_toNat
        rw [lengthBytes, if_neg (by omega), hcount, hbyte, hback, List.cons_append, List.take_append_drop]
      · cases h

/-- **A length is read back**, and read as nothing else. -/
theorem readLength_iff : readLength s = some (n, rest) ↔ n < 256 ^ 126 ∧ s = lengthBytes n ++ rest := by
  constructor
  · exact eq_of_readLength
  · rintro ⟨hn, rfl⟩
    exact readLength_lengthBytes hn rest

/-- **An element is read back**, and read as nothing else. -/
theorem readElement_iff : readElement s = some (tag, content, rest) ↔
    ShortTag tag ∧ content.length < 256 ^ 126 ∧ s = element tag content ++ rest := by
  constructor
  · intro h
    cases s with
    | nil => cases h
    | cons t s =>
      rw [readElement] at h
      split at h
      · rename_i n s' hlength
        obtain ⟨hn, rfl⟩ := readLength_iff.mp hlength
        split at h
        · rename_i hread
          cases h
          have htake : (s'.take n).length = n := by rw [List.length_take, Nat.min_eq_left hread.2]
          refine ⟨hread.1, htake.symm ▸ hn, ?_⟩
          rw [element, htake, List.cons_append, List.append_assoc, List.take_append_drop]
        · cases h
      · cases h
  · rintro ⟨htag, hn, rfl⟩
    rw [element, List.cons_append, List.append_assoc, readElement, readLength_lengthBytes hn]
    dsimp only
    rw [if_pos ⟨htag, by simp⟩, List.take_left, List.drop_left]

theorem length_lt_element : content.length + 2 ≤ (element tag content).length := by
  have hpos : 0 < (lengthBytes content.length).length := by
    unfold lengthBytes
    split <;> simp
  rw [element, List.length_cons, List.length_append]
  omega

end Elements

/-! ### Elements within elements -/

/-- An element and, if it is constructed, the elements that it consists of. -/
inductive Der where
  | primitive (tag : UInt8) (content : List UInt8)
  | constructed (tag : UInt8) (items : List Der)

/-- The bit of a tag that tells whether the contents are elements. -/
def isConstructed (tag : UInt8) : Bool := tag.toNat / 32 % 2 == 1

namespace Der

mutual

/-- The bytes of an element. -/
def encode : Der → List UInt8
  | primitive tag content => element tag content
  | constructed tag items => element tag (encodeAll items)

/-- The bytes of elements. -/
def encodeAll : List Der → List UInt8
  | [] => []
  | x :: xs => encode x ++ encodeAll xs

end

mutual

/-- Tags that tell what an element is, and lengths that can be written. -/
def Proper : Der → Prop
  | primitive tag content => ShortTag tag ∧ isConstructed tag = false ∧ content.length < 256 ^ 126
  | constructed tag items => ShortTag tag ∧ isConstructed tag = true ∧ (encodeAll items).length < 256 ^ 126 ∧ AllProper items

def AllProper : List Der → Prop
  | [] => True
  | x :: xs => Proper x ∧ AllProper xs

end

mutual

/-- Tags that tell what an element is. -/
def Tagged : Der → Prop
  | primitive tag _ => ShortTag tag ∧ isConstructed tag = false
  | constructed tag items => ShortTag tag ∧ isConstructed tag = true ∧ AllTagged items

def AllTagged : List Der → Prop
  | [] => True
  | x :: xs => Tagged x ∧ AllTagged xs

end

mutual

/-- An element, to any depth, and what follows. -/
def parse : ℕ → List UInt8 → Option (Der × List UInt8)
  | 0, _ => none
  | fuel + 1, s =>
    match readElement s with
    | none => none
    | some (tag, content, rest) =>
      if isConstructed tag then (parseAll fuel content).map fun items => (constructed tag items, rest)
      else some (primitive tag content, rest)

/-- Elements, with nothing behind them. -/
def parseAll : ℕ → List UInt8 → Option (List Der)
  | _, [] => some []
  | 0, _ :: _ => none
  | fuel + 1, b :: s =>
    match parse fuel (b :: s) with
    | none => none
    | some (x, rest) => (parseAll fuel rest).map (x :: ·)

end

/-- One element, with nothing behind it. -/
def read (s : List UInt8) : Option Der :=
  match parse s.length s with
  | some (x, []) => some x
  | _ => none

/-- The elements of an element with this tag. -/
def items (tag : UInt8) : Der → Option (List Der)
  | constructed t items => if t = tag then some items else none
  | primitive _ _ => none

/-- The contents of an element with this tag. -/
def content (tag : UInt8) : Der → Option (List UInt8)
  | primitive t content => if t = tag then some content else none
  | constructed _ _ => none

@[simp] theorem items_constructed (tag : UInt8) (xs : List Der) : (constructed tag xs).items tag = some xs := if_pos rfl

@[simp] theorem content_primitive (tag : UInt8) (bytes : List UInt8) : (primitive tag bytes).content tag = some bytes := if_pos rfl

section Read

variable {x : Der} {xs : List Der} {s rest : List UInt8} {fuel : ℕ}

theorem encodeAll_eq (xs : List Der) : encodeAll xs = (xs.map encode).flatten := by
  induction xs with
  | nil => rfl
  | cons x xs ih => rw [encodeAll, ih, List.map_cons, List.flatten_cons]

theorem two_le_length_encode (x : Der) : 2 ≤ x.encode.length := by
  cases x with
  | primitive tag content =>
    rw [encode]
    exact (Nat.le_add_left _ _).trans length_lt_element
  | constructed tag items =>
    rw [encode]
    exact (Nat.le_add_left _ _).trans length_lt_element

mutual

theorem Proper.tagged (x : Der) (hx : x.Proper) : x.Tagged := by
  cases x with
  | primitive tag content => exact ⟨hx.1, hx.2.1⟩
  | constructed tag items => exact ⟨hx.1, hx.2.1, AllProper.tagged items hx.2.2.2⟩

theorem AllProper.tagged (xs : List Der) (hxs : AllProper xs) : AllTagged xs := by
  cases xs with
  | nil => trivial
  | cons x xs => exact ⟨Proper.tagged x hxs.1, AllProper.tagged xs hxs.2⟩

end

mutual

/-- In an element that is not too long, no length is. -/
theorem proper_of_length (x : Der) (hx : x.Tagged) (h : x.encode.length < 256 ^ 126) : x.Proper := by
  cases x with
  | primitive tag content =>
    rw [encode] at h
    exact ⟨hx.1, hx.2, (Nat.le_add_right _ _).trans_lt (length_lt_element.trans_lt h)⟩
  | constructed tag items =>
    rw [encode] at h
    have hitems : (encodeAll items).length < 256 ^ 126 := (Nat.le_add_right _ _).trans_lt (length_lt_element.trans_lt h)
    exact ⟨hx.1, hx.2.1, hitems, allProper_of_length items hx.2.2 hitems⟩

theorem allProper_of_length (xs : List Der) (hxs : AllTagged xs) (h : (encodeAll xs).length < 256 ^ 126) : AllProper xs := by
  cases xs with
  | nil => trivial
  | cons x xs =>
    rw [encodeAll, List.length_append] at h
    exact ⟨proper_of_length x hxs.1 (by omega), allProper_of_length xs hxs.2 (by omega)⟩

end

mutual

theorem parse_encode (x : Der) (hx : x.Proper) (rest : List UInt8) {fuel : ℕ} (hf : x.encode.length ≤ fuel + 1) :
    parse fuel (x.encode ++ rest) = some (x, rest) := by
  have htwo := two_le_length_encode x
  obtain ⟨fuel, rfl⟩ : ∃ f, fuel = f + 1 := ⟨fuel - 1, by omega⟩
  cases x with
  | primitive tag content =>
    obtain ⟨htag, hkind, hlength⟩ := hx
    rw [encode, parse, readElement_iff.mpr ⟨htag, hlength, rfl⟩]
    simp [hkind]
  | constructed tag items =>
    obtain ⟨htag, hkind, hlength, hitems⟩ := hx
    rw [encode] at hf
    have hshorter : (encodeAll items).length + 2 ≤ fuel + 1 + 1 := length_lt_element.trans hf
    rw [encode, parse, readElement_iff.mpr ⟨htag, hlength, rfl⟩]
    dsimp only
    rw [if_pos hkind, parseAll_encodeAll items hitems (by omega)]
    rfl

theorem parseAll_encodeAll (xs : List Der) (hxs : AllProper xs) {fuel : ℕ} (hf : (encodeAll xs).length ≤ fuel) :
    parseAll fuel (encodeAll xs) = some xs := by
  cases xs with
  | nil =>
    rw [encodeAll]
    cases fuel <;> rfl
  | cons x xs =>
    obtain ⟨hx, hxs⟩ := hxs
    have htwo := two_le_length_encode x
    rw [encodeAll, List.length_append] at hf
    obtain ⟨fuel, rfl⟩ : ∃ f, fuel = f + 1 := ⟨fuel - 1, by omega⟩
    obtain ⟨b, s, hbytes⟩ : ∃ b s, x.encode = b :: s := List.exists_cons_of_length_pos (by omega)
    have hparse := parse_encode x hx (encodeAll xs) (show x.encode.length ≤ fuel + 1 by omega)
    rw [hbytes] at hparse
    rw [encodeAll, hbytes, List.cons_append, parseAll]
    rw [List.cons_append] at hparse
    rw [hparse]
    dsimp only
    rw [parseAll_encodeAll xs hxs (by omega)]
    rfl

end

mutual

theorem eq_of_parse (fuel : ℕ) {s : List UInt8} {x : Der} {rest : List UInt8} (h : parse fuel s = some (x, rest)) :
    x.Proper ∧ s = x.encode ++ rest := by
  cases fuel with
  | zero => cases h
  | succ fuel =>
    rw [parse] at h
    split at h
    · cases h
    · rename_i tag content rest' helement
      obtain ⟨htag, hlength, rfl⟩ := readElement_iff.mp helement
      split at h
      · rename_i hkind
        obtain ⟨items, hitems, heq⟩ := Option.map_eq_some_iff.mp h
        obtain ⟨hproper, rfl⟩ := eq_of_parseAll fuel hitems
        cases heq
        exact ⟨⟨htag, hkind, hlength, hproper⟩, rfl⟩
      · rename_i hkind
        cases h
        exact ⟨⟨htag, (Bool.not_eq_true _).mp hkind, hlength⟩, rfl⟩

theorem eq_of_parseAll (fuel : ℕ) {s : List UInt8} {xs : List Der} (h : parseAll fuel s = some xs) :
    AllProper xs ∧ s = encodeAll xs := by
  cases s with
  | nil =>
    rw [parseAll] at h
    cases h
    exact ⟨trivial, rfl⟩
  | cons b s =>
    cases fuel with
    | zero => cases h
    | succ fuel =>
      rw [parseAll] at h
      split at h
      · cases h
      · rename_i x rest hparse
        obtain ⟨hx, hbytes⟩ := eq_of_parse fuel hparse
        obtain ⟨xs', hxs, heq⟩ := Option.map_eq_some_iff.mp h
        obtain ⟨hproper, rfl⟩ := eq_of_parseAll fuel hxs
        cases heq
        exact ⟨⟨hx, hproper⟩, hbytes⟩

end

/-- **Elements within elements are read back**, and read as nothing else. -/
theorem read_iff : read s = some x ↔ x.Proper ∧ s = x.encode := by
  constructor
  · intro h
    unfold read at h
    split at h
    · rename_i y hparse
      cases h
      have hy := eq_of_parse _ hparse
      rwa [List.append_nil] at hy
    · cases h
  · rintro ⟨hx, rfl⟩
    have hparse := parse_encode x hx [] (Nat.le_succ _)
    rw [List.append_nil] at hparse
    rw [read, hparse]

end Read

end Der

/-! ### Integers -/

/-- The contents of a natural number: a zero goes before a first byte that would make it negative. -/
def integerContent (n : ℕ) : List UInt8 := if (bytesOf n).headD 128 < 128 then bytesOf n else 0 :: bytesOf n

theorem length_integerContent_le (n : ℕ) : (integerContent n).length ≤ (bytesOf n).length + 1 := by
  unfold integerContent
  split
  · exact Nat.le_succ _
  · exact le_rfl

/-! ### Object identifiers -/

/-- The bytes of a part but for the last one: seven bits a byte, the highest first. -/
def arcHead (n : ℕ) : List UInt8 := (Nat.digits 128 n).reverse.map fun d => (128 + d).toUInt8

/-- The bytes of a part. -/
def arcBytes (n : ℕ) : List UInt8 := arcHead (n / 128) ++ [(n % 128).toUInt8]

/-- The parts behind a part that is read up to some byte; none of them begins with a zero. -/
def readArcs : Option ℕ → List UInt8 → Option (List ℕ)
  | none, [] => some []
  | some _, [] => none
  | part, b :: bs =>
    if part = none ∧ b = 128 then none
    else if b.toNat < 128 then (readArcs none bs).map ((part.getD 0 * 128 + b.toNat) :: ·)
    else readArcs (some (part.getD 0 * 128 + (b.toNat - 128))) bs

/-- The parts of an object identifier; the first two of them are one number. -/
def readOid (content : List UInt8) : Option (List ℕ) :=
  match readArcs none content with
  | some (first :: arcs) =>
    some (if first < 40 then 0 :: first :: arcs else if first < 80 then 1 :: (first - 40) :: arcs else 2 :: (first - 80) :: arcs)
  | _ => none

section Arcs

variable {n : ℕ} {rest : List UInt8}

@[simp] theorem arcHead_zero : arcHead 0 = [] := rfl

theorem arcHead_of_ne_zero (hn : n ≠ 0) : arcHead n = arcHead (n / 128) ++ [(128 + n % 128).toUInt8] := by
  rw [arcHead, Nat.digits_def' (by decide) (Nat.pos_of_ne_zero hn), List.reverse_cons, List.map_append, List.map_singleton]
  rfl

/-- After the first bytes of a part, its higher bits are read. -/
theorem readArcs_arcHead (n : ℕ) (rest : List UInt8) :
    readArcs none (arcHead n ++ rest) = if n = 0 then readArcs none rest else readArcs (some n) rest := by
  induction n using Nat.strong_induction_on generalizing rest with
  | _ n ih =>
    by_cases hn : n = 0
    · simp [hn]
    · have hbyte : (128 + n % 128).toUInt8.toNat = 128 + n % 128 := toNat_toUInt8 (by omega)
      rw [arcHead_of_ne_zero hn, List.append_assoc, List.singleton_append, ih _ (by omega), if_neg hn]
      split
      · rename_i hsmall
        have hne : (128 + n % 128).toUInt8 ≠ 128 := by
          intro h
          rw [h] at hbyte
          have : (128 : UInt8).toNat = 128 := rfl
          omega
        rw [readArcs, if_neg fun h => hne h.2, if_neg (by omega), hbyte, Option.getD_none,
          show 0 * 128 + (128 + n % 128 - 128) = n by omega]
      · rw [readArcs, if_neg (by simp), if_neg (by omega), hbyte, Option.getD_some,
          show n / 128 * 128 + (128 + n % 128 - 128) = n by omega]

/-- **A part is read back.** -/
theorem readArcs_arcBytes (n : ℕ) (rest : List UInt8) :
    readArcs none (arcBytes n ++ rest) = (readArcs none rest).map (n :: ·) := by
  have hbyte : (n % 128).toUInt8.toNat = n % 128 := toNat_toUInt8 (by omega)
  have hlow : n % 128 < 128 := Nat.mod_lt _ (by decide)
  rw [arcBytes, List.append_assoc, List.singleton_append, readArcs_arcHead]
  split
  · have hne : (n % 128).toUInt8 ≠ 128 := by
      intro h
      rw [h] at hbyte
      have : (128 : UInt8).toNat = 128 := rfl
      omega
    rw [readArcs, if_neg fun h => hne h.2, if_pos (by omega), hbyte, Option.getD_none, show 0 * 128 + n % 128 = n by omega]
  · rw [readArcs, if_neg (by simp), if_pos (by omega), hbyte, Option.getD_some, Nat.div_add_mod']

theorem readArcs_flatMap (arcs : List ℕ) : readArcs none (arcs.flatMap arcBytes) = some arcs := by
  induction arcs with
  | nil => rfl
  | cons n arcs ih => rw [List.flatMap_cons, readArcs_arcBytes, ih, Option.map_some]

end Arcs

end Wanfw.Asn1
