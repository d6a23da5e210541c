import Wanfw.Js.Strings

/-!
# Reading UTF-8

The decoder of the Encoding Standard, one byte at a time: `push` is what a byte does that can
come next, and fails where no text can go on like that. `feed` goes on with U+FFFD instead, as
`Buffer.toString` and a stream with an encoding do; since it works byte by byte, it does not
matter how the bytes of a stream are cut into chunks.

`decodeUtf8_utf8`: a text is read back as it was written.
-/

namespace Wanfw.Js

/-- The decoder between two bytes: how many bytes of a character are missing, its value so far, and what
the next byte can be. -/
structure Utf8State where
  need : ℕ
  value : ℕ
  low : ℕ
  high : ℕ
  deriving DecidableEq

namespace Utf8State

/-- Between two characters. -/
def start : Utf8State := ⟨0, 0, 0x80, 0xBF⟩

/-- The first byte of a character. -/
def first (n : ℕ) : Option (Utf8State × JsString) :=
  if n < 0x80 then some (start, [n.toUInt16])
  else if n < 0xC2 then none
  else if n < 0xE0 then some (⟨1, n % 32, 0x80, 0xBF⟩, [])
  else if n < 0xF0 then some (⟨2, n % 16, if n = 0xE0 then 0xA0 else 0x80, if n = 0xED then 0x9F else 0xBF⟩, [])
  else if n < 0xF5 then some (⟨3, n % 8, if n = 0xF0 then 0x90 else 0x80, if n = 0xF4 then 0x8F else 0xBF⟩, [])
  else none

/-- Another byte of a character. -/
def next (s : Utf8State) (n : ℕ) : Option (Utf8State × JsString) :=
  if s.low ≤ n ∧ n ≤ s.high then
    if s.need = 1 then some (start, utf16 (Char.ofNat (s.value * 64 + n % 64)))
    else some (⟨s.need - 1, s.value * 64 + n % 64, 0x80, 0xBF⟩, [])
  else none

/-- A byte that can come next, with the text that is complete after it. -/
def push (s : Utf8State) (b : UInt8) : Option (Utf8State × JsString) :=
  if s.need = 0 then first b.toNat else s.next b.toNat

/-- Bytes that can come next. -/
def pushAll (s : Utf8State) : List UInt8 → Option (Utf8State × JsString)
  | [] => some (s, [])
  | b :: bs =>
    match s.push b with
    | none => none
    | some (s, text) => (s.pushAll bs).map fun r => (r.1, text ++ r.2)

/-- The replacement character. -/
def replacement : JsString := [0xFFFD]

/-- Any byte: one that cannot come next ends the character with a replacement and is looked at again. -/
def feed (s : Utf8State) (b : UInt8) : Utf8State × JsString :=
  match s.push b with
  | some r => r
  | none =>
    if s.need = 0 then (start, replacement)
    else
      match start.push b with
      | some (s, text) => (s, replacement ++ text)
      | none => (start, replacement ++ replacement)

/-- Any bytes. -/
def feedAll (s : Utf8State) : List UInt8 → Utf8State × JsString
  | [] => (s, [])
  | b :: bs =>
    let (s, text) := s.feed b
    let (s, rest) := s.feedAll bs
    (s, text ++ rest)

/-- The end of the bytes, perhaps in the middle of a character. -/
def finish (s : Utf8State) : JsString := if s.need = 0 then [] else replacement

end Utf8State

/-- `buffer.toString("utf8")`. -/
def decodeUtf8 (bytes : List UInt8) : JsString :=
  let (s, text) := Utf8State.start.feedAll bytes
  text ++ s.finish

/-! ### Bytes after bytes -/

namespace Utf8State

theorem pushAll_cons {s s' : Utf8State} {b : UInt8} {text : JsString} (h : s.push b = some (s', text)) (bs : List UInt8) :
    s.pushAll (b :: bs) = (s'.pushAll bs).map fun r => (r.1, text ++ r.2) := by
  rw [pushAll, h]

/-- The first of several bytes that can come next. -/
theorem exists_push {s : Utf8State} {b : UInt8} {bs : List UInt8} {r : Utf8State × JsString}
    (h : s.pushAll (b :: bs) = some r) : ∃ s' text rest, s.push b = some (s', text) ∧ s'.pushAll bs = some (r.1, rest) ∧
      r.2 = text ++ rest := by
  rw [pushAll] at h
  split at h
  · cases h
  · rename_i s' text hpush
    obtain ⟨⟨s'', rest⟩, hrest, rfl⟩ := Option.map_eq_some_iff.mp h
    exact ⟨s', text, rest, hpush, hrest, rfl⟩

theorem pushAll_append {s s' : Utf8State} {xs : List UInt8} {text : JsString} (h : s.pushAll xs = some (s', text))
    (ys : List UInt8) : s.pushAll (xs ++ ys) = (s'.pushAll ys).map fun r => (r.1, text ++ r.2) := by
  induction xs generalizing s text with
  | nil =>
    cases h
    simp
  | cons b xs ih =>
    obtain ⟨s₁, text₁, rest, hpush, hrest, htext⟩ := exists_push h
    cases htext
    rw [List.cons_append, pushAll_cons hpush, ih hrest, Option.map_map]
    simp [Function.comp_def]

/-- The bytes that can come next, in two pieces. -/
theorem exists_pushAll {s : Utf8State} {xs ys : List UInt8} {r : Utf8State × JsString}
    (h : s.pushAll (xs ++ ys) = some r) : ∃ s' text rest, s.pushAll xs = some (s', text) ∧
      s'.pushAll ys = some (r.1, rest) ∧ r.2 = text ++ rest := by
  induction xs generalizing s r with
  | nil => exact ⟨s, [], r.2, rfl, h, rfl⟩
  | cons b xs ih =>
    obtain ⟨s₁, text₁, rest₁, hpush, hrest, htext⟩ := exists_push h
    obtain ⟨s₂, text₂, rest₂, hxs, hys, heq⟩ := ih hrest
    refine ⟨s₂, text₁ ++ text₂, rest₂, ?_, hys, ?_⟩
    · rw [pushAll_cons hpush, hxs]
      rfl
    · rw [htext, List.append_assoc, ← heq]

/-- Bytes that can come next are fed without a replacement. -/
theorem feedAll_of_pushAll {s : Utf8State} {bs : List UInt8} {r : Utf8State × JsString} (h : s.pushAll bs = some r) :
    s.feedAll bs = r := by
  induction bs generalizing s r with
  | nil =>
    cases h
    rfl
  | cons b bs ih =>
    obtain ⟨s₁, text₁, rest, hpush, hrest, htext⟩ := exists_push h
    rw [feedAll, feed, hpush]
    simp only [ih hrest, ← htext]

/-! ### A character -/

theorem toNat_byte {n : ℕ} (h : n < 256) : (UInt8.ofNat n).toNat = n := UInt8.toNat_ofNat_of_lt' h

theorem push_start (b : UInt8) : start.push b = first b.toNat := rfl

theorem push_one {n : ℕ} (h : n < 0x80) : start.push (UInt8.ofNat n) = some (start, [n.toUInt16]) := by
  rw [push_start, toNat_byte (by omega), first, if_pos h]

/-- The first byte of two. -/
theorem push_two {n : ℕ} (hn : n < 32) (h : 2 ≤ n) :
    start.push (UInt8.ofNat (n + 0xC0)) = some (⟨1, n, 0x80, 0xBF⟩, []) := by
  have hmod : (n + 0xC0) % 32 = n := by omega
  rw [push_start, toNat_byte (by omega), first, if_neg (by omega), if_neg (by omega), if_pos (by omega), hmod]

/-- The first byte of three. -/
theorem push_three {n : ℕ} (hn : n < 16) : start.push (UInt8.ofNat (n + 0xE0)) =
    some (⟨2, n, if n = 0 then 0xA0 else 0x80, if n = 13 then 0x9F else 0xBF⟩, []) := by
  have hmod : (n + 0xE0) % 16 = n := by omega
  rw [push_start, toNat_byte (by omega), first, if_neg (by omega), if_neg (by omega), if_neg (by omega),
    if_pos (by omega), hmod]
  simp

/-- The first byte of four. -/
theorem push_four {n : ℕ} (hn : n < 5) : start.push (UInt8.ofNat (n + 0xF0)) =
    some (⟨3, n, if n = 0 then 0x90 else 0x80, if n = 4 then 0x8F else 0xBF⟩, []) := by
  have hmod : (n + 0xF0) % 8 = n := by omega
  rw [push_start, toNat_byte (by omega), first, if_neg (by omega), if_neg (by omega), if_neg (by omega),
    if_neg (by omega), if_pos (by omega), hmod]
  simp

section Next

variable {need value low high n : ℕ}

/-- A byte in the middle of a character. -/
theorem push_next (hneed : 1 < need) (hn : n < 64) (hlow : low ≤ n + 0x80) (hhigh : n + 0x80 ≤ high) :
    (⟨need, value, low, high⟩ : Utf8State).push (UInt8.ofNat (n + 0x80)) =
      some (⟨need - 1, value * 64 + n, 0x80, 0xBF⟩, []) := by
  have hmod : (n + 0x80) % 64 = n := by omega
  rw [push, if_neg (by change need ≠ 0; omega), toNat_byte (by omega), next, if_pos ⟨hlow, hhigh⟩,
    if_neg (by change need ≠ 1; omega), hmod]

/-- The last byte of a character. -/
theorem push_last (hn : n < 64) (hlow : low ≤ n + 0x80) (hhigh : n + 0x80 ≤ high) :
    (⟨1, value, low, high⟩ : Utf8State).push (UInt8.ofNat (n + 0x80)) =
      some (start, utf16 (Char.ofNat (value * 64 + n))) := by
  have hmod : (n + 0x80) % 64 = n := by omega
  rw [push, if_neg one_ne_zero, toNat_byte (by omega), next, if_pos ⟨hlow, hhigh⟩, if_pos rfl, hmod]

end Next

/-- **A character is read back.** -/
theorem pushAll_char (c : Char) : start.pushAll (String.utf8EncodeChar c) = some (start, utf16 c) := by
  have hlt := char_toNat_lt c
  have hsurrogate := char_not_surrogate c
  have hc : c.val.toNat = c.toNat := rfl
  have h64 : ∀ n, n % 0x40 < 64 := fun n => Nat.mod_lt n (by omega)
  unfold String.utf8EncodeChar
  simp only [hc]
  split
  · rename_i h
    rw [pushAll_cons (push_one (by omega))]
    simp [pushAll, utf16, show c.toNat < 0x10000 by omega]
  split
  · have hvalue : c.toNat / 64 * 64 + c.toNat % 64 = c.toNat := by omega
    rw [Nat.mod_eq_of_lt (show c.toNat / 64 < 0x20 by omega), pushAll_cons (push_two (by omega) (by omega)),
      pushAll_cons (push_last (h64 _) (by omega) (by omega)), hvalue, Char.ofNat_toNat]
    simp [pushAll]
  split
  · have hvalue : (c.toNat / 4096 * 64 + c.toNat / 64 % 64) * 64 + c.toNat % 64 = c.toNat := by omega
    rw [Nat.mod_eq_of_lt (show c.toNat / 4096 < 0x10 by omega), pushAll_cons (push_three (by omega)),
      pushAll_cons (push_next (by omega) (h64 _) (by split <;> omega) (by split <;> omega)),
      pushAll_cons (push_last (h64 _) (by omega) (by omega)), hvalue, Char.ofNat_toNat]
    simp [pushAll]
  · have hvalue : ((c.toNat / 262144 * 64 + c.toNat / 4096 % 64) * 64 + c.toNat / 64 % 64) * 64 + c.toNat % 64 =
        c.toNat := by omega
    rw [Nat.mod_eq_of_lt (show c.toNat / 262144 < 0x08 by omega), pushAll_cons (push_four (by omega)),
      pushAll_cons (push_next (by omega) (h64 _) (by split <;> omega) (by split <;> omega)),
      pushAll_cons (push_next (by omega) (h64 _) (by omega) (by omega)),
      pushAll_cons (push_last (h64 _) (by omega) (by omega)), hvalue, Char.ofNat_toNat]
    simp [pushAll]

/-- A text is read back, and the decoder is between two characters. -/
theorem pushAll_utf8Text (cs : List Char) : start.pushAll (utf8Text cs) = some (start, encode cs) := by
  induction cs with
  | nil => rfl
  | cons c cs ih =>
    rw [utf8Text, List.flatMap_cons, pushAll_append (pushAll_char c), ← utf8Text, ih]
    simp [encode]

theorem pushAll_utf8 {s : JsString} (h : WellFormed s) : start.pushAll (utf8 s) = some (start, s) := by
  obtain ⟨cs, rfl⟩ := h
  rw [utf8_encode, pushAll_utf8Text]

end Utf8State

/-- **A well-formed text is read back as it was written.** -/
theorem decodeUtf8_utf8 {s : JsString} (h : WellFormed s) : decodeUtf8 (utf8 s) = s := by
  rw [decodeUtf8, Utf8State.feedAll_of_pushAll (Utf8State.pushAll_utf8 h)]
  simp [Utf8State.finish, Utf8State.start]

end Wanfw.Js
