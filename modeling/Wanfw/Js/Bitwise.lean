import Mathlib.Algebra.Group.Nat.Defs
import Mathlib.Data.Int.Notation
import Mathlib.Data.Nat.Notation
import Mathlib.Order.Basic

/-!
# Bitwise operators

The bitwise operators of the language take their operands modulo `2 ^ 32`, and read the 32 bits of
the result as a signed number; `>>>` alone reads them unsigned, so that `x >>> 0` is the number
below `2 ^ 32` with the bits of `x`. A shift goes by its right operand modulo 32.

The bits of each result are the operation on the bits of the operands (`bits_bitOr` and the like),
whichever way these were read before.
-/

namespace Wanfw.Js

/-- The 32 bits of an integer. -/
def bits (x : ℤ) : UInt32 := ⟨BitVec.ofInt 32 x⟩

/-- Bits as a signed number. -/
def signed (w : UInt32) : ℤ := w.toBitVec.toInt

/-- `x | y`. -/
def bitOr (x y : ℤ) : ℤ := signed (bits x ||| bits y)

/-- `x & y`. -/
def bitAnd (x y : ℤ) : ℤ := signed (bits x &&& bits y)

/-- `~x`. -/
def bitNot (x : ℤ) : ℤ := signed (~~~bits x)

/-- `x << y`. -/
def shiftLeft (x y : ℤ) : ℤ := signed (bits x <<< bits y)

/-- `x >>> y`. -/
def shiftRight (x y : ℤ) : ℤ := (bits x >>> bits y).toNat

@[simp] theorem bits_signed (w : UInt32) : bits (signed w) = w :=
  UInt32.toBitVec_inj.mp (BitVec.ofInt_toInt)

@[simp] theorem bits_natCast (w : UInt32) : bits (w.toNat : ℤ) = w := by
  apply UInt32.toBitVec_inj.mp
  rw [bits, BitVec.ofInt_natCast, ← UInt32.toNat_toBitVec, BitVec.ofNat_toNat, BitVec.setWidth_eq]

@[simp] theorem bits_bitOr (x y : ℤ) : bits (bitOr x y) = bits x ||| bits y := bits_signed _

@[simp] theorem bits_bitAnd (x y : ℤ) : bits (bitAnd x y) = bits x &&& bits y := bits_signed _

@[simp] theorem bits_bitNot (x : ℤ) : bits (bitNot x) = ~~~bits x := bits_signed _

@[simp] theorem bits_shiftLeft (x y : ℤ) : bits (shiftLeft x y) = bits x <<< bits y := bits_signed _

@[simp] theorem bits_shiftRight (x y : ℤ) : bits (shiftRight x y) = bits x >>> bits y := bits_natCast _

/-- `x >>> 0` is the unsigned number with the bits of `x`. -/
@[simp] theorem shiftRight_zero (x : ℤ) : shiftRight x 0 = (bits x).toNat := by
  rw [shiftRight, show bits 0 = 0 from rfl, UInt32.shiftRight_zero]

/-- Bits below the sign are read in the same way. -/
theorem signed_of_lt {w : UInt32} (h : w.toNat < 2 ^ 31) : signed w = w.toNat := by
  rw [signed, BitVec.toInt_eq_toNat_of_lt (by simpa using by omega)]
  rfl

end Wanfw.Js
