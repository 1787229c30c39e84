import Mathlib.Data.Int.Bitwise

/-!
The bits of unbounded integers in two's complement, and the words that hold the low ones.
-/

namespace Libdebug.Foundation

variable {value : Int} {width : Nat}

theorem testBit_intShiftLeft (value : Int) (shift bit : Nat) :
    (value <<< shift).testBit bit = (decide (shift ≤ bit) && value.testBit (bit - shift)) := by
  cases value with
  | ofNat n => exact Nat.testBit_shiftLeft n
  | negSucc n =>
      -- Below the shift a negative integer gets zeros, its predecessor in absolute value ones.
      have absolute : (n + 1) <<< shift - 1 = 2 ^ shift * n + (2 ^ shift - 1) := by
        have positive : 0 < 2 ^ shift := Nat.two_pow_pos shift
        rw [Nat.shiftLeft_eq, Nat.add_mul, Nat.one_mul, Nat.mul_comm n]
        omega
      have small : 2 ^ shift - 1 < 2 ^ shift := Nat.sub_lt (Nat.two_pow_pos shift) Nat.one_pos
      change (!((n + 1) <<< shift - 1).testBit bit) = (decide (shift ≤ bit) && !n.testBit _)
      rw [absolute, Nat.testBit_two_pow_mul_add n small, Nat.testBit_two_pow_sub_one]
      by_cases below : bit < shift
      · simp [below, Nat.not_le.mpr below]
      · simp [below, Nat.not_lt.mp below]

theorem testBit_intShiftRight (value : Int) (shift bit : Nat) :
    (value >>> shift).testBit bit = value.testBit (shift + bit) := by
  cases value with
  | ofNat n => exact Nat.testBit_shiftRight n
  | negSucc n => exact congrArg not (Nat.testBit_shiftRight n)

/-- The bits of the mask `2 ** width - 1` -/
theorem testBit_intMask (width bit : Nat) :
    (Int.ofNat (2 ^ width - 1)).testBit bit = decide (bit < width) :=
  Nat.testBit_two_pow_sub_one width bit

theorem getLsbD_ofInt (width : Nat) (value : Int) (bit : Nat) :
    (BitVec.ofInt width value).getLsbD bit = (decide (bit < width) && value.testBit bit) := by
  cases value with
  | ofNat n =>
      rw [Int.ofNat_eq_natCast, BitVec.ofInt_natCast, BitVec.getLsbD_ofNat]
      rfl
  | negSucc n =>
      rw [BitVec.ofInt_negSucc_eq_not_ofNat, BitVec.getLsbD_not, BitVec.getLsbD_ofNat]
      by_cases inside : bit < width
      · simp [inside, Int.testBit]
      · simp [inside]

/-- **An integer that has the bits of a word is the number in the word.** -/
theorem eq_toNat_of_testBit {word : BitVec width}
    (bits : ∀ bit, value.testBit bit = word.getLsbD bit) : value = word.toNat := by
  cases value with
  | ofNat n =>
      have same : n = word.toNat := Nat.eq_of_testBit_eq bits
      rw [same, Int.ofNat_eq_natCast]
  | negSucc n =>
      -- A negative integer has ones above all the bits of its absolute value.
      have top : n.testBit (max width n) = false :=
        Nat.testBit_lt_two_pow (Nat.lt_of_le_of_lt (Nat.le_max_right width n) Nat.lt_two_pow_self)
      have set := bits (max width n)
      rw [Int.testBit, top, BitVec.getLsbD_of_ge _ _ (Nat.le_max_left width n)] at set
      exact absurd set (by decide)

end Libdebug.Foundation
