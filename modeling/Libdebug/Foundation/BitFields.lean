import Mathlib.Algebra.Group.Nat.Defs

/-!
Fields of bits in a word. A field is written by a mask that clears it and an `or` that sets it;
the bits beside the field are kept.
-/

namespace Libdebug.Foundation

/-- The bits of a word from a position on, as a number -/
def bitField (value shift width : Nat) : Nat := (value >>> shift) % 2 ^ width

/-- `value & ~mask` -/
def maskedOut (value mask : Nat) : Nat := value ^^^ (value &&& mask)

variable {value mask field shift width bit : Nat}

theorem testBit_bitField (value shift width bit : Nat) :
    (bitField value shift width).testBit bit =
      (decide (bit < width) && value.testBit (shift + bit)) := by
  rw [bitField, Nat.testBit_mod_two_pow, Nat.testBit_shiftRight]

theorem testBit_maskedOut (value mask bit : Nat) :
    (maskedOut value mask).testBit bit = (value.testBit bit && !mask.testBit bit) := by
  rw [maskedOut, Nat.testBit_xor, Nat.testBit_and]
  cases value.testBit bit with
  | false => rfl
  | true => exact Bool.true_xor _

/-- Outside of its own bits a shifted field has none. -/
theorem testBit_shifted (fits : field < 2 ^ width) (shift bit : Nat) :
    (field <<< shift).testBit bit =
      (decide (shift ≤ bit ∧ bit < shift + width) && field.testBit (bit - shift)) := by
  rw [Nat.testBit_shiftLeft]
  by_cases below : bit < shift + width
  · simp only [ge_iff_le, below, and_true]
  · have clear : field.testBit (bit - shift) = false := by
      apply Nat.testBit_lt_two_pow
      exact Nat.lt_of_lt_of_le fits (Nat.pow_le_pow_right (by decide) (by omega))
    rw [clear, Bool.and_false, Bool.and_false]

/-- A field is what its bits are. -/
theorem bitField_eq (fits : field < 2 ^ width)
    (bits : ∀ bit < width, value.testBit (shift + bit) = field.testBit bit) :
    bitField value shift width = field := by
  apply Nat.eq_of_testBit_eq
  intro bit
  rw [testBit_bitField]
  by_cases inside : bit < width
  · rw [decide_eq_true inside, Bool.true_and, bits bit inside]
  · rw [decide_eq_false inside, Bool.false_and, eq_comm]
    apply Nat.testBit_lt_two_pow
    exact Nat.lt_of_lt_of_le fits (Nat.pow_le_pow_right (by decide) (by omega))

theorem bitField_congr {other : Nat}
    (same : ∀ bit < width, value.testBit (shift + bit) = other.testBit (shift + bit)) :
    bitField value shift width = bitField other shift width := by
  apply Nat.eq_of_testBit_eq
  intro bit
  rw [testBit_bitField, testBit_bitField]
  by_cases inside : bit < width
  · rw [same bit inside]
  · rw [decide_eq_false inside, Bool.false_and, Bool.false_and]

end Libdebug.Foundation
