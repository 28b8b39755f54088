/-
This file is about machine words that are used in two parts: the upper bits hold a multiple of a
power of two, the lower bits a number below it. Joining the parts with an `or` is an addition, and
the two masks take a word apart again. Signed comparisons of words that are not negative are
comparisons of numbers.
-/

import Mathlib.Tactic

namespace Miosix.Words

open BitVec

variable {width bits : Nat} {first second : BitVec width}

/-- A one after the lower bits. -/
def carry (width bits : Nat) : BitVec width := BitVec.ofNat width (2 ^ bits)

def lowerMask (width bits : Nat) : BitVec width := carry width bits - BitVec.ofNat width 1

def upperMask (width bits : Nat) : BitVec width := BitVec.allOnes width - lowerMask width bits

/-! ### The parts of a word -/

theorem toNat_ofNat_of_lt {value : Nat} (small : value < 2 ^ width) :
    (BitVec.ofNat width value).toNat = value := by
  rw [toNat_ofNat, Nat.mod_eq_of_lt small]

theorem toNat_carry (fits : bits < width) : (carry width bits).toNat = 2 ^ bits :=
  toNat_ofNat_of_lt (Nat.pow_lt_pow_right (by decide) fits)

theorem toNat_or_of_dvd {upper : BitVec width} {lower : Nat} (fits : bits ≤ width)
    (aligned : 2 ^ bits ∣ upper.toNat) (below : lower < 2 ^ bits) :
    (upper ||| BitVec.ofNat width lower).toNat = upper.toNat + lower := by
  have small : lower < 2 ^ width := lt_of_lt_of_le below (Nat.pow_le_pow_right (by decide) fits)
  obtain ⟨count, total⟩ := aligned
  rw [toNat_or, toNat_ofNat_of_lt small, total, ← Nat.two_pow_add_eq_or_of_lt below count]

theorem toNat_lowerMask (fits : bits < width) : (lowerMask width bits).toNat = 2 ^ bits - 1 := by
  have one : (BitVec.ofNat width 1).toNat = 1 := toNat_ofNat_of_lt (Nat.one_lt_two_pow (by omega))
  have ordered : BitVec.ofNat width 1 ≤ carry width bits := by
    rw [le_def, one, toNat_carry fits]
    exact Nat.two_pow_pos bits
  rw [lowerMask, toNat_sub_of_le ordered, toNat_carry fits, one]

theorem toNat_and_lowerMask {word : BitVec width} (fits : bits < width) :
    (word &&& lowerMask width bits).toNat = word.toNat % 2 ^ bits := by
  rw [toNat_and, toNat_lowerMask fits, Nat.and_two_pow_sub_one_eq_mod]

/-- The two masks take a word apart. -/
theorem toNat_and_masks {word mask : BitVec width} :
    (word &&& (BitVec.allOnes width - mask)).toNat + (word &&& mask).toNat = word.toNat := by
  rw [allOnes_sub_eq_not]
  have disjoint : (word &&& ~~~mask) &&& (word &&& mask) = BitVec.ofNat width 0 := by
    ext i bound
    simp only [getElem_and, getElem_not, getElem_zero]
    cases mask[i] <;> simp
  have joined : (word &&& ~~~mask) ||| (word &&& mask) = word := by
    ext i bound
    simp only [getElem_or, getElem_and, getElem_not]
    cases mask[i] <;> simp
  rw [← toNat_add_of_and_eq_zero disjoint, add_eq_or_of_and_eq_zero _ _ disjoint,
    joined]

theorem toNat_and_upperMask (word : BitVec width) (fits : bits < width) :
    (word &&& upperMask width bits).toNat + word.toNat % 2 ^ bits = word.toNat := by
  rw [← toNat_and_lowerMask fits]
  exact toNat_and_masks

theorem dvd_and_upperMask (word : BitVec width) (fits : bits < width) :
    2 ^ bits ∣ (word &&& upperMask width bits).toNat := by
  have parts := toNat_and_upperMask word fits
  rw [show (word &&& upperMask width bits).toNat = word.toNat - word.toNat % 2 ^ bits by omega]
  exact Nat.dvd_sub_mod word.toNat

/-! ### Words that are not negative -/

section

variable (firstSmall : 2 * first.toNat < 2 ^ width) (secondSmall : 2 * second.toNat < 2 ^ width)

include firstSmall secondSmall

theorem sle_iff_of_lt :
    first.sle second = true ↔ first.toNat ≤ second.toNat := by
  rw [sle_iff_toInt_le, toInt_eq_toNat_of_lt firstSmall,
    toInt_eq_toNat_of_lt secondSmall, Nat.cast_le]

theorem slt_iff_of_lt :
    first.slt second = true ↔ first.toNat < second.toNat := by
  rw [slt_iff_toInt_lt, toInt_eq_toNat_of_lt firstSmall,
    toInt_eq_toNat_of_lt secondSmall, Nat.cast_lt]

end

end Miosix.Words
