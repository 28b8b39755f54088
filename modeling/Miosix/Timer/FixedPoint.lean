/-
This file embeds the fixed-point multiplication of `timeconversion.cpp`, and the product of two
words in `timeconversion.h` on which it rests, in its three forms: the product of the language, the
products of the 16-bit halves, and the instructions for the processors that have only Thumb-1.
-/

import Mathlib.Tactic

namespace Miosix.TimeConversion

open Function BitVec

/-! ### The instructions -/

/-- The registers that the assembly code names. -/
inductive Register where
  | t0
  | t1
  | t2
  | t3
  | t4
  deriving DecidableEq, Repr

/-- The instructions of the assembly code. -/
inductive Instruction where
  | lsls (target source : Register) (amount : Nat)
  | lsrs (target source : Register) (amount : Nat)
  | movs (target source : Register)
  | muls (target source : Register)
  | adds (target source : Register)
  | adcs (target source : Register)

/-- The registers and the carry flag. -/
structure Processor where
  registers : Register → BitVec 32
  carry : Bool

/-- A sum with a carry, and the carry of the sum. -/
def Processor.add (cpu : Processor) (target source : Register) (carry : Bool) : Processor :=
  let sum := (cpu.registers target).toNat + (cpu.registers source).toNat + if carry then 1 else 0
  ⟨update cpu.registers target (.ofNat 32 sum), decide (2 ^ 32 ≤ sum)⟩

/-- The effect of an instruction. Moves and products keep the carry flag. -/
def Processor.step (cpu : Processor) : Instruction → Processor
  | .lsls target source amount => ⟨update cpu.registers target (cpu.registers source <<< amount),
      (cpu.registers source).getLsbD (32 - amount)⟩
  | .lsrs target source amount => ⟨update cpu.registers target (cpu.registers source >>> amount),
      (cpu.registers source).getLsbD (amount - 1)⟩
  | .movs target source =>
      { cpu with registers := update cpu.registers target (cpu.registers source) }
  | .muls target source => { cpu with
      registers := update cpu.registers target (cpu.registers target * cpu.registers source) }
  | .adds target source => cpu.add target source false
  | .adcs target source => cpu.add target source cpu.carry

/-- The assembly code of `mul32x32to64`. -/
def thumb : List Instruction :=
  [.lsls .t3 .t0 16, .lsrs .t3 .t3 16, .lsls .t4 .t1 16, .lsrs .t4 .t4 16, .movs .t2 .t3,
    .muls .t2 .t4, .lsrs .t0 .t0 16, .muls .t4 .t0, .lsrs .t1 .t1 16, .muls .t3 .t1, .muls .t1 .t0,
    .lsls .t0 .t4 16, .lsrs .t4 .t4 16, .adds .t0 .t2, .adcs .t1 .t4, .lsls .t2 .t3 16,
    .lsrs .t3 .t3 16, .adds .t0 .t2, .adcs .t1 .t3]

/-! ### The functions -/

/-- The last form starts with any values in the registers and the flag. -/
inductive Form where
  | plain
  | halves
  | thumb (cpu : Processor)

/-- Two words as one of 64 bits. -/
def join (low high : BitVec 32) : BitVec 64 := low.setWidth 64 ||| high.setWidth 64 <<< 32

/-- The product of two words, in each of its forms. -/
def mul32x32to64 (form : Form) (a b : BitVec 32) : BitVec 64 :=
  match form with
  | .plain => a.setWidth 64 * b.setWidth 64
  | .halves =>
      let t0 := (a &&& 0xFFFF#32) * (b &&& 0xFFFF#32)
      let t1 := (a >>> 16) * (b >>> 16)
      join t0 t1 + ((a >>> 16) * (b &&& 0xFFFF#32)).setWidth 64 <<< 16 +
        ((a &&& 0xFFFF#32) * (b >>> 16)).setWidth 64 <<< 16
  | .thumb cpu =>
      let started := { cpu with registers := update (update cpu.registers .t0 a) .t1 b }
      let finished := (thumb.foldl Processor.step started).registers
      join (finished .t0) (finished .t1)

/-- The lower word. -/
def lo (x : BitVec 64) : BitVec 32 := x.setWidth 32

/-- The upper word. -/
def hi (x : BitVec 64) : BitVec 32 := (x >>> 32).setWidth 32

/-- The product with a number that has the integer part `bi` and the fraction `bf`. -/
def mul64x32d32 (form : Form) (a : BitVec 64) (bi bf : BitVec 32) : BitVec 64 :=
  let result := mul32x32to64 form bi (lo a) + mul32x32to64 form bf (hi a)
  let bfaLo := mul32x32to64 form bf (lo a)
  result + (hi bfaLo).setWidth 64 + (bi * hi a).setWidth 64 <<< 32

/-! ### The products are exact -/

variable (a b : BitVec 32)

theorem toNat_join : (join a b).toNat = b.toNat * 2 ^ 32 + a.toNat := by
  have shifted : b.toNat <<< 32 % 2 ^ 64 = b.toNat <<< 32 := by
    rw [Nat.shiftLeft_eq]
    exact Nat.mod_eq_of_lt (by have := b.isLt; omega)
  have small (x : BitVec 32) : x.toNat % 2 ^ 64 = x.toNat :=
    Nat.mod_eq_of_lt (by have := x.isLt; omega)
  rw [join, toNat_or, toNat_shiftLeft, toNat_setWidth, toNat_setWidth,
    small, small, shifted, Nat.or_comm, ← Nat.shiftLeft_add_eq_or_of_lt a.isLt, Nat.shiftLeft_eq]

/-- The product from the four products of halves. -/
theorem mul_eq_halves : a.toNat * b.toNat = a.toNat / 2 ^ 16 * (b.toNat / 2 ^ 16) * 2 ^ 32 +
    (a.toNat / 2 ^ 16 * (b.toNat % 2 ^ 16) + a.toNat % 2 ^ 16 * (b.toNat / 2 ^ 16)) * 2 ^ 16 +
    a.toNat % 2 ^ 16 * (b.toNat % 2 ^ 16) := by
  conv_lhs => rw [← Nat.div_add_mod a.toNat (2 ^ 16), ← Nat.div_add_mod b.toNat (2 ^ 16)]
  ring

theorem half_mul_lt {x y : Nat} (first : x < 2 ^ 16) (second : y < 2 ^ 16) :
    x * y ≤ (2 ^ 16 - 1) * (2 ^ 16 - 1) :=
  Nat.mul_le_mul (Nat.le_sub_one_of_lt first) (Nat.le_sub_one_of_lt second)

theorem toNat_mul32x32to64 (form : Form) : (mul32x32to64 form a b).toNat = a.toNat * b.toNat := by
  have masked (x : BitVec 32) : (x &&& 0xFFFF#32).toNat = x.toNat % 2 ^ 16 :=
    Nat.and_two_pow_sub_one_eq_mod x.toNat 16
  have shifted (x : BitVec 32) : (x >>> 16).toNat = x.toNat / 2 ^ 16 :=
    Nat.shiftRight_eq_div_pow _ _
  have cleared (x : BitVec 32) : x <<< 16 >>> 16 = x &&& 0xFFFF#32 := by
    apply eq_of_toNat_eq
    rw [shifted, masked, toNat_shiftLeft, Nat.shiftLeft_eq]
    omega
  have high (x : BitVec 32) : x.toNat / 2 ^ 16 < 2 ^ 16 := Nat.div_lt_of_lt_mul x.isLt
  have low (x : BitVec 32) : x.toNat % 2 ^ 16 < 2 ^ 16 := Nat.mod_lt _ (by decide)
  have highs := half_mul_lt (high a) (high b)
  have left := half_mul_lt (high a) (low b)
  have right := half_mul_lt (low a) (high b)
  have lows := half_mul_lt (low a) (low b)
  rw [mul_eq_halves]
  cases form with
  | plain =>
    simp only [mul32x32to64, toNat_mul, toNat_setWidth]
    rw [Nat.mod_eq_of_lt (a.isLt.trans (by decide)), Nat.mod_eq_of_lt (b.isLt.trans (by decide)),
      mul_eq_halves]
    omega
  | halves =>
    simp only [mul32x32to64, toNat_add, toNat_join, toNat_mul, toNat_shiftLeft,
      toNat_setWidth, masked, shifted, Nat.shiftLeft_eq]
    omega
  | thumb cpu =>
    simp only [mul32x32to64, thumb, List.foldl_cons, List.foldl_nil, Processor.step, Processor.add,
      update_self, update_of_ne, ne_eq, reduceCtorEq, not_false_eq_true, cleared]
    simp only [toNat_join, toNat_ofNat, toNat_mul, toNat_shiftLeft, masked,
      shifted, Nat.shiftLeft_eq, decide_eq_true_eq, if_false, Nat.add_zero]
    rw [Nat.mul_comm (b.toNat / 2 ^ 16), Nat.mul_comm (b.toNat % 2 ^ 16)]
    split_ifs <;> omega

/-- For all operands, the fixed-point product is the integer part of the exact one, modulo
`2^64`, and the product of two words is exact, in each of the three forms. -/
theorem multiplication_is_exact (form : Form) : (∀ a b : BitVec 32,
      (mul32x32to64 form a b).toNat = a.toNat * b.toNat) ∧
    ∀ (a : BitVec 64) (bi bf : BitVec 32), (mul64x32d32 form a bi bf).toNat =
      a.toNat * (bi.toNat * 2 ^ 32 + bf.toNat) / 2 ^ 32 % 2 ^ 64 := by
  refine ⟨fun a b => toNat_mul32x32to64 a b form, fun a bi bf => ?_⟩
  have split : a.toNat * (bi.toNat * 2 ^ 32 + bf.toNat) = (bi.toNat * (a.toNat % 2 ^ 32) +
      bf.toNat * (a.toNat / 2 ^ 32) + bi.toNat * (a.toNat / 2 ^ 32) * 2 ^ 32) * 2 ^ 32 +
      bf.toNat * (a.toNat % 2 ^ 32) := by
    conv_lhs => rw [← Nat.div_add_mod a.toNat (2 ^ 32)]
    ring
  have high (x : BitVec 64) : (hi x).toNat = x.toNat / 2 ^ 32 := by
    rw [hi, BitVec.toNat_setWidth, BitVec.toNat_ushiftRight, Nat.shiftRight_eq_div_pow]
    exact Nat.mod_eq_of_lt (Nat.div_lt_of_lt_mul x.isLt)
  rw [split]
  simp only [mul64x32d32, BitVec.toNat_add, toNat_mul32x32to64, high, lo, BitVec.toNat_setWidth,
    BitVec.toNat_shiftLeft, BitVec.toNat_mul, Nat.shiftLeft_eq]
  omega

end Miosix.TimeConversion
