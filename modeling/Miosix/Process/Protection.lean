/-
This file embeds `MPUConfiguration` of `arch/cpu/common/cortexMx_userspace.cpp`, which knows the
memory of a process: its code, which it may read, and its data, which it may write too.

The two regions are kept as the values of the registers of the memory protection unit, and decoded
from them when a pointer is checked. There are three ways to do so, one for each architecture. A
buffer is checked by its address and size, and a string by looking for its end.
-/

import Miosix.Lib.Logged

namespace Miosix.Protection

/-! ### Regions -/

/-- The processors: without a memory protection unit, ARMv6-M and ARMv7-M, and ARMv8-M. -/
inductive Architecture where
  | noMpu
  | armv7m
  | armv8m
  deriving DecidableEq, Repr

structure Region where
  base : Nat
  size : Nat
  deriving DecidableEq, Repr

def Region.Contains (region : Region) (address : Nat) : Prop :=
  region.base ≤ address ∧ address < region.base + region.size

def Region.Within (inner outer : Region) : Prop :=
  outer.base ≤ inner.base ∧ inner.base + inner.size ≤ outer.base + outer.size

/-- What the memory protection unit asks of a region. The process pool and `roundRegionForMPU` give
such regions. -/
def Region.Supported (region : Region) : Architecture → Prop
  | .noMpu => True
  | .armv7m => (∃ exponent, 5 ≤ exponent ∧ exponent < 32 ∧ region.size = 2 ^ exponent) ∧
      region.size ∣ region.base
  | .armv8m => 32 ∣ region.base ∧ 32 ∣ region.size ∧ 0 < region.size

/-- The memory of a process. -/
structure ProcessMemory (architecture : Architecture) where
  code : Region
  data : Region
  code_supported : code.Supported architecture
  data_supported : data.Supported architecture
  code_fits : code.base + code.size < 2 ^ 32
  data_fits : data.base + data.size < 2 ^ 32

/-! ### The registers -/

/-- The two registers of a region. -/
structure RegionRegisters where
  reg0 : Nat
  reg1 : Nat
  deriving DecidableEq, Repr

/-- The field of a size. The number of leading zeros is 31 less the logarithm. -/
def sizeToMpu (size : Nat) : Nat :=
  Nat.log2 size - 1 + if size &&& (size - 1) = 0 then 0 else 1

/-- The bits of the registers that are not the place of the region: `RBAR` and `RASR` of ARMv7-M,
and `RBAR` and `RLAR` of ARMv8-M. -/
structure Attributes where
  rbar : Nat
  rasr : Nat
  rbarArmv8m : Nat
  rlarArmv8m : Nat
  deriving DecidableEq, Repr

/-- The code is read only for the kernel and the process: region 6 or 1. -/
def codeAttributes : Attributes := ⟨16 + 6, 6 * 2 ^ 24 + 2 ^ 17 + 1, 3 * 2, 16 + 1⟩

/-- The data is read and write, and not executable: region 7 or 4. -/
def dataAttributes : Attributes := ⟨16 + 7, 3 * 2 ^ 24 + 2 ^ 28 + 2 ^ 17 + 1, 1 * 2 + 1, 16 + 1⟩

/-- The values of the registers for a region. -/
def regionRegisters (attributes : Attributes) (region : Region) : Architecture → RegionRegisters
  | .noMpu => ⟨region.base, (region.base + region.size) % 2 ^ 32⟩
  | .armv7m => ⟨region.base / 32 * 32 + attributes.rbar,
      attributes.rasr + 2 * sizeToMpu region.size⟩
  | .armv8m => if region.base = (region.base + region.size) % 2 ^ 32 then ⟨0, 0⟩
      else ⟨region.base / 32 * 32 + attributes.rbarArmv8m,
        ((region.base + region.size) % 2 ^ 32 - 1) / 32 * 32 + attributes.rlarArmv8m⟩

/-- `decodeMpuRegion`: the start and the end of a region. -/
def decodeMpuRegion (registers : RegionRegisters) : Architecture → Nat × Nat
  | .noMpu => (registers.reg0, registers.reg1)
  | .armv7m => (registers.reg0 / 32 * 32,
      (registers.reg0 / 32 * 32 + 2 ^ (registers.reg1 / 2 % 32 + 1)) % 2 ^ 32)
  | .armv8m => (registers.reg0 / 32 * 32, (registers.reg1 / 32 * 32 + 31 + 1) % 2 ^ 32)

structure MPUConfiguration where
  architecture : Architecture
  code : RegionRegisters
  data : RegionRegisters
  deriving DecidableEq, Repr

/-- The constructor, for the regions of the code and the data. -/
def MPUConfiguration.construct (architecture : Architecture) (code data : Region) :
    MPUConfiguration :=
  ⟨architecture, regionRegisters codeAttributes code architecture,
    regionRegisters dataAttributes data architecture⟩

def ProcessMemory.mpu {architecture : Architecture} (process : ProcessMemory architecture) :
    MPUConfiguration :=
  .construct architecture process.code process.data

section

variable (mpu : MPUConfiguration) (base size : Nat)

def MPUConfiguration.codeRange : Nat × Nat :=
  decodeMpuRegion mpu.code mpu.architecture

def MPUConfiguration.dataRange : Nat × Nat :=
  decodeMpuRegion mpu.data mpu.architecture

/-! ### Checks of pointers -/

/-- An access of the kernel through a pointer of a process. A pointer to an object of words, such
as a structure or another pointer, is noted on its own, beside the bytes that are accessed. -/
inductive Access where
  | read (address length : Nat)
  | write (address length : Nat)
  | object (pointer : Nat)
  deriving DecidableEq, Repr

/-- The content of the memory, by address. -/
abbrev Memory := Nat → UInt8

def withinForReading : Bool :=
  ((decide (mpu.codeRange.1 ≤ base) && decide ((base + size) % 2 ^ 32 ≤ mpu.codeRange.2)) ||
    (decide (mpu.dataRange.1 ≤ base) && decide ((base + size) % 2 ^ 32 ≤ mpu.dataRange.2))) &&
    decide (base ≤ (base + size) % 2 ^ 32)

def withinForWriting : Bool :=
  decide (mpu.dataRange.1 ≤ base) && decide ((base + size) % 2 ^ 32 ≤ mpu.dataRange.2) &&
    decide (base ≤ (base + size) % 2 ^ 32)

end

def strnlen (memory : Memory) : Nat → Nat → Nat
  | _, 0 => 0
  | str, limit + 1 => if memory str = 0 then 0 else strnlen memory (str + 1) limit + 1

/-- The bytes up to the end of the string, in the whole memory. -/
def strlen (memory : Memory) (str : Nat) : Nat := strnlen memory str (2 ^ 32)

/-- A call of `strnlen`: it reads up to the end of the string or the limit. -/
def countString (memory : Memory) (str limit : Nat) : Logged Access Nat :=
  ⟨strnlen memory str limit, [.read str (min (strnlen memory str limit + 1) limit)]⟩

/-- `withinForReading` for a string. -/
def withinForReadingString (memory : Memory) (mpu : MPUConfiguration) (base : Nat) :
    Logged Access Bool :=
  if mpu.codeRange.1 ≤ base ∧ base < mpu.codeRange.2 then do
    return decide ((← countString memory base (mpu.codeRange.2 - base)) < mpu.codeRange.2 - base)
  else if mpu.dataRange.1 ≤ base ∧ base < mpu.dataRange.2 then do
    return decide ((← countString memory base (mpu.dataRange.2 - base)) < mpu.dataRange.2 - base)
  else return false

/-! ### Accesses inside the memory of a process -/

variable {architecture : Architecture} {process : ProcessMemory architecture} {memory : Memory}
  {region : Region} {base size : Nat}

/-- Every byte that is read is in the code or the data of the process, and every byte that is
written is in its data. -/
def Permitted (process : ProcessMemory architecture) : Access → Prop
  | .read address length => ∀ offset < length,
      process.code.Contains (address + offset) ∨ process.data.Contains (address + offset)
  | .write address length => ∀ offset < length, process.data.Contains (address + offset)
  | .object _ => True

theorem sizeToMpu_two_pow {exponent : Nat} : sizeToMpu (2 ^ exponent) = exponent - 1 := by
  unfold sizeToMpu
  rw [Nat.log2_two_pow, Nat.and_two_pow_sub_one_eq_mod, Nat.mod_self, if_pos rfl, Nat.add_zero]

/-- The attributes are in bits that the place of a region leaves free. -/
structure Attributes.Free (attributes : Attributes) : Prop where
  rbar : attributes.rbar < 32
  rasr : attributes.rasr % 64 = 1
  rbarArmv8m : attributes.rbarArmv8m < 32
  rlarArmv8m : attributes.rlarArmv8m < 32

/-- The registers hold the start and the end of a region that is supported. -/
theorem decode_regionRegisters {attributes : Attributes}
    (free : attributes.Free) (supported : region.Supported architecture)
    (fits : region.base + region.size < 2 ^ 32) :
    decodeMpuRegion (regionRegisters attributes region architecture) architecture =
      (region.base, region.base + region.size) := by
  have ends := Nat.mod_eq_of_lt fits
  cases architecture with
  | noMpu =>
    unfold decodeMpuRegion regionRegisters
    rw [ends]
  | armv7m =>
    obtain ⟨⟨exponent, least, bounded, power⟩, aligned⟩ := supported
    have multiple : 32 ∣ region.base := by
      refine Nat.dvd_trans ?_ aligned
      rw [power]
      exact Nat.pow_dvd_pow 2 least
    have low := free.rbar
    have start : (region.base / 32 * 32 + attributes.rbar) / 32 * 32 = region.base := by omega
    have odd := free.rasr
    have size : (attributes.rasr + 2 * sizeToMpu region.size) / 2 % 32 + 1 = exponent := by
      rw [power, sizeToMpu_two_pow]
      omega
    unfold decodeMpuRegion regionRegisters
    rw [start, size, ← power, ends]
  | armv8m =>
    obtain ⟨baseAligned, sizeAligned, positive⟩ := supported
    have low := free.rbarArmv8m
    have limitLow := free.rlarArmv8m
    unfold decodeMpuRegion regionRegisters
    rw [if_neg (by omega)]
    simp only [Prod.mk.injEq]
    omega

theorem codeRange_eq : process.mpu.codeRange =
    (process.code.base, process.code.base + process.code.size) :=
  decode_regionRegisters (by constructor <;> decide) process.code_supported process.code_fits

theorem dataRange_eq : process.mpu.dataRange =
    (process.data.base, process.data.base + process.data.size) :=
  decode_regionRegisters (by constructor <;> decide) process.data_supported process.data_fits

/-- A sum that wraps around is less than its first summand. -/
theorem withinForReading_iff (small : size < 2 ^ 32) :
    withinForReading process.mpu base size = true ↔
      (Region.mk base size).Within process.code ∨ (Region.mk base size).Within process.data := by
  have codeFits := process.code_fits
  have dataFits := process.data_fits
  simp only [withinForReading, codeRange_eq, dataRange_eq, Bool.and_eq_true, Bool.or_eq_true,
    decide_eq_true_eq, Region.Within]
  omega

theorem withinForWriting_iff (small : size < 2 ^ 32) :
    withinForWriting process.mpu base size = true ↔ (Region.mk base size).Within process.data := by
  have dataFits := process.data_fits
  simp only [withinForWriting, dataRange_eq, Bool.and_eq_true, decide_eq_true_eq, Region.Within]
  omega

theorem contains_of_range {length : Nat}
    (lower : region.base ≤ base) (upper : base + length ≤ region.base + region.size) :
    ∀ offset < length, region.Contains (base + offset) := by
  intro offset below
  unfold Region.Contains
  omega

theorem withinForReading_spec (small : size < 2 ^ 32)
    (within : withinForReading process.mpu base size = true) :
    Permitted process (.read base size) := by
  intro offset below
  rcases (withinForReading_iff small).mp within with code | data
  · exact .inl (contains_of_range code.1 code.2 offset below)
  · exact .inr (contains_of_range data.1 data.2 offset below)

theorem withinForWriting_spec (small : size < 2 ^ 32)
    (within : withinForWriting process.mpu base size = true) :
    Permitted process (.write base size) := by
  obtain ⟨lower, upper⟩ := (withinForWriting_iff small).mp within
  exact contains_of_range lower upper

/-- A larger limit does not change where a string ends. -/
theorem strnlen_eq_of_lt {str limit other : Nat} (ended : strnlen memory str limit < limit)
    (larger : limit ≤ other) : strnlen memory str other = strnlen memory str limit := by
  induction limit generalizing str other with
  | zero => contradiction
  | succ limit inductionHypothesis =>
    obtain ⟨other, rfl⟩ := Nat.exists_eq_add_of_le' (Nat.one_le_of_lt larger)
    unfold strnlen at ended ⊢
    split
    · rfl
    · rename_i nonzero
      rw [if_neg nonzero] at ended
      rw [inductionHypothesis (by omega) (by omega)]

/-- The check of a string stays in the memory of the process itself. -/
theorem withinForReadingString_permitted :
    (withinForReadingString memory process.mpu base).All (Permitted process) := by
  have counted : ∀ limit, (∀ offset < limit, process.code.Contains (base + offset) ∨
      process.data.Contains (base + offset)) →
      (countString memory base limit).All (Permitted process) := by
    intro limit inside
    refine (Logged.all_singleton_iff _).mpr fun offset below => inside offset ?_
    exact below.trans_le (Nat.min_le_right _ _)
  unfold withinForReadingString
  rw [codeRange_eq, dataRange_eq]
  split
  · rename_i code
    refine (Logged.all_bind_iff _ _ _).mpr ⟨counted _ fun offset below => .inl ?_,
      Logged.all_pure _ _⟩
    exact contains_of_range code.1 (by omega) offset below
  · split
    · rename_i data
      refine (Logged.all_bind_iff _ _ _).mpr ⟨counted _ fun offset below => .inr ?_,
        Logged.all_pure _ _⟩
      exact contains_of_range data.1 (by omega) offset below
    · exact Logged.all_pure _ _

/-- A string that is accepted ends in the memory of the process. -/
theorem withinForReadingString_spec
    (within : (withinForReadingString memory process.mpu base).value = true) :
    Permitted process (.read base (strlen memory base + 1)) := by
  have codeFits := process.code_fits
  have dataFits := process.data_fits
  unfold withinForReadingString at within
  rw [codeRange_eq, dataRange_eq] at within
  unfold strlen
  split at within
  · rename_i code
    have ended := of_decide_eq_true within
    simp only [countString] at ended
    rw [strnlen_eq_of_lt ended (by omega)]
    exact fun offset below => .inl (contains_of_range code.1 (by omega) offset below)
  · split at within
    · rename_i data
      have ended := of_decide_eq_true within
      simp only [countString] at ended
      rw [strnlen_eq_of_lt ended (by omega)]
      exact fun offset below => .inr (contains_of_range data.1 (by omega) offset below)
    · cases within

end Miosix.Protection
