/-
This file proves that the regions of the memory protection unit are the memory of a process, and
nothing else.

On ARMv7-M regions may overlap, so the constructor of `MPUConfiguration` only has two regions to
encode. The size is encoded as a logarithm and the base is masked, and what is decoded is exact for
a power of two that divides the base. The blocks of the process pool are such regions, and the loop
of `roundRegionForMPU` looks for the smallest one around a program that runs from flash.

On ARMv8-M regions must not overlap. The constructor splits the code space and the memory of the
process pool into six regions, with a layout for each order of the code and the data.
-/

import Miosix.Process.Pool
import Miosix.Process.Protection

namespace Miosix.Protection

open ProcessPool

/-! ### Rounding of regions -/

/-- The loop of `roundRegionForMPU`. It ends in `errorHandler` at 2GB, which is none here. -/
def roundLoop (p size : Nat) : Nat → Nat → Option Region
  | 0, _ => none
  | fuel + 1, x =>
      if 2 ^ 31 ≤ x then none
      else if bitCeil (size + (p - p / x * x)) = x then some ⟨p / x * x, x⟩
      else roundLoop p size fuel (bitCeil (size + (p - p / x * x)))

/-- The region around a program that is not copied. The loop doubles a size of 32 bits. -/
def roundRegionForMPU (p size : Nat) : Architecture → Option Region
  | .noMpu => some ⟨p, size⟩
  | .armv7m => roundLoop p size 32 (bitCeil size)
  | .armv8m => some ⟨p / 32 * 32, ((size + (p - p / 32 * 32)) % 2 ^ 32 + 31) % 2 ^ 32 / 32 * 32⟩

variable {size exponent : Nat}

theorem bitCeil_le (bounded : size ≤ 2 ^ exponent) : bitCeil size ≤ 2 ^ exponent := by
  unfold bitCeil
  split
  · exact Nat.one_le_two_pow
  · have logarithm : (size - 1).log2 < exponent := (Nat.log2_lt (by omega)).mpr (by omega)
    exact Nat.pow_le_pow_right (by decide) logarithm

theorem bitCeil_mono {small large : Nat} (ordered : small ≤ large) :
    bitCeil small ≤ bitCeil large := by
  obtain ⟨exponent, power⟩ := bitCeil_eq_two_pow large
  have bound := ordered.trans (le_bitCeil large)
  rw [power] at bound ⊢
  exact bitCeil_le bound

variable {x : Nat}

theorem mod_le_mod_of_dvd {y : Nat} (p : Nat) (divides : x ∣ y) : p % x ≤ p % y := by
  rw [← Nat.mod_mod_of_dvd p divides]
  exact Nat.mod_le _ _

variable {p fuel : Nat}

/-- A power of two smaller than 2GB that is aligned to its own size, around a range. -/
structure Covers (block : Region) (p size : Nat) : Prop where
  power : ∃ exponent, block.size = 2 ^ exponent
  small : block.size < 2 ^ 31
  aligned : block.size ∣ block.base
  around : (Region.mk p size).Within block

/-- The loop ends, and in every turn the sum and the power of two above it fit in 32 bits. -/
def NoOverflow (p size : Nat) : Nat → Nat → Prop
  | 0, _ => False
  | fuel + 1, x => 2 ^ 31 ≤ x ∨ size + (p - p / x * x) ≤ 2 ^ 31 ∧
      (bitCeil (size + (p - p / x * x)) = x ∨
        NoOverflow p size fuel (bitCeil (size + (p - p / x * x))))

theorem roundLoop_covers {region : Region} (rounded : roundLoop p size fuel x = some region) :
    Covers region p size := by
  induction fuel generalizing x with
  | zero => cases rounded
  | succ fuel inductionHypothesis =>
    unfold roundLoop at rounded
    by_cases excessive : 2 ^ 31 ≤ x
    · rw [if_pos excessive] at rounded
      cases rounded
    rw [if_neg excessive] at rounded
    by_cases found : bitCeil (size + (p - p / x * x)) = x
    · rw [if_pos found] at rounded
      cases rounded
      obtain ⟨exponent, power⟩ := bitCeil_eq_two_pow (size + (p - p / x * x))
      have enough := le_bitCeil (size + (p - p / x * x))
      rw [found] at power enough
      have below := Nat.div_mul_le_self p x
      refine ⟨⟨exponent, power⟩, not_le.mp excessive, Nat.dvd_mul_left x _, below, ?_⟩
      show p + size ≤ p / x * x + x
      omega
    · rw [if_neg found] at rounded
      exact inductionHypothesis rounded

variable {memory : Region}

/-- The offset of an address in a memory that is aligned to its size. -/
theorem Region.Contains.mod_eq (inside : memory.Contains p)
    (aligned : memory.size ∣ memory.base) : p % memory.size = p - memory.base := by
  obtain ⟨lower, upper⟩ := inside
  obtain ⟨multiple, base⟩ := aligned
  obtain ⟨offset, rfl⟩ := Nat.exists_eq_add_of_le lower
  rw [Nat.add_sub_cancel_left, base, Nat.mul_add_mod]
  exact Nat.mod_eq_of_lt (by omega)

/-- The block around an address is in every memory that is made of such blocks. -/
theorem around_within (inside : memory.Contains p)
    (base : x ∣ memory.base) (size : x ∣ memory.size) :
    (Region.mk (p / x * x) x).Within memory := by
  obtain ⟨lower, upper⟩ := inside
  have positive : 0 < x := Nat.pos_of_dvd_of_pos size (by omega)
  constructor
  · have first := Nat.div_le_div_right (c := x) lower
    calc memory.base = memory.base / x * x := (Nat.div_mul_cancel base).symm
      _ ≤ p / x * x := Nat.mul_le_mul_right x first
  · obtain ⟨count, total⟩ := Nat.dvd_add base size
    have last : p / x < count := by
      refine Nat.div_lt_of_lt_mul ?_
      rwa [← total]
    calc p / x * x + x = (p / x + 1) * x := (Nat.succ_mul _ _).symm
      _ ≤ count * x := Nat.mul_le_mul_right x last
      _ = memory.base + memory.size := by rw [total, Nat.mul_comm]

/-- In a block around the range, the loop stays in the block and ends: the size is at least doubled
from one turn to the next. -/
theorem roundLoop_within {limit : Nat} (power : memory.size = 2 ^ limit)
    (covers : Covers memory p size) (positive : 0 < size)
    (bounded : 2 ^ exponent ≤ 2 ^ limit) (enough : limit < fuel + exponent)
    (grown : 2 ^ exponent ≤ bitCeil (size + p % 2 ^ exponent)) :
    NoOverflow p size fuel (2 ^ exponent) ∧
      ∃ region, roundLoop p size fuel (2 ^ exponent) = some region ∧ region.Within memory := by
  obtain ⟨-, small, aligned, lower, upper⟩ := covers
  simp only at lower upper
  have offset : p % 2 ^ limit = p - memory.base := by
    rw [← power]
    exact Region.Contains.mod_eq ⟨lower, by omega⟩ aligned
  induction fuel generalizing exponent with
  | zero =>
    have := (Nat.pow_le_pow_iff_right (show 1 < 2 by decide)).mp bounded
    omega
  | succ fuel inductionHypothesis =>
    have divides : 2 ^ exponent ∣ 2 ^ limit := two_pow_dvd_of_le bounded
    have room : size + p % 2 ^ exponent ≤ 2 ^ limit := by
      have := mod_le_mod_of_dvd p divides
      omega
    unfold roundLoop NoOverflow
    rw [if_neg (by omega), ← Nat.mod_eq_sub_div_mul]
    by_cases found : bitCeil (size + p % 2 ^ exponent) = 2 ^ exponent
    · rw [if_pos found]
      rw [← power] at divides
      exact ⟨.inr ⟨by omega, .inl found⟩, _, rfl,
        around_within ⟨lower, by omega⟩ (divides.trans aligned) divides⟩
    · rw [if_neg found]
      obtain ⟨next, doubled⟩ := bitCeil_eq_two_pow (size + p % 2 ^ exponent)
      have fits := bitCeil_le room
      rw [doubled] at found grown fits ⊢
      have larger : exponent < next :=
        (Nat.pow_lt_pow_iff_right (show 1 < 2 by decide)).mp (by omega)
      have further : 2 ^ next ≤ bitCeil (size + p % 2 ^ next) := by
        rw [← doubled]
        refine bitCeil_mono (Nat.add_le_add_left ?_ size)
        rw [doubled]
        exact mod_le_mod_of_dvd p (pow_dvd_pow 2 larger.le)
      obtain ⟨noOverflow, rest⟩ := inductionHypothesis fits (by omega) further
      exact ⟨.inr ⟨by omega, .inr noOverflow⟩, rest⟩

/-- A range in a block has a region around it that is in the block too. -/
theorem Covers.roundRegionForMPU (covers : Covers memory p size) (positive : 0 < size) :
    NoOverflow p size 32 (bitCeil size) ∧ ∃ region,
      roundRegionForMPU p size .armv7m = some region ∧ region.Within memory := by
  obtain ⟨limit, power⟩ := covers.power
  obtain ⟨exponent, start⟩ := bitCeil_eq_two_pow size
  have below : limit < 31 := by
    have small := covers.small
    rw [power] at small
    exact (Nat.pow_lt_pow_iff_right (show 1 < 2 by decide)).mp small
  have fits : size ≤ 2 ^ limit := by
    obtain ⟨lower, upper⟩ := covers.around
    simp only at lower upper
    omega
  have bounded := bitCeil_le fits
  have grown := bitCeil_mono (Nat.le_add_right size (p % bitCeil size))
  rw [start] at bounded grown
  rw [Protection.roundRegionForMPU, start]
  exact roundLoop_within power covers positive bounded (by omega) grown

/-- If some block is around a range, the loop ends without an overflow and returns the smallest
one. -/
theorem rounding_is_smallest (p size : Nat) (positive : 0 < size)
    (coverable : ∃ block, Covers block p size) :
    size ≤ 2 ^ 31 ∧ NoOverflow p size 32 (bitCeil size) ∧
      ∃ region, roundRegionForMPU p size .armv7m = some region ∧ Covers region p size ∧
        ∀ block, Covers block p size → region.size ≤ block.size := by
  obtain ⟨block, covers⟩ := coverable
  obtain ⟨noOverflow, region, rounded, -⟩ := covers.roundRegionForMPU positive
  refine ⟨?_, noOverflow, region, rounded, roundLoop_covers rounded, fun other otherCovers => ?_⟩
  · obtain ⟨lower, upper⟩ := covers.around
    have small := covers.small
    simp only at lower upper
    omega
  · obtain ⟨-, same, returned, lower, upper⟩ := otherCovers.roundRegionForMPU positive
    rw [rounded] at returned
    cases returned
    omega

/-- 1000 bytes across the end of a kilobyte. -/
theorem rounding_is_smallest_unaligned : ∃ region, (∃ block, Covers block 0x080003f0 1000) ∧
    roundRegionForMPU 0x080003f0 1000 .armv7m = some region ∧ region.size = 2048 ∧
    ∀ block, Covers block 0x080003f0 1000 → region.size ≤ block.size := by
  have coverable : ∃ block, Covers block 0x080003f0 1000 :=
    ⟨⟨0x08000000, 2 ^ 20⟩, ⟨20, rfl⟩, by decide, by decide, by decide, by decide⟩
  obtain ⟨-, -, region, rounded, -, smallest⟩ :=
    rounding_is_smallest 0x080003f0 1000 (by decide) coverable
  have returned : roundRegionForMPU 0x080003f0 1000 .armv7m = some ⟨0x08000000, 2048⟩ := by
    decide +kernel
  rw [returned] at rounded
  cases rounded
  exact ⟨_, coverable, returned, rfl, smallest⟩

/-- A program in flash, which is aligned to its size and smaller than 2GB, has a region around it
that is in flash too. -/
theorem roundRegionForMPU_returns {flash : Region}
    (supported : flash.Supported .armv7m) (small : flash.size < 2 ^ 31) (least : 32 ≤ size)
    (inside : (Region.mk p size).Within flash) :
    ∃ region, roundRegionForMPU p size .armv7m = some region ∧ region.Within flash ∧
      region.Supported .armv7m := by
  obtain ⟨⟨limit, -, -, power⟩, aligned⟩ := supported
  have covers : Covers flash p size := ⟨⟨limit, power⟩, small, aligned, inside⟩
  obtain ⟨-, region, rounded, within⟩ := covers.roundRegionForMPU (by omega)
  obtain ⟨⟨exponent, size⟩, small, aligned, lower, upper⟩ := roundLoop_covers rounded
  simp only at lower upper
  refine ⟨region, rounded, within, ⟨exponent, ?_, ?_, size⟩, aligned⟩
  · refine (Nat.pow_le_pow_iff_right (show 1 < 2 by decide)).mp ?_
    omega
  · refine (Nat.pow_lt_pow_iff_right (show 1 < 2 by decide)).mp ?_
    omega

/-! ### Overlapping regions -/

/-- A block that the process pool returned, in whatever state. -/
def Allocated (area : Area) (region : Region) : Prop :=
  ∃ pool request next, allocate area pool request = .ok (⟨region.base, region.size⟩, next)

/-- The code of a process: a block of the pool for a program that is copied, and a rounded region
for a program that runs from flash. -/
inductive CodeBlock (area : Area) : Region → Prop where
  | copied {region : Region} : Allocated area region → CodeBlock area region
  | inPlace {flash region : Region} {p size : Nat} : flash.Supported .armv7m →
      flash.size < 2 ^ 31 → flash.base + flash.size < 2 ^ 32 → 32 ≤ size →
      (Region.mk p size).Within flash → roundRegionForMPU p size .armv7m = some region →
      CodeBlock area region

variable {area : Area} {region code data : Region} {first last : Nat}
  {executePermitted unprivilegedAccess : Bool} {address : Nat}

theorem Allocated.supported (allocated : Allocated area region) :
    region.Supported .armv7m ∧ region.base + region.size < 2 ^ 32 := by
  obtain ⟨pool, request, next, served⟩ := allocated
  obtain ⟨⟨exponent, power⟩, -, whole, positive⟩ := roundUp_spec request
  obtain ⟨i, place, vacant, same, -⟩ := exists_vacant_of_allocate served
  obtain ⟨base, size⟩ := Block.mk.inj same
  obtain ⟨-, upper⟩ := (spans_of_vacant whole positive vacant).contains
  have fits := area.fits
  simp only at upper
  have aligned := dvd_of_place whole (Nat.pos_of_div_pos positive) place
  have least : 2 ^ 10 ≤ 2 ^ exponent := by
    rw [← power]
    exact Nat.le_of_dvd (Nat.pos_of_div_pos positive) whole
  have largest : 2 ^ exponent < 2 ^ 32 := by
    omega
  rw [← size, ← base] at aligned
  rw [← size] at power
  refine ⟨⟨⟨exponent, ?_, ?_, power⟩, aligned⟩, by omega⟩
  · have := (Nat.pow_le_pow_iff_right (show 1 < 2 by decide)).mp least
    omega
  · exact (Nat.pow_lt_pow_iff_right (show 1 < 2 by decide)).mp largest

theorem CodeBlock.supported (block : CodeBlock area region) :
    region.Supported .armv7m ∧ region.base + region.size < 2 ^ 32 := by
  cases block with
  | copied allocated => exact allocated.supported
  | inPlace flash small fits least inside rounded =>
    obtain ⟨found, returned, within, supported⟩ :=
      roundRegionForMPU_returns flash small least inside
    rw [rounded] at returned
    cases returned
    exact ⟨supported, within.2.trans_lt fits⟩

/-- The memory of a process with the blocks it was given. -/
def CodeBlock.process (codeBlock : CodeBlock area code) (dataBlock : Allocated area data) :
    ProcessMemory .armv7m where
  code := code
  data := data
  code_supported := codeBlock.supported.1
  data_supported := dataBlock.supported.1
  code_fits := codeBlock.supported.2
  data_fits := dataBlock.supported.2

/-- On ARMv7-M the regions that are encoded and decoded again are the blocks, and the checks of
pointers accept the ranges that are in the blocks. -/
theorem blocks_are_protected (codeBlock : CodeBlock area code) (dataBlock : Allocated area data) :
    (MPUConfiguration.construct .armv7m code data).codeRange = (code.base, code.base + code.size) ∧
    (MPUConfiguration.construct .armv7m code data).dataRange = (data.base, data.base + data.size) ∧
    ∀ base size, size < 2 ^ 32 →
      (withinForWriting (MPUConfiguration.construct .armv7m code data) base size = true ↔
        (Region.mk base size).Within data) ∧
      (withinForReading (MPUConfiguration.construct .armv7m code data) base size = true ↔
        (Region.mk base size).Within code ∨ (Region.mk base size).Within data) := by
  have same : MPUConfiguration.construct .armv7m code data =
      (codeBlock.process dataBlock).mpu := rfl
  rw [same]
  exact ⟨codeRange_eq, dataRange_eq, fun base size small =>
    ⟨withinForWriting_iff small, withinForReading_iff small⟩⟩

theorem allocated_of_toOption (pool : Pool) (request : Nat)
    (served : (allocate area pool request).toOption.map Prod.fst =
      some ⟨region.base, region.size⟩) : Allocated area region := by
  cases outcome : allocate area pool request with
  | error reason =>
    rw [outcome] at served
    cases served
  | ok result =>
    rw [outcome] at served
    exact ⟨pool, request, result.2, outcome.trans
      (congrArg (fun block => Except.ok (block, result.2)) (Option.some.inj served))⟩

/-- A program of 1000 bytes that is not aligned in a flash of one megabyte, and a data block of two
kilobytes. -/
theorem blocks_are_protected_in_flash : ∃ area : Area,
    withinForReading (MPUConfiguration.construct .armv7m ⟨0x08001000, 1024⟩ ⟨0x20000000, 2048⟩)
      0x080011f0 16 = true ∧
    Allocated area ⟨0x20000000, 2048⟩ := by
  let area : Area := ⟨0x20000000, 32768, by decide, by decide, by decide⟩
  have dataBlock : Allocated area ⟨0x20000000, 2048⟩ := by
    refine allocated_of_toOption ⟨fun _ => false, fun _ => none⟩ 1500 ?_
    decide +kernel
  have codeBlock : CodeBlock area ⟨0x08001000, 1024⟩ := by
    refine @CodeBlock.inPlace area ⟨0x08000000, 2 ^ 20⟩ _ 0x08001010 1000
      ⟨⟨20, by decide, by decide, rfl⟩, by decide⟩ (by decide) (by decide) (by decide)
      ⟨by decide, by decide⟩ rfl
  obtain ⟨-, -, checks⟩ := blocks_are_protected codeBlock dataBlock
  exact ⟨area, (checks _ _ (by decide)).2.mpr (.inl ⟨by decide, by decide⟩), dataBlock⟩

/-! ### Regions that do not overlap -/

/-- The end of the code space, where the memory for data begins. -/
def codeSpaceEnd : Nat := 0x20000000

/-- `mpuRegion`: the values of `RBAR` and `RLAR` of a region. A region that is empty is disabled.
The field `AP` is in the bits 1 and 2 of `RBAR`, `XN` is bit 0, and bit 0 of `RLAR` enables the
region. -/
def mpuRegion (first last : Nat) (executePermitted unprivilegedAccess : Bool) : RegionRegisters :=
  if first = last then ⟨0, 0⟩
  else
    let ap := match executePermitted, unprivilegedAccess with
      | false, false => 0
      | true, false => 2
      | false, true => 1
      | true, true => 3
    let xn := if executePermitted then 0 else 1
    let pxn := if executePermitted && !unprivilegedAccess then 0 else 1
    ⟨first / 32 * 32 + 2 * ap + xn, (last - 1) / 32 * 32 + 16 * pxn + 1⟩

/-- The registers of the memory that holds the process pool while the kernel runs, as
`IRQconfigureMPURegion` sets them: it is for the kernel only, and not executable. -/
def kernelspaceRegisters (ram : Region) : RegionRegisters :=
  ⟨ram.base / 32 * 32 + 1, (ram.base + ram.size - 1) / 32 * 32 + 16 + 1⟩

/-- The constructor for ARMv8-M. The first argument is the part of `kernelspaceMpuConfiguration`
for the memory that holds the process pool, and the result has the registers of the regions 0 to
5. -/
def regValues (kernelspace : RegionRegisters) (code data : Region) : List RegionRegisters :=
  let codeStart := code.base
  let codeEnd := (code.base + code.size) % 2 ^ 32
  let dataStart := data.base
  let dataEnd := (data.base + data.size) % 2 ^ 32
  let ramStart := (decodeMpuRegion kernelspace .armv8m).1
  let ramEnd := (decodeMpuRegion kernelspace .armv8m).2
  if codeStart < codeSpaceEnd then
    [mpuRegion 0 codeStart true false,
      mpuRegion codeStart codeEnd true true,
      mpuRegion codeEnd codeSpaceEnd true false,
      mpuRegion ramStart dataStart false false,
      mpuRegion dataStart dataEnd false true,
      mpuRegion dataEnd ramEnd false false]
  else if codeStart < dataStart then
    [mpuRegion 0 codeSpaceEnd true false,
      mpuRegion codeStart codeEnd true true,
      mpuRegion ramStart codeStart false false,
      mpuRegion codeEnd dataStart false false,
      mpuRegion dataStart dataEnd false true,
      mpuRegion dataEnd ramEnd false false]
  else
    [mpuRegion 0 codeSpaceEnd true false,
      mpuRegion codeStart codeEnd true true,
      mpuRegion ramStart dataStart false false,
      mpuRegion dataEnd codeStart false false,
      mpuRegion dataStart dataEnd false true,
      mpuRegion codeEnd ramEnd false false]

section

variable (registers : RegionRegisters)

/-- The addresses of a region. -/
def RegionRegisters.Covers (address : Nat) : Prop :=
  registers.reg1 % 2 = 1 ∧ registers.reg0 / 32 * 32 ≤ address ∧
    address ≤ registers.reg1 / 32 * 32 + 31

/-- A process may read. -/
def RegionRegisters.Readable : Prop :=
  registers.reg0 / 2 % 2 = 1

/-- A process may write. -/
def RegionRegisters.Writable : Prop :=
  registers.Readable ∧ registers.reg0 / 4 % 2 = 0

/-- A process may fetch instructions. -/
def RegionRegisters.Executable : Prop :=
  registers.Readable ∧ registers.reg0 % 2 = 0

end

/-- The code is in flash or with the data in the memory that holds the process pool. -/
structure Layout (ram code data : Region) : Prop where
  ram_supported : ram.Supported .armv8m
  ram_above : codeSpaceEnd ≤ ram.base
  ram_fits : ram.base + ram.size < 2 ^ 32
  code_supported : code.Supported .armv8m
  code_inside : code.base + code.size ≤ codeSpaceEnd ∨ code.Within ram
  data_supported : data.Supported .armv8m
  data_inside : data.Within ram
  disjoint : code.base + code.size ≤ data.base ∨ data.base + data.size ≤ code.base

theorem covers_mpuRegion
    (firstAligned : 32 ∣ first) (lastAligned : 32 ∣ last) (ordered : first ≤ last) :
    (mpuRegion first last executePermitted unprivilegedAccess).Covers address ↔
      first ≤ address ∧ address < last := by
  unfold mpuRegion
  by_cases empty : first = last
  · rw [if_pos empty]
    simp only [RegionRegisters.Covers]
    omega
  · rw [if_neg empty]
    cases executePermitted <;> cases unprivilegedAccess <;>
      simp only [RegionRegisters.Covers, Bool.false_eq_true, if_true, if_false, Bool.not_true,
        Bool.not_false, Bool.and_true, Bool.and_false] <;> omega

theorem access_mpuRegion (distinct : first ≠ last) :
    ((mpuRegion first last executePermitted unprivilegedAccess).Readable ↔
      unprivilegedAccess = true) ∧
    ((mpuRegion first last executePermitted unprivilegedAccess).Writable ↔
      unprivilegedAccess = true ∧ executePermitted = false) ∧
    ((mpuRegion first last executePermitted unprivilegedAccess).Executable ↔
      unprivilegedAccess = true ∧ executePermitted = true) := by
  unfold mpuRegion
  rw [if_neg distinct]
  cases executePermitted <;> cases unprivilegedAccess <;>
    simp [RegionRegisters.Readable, RegionRegisters.Writable, RegionRegisters.Executable] <;> omega

/-- The arguments of a call of `mpuRegion`. -/
structure Span where
  first : Nat
  last : Nat
  executePermitted : Bool
  unprivilegedAccess : Bool

def Span.registers (span : Span) : RegionRegisters :=
  mpuRegion span.first span.last span.executePermitted span.unprivilegedAccess

def Span.Holds (span : Span) (address : Nat) : Prop :=
  span.first ≤ address ∧ address < span.last

/-- Spans without a gap or an overlap, where only the code and the data are for the process. -/
structure Tiles (ram code data : Region) (spans : List Span) : Prop where
  aligned : ∀ span ∈ spans, 32 ∣ span.first ∧ 32 ∣ span.last ∧ span.first ≤ span.last
  apart : spans.Pairwise fun span other => ∀ address, ¬ (span.Holds address ∧ other.Holds address)
  covered : ∀ address, (∃ span ∈ spans, span.Holds address) ↔
    address < codeSpaceEnd ∨ ram.Contains address
  code : ∀ address, (∃ span ∈ spans, span.Holds address ∧ span.unprivilegedAccess = true ∧
    span.executePermitted = true) ↔ code.Contains address
  data : ∀ address, (∃ span ∈ spans, span.Holds address ∧ span.unprivilegedAccess = true ∧
    span.executePermitted = false) ↔ data.Contains address

variable {ram : Region}

/-- The spans of a layout, where no sum wraps around. -/
def spans (ram code data : Region) : List Span :=
  if code.base < codeSpaceEnd then
    [⟨0, code.base, true, false⟩, ⟨code.base, code.base + code.size, true, true⟩,
      ⟨code.base + code.size, codeSpaceEnd, true, false⟩, ⟨ram.base, data.base, false, false⟩,
      ⟨data.base, data.base + data.size, false, true⟩,
      ⟨data.base + data.size, ram.base + ram.size, false, false⟩]
  else if code.base < data.base then
    [⟨0, codeSpaceEnd, true, false⟩, ⟨code.base, code.base + code.size, true, true⟩,
      ⟨ram.base, code.base, false, false⟩, ⟨code.base + code.size, data.base, false, false⟩,
      ⟨data.base, data.base + data.size, false, true⟩,
      ⟨data.base + data.size, ram.base + ram.size, false, false⟩]
  else
    [⟨0, codeSpaceEnd, true, false⟩, ⟨code.base, code.base + code.size, true, true⟩,
      ⟨ram.base, data.base, false, false⟩, ⟨data.base + data.size, code.base, false, false⟩,
      ⟨data.base, data.base + data.size, false, true⟩,
      ⟨code.base + code.size, ram.base + ram.size, false, false⟩]

theorem decode_kernelspaceRegisters (supported : ram.Supported .armv8m)
    (fits : ram.base + ram.size < 2 ^ 32) :
    decodeMpuRegion (kernelspaceRegisters ram) .armv8m = (ram.base, ram.base + ram.size) := by
  obtain ⟨base, size, positive⟩ := supported
  unfold decodeMpuRegion kernelspaceRegisters
  simp only [Prod.mk.injEq]
  omega

theorem Layout.regValues_eq (layout : Layout ram code data) :
    regValues (kernelspaceRegisters ram) code data = (spans ram code data).map Span.registers := by
  have codeEnd : (code.base + code.size) % 2 ^ 32 = code.base + code.size := by
    refine Nat.mod_eq_of_lt ?_
    have fits := layout.ram_fits
    rcases layout.code_inside with flash | ⟨-, upper⟩
    · unfold codeSpaceEnd at flash
      omega
    · omega
  have dataEnd : (data.base + data.size) % 2 ^ 32 = data.base + data.size :=
    Nat.mod_eq_of_lt (layout.data_inside.2.trans_lt layout.ram_fits)
  unfold regValues spans
  simp only [codeEnd, dataEnd, decode_kernelspaceRegisters layout.ram_supported layout.ram_fits]
  split_ifs <;> rfl

theorem Layout.tiles (layout : Layout ram code data) :
    Tiles ram code data (spans ram code data) := by
  obtain ⟨⟨ramBase, ramSize, ramPositive⟩, ramAbove, ramFits, ⟨codeBase, codeSize, codePositive⟩,
    codeInside, ⟨dataBase, dataSize, dataPositive⟩, ⟨dataLower, dataUpper⟩, disjoint⟩ := layout
  unfold Region.Within at codeInside
  unfold codeSpaceEnd at ramAbove codeInside
  constructor
  · unfold spans codeSpaceEnd
    split_ifs <;>
      simp only [List.forall_mem_cons, List.not_mem_nil, false_imp_iff, implies_true, and_true] <;>
      omega
  · unfold spans codeSpaceEnd
    split_ifs <;>
      simp only [List.pairwise_cons, List.forall_mem_cons, List.not_mem_nil, false_imp_iff,
        implies_true, and_true, List.Pairwise.nil, Span.Holds, ← forall_and] <;>
      intro address <;> omega
  · intro address
    unfold spans codeSpaceEnd
    split_ifs <;>
      simp only [List.mem_cons, exists_eq_or_imp, List.not_mem_nil, or_false, exists_eq_left,
        Span.Holds, Region.Contains] <;>
      omega
  · intro address
    unfold spans
    split_ifs <;> simp [Span.Holds, Region.Contains]
  · intro address
    unfold spans
    split_ifs <;> simp [Span.Holds, Region.Contains]

variable {spans : List Span} {span : Span}

theorem Tiles.covers_iff (tiles : Tiles ram code data spans) (mem : span ∈ spans)
    (address : Nat) : span.registers.Covers address ↔ span.Holds address := by
  obtain ⟨first, last, ordered⟩ := tiles.aligned span mem
  exact covers_mpuRegion first last ordered

/-- Who may access an address follows from the span that holds it. -/
theorem Span.Holds.access_iff (holds : span.Holds address) :
    (span.registers.Readable ↔ span.unprivilegedAccess = true) ∧
    (span.registers.Writable ↔ span.unprivilegedAccess = true ∧ span.executePermitted = false) ∧
    (span.registers.Executable ↔
      span.unprivilegedAccess = true ∧ span.executePermitted = true) := by
  refine access_mpuRegion ?_
  have := holds.1.trans_lt holds.2
  omega

/-- A property of the regions that cover an address is one of the spans that hold it. -/
theorem Tiles.exists_iff (tiles : Tiles ram code data spans) (address : Nat)
    {property : RegionRegisters → Prop} {spanProperty : Span → Prop}
    (same : ∀ span : Span, span.Holds address → (property span.registers ↔ spanProperty span)) :
    (∃ registers ∈ spans.map Span.registers, registers.Covers address ∧ property registers) ↔
      ∃ span ∈ spans, span.Holds address ∧ spanProperty span := by
  simp only [List.mem_map, exists_exists_and_eq_and]
  refine exists_congr fun span => and_congr_right fun mem => ?_
  rw [tiles.covers_iff mem]
  exact and_congr_right (same span)

/-- On ARMv8-M the six regions are disjoint and together the code space and the memory of the
process pool. A process may read its code and its data, write its data, and execute its code. -/
theorem regions_are_isolated (layout : Layout ram code data) :
    (regValues (kernelspaceRegisters ram) code data).length = 6 ∧
    (regValues (kernelspaceRegisters ram) code data).Pairwise
      (fun registers other => ∀ address, ¬ (registers.Covers address ∧ other.Covers address)) ∧
    (∀ address, (∃ registers ∈ regValues (kernelspaceRegisters ram) code data,
        registers.Covers address) ↔ address < codeSpaceEnd ∨ ram.Contains address) ∧
    (∀ address, (∃ registers ∈ regValues (kernelspaceRegisters ram) code data,
        registers.Covers address ∧ registers.Readable) ↔
      code.Contains address ∨ data.Contains address) ∧
    (∀ address, (∃ registers ∈ regValues (kernelspaceRegisters ram) code data,
        registers.Covers address ∧ registers.Writable) ↔ data.Contains address) ∧
    (∀ address, (∃ registers ∈ regValues (kernelspaceRegisters ram) code data,
        registers.Covers address ∧ registers.Executable) ↔ code.Contains address) := by
  have tiles := layout.tiles
  rw [layout.regValues_eq]
  refine ⟨?_, ?_, fun address => ?_, fun address => ?_, fun address => ?_, fun address => ?_⟩
  · unfold Protection.spans
    split_ifs <;> rfl
  · rw [List.pairwise_map]
    refine tiles.apart.imp_of_mem fun mem otherMem apart address => ?_
    rw [tiles.covers_iff mem, tiles.covers_iff otherMem]
    exact apart address
  · rw [← tiles.covered address]
    simp only [List.mem_map, exists_exists_and_eq_and]
    exact exists_congr fun span => and_congr_right fun mem => tiles.covers_iff mem address
  · rw [tiles.exists_iff address fun span holds => holds.access_iff.1, ← tiles.code address,
      ← tiles.data address]
    constructor
    · rintro ⟨span, mem, holds, access⟩
      cases kind : span.executePermitted with
      | true => exact .inl ⟨span, mem, holds, access, kind⟩
      | false => exact .inr ⟨span, mem, holds, access, kind⟩
    · rintro (⟨span, mem, holds, access, -⟩ | ⟨span, mem, holds, access, -⟩)
      · exact ⟨span, mem, holds, access⟩
      · exact ⟨span, mem, holds, access⟩
  · rw [tiles.exists_iff address fun span holds => holds.access_iff.2.1]
    exact tiles.data address
  · rw [tiles.exists_iff address fun span holds => holds.access_iff.2.2]
    exact tiles.code address

/-- The code is right behind the data, at the end of the memory. -/
theorem regions_are_isolated_at_end :
    Layout ⟨0x20000000, 0x10000⟩ ⟨0x2000fc00, 0x400⟩ ⟨0x2000f800, 0x400⟩ ∧
    ∃ registers ∈ regValues (kernelspaceRegisters ⟨0x20000000, 0x10000⟩) ⟨0x2000fc00, 0x400⟩
      ⟨0x2000f800, 0x400⟩, registers.Covers 0x2000fc00 ∧ registers.Executable := by
  have layout : Layout ⟨0x20000000, 0x10000⟩ ⟨0x2000fc00, 0x400⟩ ⟨0x2000f800, 0x400⟩ :=
    ⟨⟨by decide, by decide, by decide⟩, by decide, by decide, ⟨by decide, by decide, by decide⟩,
      .inr ⟨by decide, by decide⟩, ⟨by decide, by decide, by decide⟩, ⟨by decide, by decide⟩,
      .inr (by decide)⟩
  obtain ⟨-, -, -, -, -, executable⟩ := regions_are_isolated layout
  exact ⟨layout, (executable _).mpr ⟨by decide, by decide⟩⟩

/-! ### Several processes -/

open Transition

/-- In every state of the pool, no byte of a block in use is in a range that a process with another
one for its data may write, nor, if it is not code of this process, in one that it may read. -/
theorem other_blocks_are_protected {labels : List Label} {pool : Pool}
    (run : Run (exec area) unrestricted none labels (some pool)) (other : Region)
    (used : pool.Live ⟨other.base, other.size⟩) (codeBlock : CodeBlock area code)
    (dataBlock : Allocated area data) (live : pool.Live ⟨data.base, data.size⟩)
    (different : data.base ≠ other.base) (base size address : Nat) (small : size < 2 ^ 32)
    (touched : (Region.mk base size).Contains address) (mine : other.Contains address) :
    withinForWriting (codeBlock.process dataBlock).mpu base size = false ∧
      (withinForReading (codeBlock.process dataBlock).mpu base size = true →
        code.Contains address) := by
  have good : Good area pool := run.invariant (fun state => ∀ pool ∈ state, Good area pool)
    (fun _ _ _ good _ => Good.step good) nofun pool rfl
  have disjoint : data.base + data.size ≤ other.base ∨ other.base + other.size ≤ data.base :=
    good.disjoint _ _ live used different
  obtain ⟨first, last⟩ := touched
  obtain ⟨lower, upper⟩ := mine
  have outside : ¬ (Region.mk base size).Within data := by
    rintro ⟨start, stop⟩
    simp only at first last start stop
    omega
  constructor
  · exact Bool.eq_false_of_not_eq_true fun accepted =>
      outside ((withinForWriting_iff small).mp accepted)
  · intro accepted
    obtain ⟨start, stop⟩ := ((withinForReading_iff small).mp accepted).resolve_right outside
    exact ⟨start.trans first, last.trans_le stop⟩

/-- A range of 32 bytes across the end of the first of two blocks. -/
theorem other_blocks_are_protected_behind : ∃ (area : Area)
    (block : Allocated area ⟨0x20000000, 1024⟩) (state : Option Pool),
    Run (exec area) unrestricted none [.construct, .allocate 1, .allocate 1] state ∧
    withinForWriting (CodeBlock.process (.copied block) block).mpu 0x200003f0 32 = false := by
  let area : Area := ⟨0x20000000, 32768, by decide, by decide, by decide⟩
  have block : Allocated area ⟨0x20000000, 1024⟩ :=
    allocated_of_toOption ⟨fun _ => false, fun _ => none⟩ 1 (by decide +kernel)
  exact ⟨area, block, exists_run (fun state => ∃ pool ∈ state,
    pool.allocatedBlocks 0x20000000 = some 1024 ∧ pool.allocatedBlocks 0x20000400 = some 1024)
    (by decide) fun state run ⟨pool, same, live, used⟩ => ⟨run, (other_blocks_are_protected
      (same ▸ run) ⟨0x20000400, 1024⟩ used (.copied block) block live (by decide) 0x200003f0 32
      0x20000400 (by decide) ⟨by decide, by decide⟩ ⟨by decide, by decide⟩).1⟩⟩

end Miosix.Protection
