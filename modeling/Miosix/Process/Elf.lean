/-
This file embeds the validation of program files, `ElfProgram` of `kernel/elf_program.cpp`, and
says when it reads only inside the file.

A program is a range of memory with a size. Validation goes through the elf header, the table
of program headers, and, for a dynamic segment, its entries and the relocations they point to.
It logs what it reads. What lies behind the file in memory is arbitrary, and validation goes on
with it if it reads there.

The header and the program headers are checked against the size of the file before they are
read. The number of the dynamic entries is taken from `p_memsz`, which is not checked, and the
sum of the start and the size of the relocations may not fit in 32 bits.
-/

import Miosix.Lib.Logged

namespace Miosix.ElfProgram

open Logged

/-! ### The file -/

/-- The constants of `miosix_settings.h` and of the processor. -/
structure ProcessConfig where
  maxImageSize : Nat
  minStackSize : Nat
  stackAlignment : Nat
  watermarkLen : Nat
  fpuUsed : Bool
  stack_pos : 0 < minStackSize
  stack_le : minStackSize ≤ maxImageSize
  small : 2 * maxImageSize + watermarkLen < 2 ^ 32

/-- A file in memory: its address, its size, and the bytes from its address on. The kernel takes
more than a kilobyte of the address space for itself. -/
structure ElfFile where
  base : Nat
  size : Nat
  memory : Nat → UInt8
  room : size + 1024 ≤ 2 ^ 32

section

variable (file : ElfFile)

def ElfFile.byte (offset : Nat) : Nat := (file.memory offset).toNat

/-- Numbers are little endian. -/
def ElfFile.half (offset : Nat) : Nat :=
  file.byte offset + 256 * file.byte (offset + 1)

def ElfFile.word (offset : Nat) : Nat :=
  file.half offset + 65536 * file.half (offset + 2)

structure Read where
  offset : Nat
  length : Nat
  deriving DecidableEq, Repr

def readBytes (offset length : Nat) : Logged Read (List Nat) :=
  ⟨(List.range' offset length).map file.byte, [⟨offset, length⟩]⟩

def readHalf (offset : Nat) : Logged Read Nat :=
  ⟨file.half offset, [⟨offset, 2⟩]⟩

def readWord (offset : Nat) : Logged Read Nat :=
  ⟨file.word offset, [⟨offset, 4⟩]⟩

def isUnaligned (x alignment : Nat) : Bool := decide (x &&& (alignment - 1) ≠ 0)

/-! ### The elf header -/

/-- `sizeof(Elf32_Ehdr)`. -/
def ehdrSize : Nat := 52

/-- `sizeof(Elf32_Phdr)`. -/
def phdrSize : Nat := 32

def magic : List Nat := [0x7f, 0x45, 0x4c, 0x46, 1, 1, 1, 0, 0, 0, 0, 0, 0, 0, 0, 0]

section

variable (config : ProcessConfig)

/-- The checks of `validateHeader` on the elf header. -/
def checkElfHeader (file : ElfFile) : Logged Read Bool := do
  let e_ident ← readBytes file 0 16
  if e_ident ≠ magic then return false
  let e_type ← readHalf file 16
  if e_type ≠ 2 then return false
  let e_machine ← readHalf file 18
  if e_machine ≠ 0x28 then return false
  let e_version ← readWord file 20
  if e_version ≠ 1 then return false
  let e_entry ← readWord file 24
  if file.size ≤ e_entry then return false
  let e_phoff ← readWord file 28
  if file.size - phdrSize ≤ e_phoff then return false
  if isUnaligned e_phoff 4 then return false
  let e_flags ← readWord file 36
  if e_flags &&& 0xff000000 ≠ 0x05000000 then return false
  if config.fpuUsed = false ∧ e_flags &&& 0x400 ≠ 0 then return false
  let e_ehsize ← readHalf file 40
  if e_ehsize ≠ ehdrSize then return false
  let e_phentsize ← readHalf file 42
  if e_phentsize ≠ phdrSize then return false
  let e_phnum ← readHalf file 44
  if 20 < e_phnum then return false
  if file.size < (e_phoff + e_phnum * phdrSize) % 2 ^ 32 then return false
  return true

/-! ### The dynamic segment -/

/-- The values of `d_tag` that are told apart. -/
inductive Tag where
  | rel
  | relsz
  | relent
  | rela
  | relasz
  | relaent
  | mxAbi
  | mxRamsize
  | mxStacksize
  | other
  deriving DecidableEq, Repr

def Tag.of (d_tag : Nat) : Tag :=
  if d_tag = 17 then .rel
  else if d_tag = 18 then .relsz
  else if d_tag = 19 then .relent
  else if d_tag = 7 then .rela
  else if d_tag = 8 then .relasz
  else if d_tag = 9 then .relaent
  else if d_tag = 0x736f694d then .mxAbi
  else if d_tag = 0x10000000 then .mxRamsize
  else if d_tag = 0x10000001 then .mxStacksize
  else .other

/-- What validation keeps of the dynamic entries. The first three fields are the bits of
`hasRelocs`. -/
structure DynamicInfo where
  rel : Bool
  relsz : Bool
  relent : Bool
  dtRel : Nat
  dtRelsz : Nat
  miosixTagFound : Bool
  ramSize : Nat
  stackSize : Nat
  deriving DecidableEq, Repr

def DynamicInfo.initial : DynamicInfo := ⟨false, false, false, 0, 0, false, 0, 0⟩

section

variable (dyn i : Nat) (info : DynamicInfo)

/-- One iteration of the loop over the dynamic entries. -/
def dynamicEntry : Logged Read (Except Unit DynamicInfo) := do
  let d_tag ← readWord file (dyn + 8 * i)
  match Tag.of d_tag with
  | .rel =>
      let d_ptr ← readWord file (dyn + 8 * i + 4)
      return .ok { info with rel := true, dtRel := d_ptr }
  | .relsz =>
      let d_val ← readWord file (dyn + 8 * i + 4)
      return .ok { info with relsz := true, dtRelsz := d_val }
  | .relent =>
      let d_val ← readWord file (dyn + 8 * i + 4)
      if d_val ≠ 8 then return .error ()
      return .ok { info with relent := true }
  | .mxAbi =>
      let d_val ← readWord file (dyn + 8 * i + 4)
      if d_val ≠ 0x01007869 then return .error ()
      return .ok { info with miosixTagFound := true }
  | .mxRamsize =>
      let d_val ← readWord file (dyn + 8 * i + 4)
      return .ok { info with ramSize := d_val }
  | .mxStacksize =>
      let d_val ← readWord file (dyn + 8 * i + 4)
      return .ok { info with stackSize := d_val }
  | .rela | .relasz | .relaent => return .error ()
  | .other => return .ok info

/-- The checks on the sizes of the image. -/
def sizesValid (dataSegmentSize : Nat) : Bool :=
  info.miosixTagFound && decide (config.minStackSize ≤ info.stackSize) &&
    decide (info.ramSize ≤ config.maxImageSize) &&
    !isUnaligned info.stackSize config.stackAlignment && !isUnaligned info.ramSize 4 &&
    decide (info.stackSize ≤ config.maxImageSize) &&
    decide (dataSegmentSize ≤ config.maxImageSize) &&
    decide ((dataSegmentSize + info.stackSize + config.watermarkLen) % 2 ^ 32 ≤ info.ramSize)

/-- The checks on the place of the relocations. -/
def relocsValid : Bool :=
  decide (info.dtRel < file.size) && decide (info.dtRelsz < file.size) &&
    decide ((info.dtRel + info.dtRelsz) % 2 ^ 32 ≤ file.size) && !isUnaligned info.dtRel 4

/-- By convention, the data segment starts at this address. -/
def dataBase : Nat := 0x40000000

/-- The values of `ELF32_R_TYPE` that are told apart. -/
inductive RelocType where
  | none
  | relative
  | other
  deriving DecidableEq, Repr

def RelocType.of (r_info : Nat) : RelocType :=
  if r_info % 256 = 0 then .none else if r_info % 256 = 23 then .relative else .other

/-- One iteration of the loop over the relocations. -/
def checkRelocation (rel dataSegmentSize i : Nat) (_ : Unit) : Logged Read (Except Unit Unit) := do
  let r_info ← readWord file (rel + 8 * i + 4)
  match RelocType.of r_info with
  | .none => return .ok ()
  | .relative =>
      let r_offset ← readWord file (rel + 8 * i)
      if r_offset < dataBase then return .error ()
      if dataBase + dataSegmentSize - 4 < r_offset then return .error ()
      if isUnaligned r_offset 4 then return .error ()
      return .ok ()
  | .other => return .error ()

def DynamicInfo.hasRelocs : Bool := info.rel || info.relsz || info.relent

def DynamicInfo.allRelocs : Bool := info.rel && info.relsz && info.relent

end

/-- `validateDynamicSegment` after the loop over the dynamic entries. -/
def checkDynamicInfo (file : ElfFile) (info : DynamicInfo)
    (dataSegmentSize : Nat) : Logged Read Bool := do
  if sizesValid config info dataSegmentSize = false then return false
  if info.hasRelocs = true ∧ info.allRelocs = false then return false
  if info.hasRelocs = false then return true
  if relocsValid file info = false then return false
  match ← Logged.iterate (checkRelocation file info.dtRel dataSegmentSize) 0 (info.dtRelsz / 8) ()
  with
  | .error _ => return false
  | .ok _ => return true

def validateDynamicSegment (file : ElfFile) (dynamic : Nat)
    (dataSegmentSize : Nat) : Logged Read Bool := do
  let p_offset ← readWord file (dynamic + 4)
  let p_memsz ← readWord file (dynamic + 20)
  match ← Logged.iterate (dynamicEntry file p_offset) 0 (p_memsz / 8) DynamicInfo.initial with
  | .error _ => return false
  | .ok info => checkDynamicInfo config file info dataSegmentSize

/-! ### The program headers -/

/-- The local variables of the loop over the program headers. -/
structure Progress where
  codeSegmentPresent : Bool
  dataSegmentPresent : Bool
  dynamicSegmentPresent : Bool
  dataSegmentSize : Nat
  deriving DecidableEq, Repr

def Progress.initial : Progress := ⟨false, false, false, 0⟩

/-- The values of `p_type` that are told apart. -/
inductive SegmentType where
  | load
  | dynamic
  | other
  deriving DecidableEq, Repr

def SegmentType.of (p_type : Nat) : SegmentType :=
  if p_type = 1 then .load else if p_type = 2 then .dynamic else .other

/-- Bits of `p_flags`. -/
def PF_X : Nat := 1

def PF_W : Nat := 2

def PF_R : Nat := 4

/-- The alignment of a segment is one of those supported, and the offset has it. -/
def alignValid (p_align p_offset : Nat) : Bool :=
  [0, 1].contains p_align || ([2, 4, 8, 16, 32, 64].contains p_align &&
    !isUnaligned p_offset p_align)

def checkCode (phdr e_entry p_offset p_filesz : Nat) (progress : Progress) :
    Logged Read (Except Unit Progress) := do
  if progress.codeSegmentPresent = true then return .error ()
  if e_entry < p_offset then return .error ()
  if (p_offset + p_filesz) % 2 ^ 32 < e_entry then return .error ()
  let p_memsz ← readWord file (phdr + 20)
  if p_filesz ≠ p_memsz then return .error ()
  return .ok { progress with codeSegmentPresent := true }

section

variable (file : ElfFile)

def checkData (phdr p_filesz : Nat)
    (progress : Progress) : Logged Read (Except Unit Progress) := do
  if progress.dataSegmentPresent = true then return .error ()
  let p_memsz ← readWord file (phdr + 20)
  if p_memsz < p_filesz then return .error ()
  if config.maxImageSize - config.minStackSize ≤ p_memsz then return .error ()
  return .ok { progress with dataSegmentPresent := true, dataSegmentSize := p_memsz }

/-- The case `PT_LOAD`. A segment is not both writable and executable. -/
def checkLoad (phdr e_entry p_offset p_filesz : Nat)
    (progress : Progress) : Logged Read (Except Unit Progress) := do
  let p_flags ← readWord file (phdr + 24)
  if p_flags &&& 0xfffffff8 ≠ 0 then return .error ()
  if p_flags &&& PF_R = 0 then return .error ()
  if p_flags &&& PF_W ≠ 0 ∧ p_flags &&& PF_X ≠ 0 then return .error ()
  if p_flags &&& PF_X ≠ 0 then checkCode file phdr e_entry p_offset p_filesz progress
  else if p_flags &&& PF_W ≠ 0 then checkData config file phdr p_filesz progress
  else return .ok progress

/-- The case `PT_DYNAMIC`. -/
def checkDynamic (phdr p_align : Nat)
    (progress : Progress) : Logged Read (Except Unit Progress) := do
  if progress.dynamicSegmentPresent = true then return .error ()
  if progress.dataSegmentPresent = false then return .error ()
  if p_align < 4 then return .error ()
  if (← validateDynamicSegment config file phdr progress.dataSegmentSize) = false then
    return .error ()
  return .ok { progress with dynamicSegmentPresent := true }

/-- One iteration of the loop over the program headers. -/
def checkSegment (e_entry e_phoff i : Nat)
    (progress : Progress) : Logged Read (Except Unit Progress) := do
  let phdr := e_phoff + phdrSize * i
  let p_offset ← readWord file (phdr + 4)
  if file.size ≤ p_offset then return .error ()
  let p_filesz ← readWord file (phdr + 16)
  if file.size ≤ p_filesz then return .error ()
  if file.size < (p_offset + p_filesz) % 2 ^ 32 then return .error ()
  let p_align ← readWord file (phdr + 28)
  if alignValid p_align p_offset = false then return .error ()
  let p_type ← readWord file phdr
  match SegmentType.of p_type with
  | .load => checkLoad config file phdr e_entry p_offset p_filesz progress
  | .dynamic => checkDynamic config file phdr p_align progress
  | .other => return .ok progress

/-- The loop over the first program headers. -/
def checkSegments (count : Nat) : Logged Read (Except Unit Progress) := do
  let e_entry ← readWord file 24
  let e_phoff ← readWord file 28
  Logged.iterate (checkSegment config file e_entry e_phoff) 0 count Progress.initial

/-- `validateHeader`: whether the error code is set to 0. -/
def validateHeader : Logged Read Bool :=
  if isUnaligned file.base 8 then return false
  else if file.size < ehdrSize then return false
  else do
    if (← checkElfHeader config file) = false then return false
    let e_phnum ← readHalf file 44
    match ← checkSegments config file e_phnum with
    | .error _ => return false
    | .ok progress => return progress.codeSegmentPresent && progress.dataSegmentPresent

end

end

/-! ### Reading inside the file -/

def Inside (read : Read) : Prop := read.offset + read.length ≤ file.size
  deriving Decidable

/-- The offset of a program header. -/
def ElfFile.phdr (i : Nat) : Nat := file.word 28 + phdrSize * i

section

variable (phdr : Nat)

def Dynamic : Prop := SegmentType.of (file.word phdr) = .dynamic
  deriving Decidable

/-- The tag of a dynamic entry. -/
def ElfFile.tag (k : Nat) : Tag := Tag.of (file.word (file.word (phdr + 4) + 8 * k))

/-- The value of a dynamic entry. -/
def ElfFile.entry (k : Nat) : Nat := file.word (file.word (phdr + 4) + 8 * k + 4)

/-- All of a dynamic segment, in its size in memory, is inside the file, and so is the table of
relocations that starts and has the size as any two of its entries say. -/
def DynamicContained : Prop :=
  file.word (phdr + 4) + file.word (phdr + 20) ≤ file.size ∧
    ∀ k < file.word (phdr + 20) / 8, ∀ l < file.word (phdr + 20) / 8,
      file.tag phdr k = .rel → file.tag phdr l = .relsz →
        file.entry phdr k + file.entry phdr l ≤ file.size

instance : Decidable (DynamicContained file phdr) := inferInstanceAs (Decidable (_ ∧ _))

end

def Contained : Prop :=
  ∀ i < file.half 44, Dynamic file (file.phdr i) → DynamicContained file (file.phdr i)

instance : Decidable (Contained file) := inferInstanceAs (Decidable (∀ i < _, _))

end

variable {config : ProcessConfig} {file : ElfFile}

section Reading

variable {Result : Type} {offset length : Nat}

section

variable (next : Nat → Logged Read Result)

theorem value_readWord_bind :
    (readWord file offset >>= next).value = (next (file.word offset)).value := rfl

theorem value_readHalf_bind :
    (readHalf file offset >>= next).value = (next (file.half offset)).value := rfl

theorem value_readBytes_bind {next : List Nat → Logged Read Result} :
    (readBytes file offset length >>= next).value =
      (next ((List.range' offset length).map file.byte)).value := rfl

theorem readWord_bind_inside_iff : (readWord file offset >>= next).All (Inside file) ↔
      offset + 4 ≤ file.size ∧ (next (file.word offset)).All (Inside file) :=
  (all_bind_iff _ _ _).trans (and_congr_left' (all_singleton_iff _))

theorem readHalf_bind_inside_iff : (readHalf file offset >>= next).All (Inside file) ↔
      offset + 2 ≤ file.size ∧ (next (file.half offset)).All (Inside file) :=
  (all_bind_iff _ _ _).trans (and_congr_left' (all_singleton_iff _))

end

theorem readBytes_bind_inside_iff {next : List Nat → Logged Read Result} :
    (readBytes file offset length >>= next).All (Inside file) ↔ offset + length ≤ file.size ∧
        (next ((List.range' offset length).map file.byte)).All (Inside file) :=
  (all_bind_iff _ _ _).trans (and_congr_left' (all_singleton_iff _))

end Reading

variable {i dataSegmentSize phdr : Nat} {info : DynamicInfo} {progress : Progress}

theorem dynamicEntry_inside {dyn : Nat} (inside : dyn + 8 * i + 8 ≤ file.size) :
    (dynamicEntry file dyn i info).All (Inside file) := by
  have halves : dyn + 8 * i + 4 ≤ file.size ∧ dyn + 8 * i + 4 + 4 ≤ file.size := by omega
  rw [dynamicEntry, readWord_bind_inside_iff]
  refine ⟨halves.1, ?_⟩
  split <;> simp only [readWord_bind_inside_iff, all_ite_iff, all_pure, halves, implies_true,
    and_true]

theorem checkRelocation_inside {rel : Nat} (inside : rel + 8 * i + 8 ≤ file.size) :
    (checkRelocation file rel dataSegmentSize i ()).All (Inside file) := by
  have halves : rel + 8 * i + 4 ≤ file.size ∧ rel + 8 * i + 4 + 4 ≤ file.size := by omega
  rw [checkRelocation, readWord_bind_inside_iff]
  refine ⟨halves.2, ?_⟩
  split <;> simp only [readWord_bind_inside_iff, all_ite_iff, all_pure, halves, implies_true,
    and_true]

theorem checkElfHeader_inside (whole : ehdrSize ≤ file.size) :
    (checkElfHeader config file).All (Inside file) := by
  unfold ehdrSize at whole
  simp only [checkElfHeader, readWord_bind_inside_iff, readHalf_bind_inside_iff,
    readBytes_bind_inside_iff, all_ite_iff, all_pure, implies_true, true_and,
    and_true]
  exact ⟨by omega, fun _ => ⟨by omega, fun _ => ⟨by omega, fun _ => ⟨by omega, fun _ => ⟨by omega,
    fun _ => ⟨by omega, fun _ _ => ⟨by omega, fun _ _ => ⟨by omega, fun _ => ⟨by omega,
      fun _ => by omega⟩⟩⟩⟩⟩⟩⟩⟩⟩

theorem ite_false_eq_true_iff {condition : Prop} [Decidable condition] {rest : Bool} :
    (if condition then false else rest) = true ↔ ¬ condition ∧ rest = true := by
  by_cases holds : condition
  · simp [holds]
  · simp [holds]

/-- What the rest of validation needs of the header. -/
theorem checkElfHeader_spec (passed : (checkElfHeader config file).value = true) :
    file.word 24 < file.size ∧ file.word 28 < file.size - phdrSize ∧
      file.word 28 + phdrSize * file.half 44 ≤ file.size := by
  simp only [checkElfHeader, value_readWord_bind, value_readHalf_bind, value_readBytes_bind,
    value_ite, value_pure, ite_false_eq_true_iff] at passed
  obtain ⟨-, -, -, -, entry, phoff, -, -, -, -, -, phnum, ends, -⟩ := passed
  have room := file.room
  unfold phdrSize at *
  omega

/-- The loop over the program headers gets to a header only if it is inside the file. -/
theorem phdr_inside (passed : (checkElfHeader config file).value = true)
    (listed : i < file.half 44) : file.word 28 + phdrSize * i + phdrSize ≤ file.size := by
  obtain ⟨-, -, ends⟩ := checkElfHeader_spec passed
  unfold phdrSize at *
  omega

/-- The place and the size of the relocations are values of entries before the given one. -/
def Named (file : ElfFile) (phdr count : Nat) (info : DynamicInfo) : Prop :=
  (info.rel = true → ∃ k < count, file.tag phdr k = .rel ∧ info.dtRel = file.entry phdr k) ∧
    (info.relsz = true →
      ∃ l < count, file.tag phdr l = .relsz ∧ info.dtRelsz = file.entry phdr l)

theorem Named.step {count : Nat} {next : DynamicInfo} (named : Named file phdr count info)
    (stepped : (dynamicEntry file (file.word (phdr + 4)) count info).value = .ok next) :
    Named file phdr (count + 1) next := by
  obtain ⟨start, size⟩ := named
  have here : file.tag phdr count = Tag.of (file.word (file.word (phdr + 4) + 8 * count)) := rfl
  have value : file.entry phdr count = file.word (file.word (phdr + 4) + 8 * count + 4) := rfl
  rw [dynamicEntry, value_readWord_bind, ← here] at stepped
  unfold Named
  split at stepped <;> simp only [value_readWord_bind, value_ite, value_pure] at stepped <;> grind

theorem checkDynamicInfo_inside
    (inside : info.allRelocs = true → info.dtRel + info.dtRelsz ≤ file.size) :
    (checkDynamicInfo config file info dataSegmentSize).All (Inside file) := by
  have finish : ∀ outcome : Except Unit Unit, Logged.All (Inside file) (match outcome with
        | .error _ => return false
        | .ok _ => return true) := by
    rintro (exit | done)
    · exact all_pure _ _
    · exact all_pure _ _
  simp only [checkDynamicInfo, all_ite_iff, all_pure, implies_true, true_and,
    all_bind_iff, all_iterate_iff, finish, and_true, Bool.not_eq_false, Nat.zero_add]
  intro _ whole some _ k below _ _
  have fits := inside (by simpa [some] using whole)
  exact checkRelocation_inside (by omega)

section

variable (present : phdr + phdrSize ≤ file.size)
include present

theorem validateDynamicSegment_inside
    (contained : DynamicContained file phdr) :
    (validateDynamicSegment config file phdr dataSegmentSize).All (Inside file) := by
  obtain ⟨ends, relocations⟩ := contained
  unfold phdrSize at present
  have fields : phdr + 4 + 4 ≤ file.size ∧ phdr + 20 + 4 ≤ file.size := by omega
  rw [validateDynamicSegment, readWord_bind_inside_iff, readWord_bind_inside_iff,
    all_bind_iff, all_iterate_iff]
  refine ⟨fields.1, fields.2, fun k below _ _ => dynamicEntry_inside (by omega), ?_⟩
  split
  · exact all_pure _ _
  · rename_i info got
    obtain ⟨start, size⟩ : Named file phdr (file.word (phdr + 20) / 8) info :=
      iterate_invariant (Named file phdr)
        ⟨fun unset => (by cases unset), fun unset => (by cases unset)⟩
        (fun k _ _ _ named stepped => named.step (by rwa [Nat.zero_add] at stepped)) got
    refine checkDynamicInfo_inside fun all => ?_
    simp only [DynamicInfo.allRelocs, Bool.and_eq_true] at all
    obtain ⟨k, first, isRel, rel⟩ := start all.1.1
    obtain ⟨l, second, isRelsz, relsz⟩ := size all.1.2
    rw [rel, relsz]
    exact relocations k first l second isRel isRelsz

theorem checkLoad_inside {e_entry p_offset p_filesz : Nat} :
    (checkLoad config file phdr e_entry p_offset p_filesz progress).All (Inside file) := by
  unfold phdrSize at present
  have fields : phdr + 24 + 4 ≤ file.size ∧ phdr + 20 + 4 ≤ file.size := by omega
  simp only [checkLoad, checkCode, checkData, readWord_bind_inside_iff, all_ite_iff,
    all_pure, fields, implies_true, and_true]

end

theorem checkSegment_inside (contained : Contained file) (listed : i < file.half 44)
    (present : file.phdr i + phdrSize ≤ file.size) :
    (checkSegment config file (file.word 24) (file.word 28) i progress).All (Inside file) := by
  have fields : file.phdr i + 4 + 4 ≤ file.size ∧ file.phdr i + 16 + 4 ≤ file.size ∧
      file.phdr i + 28 + 4 ≤ file.size ∧ file.phdr i + 4 ≤ file.size := by
    unfold phdrSize at present
    omega
  have place : file.word 28 + phdrSize * i = file.phdr i := rfl
  simp only [checkSegment, readWord_bind_inside_iff, all_ite_iff, all_pure, implies_true,
    place, fields, true_and]
  intro _ _ _ _
  split
  · exact checkLoad_inside present
  · rename_i dynamic
    simp only [checkDynamic, all_ite_iff, all_bind_iff, all_pure, implies_true, and_true,
      validateDynamicSegment_inside present (contained i listed dynamic)]
  · exact all_pure _ _

/-- Validation reads only inside the file if the dynamic segments and their relocations are. -/
theorem validation_stays_inside (config : ProcessConfig) (file : ElfFile)
    (contained : Contained file) : (validateHeader config file).All (Inside file) := by
  unfold validateHeader
  by_cases aligned : isUnaligned file.base 8 = true
  · rw [if_pos aligned]
    exact Logged.all_pure _ _
  rw [if_neg aligned]
  by_cases short : file.size < ehdrSize
  · rw [if_pos short]
    exact Logged.all_pure _ _
  have whole : ehdrSize ≤ file.size := Nat.not_lt.mp short
  rw [if_neg short, Logged.all_bind_iff]
  refine ⟨checkElfHeader_inside whole, ?_⟩
  unfold ehdrSize at whole
  by_cases passed : (checkElfHeader config file).value = true
  · rw [if_neg (by simp [passed]), readHalf_bind_inside_iff, Logged.all_bind_iff, checkSegments,
      readWord_bind_inside_iff, readWord_bind_inside_iff, Logged.all_iterate_iff]
    refine ⟨by omega, ⟨by omega, by omega, fun i listed progress _ => ?_⟩, ?_⟩
    · rw [Nat.zero_add]
      exact checkSegment_inside contained listed (phdr_inside passed listed)
    · split
      · exact Logged.all_pure _ _
      · exact Logged.all_pure _ _
  · rw [if_pos (by simpa using passed)]
    exact Logged.all_pure _ _

def ProcessConfig.sample : ProcessConfig :=
  ⟨64 * 1024, 1024, 8, 16, false, by decide, by decide, by decide⟩

/-- A file given by its words, with a word that fills the memory behind it. -/
def ElfFile.ofWords (base : Nat) (words : List Nat) (behind : Nat)
    (room : 4 * words.length + 1024 ≤ 2 ^ 32) : ElfFile where
  base := base
  size := 4 * words.length
  memory := fun offset => UInt8.ofNat (words.getD (offset / 4) behind / 256 ^ (offset % 4))
  room := room

/-- A header with a number of program headers right behind it. -/
def headerWords (entry phnum : Nat) : List Nat :=
  [0x464c457f, 0x00010101, 0, 0, 0x00280002, 1, entry, ehdrSize, 0, 0x05000000,
    0x00200034, phnum, 0]

/-- A program header. -/
def phdrWords (p_type p_offset p_filesz p_memsz p_flags p_align : Nat) : List Nat :=
  [p_type, p_offset, 0, 0, p_filesz, p_memsz, p_flags, p_align]

/-- A program of 216 bytes with one relocation. -/
def relocatedWords : List Nat :=
  headerWords 148 3 ++ phdrWords 1 148 4 4 5 4 ++ phdrWords 1 152 8 8 6 4 ++
    phdrWords 2 160 48 48 6 4 ++ [0, 0, 0x40000004] ++
    [17, 208, 18, 8, 19, 8, 0x736f694d, 0x01007869, 0x10000000, 4096, 0x10000001, 1024] ++
    [0x40000000, 23]

/-- The program is accepted, and only its bytes are read. -/
theorem validation_stays_inside_relocated : ∃ (config : ProcessConfig) (file : ElfFile),
    (validateHeader config file).value = true ∧ Contained file ∧
      (validateHeader config file).All (Inside file) := by
  have contained : Contained (.ofWords 0x08010000 relocatedWords 0 (by decide)) := by
    decide +kernel
  exact ⟨.sample, _,
    by decide +kernel, contained, validation_stays_inside _ _ contained⟩

/-- A dynamic segment at the end of a file of 116 bytes whose size in memory is 24 bytes: the second
entry is behind the file. -/
theorem dynamic_segment_is_read_behind_file : ∃ (config : ProcessConfig) (file : ElfFile),
    (config.maxImageSize = 64 * 1024 ∧ config.minStackSize = 1024) ∧ file.size = 116 ∧
      ⟨120, 4⟩ ∈ (validateHeader config file).events ∧
      ¬ (validateHeader config file).All (Inside file) := by
  have outside : (⟨120, 4⟩ : Read) ∈ (validateHeader
      .sample
      (.ofWords 0x08010000 (headerWords 52 2 ++ phdrWords 1 52 4 4 6 4 ++
        phdrWords 2 112 4 24 6 4) 0 (by decide))).events := by decide
  exact ⟨_, _, ⟨rfl, rfl⟩, rfl, outside, fun inside => absurd (inside _ outside) (by decide)⟩

end Miosix.ElfProgram
