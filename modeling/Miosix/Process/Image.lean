/-
This file embeds `ProcessImage::load` of `kernel/elf_program.cpp`, which makes the memory image
of a process from a program.

Loading goes through the program headers and the dynamic entries a second time. It logs what it
reads of the file and where it writes. The image is allocated in the middle of the loop over the
dynamic entries, and the exception of the allocator leaves the loop there; the image object then
keeps the fields it has at that point.
-/

import Miosix.Lib.Bytes
import Miosix.Process.Elf
import Miosix.Process.Pool

namespace Miosix.ElfProgram

open ProcessPool (Area Pool Block Failure)

/-! ### The image -/

/-- The fields of `ProcessImage`. The null pointer is zero. -/
structure ProcessImage where
  image : Nat
  size : Nat
  mainStackSize : Nat
  dataBssSize : Nat
  deriving DecidableEq, Repr

/-- An access to the file, a call of `memcpy` or `memset` that writes to memory, the update of a
word by a relocation, and the calls of the pool: a block that is returned, and an address that is
given back. -/
inductive Access where
  | file (read : Read)
  | write (address length : Nat)
  | relocate (address : Nat)
  | obtain (block : Block)
  | giveBack (address : Nat)
  deriving DecidableEq, Repr

def loadWord (file : ElfFile) (offset : Nat) : Logged Access Nat :=
  ⟨file.word offset, [.file ⟨offset, 4⟩]⟩

def loadHalf (file : ElfFile) (offset : Nat) : Logged Access Nat :=
  ⟨file.half offset, [.file ⟨offset, 2⟩]⟩

/-- Why a load fails: the pool, a program without data segment, or arguments that do not fit. -/
inductive LoadFailure where
  | pool (failure : Failure)
  | nullPointer
  | argsOverflow
  deriving DecidableEq, Repr

/-- What a load leaves behind that fails. -/
structure Thrown where
  failure : LoadFailure
  object : ProcessImage
  pool : Pool

/-! ### The loop over the program headers -/

/-- The state of the loop: the image object, the pool and the local variables. The last block that
this load has allocated is kept too. -/
structure Scan where
  object : ProcessImage
  pool : Pool
  block : Option Block
  dataSegment : Option Nat
  dtRel : Nat
  dtRelsz : Nat
  hasRelocs : Bool

section

variable (area : Area) (file : ElfFile) (dyn i : Nat) (scan : Scan)

/-- One iteration of the loop over the dynamic entries. -/
def loadEntry : Logged Access (Except Thrown Scan) := do
  let d_tag ← loadWord file (dyn + 8 * i)
  match Tag.of d_tag with
  | .rel =>
      let d_ptr ← loadWord file (dyn + 8 * i + 4)
      return .ok { scan with hasRelocs := true, dtRel := d_ptr }
  | .relsz =>
      let d_val ← loadWord file (dyn + 8 * i + 4)
      return .ok { scan with hasRelocs := true, dtRelsz := d_val }
  | .mxRamsize =>
      let d_val ← loadWord file (dyn + 8 * i + 4)
      match ProcessPool.allocate area scan.pool d_val with
      | .ok (block, pool) => ⟨.ok { scan with
          object := { scan.object with image := block.address, size := block.size }
          pool := pool
          block := some block }, [.obtain block]⟩
      | .error failure => return .error ⟨.pool failure, scan.object, scan.pool⟩
  | .mxStacksize =>
      let d_val ← loadWord file (dyn + 8 * i + 4)
      return .ok { scan with object := { scan.object with mainStackSize := d_val } }
  | .relent | .mxAbi | .rela | .relasz | .relaent | .other => return .ok scan

/-- One iteration of the loop over the program headers. -/
def loadSegment (e_phoff i : Nat) (scan : Scan) : Logged Access (Except Thrown Scan) := do
  let phdr := e_phoff + phdrSize * i
  let p_type ← loadWord file phdr
  match SegmentType.of p_type with
  | .load =>
      let p_flags ← loadWord file (phdr + 24)
      if p_flags &&& PF_W ≠ 0 ∧ p_flags &&& PF_X = 0 then
        return .ok { scan with dataSegment := some phdr }
      return .ok scan
  | .dynamic =>
      let p_offset ← loadWord file (phdr + 4)
      let p_memsz ← loadWord file (phdr + 20)
      Logged.iterate (loadEntry area file p_offset) 0 (p_memsz / 8) scan
  | .other => return .ok scan

/-! ### The image in memory -/

abbrev Ram := Bytes.Content

/-- `memcpy` from the file. -/
def Ram.copy (ram : Ram) (address : Nat) (file : ElfFile) (offset length : Nat) : Ram :=
  fun other =>
    if address ≤ other ∧ other < address + length then file.memory (offset + (other - address))
    else ram other

/-- `memset` with zero. -/
def Ram.clear (ram : Ram) (address length : Nat) : Ram := fun other =>
  if address ≤ other ∧ other < address + length then 0 else ram other

/-- The word a relocation refers to. -/
def relocatedWord (image r_offset : Nat) : Nat :=
  image + 4 * ((r_offset + 2 ^ 32 - dataBase) % 2 ^ 32 / 4)

/-- A pointer to the data is moved to the image, and one to the code to the file. -/
def relocatedValue (image value : Nat) : Nat :=
  if dataBase ≤ value then (value + image + 2 ^ 32 - dataBase) % 2 ^ 32
  else (value + file.base) % 2 ^ 32

/-- One iteration of the loop over the relocations. -/
def relocate (file : ElfFile) (rel image i : Nat) (ram : Ram) :
    Logged Access (Except Thrown Ram) := do
  let r_offset ← loadWord file (rel + 8 * i)
  let r_info ← loadWord file (rel + 8 * i + 4)
  match RelocType.of r_info with
  | .relative =>
      let address := relocatedWord image r_offset
      let moved := Bytes.storeWord ram address (relocatedValue file image (Bytes.word ram address))
      ⟨.ok moved, [.relocate address]⟩
  | .none | .other => return .ok ram

/-- The image object, the pool, the memory and the block of the image after a load. -/
structure Loaded where
  object : ProcessImage
  pool : Pool
  ram : Ram
  block : Option Block

section

variable (config : ProcessConfig) (object : ProcessImage)

/-- The end of `load`: the relocations are applied. -/
def applyRelocations (ram : Ram) : Logged Access (Except Thrown Loaded) :=
  if scan.hasRelocs = true then do
    match ← Logged.iterate (relocate file scan.dtRel object.image) 0 (scan.dtRelsz / 8) ram with
    | .error thrown => return .error thrown
    | .ok moved => return .ok ⟨object, scan.pool, moved, scan.block⟩
  else return .ok ⟨object, scan.pool, ram, scan.block⟩

/-- The number of bytes to clear behind the data segment, `unsigned`. -/
def clearedSize (p_filesz : Nat) : Nat :=
  (object.size + 3 * 2 ^ 32 - p_filesz - object.mainStackSize - config.watermarkLen) % 2 ^ 32

/-- The part of `load` after the loop: the data segment is copied, the rest is cleared up to the
stack, and the relocations are applied. -/
def fillImage (file : ElfFile) (scan : Scan) (data : Nat) (ram : Ram) :
    Logged Access (Except Thrown Loaded) := do
  let p_offset ← loadWord file (data + 4)
  let p_filesz ← loadWord file (data + 16)
  let image := scan.object.image
  let rest := clearedSize config scan.object p_filesz
  let _ ← (⟨(), [.file ⟨p_offset, p_filesz⟩, .write image p_filesz,
    .write (image + p_filesz) rest]⟩ : Logged Access Unit)
  let p_memsz ← loadWord file (data + 20)
  applyRelocations file scan { scan.object with dataBssSize := p_memsz }
    ((ram.copy image file p_offset p_filesz).clear (image + p_filesz) rest)

/-- The image is given back, if there is one: the destructor, and the begin of `load`. -/
def releaseImage (pool : Pool) : Logged Access (Except Failure Pool) :=
  if object.image = 0 then return .ok pool
  else ⟨ProcessPool.deallocate area pool object.image, [.giveBack object.image]⟩

end

end

section

variable (config : ProcessConfig) (area : Area) (file : ElfFile) (object : ProcessImage)
  (pool : Pool)

/-- The state of the loop before the first program header. -/
def Scan.initial : Scan :=
  ⟨object, pool, none, none, 0, 0, false⟩

/-- `load` once the previous image is given back. -/
def makeImage (ram : Ram) : Logged Access (Except Thrown Loaded) := do
  let e_phoff ← loadWord file 28
  let e_phnum ← loadHalf file 44
  match ← Logged.iterate (loadSegment area file e_phoff) 0 e_phnum (.initial object pool) with
  | .error thrown => return .error thrown
  | .ok scan =>
      match scan.dataSegment with
      | none => return .error ⟨.nullPointer, scan.object, scan.pool⟩
      | some data => fillImage config file scan data ram

/-- `ProcessImage::load`. -/
def load (ram : Ram) : Logged Access (Except Thrown Loaded) := do
  match ← releaseImage area object pool with
  | .error failure => return .error ⟨.pool failure, object, pool⟩
  | .ok released => makeImage config area file object released ram

end

end Miosix.ElfProgram
