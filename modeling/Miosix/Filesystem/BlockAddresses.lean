/-
This file embeds the functions of `filesystem/littlefs/lfs_miosix.cpp` through which littlefs
reaches the block device, and the part of the constructor that fills in the configuration. Sizes and
block numbers of littlefs are words of 32 bits, and the address of a block is computed in such a
word before it is converted to an offset of 64 bits. The addresses are exact if and only if the
configured blocks together are not larger than 4 GB.
-/

import Miosix.Lib.Errno

namespace Miosix.LittleFs

/-! ### Configuration -/

/-- The sizes in `lfs_config`, with the function for erasing that is installed. -/
structure Config where
  block_size : BitVec 32
  block_count : BitVec 32
  devCanErase : Bool
  deriving DecidableEq, Repr

/-- A device that cannot erase reports zero, and blocks of 512 bytes are used then. -/
def effectiveEraseSize (eraseSize : BitVec 64) : BitVec 64 :=
  if 0#64 < eraseSize then eraseSize else 512#64

section

variable (eraseSize volumeSize : BitVec 64)

/-- The configuration for the sizes that the device reports. -/
def configure : Config where
  block_size := (effectiveEraseSize eraseSize).setWidth 32
  block_count := (volumeSize / effectiveEraseSize eraseSize).setWidth 32
  devCanErase := decide (0#64 < eraseSize)

/-- The constructor up to the call of `lfs_mount`, for the answers to the two requests. -/
def construct (eraseSize volumeSize : Except Int (BitVec 64)) : Except Int Config :=
  match eraseSize with
  | .error _ => .error (- EIO)
  | .ok eraseSize =>
      match volumeSize with
      | .error _ => .error (- EIO)
      | .ok volumeSize => .ok (configure eraseSize volumeSize)

/-! ### Requests to the device -/

/-- What the device is asked for. -/
inductive Request where
  | lseek (position : Int)
  | read (size : BitVec 32)
  | write (size : BitVec 32)
  | erase (address : Int)
  | sync
  deriving DecidableEq, Repr

/-- The byte address in a request. -/
def Request.address : Request → Option Int
  | .lseek position => some position
  | .erase address => some address
  | _ => none

/-- The answer of a device to the last of the requests made so far. -/
abbrev Device := List Request → Int

def LFS_ERR_OK : Int := 0

def LFS_ERR_IO : Int := -5

section

variable (device : Device) (config : Config) (block off size : BitVec 32)

/-- The product and the sum are those of unsigned 32 bit words, the result is an `off_t`. -/
def byteAddress (block off : BitVec 32) : Int :=
  ((config.block_size * block + off).toNat : Int)

/-- A transfer at an address: a seek, and then the request itself. -/
def transfer (address : Int) (request : Request) (size : BitVec 32) : Int × List Request :=
  if device [.lseek address] < 0 then ( LFS_ERR_IO, [.lseek address])
  else if device [.lseek address, request] ≠ size.toInt then
    ( LFS_ERR_IO, [.lseek address, request])
  else (LFS_ERR_OK, [.lseek address, request])

def miosixBlockDeviceRead : Int × List Request :=
  transfer device (byteAddress config block off) (.read size) size

def miosixBlockDeviceProg : Int × List Request :=
  transfer device (byteAddress config block off) (.write size) size

def miosixBlockDeviceErase (block : BitVec 32) : Int × List Request :=
  let blockAddr : Int := ((config.block_size * block).toNat : Int)
  if device [.erase blockAddr] < 0 then ( LFS_ERR_IO, [.erase blockAddr])
  else (LFS_ERR_OK, [.erase blockAddr])

def miosixNoEraseOnDev : Int × List Request := (LFS_ERR_OK, [])

/-- The function for erasing that the configuration installs. -/
def Config.erase (device : Device) (block : BitVec 32) : Int × List Request :=
  if config.devCanErase then miosixBlockDeviceErase device config block else miosixNoEraseOnDev

end

/-! ### Addresses -/

/-- Every address among the requests is the given one. -/
def Reaches (requests : List Request) (address : Nat) : Prop :=
  ∀ request ∈ requests, ∀ used, request.address = some used → used = (address : Int)

/-- For each block and offset of the configuration, reading, programming and erasing use the exact
address, the address is in the volume, and no other block has it. -/
def Exact (config : Config) (volumeSize : BitVec 64) : Prop :=
  ∀ block off : BitVec 32, block < config.block_count → off < config.block_size →
    (∀ device size,
      Reaches (miosixBlockDeviceRead device config block off size).2
        (block.toNat * config.block_size.toNat + off.toNat) ∧
      Reaches (miosixBlockDeviceProg device config block off size).2
        (block.toNat * config.block_size.toNat + off.toNat) ∧
      Reaches (config.erase device block).2 (block.toNat * config.block_size.toNat)) ∧
    block.toNat * config.block_size.toNat + off.toNat < volumeSize.toNat ∧
    ∀ otherBlock otherOff : BitVec 32,
      otherBlock < config.block_count → otherOff < config.block_size →
        byteAddress config block off = byteAddress config otherBlock otherOff →
          block = otherBlock ∧ off = otherOff

/-- The configured blocks together are not larger than 4 GB. -/
def Addressable : Prop :=
  ((effectiveEraseSize eraseSize).toNat % 2 ^ 32) *
    (volumeSize.toNat / (effectiveEraseSize eraseSize).toNat % 2 ^ 32) ≤ 2 ^ 32
  deriving Decidable

/-- The configured blocks are in the volume. -/
theorem blocks_within_volume : (configure eraseSize volumeSize).block_size.toNat *
      (configure eraseSize volumeSize).block_count.toNat ≤ volumeSize.toNat := by
  calc (effectiveEraseSize eraseSize).toNat % 2 ^ 32 *
        (volumeSize.toNat / (effectiveEraseSize eraseSize).toNat % 2 ^ 32)
      ≤ (effectiveEraseSize eraseSize).toNat *
        (volumeSize.toNat / (effectiveEraseSize eraseSize).toNat) :=
        Nat.mul_le_mul (Nat.mod_le _ _) (Nat.mod_le _ _)
    _ ≤ volumeSize.toNat := Nat.mul_div_le _ _

end

variable {size block off : Nat}

/-- An offset in a block below the count is below the product of the sizes. -/
theorem position_lt {count : Nat} (below : block < count) (inside : off < size) :
    block * size + off < size * count := by
  calc block * size + off < block * size + size := Nat.add_lt_add_left inside _
    _ = size * (block + 1) := by rw [Nat.mul_add, Nat.mul_one, Nat.mul_comm]
    _ ≤ size * count := Nat.mul_le_mul_left _ below

/-- Different offsets in blocks have different positions. -/
theorem position_injective {otherBlock otherOff : Nat} (inside : off < size)
    (otherInside : otherOff < size) (same : block * size + off = otherBlock * size + otherOff) :
    block = otherBlock ∧ off = otherOff := by
  have positive : 0 < size := by omega
  have quotient := congrArg (· / size) same
  have remainder := congrArg (· % size) same
  simp only [Nat.mul_comm _ size, Nat.mul_add_div positive, Nat.mul_add_mod,
    Nat.div_eq_of_lt inside, Nat.div_eq_of_lt otherInside, Nat.mod_eq_of_lt inside,
    Nat.mod_eq_of_lt otherInside] at quotient remainder
  exact ⟨quotient, remainder⟩

theorem byteAddress_eq {config : Config} {block off : BitVec 32} : byteAddress config block off =
      (((block.toNat * config.block_size.toNat + off.toNat) % 2 ^ 32 : Nat) : Int) := by
  rw [byteAddress, BitVec.toNat_add, BitVec.toNat_mul, Nat.mod_add_mod, Nat.mul_comm]

theorem byteAddress_zero {config : Config} {block : BitVec 32} :
    byteAddress config block 0#32 = ((config.block_size * block).toNat : Int) := by
  rw [byteAddress, BitVec.add_zero]

variable {position : Int} {request : Request} {address : Nat}

theorem reaches_pair (silent : request.address = none) (exact : position = address) :
    Reaches [.lseek position, request] address := by
  intro made listed used found
  rcases List.mem_cons.mp listed with rfl | listed
  · exact (Option.some.inj found).symm.trans exact
  · rw [List.mem_singleton.mp listed, silent] at found
    nomatch found

variable {device : Device}

theorem reaches_transfer {size : BitVec 32} (silent : request.address = none)
    (exact : position = address) : Reaches (transfer device position request size).2 address := by
  have pair := reaches_pair silent exact
  unfold transfer
  split
  · intro made listed
    exact pair made (List.mem_cons.mpr (.inl (List.mem_singleton.mp listed)))
  · split <;> exact pair

variable {config : Config}

theorem reaches_erase {block : BitVec 32} (exact : byteAddress config block 0#32 = address) :
    Reaches (config.erase device block).2 address := by
  rw [byteAddress_zero] at exact
  have single : Reaches [.erase ((config.block_size * block).toNat : Int)] address := by
    intro made listed used found
    rw [List.mem_singleton.mp listed] at found
    exact (Option.some.inj found).symm.trans exact
  unfold Config.erase miosixBlockDeviceErase miosixNoEraseOnDev
  split
  · dsimp only
    split <;> exact single
  · intro made listed
    nomatch listed

/-- The seek is always made. -/
theorem lseek_mem_transfer
    {size : BitVec 32} : .lseek position ∈ (transfer device position request size).2 := by
  unfold transfer
  split
  · exact List.mem_cons_self
  · split <;> exact List.mem_cons_self

variable {volumeSize : BitVec 64}

theorem exact_of_small (small : config.block_size.toNat * config.block_count.toNat ≤ 2 ^ 32)
    (within : config.block_size.toNat * config.block_count.toNat ≤ volumeSize.toNat) :
    Exact config volumeSize := by
  have exact : ∀ block off : BitVec 32, block < config.block_count → off < config.block_size →
      byteAddress config block off =
        ((block.toNat * config.block_size.toNat + off.toNat : Nat) : Int) := by
    intro block off below inside
    rw [byteAddress_eq, Nat.mod_eq_of_lt ((position_lt below inside).trans_le small)]
  intro block off below inside
  refine ⟨fun device size => ⟨?_, ?_, ?_⟩, ?_, ?_⟩
  · exact reaches_transfer rfl (exact block off below inside)
  · exact reaches_transfer rfl (exact block off below inside)
  · have positive : 0#32 < config.block_size := (Nat.zero_le _).trans_lt inside
    exact reaches_erase (exact block 0#32 below positive)
  · exact (position_lt below inside).trans_le within
  · intro otherBlock otherOff otherBelow otherInside same
    rw [exact block off below inside, exact otherBlock otherOff otherBelow otherInside] at same
    obtain ⟨sameBlock, sameOff⟩ := position_injective inside otherInside (Int.natCast_inj.mp same)
    exact ⟨BitVec.eq_of_toNat_eq sameBlock, BitVec.eq_of_toNat_eq sameOff⟩

/-- The last byte of the last block is reached only if its address fits. -/
theorem small_of_exact (exact : Exact config volumeSize) :
    config.block_size.toNat * config.block_count.toNat ≤ 2 ^ 32 := by
  by_cases empty : config.block_size.toNat = 0 ∨ config.block_count.toNat = 0
  · rw [Nat.mul_eq_zero.mpr empty]
    exact Nat.zero_le _
  · obtain ⟨sizeNonzero, countNonzero⟩ := not_or.mp empty
    have sizeWord := config.block_size.isLt
    have countWord := config.block_count.isLt
    have lastBlock : (BitVec.ofNat 32 (config.block_count.toNat - 1)).toNat =
        config.block_count.toNat - 1 := by
      rw [BitVec.toNat_ofNat, Nat.mod_eq_of_lt (by omega)]
    have lastOff : (BitVec.ofNat 32 (config.block_size.toNat - 1)).toNat =
        config.block_size.toNat - 1 := by
      rw [BitVec.toNat_ofNat, Nat.mod_eq_of_lt (by omega)]
    have below : BitVec.ofNat 32 (config.block_count.toNat - 1) < config.block_count := by
      rw [BitVec.lt_def, lastBlock]
      omega
    have inside : BitVec.ofNat 32 (config.block_size.toNat - 1) < config.block_size := by
      rw [BitVec.lt_def, lastOff]
      omega
    obtain ⟨reached, _⟩ := (exact _ _ below inside).1 (fun _ => 0) 0#32
    have used := reached _ lseek_mem_transfer _ rfl
    rw [byteAddress_eq, lastBlock, lastOff] at used
    have word := Nat.mod_lt ((config.block_count.toNat - 1) * config.block_size.toNat +
      (config.block_size.toNat - 1)) (Nat.two_pow_pos 32)
    rw [Int.natCast_inj.mp used] at word
    obtain ⟨count, counted⟩ := Nat.exists_eq_succ_of_ne_zero countNonzero
    rw [counted, Nat.succ_sub_one] at word
    rw [counted, Nat.mul_succ, Nat.mul_comm]
    omega

/-- For every erase size and volume size that the device reports, the addresses for reading,
programming and erasing are exact, in the volume and different for different blocks if and only if
the configured blocks together are not larger than 4 GB. -/
theorem block_addresses_exact_iff (eraseSize volumeSize : BitVec 64) :
    Exact (configure eraseSize volumeSize) volumeSize ↔ Addressable eraseSize volumeSize := by
  have product : (configure eraseSize volumeSize).block_size.toNat *
      (configure eraseSize volumeSize).block_count.toNat ≤ 2 ^ 32 ↔
        Addressable eraseSize volumeSize := by
    exact Iff.rfl
  exact ⟨small_of_exact, fun small => exact_of_small small (blocks_within_volume _ _)⟩

/-- On a device of 8 GB that cannot erase, block 2^23 is read at the address of block 0. -/
theorem far_block_aliases_first : construct (.ok 0#64) (.ok 0x200000000#64) =
      .ok (configure 0#64 0x200000000#64) ∧
    0x800000#32 < (configure 0#64 0x200000000#64).block_count ∧
    miosixBlockDeviceRead (fun _ => 512) (configure 0#64 0x200000000#64) 0x800000#32 0#32 512#32 =
      (LFS_ERR_OK, [.lseek 0, .read 512#32]) ∧
    miosixBlockDeviceProg (fun _ => 512) (configure 0#64 0x200000000#64) 0#32 0#32 512#32 =
      (LFS_ERR_OK, [.lseek 0, .write 512#32]) ∧
    ¬ Exact (configure 0#64 0x200000000#64) 0x200000000#64 := by
  refine ⟨rfl, by decide, by decide, by decide, fun exact => ?_⟩
  have small := small_of_exact exact
  revert small
  decide

end Miosix.LittleFs
