/-
This file embeds `CRC32Calculator` of `util/crc32.h`. The bits of a byte enter from the lowest one
on, and a step is an invertible map, so that 32 bits that differ leave a difference behind.
-/

import Mathlib.Tactic

namespace Miosix.CRC32Calculator

/-- The reflected polynomial. -/
def polynomial : BitVec 32 := 0xEDB88320

/-- One bit is shifted out. -/
def step (crc : BitVec 32) : BitVec 32 :=
  if crc &&& 1 ≠ 0 then crc >>> 1 ^^^ polynomial else crc >>> 1

/-- `CRC32::addByte`. -/
def addByte (crc : BitVec 32) (byte : BitVec 8) : BitVec 32 := step^[8] (crc ^^^ byte.setWidth 32)

/-- `CRC32::addBytes`. -/
def addBytes (crc : BitVec 32) (data : List (BitVec 8)) : BitVec 32 := data.foldl addByte crc

/-- The value before the first byte. -/
def reset : BitVec 32 := 0xFFFFFFFF

/-- The value that is reported. -/
def finalizeCRC32 (crc : BitVec 32) : BitVec 32 := crc ^^^ 0xFFFFFFFF

/-! ### Bits -/

/-- The first bits in the order in which they are processed. -/
def bits {width : Nat} (count : Nat) (word : BitVec width) : List Bool :=
  (List.range count).map word.getLsbD

/-- The bits of the data in the order in which they are added. -/
def messageBits (data : List (BitVec 8)) : List Bool := data.flatMap (bits 8)

/-- One bit of the data is added. -/
def addBit (crc : BitVec 32) (bit : Bool) : BitVec 32 := step (crc ^^^ if bit then 1 else 0)

theorem step_eq (crc : BitVec 32) :
    step crc = crc >>> 1 ^^^ if crc.getLsbD 0 then polynomial else 0 := by
  unfold step
  rw [show (1 : BitVec 32) = 1#32 from rfl, BitVec.and_one_eq_setWidth_ofBool_getLsbD]
  cases crc.getLsbD 0 <;> simp

/-- The bits behind the lowest one move on. -/
theorem step_xor (crc word : BitVec 32) :
    step (crc ^^^ word) = addBit crc (word.getLsbD 0) ^^^ word >>> 1 := by
  rw [addBit, step_eq, step_eq, BitVec.ushiftRight_xor_distrib, BitVec.ushiftRight_xor_distrib,
    BitVec.getLsbD_xor, BitVec.getLsbD_xor]
  cases word.getLsbD 0 <;> cases crc.getLsbD 0 <;>
    simp [BitVec.xor_assoc, BitVec.xor_comm (word >>> 1)]

/-- The highest bit of the polynomial is set. -/
theorem getLsbD_step (crc : BitVec 32) : (step crc).getLsbD 31 = crc.getLsbD 0 := by
  rw [step_eq, BitVec.getLsbD_xor, BitVec.getLsbD_ushiftRight, BitVec.getLsbD_of_ge _ _ (by decide)]
  cases crc.getLsbD 0 <;> rfl

theorem step_injective : Function.Injective step := by
  intro first second same
  have lowest : first.getLsbD 0 = second.getLsbD 0 := by
    rw [← getLsbD_step, same, getLsbD_step]
  rw [step_eq, step_eq, lowest, BitVec.xor_left_inj] at same
  apply BitVec.eq_of_getLsbD_eq
  intro index _
  cases index with
  | zero => exact lowest
  | succ index =>
    have moved := congrArg (BitVec.getLsbD · index) same
    simpa [Nat.add_comm] using moved

theorem foldl_bits (crc word : BitVec 32) (count : Nat) :
    (bits count word).foldl addBit crc ^^^ word >>> count = step^[count] (crc ^^^ word) := by
  induction count with
  | zero => simp [bits]
  | succ count inductionHypothesis =>
    rw [Function.iterate_succ_apply', ← inductionHypothesis, step_xor, bits, List.range_succ,
      List.map_append, List.foldl_append, BitVec.shiftRight_add]
    simp [bits]

/-- The bits of a window as a word. -/
theorem exists_word (window : List Bool) (fits : window.length ≤ 32) : ∃ word : BitVec 32,
    bits window.length word = window ∧ word >>> window.length = 0#32 := by
  refine ⟨(BitVec.ofBoolListLE window).setWidth 32, ?_, ?_⟩
  · refine List.ext_getElem (by simp [bits]) fun index _ inside => ?_
    simp only [bits, List.getElem_map, List.getElem_range, BitVec.getLsbD_setWidth,
      BitVec.getLsbD_ofBoolListLE, List.getD_eq_getElem?_getD, List.getElem?_eq_getElem inside,
      Option.getD_some, inside.trans_le fits, decide_true, Bool.true_and]
  · apply BitVec.eq_of_getLsbD_eq
    intro index _
    simp

theorem addBytes_eq (crc : BitVec 32) (data : List (BitVec 8)) :
    addBytes crc data = (messageBits data).foldl addBit crc := by
  unfold messageBits addBytes
  rw [List.foldl_flatMap]
  congr 1
  funext crc byte
  have shifted : byte.setWidth 32 >>> 8 = 0#32 := by
    apply BitVec.eq_of_getLsbD_eq
    simp
  rw [addByte, ← foldl_bits, shifted, BitVec.xor_zero]
  simp [bits, List.range_succ]

theorem foldl_addBit_injective (after : List Bool) :
    Function.Injective fun crc => after.foldl addBit crc := by
  induction after with
  | nil => exact Function.injective_id
  | cons bit after inductionHypothesis =>
    intro first second same
    exact (BitVec.xor_left_inj _).mp (step_injective (inductionHypothesis same))

/-- Windows of the same length with the same effect are the same. -/
theorem window_injective {one two : List Bool} (same : one.length = two.length)
    (fits : one.length ≤ 32) {crc : BitVec 32}
    (equal : one.foldl addBit crc = two.foldl addBit crc) : one = two := by
  obtain ⟨first, firstBits, firstEnds⟩ := exists_word one fits
  obtain ⟨second, secondBits, secondEnds⟩ := exists_word two (same ▸ fits)
  have left := foldl_bits crc first one.length
  have right := foldl_bits crc second two.length
  rw [firstBits, firstEnds, BitVec.xor_zero] at left
  rw [secondBits, secondEnds, BitVec.xor_zero, ← equal, left, same] at right
  have words := (BitVec.xor_right_inj _).mp (step_injective.iterate _ right)
  rw [← firstBits, ← secondBits, words, same]

/-- However a message is divided, the value is the same, and two messages that differ in a window
of at most 32 bits have different values. -/
theorem detects_bursts : (∀ parts : List (List (BitVec 8)),
      parts.foldl addBytes reset = addBytes reset parts.flatten) ∧
    ∀ (first second : List (BitVec 8)) (before one two after : List Bool),
      messageBits first = before ++ one ++ after → messageBits second = before ++ two ++ after →
      one.length = two.length → one.length ≤ 32 → one ≠ two →
      finalizeCRC32 (addBytes reset first) ≠ finalizeCRC32 (addBytes reset second) := by
  constructor
  · intro parts
    exact List.foldl_flatten.symm
  · intro first second before one two after firstBits secondBits same fits differ equal
    have values := (BitVec.xor_left_inj _).mp equal
    rw [addBytes_eq, addBytes_eq, firstBits, secondBits] at values
    simp only [List.foldl_append] at values
    exact differ (window_injective same fits (foldl_addBit_injective after values))

/-- Two bits of two neighbouring bytes differ. -/
theorem detects_bursts_two_bits : finalizeCRC32 (addBytes reset [0x80, 0x00]) ≠
    finalizeCRC32 (addBytes reset [0x00, 0x01]) :=
  detects_bursts.2 [0x80, 0x00] [0x00, 0x01] (List.replicate 7 false) [true, false] [false, true]
    (List.replicate 7 false) (by decide) (by decide) rfl (by decide) (by decide)

end Miosix.CRC32Calculator
