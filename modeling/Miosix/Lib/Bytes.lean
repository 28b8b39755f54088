/-
This file is the library of memories of bytes: words of four bytes, the lowest one first, texts
with a zero byte behind them, and the operations of the C library on both. What an operation leaves
as it was is stated with it, and what is read depends only on the bytes that are read.
-/

import Mathlib.Tactic

namespace Miosix.Bytes

/-- The content of a memory, by address. -/
abbrev Content := Nat → UInt8

variable {memory other : Content} {address otherAddress value place : Nat} {text : List UInt8}

/-! ### Words -/

def word (memory : Content) (address : Nat) : Nat :=
  (memory address).toNat + 256 * (memory (address + 1)).toNat +
    65536 * (memory (address + 2)).toNat + 16777216 * (memory (address + 3)).toNat

def storeWord (memory : Content) (address value : Nat) : Content := fun place =>
  if address ≤ place ∧ place < address + 4 then UInt8.ofNat (value / 256 ^ (place - address))
  else memory place

theorem word_congr
    (same : ∀ offset < 4, memory (address + offset) = other (otherAddress + offset)) :
    word memory address = word other otherAddress := by
  have first := same 0 (by decide)
  rw [Nat.add_zero, Nat.add_zero] at first
  rw [word, word, first, same 1 (by decide), same 2 (by decide), same 3 (by decide)]

theorem storeWord_of_outside (outside : place < address ∨ address + 4 ≤ place) :
    storeWord memory address value place = memory place :=
  if_neg (by omega)

/-- A word is stored without the part that does not fit. -/
theorem word_storeWord_eq_mod : word (storeWord memory address value) address = value % 2 ^ 32 := by
  have byte : ∀ offset < 4, (storeWord memory address value (address + offset)).toNat =
      value / 256 ^ offset % 256 := by
    intro offset below
    rw [storeWord, if_pos (by omega), Nat.add_sub_cancel_left, UInt8.toNat_ofNat']
  have first := byte 0 (by decide)
  rw [Nat.add_zero, Nat.pow_zero, Nat.div_one] at first
  rw [word, first, byte 1 (by decide), byte 2 (by decide), byte 3 (by decide)]
  omega

theorem word_storeWord (small : value < 2 ^ 32) :
    word (storeWord memory address value) address = value := by
  rw [word_storeWord_eq_mod, Nat.mod_eq_of_lt small]

/-! ### Texts -/

section

variable (memory : Content) (address : Nat) (text : List UInt8)

/-- A text and the zero byte behind it. -/
def HasText : Prop :=
  ∀ offset ≤ text.length, memory (address + offset) = text.getD offset 0

/-- `strcpy`, for the text at the source. -/
def storeText : Content := fun place =>
  if address ≤ place ∧ place ≤ address + text.length then text.getD (place - address) 0
  else memory place

end

/-- The bytes before the first zero byte, up to a limit. -/
def textAt (memory : Content) : Nat → Nat → List UInt8
  | _, 0 => []
  | address, limit + 1 =>
      if memory address = 0 then [] else memory address :: textAt memory (address + 1) limit

theorem storeText_of_outside (outside : place < address ∨ address + text.length < place) :
    storeText memory address text place = memory place :=
  if_neg (by omega)

theorem hasText_storeText (memory : Content) (address : Nat) (text : List UInt8) :
    HasText (storeText memory address text) address text := by
  intro offset within
  rw [storeText, if_pos (by omega), Nat.add_sub_cancel_left]

theorem HasText.congr (has : HasText memory address text)
    (same : ∀ offset ≤ text.length, other (otherAddress + offset) = memory (address + offset)) :
    HasText other otherAddress text :=
  fun offset within => (same offset within).trans (has offset within)

/-- A text without a zero byte is what is found at its place. -/
theorem HasText.textAt_eq {limit : Nat}
    (has : HasText memory address text) (nonzero : ∀ byte ∈ text, byte ≠ 0)
    (enough : text.length < limit) : textAt memory address limit = text := by
  induction text generalizing address limit with
  | nil =>
    obtain ⟨limit, rfl⟩ := Nat.exists_eq_add_of_le' (Nat.one_le_of_lt enough)
    have ended : memory address = 0 := has 0 le_rfl
    rw [textAt, if_pos ended]
  | cons byte rest inductionHypothesis =>
    obtain ⟨limit, rfl⟩ := Nat.exists_eq_add_of_le' (Nat.one_le_of_lt enough)
    have here : memory address = byte := has 0 (Nat.zero_le _)
    have following : HasText memory (address + 1) rest := by
      intro offset within
      rw [Nat.add_assoc, Nat.add_comm 1]
      exact has (offset + 1) (Nat.succ_le_succ within)
    rw [textAt, here, if_neg (nonzero byte (.head _)), inductionHypothesis following
      (fun other listed => nonzero other (.tail _ listed)) (Nat.lt_of_succ_lt_succ enough)]

/-! ### Blocks -/

/-- `memcpy`. -/
def copy (memory : Content) (source target size : Nat) : Content := fun place =>
  if target ≤ place ∧ place < target + size then memory (source + (place - target))
  else memory place

/-- `memset` to zero. -/
def clear (memory : Content) (address size : Nat) : Content := fun place =>
  if address ≤ place ∧ place < address + size then 0 else memory place

theorem copy_apply {source target size offset : Nat} (inside : offset < size) :
    copy memory source target size (target + offset) = memory (source + offset) := by
  rw [copy, if_pos (by omega), Nat.add_sub_cancel_left]

end Miosix.Bytes
