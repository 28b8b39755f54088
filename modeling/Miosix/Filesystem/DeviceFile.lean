/-
This file embeds the class `DevFsFile` of `filesystem/devfs/devfs.cpp`. Offsets are signed words of
64 bits and lengths are unsigned words of 32 bits. A transfer that would go beyond the largest
offset is noticed by the sign of the sum, and its length is replaced. The new length is the distance
to the largest offset minus the old length once more, so it is negative and becomes a huge length.
The requests to the device are right if and only if no transfer goes beyond the largest offset.
-/

import Miosix.Lib.Errno
import Miosix.Lib.Transition

namespace Miosix.DevFs

open Transition BitVec

/-! ### Files -/

def _FREAD : BitVec 32 := 0x1#32

def _FWRITE : BitVec 32 := 0x2#32

def _NOSEEK : BitVec 32 := 0x20000#32

structure DevFsFile where
  flags : BitVec 32
  seekPoint : BitVec 64
  deriving DecidableEq, Repr

/-- A file that was just opened. -/
def opened (flags : BitVec 32) : DevFsFile := ⟨flags, 0#64⟩

section

variable (file : DevFsFile) (mask : BitVec 32)

def DevFsFile.permits : Bool := file.flags &&& mask != 0#32

/-- A request for a transfer with the device. -/
structure Request where
  size : BitVec 32
  position : BitVec 64
  deriving DecidableEq, Repr

/-- The answer of the device to a request, a number of bytes or an error. -/
abbrev Device := Request → Int

/-- `numeric_limits<off_t>::max()` as a word. -/
def maxOffset : BitVec 64 := 0x7fffffffffffffff#64

/-- The length that the device is asked for. The sums are those of two's complement words, as the
test for a negative sum takes for granted. -/
def askedLength (len : BitVec 32) : BitVec 32 :=
  if (file.seekPoint + len.setWidth 64).toInt < 0 then
    (maxOffset - file.seekPoint - len.setWidth 64).setWidth 32
  else len

/-- The common part of reading and writing. -/
def transfer (file : DevFsFile) (len : BitVec 32) (device : Device) :
    Int × List Request × DevFsFile :=
  if file.permits mask = false then (-EINVAL, [], file)
  else
    let request : Request := ⟨askedLength file len, file.seekPoint⟩
    let result := device request
    if 0 < result ∧ file.permits _NOSEEK = false then
      (result, [request], { file with seekPoint := file.seekPoint + BitVec.ofInt 64 result })
    else (result, [request], file)

def write : DevFsFile → BitVec 32 → Device → Int × List Request × DevFsFile := transfer _FWRITE

def read : DevFsFile → BitVec 32 → Device → Int × List Request × DevFsFile := transfer _FREAD

/-- The ways to give a position. The end of the file is not supported. -/
inductive Whence where
  | seekSet
  | seekCur
  | other
  deriving DecidableEq, Repr

/-- The position a seek leads to. -/
def newSeekPoint (pos : BitVec 64) : Whence → Option (BitVec 64)
  | .seekCur => some (file.seekPoint + pos)
  | .seekSet => some pos
  | .other => none

def lseek (pos : BitVec 64) (whence : Whence) : Int × DevFsFile :=
  if file.permits _NOSEEK then (-EBADF, file)
  else
    match newSeekPoint file pos whence with
    | none => (-EINVAL, file)
    | some position =>
        if position.toInt < 0 then (-EOVERFLOW, file)
        else (position.toInt, { file with seekPoint := position })

/-! ### The machine -/

/-- A call on a file, with the answer of the device. -/
inductive Label where
  | lseek (pos : BitVec 64) (whence : Whence)
  | read (len : BitVec 32) (answer : Int)
  | write (len : BitVec 32) (answer : Int)
  deriving DecidableEq, Repr

/-- One call. A device does not transfer more than it is asked for. -/
def exec : Label → Option DevFsFile
  | .lseek pos whence => some (DevFs.lseek file pos whence).2
  | .read len answer =>
      if answer ≤ (askedLength file len).toNat then
        some (DevFs.read file len fun _ => answer).2.2
      else none
  | .write len answer =>
      if answer ≤ (askedLength file len).toNat then
        some (DevFs.write file len fun _ => answer).2.2
      else none

/-- The transfer does not go beyond the largest offset. -/
def Fits (len : BitVec 32) : Prop :=
  file.seekPoint.toInt + len.toNat ≤ maxOffset.toInt
  deriving Decidable

/-- The condition on a call. -/
def Moderate : Label → Prop
  | .lseek _ _ => True
  | .read len _ => file.permits _FREAD = true → Fits file len
  | .write len _ => file.permits _FWRITE = true → Fits file len

end

/-! ### Requests -/

/-- The requests are for at most the length that was passed, and for nothing beyond the largest
offset. -/
def Proper (requests : List Request) (file : DevFsFile) (len : BitVec 32) : Prop :=
  ∀ request ∈ requests, request.size.toNat ≤ len.toNat ∧
    file.seekPoint.toInt + request.size.toNat ≤ maxOffset.toInt

theorem toInt_maxOffset : maxOffset.toInt = 2 ^ 63 - 1 := by decide

variable {file : DevFsFile} {len : BitVec 32} {mask : BitVec 32} {device : Device}

section

variable (nonnegative : 0 ≤ file.seekPoint.toInt)

include nonnegative

/-- What is known of words as numbers when the position is not negative. -/
theorem toNat_seekPoint :
    (file.seekPoint.toNat : Int) = file.seekPoint.toInt ∧ file.seekPoint.toNat < 2 ^ 63 := by
  rw [toInt_eq_toNat_cond] at nonnegative ⊢
  split at nonnegative
  · rename_i small
    rw [if_pos small]
    exact ⟨rfl, by omega⟩
  · have word := file.seekPoint.isLt
    omega

theorem toNat_sum :
    (file.seekPoint + len.setWidth 64).toNat = file.seekPoint.toNat + len.toNat := by
  have position := toNat_seekPoint nonnegative
  have length := len.isLt
  rw [toNat_add, toNat_setWidth_of_le (by decide), Nat.mod_eq_of_lt (by omega)]

/-- The sign of the sum tells whether the transfer goes beyond the largest offset. -/
theorem sum_nonnegative_iff : ¬ (file.seekPoint + len.setWidth 64).toInt < 0 ↔ Fits file len := by
  have position := toNat_seekPoint nonnegative
  have length := len.isLt
  unfold Fits
  rw [toInt_eq_toNat_cond, toNat_sum nonnegative, toInt_maxOffset]
  split <;> omega

/-- The length that replaces one that does not fit. -/
theorem toNat_askedLength (beyond : ¬ Fits file len) :
    (askedLength file len).toNat + file.seekPoint.toNat + len.toNat = 2 ^ 32 + (2 ^ 63 - 1) := by
  have position := toNat_seekPoint nonnegative
  have length := len.isLt
  have negative := not_not.mp (mt (sum_nonnegative_iff nonnegative).mp beyond)
  have maximum : maxOffset.toNat = 2 ^ 63 - 1 := by decide
  unfold Fits at beyond
  rw [toInt_maxOffset] at beyond
  rw [askedLength, if_pos negative, toNat_setWidth, toNat_sub, toNat_sub,
    toNat_setWidth_of_le (by decide), maximum]
  omega

theorem askedLength_of_fits (fits : Fits file len) : askedLength file len = len :=
  if_neg ((sum_nonnegative_iff nonnegative).mpr fits)

end

theorem requests_transfer : (transfer mask file len device).2.1 =
      if file.permits mask = false then [] else [⟨askedLength file len, file.seekPoint⟩] := by
  unfold transfer
  split
  · rfl
  · dsimp only
    split <;> rfl

section

variable (nonnegative : 0 ≤ file.seekPoint.toInt)
include nonnegative

/-- The requests of a transfer are right exactly if it fits. -/
theorem proper_transfer_iff : Proper (transfer mask file len device).2.1 file len ↔
      (file.permits mask = true → Fits file len) := by
  rw [requests_transfer]
  by_cases refused : file.permits mask = false
  · rw [if_pos refused, refused]
    exact iff_of_true nofun nofun
  · have permitted : file.permits mask = true := Bool.eq_true_of_not_eq_false refused
    rw [if_neg refused]
    constructor
    · intro proper _
      by_contra beyond
      obtain ⟨shorter, _⟩ := proper _ (List.mem_singleton.mpr rfl)
      have asked := toNat_askedLength nonnegative beyond
      have within := (proper _ (List.mem_singleton.mpr rfl)).2
      have position := toNat_seekPoint nonnegative
      have length := len.isLt
      rw [toInt_maxOffset] at within
      dsimp only at within
      omega
    · intro fits request listed
      rw [List.mem_singleton.mp listed, askedLength_of_fits nonnegative (fits permitted)]
      exact ⟨le_rfl, fits permitted⟩

/-! ### Runs -/

theorem nonnegative_lseek {pos : BitVec 64}
    {whence : Whence} : 0 ≤ (lseek file pos whence).2.seekPoint.toInt := by
  unfold lseek
  split
  · exact nonnegative
  · cases newSeekPoint file pos whence with
    | none => exact nonnegative
    | some position =>
      dsimp only
      split
      · exact nonnegative
      · rename_i valid
        exact not_lt.mp valid

/-- A transfer that fits moves the position by at most its length. -/
theorem nonnegative_transfer {answer : Int} (fits : file.permits mask = true → Fits file len)
    (bounded : answer ≤ (askedLength file len).toNat) :
    0 ≤ (transfer mask file len fun _ => answer).2.2.seekPoint.toInt := by
  unfold transfer
  split
  · exact nonnegative
  · rename_i permitted
    have fitting := fits (Bool.eq_true_of_not_eq_false permitted)
    dsimp only
    split
    · rw [askedLength_of_fits nonnegative fitting] at bounded
      have position := toNat_seekPoint nonnegative
      have word : (BitVec.ofInt 64 answer).toNat = answer.toNat := by
        rw [toNat_ofInt]
        omega
      unfold Fits at fitting
      rw [toInt_maxOffset] at fitting
      rw [toInt_eq_toNat_cond, toNat_add, word]
      split
      · exact Int.natCast_nonneg _
      · omega
    · exact nonnegative

theorem nonnegative_exec {next : DevFsFile} {label : Label} (moderate : Moderate file label)
    (stepped : exec file label = some next) : 0 ≤ next.seekPoint.toInt := by
  cases label with
  | lseek pos whence =>
    cases stepped
    exact nonnegative_lseek nonnegative
  | read | write =>
    obtain ⟨bounded, rfl⟩ := of_guard stepped
    exact nonnegative_transfer nonnegative moderate bounded

end

/-- In every run whose transfers do not go beyond the largest offset, the position is not negative,
and a read or a write of any length asks the device for at most this length and for nothing beyond
the largest offset if and only if the length does not go beyond it. -/
theorem device_requests_proper_iff {flags : BitVec 32} {labels : List Label} {file : DevFsFile}
    (run : Run exec Moderate (opened flags) labels file) (len : BitVec 32)
    (device : Device) :
    0 ≤ file.seekPoint.toInt ∧
    (Proper (read file len device).2.1 file len ↔ (file.permits _FREAD = true → Fits file len)) ∧
    (Proper (write file len device).2.1 file len ↔
      (file.permits _FWRITE = true → Fits file len)) := by
  have nonnegative : 0 ≤ file.seekPoint.toInt :=
    run.invariant (fun file => 0 ≤ file.seekPoint.toInt)
      (fun _ _ _ nonnegative moderate => nonnegative_exec nonnegative moderate)
      (show 0 ≤ (0#64).toInt by decide)
  exact ⟨nonnegative, proper_transfer_iff nonnegative, proper_transfer_iff nonnegative⟩

/-- A file opened for reading and writing that moved to its tenth byte. -/
theorem device_requests_proper_at_ten : 0 ≤ (⟨0x3#32, 10#64⟩ : DevFsFile).seekPoint.toInt ∧
      Proper (read ⟨0x3#32, 10#64⟩ 4#32 fun _ => 4).2.1 ⟨0x3#32, 10#64⟩ 4#32 := by
  have run : Run exec Moderate (opened 0x3#32) [.lseek 10#64 .seekSet] ⟨0x3#32, 10#64⟩ :=
    .cons trivial rfl (.nil _)
  obtain ⟨nonnegative, reads, -⟩ := device_requests_proper_iff run 4#32 fun _ => 4
  exact ⟨nonnegative, reads.mpr fun _ => (by decide)⟩

/-- A file whose position is two bytes below the largest offset is asked for four bytes. The
device is asked for almost 4 GB, and when it answers with four bytes the position is negative. -/
theorem device_request_grows : ∃ file : DevFsFile,
      Run exec unrestricted (opened 0x3#32) [.lseek 0x7ffffffffffffffd#64 .seekSet] file ∧
      0 ≤ file.seekPoint.toInt ∧
      (read file 4#32 fun _ => 4).2.1 = [⟨0xfffffffe#32, 0x7ffffffffffffffd#64⟩] ∧
      ¬ Proper (read file 4#32 fun _ => 4).2.1 file 4#32 ∧
      (read file 4#32 fun _ => 4).2.2.seekPoint.toInt < 0 := by
  refine ⟨⟨0x3#32, 0x7ffffffffffffffd#64⟩, .cons trivial rfl (.nil _), by decide, by decide, ?_,
    by decide⟩
  intro proper
  have shorter := (proper ⟨0xfffffffe#32, 0x7ffffffffffffffd#64⟩ (by decide)).1
  revert shorter
  decide

end Miosix.DevFs
