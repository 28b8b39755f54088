/-
This file proves when a system call dereferences a pointer of the process to an object of words
that is not aligned.

The structures of the file system and the status of a process that ended are checked in
`handleSvc`, and the buffer for the entries of a directory in the file descriptor table, after
which the entries stay aligned because their sizes are rounded. The time of `clock_nanosleep` and
the arrays of strings of a new program are not checked. The elements of an array are aligned with
its start, so the pointers that the process passes decide.
-/

import Miosix.Process.Regions
import Miosix.Process.SyscallSafety

namespace Miosix.Syscalls

open Protection Logged

variable {World : Type} {memory : Memory} {kernel : Kernel World} {env : Env World}
  {mpu : MPUConfiguration}

/-! ### Aligned accesses -/

/-- Every object of words is aligned. -/
def WordAligned : Access → Prop
  | .object pointer => aligned pointer = true
  | .read _ _ => True
  | .write _ _ => True

instance (access : Access) : Decidable (WordAligned access) :=
  match access with
  | .object pointer => inferInstanceAs (Decidable (aligned pointer = true))
  | .read _ _ | .write _ _ => inferInstanceAs (Decidable True)

variable {a argv envp path address : Nat} {world : World} {stack : Stack} {errno : Int}

theorem accepts_aligned : Accepts WordAligned env where
  look str := by
    have counted : ∀ limit, (countString env.memory str limit).All WordAligned :=
      fun limit => (all_singleton_iff _).mpr trivial
    unfold withinForReadingString
    rw [all_ite_iff, all_ite_iff]
    refine ⟨fun _ => ?_, fun _ => ⟨fun _ => ?_, fun _ => all_pure _ _⟩⟩
    · exact (all_bind_iff _ _ _).mpr ⟨counted _, all_pure _ _⟩
    · exact (all_bind_iff _ _ _).mpr ⟨counted _, all_pure _ _⟩
  string _ _ := trivial
  read _ _ _ _ := trivial
  write _ _ _ _ := trivial
  object _ := id

/-! ### Arrays of strings -/

/-- An array that can be read at its start is aligned. -/
def ArrayAligned (mpu : MPUConfiguration) (a : Nat) : Prop :=
  withinForReading mpu a 4 = true → aligned a = true
  deriving Decidable

theorem element_zero (small : a < 2 ^ 32) : element a 0 = a := Nat.mod_eq_of_lt small

theorem elements_aligned (small : a < 2 ^ 32) (start : ArrayAligned mpu a) :
    Elements WordAligned mpu a := by
  intro within i
  rw [element_zero small] at within
  have first := aligned_iff.mp (start within)
  refine aligned_iff.mpr ?_
  unfold element
  omega

/-- The first element is dereferenced if it is in the memory of the process. -/
theorem ArrayAligned.of_validate (small : a < 2 ^ 32)
    (every : (validateStringArray memory mpu a).All WordAligned) : ArrayAligned mpu a := by
  intro within
  rw [validateStringArray_eq, validateElements, all_ite_iff, element_zero small] at every
  have accepted := every.2 (by rw [within]; exact Bool.noConfusion)
  exact (loadPointer_bind_all_iff.mp accepted).1.2

theorem ArrayAligned.of_withArguments (argvSmall : argv < 2 ^ 32) (envpSmall : envp < 2 ^ 32)
    {accepted : Nat → Nat → Svc World Outcome}
    (every : (env.withArguments path argv envp accepted world).All WordAligned) :
    ArrayAligned env.mpu argv ∧ ArrayAligned env.mpu envp := by
  unfold Env.withArguments at every
  rw [all_access_bind_iff, all_access_bind_iff] at every
  exact ⟨.of_validate argvSmall every.1, .of_validate envpSmall every.2.1⟩

/-! ### The system calls -/

theorem word_lt : Bytes.word memory address < 2 ^ 32 := by
  have first := (memory address).toNat_lt
  have second := (memory (address + 1)).toNat_lt
  have third := (memory (address + 2)).toNat_lt
  have fourth := (memory (address + 3)).toNat_lt
  unfold Bytes.word
  omega

/-- The pointers that no check looks at are aligned, as far as they are dereferenced. -/
def PointersAligned (env : Env World) : Syscall → Prop
  | .NANOSLEEP => withinForReading env.mpu (env.param 2) env.kernel.timespecSize = true →
      (env.param 3 = 0 ∨
        withinForWriting env.mpu (env.param 3) env.kernel.timespecSize = true) →
      aligned (env.param 2) = true
  | .EXECVE => ArrayAligned env.mpu (env.param 1) ∧ ArrayAligned env.mpu (env.param 2)
  | .SPAWN => withinForReading env.mpu (env.param 0) 20 = true →
      ArrayAligned env.mpu (Bytes.word env.memory (env.param 0 + 12)) ∧
      ArrayAligned env.mpu (Bytes.word env.memory (env.param 0 + 16))
  | _ => True

theorem PointersAligned.unchecked {call : Syscall} (pointers : PointersAligned env call) :
    Unchecked WordAligned env call := by
  cases call with
  | NANOSLEEP => exact pointers
  | EXECVE =>
    exact ⟨elements_aligned param_lt pointers.1, elements_aligned param_lt pointers.2⟩
  | SPAWN =>
    exact fun within => ⟨elements_aligned word_lt (pointers within).1,
      elements_aligned word_lt (pointers within).2⟩
  | _ => trivial

theorem PointersAligned.of_spawn (every : (env.spawn world).All WordAligned) :
    PointersAligned env .SPAWN := by
  intro within
  unfold Env.spawn at every
  rw [if_neg (by rw [within]; exact Bool.noConfusion), all_access_bind_iff] at every
  exact ArrayAligned.of_withArguments word_lt word_lt every.2

/-- The time is read if the checks of both pointers accept it. -/
theorem PointersAligned.of_nanosleep (every : (env.nanosleep world).All WordAligned) :
    PointersAligned env .NANOSLEEP := by
  intro within other
  unfold Env.nanosleep at every
  rw [if_pos (by simpa using ⟨within, other⟩), bind_apply, all_bind_iff] at every
  have whole := List.forall_mem_map.mp (List.forall_mem_append.mp every.1).2
  simp only [objects] at whole
  by_cases null : env.param 2 = 0
  · rw [null]
    rfl
  · exact whole _ (by simp [null])

theorem handleCall_aligned_iff {call : Syscall} :
    (env.handleCall errno stack call world).All WordAligned ↔ PointersAligned env call := by
  refine ⟨fun every => ?_,
    fun pointers => keeps_handleCall accepts_aligned pointers.unchecked world⟩
  cases call with
  | NANOSLEEP => exact .of_nanosleep every
  | EXECVE => exact ArrayAligned.of_withArguments param_lt param_lt every
  | SPAWN => exact .of_spawn every
  | _ => trivial

/-- Every pointer that a system call dereferences as an object of words is aligned if and only if
the time of a sleep and the arrays of strings of a program are. -/
theorem objects_are_aligned_iff (env : Env World) (id : Nat) (errno : Int) (stack : Stack)
    (world : World) : (handleSvc env id errno stack world).All WordAligned ↔
      ∀ call, Syscall.of id = some call → PointersAligned env call := by
  unfold handleSvc
  cases Syscall.of id with
  | none => exact iff_of_true (Logged.all_pure _ _) nofun
  | some call =>
    simp only [Option.some.injEq, forall_eq']
    rw [Logged.all_bind_iff, handleCall_aligned_iff]
    refine and_iff_left ?_
    split <;> exact Logged.all_pure _ _

/-- A kernel whose services all answer zero. -/
def idleKernel (statSize timespecSize : Nat) (stat_small : statSize < 2 ^ 32)
    (timespec_small : timespecSize < 2 ^ 32) : Kernel Unit where
  withPosixPermissions := true
  statSize := statSize
  timespecSize := timespecSize
  direntHeaderSizeNoPadding := 19
  maxOpenFiles := 8
  maxArgs := 16
  maxArgsBlockSize := 512
  stackAlignment := 8
  inUse _ _ := false
  listing _ _ := none
  serve world _ := (.ok 0, world)
  stat_small := stat_small
  timespec_small := timespec_small

/-- A time that is not aligned is read. It is in the data of the process, at an odd address. -/
theorem unaligned_time_is_dereferenced :
    ¬ (handleSvc ⟨idleKernel 88 16 (by decide) (by decide), fun _ => 0,
      MPUConfiguration.construct .armv7m ⟨0x08000000, 0x1000⟩ ⟨0x20000000, 0x1000⟩,
      ⟨1, 0, 0, 0, 0, 0, 0⟩, Function.update (fun _ => 0) 2 0x20000101⟩ 40 0 (fun _ => 0) ()).All
        WordAligned := by
  unfold Logged.All
  decide +kernel

end Miosix.Syscalls
