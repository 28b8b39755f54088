/-
This file compares two runs of a system call that differ in the previous content of the stack of
the kernel, and says when the process gets the same values in its registers.

Only the arrays and structures that are not initialised can make a difference, and of these only
the array of `pipe` is not always filled: the descriptors that were found are written to the
registers even if there were not enough of them.
-/

import Miosix.Process.Syscalls

namespace Miosix.Syscalls

open Protection

variable {World : Type} {env : Env World} {world : World} {kernel : Kernel World} {memory : Memory}
  {first second id : Nat} {call : Syscall} {errno : Int} {stack : Stack}

/-- The descriptors that are not in use. -/
def freeDescriptors (kernel : Kernel World) (world : World) : List Nat :=
  (List.range kernel.maxOpenFiles).filter fun i => !kernel.inUse world i

/-! ### The descriptors of a pipe -/

/-- An array with values written from an index on. -/
def store (fds : Nat → Int) : Nat → List Nat → Nat → Int
  | _, [] => fds
  | start, value :: rest => store (Function.update fds start value) (start + 1) rest

/-- The array gets the first free descriptors, and keeps its content where there are none. -/
theorem findDescriptors_eq {inUse : Nat → Bool} {indices : List Nat} {availableFds : Nat}
    {fds : Nat → Int} (below : availableFds < 2) :
    findDescriptors inUse indices availableFds fds =
      (availableFds + ((indices.filter fun i => !inUse i).take (2 - availableFds)).length,
        store fds availableFds ((indices.filter fun i => !inUse i).take (2 - availableFds))) := by
  induction indices generalizing availableFds fds with
  | nil => simp [findDescriptors, store]
  | cons i rest inductionHypothesis =>
    rw [findDescriptors]
    cases used : inUse i with
    | true =>
      rw [if_pos rfl, inductionHypothesis below, List.filter_cons_of_neg (by simp [used])]
    | false =>
      obtain ⟨left, split⟩ : ∃ left, 2 - availableFds = left + 1 := ⟨1 - availableFds, by omega⟩
      rw [if_neg (by simp), List.filter_cons_of_pos (by simp [used]), split, List.take_succ_cons]
      by_cases last : availableFds + 1 ≥ 2
      · obtain rfl : left = 0 := by omega
        rw [if_pos last, List.take_zero]
        rfl
      · rw [if_neg last, inductionHypothesis (by omega),
          show 2 - (availableFds + 1) = left by omega]
        simp only [List.length_cons, store, Prod.mk.injEq, and_true]
        omega

theorem findDescriptors_range :
    findDescriptors (kernel.inUse world) (List.range kernel.maxOpenFiles) 0 stack =
      (((freeDescriptors kernel world).take 2).length,
        store stack 0 ((freeDescriptors kernel world).take 2)) := by
  rw [findDescriptors_eq (by decide), Nat.zero_add]
  rfl

theorem inspect_bind_apply {Value Result : Type} {view : World → Value}
    {next : Value → Svc World Result} :
    (Svc.inspect view >>= next) world = next (view world) world := rfl

theorem pipe_of_few (few : ((freeDescriptors kernel world).take 2).length < 2) :
    pipe kernel memory stack world =
      pure (.ok (-EMFILE, store stack 0 ((freeDescriptors kernel world).take 2)), world) := by
  unfold pipe
  simp only [inspect_bind_apply, findDescriptors_range]
  rw [if_pos few]
  rfl

theorem pipe_of_enough (found : (freeDescriptors kernel world).take 2 = [first, second]) :
    pipe kernel memory stack world = Svc.call kernel memory (.newPipe first second) world >>=
        Svc.proceed fun _ => pure (0, store stack 0 [first, second]) := by
  unfold pipe
  simp only [inspect_bind_apply, findDescriptors_range, found]
  rfl

/-- The registers after a search that does not find two descriptors: one of them has the content of
the stack. -/
theorem value_handleCall_pipe_of_few
    (few : ((freeDescriptors env.kernel world).take 2).length < 2) :
    (env.handleCall errno stack .PIPE world).value =
      (.ok (env.resume (setParameter (setParameter (setParameter env.sp 0 (-EMFILE)) 1
        (store stack 0 ((freeDescriptors env.kernel world).take 2) 0)) 2
        (store stack 0 ((freeDescriptors env.kernel world).take 2) 1))), world) := by
  show (pipe env.kernel env.memory stack world >>= Svc.proceed _).value = _
  rw [pipe_of_few few]
  rfl

theorem value_handleCall_pipe_of_enough {other : Stack}
    (found : (freeDescriptors env.kernel world).take 2 = [first, second]) :
    (env.handleCall errno stack .PIPE world).value =
      (env.handleCall errno other .PIPE world).value := by
  show (pipe env.kernel env.memory stack world >>= Svc.proceed _).value =
    (pipe env.kernel env.memory other world >>= Svc.proceed _).value
  rw [pipe_of_enough found, pipe_of_enough found]
  simp only [Logged.value_bind]
  match (Svc.call env.kernel env.memory (.newPipe first second) world).value with
  | (.error exception, after) => rfl
  | (.ok answer, after) => rfl

/-! ### Two runs -/

/-- No other system call depends on what was on the stack. -/
theorem handleCall_eq_of_ne (env : Env World) (errno : Int) (stack other : Stack)
    (notPipe : call ≠ .PIPE) :
    env.handleCall errno stack call = env.handleCall errno other call := by
  cases call with
  | PIPE => contradiction
  | _ => rfl

theorem value_handleSvc_of_ok
    {outcome : Outcome} {after : World} (known : Syscall.of id = some call)
    (handled : (env.handleCall errno stack call world).value = (.ok outcome, after)) :
    (handleSvc env id errno stack world).value = (outcome, after) := by
  unfold handleSvc
  rw [known]
  simp only [Logged.value_bind, handled]
  rfl

theorem value_handleSvc_congr {other : Stack} (known : Syscall.of id = some call)
    (same : (env.handleCall errno stack call world).value =
      (env.handleCall errno other call world).value) :
    (handleSvc env id errno stack world).value = (handleSvc env id errno other world).value := by
  unfold handleSvc
  rw [known]
  simp only [Logged.value_bind, same]

theorem registers_of_few (isPipe : Syscall.of id = some .PIPE)
    (few : (freeDescriptors env.kernel world).length < 2) :
    (handleSvc env id errno stack world).value.1.registers 2 =
      UInt32.ofNat (stack 1 % 2 ^ 32).toNat := by
  have short : ((freeDescriptors env.kernel world).take 2).length < 2 := by
    rw [List.take_of_length_le few.le]
    exact few
  have kept : store stack 0 ((freeDescriptors env.kernel world).take 2) 1 = stack 1 := by
    match found : (freeDescriptors env.kernel world).take 2 with
    | [] => rfl
    | [first] => rfl
    | first :: second :: rest =>
      rw [found] at short
      simp at short
  rw [value_handleSvc_of_ok isPipe (value_handleCall_pipe_of_few short), kept]
  rfl

/-- Two runs of a system call that differ only in the previous content of the stack of the kernel
give the process the same registers, except if the process asks for a pipe while fewer than two
descriptors are free. -/
theorem registers_are_determined_iff (env : Env World) (id : Nat) (errno : Int) (world : World) :
    (∀ stack other : Stack, (handleSvc env id errno stack world).value.1.registers =
      (handleSvc env id errno other world).value.1.registers) ↔
    ¬ (Syscall.of id = some .PIPE ∧ (freeDescriptors env.kernel world).length < 2) := by
  constructor
  · rintro same ⟨isPipe, few⟩
    have equal := congrFun (same (fun _ => 0) fun _ => 1) 2
    rw [registers_of_few isPipe few, registers_of_few isPipe few] at equal
    contradiction
  · intro condition stack other
    cases known : Syscall.of id with
    | none =>
      unfold handleSvc
      rw [known]
    | some call =>
      by_cases isPipe : call = .PIPE
      · subst isPipe
        have enough : 2 ≤ (freeDescriptors env.kernel world).length := by
          by_contra few
          exact condition ⟨known, by omega⟩
        obtain ⟨first, second, found⟩ : ∃ first second,
            (freeDescriptors env.kernel world).take 2 = [first, second] :=
          List.length_eq_two.mp (by rw [List.length_take]; omega)
        rw [value_handleSvc_congr known (value_handleCall_pipe_of_enough found)]
      · have same := handleCall_eq_of_ne env errno stack other isPipe
        rw [value_handleSvc_congr known (congrArg (fun handled => (handled world).value) same)]

/-- A kernel in which a process has opened as many files as it can. -/
def exhaustedKernel (maxOpenFiles : Nat) : Kernel Unit where
  withPosixPermissions := true
  statSize := 88
  timespecSize := 16
  direntHeaderSizeNoPadding := 19
  maxOpenFiles := maxOpenFiles
  maxArgs := 16
  maxArgsBlockSize := 512
  stackAlignment := 8
  inUse _ _ := true
  listing _ _ := none
  serve world _ := (.ok 0, world)
  stat_small := by decide
  timespec_small := by decide

/-- The call fails, and a word of the stack of the kernel is in a register of the process. -/
theorem failed_pipe_returns_stack_content :
    ((handleSvc ⟨exhaustedKernel 8, fun _ => 0, ⟨.noMpu, ⟨0, 0⟩, ⟨0, 0⟩⟩, ⟨1, 0, 0, 0, 0, 0, 0⟩,
      fun _ => 0⟩ 32 0 (fun _ => 0xdead) ()).value.1.registers 2 = 0xdead) ∧
    ((handleSvc ⟨exhaustedKernel 8, fun _ => 0, ⟨.noMpu, ⟨0, 0⟩, ⟨0, 0⟩⟩, ⟨1, 0, 0, 0, 0, 0, 0⟩,
      fun _ => 0⟩ 32 0 (fun _ => 0xbeef) ()).value.1.registers 2 = 0xbeef) := by
  decide +kernel

end Miosix.Syscalls
