/-
This file proves that a system call touches only the memory of the process that makes it, whatever
the number and the parameters of the call are.

The rules for computations of the kernel reduce this to the parts of a system call: a check looks
only at memory of the process, and a service is called with pointers that a check has accepted.
For the arguments of a program, the check of an array says that all its elements and their strings
can be read, and the later loops read no others. The system calls are followed for any property of
accesses that the checks establish.
-/

import Miosix.Process.Syscalls

namespace Miosix.Syscalls

open Protection Logged List

variable {World Value Result : Type} {architecture : Architecture}
  {process : ProcessMemory architecture} {memory : Memory} {kernel : Kernel World} {env : Env World}

/-! ### The rules -/

/-- A computation only has accesses that are permitted. -/
def Keeps (permitted : Access → Prop) (computation : Svc World Value) : Prop :=
  ∀ world, (computation world).All permitted

variable {permitted : Access → Prop}

theorem keeps_pure {value : Value} : Keeps permitted (pure value : Svc World Value) :=
  fun _ => all_pure _ _

variable {next : Value → Svc World Result} {service : Service} {str a n : Nat}
  {mpu : MPUConfiguration}
  {first : Svc World Value} {computation : Logged Access Value} {address argv envp path : Nat}
  {stack : Stack} {errno : Int}

theorem keeps_bind (start : Keeps permitted first)
    (following : ∀ value, Keeps permitted (next value)) : Keeps permitted (first >>= next) := by
  intro world
  rw [bind_apply, all_bind_iff]
  refine ⟨start world, ?_⟩
  match (first world).value with
  | (.error exception, after) => exact all_pure _ _
  | (.ok value, after) => exact following value after

/-- After a computation that calls no service, its value is known. -/
theorem all_access_bind_iff {world : World}
    : ((Svc.access computation >>= next) world).All permitted ↔
      computation.All permitted ∧ (next computation.value world).All permitted := by
  rw [bind_apply, all_bind_iff]
  rfl

theorem keeps_access_bind (start : computation.All permitted)
    (following : Keeps permitted (next computation.value)) :
    Keeps permitted (Svc.access computation >>= next) :=
  fun world => all_access_bind_iff.mpr ⟨start, following world⟩

theorem keeps_call (given : ∀ access ∈ footprint kernel memory service, permitted access)
    (whole : ∀ world, ∀ pointer ∈ objects kernel world service, permitted (.object pointer)) :
    Keeps permitted (Svc.call kernel memory service) :=
  fun world => forall_mem_append.mpr ⟨given, forall_mem_map.mpr (whole world)⟩

theorem keeps_attempt {computation : Svc World Value} (keeps : Keeps permitted computation) :
    Keeps permitted (Svc.attempt computation) := by
  intro world
  refine (all_bind_iff _ _ _).mpr ⟨keeps world, ?_⟩
  match (computation world).value with
  | (.error exception, after) => exact all_pure _ _
  | (.ok value, after) => exact all_pure _ _

theorem keeps_ite {condition : Prop} [Decidable condition] {second : Svc World Value}
    (whenTrue : condition → Keeps permitted first)
    (whenFalse : ¬ condition → Keeps permitted second) :
    Keeps permitted (if condition then first else second) := by
  split
  · exact whenTrue ‹_›
  · exact whenFalse ‹_›

theorem keeps_answer {value : Int} :
    Keeps permitted (pure (env.answer value) : Svc World Outcome) :=
  keeps_pure

/-! ### Checked pointers -/

theorem param_lt {index : Nat} : env.param index < 2 ^ 32 := (env.sp index).toNat_lt

/-- What the checks of a system call accept is permitted, and they only look at what is. -/
structure Accepts (permitted : Access → Prop) (env : Env World) : Prop where
  look : ∀ str, (withinForReadingString env.memory env.mpu str).All permitted
  string : ∀ str, (withinForReadingString env.memory env.mpu str).value = true →
    permitted (stringRead env.memory str)
  read : ∀ ptr, ∀ size < 2 ^ 32, withinForReading env.mpu ptr size = true →
    permitted (.read ptr size)
  write : ∀ ptr, ∀ size < 2 ^ 32, withinForWriting env.mpu ptr size = true →
    permitted (.write ptr size)
  object : ∀ pointer, aligned pointer = true → permitted (.object pointer)

/-- The bytes and the objects that a service touches are permitted. -/
theorem keeps_plain
    (given : ∀ access ∈ footprint env.kernel env.memory service, permitted access)
    (whole : ∀ world, ∀ pointer ∈ objects env.kernel world service, permitted (.object pointer)) :
    Keeps permitted (env.plain service) :=
  keeps_bind (keeps_call given whole) fun _ => keeps_pure

section

variable (accepts : Accepts permitted env)

include accepts

/-- A check of a string, and what is done if the string is accepted. -/
theorem keeps_isString_bind {next : Bool → Svc World Result}
    (refused : Keeps permitted (next false))
    (accepted : permitted (stringRead env.memory str) → Keeps permitted (next true)) :
    Keeps permitted (env.isString str >>= next) := by
  refine keeps_access_bind (accepts.look str) ?_
  cases within : (withinForReadingString env.memory env.mpu str).value with
  | false => exact refused
  | true => exact accepted (accepts.string str within)

section

variable (touches : footprint env.kernel env.memory service = [stringRead env.memory str])
  (none : ∀ world, objects env.kernel world service = [])

include touches none

theorem keeps_withString : Keeps permitted (env.withString str service) := by
  refine keeps_isString_bind accepts keeps_answer fun allowed => ?_
  refine keeps_plain (touches ▸ forall_mem_singleton.mpr allowed) fun world => ?_
  rw [none world]
  exact nofun

theorem keeps_withPermissions : Keeps permitted (env.withPermissions str service) :=
  keeps_ite (fun _ => keeps_withString accepts touches none) fun _ => keeps_answer

end

theorem keeps_withBuffer {ptr size : Nat} (small : size < 2 ^ 32)
    (touches : footprint env.kernel env.memory service = [.write ptr size])
    (whole : ∀ world, ∀ pointer ∈ objects env.kernel world service, permitted (.object pointer)) :
    Keeps permitted (env.withBuffer ptr size service) :=
  keeps_ite (fun within => keeps_plain (touches ▸ forall_mem_singleton.mpr
    (accepts.write ptr size small within)) whole) fun _ => keeps_answer

theorem keeps_statCall (touches : footprint env.kernel env.memory service =
      [stringRead env.memory (env.param 0), .write (env.param 1) env.kernel.statSize])
    (single : ∀ world, objects env.kernel world service = [env.param 1]) :
    Keeps permitted (env.statCall service) := by
  refine keeps_isString_bind accepts keeps_answer fun allowed => ?_
  refine keeps_ite (fun within => ?_) fun _ => keeps_answer
  rw [Bool.true_and, Bool.and_eq_true] at within
  refine keeps_plain (touches ▸ forall_mem_cons.mpr ⟨allowed, forall_mem_singleton.mpr
    (accepts.write _ _ env.kernel.stat_small within.1)⟩) fun world => ?_
  exact single world ▸ forall_mem_singleton.mpr (accepts.object _ within.2)

end

/-! ### Entries of directories -/

theorem aligned_iff {pointer : Nat} : aligned pointer = true ↔ 4 ∣ pointer := by
  unfold aligned
  rw [beq_iff_eq]
  exact (Nat.dvd_iff_mod_eq_zero).symm

section

variable {noPadding dp len : Nat}

theorem addEntries_aligned {last pos : Nat} {names : List Nat} (start : 4 ∣ pos) :
    ∀ entry ∈ addEntries noPadding last pos names, 4 ∣ entry := by
  induction names generalizing pos with
  | nil => exact nofun
  | cons name rest inductionHypothesis =>
    intro entry listed
    unfold addEntries at listed
    split at listed
    · cases listed
    · rcases mem_cons.mp listed with rfl | later
      · exact start
      · exact inductionHypothesis (Nat.dvd_add start (Nat.dvd_mul_left 4 _)) entry later

theorem direntPositions_aligned {listing : Listing} (start : 4 ∣ dp) :
    ∀ entry ∈ direntPositions noPadding dp len listing, 4 ∣ entry := by
  have header : 4 ∣ direntHeaderSize noPadding := Nat.dvd_mul_left 4 _
  intro entry listed
  unfold direntPositions at listed
  split at listed
  · cases listed
  split at listed
  · rcases mem_cons.mp listed with rfl | listed
    · exact start
    rcases mem_cons.mp listed with rfl | listed
    · exact Nat.dvd_add start header
    · exact addEntries_aligned (Nat.dvd_add start (Nat.dvd_mul_left_of_dvd header 2)) entry listed
  · exact addEntries_aligned start entry listed

/-- The check of `FileDescriptorTable::getdents` is enough for all the entries. -/
theorem dirents_aligned {world : World} {fd : Nat} :
    ∀ pointer ∈ dirents kernel world fd dp len, aligned pointer = true := by
  intro pointer listed
  rw [aligned_iff]
  unfold dirents at listed
  split at listed
  · cases listed
  split at listed
  · cases listed
  have start : 4 ∣ dp := by omega
  cases found : kernel.listing world fd with
  | none =>
    rw [found] at listed
    cases listed
  | some listing =>
    rw [found] at listed
    exact direntPositions_aligned start pointer listed

end

/-! ### Arrays of strings -/

/-- An element of an array and its string can be read. -/
structure Readable (permitted : Access → Prop) (memory : Memory) (a i : Nat) : Prop where
  element : permitted (.read (element a i) 4)
  object : permitted (.object (Syscalls.element a i))
  string : permitted (stringRead memory (Bytes.word memory (Syscalls.element a i)))

/-- The elements of an array may be dereferenced if the first one can be read. -/
def Elements (permitted : Access → Prop) (mpu : MPUConfiguration) (a : Nat) : Prop :=
  withinForReading mpu (element a 0) 4 = true → ∀ i, permitted (.object (element a i))

section

variable {next : Nat → Logged Access Result}

theorem loadPointer_bind_all_iff : (loadPointer memory address >>= next).All permitted ↔
    (permitted (.read address 4) ∧ permitted (.object address)) ∧
      (next (Bytes.word memory address)).All permitted :=
  (all_bind_iff _ _ _).trans (and_congr_left' ((forall_mem_cons).trans
    (and_congr_right' forall_mem_singleton)))

theorem value_loadPointer_bind :
    (loadPointer memory address >>= next).value = (next (Bytes.word memory address)).value := rfl

theorem measureString_bind_all_iff : (measureString memory str >>= next).All permitted ↔
    permitted (stringRead memory str) ∧ (next (strlen memory str)).All permitted :=
  (all_bind_iff _ _ _).trans (and_congr_left' (all_singleton_iff _))

end

theorem validateElements_value (fuel i : Nat) :
    (validateElements memory mpu a (fuel + 1) i).value =
      if withinForReading mpu (element a i) 4 = false then none
      else if Bytes.word memory (element a i) = 0 then some i
      else if (withinForReadingString memory mpu (Bytes.word memory (element a i))).value = false
      then none else (validateElements memory mpu a fuel (i + 1)).value := by
  rw [validateElements, value_ite, value_loadPointer_bind, value_ite, value_bind, value_ite]
  rfl

/-- The loop over an array ends at an element. -/
def Ends (memory : Memory) (mpu : MPUConfiguration) (a i : Nat) : Prop :=
  withinForReading mpu (element a i) 4 = false ∨ Bytes.word memory (element a i) = 0 ∨
    (withinForReadingString memory mpu (Bytes.word memory (element a i))).value = false

/-- Behind the last element the fuel does not matter. -/
theorem validateElements_congr {last first second i : Nat}
    (ends : Ends memory mpu a last) (lower : i ≤ last) (inFirst : last < i + first)
    (inSecond : last < i + second) :
    (validateElements memory mpu a first i).value =
      (validateElements memory mpu a second i).value := by
  induction first generalizing second i with
  | zero => omega
  | succ first inductionHypothesis =>
    obtain ⟨second, rfl⟩ : ∃ less, second = less + 1 := ⟨second - 1, by omega⟩
    rw [validateElements_value, validateElements_value]
    split_ifs with outside zero refused
    · rfl
    · rfl
    · rfl
    · refine inductionHypothesis ?_ (by omega) (by omega)
      by_contra later
      obtain rfl : i = last := by omega
      exact ends.elim outside (·.elim zero refused)

theorem validateElements_endless (never : ∀ i, ¬ Ends memory mpu a i) (fuel i : Nat) :
    (validateElements memory mpu a fuel i).value = none := by
  induction fuel generalizing i with
  | zero => rfl
  | succ fuel inductionHypothesis =>
    rw [validateElements_value, if_neg fun outside => never i (.inl outside),
      if_neg fun zero => never i (.inr (.inl zero)),
      if_neg fun refused => never i (.inr (.inr refused)), inductionHypothesis]

/-- The elements repeat after as many as there are words, so that a loop which has not ended by then
never ends. -/
theorem validateElements_enough {fuel : Nat} (enough : 2 ^ 30 ≤ fuel) :
    (validateElements memory mpu a fuel 0).value = (validateStringArray memory mpu a).value := by
  by_cases ends : ∃ last < 2 ^ 30, Ends memory mpu a last
  · obtain ⟨last, bound, ends⟩ := ends
    exact validateElements_congr ends (Nat.zero_le last) (by omega) (by omega)
  · have never : ∀ i, ¬ Ends memory mpu a i := by
      intro i ended
      have repeated : element a (i % 2 ^ 30) = element a i := by
        unfold element
        omega
      exact ends ⟨i % 2 ^ 30, Nat.mod_lt _ (by decide), by rwa [Ends, repeated]⟩
    rw [validateStringArray, validateElements_endless never, validateElements_endless never]

section

variable (accepts : Accepts permitted env) (every : ∀ i, permitted (.object (element a i)))

include accepts every

theorem validateElements_all (fuel i : Nat) :
    (validateElements env.memory env.mpu a fuel i).All permitted := by
  induction fuel generalizing i with
  | zero => exact all_pure _ _
  | succ fuel inductionHypothesis =>
    rw [validateElements, all_ite_iff]
    refine ⟨fun _ => all_pure _ _, fun within => ?_⟩
    rw [loadPointer_bind_all_iff, all_ite_iff]
    refine ⟨⟨accepts.read _ 4 (by decide) (by simpa using within), every i⟩,
      fun _ => all_pure _ _, fun _ => ?_⟩
    rw [all_bind_iff, all_ite_iff]
    exact ⟨accepts.look _, fun _ => all_pure _ _, fun _ => inductionHypothesis (i + 1)⟩

/-- All the elements of an array that is accepted can be read. -/
theorem validateElements_spec {fuel i : Nat}
    (valid : (validateElements env.memory env.mpu a fuel i).value = some n) :
    ∀ k, i ≤ k → k < n → Readable permitted env.memory a k := by
  induction fuel generalizing i with
  | zero => cases valid
  | succ fuel inductionHypothesis =>
    rw [validateElements_value] at valid
    intro k lower upper
    split_ifs at valid with outside zero refused
    · cases valid
      omega
    rcases Nat.eq_or_lt_of_le lower with rfl | later
    · exact ⟨accepts.read _ 4 (by decide) (by simpa using outside), every i,
        accepts.string _ (by simpa using refused)⟩
    · exact inductionHypothesis valid k later upper

end

theorem validateStringArray_eq : validateStringArray memory mpu a =
    validateElements memory mpu a (2 ^ 30 - 1 + 1) 0 := rfl

/-- The elements are not dereferenced if the first one cannot be read. -/
theorem validateStringArray_outside
    (outside : ¬ withinForReading mpu (element a 0) 4 = true) :
    validateStringArray memory mpu a = return none := by
  rw [validateStringArray_eq, validateElements, if_pos (by simpa using outside)]

section

variable (accepts : Accepts permitted env) (elements : Elements permitted env.mpu a)

include accepts elements

theorem validateStringArray_all : (validateStringArray env.memory env.mpu a).All permitted := by
  by_cases within : withinForReading env.mpu (element a 0) 4 = true
  · exact validateElements_all accepts (elements within) _ 0
  · rw [validateStringArray_outside within]
    exact all_pure _ _

theorem validateStringArray_spec
    (valid : (validateStringArray env.memory env.mpu a).value = some n) :
    ∀ i < n, Readable permitted env.memory a i := by
  by_cases within : withinForReading env.mpu (element a 0) 4 = true
  · exact fun i => validateElements_spec accepts (elements within) valid i (Nat.zero_le i)
  · rw [validateStringArray_outside within] at valid
    cases valid

end

/-- A loop over the first elements of an array. -/
theorem foldlM_all {State : Type} {body : State → Nat → Logged Access State}
    (each : ∀ i < n, ∀ state, (body state i).All permitted) {state : State} :
    ((List.range n).foldlM body state).All permitted := by
  have every : ∀ indices : List Nat, (∀ i ∈ indices, i < n) → ∀ state,
      (indices.foldlM body state).All permitted := by
    intro indices
    induction indices with
    | nil => exact fun _ _ => all_pure _ _
    | cons i rest inductionHypothesis =>
      intro bounded state
      rw [foldlM_cons, all_bind_iff]
      exact ⟨each i (bounded i (.head _)) state,
        inductionHypothesis (fun j listed => bounded j (.tail _ listed)) _⟩
  exact every _ (fun i => mem_range.mp) state

section

variable (readable : ∀ i < n, Readable permitted memory a i)

include readable

theorem sumLengths_all : (sumLengths memory a n).All permitted := by
  refine foldlM_all (fun i below total => ?_)
  obtain ⟨element, object, string⟩ := readable i below
  rw [loadPointer_bind_all_iff, measureString_bind_all_iff]
  exact ⟨⟨element, object⟩, string, all_pure _ _⟩

theorem copyStrings_all : (copyStrings memory a n).All permitted := by
  refine foldlM_all (fun i below _ => ?_)
  obtain ⟨element, object, string⟩ := readable i below
  rw [loadPointer_bind_all_iff, measureString_bind_all_iff, loadPointer_bind_all_iff,
    measureString_bind_all_iff]
  exact ⟨⟨element, object⟩, string, ⟨element, object⟩, string, all_pure _ _⟩

end

theorem keeps_argsBlock {narg nenv : Nat} (args : ∀ i < narg, Readable permitted memory argv i)
    (environment : ∀ i < nenv, Readable permitted memory envp i) :
    Keeps permitted (argsBlock kernel memory argv envp narg nenv) := by
  refine keeps_access_bind (sumLengths_all args) ?_
  refine keeps_access_bind (sumLengths_all environment) ?_
  refine keeps_ite (fun _ => keeps_pure) fun _ => ?_
  refine keeps_ite (fun _ => keeps_pure) fun _ => ?_
  refine keeps_bind (keeps_call nofun fun _ => nofun) fun _ => ?_
  refine keeps_access_bind (copyStrings_all args) ?_
  exact keeps_access_bind (copyStrings_all environment) keeps_pure

theorem keeps_elfProgram (allowed : permitted (stringRead memory path)) :
    Keeps permitted (Svc.call kernel memory (.elfProgram path)) :=
  keeps_call (forall_mem_singleton.mpr allowed) fun _ => nofun

/-! ### The system calls -/

section

variable (accepts : Accepts permitted env)

include accepts

/-- A path and two arrays, and what is done if they are accepted. -/
theorem keeps_withArguments (args : Elements permitted env.mpu argv)
    (environment : Elements permitted env.mpu envp) {accepted : Nat → Nat → Svc World Outcome}
    (following : permitted (stringRead env.memory path) → ∀ narg nenv,
      (∀ i < narg, Readable permitted env.memory argv i) →
      (∀ i < nenv, Readable permitted env.memory envp i) → Keeps permitted (accepted narg nenv)) :
    Keeps permitted (env.withArguments path argv envp accepted) := by
  refine keeps_access_bind (validateStringArray_all accepts args) ?_
  refine keeps_access_bind (validateStringArray_all accepts environment) ?_
  refine keeps_isString_bind accepts keeps_answer fun allowed => ?_
  cases argsValid : (validateStringArray env.memory env.mpu argv).value with
  | none => exact keeps_answer
  | some narg =>
    cases environmentValid : (validateStringArray env.memory env.mpu envp).value with
    | none => exact keeps_answer
    | some nenv =>
      exact following allowed narg nenv (validateStringArray_spec accepts args argsValid)
        (validateStringArray_spec accepts environment environmentValid)

/-- The pointers that no check looks at may be dereferenced. -/
def Unchecked (permitted : Access → Prop) (env : Env World) : Syscall → Prop
  | .NANOSLEEP => withinForReading env.mpu (env.param 2) env.kernel.timespecSize = true →
      (env.param 3 = 0 ∨
        withinForWriting env.mpu (env.param 3) env.kernel.timespecSize = true) →
      permitted (.object (env.param 2))
  | .EXECVE => Elements permitted env.mpu (env.param 1) ∧ Elements permitted env.mpu (env.param 2)
  | .SPAWN => withinForReading env.mpu (env.param 0) 20 = true →
      Elements permitted env.mpu (Bytes.word env.memory (env.param 0 + 12)) ∧
      Elements permitted env.mpu (Bytes.word env.memory (env.param 0 + 16))
  | _ => True

theorem keeps_execve (unchecked : Unchecked permitted env .EXECVE) :
    Keeps permitted env.execve := by
  refine keeps_withArguments accepts unchecked.1 unchecked.2
    fun allowed narg nenv args environment => ?_
  refine keeps_bind (keeps_argsBlock args environment) fun block => ?_
  cases block with
  | none => exact keeps_answer
  | some block =>
    refine keeps_bind (keeps_elfProgram allowed) fun errorCode => ?_
    refine keeps_ite (fun _ => keeps_answer) fun _ => ?_
    refine keeps_bind (keeps_attempt (keeps_call nofun fun _ => nofun)) fun loaded => ?_
    cases loaded with
    | none | some => exact keeps_pure

theorem keeps_spawn (unchecked : Unchecked permitted env .SPAWN) : Keeps permitted env.spawn := by
  refine keeps_ite (fun _ => keeps_answer) fun within => ?_
  rw [Bool.not_eq_false] at within
  refine keeps_access_bind ((all_singleton_iff _).mpr
    (accepts.read _ 20 (by decide) within)) ?_
  refine keeps_withArguments accepts (unchecked within).1 (unchecked within).2
    fun allowed narg nenv args environment => ?_
  refine keeps_bind (keeps_bind (keeps_argsBlock args environment) fun block => ?_)
    fun _ => keeps_answer
  cases block with
  | none => exact keeps_pure
  | some block =>
    refine keeps_bind (keeps_elfProgram allowed) fun errorCode => ?_
    exact keeps_ite (fun _ => keeps_pure) fun _ => keeps_call nofun fun _ => nofun

theorem keeps_rename : Keeps permitted env.rename := by
  refine keeps_isString_bind accepts keeps_answer fun allowed => ?_
  refine keeps_isString_bind accepts keeps_answer fun otherAllowed => ?_
  exact keeps_plain (forall_mem_cons.mpr ⟨allowed, forall_mem_singleton.mpr otherAllowed⟩)
    fun _ => nofun

theorem keeps_readlink : Keeps permitted env.readlink := by
  refine keeps_isString_bind accepts keeps_answer fun allowed => ?_
  refine keeps_ite (fun within => ?_) fun _ => keeps_answer
  rw [Bool.true_and] at within
  exact keeps_plain (forall_mem_cons.mpr ⟨allowed, forall_mem_singleton.mpr
    (accepts.write _ _ param_lt within)⟩) fun _ => nofun

theorem keeps_nanosleep (unchecked : Unchecked permitted env .NANOSLEEP) :
    Keeps permitted env.nanosleep := by
  refine keeps_ite (fun within => ?_) fun _ => keeps_answer
  rw [Bool.and_eq_true, Bool.or_eq_true, beq_iff_eq] at within
  refine keeps_plain (forall_mem_cons.mpr
    ⟨accepts.read _ _ env.kernel.timespec_small within.1, fun access listed => ?_⟩)
    fun world pointer listed => ?_
  · split at listed
    · cases listed
    · rename_i present
      exact mem_singleton.mp listed ▸
        accepts.write _ _ env.kernel.timespec_small (within.2.resolve_left present)
  · simp only [objects] at listed
    split at listed
    · cases listed
    · exact mem_singleton.mp listed ▸ unchecked within.1 within.2

theorem keeps_waitpid : Keeps permitted env.waitpid := by
  refine keeps_ite (fun within => ?_) fun _ => keeps_answer
  rw [Bool.or_eq_true, beq_iff_eq, Bool.and_eq_true] at within
  refine keeps_plain (fun access listed => ?_) fun world pointer listed => ?_
  · simp only [footprint] at listed
    split at listed
    · cases listed
    · rename_i present
      exact mem_singleton.mp listed ▸
        accepts.write _ 4 (by decide) (within.resolve_left present).1
  · simp only [objects] at listed
    split at listed
    · cases listed
    · rename_i present
      exact mem_singleton.mp listed ▸ accepts.object _ (within.resolve_left present).2

theorem keeps_getcwd : Keeps permitted env.getcwd := by
  refine keeps_ite (fun within => ?_) fun _ => keeps_pure
  exact keeps_bind (keeps_call (forall_mem_singleton.mpr (accepts.write _ _ param_lt within))
    fun _ => nofun) fun _ => keeps_pure

end

theorem keeps_pipe : Keeps permitted (env.pipe stack) := by
  refine keeps_bind (keeps_bind (fun _ => all_pure _ _) fun inUse => ?_) fun _ => keeps_pure
  refine keeps_ite (fun _ => keeps_pure) fun _ => ?_
  exact keeps_bind (keeps_call nofun fun _ => nofun) fun _ => keeps_pure

theorem keeps_gettime : Keeps permitted (env.gettime errno stack) := by
  refine keeps_bind (keeps_bind (keeps_call nofun fun _ => nofun) fun _ => keeps_pure)
    fun answered => ?_
  exact keeps_ite (fun _ => keeps_pure) fun _ => keeps_pure

theorem keeps_getres : Keeps permitted (env.getres errno stack) := by
  refine keeps_bind (keeps_bind (keeps_call nofun fun _ => nofun) fun _ => keeps_pure)
    fun answered => ?_
  exact keeps_ite (fun _ => keeps_pure) fun _ => keeps_pure

theorem keeps_handleCall (accepts : Accepts permitted env) {call : Syscall}
    (unchecked : Unchecked permitted env call) :
    Keeps permitted (env.handleCall errno stack call) := by
  cases call with
  | OPEN | CHDIR | MKDIR | RMDIR | UNLINK | TRUNCATE =>
    exact keeps_withString accepts rfl fun _ => rfl
  | CHMOD | CHOWN | ACCESS => exact keeps_withPermissions accepts rfl fun _ => rfl
  | CLOSE | FCNTL | ISATTY | FTRUNCATE | DUP | DUP2 | SYSCONF =>
    exact keeps_plain nofun fun _ => nofun
  | READ => exact keeps_withBuffer accepts param_lt rfl fun _ => nofun
  | GETDENTS =>
    exact keeps_withBuffer accepts param_lt rfl fun _ pointer listed =>
      accepts.object pointer (dirents_aligned pointer listed)
  | STAT | LSTAT => exact keeps_statCall accepts rfl fun _ => rfl
  | IOCTL | LINK | SYMLINK | FCHMOD | FCHOWN | LCHOWN | SETTIME | ADJTIME | KILL | MOUNT | UMOUNT
  | MKFS | GETPID | GETPPID | GETUID | GETGID | GETEUID | GETEGID | EXIT => exact keeps_pure
  | SETUID | SETGID => exact keeps_ite (fun _ => keeps_pure) fun _ => keeps_answer
  | LSEEK | GETTIME64 | NANOSLEEP64 =>
    exact keeps_bind (keeps_call nofun fun _ => nofun) fun _ => keeps_pure
  | GETCWD => exact keeps_getcwd accepts
  | READLINK => exact keeps_readlink accepts
  | RENAME => exact keeps_rename accepts
  | PIPE => exact keeps_pipe
  | GETTIME => exact keeps_gettime
  | NANOSLEEP => exact keeps_nanosleep accepts unchecked
  | GETRES => exact keeps_getres
  | EXECVE => exact keeps_execve accepts unchecked
  | SPAWN => exact keeps_spawn accepts unchecked
  | WAITPID => exact keeps_waitpid accepts
  | WRITE =>
    refine keeps_ite (fun within => ?_) fun _ => keeps_answer
    exact keeps_plain (forall_mem_singleton.mpr (accepts.read _ _ param_lt within))
      fun _ => nofun
  | FSTAT =>
    refine keeps_ite (fun within => ?_) fun _ => keeps_answer
    rw [Bool.and_eq_true] at within
    exact keeps_plain (forall_mem_singleton.mpr
      (accepts.write _ _ env.kernel.stat_small within.1))
      fun _ => forall_mem_singleton.mpr (accepts.object _ within.2)

/-! ### The memory of the process -/

theorem accepts_permitted (same : env.mpu = process.mpu) : Accepts (Permitted process) env where
  look _ := same ▸ withinForReadingString_permitted
  string _ within := withinForReadingString_spec (same ▸ within)
  read _ _ small within := withinForReading_spec small (same ▸ within)
  write _ _ small within := withinForWriting_spec small (same ▸ within)
  object _ _ := trivial

theorem unchecked_permitted {call : Syscall} : Unchecked (Permitted process) env call := by
  cases call with
  | NANOSLEEP => exact fun _ _ => trivial
  | EXECVE => exact ⟨fun _ _ => trivial, fun _ _ => trivial⟩
  | SPAWN => exact fun _ => ⟨fun _ _ => trivial, fun _ _ => trivial⟩
  | _ => trivial

/-- Every byte that a system call reads through a pointer of the process is in the code or the data
of the process, and every byte that it writes is in its data. -/
theorem kernel_stays_in_process_memory (kernel : Kernel World) (memory : Memory)
    (process : ProcessMemory architecture) (fields : Process) (sp : Registers) (id : Nat)
    (errno : Int) (stack : Stack) (world : World) :
    (handleSvc ⟨kernel, memory, process.mpu, fields, sp⟩ id errno stack world).All
      (Permitted process) := by
  unfold handleSvc
  cases Syscall.of id with
  | none => exact Logged.all_pure _ _
  | some call =>
    refine (Logged.all_bind_iff _ _ _).mpr ⟨keeps_handleCall
      (accepts_permitted rfl) unchecked_permitted world, ?_⟩
    split <;> exact Logged.all_pure _ _

end Miosix.Syscalls
