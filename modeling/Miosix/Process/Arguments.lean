/-
This file embeds `ArgsBlock` of `kernel/process.cpp` with its content, and proves that the arguments
of a program arrive as they were given.

The block has two arrays of pointers, each with a null pointer at its end, and then the strings. It
is built somewhere in the memory of the kernel, and its pointers are for that place. `relocateTo`
copies it and goes through both arrays to move the pointers. What holds on the way is that an array
has the pointers of one string after the other: the strings are at one place, and the pointers are
for the same place or for another.
-/

import Miosix.Process.Alignment

namespace Miosix.Arguments

open Bytes

/-! ### The block -/

/-- A string of C: the bytes before the zero byte. -/
structure CString where
  bytes : List UInt8
  nonzero : ∀ byte ∈ bytes, byte ≠ 0

/-- The settings. They are small, and no sum of the sizes leaves 32 bits. -/
structure Config where
  maxArgs : Nat
  maxArgsBlockSize : Nat
  stackAlignment : Nat
  stackAlignment_pos : 0 < stackAlignment
  args_small : 4 * (maxArgs + maxArgs + 2) < 2 ^ 32
  block_small : maxArgsBlockSize + stackAlignment < 2 ^ 32

/-- The fields of `ArgsBlock`. -/
structure ArgsBlock where
  block : Nat
  blockSize : Nat
  envArrayIndex : Nat
  narg : Nat
  deriving DecidableEq, Repr

/-- The loop that adds up the sizes of strings. -/
def total (strings : List CString) : Nat :=
  (strings.map fun string => string.bytes.length + 1).sum

/-- The variables of `add`. -/
structure Cursor where
  arrayBlock : Nat
  stringBlock : Nat
  memory : Content

def add : List CString → Cursor → Cursor
  | [], cursor =>
      ⟨cursor.arrayBlock + 4, cursor.stringBlock, storeWord cursor.memory cursor.arrayBlock 0⟩
  | string :: rest, cursor =>
      add rest ⟨cursor.arrayBlock + 4, cursor.stringBlock + (string.bytes.length + 1),
        storeText (storeWord cursor.memory cursor.arrayBlock cursor.stringBlock)
          cursor.stringBlock string.bytes⟩

section

variable (config : Config) (memory : Content) (block : Nat) (argv envp : List CString)

def arrayBlockSize : Nat := 4 * (argv.length + envp.length + 2) % 2 ^ 32

def argBlockSize : Nat :=
  arrayBlockSize argv envp + total argv + total envp

def alignedSize : Nat :=
  (argBlockSize argv envp + config.stackAlignment - 1) / config.stackAlignment *
    config.stackAlignment

/-- The constructor. There is no value if the object is not valid, and `block` is what `new`
returns. -/
def construct :
    Option (ArgsBlock × Content) :=
  if config.maxArgs < argv.length ∨ config.maxArgs < envp.length ∨
      config.maxArgsBlockSize < argBlockSize argv envp then none
  else if config.maxArgsBlockSize < alignedSize config argv envp then none
  else
    some (⟨block, alignedSize config argv envp, 4 * (argv.length + 1), argv.length⟩,
      (add envp (add argv ⟨block, block + arrayBlockSize argv envp,
        clear memory (block + argBlockSize argv envp)
          (alignedSize config argv envp - argBlockSize argv envp)⟩)).memory)

end

/-- The loop of `relocate`, over the pointers of an array. -/
def relocate (block target : Nat) : Nat → Content → Nat → Option Content
  | 0, _, _ => none
  | fuel + 1, memory, element =>
      if word memory element = 0 then some memory
      else relocate block target fuel
        (storeWord memory element ((word memory element + (2 ^ 32 - block) + target) % 2 ^ 32))
        (element + 4)

/-- `relocateTo`. No array has more elements than the block has bytes. -/
def ArgsBlock.relocateTo (args : ArgsBlock) (memory : Content) (target : Nat) : Option Content := do
  let memory ← relocate args.block target args.blockSize
    (copy memory args.block target args.blockSize) target
  relocate args.block target args.blockSize memory (target + args.envArrayIndex)

/-! ### What a program finds -/

/-- The strings of an array of pointers, up to the null pointer. -/
def decodeFrom (memory : Content) : Nat → Nat → Option (List (List UInt8))
  | 0, _ => none
  | fuel + 1, array =>
      if word memory array = 0 then some []
      else (decodeFrom memory fuel (array + 4)).map
        (textAt memory (word memory array) (2 ^ 32) :: ·)

/-- No array has more elements than there are words. -/
def decode (memory : Content) (array : Nat) : Option (List (List UInt8)) :=
  decodeFrom memory (2 ^ 30) array

/-- The pointers of an array are for one string after the other from `value` on, and the strings
are one after the other from `place` on. -/
def Placed (memory : Content) : List CString → Nat → Nat → Nat → Prop
  | [], array, _, _ => word memory array = 0
  | string :: rest, array, place, value =>
      word memory array = value ∧ HasText memory place string.bytes ∧
        Placed memory rest (array + 4) (place + (string.bytes.length + 1))
          (value + (string.bytes.length + 1))

variable {memory other : Content} {strings : List CString} {array place value : Nat}
  {target fuel : Nat}

theorem total_cons {string : CString} {rest : List CString} :
    total (string :: rest) = string.bytes.length + 1 + total rest := rfl

/-- What is placed depends only on the array and the strings, wherever they are. -/
theorem Placed.congr {otherArray otherPlace : Nat}
    (placed : Placed memory strings array place value)
    (sameArray : ∀ offset < 4 * (strings.length + 1),
      other (otherArray + offset) = memory (array + offset))
    (sameStrings : ∀ offset < total strings,
      other (otherPlace + offset) = memory (place + offset)) :
    Placed other strings otherArray otherPlace value := by
  induction strings generalizing array place value otherArray otherPlace with
  | nil =>
    refine Eq.trans ?_ placed
    exact word_congr fun offset => sameArray offset
  | cons string rest inductionHypothesis =>
    obtain ⟨pointer, text, following⟩ := placed
    rw [List.length_cons] at sameArray
    rw [total_cons] at sameStrings
    refine ⟨?_, text.congr fun offset within => sameStrings offset (by omega),
      inductionHypothesis following (fun offset below => ?_) fun offset below => ?_⟩
    · refine Eq.trans ?_ pointer
      exact word_congr fun offset below => sameArray offset (by omega)
    · rw [Nat.add_assoc, Nat.add_assoc]
      exact sameArray (4 + offset) (by omega)
    · rw [Nat.add_assoc otherPlace, Nat.add_assoc place]
      exact sameStrings (string.bytes.length + 1 + offset) (by omega)

/-- A loop of `add` places the strings, and leaves what is before the array, between the array and
the strings, and behind the strings. -/
theorem add_spec (cursor : Cursor)
    (apart : cursor.arrayBlock + 4 * (strings.length + 1) ≤ cursor.stringBlock)
    (fits : cursor.stringBlock + total strings ≤ 2 ^ 32) :
    (add strings cursor).arrayBlock = cursor.arrayBlock + 4 * (strings.length + 1) ∧
    (add strings cursor).stringBlock = cursor.stringBlock + total strings ∧
    Placed (add strings cursor).memory strings cursor.arrayBlock cursor.stringBlock
      cursor.stringBlock ∧
    ∀ address, address < cursor.arrayBlock ∨
      (cursor.arrayBlock + 4 * (strings.length + 1) ≤ address ∧ address < cursor.stringBlock) ∨
      cursor.stringBlock + total strings ≤ address →
      (add strings cursor).memory address = cursor.memory address := by
  induction strings generalizing cursor with
  | nil =>
    refine ⟨rfl, rfl, word_storeWord (by decide), fun address outside => ?_⟩
    exact storeWord_of_outside (by omega)
  | cons string rest inductionHypothesis =>
    rw [List.length_cons] at apart ⊢
    rw [total_cons] at fits ⊢
    obtain ⟨arrayEnd, stringEnd, placed, frame⟩ := inductionHypothesis
      ⟨cursor.arrayBlock + 4, cursor.stringBlock + (string.bytes.length + 1),
        storeText (storeWord cursor.memory cursor.arrayBlock cursor.stringBlock)
          cursor.stringBlock string.bytes⟩
      (by simp only; omega) (by simp only; omega)
    simp only at arrayEnd stringEnd placed frame
    refine ⟨?_, ?_, ⟨?_, ?_, placed⟩, fun address outside => ?_⟩
    · rw [add, arrayEnd]
      omega
    · rw [add, stringEnd]
      omega
    · have kept : word (add rest _).memory cursor.arrayBlock =
          word (storeWord cursor.memory cursor.arrayBlock cursor.stringBlock) cursor.arrayBlock :=
        word_congr fun offset below => (frame _ (by omega)).trans (storeText_of_outside (by omega))
      exact kept.trans (word_storeWord (by omega))
    · have text := hasText_storeText (storeWord cursor.memory cursor.arrayBlock
        cursor.stringBlock) cursor.stringBlock string.bytes
      exact text.congr fun offset within => frame _ (by omega)
    · refine (frame address (by omega)).trans ?_
      exact (storeText_of_outside (by omega)).trans (storeWord_of_outside (by omega))

/-- The two calls of `add`: the second one leaves what the first one placed. -/
theorem add_add_spec (argv envp : List CString) (cursor : Cursor)
    (apart : cursor.arrayBlock + 4 * (argv.length + 1) + 4 * (envp.length + 1) ≤ cursor.stringBlock)
    (fits : cursor.stringBlock + total argv + total envp ≤ 2 ^ 32) :
    Placed (add envp (add argv cursor)).memory argv cursor.arrayBlock cursor.stringBlock
      cursor.stringBlock ∧
    Placed (add envp (add argv cursor)).memory envp
      (cursor.arrayBlock + 4 * (argv.length + 1)) (cursor.stringBlock + total argv)
      (cursor.stringBlock + total argv) := by
  obtain ⟨arrayEnd, stringEnd, first, -⟩ := @add_spec argv cursor (by omega) (by omega)
  obtain ⟨-, -, second, frame⟩ := @add_spec envp (add argv cursor)
    (by rw [arrayEnd, stringEnd]; omega) (by rw [stringEnd]; omega)
  rw [arrayEnd, stringEnd] at second frame
  exact ⟨first.congr (fun offset below => frame _ (by omega))
    fun offset below => frame _ (by omega), second⟩

/-- A loop of `relocate` ends at the null pointer with the pointers moved, and writes only the
array. -/
theorem relocate_spec {block : Nat} (placed : Placed memory strings array place value)
    (apart : array + 4 * (strings.length + 1) ≤ place) (behind : block < value)
    (fits : value + total strings ≤ 2 ^ 32)
    (targetFits : value - block + target + total strings ≤ 2 ^ 32)
    (enough : strings.length < fuel) :
    ∃ relocated, relocate block target fuel memory array = some relocated ∧
      Placed relocated strings array place (value - block + target) ∧
      ∀ address, address < array ∨ array + 4 * strings.length ≤ address →
        relocated address = memory address := by
  induction strings generalizing memory array place value fuel with
  | nil =>
    obtain ⟨fuel, rfl⟩ := Nat.exists_eq_add_of_le' (Nat.one_le_of_lt enough)
    exact ⟨memory, if_pos placed, placed, fun _ _ => rfl⟩
  | cons string rest inductionHypothesis =>
    obtain ⟨fuel, rfl⟩ := Nat.exists_eq_add_of_le' (Nat.one_le_of_lt enough)
    obtain ⟨pointer, text, following⟩ := placed
    rw [List.length_cons] at apart enough ⊢
    rw [total_cons] at fits targetFits
    have moved : (word memory array + (2 ^ 32 - block) + target) % 2 ^ 32 =
        value - block + target := by omega
    have later : Placed (storeWord memory array (value - block + target)) rest (array + 4)
        (place + (string.bytes.length + 1)) (value + (string.bytes.length + 1)) :=
      following.congr (fun offset below => storeWord_of_outside (by omega))
        fun offset below => storeWord_of_outside (by omega)
    obtain ⟨relocated, done, placed, frame⟩ := @inductionHypothesis _ _ _ _ fuel later
      (by omega) (by omega) (by omega) (by omega) (by omega)
    refine ⟨relocated, ?_, ⟨?_, ?_, ?_⟩, fun address outside => ?_⟩
    · rw [relocate, if_neg (by omega), moved, done]
    · have kept : word relocated array =
          word (storeWord memory array (value - block + target)) array :=
        word_congr fun offset below => frame _ (by omega)
      exact kept.trans (word_storeWord (by omega))
    · exact text.congr fun offset within =>
        (frame _ (by omega)).trans (storeWord_of_outside (by omega))
    · rwa [show value - block + target + (string.bytes.length + 1) =
        value + (string.bytes.length + 1) - block + target by omega]
    · exact (frame address (by omega)).trans (storeWord_of_outside (by omega))

/-- Strings that are where their pointers are for are found by a program. -/
theorem Placed.decodeFrom_eq (placed : Placed memory strings array place place)
    (positive : 0 < place) (fits : place + total strings ≤ 2 ^ 32)
    (enough : strings.length < fuel) :
    decodeFrom memory fuel array = some (strings.map CString.bytes) := by
  induction strings generalizing array place fuel with
  | nil =>
    obtain ⟨fuel, rfl⟩ := Nat.exists_eq_add_of_le' (Nat.one_le_of_lt enough)
    exact if_pos placed
  | cons string rest inductionHypothesis =>
    obtain ⟨fuel, rfl⟩ := Nat.exists_eq_add_of_le' (Nat.one_le_of_lt enough)
    obtain ⟨pointer, text, following⟩ := placed
    rw [List.length_cons] at enough
    rw [total_cons] at fits
    rw [decodeFrom, if_neg (by omega), inductionHypothesis following (by omega) (by omega)
      (by omega), pointer, text.textAt_eq string.nonzero (by omega)]
    rfl

/-- The pointers are for bytes of the strings. -/
theorem Placed.word_bounds (placed : Placed memory strings array place value) :
    ∀ index < strings.length, value ≤ word memory (array + 4 * index) ∧
      word memory (array + 4 * index) < value + total strings := by
  induction strings generalizing array place value with
  | nil => exact fun index below => absurd below (Nat.not_lt_zero index)
  | cons string rest inductionHypothesis =>
    obtain ⟨pointer, text, following⟩ := placed
    intro index below
    rw [total_cons]
    cases index with
    | zero =>
      rw [Nat.mul_zero, Nat.add_zero, pointer]
      omega
    | succ index =>
      have bounds := inductionHypothesis following index (Nat.lt_of_succ_lt_succ below)
      rw [show array + 4 * (index + 1) = array + 4 + 4 * index by omega]
      omega

/-! ### Blocks that are built -/

variable {config : Config} {argv envp : List CString} {block : Nat} {args : ArgsBlock}

section

variable (config : Config) (argv envp : List CString)

/-- There are too many arguments, or they are too large. -/
def Exceeds : Prop :=
  config.maxArgs < argv.length ∨ config.maxArgs < envp.length ∨
    config.maxArgsBlockSize < alignedSize config argv envp
  deriving Decidable

theorem argBlockSize_le_alignedSize : argBlockSize argv envp ≤ alignedSize config argv envp := by
  have positive := config.stackAlignment_pos
  unfold alignedSize
  have split := Nat.div_add_mod' (argBlockSize argv envp + config.stackAlignment - 1)
    config.stackAlignment
  have rest := Nat.mod_lt (argBlockSize argv envp + config.stackAlignment - 1) positive
  omega

end

theorem construct_eq_none_iff :
    construct config memory block argv envp = none ↔ Exceeds config argv envp := by
  have larger := argBlockSize_le_alignedSize config argv envp
  unfold construct Exceeds
  split
  · exact iff_of_true rfl (by omega)
  · split
    · exact iff_of_true rfl (by omega)
    · exact iff_of_false (Option.some_ne_none _) (by omega)

/-- The arrays and the strings of a block. -/
structure Built (memory : Content) (args : ArgsBlock) (argv envp : List CString)
    (base value : Nat) : Prop where
  fields : args.envArrayIndex = 4 * (argv.length + 1)
  size : 4 * (argv.length + envp.length + 2) + total argv + total envp ≤ args.blockSize
  arguments : Placed memory argv base (base + 4 * (argv.length + envp.length + 2))
    (value + 4 * (argv.length + envp.length + 2))
  environment : Placed memory envp (base + args.envArrayIndex)
    (base + 4 * (argv.length + envp.length + 2) + total argv)
    (value + 4 * (argv.length + envp.length + 2) + total argv)

theorem built_of_construct (constructed : construct config memory block argv envp =
    some (args, other)) (fits : block + args.blockSize ≤ 2 ^ 32) :
    args.block = block ∧ args.blockSize = alignedSize config argv envp ∧
      args.narg = argv.length ∧ Built other args argv envp block block := by
  have within : ¬ Exceeds config argv envp := fun exceeds => by
    rw [construct_eq_none_iff.mpr exceeds] at constructed
    cases constructed
  have larger := argBlockSize_le_alignedSize config argv envp
  have small := config.args_small
  unfold Exceeds at within
  have arrays : arrayBlockSize argv envp = 4 * (argv.length + envp.length + 2) :=
    Nat.mod_eq_of_lt (by omega)
  unfold construct at constructed
  rw [if_neg (by omega), if_neg (by omega), Option.some_inj, Prod.mk.injEq] at constructed
  obtain ⟨rfl, rfl⟩ := constructed
  simp only [argBlockSize, arrays] at larger fits ⊢
  obtain ⟨arguments, environment⟩ := add_add_spec argv envp
    ⟨block, block + 4 * (argv.length + envp.length + 2), clear memory
      (block + (4 * (argv.length + envp.length + 2) + total argv + total envp))
      (alignedSize config argv envp -
        (4 * (argv.length + envp.length + 2) + total argv + total envp))⟩
    (by simp only; omega) (by simp only; omega)
  exact ⟨trivial, trivial, trivial, rfl, larger, arguments, environment⟩

section

variable (built : Built memory args argv envp args.block args.block)

include built

/-- A block and its copy somewhere else have the same pointers. -/
theorem Built.copy (target : Nat) :
    Built (Bytes.copy memory args.block target args.blockSize) args argv envp target
      args.block := by
  have size := built.size
  have fields := built.fields
  refine ⟨fields, size, built.arguments.congr (fun offset below => ?_) fun offset below => ?_,
    built.environment.congr (fun offset below => ?_) fun offset below => ?_⟩
  · exact copy_apply (by omega)
  · rw [Nat.add_assoc target, Nat.add_assoc args.block]
    exact copy_apply (by omega)
  · rw [Nat.add_assoc target, Nat.add_assoc args.block]
    exact copy_apply (by omega)
  · rw [Nat.add_assoc target, Nat.add_assoc target, Nat.add_assoc args.block,
      Nat.add_assoc args.block]
    exact copy_apply (by omega)

/-- `relocateTo` ends, and moves the pointers of both arrays. -/
theorem Built.relocateTo
    (fits : args.block + args.blockSize ≤ 2 ^ 32) (targetFits : target + args.blockSize ≤ 2 ^ 32) :
    ∃ relocated, args.relocateTo memory target = some relocated ∧
      Built relocated args argv envp target target := by
  have size := built.size
  have fields := built.fields
  obtain ⟨-, -, arguments, environment⟩ := built.copy target
  obtain ⟨first, firstDone, firstPlaced, firstFrame⟩ : ∃ first, relocate args.block target
      args.blockSize (Bytes.copy memory args.block target args.blockSize) target = some first ∧ _ :=
    relocate_spec arguments (by omega) (by omega) (by omega) (by omega) (by omega)
  have kept := environment.congr (fun offset below => firstFrame _ (by omega))
    fun offset below => firstFrame _ (by omega)
  obtain ⟨second, secondDone, secondPlaced, secondFrame⟩ : ∃ second, relocate args.block target
      args.blockSize first (target + args.envArrayIndex) = some second ∧ _ :=
    relocate_spec kept (by omega) (by omega) (by omega) (by omega) (by omega)
  refine ⟨second, ?_, fields, size, ?_, ?_⟩
  · unfold ArgsBlock.relocateTo
    rw [firstDone]
    exact secondDone
  · have moved := firstPlaced.congr (fun offset below => secondFrame _ (by omega))
      fun offset below => secondFrame _ (by omega)
    rwa [show args.block + 4 * (argv.length + envp.length + 2) - args.block + target =
      target + 4 * (argv.length + envp.length + 2) by omega] at moved
  · rwa [show args.block + 4 * (argv.length + envp.length + 2) + total argv - args.block + target =
      target + 4 * (argv.length + envp.length + 2) + total argv by omega] at secondPlaced

end

/-- The arguments that a block was built from are found where it was moved to, in their order, with
all pointers in the block. The size of the block is a multiple of the alignment of the stack and
within the limit. There is no block for arguments that exceed the limits. -/
theorem arguments_arrive (config : Config) (memory : Content) (argv envp : List CString)
    (block : Nat) :
    (Exceeds config argv envp → construct config memory block argv envp = none) ∧
    ∀ args built target, construct config memory block argv envp = some (args, built) →
      block + args.blockSize ≤ 2 ^ 32 → target + args.blockSize ≤ 2 ^ 32 →
      args.narg = argv.length ∧ config.stackAlignment ∣ args.blockSize ∧
      args.blockSize ≤ config.maxArgsBlockSize ∧
      ∃ relocated, args.relocateTo built target = some relocated ∧
        decode relocated target = some (argv.map CString.bytes) ∧
        decode relocated (target + args.envArrayIndex) = some (envp.map CString.bytes) ∧
        (∀ index < argv.length, target ≤ word relocated (target + 4 * index) ∧
          word relocated (target + 4 * index) < target + args.blockSize) ∧
        ∀ index < envp.length, target ≤ word relocated (target + args.envArrayIndex + 4 * index) ∧
          word relocated (target + args.envArrayIndex + 4 * index) < target + args.blockSize := by
  refine ⟨construct_eq_none_iff.mpr, fun args built target constructed fits targetFits => ?_⟩
  obtain ⟨rfl, sizeEq, count, content⟩ := built_of_construct constructed fits
  obtain ⟨relocated, done, -, size, arguments, environment⟩ := content.relocateTo fits targetFits
  have within : ¬ Exceeds config argv envp := fun exceeds => by
    rw [construct_eq_none_iff.mpr exceeds] at constructed
    cases constructed
  unfold Exceeds at within
  refine ⟨count, ?_, by omega, relocated, done, ?_, ?_, fun index below => ?_,
    fun index below => ?_⟩
  · rw [sizeEq]
    exact Nat.dvd_mul_left _ _
  · exact arguments.decodeFrom_eq (by omega) (by omega) (by omega)
  · exact environment.decodeFrom_eq (by omega) (by omega) (by omega)
  · have := arguments.word_bounds index below
    omega
  · have := environment.word_bounds index below
    omega

/-- Two arguments and a variable of the environment. -/
theorem arguments_arrive_in_image : ∃ (config : Config) (argv envp : List CString)
    (args : ArgsBlock) (built : Content),
    construct config (fun _ => 0) 0x20000100 argv envp = some (args, built) ∧
    argv.map CString.bytes = [[108, 115], [45, 97]] ∧ args.blockSize = 32 ∧
    ∃ relocated, args.relocateTo built 0x64000fe0 = some relocated ∧
      decode relocated 0x64000fe0 = some [[108, 115], [45, 97]] := by
  let config : Config := ⟨16, 512, 8, by decide, by decide, by decide⟩
  let argv : List CString := [⟨[108, 115], by simp⟩, ⟨[45, 97], by simp⟩]
  let envp : List CString := [⟨[97, 61], by simp⟩]
  have size : (construct config (fun _ => 0) 0x20000100 argv envp).map (·.1.blockSize) =
      some 32 := by decide +kernel
  obtain ⟨⟨args, built⟩, constructed, sized⟩ := Option.map_eq_some_iff.mp size
  have whole := (arguments_arrive config (fun _ => 0) argv envp 0x20000100).2
  obtain ⟨-, -, -, relocated, done, found, -⟩ := whole args built 0x64000fe0 constructed
    (by rw [sized]; decide) (by rw [sized]; decide)
  exact ⟨config, argv, envp, args, built, constructed, rfl, sized, relocated, done, found⟩

/-! ### Blocks of system calls -/

open Syscalls Protection

variable {World : Type} {kernel : Kernel World} {user : Memory} {count : Nat} {world : World}

theorem length_textAt {address limit : Nat} :
    (textAt memory address limit).length = strnlen memory address limit := by
  induction limit generalizing address with
  | zero => rfl
  | succ limit inductionHypothesis =>
    rw [textAt, strnlen]
    split
    · rfl
    · rw [List.length_cons, inductionHypothesis]

theorem textAt_nonzero (address limit : Nat) : ∀ byte ∈ textAt memory address limit, byte ≠ 0 := by
  induction limit generalizing address with
  | zero => exact nofun
  | succ limit inductionHypothesis =>
    rw [textAt]
    split
    · simp
    · rename_i nonzero
      exact List.forall_mem_cons.mpr ⟨nonzero, inductionHypothesis (address + 1)⟩

/-- The string at an address. -/
def stringAt (memory : Memory) (address : Nat) : CString :=
  ⟨textAt memory address (2 ^ 32), textAt_nonzero address (2 ^ 32)⟩

/-- The strings of the first elements of an array. -/
def stringsAt (memory : Memory) (array count : Nat) : List CString :=
  (List.range count).map fun i => stringAt memory (word memory (element array i))

theorem length_stringsAt : (stringsAt user array count).length = count := by
  rw [stringsAt, List.length_map, List.length_range]

theorem sumLengths_value :
    (sumLengths user array count).value = total (stringsAt user array count) := by
  have every : ∀ (indices : List Nat) (start : Nat), (indices.foldlM (fun total i => do
        let str ← loadPointer user (element array i)
        let length ← measureString user str
        return total + (length + 1)) start : Logged Access Nat).value =
      start + total (indices.map fun i => stringAt user (word user (element array i))) := by
    intro indices
    induction indices with
    | nil => exact fun start => (Nat.add_zero start).symm
    | cons i rest inductionHypothesis =>
      intro start
      rw [List.foldlM_cons, Logged.value_bind, inductionHypothesis, List.map_cons, total_cons,
        ← Nat.add_assoc]
      refine congrArg (fun length => start + (length + 1) + _) ?_
      exact length_textAt.symm
  exact (every _ 0).trans (Nat.zero_add _)

theorem value_access_bind {Value Result : Type} {computation : Logged Access Value}
    {next : Value → Svc World Result} :
    ((Svc.access computation >>= next) world).value = (next computation.value world).value := rfl

/-- The constructor in a system call looks at the strings where they are. It fails without an
allocation just if the block that is built from them is refused, and its fields are those of this
block if the allocation succeeds. -/
theorem argsBlock_fields (maxArgs : kernel.maxArgs = config.maxArgs)
    (maxArgsBlockSize : kernel.maxArgsBlockSize = config.maxArgsBlockSize)
    (stackAlignment : kernel.stackAlignment = config.stackAlignment) {argv envp narg nenv : Nat} :
    (Exceeds config (stringsAt user argv narg) (stringsAt user envp nenv) →
      (argsBlock kernel user argv envp narg nenv world).value = (.ok none, world)) ∧
    (¬ Exceeds config (stringsAt user argv narg) (stringsAt user envp nenv) →
      ∀ after answer, kernel.serve world (.newBlock (alignedSize config (stringsAt user argv narg)
        (stringsAt user envp nenv))) = (.ok answer, after) →
      (argsBlock kernel user argv envp narg nenv world).value =
        (.ok (some ⟨narg, alignedSize config (stringsAt user argv narg)
          (stringsAt user envp nenv), 4 * (narg + 1)⟩), after)) := by
  have sizes : 4 * (narg + nenv + 2) % 2 ^ 32 + (sumLengths user argv narg).value +
      (sumLengths user envp nenv).value =
      argBlockSize (stringsAt user argv narg) (stringsAt user envp nenv) := by
    rw [sumLengths_value, sumLengths_value, argBlockSize, arrayBlockSize, length_stringsAt,
      length_stringsAt]
  unfold argsBlock
  rw [value_access_bind, value_access_bind, sizes, maxArgs, maxArgsBlockSize, stackAlignment]
  simp only [Exceeds, length_stringsAt]
  generalize stringsAt user argv narg = arguments
  generalize stringsAt user envp nenv = environment
  have larger := argBlockSize_le_alignedSize config arguments environment
  unfold alignedSize at *
  split_ifs
  · exact ⟨fun _ => rfl, fun within => by omega⟩
  · exact ⟨fun _ => rfl, fun within => by omega⟩
  · refine ⟨fun exceeds => by omega, fun _ after answer served => ?_⟩
    show (Svc.proceed _ (kernel.serve world _)).value = _
    rw [served]
    rfl

/-- Two arguments and a variable, `ls`, `-l` and `A=1`, behind the pointers to them. -/
def sampleStrings : Memory := fun address =>
  [16, 0, 0, 0, 19, 0, 0, 0, 22, 0, 0, 0, 0, 0, 0, 0, 108, 115, 0, 45, 108, 0, 65, 61, 49].getD
    address 0

theorem argsBlock_fields_sample :
    (stringsAt sampleStrings 0 2).map CString.bytes = [[108, 115], [45, 108]] ∧
    (argsBlock (idleKernel 88 16 (by decide) (by decide)) sampleStrings 0 8 2 1 ()).value =
      (.ok (some ⟨2, 32, 12⟩), ()) := by
  refine ⟨by decide +kernel, ?_⟩
  rw [(@argsBlock_fields ⟨16, 512, 8, by decide, by decide, by decide⟩ _ _ _ _ rfl rfl rfl _ _ _
    _).2 (by decide +kernel) _ _ rfl]
  decide +kernel

end Miosix.Arguments
