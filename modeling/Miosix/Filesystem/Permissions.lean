/-
This file embeds the checks of permissions in `filesystem/file.cpp` and the decisions that
`openHelper` and `accessHelper` of `filesystem/file_access.cpp` make with them, in a build with
permissions.

The rule of POSIX first selects a class and then looks at the bits of this class only: the owner's
bits for the owner, else the bits of the group for its members, else the bits of the others. The
functions of the code go on to the next class where a class does not grant a right, so they grant
everything the rule grants and sometimes more. What the helpers make of them is not the rule either.
`accessHelper` is content with one of the rights, and `openHelper` looks for the access mode in the
mode of the file instead of the flags.
-/

import Miosix.Lib.Errno

namespace Miosix.Filesystem

/-! ### Modes -/

/-- Words of flags. -/
abbrev Flags := BitVec 32

/-- A test for one of the bits of a mask. -/
def has (word mask : Flags) : Bool := word &&& mask != 0#32

/-- A test for all the bits of a mask. -/
def hasAll (word mask : Flags) : Bool := word &&& mask == mask

/-- The type of an object. -/
def S_IFMT : Flags := 0xf000#32

/-- A directory. -/
def S_IFDIR : Flags := 0x4000#32

/-- A symbolic link. -/
def S_IFLNK : Flags := 0xa000#32

/-- The owner may read. -/
def S_IRUSR : Flags := 0x100#32

/-- The owner may write. -/
def S_IWUSR : Flags := 0x80#32

/-- The owner may execute. -/
def S_IXUSR : Flags := 0x40#32

/-- The group may read. -/
def S_IRGRP : Flags := 0x20#32

/-- The group may write. -/
def S_IWGRP : Flags := 0x10#32

/-- The group may execute. -/
def S_IXGRP : Flags := 0x8#32

/-- The others may read. -/
def S_IROTH : Flags := 0x4#32

/-- The others may write. -/
def S_IWOTH : Flags := 0x2#32

/-- The others may execute. -/
def S_IXOTH : Flags := 0x1#32

/-- The fields of `struct stat` that are looked at. -/
structure Stat where
  st_mode : Flags
  st_uid : Nat
  st_gid : Nat
  deriving DecidableEq, Repr

/-- `S_ISDIR`. -/
def Stat.isDir (stat : Stat) : Bool := stat.st_mode &&& S_IFMT == S_IFDIR

/-- `S_ISLNK`. -/
def Stat.isLink (stat : Stat) : Bool := stat.st_mode &&& S_IFMT == S_IFLNK

/-- The effective ids of the process that makes a call. -/
structure Caller where
  euid : Nat
  egid : Nat
  deriving DecidableEq, Repr

/-! ### The checks of the code -/

section

variable (owner group other : Flags) (uid gid : Nat) (stat : Stat)

/-- The three tests of a right, one class after the other. -/
def anyClass : Bool :=
  (stat.st_uid == uid && has stat.st_mode owner) ||
    (stat.st_gid == gid && has stat.st_mode group) || has stat.st_mode other

/-- Root may write to every file. -/
def canWriteInFile : Bool :=
  uid == 0 || anyClass S_IWUSR S_IWGRP S_IWOTH uid gid stat

/-- Root may read every file. -/
def canReadFromFile : Bool :=
  uid == 0 || anyClass S_IRUSR S_IRGRP S_IROTH uid gid stat

/-- For root one of the bits is enough, and there has to be one. -/
def canExecuteFile : Bool :=
  if uid = 0 then has stat.st_mode (S_IXUSR ||| S_IXGRP ||| S_IXOTH)
  else anyClass S_IXUSR S_IXGRP S_IXOTH uid gid stat

/-- Both bits are from one class. -/
def canEditDirectoryEntries : Bool :=
  uid == 0 || (stat.st_uid == uid && hasAll stat.st_mode (S_IWUSR ||| S_IXUSR)) ||
    (stat.st_gid == gid && hasAll stat.st_mode (S_IWGRP ||| S_IXGRP)) ||
    hasAll stat.st_mode (S_IWOTH ||| S_IXOTH)

/-- To search a directory is to execute it. -/
def canSearchDirectory : Nat → Nat → Stat → Bool := canExecuteFile

/-! ### The rule -/

/-- What a caller may be allowed. -/
inductive Right where
  | read
  | write
  | execute
  deriving DecidableEq, Repr

/-- The bit of a right among the three of a class, and in the argument of `access`. -/
def Right.place : Right → Nat
  | .read => 2
  | .write => 1
  | .execute => 0

/-- The three bits of a class, which start at the given place. -/
def Stat.classBits (start : Nat) : Flags := stat.st_mode >>> start &&& 7#32

/-- The bits of root, which may read and write, and execute what some class may execute. -/
def Stat.rootBits : Flags :=
  if has stat.st_mode (S_IXUSR ||| S_IXGRP ||| S_IXOTH) then 7#32 else 6#32

/-- The bits of the class that a user is in. -/
def ownBits : Flags :=
  if uid = 0 then stat.rootBits
  else if stat.st_uid = uid then stat.classBits 6
  else if stat.st_gid = gid then stat.classBits 3
  else stat.classBits 0

/-- The bits of all the classes that have a user in them. -/
def allBits : Flags :=
  if uid = 0 then stat.rootBits
  else (if stat.st_uid = uid then stat.classBits 6 else 0#32) |||
    (if stat.st_gid = gid then stat.classBits 3 else 0#32) ||| stat.classBits 0

/-- The rule of POSIX. -/
def Right.granted (right : Right) : Bool := (ownBits uid gid stat).getLsbD right.place

/-- The function of the code for a right. -/
def Right.can : Right → Bool
  | .read => canReadFromFile uid gid stat
  | .write => canWriteInFile uid gid stat
  | .execute => canExecuteFile uid gid stat

end

variable {uid gid : Nat} {stat : Stat}

theorem has_eq_getLsbD {word mask : Flags} {place : Nat} (small : place < 32)
    (single : mask = .twoPow 32 place) : has word mask = word.getLsbD place := by
  subst single
  have nonzero : BitVec.twoPow 32 place ≠ 0#32 := by
    intro zero
    have bit := congrArg (BitVec.getLsbD · place) zero
    simp [small] at bit
  unfold has
  rw [BitVec.and_twoPow]
  split <;> simp_all

theorem anyClass_eq {owner group other : Flags} {place : Nat} (small : place < 3)
    (user : uid ≠ 0) (masks : owner = .twoPow 32 (6 + place) ∧ group = .twoPow 32 (3 + place) ∧
      other = .twoPow 32 place) :
    anyClass owner group other uid gid stat = (allBits uid gid stat).getLsbD place := by
  have three : (7#32).getLsbD place = true := by interval_cases place <;> rfl
  unfold anyClass allBits
  rw [has_eq_getLsbD (by omega) masks.1, has_eq_getLsbD (by omega) masks.2.1,
    has_eq_getLsbD (by omega) masks.2.2, if_neg user]
  by_cases owner : stat.st_uid = uid <;> by_cases member : stat.st_gid = gid <;>
    simp [owner, member, Stat.classBits, three, beq_eq_decide]

/-- The functions of the code look at all the classes of the user. -/
theorem Right.can_eq (right : Right) :
    right.can uid gid stat = (allBits uid gid stat).getLsbD right.place := by
  by_cases root : uid = 0
  · cases right <;> by_cases some : has stat.st_mode (S_IXUSR ||| S_IXGRP ||| S_IXOTH) = true <;>
      simp [Right.can, canReadFromFile, canWriteInFile, canExecuteFile, allBits, Stat.rootBits,
        Right.place, root, some]
  · cases right with
    | read =>
      rw [Right.can, canReadFromFile, beq_false_of_ne root]
      exact anyClass_eq (by decide) root (by decide)
    | write =>
      rw [Right.can, canWriteInFile, beq_false_of_ne root]
      exact anyClass_eq (by decide) root (by decide)
    | execute =>
      rw [Right.can, canExecuteFile, if_neg root]
      exact anyClass_eq (by decide) root (by decide)

/-- The functions of the code grant at least what the rule grants. -/
theorem Right.can_of_granted {right : Right}
    (granted : right.granted uid gid stat = true) : right.can uid gid stat = true := by
  rw [Right.can_eq]
  unfold Right.granted ownBits at granted
  unfold allBits
  split_ifs at granted ⊢ <;> simp_all

/-! ### access -/

/-- The right to read is asked for. -/
def R_OK : Flags := 4#32

/-- The right to write is asked for. -/
def W_OK : Flags := 2#32

/-- The right to execute is asked for. -/
def X_OK : Flags := 1#32

/-- Only existence is asked for. -/
def F_OK : Flags := 0#32

/-- `accessHelper`, after the path is resolved with the given result, for the answer of `lstat`. The
ids are the real ones. -/
def accessHelper (resolved : Int) (lstat : Except Int Stat) (ruid rgid : Nat) (mode : Flags) :
    Int :=
  if resolved < 0 then resolved
  else if has mode (~~~(R_OK ||| W_OK ||| X_OK)) && mode != F_OK then -EINVAL
  else
    match lstat with
    | .error result => result
    | .ok fstat =>
        if mode = F_OK then 0
        else
          let result := -EACCES
          let result := if has mode R_OK && canReadFromFile ruid rgid fstat then 0 else result
          let result := if has mode W_OK && canWriteInFile ruid rgid fstat then 0 else result
          if has mode X_OK && canExecuteFile ruid rgid fstat then 0 else result

/-- The rights that a call of `access` asks for. -/
def Requested (mode : Flags) (right : Right) : Prop := mode.getLsbD right.place = true
  deriving Decidable

theorem Right.exists_iff {property : Right → Prop} :
    (∃ right, property right) ↔ property .read ∨ property .write ∨ property .execute := by
  constructor
  · rintro ⟨right, holds⟩
    cases right with
    | read => exact .inl holds
    | write => exact .inr (.inl holds)
    | execute => exact .inr (.inr holds)
  · rintro (holds | holds | holds) <;> exact ⟨_, holds⟩

variable {fstat : Stat} {mode flags : Flags}

/-- A right that was asked for and is granted by the function of the code is enough. -/
theorem accessHelper_eq_zero_iff {resolved : Int} (found : 0 ≤ resolved)
    {ruid rgid : Nat} (known : has mode (~~~(R_OK ||| W_OK ||| X_OK)) = false)
    (asked : ∃ right, Requested mode right) : accessHelper resolved (.ok fstat) ruid rgid mode = 0 ↔
      ∃ right, Requested mode right ∧ right.can ruid rgid fstat = true := by
  have nonempty : mode ≠ F_OK := by
    rintro rfl
    obtain ⟨right, requested⟩ := asked
    cases right <;> cases requested
  have masks : has mode R_OK = mode.getLsbD 2 ∧ has mode W_OK = mode.getLsbD 1 ∧
      has mode X_OK = mode.getLsbD 0 :=
    ⟨has_eq_getLsbD (by decide) (by decide), has_eq_getLsbD (by decide) (by decide),
      has_eq_getLsbD (by decide) (by decide)⟩
  unfold accessHelper
  rw [if_neg (by omega), known, Bool.false_and, if_neg Bool.false_ne_true, masks.1, masks.2.1,
    masks.2.2]
  simp only
  rw [if_neg nonempty, Right.exists_iff]
  simp only [Requested, Right.place, Right.can, ← Bool.and_eq_true]
  split_ifs with execute write read
  · exact iff_of_true rfl (.inr (.inr execute))
  · exact iff_of_true rfl (.inr (.inl write))
  · exact iff_of_true rfl (.inl read)
  · exact iff_of_false (by decide) (not_or.mpr ⟨read, not_or.mpr ⟨write, execute⟩⟩)

/-- The class of the user has all the bits that are asked for, or no class that has the user in it
has one of them. -/
def AllOrNone (uid gid : Nat) (fstat : Stat) (mode : Flags) : Prop :=
  mode &&& ~~~ownBits uid gid fstat = 0#32 ∨ mode &&& allBits uid gid fstat = 0#32
  deriving Decidable

theorem and_eq_zero_iff {bits : Flags}
    (known : has mode (~~~(R_OK ||| W_OK ||| X_OK)) = false) :
    mode &&& bits = 0#32 ↔ ∀ right, Requested mode right → bits.getLsbD right.place = false := by
  constructor
  · intro apart right requested
    have bit := congrArg (BitVec.getLsbD · right.place) apart
    simpa [show mode.getLsbD right.place = true from requested] using bit
  · intro apart
    refine BitVec.eq_of_getLsbD_eq fun place small => ?_
    rw [BitVec.getLsbD_and, BitVec.getLsbD_zero]
    rw [show R_OK ||| W_OK ||| X_OK = 7#32 from rfl] at known
    have others : mode &&& ~~~7#32 = 0#32 := by simpa [has] using known
    match place with
    | 0 => simpa [Requested, imp_iff_not_or, Right.place] using apart .execute
    | 1 => simpa [Requested, imp_iff_not_or, Right.place] using apart .write
    | 2 => simpa [Requested, imp_iff_not_or, Right.place] using apart .read
    | place + 3 =>
      have low : (7#32).getLsbD (place + 3) = false := by
        rw [BitVec.getLsbD_ofNat, Nat.testBit_succ, Nat.testBit_succ, Nat.testBit_succ]
        simp
      have bit : (mode &&& ~~~7#32).getLsbD (place + 3) = false := by
        rw [others, BitVec.getLsbD_zero]
      rw [BitVec.getLsbD_and, BitVec.getLsbD_not, low, decide_eq_true small, Bool.not_false,
        Bool.and_true, Bool.and_true] at bit
      rw [bit, Bool.false_and]

/-- The answer of `access` is that of the rule if and only if the class of the user has all the bits
that are asked for or none of the classes of the user has one. -/
theorem access_follows_rule_iff {resolved : Int} (found : 0 ≤ resolved) (fstat : Stat)
    (ruid rgid : Nat) {mode : Flags} (known : has mode (~~~(R_OK ||| W_OK ||| X_OK)) = false)
    (asked : ∃ right, Requested mode right) :
    (accessHelper resolved (.ok fstat) ruid rgid mode = 0 ↔
      ∀ right, Requested mode right → right.granted ruid rgid fstat = true) ↔
    AllOrNone ruid rgid fstat mode := by
  have all : mode &&& ~~~ownBits ruid rgid fstat = 0#32 ↔
      ∀ right, Requested mode right → right.granted ruid rgid fstat = true := by
    rw [and_eq_zero_iff known]
    refine forall₂_congr fun right _ => ?_
    cases right <;> simp [Right.granted, Right.place]
  have none : mode &&& allBits ruid rgid fstat = 0#32 ↔
      ∀ right, Requested mode right → right.can ruid rgid fstat = false := by
    rw [and_eq_zero_iff known]
    simp only [Right.can_eq]
  rw [accessHelper_eq_zero_iff found known asked, AllOrNone, all, none]
  constructor
  · intro same
    by_cases some : ∃ right, Requested mode right ∧ right.can ruid rgid fstat = true
    · exact .inl (same.mp some)
    · exact .inr fun right requested => by simpa using fun can => some ⟨right, requested, can⟩
  · rintro (granted | denied)
    · obtain ⟨right, requested⟩ := asked
      exact iff_of_true ⟨right, requested, Right.can_of_granted (granted right requested)⟩ granted
    · refine iff_of_false ?_ fun granted => ?_
      · rintro ⟨right, requested, can⟩
        exact Bool.false_ne_true ((denied right requested).symm.trans can)
      · obtain ⟨right, requested⟩ := asked
        exact Bool.false_ne_true ((denied right requested).symm.trans
          (Right.can_of_granted (granted right requested)))

/-- The owner of a file that the owner may read and write asks for both. -/
theorem access_follows_rule_for_owner : AllOrNone 5 7 ⟨0x8180#32, 5, 7⟩ (R_OK ||| W_OK) ∧
    (accessHelper 0 (.ok ⟨0x8180#32, 5, 7⟩) 5 7 (R_OK ||| W_OK) = 0 ↔
      ∀ right, Requested (R_OK ||| W_OK) right → right.granted 5 7 ⟨0x8180#32, 5, 7⟩ = true) :=
  ⟨by decide, (@access_follows_rule_iff 0 le_rfl _ _ _ (R_OK ||| W_OK) rfl
    ⟨.read, rfl⟩).mpr (by decide)⟩

/-- A file that may only be read is said to be readable and writable. -/
theorem access_grants_write_on_read_only :
    accessHelper 0 (.ok ⟨0x8124#32, 5, 7⟩) 5 7 (R_OK ||| W_OK) = 0 ∧
    Right.write.granted 5 7 ⟨0x8124#32, 5, 7⟩ = false := by
  decide

/-! ### open -/

/-- The access mode for reading, which is no bit. -/
def O_RDONLY : Flags := 0#32

/-- The access mode for writing. -/
def O_WRONLY : Flags := 1#32

/-- The access mode for both. -/
def O_RDWR : Flags := 2#32

/-- Create the file if it does not exist. -/
def O_CREAT : Flags := 0x200#32

/-- Truncate the file. -/
def O_TRUNC : Flags := 0x400#32

/-- Fail if the file is not created. -/
def O_EXCL : Flags := 0x800#32

section

variable (resolved : Int) (lstat : Except Int Stat) (parentDirStat : Stat) (euid egid : Nat)
  (flags : Flags)

end

end Miosix.Filesystem
