/-
This file embeds the functions of `filesystem/littlefs/lfs_miosix.cpp` that create objects and give
them an owner, a group and a mode, in a build with permissions: `mkdir` and `open`, with `lstat`,
which reports these attributes.

The library littlefs is a parameter. What is assumed of it is that creating a directory on an
existing path fails without an effect, that creating or opening an object does not change the
attributes of another one, and that attributes can be set on every existing path. `mkdir` sets the
attributes also when the library refuses to create the directory, so the caller becomes the owner of
what was there.
-/

import Miosix.Filesystem.Resolution
import Miosix.Filesystem.BlockAddresses

namespace Miosix.LittleFs

open Filesystem Function Option

/-! ### The library -/

def LFS_ERR_CORRUPT : Int := -84

def LFS_ERR_NOENT : Int := -2

def LFS_ERR_NOTEMPTY : Int := -39

def LFS_ERR_NOATTR : Int := -61

def LFS_ERR_NAMETOOLONG : Int := -36

/-- An object of the volume with the attributes that are stored with it. -/
structure Object where
  isDirectory : Bool
  mode : Option Flags
  uid : Option Nat
  gid : Option Nat
  deriving DecidableEq, Repr

/-- The objects on the paths of the volume. The root directory has the empty path. -/
abbrev Volume := Path → Option Object

/-- `LittleFsMiosixAttribs`, with the value of the attribute. -/
inductive Attribute where
  | mode (value : Flags)
  | uid (value : Nat)
  | gid (value : Nat)
  deriving DecidableEq, Repr

def Object.set (object : Object) : Attribute → Object
  | .mode value => { object with mode := some value }
  | .uid value => { object with uid := some value }
  | .gid value => { object with gid := some value }

/-- Attributes can be set on every existing path. -/
def lfs_setattr (volume : Volume) (name : Path) (chosen : Attribute) : Int × Volume :=
  match volume name with
  | none => (LFS_ERR_NOENT, volume)
  | some object => (LFS_ERR_OK, update volume name (some (object.set chosen)))

/-- The value of an attribute. -/
def lfs_getattr {Value : Type} (volume : Volume) (name : Path) (field : Object → Option Value) :
    Except Int Value :=
  match volume name with
  | none => .error LFS_ERR_NOENT
  | some object =>
      match field object with
      | none => .error LFS_ERR_NOATTR
      | some value => .ok value

/-- The functions of the library that create objects, with what is assumed of them. -/
structure Library where
  lfs_mkdir : Volume → Path → Int × Volume
  lfs_file_open : Volume → Path → Flags → Int × Volume
  mkdir_refuses : ∀ volume name, volume name ≠ none → (lfs_mkdir volume name).1 < 0
  mkdir_undone : ∀ volume name, (lfs_mkdir volume name).1 ≠ 0 → (lfs_mkdir volume name).2 = volume
  mkdir_frame : ∀ volume name other, other ≠ name →
    (lfs_mkdir volume name).2 other = volume other
  open_frame : ∀ volume name flags other, volume other ≠ none →
    (lfs_file_open volume name flags).2 other = volume other

/-! ### The functions of the filesystem -/

def S_IFREG : Flags := 0x8000#32

def _FDIRECTORY : Flags := 0x200000#32

def O_APPEND : Flags := 0x8#32

/-- The bits of a mode that are stored. -/
def permissionBits : Flags := 0x1ff#32

def lfsErrorToPosix (error : Int) : Int :=
  if error = LFS_ERR_CORRUPT then - EIO
  else if error = LFS_ERR_NOTEMPTY then -ENOTEMPTY
  else if error = LFS_ERR_NAMETOOLONG then -ENAMETOOLONG
  else error

/-- The flags of littlefs for the flags of POSIX, one test after the other. -/
def posixOpenToLfsFlags (flags : Flags) : Flags :=
  (if hasAll flags O_RDONLY then 0x1#32 else 0#32) |||
  (if hasAll flags O_WRONLY then 0x2#32 else 0#32) |||
  (if hasAll flags O_RDWR then 0x3#32 else 0#32) |||
  (if hasAll flags O_APPEND then 0x800#32 else 0#32) |||
  (if hasAll flags O_CREAT then 0x100#32 else 0#32) |||
  (if hasAll flags O_TRUNC then 0x400#32 else 0#32) |||
  (if hasAll flags O_EXCL then 0x200#32 else 0#32)

section

variable (volume : Volume) (name : Path)

def getFileMode : Except Int Flags :=
  lfs_getattr volume name Object.mode

def setFileMode (mode : Flags) : Int × Volume :=
  lfs_setattr volume name (.mode (mode &&& permissionBits))

def getFileUIDAndGID : Except Int (Nat × Nat) :=
  match lfs_getattr volume name Object.uid with
  | .error result => .error result
  | .ok uid =>
      match lfs_getattr volume name Object.gid with
      | .error result => .error result
      | .ok gid => .ok (uid, gid)

def settFileUIDAndGID (uid gid : Nat) : Int × Volume :=
  let first := lfs_setattr volume name (.uid uid)
  if first.1 < 0 then first else lfs_setattr first.2 name (.gid gid)

/-- The type that is reported for an object. -/
def fileType (object : Object) : Flags :=
  if name = [] ∨ object.isDirectory = true then S_IFDIR else S_IFREG

end

/-- What is reported of an object. Objects without attributes have the mode 0755 and belong to
root. -/
def lstat (mountFailed : Bool) (volume : Volume) (name : Path) : Except Int Stat :=
  if mountFailed then .error (-ENOENT)
  else
    let mode := (getFileMode volume name).toOption.getD 0x1ed#32
    let ids := (getFileUIDAndGID volume name).toOption.getD (0, 0)
    if name = [] then .ok ⟨S_IFDIR ||| mode, ids.1, ids.2⟩
    else
      match volume name with
      | none => .error (lfsErrorToPosix LFS_ERR_NOENT)
      | some object => .ok ⟨fileType name object ||| mode, ids.1, ids.2⟩

section

variable (library : Library) (lfs_dir_open : Path → Int) (mountFailed extraChecks : Bool)
  (process : Option Caller) (volume : Volume)

/-- The result is missing where the code goes on with a null pointer, for a thread without a process
in a build without the extra checks. -/
def mkdir (name : Path) (mode : Flags) : Option (Int × Volume) :=
  if mountFailed then some (-ENOENT, volume)
  else
    let made := library.lfs_mkdir volume name
    match process with
    | none => if extraChecks then some (-EFAULT, made.2) else none
    | some caller =>
        let owned := (settFileUIDAndGID made.2 name caller.euid caller.egid).2
        some (lfsErrorToPosix made.1,
          (setFileMode owned name ((mode &&& permissionBits) ||| S_IFDIR)).2)

def openFile (extraChecks : Bool) (process : Option Caller) (volume : Volume)
    (name : Path) (flags mode : Flags) : Option (Int × Volume) :=
  let fileExists := has flags O_CREAT && (lstat false volume name).isOk
  let opened := library.lfs_file_open volume name (posixOpenToLfsFlags flags)
  if opened.1 ≠ 0 then some (lfsErrorToPosix opened.1, opened.2)
  else if fileExists = false ∧ has flags O_CREAT = true then
    match process with
    | none => if extraChecks then some (-EFAULT, opened.2) else none
    | some caller =>
        some (0, (settFileUIDAndGID (setFileMode opened.2 name mode).2 name caller.euid
          caller.egid).2)
  else some (0, opened.2)

/-- `open`. Opening a directory has no effect on the volume, and its result is a parameter. -/
def openObject (name : Path) (flags mode : Flags) :
    Option (Int × Volume) :=
  if mountFailed then some (-ENOENT, volume)
  else if has flags _FDIRECTORY then some (lfsErrorToPosix (lfs_dir_open name), volume)
  else openFile library extraChecks process volume name flags mode

end

variable {volume : Volume} {name : Path} {object : Object} {mode : Flags} {caller : Caller}
  {error result : Int} {mountFailed extraChecks : Bool} {process : Option Caller} {after : Volume}
  {chosen : Attribute} {uid gid : Nat} {library : Library} {flags : Flags}

/-! ### Setting attributes -/

theorem setattr_missing (missing : volume name = none) :
    lfs_setattr volume name chosen = (LFS_ERR_NOENT, volume) := by
  unfold lfs_setattr
  rw [missing]

theorem setattr_existing (existing : volume name = some object) : lfs_setattr volume name chosen =
      (LFS_ERR_OK, update volume name (some (object.set chosen))) := by
  unfold lfs_setattr
  rw [existing]

theorem settFileUIDAndGID_missing (missing : volume name = none) :
    (settFileUIDAndGID volume name uid gid).2 = volume := by
  unfold settFileUIDAndGID
  rw [setattr_missing missing]
  exact congrArg Prod.snd (if_pos (by decide : LFS_ERR_NOENT < 0))

theorem settFileUIDAndGID_existing (existing : volume name = some object) :
    (settFileUIDAndGID volume name uid gid).2 =
      update volume name (some { object with uid := some uid, gid := some gid }) := by
  unfold settFileUIDAndGID
  rw [setattr_existing existing]
  rw [if_neg (by decide : ¬ LFS_ERR_OK < 0),
    setattr_existing (update_self name _ volume), update_idem]
  rfl

/-- The bit for a directory is not among the stored bits. -/
theorem directory_mode :
    ((mode &&& permissionBits) ||| S_IFDIR) &&& permissionBits = mode &&& permissionBits := by
  have outside : S_IFDIR &&& permissionBits = 0#32 := by decide
  ext position
  have bit := congrArg (·.getLsbD position) outside
  simp only [BitVec.getLsbD_and, BitVec.getLsbD_zero, Bool.and_eq_false_imp] at bit
  simp only [BitVec.getElem_and, BitVec.getElem_or]
  simp only [← BitVec.getLsbD_eq_getElem]
  cases stored : permissionBits.getLsbD position with
  | false => simp
  | true =>
    cases directory : S_IFDIR.getLsbD position with
    | false => simp
    | true =>
      rw [bit directory] at stored
      nomatch stored

/-- The object that a caller is given. -/
def Object.given (object : Object) (caller : Caller) (mode : Flags) : Object :=
  { object with
    mode := some (mode &&& permissionBits), uid := some caller.euid, gid := some caller.egid }

/-- The attributes as `mkdir` sets them. -/
theorem attributes_of_mkdir (mode : Flags) :
    (setFileMode (settFileUIDAndGID volume name caller.euid caller.egid).2 name
      ((mode &&& permissionBits) ||| S_IFDIR)).2 =
      update volume name ((volume name).map (·.given caller mode)) := by
  unfold setFileMode
  rw [directory_mode]
  cases found : volume name with
  | none =>
    rw [settFileUIDAndGID_missing found, setattr_missing found, map_none, ← found,
      update_eq_self]
  | some object =>
    rw [settFileUIDAndGID_existing found, setattr_existing (update_self name _ volume), update_idem]
    rfl

/-! ### What is reported -/

/-- What `lstat` reports only depends on the object itself. -/
theorem lstat_congr {first second : Volume} (same : first name = second name) :
    lstat mountFailed first name = lstat mountFailed second name := by
  unfold lstat getFileMode getFileUIDAndGID lfs_getattr
  rw [same]

theorem lstat_given (existing : volume name = some (object.given caller mode)) :
    lstat false volume name =
      .ok ⟨fileType name object ||| (mode &&& permissionBits), caller.euid, caller.egid⟩ := by
  unfold lstat getFileMode getFileUIDAndGID lfs_getattr
  rw [existing, if_neg Bool.false_ne_true]
  by_cases top : name = []
  · rw [if_pos top, fileType, if_pos (.inl top)]
    rfl
  · rw [if_neg top]
    rfl

/-- The owner, the group and the mode of every object are what they were. -/
def Kept (mountFailed : Bool) (before after : Volume) : Prop :=
  ∀ name, before name ≠ none → lstat mountFailed after name = lstat mountFailed before name

/-- There is nothing on the path, or it already has the attributes that would be set. -/
def Harmless (mountFailed : Bool) (process : Option Caller) (volume : Volume) (name : Path)
    (mode : Flags) : Prop :=
  mountFailed = false → ∀ caller, process = some caller → ∀ object, volume name = some object →
    lstat mountFailed volume name =
      .ok ⟨fileType name object ||| (mode &&& permissionBits), caller.euid, caller.egid⟩

theorem kept_mkdir : Kept mountFailed volume (library.lfs_mkdir volume name).2 := by
  intro other existing
  by_cases same : other = name
  · have refused := library.mkdir_refuses volume name (same ▸ existing)
    rw [library.mkdir_undone volume name refused.ne]
  · exact lstat_congr (library.mkdir_frame volume name other same)

theorem lfsErrorToPosix_neg (negative : error < 0) : lfsErrorToPosix error < 0 := by
  unfold lfsErrorToPosix
  split
  · decide
  · split
    · decide
    · split
      · decide
      · exact negative

theorem lfsErrorToPosix_zero (zero : error = 0) : lfsErrorToPosix error = 0 := by
  rw [zero]
  decide

/-- Nothing is changed by setting attributes on a path that is not there. -/
theorem kept_given_missing (missing : volume name = none) :
    lfsErrorToPosix (library.lfs_mkdir volume name).1 < 0 →
      Kept false volume (update (library.lfs_mkdir volume name).2 name
        (((library.lfs_mkdir volume name).2 name).map (·.given caller mode))) := by
  intro failed
  have undone : (library.lfs_mkdir volume name).2 = volume := by
    refine library.mkdir_undone volume name fun zero => ?_
    rw [lfsErrorToPosix_zero zero] at failed
    contradiction
  rw [undone, missing, map_none, ← missing, update_eq_self]
  exact fun _ _ => rfl

/-- An existing object keeps its attributes exactly if they are those that are set. -/
theorem kept_given_iff (existing : volume name = some object) :
    Kept false volume (update volume name (some (object.given caller mode))) ↔
      lstat false volume name =
        .ok ⟨fileType name object ||| (mode &&& permissionBits), caller.euid, caller.egid⟩ := by
  have given := lstat_given (update_self name (some (object.given caller mode)) volume)
  constructor
  · intro kept
    have found : volume name ≠ none := by
      rw [existing]
      exact some_ne_none _
    rw [← kept name found, given]
  · intro already other _
    by_cases same : other = name
    · rw [same, given, already]
    · exact lstat_congr (update_of_ne same _ _)

theorem mkdir_kept_iff (called : mkdir library mountFailed extraChecks process volume name mode =
      some (result, after)) : (result < 0 → Kept mountFailed volume after) ↔
      Harmless mountFailed process volume name mode := by
  unfold mkdir at called
  cases mountFailed with
  | true =>
    obtain ⟨-, rfl⟩ := called
    exact iff_of_true (fun _ _ _ => rfl) nofun
  | false =>
    rw [if_neg Bool.false_ne_true] at called
    cases process with
    | none =>
      obtain ⟨-, called⟩ := ite_none_right_eq_some.mp called
      obtain ⟨-, rfl⟩ := called
      exact iff_of_true (fun _ => kept_mkdir) nofun
    | some caller =>
      dsimp only at called
      rw [attributes_of_mkdir, some_inj, Prod.mk.injEq] at called
      obtain ⟨rfl, rfl⟩ := called
      cases found : volume name with
      | none =>
        refine iff_of_true (kept_given_missing found) ?_
        intro _ _ _ object existing
        rw [found] at existing
        nomatch existing
      | some object =>
        have refused := library.mkdir_refuses volume name (by simp [found])
        rw [library.mkdir_undone volume name refused.ne, found, map_some]
        have negative := lfsErrorToPosix_neg refused
        rw [show (lfsErrorToPosix (library.lfs_mkdir volume name).1 < 0 → _) ↔ _ from
          ⟨fun kept => kept negative, fun kept _ => kept⟩, kept_given_iff found]
        constructor
        · intro already _ _ same _ existing
          cases same
          rw [found] at existing
          cases existing
          exact already
        · intro harmless
          exact harmless rfl caller rfl object found

theorem kept_file_open : Kept mountFailed volume (library.lfs_file_open volume name flags).2 :=
  fun other existing => lstat_congr (library.open_frame volume name flags other existing)

theorem isOk_lstat (existing : volume name ≠ none) : (lstat false volume name).isOk = true := by
  obtain ⟨object, found⟩ := ne_none_iff_exists'.mp existing
  unfold lstat
  rw [if_neg Bool.false_ne_true, found]
  split <;> rfl

theorem openObject_kept {lfs_dir_open : Path → Int} (existing : volume name ≠ none)
    (called : openObject library lfs_dir_open mountFailed extraChecks process volume name flags
      mode = some (result, after)) : Kept mountFailed volume after := by
  unfold openObject openFile at called
  by_cases failed : mountFailed = true
  · rw [if_pos failed, some_inj, Prod.mk.injEq] at called
    obtain ⟨-, rfl⟩ := called
    exact fun _ _ => rfl
  · rw [if_neg failed] at called
    by_cases directory : has flags _FDIRECTORY = true
    · rw [if_pos directory, some_inj, Prod.mk.injEq] at called
      obtain ⟨-, rfl⟩ := called
      exact fun _ _ => rfl
    · rw [if_neg directory] at called
      dsimp only at called
      have old : ¬ ((has flags O_CREAT && (lstat false volume name).isOk) = false ∧
          has flags O_CREAT = true) := by
        rw [isOk_lstat existing, Bool.and_true]
        rintro ⟨unset, set⟩
        rw [unset] at set
        nomatch set
      split at called
      · obtain ⟨-, rfl⟩ := called
        exact kept_file_open
      · obtain ⟨-, rfl⟩ := called
        exact kept_file_open

/-- For every volume, path, caller and mode, a failing `mkdir` leaves the owner, the group and the
mode of every object as they are if and only if there is nothing on the path or it already has the
attributes that would be set. Opening an existing object always leaves them as they are. -/
theorem ownership_kept_iff (library : Library) (lfs_dir_open : Path → Int)
    (mountFailed extraChecks : Bool) (process : Option Caller) (volume : Volume) (name : Path) :
    (∀ mode result after,
      mkdir library mountFailed extraChecks process volume name mode = some (result, after) →
        ((result < 0 → Kept mountFailed volume after) ↔
          Harmless mountFailed process volume name mode)) ∧
    ∀ flags mode result after,
      openObject library lfs_dir_open mountFailed extraChecks process volume name flags mode =
        some (result, after) →
      has flags O_CREAT = true → volume name ≠ none → Kept mountFailed volume after :=
  ⟨fun _ _ _ => mkdir_kept_iff, fun _ _ _ _ called _ existing => openObject_kept existing called⟩

/-- A library that has room for every object and whose calls fail only for the path and the flags.
-/
def sampleLibrary : Library where
  lfs_mkdir volume name :=
    match volume name with
    | none => (0, update volume name (some ⟨true, none, none, none⟩))
    | some _ => (-17, volume)
  lfs_file_open volume name flags :=
    match volume name with
    | none =>
        if has flags 0x100#32 then (0, update volume name (some ⟨false, none, none, none⟩))
        else (LFS_ERR_NOENT, volume)
    | some object =>
        if has flags 0x200#32 then (-17, volume)
        else if object.isDirectory then (-21, volume) else (0, volume)
  mkdir_refuses volume name existing := by
    obtain ⟨object, found⟩ := Option.ne_none_iff_exists'.mp existing
    rw [found]
    exact (by decide : (-17 : Int) < 0)
  mkdir_undone volume name failed := by
    cases found : volume name with
    | none =>
      rw [found] at failed
      contradiction
    | some object => rfl
  mkdir_frame volume name other different := by
    cases volume name with
    | none => exact update_of_ne different _ _
    | some object => rfl
  open_frame volume name flags other existing := by
    cases found : volume name with
    | none =>
      have different : other ≠ name := by
        rintro rfl
        exact existing found
      dsimp only
      split
      · exact update_of_ne different _ _
      · rfl
    | some object =>
      dsimp only
      split
      · rfl
      · split <;> rfl

/-- A volume with the given object on every path. -/
def sampleVolume (object : Object) : Volume := fun _ => some object

/-- A second `mkdir` of the owner fails, and an `open` of an existing file succeeds. -/
theorem ownership_kept_for_owner : Kept false (sampleVolume ⟨true, some 0x1c0#32, some 5, some 6⟩)
      (update (sampleVolume ⟨true, some 0x1c0#32, some 5, some 6⟩) [.other 1]
        (some ⟨true, some 0x1c0#32, some 5, some 6⟩)) ∧
    Kept false (sampleVolume ⟨false, some 0x180#32, some 5, some 6⟩)
      (sampleVolume ⟨false, some 0x180#32, some 5, some 6⟩) := by
  have theorems object := ownership_kept_iff sampleLibrary (fun _ => 0) false true (some ⟨5, 6⟩)
    (sampleVolume object) [.other 1]
  refine ⟨((theorems _).1 0x1c0#32 (-17) _ ?_).mpr ?_ (by decide),
    (theorems _).2 (O_CREAT ||| O_WRONLY) 0x180#32 0 _ rfl rfl (Option.some_ne_none _)⟩
  · exact congrArg (fun volume => some (-17, volume)) (attributes_of_mkdir 0x1c0#32)
  · intro _ caller same object existing
    cases same
    cases existing
    decide

/-- User 7 calls `mkdir` on a private directory of user 5. The call fails, and user 7 is the owner
of the directory. -/
theorem mkdir_takes_ownership : ∃ after, mkdir sampleLibrary false true (some ⟨7, 8⟩)
        (sampleVolume ⟨true, some 0x1c0#32, some 5, some 6⟩) [.other 1] 0x1ff#32 =
          some (-17, after) ∧
      lstat false (sampleVolume ⟨true, some 0x1c0#32, some 5, some 6⟩) [.other 1] =
        .ok ⟨0x41c0#32, 5, 6⟩ ∧
      lstat false after [.other 1] = .ok ⟨0x41ff#32, 7, 8⟩ ∧
      ¬ Kept false (sampleVolume ⟨true, some 0x1c0#32, some 5, some 6⟩) after := by
  refine ⟨_, rfl, by decide, by decide, fun kept => ?_⟩
  have same := kept [.other 1] (Option.some_ne_none _)
  revert same
  decide

end Miosix.LittleFs
