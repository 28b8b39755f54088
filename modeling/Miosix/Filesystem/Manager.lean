/-
This file embeds the class `FilesystemManager` of `filesystem/file_access.cpp`: mounting and
unmounting, and the functions that resolve paths and pass an operation on to a filesystem.

The mount table is a list of keys with their filesystems, in the order of their insertion. A call
holds the mutex of the manager, so the contents of the filesystems do not change while paths are
resolved for it. The process exists, and where the code goes on with a `struct stat` that was not
filled in, what was in it before is a parameter. Results are missing only where path resolution has
none, which does not happen.
-/

import Miosix.Filesystem.Canonical

namespace Miosix.Filesystem

open Segments

/-! ### The state of the filesystems -/

/-- What the filesystems contain while a call is made. The root directory of a filesystem is not a
symbolic link, and an error is a negative number. -/
structure Contents (FS : Type) where
  supportsSymlinks : FS → Bool
  lstat : FS → Path → Except Int Stat
  readlink : FS → Path → Except Int Path
  unlinked : ∀ fs stat, lstat fs [] = .ok stat → stat.isLink = false
  lstat_negative : ∀ fs path result, lstat fs path = .error result → result < 0
  readlink_negative : ∀ fs path result, readlink fs path = .error result → result < 0

/-- The options of the build. -/
structure Build where
  withPosixPermissions : Bool
  pathMax : Nat
  deriving DecidableEq, Repr

/-- The mount table. -/
abbrev MountTable (FS : Type) := List (Path × FS)

variable {FS : Type} {table : MountTable FS} {key : Path}

section

variable (build : Build) (contents : Contents FS) (caller : Caller) (table : MountTable FS)

/-- What a path resolution is made in. -/
def surroundings : Surroundings FS where
  withPosixPermissions := build.withPosixPermissions
  pathMax := build.pathMax
  filesystems path := table.lookup path
  supportsSymlinks := contents.supportsSymlinks
  lstat _ := contents.lstat
  readlink _ := contents.readlink
  euid := caller.euid
  egid := caller.egid

theorem rootUnlinked_surroundings : RootUnlinked (surroundings build contents caller table) :=
  fun _ root stat _ => contents.unlinked root stat

end

/-! ### Resolving paths -/

section Helpers

variable (around : Surroundings FS) {followLastSymlink : Bool} {result : Int} {path : Path}

section

variable (path : Path) (followLastSymlink : Bool)

/-- `FilesystemManager::resolvePath`. -/
def managerResolve : Option (Except Int (Resolved FS)) :=
  if around.pathMax < path.length then some (.error (-ENAMETOOLONG))
  else if path.head? ≠ some .slash then some (.error (-ENOENT))
  else resolvePath around path followLastSymlink

/-- The part of a resolved path that the filesystem gets, `StringPart(path,string::npos,off)`. -/
def Resolved.inside (resolved : Resolved FS) : Path := resolved.path.drop resolved.off

/-- `statHelper`, with what it leaves in the string. -/
def statHelper : Option (Except Int (Path × Stat)) :=
  (managerResolve around path followLastSymlink).map fun answer =>
    match answer with
    | .error result => .error result
    | .ok resolved =>
        match around.lstat 0 resolved.fs resolved.inside with
        | .error result => .error result
        | .ok stat => .ok (resolved.path, stat)

/-- Every path has an answer. -/
theorem managerResolve_ne_none : managerResolve around path followLastSymlink ≠ none := by
  unfold managerResolve
  split
  · exact Option.some_ne_none _
  · split
    · exact Option.some_ne_none _
    · rename_i absolute
      obtain ⟨answer, found, -⟩ :=
        resolvePath_is_canonical around (not_not.mp absolute) followLastSymlink
      rw [found]
      exact Option.some_ne_none _

theorem statHelper_ne_none : statHelper around path followLastSymlink ≠ none := by
  unfold statHelper
  rw [Ne, Option.map_eq_none_iff]
  exact managerResolve_ne_none around path followLastSymlink

end

theorem negative_of_loop {around : Surroundings FS} {fuel : Nat} {state : PathResolution FS}
    (failed : PathResolution.loop around followLastSymlink fuel state = some (.error result)) :
    result < 0 := by
  induction fuel generalizing state with
  | zero => nomatch failed
  | succ fuel inductionHypothesis =>
    unfold PathResolution.loop at failed
    split at failed
    · nomatch failed
    · split at failed
      · rename_i negative
        cases failed
        exact negative
      · split at failed
        · obtain ⟨resolved, -, impossible⟩ := Option.map_eq_some_iff.mp failed
          nomatch impossible
        · exact inductionHypothesis failed

theorem negative_of_managerResolve {around : Surroundings FS}
    (failed : managerResolve around path followLastSymlink = some (.error result)) :
    result < 0 := by
  unfold managerResolve resolvePath at failed
  split at failed
  · cases failed
    decide
  · split at failed
    · cases failed
      decide
    · split at failed
      · cases failed
        decide
      · split at failed
        · split at failed
          · nomatch failed
          · split at failed
            · rename_i negative
              cases failed
              exact negative
            · exact negative_of_loop failed
        · exact negative_of_loop failed

theorem negative_of_statHelper {build : Build} {contents : Contents FS} {caller : Caller}
    (failed : statHelper (surroundings build contents caller table) path followLastSymlink =
      some (.error result)) : result < 0 := by
  obtain ⟨answer, resolves, given⟩ := Option.map_eq_some_iff.mp failed
  cases answer with
  | error code =>
    cases given
    exact negative_of_managerResolve resolves
  | ok resolved =>
    dsimp only [surroundings] at given
    cases known : contents.lstat resolved.fs resolved.inside with
    | error code =>
      rw [known] at given
      cases given
      exact contents.lstat_negative _ _ _ known
    | ok stat =>
      rw [known] at given
      nomatch given

theorem statHelper_eq_ok {around : Surroundings FS}
    {stat : Stat} (found : statHelper around path followLastSymlink = some (.ok (key, stat))) :
    ∃ resolved, managerResolve around path followLastSymlink = some (.ok resolved) ∧
      around.lstat 0 resolved.fs resolved.inside = .ok stat ∧ resolved.path = key := by
  obtain ⟨answer, resolves, known⟩ := Option.map_eq_some_iff.mp found
  cases answer with
  | error result => nomatch known
  | ok resolved =>
    dsimp only at known
    cases answered : around.lstat 0 resolved.fs resolved.inside with
    | error result =>
      rw [answered] at known
      nomatch known
    | ok other =>
      rw [answered] at known
      cases known
      exact ⟨resolved, resolves, answered, rfl⟩

/-- What the manager resolves has a canonical path. -/
theorem canonical_of_managerResolve {around : Surroundings FS}
    {resolved : Resolved FS} (unlinked : RootUnlinked around)
    (resolves : managerResolve around path followLastSymlink = some (.ok resolved)) :
    Canonical resolved.path ∧ path.head? = some .slash ∧
      resolvePath around path followLastSymlink = some (.ok resolved) := by
  unfold managerResolve at resolves
  split at resolves
  · nomatch resolves
  · split at resolves
    · nomatch resolves
    · rename_i absolute
      have head := not_not.mp absolute
      obtain ⟨answer, found, canonical⟩ := resolvePath_is_canonical around head followLastSymlink
      rw [found] at resolves
      cases resolves
      exact ⟨(canonical unlinked resolved rfl).1, head, found⟩

/-- What `getParentPath` leaves in the string when it removes a slash at the end. -/
def withoutTrailingSlash (path : Path) : Path :=
  if path.getLast? = some .slash then path.dropLast else path

/-- The path that `getParentPath` returns. -/
def getParentPath (path : Path) : Path :=
  let path := withoutTrailingSlash path
  if path = [] then [.slash]
  else
    match findLast .slash path path.length with
    | none => []
    | some position => path.take (position + 1)

section

variable (path : Path) (stale : Stat)

/-- What is known of the directory above a path. If it cannot be found, the variable has `stale`. -/
def parentStat : Option Stat :=
  (statHelper around (getParentPath path) false).map fun answer =>
    match answer with
    | .error _ => stale
    | .ok found => found.2

/-- What is known of an object, in the same way. -/
def objectStat (resolved : Resolved FS) (stale : Stat) : Stat :=
  match around.lstat 0 resolved.fs resolved.inside with
  | .error _ => stale
  | .ok stat => stat

/-- The caller may add and remove entries of the directory. -/
def mayEdit (stat : Stat) : Bool := canEditDirectoryEntries around.euid around.egid stat

/-! ### Helpers -/

/-- A helper answers by itself, or it passes the operation on to a filesystem. -/
inductive Decision (FS : Type) where
  | answered (result : Int)
  | passed (fs : FS) (paths : List Path)
  deriving DecidableEq, Repr

end

/-- `StringPart::startsWith`. -/
def startsWith (path front : Path) : Bool := front.isPrefixOf path

/-- The permissions for a rename: to change both directories, and to change the object if it is a
directory. -/
def checkRename (old new : Resolved FS) (stale : Stat) : Option (Decision FS) :=
  match parentStat around old.path stale with
  | none => none
  | some oldParent =>
      if mayEdit around oldParent = false then some (.answered (-EACCES))
      else
        match parentStat around new.path oldParent with
        | none => none
        | some newParent =>
            if mayEdit around newParent = false then some (.answered (-EACCES))
            else
              let object := objectStat around old newParent
              if object.isDir = true ∧ mayEdit around object = false then
                some (.answered (-EACCES))
              else some (.passed old.fs [old.inside, new.inside])

def renameHelper [DecidableEq FS] (oldPath newPath : Path) (stale : Stat) : Option (Decision FS) :=
  match managerResolve around oldPath true with
  | none => none
  | some (.error result) => some (.answered result)
  | some (.ok old) =>
      match managerResolve around newPath true with
      | none => none
      | some (.error result) => some (.answered result)
      | some (.ok new) =>
          if old.fs ≠ new.fs then some (.answered (-EXDEV))
          else if around.filesystems old.path ≠ none then some (.answered (-EBUSY))
          else if around.filesystems new.path ≠ none then some (.answered (-EBUSY))
          else if startsWith new.inside old.inside then some (.answered (-EINVAL))
          else if around.withPosixPermissions then checkRename around old new stale
          else some (.passed old.fs [old.inside, new.inside])

end Helpers

/-! ### The mount table -/

theorem mem_of_lookup {fs : FS} (found : table.lookup key = some fs) : (key, fs) ∈ table := by
  obtain ⟨before, after, rfl, -⟩ := List.lookup_eq_some_iff.mp found
  exact List.mem_append_right _ List.mem_cons_self

theorem lookup_eq_none : table.lookup key = none ↔ ∀ entry ∈ table, entry.1 ≠ key := by
  rw [List.lookup_eq_none_iff]
  refine forall₂_congr fun entry _ => ?_
  rw [bne_iff_ne]
  exact ne_comm

/-! ### Mounting -/

section

variable (build : Build) (contents : Contents FS) (caller : Caller) (table : MountTable FS)
  (path : Path)

/-- `map::insert`. -/
def insertMount (key : Path) (fs : FS) : Int × MountTable FS :=
  if table.lookup key = none then (0, table ++ [(key, fs)]) else (-EBUSY, table)

/-- The check of the directory, with the key that the path becomes. -/
def mountDirectory (around : Surroundings FS) (path : Path) : Option (Except Int Path) :=
  match statHelper around path false with
  | none => none
  | some (.error result) => some (.error result)
  | some (.ok (key, stat)) =>
      if stat.isDir = false then some (.error (-ENOTDIR))
      else
        (statHelper around (getParentPath key) false).map fun answer =>
          match answer with
          | .error result => .error result
          | .ok _ => .ok (withoutTrailingSlash key)

/-- A missing path is the empty one. The check for the permission looks at the group. -/
def kmount (fs : Option FS) : Option (Int × MountTable FS) :=
  if build.withPosixPermissions = true ∧ caller.egid ≠ 0 then some (-EPERM, table)
  else if path = [] then some (-EFAULT, table)
  else
    match fs with
    | none => some (-EFAULT, table)
    | some fs =>
        if build.pathMax < path.length then some (-ENAMETOOLONG, table)
        else if path = [.slash] ∧ table = [] then some (insertMount table path fs)
        else
          (mountDirectory (surroundings build contents caller table) path).map fun answer =>
            match answer with
            | .error result => (result, table)
            | .ok key => insertMount table key fs

/-! ### Unmounting -/

/-- A file that is open. -/
structure OpenFile (FS : Type) where
  file : Nat
  parent : FS
  deriving DecidableEq, Repr

/-- The file descriptor tables of all processes. -/
abbrev DescriptorTables (FS : Type) := List (List (Option (OpenFile FS)))

/-- The entries of the table whose key starts with the path. -/
def fsToUmount : MountTable FS :=
  table.filter fun entry => startsWith entry.1 path

end

/-- The file is on one of the filesystems. -/
def belongs [DecidableEq FS] (doomed : MountTable FS) (file : OpenFile FS) : Bool :=
  doomed.any fun entry => entry.2 == file.parent

/-- Closing the files of the filesystems. -/
def closeFiles [DecidableEq FS] (doomed : MountTable FS) (tables : DescriptorTables FS) :
    DescriptorTables FS :=
  tables.map fun files => files.map fun slot => slot.filter fun file => !belongs doomed file

/-- Some file of the filesystems is open. -/
def anyOpen [DecidableEq FS] (doomed : MountTable FS) (tables : DescriptorTables FS) : Bool :=
  tables.any fun files => files.any fun slot => slot.any fun file => belongs doomed file

/-- The attempts to find all files closed. Only the unmounting by force makes more than one. -/
def awaitClosed (force : Bool) (failed : Nat → Bool) : Nat → Nat → Bool
  | 0, _ => false
  | remaining + 1, attempt =>
      if failed attempt = false then true
      else if force = false then false
      else awaitClosed force failed remaining (attempt + 1)

def maxRetry : Nat := 3

/-- The answers of `areAllFilesClosed` are given for each attempt. -/
def umount [DecidableEq FS] (build : Build) (caller : Caller) (table : MountTable FS)
    (tables : DescriptorTables FS) (areAllFilesClosed : Nat → FS → Bool) (path : Path)
    (force : Bool) : Int × MountTable FS × DescriptorTables FS :=
  if build.withPosixPermissions = true ∧ caller.euid ≠ 0 then (-EPERM, table, tables)
  else if path = [] then (-ENOENT, table, tables)
  else if build.pathMax < path.length then (-ENAMETOOLONG, table, tables)
  else if table.lookup path = none then (-EINVAL, table, tables)
  else
    let doomed := fsToUmount table path
    if force = false ∧ anyOpen doomed tables = true then (-EBUSY, table, tables)
    else
      let closed := if force then closeFiles doomed tables else tables
      let failed := fun attempt => doomed.any fun entry => !areAllFilesClosed attempt entry.2
      if awaitClosed force failed maxRetry 0 = false then (-EBUSY, table, closed)
      else (0, table.filter fun entry => !startsWith entry.1 path, closed)

/-- Filesystems in which every path is a directory. The root directory of one of them has a mode of
its own. -/
def directories (special : Nat) (specialMode : Flags)
    (unlinked : (⟨specialMode, 0, 0⟩ : Stat).isLink = false) : Contents Nat where
  supportsSymlinks _ := true
  lstat fs path := .ok (if fs = special ∧ path = [] then ⟨specialMode, 0, 0⟩ else ⟨0x41ff#32, 0, 0⟩)
  readlink _ _ := .error (-EINVAL)
  unlinked fs stat known := by
    cases known
    split
    · exact unlinked
    · rfl
  lstat_negative _ _ _ failed := nomatch failed
  readlink_negative _ _ _ failed := by
    cases failed
    decide

end Miosix.Filesystem
