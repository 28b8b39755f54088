/-
This file embeds the class `PathResolution` of `filesystem/file_access.cpp`, which turns an absolute
path into a filesystem and a path relative to it, for the builds with and without permissions. The
string is edited in place while it is scanned: components that are empty, `.` or `..` are removed,
and a symbolic link is replaced by its target. Meanwhile the current filesystem is followed with the
position at which the path relative to it starts and with the number of components behind it.

What the filesystems answer is not known. An answer may depend on the questions that were asked
before. An access to the string out of bounds, and a loop that does not end, are the result `none`.
-/

import Miosix.Lib.Segments
import Miosix.Filesystem.Permissions

namespace Miosix.Filesystem

open Segments

/-! ### Strings -/

inductive Letter where
  | slash
  | dot
  | other (code : Nat)
  deriving DecidableEq, Repr

abbrev Path := List Letter

/-- `string::erase`, which throws if it is to start behind the end. -/
def erase (path : Path) (position count : Nat) : Option Path :=
  if path.length < position then none
  else some (path.take position ++ path.drop (position + count))

/-- The part of a path that `StringPart(path,idx,off)` stands for. -/
def stringPart (path : Path) (idx off : Nat) : Path := (path.take idx).drop off

/-! ### The surroundings -/

/-- The mount table, the filesystems and the caller. An error of a filesystem is the negative number
it returns. The number in front of a question is that of the questions before. -/
structure Surroundings (FS : Type) where
  withPosixPermissions : Bool
  pathMax : Nat
  filesystems : Path → Option FS
  supportsSymlinks : FS → Bool
  lstat : Nat → FS → Path → Except Int Stat
  readlink : Nat → FS → Path → Except Int Path
  euid : Nat
  egid : Nat

/-- The members of the class and the string. The code has no `questions`, the number of answers of
the filesystems, and no `followed`, the number of links whose target was put into the string. -/
structure PathResolution (FS : Type) where
  path : Path
  root : FS
  fs : FS
  syms : Bool
  index : Nat
  indexIntoFs : Nat
  depthIntoFs : Int
  linksFollowed : Nat
  questions : Nat
  followed : Nat

def maxLinkToFollow : Nat := 2

variable {FS : Type} (around : Surroundings FS)

/-! ### The functions -/

namespace PathResolution

/-- The loop of `recursiveFindFs`. -/
def recursiveFindFsLoop : Nat → Nat → PathResolution FS → Option (Int × PathResolution FS)
  | 0, _, _ => none
  | fuel + 1, backIndex, state =>
      match findLast .slash state.path (backIndex - 1) with
      | none => some (-ENOENT, state)
      | some backIndex =>
          if backIndex = 0 then
            some (0, { state with
              fs := state.root, indexIntoFs := 1, syms := around.supportsSymlinks state.root })
          else
            match around.filesystems (stringPart state.path backIndex 0) with
            | some fs =>
                some (0, { state with
                  fs := fs, indexIntoFs := backIndex + 1, syms := around.supportsSymlinks fs })
            | none =>
                recursiveFindFsLoop fuel backIndex
                  { state with depthIntoFs := state.depthIntoFs + 1 }

section

variable (state : PathResolution FS)

def recursiveFindFs : Option (Int × PathResolution FS) :=
  recursiveFindFsLoop around (state.index + 1) state.index { state with depthIntoFs := 1 }

/-- The position from which `find_last_of` searches for `index-2`. The number is a `size_t`. -/
def searchStart : Nat :=
  if state.index < 2 then state.path.length else state.index - 2

def followSymlink : Option (Int × PathResolution FS) :=
  let state := { state with linksFollowed := state.linksFollowed + 1 }
  if maxLinkToFollow ≤ state.linksFollowed then some (-ELOOP, state)
  else
    let answer := around.readlink state.questions state.fs
      (stringPart state.path (state.index - 1) state.indexIntoFs)
    let state := { state with questions := state.questions + 1 }
    match answer with
    | .error result => some (result, state)
    | .ok target =>
        let behind :=
          if state.index ≤ state.path.length then state.path.drop (state.index - 1) else []
        if target = [] then some (-ENOENT, state)
        else if target[0]? = some .slash then
          if around.pathMax < target.length + state.path.length - state.index + 1 then
            some (-ENAMETOOLONG, state)
          else
            some (0, { state with
              path := target ++ behind, fs := state.root,
              syms := around.supportsSymlinks state.root, index := 1, indexIntoFs := 1,
              depthIntoFs := 1, followed := state.followed + 1 })
        else
          match findLast .slash state.path state.searchStart with
          | none => none
          | some removeStart =>
              if around.pathMax <
                  state.path.length + removeStart + 2 + target.length - state.index then
                some (-ENAMETOOLONG, state)
              else
                some (0, { state with
                  path := state.path.take (removeStart + 1) ++ target ++ behind,
                  index := removeStart + 1, depthIntoFs := state.depthIntoFs - 1,
                  followed := state.followed + 1 })

/-- The part of `normalPathComponent` that asks the filesystem. -/
def inspect : Option (Int × PathResolution FS) :=
  let answer := around.lstat state.questions state.fs
    (stringPart state.path (state.index - 1) state.indexIntoFs)
  let state := { state with questions := state.questions + 1 }
  match answer with
  | .error result => some (result, state)
  | .ok stat =>
      if stat.isLink then followSymlink around state
      else if state.index ≤ state.path.length ∧ stat.isDir = false then some (-ENOTDIR, state)
      else if around.withPosixPermissions ∧ state.index < state.path.length ∧
          canSearchDirectory around.euid around.egid stat = false then
        some (-EACCES, state)
      else some (0, state)

def normalPathComponent (followIfSymlink : Bool) : Option (Int × PathResolution FS) :=
  match around.filesystems (stringPart state.path (state.index - 1) 0) with
  | some fs =>
      some (0, { state with
        fs := fs, syms := around.supportsSymlinks fs,
        indexIntoFs := if state.path.length < state.index then state.index - 1 else state.index,
        depthIntoFs := 1 })
  | none =>
      let state := { state with depthIntoFs := state.depthIntoFs + 1 }
      if around.withPosixPermissions || (state.syms && followIfSymlink) then inspect around state
      else some (0, state)

def upPathComponent (slash : Nat) : Option (Int × PathResolution FS) :=
  if state.index ≤ 1 then some (-ENOENT, state)
  else
    match findLast .slash state.path (state.index - 2) with
    | none => some (-ENOENT, state)
    | some removeStart =>
        match erase state.path removeStart (slash - removeStart) with
        | none => none
        | some erased =>
            let path := if erased = [] then [.slash] else erased
            let state := { state with
              path := path, index := removeStart + 1,
              indexIntoFs :=
                if path.length < state.indexIntoFs then path.length else state.indexIntoFs,
              depthIntoFs := state.depthIntoFs - 1 }
            if 0 < state.depthIntoFs then some (0, state) else recursiveFindFs around state

end

/-- With permissions the last component does not have to exist. -/
def tolerated (result : Int) (state : PathResolution FS) : Bool :=
  around.withPosixPermissions && result == -ENOENT && state.path.length ≤ state.index

/-- One component, in the loop of `resolvePath`. -/
def component (followLastSymlink : Bool) (state : PathResolution FS) :
    Option (Int × PathResolution FS) :=
  let slash := (findFirst .slash state.path state.index).getD state.path.length
  if slash = state.index then
    (erase state.path state.index 1).map fun path => (0, { state with path := path })
  else if slash - state.index = 1 ∧ state.path[state.index]? = some .dot then
    (erase state.path state.index 2).map fun path => (0, { state with path := path })
  else if slash - state.index = 2 ∧ state.path[state.index]? = some .dot ∧
      state.path[state.index + 1]? = some .dot then
    upPathComponent around state slash
  else
    let state := { state with index := slash + 1 }
    let follow := if state.path.length < state.index then followLastSymlink else true
    (normalPathComponent around state follow).map fun answer =>
      (if tolerated around answer.1 answer.2 then 0 else answer.1, answer.2)

end PathResolution

/-- What `resolvePath` leaves in the string and returns. -/
structure Resolved (FS : Type) where
  path : Path
  fs : FS
  off : Nat
  followed : Nat

/-- The end of `resolvePath`, which removes a slash at the end. -/
def PathResolution.finish (state : PathResolution FS) : Option (Resolved FS) :=
  match state.path[state.path.length - 1]? with
  | none => none
  | some last =>
      if last = .slash then
        (erase state.path (state.path.length - 1) 1).map fun path =>
          { path := path, fs := state.fs,
            off := if path.length < state.indexIntoFs then path.length else state.indexIntoFs,
            followed := state.followed }
      else
        some { path := state.path, fs := state.fs, off := state.indexIntoFs,
               followed := state.followed }

/-- The loop of `resolvePath`. -/
def PathResolution.loop (followLastSymlink : Bool) :
    Nat → PathResolution FS → Option (Except Int (Resolved FS))
  | 0, _ => none
  | fuel + 1, state =>
      match component around followLastSymlink state with
      | none => none
      | some (result, next) =>
          if result < 0 then some (.error result)
          else if next.path.length ≤ next.index then next.finish.map .ok
          else loop followLastSymlink fuel next

/-- The state in front of the first component. -/
def PathResolution.start (root : FS) (path : Path) : PathResolution FS where
  path := path
  root := root
  fs := root
  syms := around.supportsSymlinks root
  index := 1
  indexIntoFs := 1
  depthIntoFs := 1
  linksFollowed := 0
  questions := 0
  followed := 0

open PathResolution in
def resolvePath (path : Path) (followLastSymlink : Bool) : Option (Except Int (Resolved FS)) :=
  match around.filesystems [.slash] with
  | none => some (.error (-ENOENT))
  | some root =>
      let rounds := path.length + around.pathMax + 2
      if around.withPosixPermissions then
        match normalPathComponent around (start around root path) false with
        | none => none
        | some (result, state) =>
            if result < 0 then some (.error result)
            else loop around followLastSymlink rounds state
      else loop around followLastSymlink rounds (start around root path)

end Miosix.Filesystem
