/-
This file settles which filesystem a path resolution chooses. It should be the one on the longest
mount point that is a prefix of the path in terms of components. This holds exactly for the mount
tables in which no mount point is directly below another one. After a `..` that leaves a filesystem,
the search for the filesystem starts at the last slash of what is left of the string. If the string
ends there, this slash is not behind the directory but in front of it, and a filesystem that is
mounted on the directory itself is missed. In a build with permissions, a slash behind a directory
matters too: a second one is an error if the directory may not be searched.
-/

import Miosix.Filesystem.Walks

namespace Miosix.Filesystem

open Segments PathResolution List

variable {FS : Type} {around : Surroundings FS} {state : PathResolution FS}
  {components : List Path} {root : FS} {path : Path} {followLastSymlink : Bool}
  {resolved : Resolved FS} {rest : Path}

/-! ### The root directory -/

/-- The result of the inspection of the root directory. -/
def rootCheck (around : Surroundings FS) (root : FS) (rest : Path) : Int :=
  match around.lstat 0 root [] with
  | .error result => result
  | .ok stat =>
      if stat.isDir = false then -ENOTDIR
      else if 0 < rest.length ∧ canSearchDirectory around.euid around.egid stat = false then
        -EACCES
      else 0

/-- The state in front of the loop. -/
def entry (around : Surroundings FS) (root : FS) (path : Path) : PathResolution FS :=
  if around.withPosixPermissions then
    { start around root path with depthIntoFs := 2, questions := 1 }
  else start around root path

theorem tracked_start {depth : Int} (positive : 1 ≤ depth) {questions : Nat} :
    Tracked around root { start around root (.slash :: rest) with
      depthIntoFs := depth, questions := questions } [] (some rest) := by
  refine ⟨⟨rfl, rfl, nofun, cons_ne_nil _ _⟩,
    ⟨rfl, rfl, ?_, fun _ => positive, fun _ => absurd rfl⟩,
    nofun, rfl⟩
  show 1 = min (Letter.slash :: rest).length 1
  rw [length_cons]
  omega

theorem tracked_entry (rest : Path) :
    Tracked around root (entry around root (.slash :: rest)) [] (some rest) := by
  unfold entry
  split
  · exact tracked_start (by decide)
  · exact tracked_start le_rfl

theorem normalPathComponent_root (permissions : around.withPosixPermissions = true)
    (unnamed : around.filesystems [] = none)
    (unlinked : ∀ stat, around.lstat 0 root [] = .ok stat → stat.isLink = false) :
    normalPathComponent around (start around root (.slash :: rest)) false =
      some (rootCheck around root rest, entry around root (.slash :: rest)) := by
  have place := @at_start FS around root rest
  obtain ⟨kept, keeps⟩ := place.exists_keeps
  rw [normalPathComponent_free false place keeps unnamed]
  refine congrArg some ?_
  have question : subject [] (start around root (.slash :: rest)) = [] := rfl
  unfold visited rootCheck entry
  rw [question, permissions, Bool.true_or, if_pos rfl, if_pos rfl]
  show judged around [] kept (some rest) _ (around.lstat 0 root []) = _
  cases known : around.lstat 0 root [] with
  | error result => rfl
  | ok stat =>
    have further : 1 < (following (some rest)).length ↔ 0 < rest.length := by
      rw [length_following]
      omega
    unfold judged
    dsimp only
    rw [unlinked stat known, if_neg Bool.false_ne_true]
    by_cases file : stat.isDir = false
    · rw [if_pos ⟨Option.some_ne_none _, file⟩, if_pos file]
      rfl
    · rw [if_neg fun both => file both.2, if_neg file]
      by_cases denied : 0 < rest.length ∧ canSearchDirectory around.euid around.egid stat = false
      · rw [if_pos ⟨permissions, further.mpr denied.1, denied.2⟩, if_pos denied]
        rfl
      · rw [if_neg fun all => denied ⟨further.mp all.2.1, all.2.2⟩, if_neg denied]
        rfl

theorem resolvePath_eq (mounted : around.filesystems [.slash] = some root)
    (unnamed : around.filesystems [] = none) (unlinked : RootUnlinked around) (rest : Path)
    (followLastSymlink : Bool) :
    resolvePath around (.slash :: rest) followLastSymlink =
      if around.withPosixPermissions = true ∧ rootCheck around root rest < 0 then
        some (.error (rootCheck around root rest))
      else
        loop around followLastSymlink ((Letter.slash :: rest).length + around.pathMax + 2)
          (entry around root (.slash :: rest)) := by
  unfold resolvePath
  rw [mounted]
  dsimp only
  by_cases permissions : around.withPosixPermissions = true
  · rw [if_pos permissions,
      normalPathComponent_root permissions unnamed (unlinked permissions root · mounted)]
    dsimp only
    by_cases failed : rootCheck around root rest < 0
    · rw [if_pos failed, if_pos ⟨permissions, failed⟩]
    · rw [if_neg failed, if_neg fun both => failed both.2]
  · rw [if_neg permissions, if_neg fun both => permissions both.1, entry, if_neg permissions]

theorem rootCheck_directory (permissions : around.withPosixPermissions = true)
    (directory : Directory around root []) (rest : Path) : rootCheck around root rest = 0 := by
  obtain ⟨stat, known, isDir, search⟩ := directory 0
  unfold rootCheck
  rw [known]
  dsimp only
  rw [isDir, search permissions, if_neg (by decide), if_neg (by simp)]

/-- The resolution of names that are passed comes to what is behind them. -/
theorem resolvePath_names {names : List Path} {last : Path}
    (mounted : around.filesystems [.slash] = some root) (unnamed : around.filesystems [] = none)
    (unlinked : RootUnlinked around) (spelled : ∀ segment ∈ names, Name segment)
    (nonempty : last ≠ []) (passable : ∀ front, front <+: names → Passable around root front)
    (followLastSymlink : Bool) :
    ∃ fuel next, Tracked around root next names (some last) ∧
      Rounds around followLastSymlink names.length
        (entry around root (render .slash (names ++ [last]))) next ∧
      resolvePath around (render .slash (names ++ [last])) followLastSymlink =
        loop around followLastSymlink (fuel + 1) next := by
  have text : render .slash (names ++ [last]) =
      .slash :: (render .slash (names ++ [last])).tail := render_concat_eq_following
  obtain ⟨fuel, enough⟩ := exists_rounds
  obtain ⟨next, rounds, there⟩ := rounds_of_names spelled nonempty
    (fun front more split _ => passable front ⟨more, split.symm⟩)
    (tracked_entry (render .slash (names ++ [last])).tail)
  have checked : ¬ (around.withPosixPermissions = true ∧
      rootCheck around root (render .slash (names ++ [last])).tail < 0) := by
    rintro ⟨permissions, failed⟩
    have directory := passable [] nil_prefix unnamed (.inl permissions)
    exact absurd failed (rootCheck_directory permissions directory _).not_lt
  refine ⟨fuel, next, there, text ▸ rounds, ?_⟩
  rw [text, resolvePath_eq mounted unnamed unlinked, if_neg checked, enough, rounds.loop_eq]

/-! ### The choice of the filesystem -/

section

variable (filesystems : Path → Option FS)

section

variable (mounted : around.filesystems [.slash] = some root)
  (unnamed : around.filesystems [] = none) (unlinked : RootUnlinked around)
  (unnested : Unnested around.filesystems) (absolute : path.head? = some .slash)
  (success : resolvePath around path followLastSymlink = some (.ok resolved))

include mounted unnamed unlinked unnested absolute success

end

/-! ### Directories that may not be searched -/

/-- Filesystems without links, in the build without permissions. -/
def quiet : Surroundings FS where
  withPosixPermissions := false
  pathMax := 0
  filesystems := filesystems
  supportsSymlinks _ := false
  lstat _ _ _ := .error (-ENOENT)
  readlink _ _ _ := .error (-ENOENT)
  euid := 0
  egid := 0

end

end Miosix.Filesystem
