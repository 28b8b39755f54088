/-
This file settles when `renameHelper` refuses a rename because the new path is inside the old one.
The code compares strings: it refuses if the new path starts with the letters of the old path. So it
also refuses if both are the same, and if the last name of the old path is only the beginning of a
name in the new one. In all other cases the answer is right.
-/

import Miosix.Filesystem.Manager

namespace Miosix.Filesystem

open Segments

variable {FS : Type} {around : Surroundings FS} {old new : Path}

/-! ### Paths inside a path -/

/-- The new path has all components of the old one and more. -/
def StrictlyInside (old new : Path) : Prop :=
  ∃ more, more ≠ [] ∧ new.splitOn .slash = old.splitOn .slash ++ more

/-- The new path does not start with the letters of the old one, except where a slash follows
them. -/
def Separate (old new : Path) : Prop := ∀ more, new = old ++ more → more.head? = some .slash

theorem startsWith_iff (path front : Path) : startsWith path front = true ↔ front <+: path :=
  List.isPrefixOf_iff_prefix

theorem strictlyInside_iff : StrictlyInside old new ↔ old ++ [.slash] <+: new :=
  splitOn_eq_append_iff

theorem startsWith_of_strictlyInside (inside : StrictlyInside old new) :
    startsWith new old = true := by
  rw [startsWith_iff]
  exact (List.prefix_append _ _).trans (strictlyInside_iff.mp inside)

/-- The comparison of strings finds the paths inside the old one exactly where no name is only
continued. -/
theorem startsWith_iff_strictlyInside_iff :
    (startsWith new old = true ↔ StrictlyInside old new) ↔ Separate old new := by
  constructor
  · rintro found more rfl
    have inside := found.mp ((startsWith_iff _ _).mpr (List.prefix_append _ _))
    rw [strictlyInside_iff, List.prefix_append_right_inj] at inside
    obtain ⟨rest, rfl⟩ := inside
    rfl
  · intro separate
    refine ⟨fun found => ?_, startsWith_of_strictlyInside⟩
    obtain ⟨more, rfl⟩ := (startsWith_iff _ _).mp found
    have slash := separate more rfl
    obtain ⟨rest, rfl⟩ := List.head?_eq_some_iff.mp slash
    rw [strictlyInside_iff, List.prefix_append_right_inj]
    exact List.prefix_append [.slash] rest

/-! ### The helper -/

/-- The permissions are not a reason to answer that the path is inside. -/
theorem checkRename_ne_invalid {old new : Resolved FS} {stale : Stat} :
    checkRename around old new stale ≠ some (.answered (-EINVAL)) := by
  have denied : (some (.answered (-EACCES)) : Option (Decision FS)) ≠
      some (.answered (-EINVAL)) := by
    intro same
    have code := Decision.answered.inj (Option.some.inj same)
    revert code
    decide
  unfold checkRename
  cases parentStat around old.path stale with
  | none => exact nofun
  | some oldParent =>
    dsimp only
    split
    · exact denied
    · cases parentStat around new.path oldParent with
      | none => exact nofun
      | some newParent =>
        dsimp only
        split
        · exact denied
        · split
          · exact denied
          · exact nofun

section Helper

variable [DecidableEq FS] {oldPath newPath : Path} {old new : Resolved FS}

/-- The helper refuses exactly the paths that are strictly inside, and passes the others on if the
caller has the permissions. -/
def RefusesInside (around : Surroundings FS) (oldPath newPath : Path) (old new : Resolved FS)
    (stale : Stat) : Prop :=
  (renameHelper around oldPath newPath stale = some (.answered (-EINVAL)) ↔
    StrictlyInside old.inside new.inside) ∧
  (¬ StrictlyInside old.inside new.inside →
    (around.withPosixPermissions = true →
      checkRename around old new stale = some (.passed old.fs [old.inside, new.inside])) →
    renameHelper around oldPath newPath stale = some (.passed old.fs [old.inside, new.inside]))

variable (stale : Stat) (oldResolved : managerResolve around oldPath true = some (.ok old))
  (newResolved : managerResolve around newPath true = some (.ok new)) (together : old.fs = new.fs)
  (oldFree : around.filesystems old.path = none) (newFree : around.filesystems new.path = none)

include oldResolved newResolved together oldFree newFree

/-- The answer for two paths on one filesystem that are not mount points. -/
theorem renameHelper_eq : renameHelper around oldPath newPath stale =
      if startsWith new.inside old.inside then some (.answered (-EINVAL))
      else if around.withPosixPermissions then checkRename around old new stale
      else some (.passed old.fs [old.inside, new.inside]) := by
  unfold renameHelper
  rw [oldResolved, newResolved]
  dsimp only
  rw [if_neg (not_not.mpr together), if_neg (not_not.mpr oldFree), if_neg (not_not.mpr newFree)]

/-- For all paths on one filesystem that are not mount points, `renameHelper` answers that the new
path is inside the old one exactly when this is the case, and passes the other renames on, if and
only if the new path does not start with the letters of the old one except where a slash follows
them. -/
theorem rename_refuses_inside_iff :
    RefusesInside around oldPath newPath old new stale ↔ Separate old.inside new.inside := by
  have answer := renameHelper_eq stale oldResolved newResolved together oldFree newFree
  have refused : renameHelper around oldPath newPath stale = some (.answered (-EINVAL)) ↔
      startsWith new.inside old.inside = true := by
    rw [answer]
    split
    · rename_i found
      exact iff_of_true rfl found
    · rename_i absent
      refine iff_of_false ?_ absent
      split
      · exact checkRename_ne_invalid
      · exact nofun
  unfold RefusesInside
  rw [refused, startsWith_iff_strictlyInside_iff]
  refine ⟨And.left, fun separate => ⟨separate, fun outside permitted => ?_⟩⟩
  rw [answer, if_neg fun found =>
    outside ((startsWith_iff_strictlyInside_iff.mpr separate).mp found)]
  split
  · rename_i permissions
    exact permitted permissions
  · rfl

end Helper

/-- A rename of a directory into itself. -/
theorem rename_refuses_inside_directory :
    RefusesInside (sample false [[.slash]] 0x41ff#32 0x41ff#32 []) [.slash, .other 1]
        [.slash, .other 1, .slash, .other 2] ⟨[.slash, .other 1], 0, 1, 0⟩
        ⟨[.slash, .other 1, .slash, .other 2], 0, 1, 0⟩ ⟨0#32, 0, 0⟩ ∧
      StrictlyInside [.other 1] [.other 1, .slash, .other 2] := by
  refine ⟨(@rename_refuses_inside_iff Nat (sample false [[.slash]] 0x41ff#32 0x41ff#32 []) _
    [.slash, .other 1] [.slash, .other 1, .slash, .other 2] ⟨[.slash, .other 1], 0, 1, 0⟩
    ⟨[.slash, .other 1, .slash, .other 2], 0, 1, 0⟩ _ rfl rfl rfl rfl rfl).mpr ?_,
    [[.other 2]], List.cons_ne_nil _ _, by decide⟩
  intro more same
  rw [← List.append_cancel_left (show [Letter.other 1] ++ [.slash, .other 2] =
    [Letter.other 1] ++ more from same)]
  rfl

/-- The rename of `x` to `xy` is refused, although `xy` is not inside `x`. -/
theorem rename_to_longer_name_is_refused :
    renameHelper (sample false [[.slash]] 0x41ff#32 0x41ff#32 []) [.slash, .other 1]
        [.slash, .other 1, .other 2] ⟨0#32, 0, 0⟩ = some (.answered (-EINVAL)) ∧
      managerResolve (sample false [[.slash]] 0x41ff#32 0x41ff#32 []) [.slash, .other 1] true =
        some (.ok ⟨[.slash, .other 1], 0, 1, 0⟩) ∧
      managerResolve (sample false [[.slash]] 0x41ff#32 0x41ff#32 [])
        [.slash, .other 1, .other 2] true = some (.ok ⟨[.slash, .other 1, .other 2], 0, 1, 0⟩) ∧
      ¬ StrictlyInside [.other 1] [.other 1, .other 2] := by
  refine ⟨rfl, rfl, rfl, ?_⟩
  rw [strictlyInside_iff]
  decide

end Miosix.Filesystem
