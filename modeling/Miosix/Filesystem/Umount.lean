/-
This file settles what `umount` removes. The code takes every filesystem whose mount point starts
with the letters of the path. These are the mount points at and below the path, and those next to it
whose name is longer: with filesystems on `/x` and `/xy`, unmounting `/x` also removes the one on
`/xy`.
-/

import Miosix.Filesystem.Rename

namespace Miosix.Filesystem

open Segments List

variable {FS : Type} {table : MountTable FS} {path key : Path}

/-! ### Mount points as directories -/

/-- The components of a mount point. The root has none. -/
def directoryOf (key : Path) : List Path := (key.splitOn .slash).filter fun segment => segment ≠ []

/-- A mount point is the root or a canonical path below it. -/
def MountPoint (key : Path) : Prop :=
  key = [.slash] ∨
    ∃ components, components ≠ [] ∧ (∀ segment ∈ components, Name segment) ∧
      key = render .slash components

/-- The mount point is the directory of the path, or it is below it. -/
def AtOrBelow (path key : Path) : Prop := directoryOf path <+: directoryOf key
  deriving Decidable

theorem directoryOf_root : directoryOf [.slash] = [] := rfl

theorem directoryOf_render {components : List Path} (names : ∀ segment ∈ components, Name segment) :
    directoryOf (render .slash components) = components := by
  rw [directoryOf, splitOn_render fun segment listed => (names segment listed).2.1,
    filter_cons_of_neg (by simp)]
  exact filter_eq_self.mpr fun segment listed => decide_eq_true (names segment listed).1

theorem render_prefix {first second : List Path} (front : first <+: second) :
    render .slash first <+: render Letter.slash second := by
  obtain ⟨more, rfl⟩ := front
  rw [render_append]
  exact prefix_append _ _

/-- Mount points at and below a path start with its letters. -/
theorem startsWith_of_atOrBelow (pathFine : MountPoint path) (keyFine : MountPoint key)
    (below : AtOrBelow path key) : startsWith key path = true := by
  rw [startsWith_iff]
  unfold AtOrBelow at below
  rcases pathFine with rfl | ⟨components, -, names, rfl⟩
  · rcases keyFine with rfl | ⟨components, nonempty, -, rfl⟩
    · exact prefix_rfl
    · obtain ⟨first, more, rfl⟩ := exists_cons_of_ne_nil nonempty
      exact prefix_append [Letter.slash] _
  · rw [directoryOf_render names] at below
    rcases keyFine with rfl | ⟨others, -, otherNames, rfl⟩
    · rw [prefix_nil.mp below]
      exact nil_prefix
    · rw [directoryOf_render otherNames] at below
      exact render_prefix below

/-! ### Unmounting -/

/-- No mount point next to the path has a name that starts with that of the path. -/
def NoLongerName (table : MountTable FS) (path : Path) : Prop :=
  ∀ entry ∈ table, startsWith entry.1 path = true → AtOrBelow path entry.1
  deriving Decidable

section

variable (fine : ∀ entry ∈ table, MountPoint entry.1) (pathFine : MountPoint path)
  (short : NoLongerName table path)

include fine pathFine short

theorem filter_startsWith_eq : (table.filter fun entry => startsWith entry.1 path) =
      table.filter fun entry => AtOrBelow path entry.1 := by
  refine filter_congr fun entry listed => ?_
  rw [Bool.eq_iff_iff, decide_eq_true_eq]
  exact ⟨short entry listed, startsWith_of_atOrBelow pathFine (fine entry listed)⟩

theorem filter_not_startsWith_eq : (table.filter fun entry => !startsWith entry.1 path) =
      table.filter fun entry => ¬ AtOrBelow path entry.1 := by
  refine filter_congr fun entry listed => ?_
  rw [Bool.eq_iff_iff, Bool.not_eq_true', decide_eq_true_eq, Bool.eq_false_iff, not_iff_not]
  exact ⟨short entry listed, startsWith_of_atOrBelow pathFine (fine entry listed)⟩

end

section Unmounting

variable [DecidableEq FS]

/-- What is expected of unmounting a path. A success removes the mount points at and below it, and
when it is forced it closes the files of their filesystems. An error without force changes
nothing. -/
def UmountExact (table : MountTable FS) (path : Path) : Prop :=
  ∀ build caller tables areAllFilesClosed force,
    ((umount build caller table tables areAllFilesClosed path force).1 = 0 →
      (umount build caller table tables areAllFilesClosed path force).2 =
        (table.filter fun entry => ¬ AtOrBelow path entry.1,
          if force then closeFiles (table.filter fun entry => AtOrBelow path entry.1) tables
          else tables)) ∧
    (force = false → (umount build caller table tables areAllFilesClosed path force).1 ≠ 0 →
      (umount build caller table tables areAllFilesClosed path force).2 = (table, tables))

/-- Unmounting succeeds or leaves the mount table as it is. -/
theorem umount_cases {build : Build} {caller : Caller} (table : MountTable FS)
    {tables : DescriptorTables FS} {areAllFilesClosed : Nat → FS → Bool} (path : Path)
    {force : Bool} : umount build caller table tables areAllFilesClosed path force =
        (0, table.filter fun entry => !startsWith entry.1 path,
          if force then closeFiles (fsToUmount table path) tables else tables) ∨
      ∃ failure ≠ 0, ∃ left, umount build caller table tables areAllFilesClosed path force =
        (failure, table, left) ∧ (force = false → left = tables) := by
  unfold umount
  by_cases denied : build.withPosixPermissions = true ∧ caller.euid ≠ 0
  · rw [if_pos denied]
    exact .inr ⟨-EPERM, by decide, _, rfl, fun _ => rfl⟩
  rw [if_neg denied]
  by_cases empty : path = []
  · rw [if_pos empty]
    exact .inr ⟨-ENOENT, by decide, _, rfl, fun _ => rfl⟩
  rw [if_neg empty]
  by_cases long : build.pathMax < path.length
  · rw [if_pos long]
    exact .inr ⟨-ENAMETOOLONG, by decide, _, rfl, fun _ => rfl⟩
  rw [if_neg long]
  by_cases absent : table.lookup path = none
  · rw [if_pos absent]
    exact .inr ⟨-EINVAL, by decide, _, rfl, fun _ => rfl⟩
  rw [if_neg absent]
  dsimp only
  split
  · exact .inr ⟨-EBUSY, by decide, _, rfl, fun _ => rfl⟩
  · split
    · exact .inr ⟨-EBUSY, by decide, _, rfl, fun unforced => if_neg (by simp [unforced])⟩
    · exact .inl rfl

/-- Without open files, an allowed call succeeds. -/
theorem umount_quiet (mounted : table.lookup path ≠ none) (nonempty : path ≠ []) :
    (umount ⟨false, path.length⟩ ⟨0, 0⟩ table [] (fun _ _ => true) path false).1 = 0 := by
  have closed : (fun attempt : Nat => (fsToUmount table path).any fun entry =>
      !(fun (_ : Nat) (_ : FS) => true) attempt entry.2) = fun _ => false := by
    funext attempt
    exact any_eq_false.mpr fun _ _ => Bool.false_ne_true
  have quiet : awaitClosed false (fun _ => false) maxRetry 0 = true := rfl
  unfold umount
  rw [if_neg (fun both => nomatch both.1), if_neg nonempty, if_neg (lt_irrefl _), if_neg mounted]
  dsimp only
  rw [closed, quiet, if_neg (fun both => nomatch both.2), if_neg (by decide)]

/-- For every mount table and mount point, a successful `umount` removes exactly the mount points
at and below it and, when forced, closes the files of their filesystems, and an error without force
changes nothing, if and only if no mount point next to it has a name that starts with its name. -/
theorem umount_exact_iff (fine : ∀ entry ∈ table, MountPoint entry.1)
    (mounted : table.lookup path ≠ none) :
    UmountExact table path ↔ NoLongerName table path := by
  obtain ⟨fs, found⟩ := Option.ne_none_iff_exists'.mp mounted
  have pathFine : MountPoint path := fine _ (mem_of_lookup found)
  have nonempty : path ≠ [] := by
    rintro rfl
    rcases pathFine with root | ⟨components, lower, -, text⟩
    · nomatch root
    · obtain ⟨first, more, rfl⟩ := List.exists_cons_of_ne_nil lower
      nomatch text
  constructor
  · intro exact entry listed found
    by_contra outside
    have success := umount_quiet mounted nonempty
    have kept := ((exact ⟨false, path.length⟩ ⟨0, 0⟩ [] (fun _ _ => true) false).1 success)
    rcases umount_cases table path with removed | ⟨failure, failed, left, ended, -⟩
    · rw [removed] at kept
      have same := congrArg Prod.fst kept
      have member : entry ∈ table.filter fun entry => ¬ AtOrBelow path entry.1 :=
        List.mem_filter.mpr ⟨listed, decide_eq_true outside⟩
      dsimp only at same
      rw [← same, List.mem_filter, found] at member
      nomatch member.2
    · exact failed ((congrArg Prod.fst ended).symm.trans success)
  · intro short build caller tables areAllFilesClosed force
    rcases umount_cases table path with removed | ⟨failure, failed, left, kept, unchanged⟩
    · rw [removed, filter_not_startsWith_eq fine pathFine short, fsToUmount,
        filter_startsWith_eq fine pathFine short]
      exact ⟨fun _ => rfl, fun _ => absurd rfl⟩
    · rw [kept]
      exact ⟨fun success => absurd success failed, fun unforced _ => unchanged unforced ▸ rfl⟩

end Unmounting

/-- A filesystem below another one. -/
theorem umount_exact_below : UmountExact [([Letter.slash], 0), ([.slash, .other 1], 1),
      ([.slash, .other 1, .slash, .other 2], 2)] [.slash, .other 1] := by
  refine (umount_exact_iff ?_ (by decide)).mpr (by decide)
  intro entry listed
  simp only [List.mem_cons, List.not_mem_nil, or_false] at listed
  rcases listed with rfl | rfl | rfl
  · exact .inl rfl
  · exact .inr ⟨[[.other 1]], by decide, by simp [Name], rfl⟩
  · exact .inr ⟨[[.other 1], [.other 2]], by decide, by simp [Name], rfl⟩

/-- With filesystems on `/`, `/x` and `/xy`, unmounting `/x` by force removes the one on `/xy` and
closes its files. -/
theorem umount_removes_longer_name :
    umount ⟨false, 4096⟩ ⟨0, 0⟩ [([Letter.slash], 0), ([.slash, .other 1], 1),
        ([.slash, .other 1, .other 2], 2)] [[some ⟨7, 2⟩, some ⟨8, 0⟩]] (fun _ _ => true)
        [.slash, .other 1] true =
      (0, [([Letter.slash], 0)], [[none, some ⟨8, 0⟩]]) ∧
    ¬ AtOrBelow [.slash, .other 1] [.slash, .other 1, .other 2] ∧
    ¬ UmountExact [([Letter.slash], 0), ([.slash, .other 1], 1),
        ([.slash, .other 1, .other 2], 2)] [.slash, .other 1] := by
  refine ⟨by decide, by decide, fun exact => ?_⟩
  have kept := (exact ⟨false, 4096⟩ ⟨0, 0⟩ [] (fun _ _ => true) true).1 (by decide)
  revert kept
  decide

end Miosix.Filesystem
