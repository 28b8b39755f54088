/-
This file settles what sequences of `kmount` and `umount` do to the mount table. Paths are resolved
before they become keys, so different spellings of a directory have one key. There are two slips.
The key of the first root is `/`, but the canonical path of the root directory is empty, so a second
filesystem can be mounted on the root. And the check that only root may mount looks at the effective
group id instead of the effective user id.
-/

import Miosix.Lib.Transition
import Miosix.Filesystem.Umount

namespace Miosix.Filesystem

open Segments Transition List

variable {FS : Type} {table after : MountTable FS} {build : Build} {contents : Contents FS}
  {caller : Caller} {path key : Path} {mounting : Option FS} {result : Int}

/-! ### Keys -/

theorem Canonical.exists_components (canonical : Canonical path) :
    ∃ components, (∀ segment ∈ components, Name segment) ∧ path = render .slash components := by
  rcases canonical.absolute with rfl | absolute
  · exact ⟨[], nofun, rfl⟩
  · obtain ⟨rest, rfl⟩ := exists_of_head absolute
    have names := canonical.names
    exact ⟨rest.splitOn .slash, names, render_splitOn.symm⟩

/-- There is no slash at the end of a canonical path. -/
theorem withoutTrailingSlash_render {components : List Path}
    (names : ∀ segment ∈ components, Name segment) :
    withoutTrailingSlash (render .slash components) = render .slash components := by
  refine if_neg ?_
  rcases eq_nil_or_concat' components with rfl | ⟨init, last, rfl⟩
  · exact nofun
  · obtain ⟨nonempty, plain, -⟩ := names last (mem_append_right _ mem_cons_self)
    rw [render_concat, List.getLast?_append, List.getLast?_cons,
      List.getLast?_eq_some_getLast nonempty]
    intro same
    exact plain (Option.some.inj same ▸ getLast_mem nonempty)

/-- Different keys are different directories. -/
theorem MountPoint.eq_of_directoryOf_eq {first second : Path} (firstFine : MountPoint first)
    (secondFine : MountPoint second) (same : directoryOf first = directoryOf second) :
    first = second := by
  rcases firstFine with rfl | ⟨components, nonempty, names, rfl⟩
  · rcases secondFine with rfl | ⟨others, otherNonempty, otherNames, rfl⟩
    · rfl
    · rw [directoryOf_root, directoryOf_render otherNames] at same
      exact absurd same.symm otherNonempty
  · rcases secondFine with rfl | ⟨others, otherNonempty, otherNames, rfl⟩
    · rw [directoryOf_root, directoryOf_render names] at same
      contradiction
    · rw [directoryOf_render names, directoryOf_render otherNames] at same
      rw [same]

/-! ### Calls -/

/-- A call of `kmount` or `umount`, with the state of everything else when it is made. -/
inductive MountCall (FS : Type) where
  | kmount (contents : Contents FS) (caller : Caller) (path : Path) (fs : Option FS)
  | umount (caller : Caller) (tables : DescriptorTables FS) (areAllFilesClosed : Nat → FS → Bool)
      (path : Path) (force : Bool)

/-- The mount table after a call. -/
def execMount [DecidableEq FS] (build : Build) (table : MountTable FS) :
    MountCall FS → Option (MountTable FS)
  | .kmount contents caller path fs =>
      (Filesystem.kmount build contents caller table path fs).map Prod.snd
  | .umount caller tables areAllFilesClosed path force =>
      some (Filesystem.umount build caller table tables areAllFilesClosed path force).2.1

/-- A call is made by a user that is root if the group is, and it does not mount on the root
directory except for the first filesystem. -/
def Orderly (build : Build) (table : MountTable FS) : MountCall FS → Prop
  | .kmount contents caller path _ =>
      (build.withPosixPermissions = true → caller.egid = 0 → caller.euid = 0) ∧
      ∀ resolved, managerResolve (surroundings build contents caller table) path false =
        some (.ok resolved) → resolved.path ≠ []
  | .umount _ _ _ _ _ => True

/-! ### Mounting -/

/-- What is known of a key when the directory passed the checks. -/
theorem mountDirectory_spec
    (checked : mountDirectory (surroundings build contents caller table) path = some (.ok key)) :
    ∃ resolved stat, managerResolve (surroundings build contents caller table) path false =
        some (.ok resolved) ∧ contents.lstat resolved.fs resolved.inside = .ok stat ∧
      stat.isDir = true ∧ key = resolved.path ∧
      ∃ components, (∀ segment ∈ components, Name segment) ∧ key = render .slash components := by
  unfold mountDirectory at checked
  split at checked
  · nomatch checked
  · nomatch checked
  · rename_i found stat known
    obtain ⟨resolved, resolves, answered, rfl⟩ := statHelper_eq_ok known
    split at checked
    · nomatch checked
    · rename_i directory
      obtain ⟨parent, -, passed⟩ := Option.map_eq_some_iff.mp checked
      obtain ⟨components, names, text⟩ := (canonical_of_managerResolve
        (rootUnlinked_surroundings build contents caller table) resolves).1.exists_components
      have same : key = resolved.path := by
        cases parent with
        | error result => nomatch passed
        | ok _ =>
          cases passed
          rw [text, withoutTrailingSlash_render names]
      exact ⟨resolved, stat, resolves, answered, Bool.eq_true_of_not_eq_false directory, same,
        components, names, same.trans text⟩

theorem negative_of_mountDirectory {code : Int}
    (failed : mountDirectory (surroundings build contents caller table) path =
      some (.error code)) : code < 0 := by
  unfold mountDirectory at failed
  split at failed
  · nomatch failed
  · rename_i result stopped
    cases failed
    exact negative_of_statHelper stopped
  · split at failed
    · cases failed
      decide
    · obtain ⟨parent, known, given⟩ := Option.map_eq_some_iff.mp failed
      cases parent with
      | error result =>
        cases given
        exact negative_of_statHelper known
      | ok _ => nomatch given

theorem mountDirectory_ne_none {around : Surroundings FS} : mountDirectory around path ≠ none := by
  unfold mountDirectory
  split
  · rename_i missing
    exact absurd missing (statHelper_ne_none around path false)
  · exact Option.some_ne_none _
  · split
    · exact Option.some_ne_none _
    · rw [Ne, Option.map_eq_none_iff]
      exact statHelper_ne_none around _ false

/-- Every call has an answer. -/
theorem kmount_ne_none : kmount build contents caller table path mounting ≠ none := by
  unfold kmount
  split
  · exact Option.some_ne_none _
  · split
    · exact Option.some_ne_none _
    · cases mounting with
      | none => exact Option.some_ne_none _
      | some fs =>
        dsimp only
        split
        · exact Option.some_ne_none _
        · split
          · exact Option.some_ne_none _
          · rw [Ne, Option.map_eq_none_iff]
            exact mountDirectory_ne_none

/-- A call that has an answer fails and changes nothing, or it mounts a filesystem on a key that was
free. -/
theorem kmount_spec
    (called : kmount build contents caller table path mounting = some (result, after)) :
    result ≠ 0 ∧ after = table ∨
      result = 0 ∧ ¬ (build.withPosixPermissions = true ∧ caller.egid ≠ 0) ∧
        ∃ fs key, mounting = some fs ∧ table.lookup key = none ∧ after = table ++ [(key, fs)] ∧
          (key = [.slash] ∧ path = [.slash] ∧ table = [] ∨
            mountDirectory (surroundings build contents caller table) path = some (.ok key)) := by
  have inserted : ∀ (key : Path) (fs : FS), insertMount table key fs = (result, after) →
      result ≠ 0 ∧ after = table ∨
        result = 0 ∧ table.lookup key = none ∧ after = table ++ [(key, fs)] := by
    intro key fs insertion
    unfold insertMount at insertion
    split at insertion
    · rename_i free
      cases insertion
      exact .inr ⟨rfl, free, rfl⟩
    · cases insertion
      exact .inl ⟨by decide, rfl⟩
  unfold kmount at called
  split at called
  · cases called
    exact .inl ⟨by decide, rfl⟩
  · rename_i permitted
    split at called
    · cases called
      exact .inl ⟨by decide, rfl⟩
    · cases mounting with
      | none =>
        cases called
        exact .inl ⟨by decide, rfl⟩
      | some fs =>
        dsimp only at called
        split at called
        · cases called
          exact .inl ⟨by decide, rfl⟩
        · split at called
          · rename_i first
            rcases inserted path fs (Option.some.inj called) with failed | ⟨zero, free, grown⟩
            · exact .inl failed
            · exact .inr ⟨zero, permitted, fs, path, rfl, free, grown,
                .inl ⟨first.1, first.1, first.2⟩⟩
          · obtain ⟨answer, checked, given⟩ := Option.map_eq_some_iff.mp called
            cases answer with
            | error code =>
              cases given
              exact .inl ⟨(negative_of_mountDirectory checked).ne, rfl⟩
            | ok key =>
              rcases inserted key fs given with failed | ⟨zero, free, grown⟩
              · exact .inl failed
              · exact .inr ⟨zero, permitted, fs, key, rfl, free, grown, .inr checked⟩

/-! ### Sequences of calls -/

/-- Every key is a directory, and no two entries have one key. -/
structure Exclusive (table : MountTable FS) : Prop where
  fine : ∀ entry ∈ table, MountPoint entry.1
  distinct : (table.map Prod.fst).Nodup

theorem Exclusive.filter (exclusive : Exclusive table) (kept : Path × FS → Bool) :
    Exclusive (table.filter kept) where
  fine entry listed := exclusive.fine entry (mem_of_mem_filter listed)
  distinct := exclusive.distinct.sublist (filter_sublist.map Prod.fst)

theorem Exclusive.insert {fs : FS} (exclusive : Exclusive table) (fine : MountPoint key)
    (free : table.lookup key = none) : Exclusive (table ++ [(key, fs)]) where
  fine entry listed := by
    rcases mem_append.mp listed with old | new
    · exact exclusive.fine entry old
    · rw [mem_singleton.mp new]
      exact fine
  distinct := by
    rw [map_append, nodup_append]
    refine ⟨exclusive.distinct, nodup_singleton _, ?_⟩
    intro other listed new last
    obtain ⟨entry, old, rfl⟩ := mem_map.mp listed
    rw [mem_singleton.mp last]
    exact lookup_eq_none.mp free entry old

/-- Two entries of the table are not on one directory. -/
theorem Exclusive.nodup_directories (exclusive : Exclusive table) :
    (table.map fun entry => directoryOf entry.1).Nodup := by
  have composed : (table.map fun entry => directoryOf entry.1) =
      (table.map Prod.fst).map directoryOf := by
    rw [map_map]
    rfl
  rw [composed]
  refine exclusive.distinct.map_on ?_
  intro first firstListed second secondListed same
  obtain ⟨firstEntry, firstMember, rfl⟩ := mem_map.mp firstListed
  obtain ⟨secondEntry, secondMember, rfl⟩ := mem_map.mp secondListed
  exact (exclusive.fine _ firstMember).eq_of_directoryOf_eq (exclusive.fine _ secondMember) same

/-- A key that passed the checks of an orderly call is a directory below the root. -/
theorem mountPoint_of_orderly
    (orderly : Orderly build table (.kmount contents caller path mounting))
    (checked : mountDirectory (surroundings build contents caller table) path = some (.ok key)) :
    MountPoint key := by
  obtain ⟨resolved, stat, resolves, -, -, same, components, names, text⟩ :=
    mountDirectory_spec checked
  refine .inr ⟨components, ?_, names, text⟩
  rintro rfl
  exact orderly.2 resolved resolves (same ▸ text)

theorem Exclusive.exec [DecidableEq FS] {next : MountTable FS} {call : MountCall FS}
    (exclusive : Exclusive table) (orderly : Orderly build table call)
    (stepped : execMount build table call = some next) : Exclusive next := by
  cases call with
  | kmount contents caller path fs =>
    obtain ⟨⟨result, after⟩, called, rfl⟩ := Option.map_eq_some_iff.mp stepped
    rcases kmount_spec called with ⟨-, rfl⟩ | ⟨-, -, mounted, key, -, free, rfl, place⟩
    · exact exclusive
    · refine exclusive.insert ?_ free
      rcases place with ⟨rfl, -⟩ | checked
      · exact .inl rfl
      · exact mountPoint_of_orderly orderly checked
  | umount caller tables areAllFilesClosed path force =>
    cases stepped
    rcases umount_cases table path with removed | ⟨_, -, _, kept, -⟩
    · rw [removed]
      exact exclusive.filter _
    · rw [kept]
      exact exclusive

/-- What is expected of a call of `kmount`. A failing one changes nothing. A success is on a
directory that exists and that no filesystem is mounted on, unless it is the first root, and it is a
success of root. A directory that passes the checks and that a filesystem is mounted on is busy. -/
structure MountsOnce (build : Build) (contents : Contents FS) (caller : Caller)
    (table : MountTable FS) (path : Path) (mounting : Option FS) (result : Int)
    (after : MountTable FS) : Prop where
  unchanged : result ≠ 0 → after = table
  root : result = 0 → build.withPosixPermissions = true → caller.euid = 0
  existing : result = 0 → path = [.slash] ∧ table = [] ∨
    ∃ resolved stat, managerResolve (surroundings build contents caller table) path false =
        some (.ok resolved) ∧
      contents.lstat resolved.fs resolved.inside = .ok stat ∧ stat.isDir = true ∧
      (∀ entry ∈ table, directoryOf entry.1 ≠ directoryOf resolved.path) ∧
      ∃ fs, mounting = some fs ∧ after = table ++ [(resolved.path, fs)]
  busy : ∀ key entry, mountDirectory (surroundings build contents caller table) path =
    some (.ok key) → entry ∈ table → directoryOf entry.1 = directoryOf key →
      ¬ (build.withPosixPermissions = true ∧ caller.egid ≠ 0) → mounting ≠ none →
        path.length ≤ build.pathMax → result = -EBUSY

/-- A directory that passes the checks is looked up in the table. -/
theorem kmount_checked {fs : FS}
    (checked : mountDirectory (surroundings build contents caller table) path = some (.ok key))
    (permitted : ¬ (build.withPosixPermissions = true ∧ caller.egid ≠ 0))
    (short : path.length ≤ build.pathMax) (nonempty : table ≠ []) :
    kmount build contents caller table path (some fs) = some (insertMount table key fs) := by
  obtain ⟨resolved, -, resolves, -⟩ := mountDirectory_spec checked
  have absolute := (canonical_of_managerResolve
    (rootUnlinked_surroundings build contents caller table) resolves).2.1
  have given : path ≠ [] := by
    rintro rfl
    nomatch absolute
  unfold kmount
  rw [if_neg permitted, if_neg given]
  dsimp only
  rw [if_neg (not_lt.mpr short), if_neg fun first => nonempty first.2, checked]
  rfl

theorem Exclusive.mountsOnce (exclusive : Exclusive table)
    (orderly : Orderly build table (.kmount contents caller path mounting))
    (called : kmount build contents caller table path mounting = some (result, after)) :
    MountsOnce build contents caller table path mounting result after := by
  have used : ∀ {key : Path} {entry : Path × FS},
      mountDirectory (surroundings build contents caller table) path = some (.ok key) →
        entry ∈ table → directoryOf entry.1 = directoryOf key → table.lookup key ≠ none := by
    intro key entry checked listed same free
    exact lookup_eq_none.mp free entry listed ((exclusive.fine entry listed).eq_of_directoryOf_eq
      (mountPoint_of_orderly orderly checked) same)
  have succeeds (success : result = 0) :=
    (kmount_spec called).resolve_left fun failed => failed.1 success
  refine ⟨fun failed => ?_, fun success permissions => ?_, fun success => ?_,
    fun key entry checked listed same permitted given short => ?_⟩
  · exact ((kmount_spec called).resolve_right fun succeeded => failed succeeded.1).2
  · obtain ⟨-, permitted, -⟩ := succeeds success
    exact orderly.1 permissions (not_not.mp fun foreign => permitted ⟨permissions, foreign⟩)
  · obtain ⟨-, -, fs, key, rfl, free, rfl, ⟨-, first, empty⟩ | checked⟩ := succeeds success
    · exact .inl ⟨first, empty⟩
    · obtain ⟨resolved, stat, resolves, known, directory, rfl, -⟩ := mountDirectory_spec checked
      exact .inr ⟨resolved, stat, resolves, known, directory,
        fun entry listed same => used checked listed same free, fs, rfl, rfl⟩
  · obtain ⟨fs, rfl⟩ := Option.ne_none_iff_exists'.mp given
    rw [kmount_checked checked permitted short (ne_nil_of_mem listed), insertMount,
      if_neg (used checked listed same)] at called
    cases called
    rfl

/-- In every sequence of orderly calls no two filesystems are mounted on one directory, and every
orderly call of `kmount` succeeds only for root and only on an existing directory that is free or as
the first root, is busy on a directory that is not free, and changes nothing when it fails. -/
theorem kmount_mounts_once [DecidableEq FS] {calls : List (MountCall FS)}
    (run : Run (execMount build) (Orderly build) [] calls table) :
    (table.map fun entry => directoryOf entry.1).Nodup ∧
    ∀ contents caller path mounting, Orderly build table (.kmount contents caller path mounting) →
        ∃ result after, kmount build contents caller table path mounting = some (result, after) ∧
          MountsOnce build contents caller table path mounting result after := by
  have exclusive : Exclusive table :=
    run.invariant Exclusive (fun _ _ _ holds orderly => holds.exec orderly) ⟨nofun, List.nodup_nil⟩
  refine ⟨exclusive.nodup_directories, fun contents caller path mounting orderly => ?_⟩
  obtain ⟨⟨result, after⟩, called⟩ := Option.ne_none_iff_exists'.mp kmount_ne_none
  exact ⟨result, after, called, exclusive.mountsOnce orderly called⟩

/-- Another spelling of a directory that is mounted already. -/
theorem kmount_mounts_once_below_root :
    ∃ result after, kmount ⟨true, 4096⟩ (directories 0 0x41ff#32 rfl) ⟨0, 0⟩
        [([.slash], 0), ([.slash, .other 1], 1)] [.slash, .slash, .other 1, .slash, .dot]
        (some 2) = some (result, after) ∧
      MountsOnce ⟨true, 4096⟩ (directories 0 0x41ff#32 rfl) ⟨0, 0⟩
        [([.slash], 0), ([.slash, .other 1], 1)] [.slash, .slash, .other 1, .slash, .dot] (some 2)
        result after := by
  have run : Run (execMount ⟨true, 4096⟩) (Orderly ⟨true, 4096⟩) []
      [.kmount (directories 0 0x41ff#32 rfl) ⟨0, 0⟩ [.slash] (some 0),
        .kmount (directories 0 0x41ff#32 rfl) ⟨0, 0⟩ [.slash, .other 1] (some 1)]
      [([.slash], 0), ([.slash, .other 1], 1)] := by
    refine .cons ⟨fun _ _ => rfl, fun resolved found => ?_⟩ rfl
      (.cons ⟨fun _ _ => rfl, fun resolved found => ?_⟩ rfl (.nil _))
    · nomatch found
    · cases found
      exact List.cons_ne_nil _ _
  refine (kmount_mounts_once run).2 _ _ _ _ ⟨fun _ _ => rfl, fun resolved found => ?_⟩
  cases found
  exact List.cons_ne_nil _ _

/-- A second filesystem is mounted on the root, and a user that is not root but whose group is
root's mounts a filesystem. -/
theorem root_is_mounted_twice : (∃ table, Run (execMount ⟨false, 4096⟩) unrestricted []
        [.kmount (directories 0 0x41ff#32 rfl) ⟨0, 0⟩ [.slash] (some 0),
          .kmount (directories 0 0x41ff#32 rfl) ⟨0, 0⟩ [.slash] (some 1)] table ∧
      table = [([.slash], 0), ([], 1)] ∧
      ¬ (table.map fun entry => directoryOf entry.1).Nodup) ∧
    kmount ⟨true, 4096⟩ (directories 0 0x41ff#32 rfl) ⟨5, 0⟩ [([.slash], 0)] [.slash, .other 1]
      (some 1) = some (0, [([.slash], 0), ([.slash, .other 1], 1)]) := by
  refine ⟨⟨_, .cons trivial rfl (.cons trivial rfl (.nil _)), rfl, ?_⟩, rfl⟩
  exact (by decide : ¬ ([([Letter.slash], 0), ([], 1)].map fun entry : Path × Nat =>
    directoryOf entry.1).Nodup)

end Miosix.Filesystem
