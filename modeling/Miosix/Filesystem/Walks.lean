/-
This file follows a path resolution through names. A name is passed if a filesystem is mounted on
it, if the filesystem is not asked about it, or if it is a directory that the caller may search. A
path whose names are all passed is walked through one name after the other, in either build.
-/

import Miosix.Filesystem.TrailingSlash

namespace Miosix.Filesystem

open Segments PathResolution

variable {FS : Type} {around : Surroundings FS} {state next last : PathResolution FS}
  {components : List Path} {root : FS} {followLastSymlink : Bool} {rest segment : Path}
  {names : List Path}

/-! ### Rounds -/

/-- A number of rounds after each of which the loop goes on. -/
inductive Rounds (around : Surroundings FS) (followLastSymlink : Bool) :
    Nat → PathResolution FS → PathResolution FS → Prop where
  | zero (state : PathResolution FS) : Rounds around followLastSymlink 0 state state
  | succ {count : Nat} {state last : PathResolution FS} {answer : Int × PathResolution FS} :
      component around followLastSymlink state = some answer → ¬ answer.1 < 0 →
        ¬ answer.2.path.length ≤ answer.2.index →
          Rounds around followLastSymlink count answer.2 last →
            Rounds around followLastSymlink (count + 1) state last

theorem Rounds.loop_eq {count : Nat} (rounds : Rounds around followLastSymlink count state last)
    (fuel : Nat) :
    loop around followLastSymlink (fuel + count) state =
      loop around followLastSymlink fuel last := by
  induction rounds with
  | zero => rfl
  | succ step fine unfinished _ inductionHypothesis =>
    rw [← Nat.add_assoc, Filesystem.loop_eq step, if_neg fine, if_neg unfinished,
      inductionHypothesis]

/-! ### Names -/

section

variable (around : Surroundings FS) (root : FS) (components : List Path)

/-- What the filesystem of a list of components is asked about them. -/
def inner : Path :=
  (render .slash components).drop (mountEnd around root components)

/-- The components are a mount point, or their filesystem is not asked about them, or they are a
directory that the caller may search. -/
def Passable : Prop :=
  around.filesystems (render .slash components) = none →
    around.withPosixPermissions = true ∨
      around.supportsSymlinks (mount around root components).1 = true →
    Directory around (mount around root components).1 (inner around root components)

end

/-- In front of a rest, the current directory is that of the components that are handled. -/
theorem Tracked.fs_eq {rest : Option Path} (tracked : Tracked around root state components rest) :
    state.fs = (mount around root components).1 := by
  rw [tracked.located.fs_eq, tracked.root_eq]

theorem Tracked.subject_eq (tracked : Tracked around root state components (some rest)) :
    subject components state = inner around root components := by
  rw [subject, tracked.located.indexIntoFs_open tracked.place.path_eq, tracked.root_eq, inner]

/-- What is asked about the next name, if it is not a mount point. -/
theorem Tracked.subject_next (tracked : Tracked around root state components (some rest))
    (free : around.filesystems (render .slash (components ++ [segment])) = none) :
    state.fs = (mount around root (components ++ [segment])).1 ∧
      subject (components ++ [segment]) state = inner around root (components ++ [segment]) := by
  refine ⟨?_, ?_⟩
  · rw [mount_free free, tracked.fs_eq]
  · rw [subject, tracked.located.indexIntoFs_open tracked.place.path_eq, tracked.root_eq, inner,
      mountEnd_free free]

/-- A name that can be passed is passed. -/
theorem passable_step {behind : Option Path} (name : Name segment)
    (tracked : Tracked around root state components (some (segment ++ following behind)))
    (passable : Passable around root (components ++ [segment])) :
    ∃ next, component around followLastSymlink state = some (0, next) ∧
      Tracked around root next (components ++ [segment]) behind := by
  cases mounted : around.filesystems (render .slash (components ++ [segment])) with
  | some fs =>
    exact ⟨_, Round.eq tracked.place (.enter name mounted), tracked_entered name tracked mounted⟩
  | none =>
    obtain ⟨fs, question⟩ := tracked.subject_next mounted
    by_cases inspected : (around.withPosixPermissions ||
        (state.syms && if behind = none then followLastSymlink else true)) = true
    · have asked : around.withPosixPermissions = true ∨
          around.supportsSymlinks (mount around root (components ++ [segment])).1 = true := by
        rw [Bool.or_eq_true, Bool.and_eq_true] at inspected
        refine inspected.imp_right fun both => ?_
        rw [← fs, ← tracked.located.syms_eq]
        exact both.1
      have directory := passable mounted asked
      rw [← fs, ← question] at directory
      obtain ⟨stat, known, isDir, search⟩ := directory state.questions
      have granted : ¬ (around.withPosixPermissions ∧ 1 < (following behind).length ∧
          canSearchDirectory around.euid around.egid stat = false) :=
        fun denied => Bool.false_ne_true (denied.2.2.symm.trans (search denied.1))
      have step := Round.eq tracked.place (.visit name mounted (Visit.eq
        (.passed ⟨inspected, known⟩ (by simp [isLink_of_isDir isDir]) (by simp [isDir]) granted)))
      rw [excused_of_ne (show (0 : Int) ≠ -ENOENT by decide)] at step
      exact ⟨_, step, tracked_deeper name tracked mounted _ _⟩
    · have step := Round.eq tracked.place (.visit name mounted (Visit.eq (.unasked inspected)))
      rw [excused_of_ne (show (0 : Int) ≠ -ENOENT by decide)] at step
      exact ⟨_, step, tracked_deeper name tracked mounted _ _⟩

theorem render_concat_eq_following {last : Path} :
    render .slash (names ++ [last]) = following (some (render .slash (names ++ [last])).tail) := by
  cases names <;> rfl

/-- There is a round for every name, and one more. -/
theorem exists_rounds {last : Path} {extra : Nat} :
    ∃ fuel, (Letter.slash :: (render .slash (names ++ [last])).tail).length + extra + 2 =
      fuel + 1 + names.length := by
  have size := @length_render_concat _ Letter.slash names last
  have enough := length_le_length_render names
  have same : (Letter.slash :: (render .slash (names ++ [last])).tail).length =
      (render Letter.slash (names ++ [last])).length :=
    congrArg List.length render_concat_eq_following.symm
  exact ⟨(render Letter.slash (names ++ [last])).length + extra + 1 - names.length, by omega⟩

/-- Names are handled one after the other. -/
theorem rounds_of_names {last : Path}
    (fine : ∀ segment ∈ names, Name segment) (nonempty : last ≠ [])
    (passable : ∀ front more, names = front ++ more → front ≠ [] →
      Passable around root (components ++ front)) (tracked : Tracked around root state components
      (some (render .slash (names ++ [last])).tail)) :
    ∃ next, Rounds around followLastSymlink names.length state next ∧
      Tracked around root next (components ++ names) (some last) := by
  induction names generalizing state components with
  | nil =>
    have same : (render Letter.slash [last]).tail = last := List.append_nil last
    rw [List.append_nil]
    exact ⟨state, .zero state, same ▸ tracked⟩
  | cons first more inductionHypothesis =>
    have text : (render .slash (first :: more ++ [last])).tail =
        first ++ following (some (render .slash (more ++ [last])).tail) := by
      rw [← render_concat_eq_following]
      rfl
    rw [text] at tracked
    obtain ⟨next, step, after⟩ := passable_step (fine first List.mem_cons_self) tracked
      (passable [first] more rfl (List.cons_ne_nil _ _))
    have later : ∀ front others, more = front ++ others → front ≠ [] →
        Passable around root (components ++ [first] ++ front) := by
      intro front others split _
      rw [List.append_assoc]
      exact passable (first :: front) others (congrArg (first :: ·) split) (List.cons_ne_nil _ _)
    obtain ⟨final, rounds, there⟩ := inductionHypothesis
      (fun segment listed => fine segment (List.mem_cons_of_mem _ listed)) later after
    have unfinished : ¬ next.path.length ≤ next.index := by
      intro ended
      have short := after.place.ended_iff.mp ended
      rw [← render_concat_eq_following, length_render_concat] at short
      have positive := List.length_pos_of_ne_nil nonempty
      omega
    refine ⟨final, .succ step (lt_irrefl 0) unfinished rounds, ?_⟩
    rwa [List.append_assoc] at there

end Miosix.Filesystem
