/-
This file settles which directories a path resolution goes through, in a build with permissions.
Every directory in which a component is looked for was inspected before, except for the root
directories of mounted filesystems: where a filesystem is mounted on a name, nothing is asked about
it. The directories that are inspected pass the test of the code, which grants more than the rule of
POSIX. So every directory that is gone through may be searched by the rule exactly if this is the
case for all directories to which these two slips give access.
-/

import Miosix.Filesystem.Choice
import Miosix.Filesystem.Manager

namespace Miosix.Filesystem

open Segments PathResolution List

variable {FS : Type} {around : Surroundings FS} {state next : PathResolution FS}
  {components : List Path} {root : FS} {followLastSymlink : Bool} {segment rest : Path}
  {answer : Int × PathResolution FS}

/-! ### Contents that do not change -/

/-- The answers of the filesystems do not depend on earlier questions, and errors are negative. -/
structure Steady (around : Surroundings FS) : Prop where
  lstat_eq : ∀ questions fs path, around.lstat questions fs path = around.lstat 0 fs path
  readlink_eq : ∀ questions fs path, around.readlink questions fs path = around.readlink 0 fs path
  lstat_negative : ∀ questions fs path result,
    around.lstat questions fs path = .error result → result < 0
  readlink_negative : ∀ questions fs path result,
    around.readlink questions fs path = .error result → result < 0
  unlinked : RootUnlinked around

theorem steady_surroundings (build : Build) (contents : Contents FS) (caller : Caller)
    (table : MountTable FS) : Steady (surroundings build contents caller table) where
  lstat_eq _ _ _ := rfl
  readlink_eq _ _ _ := rfl
  lstat_negative _ := contents.lstat_negative
  readlink_negative _ := contents.readlink_negative
  unlinked := rootUnlinked_surroundings build contents caller table

theorem Steady.directory {questions : Nat} {fs : FS} {path : Path} {stat : Stat}
    (steady : Steady around) (known : around.lstat questions fs path = .ok stat)
    (isDir : stat.isDir = true)
    (search : around.withPosixPermissions = true →
      canSearchDirectory around.euid around.egid stat = true) : Directory around fs path := by
  intro others
  refine ⟨stat, ?_, isDir, search⟩
  rw [steady.lstat_eq, ← steady.lstat_eq questions, known]

/-- What the filesystem of a canonical path says about it. -/
def statAt (around : Surroundings FS) (root : FS) (components : List Path) : Except Int Stat :=
  around.lstat 0 (mount around root components).1 (inner around root components)

/-- What is asked about the next name, if it is not a mount point. -/
theorem Tracked.lstat_next (tracked : Tracked around root state components (some rest))
    (steady : Steady around)
    (free : around.filesystems (render .slash (components ++ [segment])) = none) (questions : Nat) :
    around.lstat questions state.fs (subject (components ++ [segment]) state) =
      statAt around root (components ++ [segment]) := by
  obtain ⟨fs, question⟩ := tracked.subject_next free
  rw [steady.lstat_eq, fs, question, statAt]

/-! ### The directories of a walk -/

section

variable (around : Surroundings FS)

/-- The state with which the loop of `resolvePath` starts. -/
def Begins (path : Path) (state : PathResolution FS) : Prop :=
  ∃ root, around.filesystems [.slash] = some root ∧
    if around.withPosixPermissions = true then
      ∃ result, normalPathComponent around (start around root path) false =
        some (result, state) ∧ ¬ result < 0
    else state = start around root path

/-- A component is looked for in the directory. -/
def Traversed (path : Path) (followLastSymlink : Bool) (fs : FS) (directory : Path) : Prop :=
  ∃ first state count, Begins around path first ∧
    Rounds around followLastSymlink count first state ∧
    (findFirst .slash state.path state.index).getD state.path.length ≠ state.index ∧
    state.fs = fs ∧ stringPart state.path (state.index - 1) state.indexIntoFs = directory

/-- The rule of POSIX grants the search of the directory. -/
def MaySearch (fs : FS) (directory : Path) : Prop :=
  ∃ stat, around.lstat 0 fs directory = .ok stat ∧
    Right.granted around.euid around.egid stat .execute = true

/-- Every directory that a successful resolution goes through may be searched. -/
def SearchesPermitted : Prop :=
  ∀ path followLastSymlink resolved, path.head? = some .slash →
    resolvePath around path followLastSymlink = some (.ok resolved) →
      ∀ fs directory, Traversed around path followLastSymlink fs directory →
        MaySearch around fs directory

/-- A directory may be searched if all directories on the way to it that are not mount points, and
the directory itself if it is not one, pass the test of the code. -/
def PassableSearchable (root : FS) : Prop :=
  ∀ components, (∀ segment ∈ components, Name segment) →
    (∀ front, front <+: components → Passable around root front) →
      MaySearch around (mount around root components).1 (inner around root components)

/-! ### Every directory is passable -/

/-- In front of more than a slash, all directories on the way were passed. -/
structure Searched (root : FS) (state : PathResolution FS)
    (components : List Path) (rest : Path) : Prop where
  tracked : Tracked around root state components (some rest)
  passed : rest ≠ [] → ∀ front, front <+: components → Passable around root front

end

theorem passable_concat (passed : ∀ front, front <+: components → Passable around root front)
    (new : Passable around root (components ++ [segment])) :
    ∀ front, front <+: components ++ [segment] → Passable around root front := by
  intro front before
  rcases prefix_concat_iff.mp before with whole | shorter
  · rw [whole]
    exact new
  · exact passed front shorter

/-- What is known of a name that is not a mount point when it was visited. A link leads on from the
root or from the directory of the name, or the state is behind the name, which may be passed if
there is no error. -/
theorem visited_outcome {behind : Option Path} (steady : Steady around) (name : Name segment)
    (tracked : Tracked around root state components (some (segment ++ following behind)))
    (free : around.filesystems (render .slash (components ++ [segment])) = none)
    {followIfSymlink : Bool}
    (visit : visited around (components ++ [segment]) components behind followIfSymlink
      { state with index := state.index + segment.length + 1 } = answer) :
    (∃ more later, (later = [] ∨ later = components) ∧
      Tracked around root answer.2 later (some more)) ∨
    Tracked around root answer.2 (components ++ [segment]) behind ∧
      (¬ answer.1 < 0 → (around.withPosixPermissions || (state.syms && followIfSymlink)) = true →
        ∃ stat, statAt around root (components ++ [segment]) = .ok stat ∧
          (behind ≠ none → stat.isDir = true) ∧
          (around.withPosixPermissions = true → 1 < (following behind).length →
            canSearchDirectory around.euid around.egid stat = true)) := by
  have same := tracked.lstat_next steady free state.questions
  have stays (linksFollowed questions : Nat) :=
    tracked_deeper name tracked free linksFollowed questions
  cases visited_visit visit with
  | unasked omits => exact .inr ⟨stays _ _, fun _ asks => absurd asks omits⟩
  | missing asked => exact .inr ⟨stays _ _, absurd (steady.lstat_negative _ _ _ _ asked.known)⟩
  | link asked link pursuit =>
    cases pursuit with
    | loops => exact .inr ⟨stays _ _, absurd (by decide : -ELOOP < 0)⟩
    | unread reads =>
      exact .inr ⟨stays _ _, absurd (steady.readlink_negative _ _ _ _ reads.read)⟩
    | empty reads => exact .inr ⟨stays _ _, absurd (by decide : -ENOENT < 0)⟩
    | tooLong => exact .inr ⟨stays _ _, absurd (by decide : -ENAMETOOLONG < 0)⟩
    | absolute => exact .inl ⟨_, _, .inl rfl, tracked_absolute tracked.root_eq⟩
    | relative => exact .inl ⟨_, _, .inr rfl, tracked_relative tracked rfl⟩
  | file => exact .inr ⟨stays _ _, absurd (by decide : -ENOTDIR < 0)⟩
  | denied => exact .inr ⟨stays _ _, absurd (by decide : -EACCES < 0)⟩
  | @passed stat asked unlinked directory granted =>
    refine .inr ⟨stays _ _, fun _ _ => ⟨stat, same.symm.trans asked.known, fun open_ => ?_,
      fun permissions further => ?_⟩⟩
    · by_contra file
      exact directory ⟨open_, Bool.eq_false_of_not_eq_true file⟩
    · by_contra denied
      exact granted ⟨permissions, further, Bool.eq_false_of_not_eq_true denied⟩

/-- What a round without an error does. It goes back to a prefix of the components, or it adds a
name, which may be passed if more than a slash follows it. -/
theorem round_outcome (steady : Steady around)
    (tracked : Tracked around root state components (some rest))
    (step : component around followLastSymlink state = some answer) (fine : ¬ answer.1 < 0) :
    (∃ later laterRest, later <+: components ∧ Tracked around root answer.2 later laterRest) ∨
    (∃ later, later <+: components ∧ Missed around answer.2 later) ∨
    ∃ segment behind, Tracked around root answer.2 (components ++ [segment]) behind ∧
      (1 < (following behind).length → Passable around root (components ++ [segment])) := by
  cases component_round tracked.place step with
  | skip plain skipped => exact .inl ⟨_, _, prefix_rfl, tracked.skip plain skipped⟩
  | top => exact absurd (by decide : -ENOENT < 0) fine
  | up up =>
    rcases tracked.up_spec up with ⟨above | ⟨-, missed⟩, -⟩
    · exact .inl ⟨_, _, prefix_append _ _, above⟩
    · exact .inr (.inl ⟨_, prefix_append _ _, missed⟩)
  | @enter _ segment behind fs name mounted =>
    refine .inr (.inr ⟨segment, behind, tracked_entered name tracked mounted, fun _ free => ?_⟩)
    rw [mounted] at free
    contradiction
  | @visit _ segment behind visit name free visiting =>
    dsimp only [excused] at fine ⊢
    rcases visited_outcome steady name tracked free visiting with
      ⟨more, later, back, there⟩ | ⟨there, passed⟩
    · refine .inl ⟨later, _, ?_, there⟩
      rcases back with same | same
      · rw [same]
        exact nil_prefix
      · rw [same]
    · refine .inr (.inr ⟨segment, behind, there, fun further _ asked => ?_⟩)
      rw [tolerated_eq there.place, decide_eq_false (by omega), Bool.and_false,
        if_neg Bool.false_ne_true] at fine
      have open_ : behind ≠ none := by
        rintro rfl
        contradiction
      have inspected : (around.withPosixPermissions ||
          (state.syms && if behind = none then followLastSymlink else true)) = true := by
        rw [if_neg open_, Bool.and_true, tracked.located.syms_eq,
          (tracked.subject_next free).1, Bool.or_eq_true]
        exact asked
      obtain ⟨stat, known, directory, search⟩ := passed fine inspected
      exact steady.directory known (directory open_) fun permissions =>
        search permissions further

theorem ended_of_nil (tracked : Tracked around root state components (some []))
    (step : component around followLastSymlink state = some answer) :
    answer.2.path.length ≤ answer.2.index := by
  have skip := @Round.eq _ around _ _ _ _ followLastSymlink tracked.place
    (@Round.skip _ _ _ _ _ [] none not_mem_nil (.inl rfl))
  cases skip.symm.trans step
  have after := @Tracked.skip _ around _ _ root [] none not_mem_nil (.inl rfl) tracked
  exact after.place.ended_iff.mpr le_rfl

/-- A round after which the loop goes on has passed all directories on the way. -/
theorem Searched.round (steady : Steady around)
    (searched : Searched around root state components rest)
    (step : component around followLastSymlink state = some answer) (fine : ¬ answer.1 < 0)
    (unfinished : ¬ answer.2.path.length ≤ answer.2.index) :
    ∃ later more, Searched around root answer.2 later more := by
  have passed := searched.passed fun nothing =>
    unfinished (ended_of_nil (nothing ▸ searched.tracked) step)
  have open_ : ∀ {later : List Path} {laterRest : Option Path}, At answer.2 later laterRest →
      1 < (following laterRest).length := fun place =>
    not_le.mp fun short => unfinished (place.ended_iff.mpr short)
  have some_of_open : ∀ {laterRest : Option Path}, 1 < (following laterRest).length →
      ∃ more, laterRest = some more := by
    intro laterRest further
    cases laterRest with
    | none => contradiction
    | some more => exact ⟨more, rfl⟩
  rcases round_outcome steady searched.tracked step fine with
    ⟨later, laterRest, back, there⟩ | ⟨later, -, missed⟩ | ⟨segment, behind, there, passable⟩
  · obtain ⟨more, rfl⟩ := some_of_open (open_ there.place)
    exact ⟨later, more, there, fun _ front before => passed front (before.trans back)⟩
  · exact absurd (open_ missed.place) (by decide)
  · obtain ⟨more, rfl⟩ := some_of_open (open_ there.place)
    exact ⟨_, more, there, fun _ => passable_concat passed (passable (open_ there.place))⟩

theorem Searched.rounds {count : Nat} {last : PathResolution FS}
    (steady : Steady around) (searched : Searched around root state components rest)
    (rounds : Rounds around followLastSymlink count state last) :
    ∃ later more, Searched around root last later more := by
  induction rounds generalizing components rest with
  | zero => exact ⟨components, rest, searched⟩
  | succ step fine unfinished _ inductionHypothesis =>
    obtain ⟨later, more, after⟩ := searched.round steady step fine unfinished
    exact inductionHypothesis after

/-! ### The start -/

section Start

variable (permissions : around.withPosixPermissions = true)
  (mounted : around.filesystems [.slash] = some root) (unnamed : around.filesystems [] = none)
  (unlinked : RootUnlinked around)

include permissions mounted unnamed unlinked

theorem begins_iff : Begins around (.slash :: rest) state ↔
      ¬ rootCheck around root rest < 0 ∧ state = entry around root (.slash :: rest) := by
  have first := @normalPathComponent_root _ _ root rest permissions unnamed
    (unlinked permissions root · mounted)
  constructor
  · rintro ⟨other, found, begun⟩
    rw [mounted] at found
    cases found
    rw [if_pos permissions] at begun
    obtain ⟨result, same, fine⟩ := begun
    rw [first] at same
    cases same
    exact ⟨fine, rfl⟩
  · rintro ⟨fine, rfl⟩
    refine ⟨root, mounted, ?_⟩
    rw [if_pos permissions]
    exact ⟨_, first, fine⟩

end Start

theorem searched_entry (steady : Steady around) (fine : ¬ rootCheck around root rest < 0) :
    Searched around root (entry around root (.slash :: rest)) [] rest where
  tracked := tracked_entry rest
  passed open_ front before := by
    rw [prefix_nil.mp before]
    intro _ _
    unfold rootCheck at fine
    cases known : around.lstat 0 root [] with
    | error result =>
      rw [known] at fine
      exact absurd (steady.lstat_negative _ _ _ _ known) fine
    | ok stat =>
      rw [known] at fine
      dsimp only at fine
      split at fine
      · contradiction
      · rename_i directory
        split at fine
        · contradiction
        · rename_i granted
          refine steady.directory known (Bool.eq_true_of_not_eq_false directory) fun _ => ?_
          by_contra denied
          exact granted ⟨length_pos_of_ne_nil open_, Bool.eq_false_of_not_eq_true denied⟩

/-! ### The result -/

section

variable (permissions : around.withPosixPermissions = true)
  (mounted : around.filesystems [.slash] = some root) (unnamed : around.filesystems [] = none)
  (steady : Steady around)

include permissions mounted unnamed steady

theorem searchesPermitted_of_passableSearchable (searchable : PassableSearchable around root) :
    SearchesPermitted around := by
  rintro path followLastSymlink resolved absolute - fs directory
    ⟨first, state, count, begun, rounds, named, rfl, rfl⟩
  obtain ⟨rest, rfl⟩ := exists_of_head absolute
  obtain ⟨fine, rfl⟩ := (begins_iff permissions mounted unnamed steady.unlinked).mp begun
  obtain ⟨components, more, searched⟩ := (searched_entry steady fine).rounds steady rounds
  have tracked := searched.tracked
  have further : more ≠ [] := by
    rintro rfl
    refine named ?_
    exact @At.slash_eq _ state components [] none tracked.place not_mem_nil
  rw [tracked.place.stringPart_eq, tracked.subject_eq, tracked.fs_eq]
  exact searchable components tracked.names (searched.passed further)

theorem passableSearchable_of_searchesPermitted (permitted : SearchesPermitted around) :
    PassableSearchable around root := by
  intro components names passable
  obtain ⟨fuel, next, there, rounds, resolution⟩ := resolvePath_names mounted unnamed
    steady.unlinked names (cons_ne_nil _ _) passable false
  have ended := @loop_unnamed _ around next components root [.dot] none (by decide) (.inr rfl) rfl
    there false fuel
  have checked := rootCheck_directory permissions
    (passable [] nil_prefix unnamed (.inl permissions))
    (render .slash (components ++ [[.dot]])).tail
  rw [render_concat_eq_following] at rounds resolution
  have begun := (begins_iff permissions mounted unnamed steady.unlinked).mpr
    ⟨checked.not_lt, rfl⟩
  refine permitted _ false _ rfl (resolution.trans ended) _ _
    ⟨_, next, _, begun, rounds, ?_, there.fs_eq, ?_⟩
  · rw [@At.slash_eq _ next components [.dot] none there.place (by decide)]
    exact Nat.succ_ne_self _
  · rw [there.place.stringPart_eq, there.subject_eq]

end

/-- In a build with permissions, for every mount table, contents of the filesystems and caller,
every directory that a successful path resolution goes through may be searched if and only if this
is the case for every directory such that all directories on the way to it that are not mount
points, and the directory itself if it is not one, pass the test of the code. -/
theorem searches_permitted_iff {build : Build} {contents : Contents FS} {caller : Caller}
    {table : MountTable FS} {root : FS} (permissions : build.withPosixPermissions = true)
    (mounted : table.lookup [.slash] = some root) (unnamed : table.lookup [] = none) :
    SearchesPermitted (surroundings build contents caller table) ↔
      PassableSearchable (surroundings build contents caller table) root :=
  ⟨passableSearchable_of_searchesPermitted permissions mounted unnamed
      (steady_surroundings build contents caller table),
    searchesPermitted_of_passableSearchable permissions mounted unnamed
      (steady_surroundings build contents caller table)⟩

/-- A filesystem below the root, with directories that everyone may search. -/
theorem searches_permitted_below_root :
    SearchesPermitted (surroundings ⟨true, 4096⟩ (directories 1 0x41ff#32 rfl) ⟨5, 5⟩
      [([.slash], 0), ([.slash, .other 1], 1)]) := by
  refine (@searches_permitted_iff Nat ⟨true, 4096⟩ (directories 1 0x41ff#32 rfl) ⟨5, 5⟩
    [([.slash], 0), ([.slash, .other 1], 1)] 0 rfl rfl rfl).mpr ?_
  intro components _ _
  refine ⟨⟨0x41ff#32, 0, 0⟩, ?_, by decide⟩
  exact congrArg Except.ok (ite_self _)

/-- User 5 resolves `/m/x`, where a filesystem is mounted on `/m` and nobody may search its root
directory. -/
theorem closed_mount_is_searched :
    resolvePath (surroundings ⟨true, 4096⟩ (directories 1 0x4000#32 rfl) ⟨5, 5⟩
        [([.slash], 0), ([.slash, .other 1], 1)]) [.slash, .other 1, .slash, .other 2] true =
      some (.ok ⟨[.slash, .other 1, .slash, .other 2], 1, 3, 0⟩) ∧
    Traversed (surroundings ⟨true, 4096⟩ (directories 1 0x4000#32 rfl) ⟨5, 5⟩
        [([.slash], 0), ([.slash, .other 1], 1)]) [.slash, .other 1, .slash, .other 2] true 1 [] ∧
    ¬ MaySearch (surroundings ⟨true, 4096⟩ (directories 1 0x4000#32 rfl) ⟨5, 5⟩
        [([.slash], 0), ([.slash, .other 1], 1)]) 1 [] := by
  refine ⟨rfl, ?_, ?_⟩
  · exact ⟨_, _, 1, ⟨0, rfl, _, rfl, by decide⟩,
      .succ rfl (by decide) (by decide) (.zero _), by decide, rfl, rfl⟩
  · rintro ⟨stat, known, granted⟩
    cases known
    revert granted
    decide

end Miosix.Filesystem
