/-
This file follows the current filesystem through a path resolution. It is the one on the longest
mount point among the components that are handled, the position into it is behind the slash that
follows the mount point, and the depth is one more than the number of components behind the mount
point. Every step keeps this, except for a `..` that leaves a filesystem at the end of the string
for a directory that is a mount point as well.
-/

import Miosix.Filesystem.Canonical

namespace Miosix.Filesystem

open Segments PathResolution List Option

variable {FS : Type} {around : Surroundings FS} {state next : PathResolution FS}
  {components : List Path} {rest : Option Path} {root : FS}

/-! ### The longest mount point -/

section

variable (around : Surroundings FS) (root : FS) (components : List Path)

/-- The filesystem of a list of components, with the number of components of its mount point. -/
def mount : FS × Nat :=
  locate around.filesystems root components components.length

/-- The position behind the slash that follows the mount point. -/
def mountEnd : Nat :=
  (render .slash (components.take (mount around root components).2)).length + 1

end

theorem locate_le (filesystems : Path → Option FS) (root : FS) (components : List Path)
    (count : Nat) : (locate filesystems root components count).2 ≤ count := by
  induction count with
  | zero => exact le_rfl
  | succ count inductionHypothesis =>
    unfold locate
    split
    · exact le_rfl
    · exact inductionHypothesis.trans (Nat.le_succ count)

theorem locate_append {filesystems : Path → Option FS} {init more : List Path}
    {count : Nat} (within : count ≤ init.length) :
    locate filesystems root (init ++ more) count = locate filesystems root init count := by
  induction count with
  | zero => rfl
  | succ count inductionHypothesis =>
    unfold locate
    rw [take_append_of_le_length within, inductionHypothesis (by omega)]

theorem mount_mounted {init : List Path} {last : Path} {fs : FS}
    (mounted : around.filesystems (render .slash (init ++ [last])) = some fs) :
    mount around root (init ++ [last]) = (fs, init.length + 1) := by
  unfold mount
  rw [length_append, length_singleton, locate, take_of_length_le (by simp), mounted]

variable {init : List Path} {last more segment : Path} {fs : FS} {behind : Option Path}
  {followLastSymlink : Bool} {answer : Int × PathResolution FS} {fuel : Nat}
  {linksFollowed questions followed : Nat}

theorem mount_free (free : around.filesystems (render .slash (init ++ [last])) = none) :
    mount around root (init ++ [last]) = mount around root init := by
  unfold mount
  rw [length_append, length_singleton, locate, take_of_length_le (by simp), free]
  exact locate_append le_rfl

section

variable (around : Surroundings FS) (root : FS) (components : List Path)

theorem mount_le : (mount around root components).2 ≤ components.length := locate_le _ _ _ _

theorem length_render_take_le (count : Nat) :
    (render Letter.slash (components.take count)).length ≤ (render .slash components).length := by
  rw [render_eq_take_append components count, length_append]
  omega

theorem mountEnd_le : mountEnd around root components ≤ (render .slash components).length + 1 :=
  Nat.succ_le_succ (length_render_take_le _ _)

end

theorem mountEnd_free (free : around.filesystems (render .slash (init ++ [last])) = none) :
    mountEnd around root (init ++ [last]) = mountEnd around root init := by
  unfold mountEnd
  rw [mount_free free, take_append_of_le_length (mount_le _ _ _)]

theorem mountEnd_mounted (mounted : around.filesystems (render .slash (init ++ [last])) = some fs) :
    mountEnd around root (init ++ [last]) = (render .slash (init ++ [last])).length + 1 := by
  unfold mountEnd
  rw [mount_mounted mounted, take_of_length_le (by simp)]

/-! ### The filesystem that is followed -/

/-- The filesystem, the position behind its mount point and the number of components behind it are
those of the components that are handled. Below the root the number may be greater, and at the end
of the string it does not matter. -/
structure Located (around : Surroundings FS) (state : PathResolution FS) (components : List Path)
    (rest : Option Path) : Prop where
  fs_eq : state.fs = (mount around state.root components).1
  syms_eq : state.syms = around.supportsSymlinks state.fs
  indexIntoFs_eq : state.indexIntoFs =
    min state.path.length (mountEnd around state.root components)
  depth_le : rest ≠ none →
    (components.length : Int) - (mount around state.root components).2 + 1 ≤ state.depthIntoFs
  depth_eq : rest ≠ none → (mount around state.root components).2 ≠ 0 →
    state.depthIntoFs = (components.length : Int) - (mount around state.root components).2 + 1

/-- In front of a rest the position is that behind the slash. -/
theorem Located.indexIntoFs_open (located : Located around state components rest)
    (long : state.path = render .slash components ++ .slash :: more) :
    state.indexIntoFs = mountEnd around state.root components := by
  have bound := mountEnd_le around state.root components
  rw [located.indexIntoFs_eq, long, length_append, length_cons]
  omega

theorem located_skip (place : At state components (some (segment ++ following behind)))
    (located : Located around state components (some (segment ++ following behind))) :
    Located around
      { state with path := render .slash components ++ following (some (behind.getD [])) }
      components (some (behind.getD [])) := { located with
  indexIntoFs_eq := by
    have bound := mountEnd_le around state.root components
    dsimp only
    rw [located.indexIntoFs_open place.path_eq, following, length_append, length_cons]
    omega
  depth_le _ := located.depth_le (some_ne_none _)
  depth_eq _ := located.depth_eq (some_ne_none _) }

theorem located_entered (place : At state (init ++ [last]) rest)
    (mounted : around.filesystems (render .slash (init ++ [last])) = some fs) :
    Located around (entered around fs state) (init ++ [last]) rest where
  fs_eq := by
    rw [mount_mounted mounted]
    rfl
  syms_eq := rfl
  indexIntoFs_eq := by
    rw [mountEnd_mounted mounted, ← place.index_eq]
    rfl
  depth_le _ := by
    rw [mount_mounted mounted, length_append, length_singleton]
    show _ ≤ (1 : Int)
    omega
  depth_eq _ _ := by
    rw [mount_mounted mounted, length_append, length_singleton]
    show (1 : Int) = _
    omega

/-- A component that is not a mount point is one more component behind the mount point. -/
theorem located_deeper {init : List Path} {last : Path} {before : Option Path}
    (located : Located around state init before)
    (inside : before ≠ none)
    (free : around.filesystems (render .slash (init ++ [last])) = none)
    (linksFollowed questions : Nat) :
    Located around { state with
      depthIntoFs := state.depthIntoFs + 1, linksFollowed := linksFollowed,
      questions := questions } (init ++ [last]) rest := { located with
  fs_eq := by
    rw [mount_free free]
    exact located.fs_eq
  indexIntoFs_eq := by
    rw [mountEnd_free free]
    exact located.indexIntoFs_eq
  depth_le _ := by
    have depth := located.depth_le inside
    rw [mount_free free, length_append, length_singleton]
    dsimp only
    omega
  depth_eq _ below := by
    rw [mount_free free] at below
    have depth := located.depth_eq inside below
    rw [mount_free free, length_append, length_singleton]
    dsimp only
    omega }

/-! ### The way up -/

/-- No mount point is directly below another one, the root apart. -/
def Unnested (filesystems : Path → Option FS) : Prop :=
  ∀ upper last, upper ≠ [] → (∀ segment ∈ upper ++ [last], Name segment) →
    filesystems (render .slash upper) ≠ none →
      filesystems (render .slash (upper ++ [last])) = none

theorem located_lifted (place : At state (init ++ [last]) (some more))
    (located : Located around state (init ++ [last]) (some more))
    (inside : 0 < state.depthIntoFs - 1) :
    Located around (lifted init behind state) init (settled init behind) := by
  have free : around.filesystems (render .slash (init ++ [last])) = none := by
    cases mounted : around.filesystems (render .slash (init ++ [last])) with
    | none => rfl
    | some fs =>
      have depth := located.depth_eq (some_ne_none _)
      rw [mount_mounted mounted, length_append, length_singleton] at depth
      have exact_depth := depth (Nat.succ_ne_zero _)
      omega
  have fs := located.fs_eq
  have index := located.indexIntoFs_open place.path_eq
  have depth := located.depth_le (some_ne_none _)
  have depthBelow := located.depth_eq (some_ne_none _)
  rw [mount_free free] at fs depth depthBelow
  rw [mountEnd_free free] at index
  rw [length_append, length_singleton] at depth depthBelow
  refine ⟨fs, located.syms_eq, ?_, fun _ => ?_, fun _ below => ?_⟩
  · exact congrArg (min _) index
  · dsimp only [lifted]
    omega
  · have exact_depth := depthBelow below
    dsimp only [lifted]
    omega

theorem ne_nil_of_settled (ended : settled init behind = none) : init ≠ [] := by
  rintro rfl
  exact some_ne_none _ ended

theorem locate_searched {init : List Path} {behind : Option Path}
    (free : settled init behind = none → around.filesystems (render .slash init) = none)
    (root : FS) :
    locate around.filesystems root init (searched init behind) = mount around root init := by
  unfold searched
  split
  · rename_i ended
    obtain ⟨upper, directory, rfl⟩ :=
      (eq_nil_or_concat' init).resolve_left (ne_nil_of_settled ended)
    rw [mount_free (free ended), length_append, length_singleton, Nat.add_sub_cancel]
    exact locate_append le_rfl
  · rfl

theorem mountEnd_le_settled
    (free : settled init behind = none → around.filesystems (render .slash init) = none) :
    mountEnd around root init ≤ (render .slash init ++ following (settled init behind)).length := by
  rw [length_append]
  cases left : settled init behind with
  | some more =>
    rw [length_following]
    have bound := mountEnd_le around root init
    omega
  | none =>
    obtain ⟨upper, directory, rfl⟩ :=
      (eq_nil_or_concat' init).resolve_left (ne_nil_of_settled left)
    have bound := mountEnd_le around root upper
    rw [mountEnd_free (free left), length_render_concat]
    omega

theorem depth_relocated (found : locate around.filesystems state.root init (searched init behind) =
      mount around state.root init) (inside : settled init behind ≠ none) :
    (relocated around init (searched init behind)
      { lifted init behind state with depthIntoFs := 1 }).depthIntoFs =
    (init.length : Int) - (mount around state.root init).2 + 1 := by
  have whole : searched init behind = init.length := if_neg inside
  show (1 : Int) + ((searched init behind : Int) -
    (locate around.filesystems state.root init (searched init behind)).2) = _
  rw [found, whole]
  omega

/-- Where the way up leaves a filesystem, the component that is removed is its mount point. -/
theorem mounted_of_outside (located : Located around state (init ++ [last]) (some more))
    (outside : ¬ 0 < state.depthIntoFs - 1) :
    around.filesystems (render .slash (init ++ [last])) ≠ none := by
  intro free
  have depth := located.depth_le (some_ne_none _)
  have bound := mount_le around state.root init
  rw [mount_free free, length_append, length_singleton] at depth
  omega

theorem located_relocated
    (free : settled init behind = none → around.filesystems (render .slash init) = none) :
    Located around (relocated around init (searched init behind)
      { lifted init behind state with depthIntoFs := 1 }) init (settled init behind) := by
  have found := @locate_searched _ around init behind free state.root
  refine ⟨?_, rfl, ?_, fun inside => ?_, fun inside _ => ?_⟩
  · exact congrArg Prod.fst found
  · have position : (relocated around init (searched init behind)
        { lifted init behind state with depthIntoFs := 1 }).indexIntoFs =
          mountEnd around state.root init :=
      congrArg (fun place : FS × Nat => (render Letter.slash (init.take place.2)).length + 1) found
    rw [position]
    exact (min_eq_right (mountEnd_le_settled free)).symm
  · exact (depth_relocated found inside).ge
  · exact depth_relocated found inside

/-! ### Runs -/

/-- The state in front of a rest, with the right filesystem. -/
structure Tracked (around : Surroundings FS) (root : FS) (state : PathResolution FS)
    (components : List Path) (rest : Option Path) : Prop where
  place : At state components rest
  located : Located around state components rest
  names : ∀ segment ∈ components, Name segment
  root_eq : state.root = root

/-- An absolute target starts again at the root. -/
theorem tracked_absolute {more : Path} (root_eq : state.root = root)
    : Tracked around root { state with
      path := .slash :: more, fs := state.root,
      syms := around.supportsSymlinks state.root, index := 1, indexIntoFs := 1, depthIntoFs := 1,
      linksFollowed := linksFollowed, questions := questions,
      followed := followed } [] (some more) := by
  refine ⟨⟨rfl, rfl, nofun, cons_ne_nil _ _⟩,
    ⟨rfl, rfl, ?_, fun _ => le_rfl, fun _ => absurd rfl⟩,
    nofun, root_eq⟩
  show 1 = min (Letter.slash :: more).length 1
  rw [length_cons]
  omega

/-- A relative target replaces a component that is not a mount point. -/
theorem tracked_relative {before more : Path} (tracked : Tracked around root state components
      (some before)) {index : Nat}
    (index_eq : index = (render .slash components).length + 1) : Tracked around root { state with
      path := render .slash components ++ .slash :: more, index := index,
      depthIntoFs := state.depthIntoFs + 1 - 1, linksFollowed := linksFollowed,
      questions := questions, followed := followed } components (some more) := by
  have located := tracked.located
  refine { tracked with
    place := ⟨rfl, index_eq, tracked.place.plain, by simp⟩
    located := ⟨located.fs_eq, located.syms_eq, ?_, fun _ => ?_, fun _ => ?_⟩ }
  · have bound := mountEnd_le around state.root components
    dsimp only
    rw [located.indexIntoFs_open tracked.place.path_eq, length_append, length_cons]
    omega
  · rw [Int.add_sub_cancel]
    exact located.depth_le (some_ne_none _)
  · rw [Int.add_sub_cancel]
    exact located.depth_eq (some_ne_none _)

section

variable (name : Name segment)
  (tracked : Tracked around root state components (some (segment ++ following behind)))

include name tracked

theorem tracked_deeper (free : around.filesystems (render .slash (components ++ [segment])) = none)
    (linksFollowed questions : Nat) :
    Tracked around root { state with
      index := state.index + segment.length + 1, depthIntoFs := state.depthIntoFs + 1,
      linksFollowed := linksFollowed,
      questions := questions } (components ++ [segment]) behind := by
  have handled := tracked.place.handled name.2.1
  have deeper := @located_deeper _ _ _ behind _ _ _ tracked.located
    (some_ne_none _) free linksFollowed questions
  exact ⟨{ handled with }, { deeper with }, names_concat tracked.names name, tracked.root_eq⟩

theorem tracked_entered
    (mounted : around.filesystems (render .slash (components ++ [segment])) = some fs) :
    Tracked around root (entered around fs { state with index := state.index + segment.length + 1 })
      (components ++ [segment]) behind := by
  have handled := tracked.place.handled name.2.1
  exact ⟨{ handled with }, located_entered handled mounted, names_concat tracked.names name,
    tracked.root_eq⟩

theorem tracked_visit {answer : Int × PathResolution FS} {followIfSymlink : Bool}
    (free : around.filesystems (render .slash (components ++ [segment])) = none)
    (visit : Visit around (components ++ [segment]) components behind followIfSymlink
      { state with index := state.index + segment.length + 1 } answer) :
    ∃ later laterRest, Tracked around root answer.2 later laterRest := by
  have stays (linksFollowed questions : Nat) : ∃ later laterRest, Tracked around root { state with
      index := state.index + segment.length + 1, depthIntoFs := state.depthIntoFs + 1,
      linksFollowed := linksFollowed, questions := questions } later laterRest :=
    ⟨_, _, tracked_deeper name tracked free linksFollowed questions⟩
  cases visit with
  | link asked link pursuit =>
    cases pursuit with
    | absolute => exact ⟨_, _, tracked_absolute tracked.root_eq⟩
    | relative => exact ⟨_, _, tracked_relative tracked rfl⟩
    | _ => exact stays _ _
  | _ => exact stays _ _

end

theorem Tracked.skip {segment : Path} {behind : Option Path} (plain : .slash ∉ segment)
    (skipped : segment = [] ∨ segment = [.dot])
    (tracked : Tracked around root state components (some (segment ++ following behind))) :
    Tracked around root
      { state with path := render .slash components ++ following (some (behind.getD [])) }
      components (some (behind.getD [])) :=
  { tracked with
    place := (@advances_skip _ around _ _ _ _ tracked.place plain skipped).place
    located := located_skip tracked.place tracked.located }

/-- At the end of the string, below two mount points of which one is directly below the other, the
filesystem of the upper one is missed. -/
structure Missed (around : Surroundings FS) (state : PathResolution FS)
    (components : List Path) : Prop where
  place : At state components none
  names : ∀ segment ∈ components, Name segment
  lower : components ≠ []
  mounted : around.filesystems (render .slash components) ≠ none
  below : ∃ last, Name last ∧ around.filesystems (render .slash (components ++ [last])) ≠ none

theorem Missed.not_unnested (missed : Missed around state components) :
    ¬ Unnested around.filesystems := by
  intro unnested
  obtain ⟨last, name, mounted⟩ := missed.below
  exact mounted (unnested components last missed.lower (names_concat missed.names name)
    missed.mounted)

section

variable
  (tracked : Tracked around root state (init ++ [last]) (some ([.dot, .dot] ++ following behind)))
  (raised : upPathComponent around state (state.index + 2) = some (0, next))

include tracked raised

theorem Tracked.up_spec : (Tracked around root next init (settled init behind) ∨
        settled init behind = none ∧ Missed around next init) ∧
      next.linksFollowed = state.linksFollowed ∧ next.questions = state.questions ∧
      next.followed = state.followed := by
  have plain : ∀ segment ∈ init, .slash ∉ segment := fun segment listed =>
    tracked.place.plain segment (mem_append_left _ listed)
  have names : ∀ segment ∈ init, Name segment := fun segment listed =>
    tracked.names segment (mem_append_left _ listed)
  have there := @at_lifted FS init behind state plain
  rw [upPathComponent_eq tracked.place] at raised
  cases raised
  split
  · rename_i inside
    exact ⟨.inl ⟨there, located_lifted tracked.place tracked.located inside, names,
      tracked.root_eq⟩, rfl, rfl, rfl⟩
  · rename_i outside
    refine ⟨?_, rfl, rfl, rfl⟩
    by_cases free : settled init behind = none → around.filesystems (render .slash init) = none
    · exact .inl ⟨{ there with }, located_relocated free, names, tracked.root_eq⟩
    · obtain ⟨ended, mounted⟩ := Classical.not_imp.mp free
      have spelled := tracked.names last (mem_append_right _ mem_cons_self)
      rw [ended] at there
      exact .inr ⟨ended, { there with }, names, ne_nil_of_settled ended, mounted, last, spelled,
        mounted_of_outside tracked.located outside⟩

theorem Tracked.up (unnested : Unnested around.filesystems) :
    Tracked around root next init (settled init behind) ∧
      next.linksFollowed = state.linksFollowed ∧ next.questions = state.questions ∧
      next.followed = state.followed := by
  obtain ⟨above | ⟨-, missed⟩, same⟩ := tracked.up_spec raised
  · exact ⟨above, same⟩
  · exact absurd unnested missed.not_unnested

end

/-- A round keeps the filesystem right, or it ends at a mount point that is missed. -/
theorem Tracked.step {rest : Path} (tracked : Tracked around root state components (some rest))
    (step : component around followLastSymlink state = some answer) :
    (∃ later laterRest, Tracked around root answer.2 later laterRest) ∨
      ∃ later, Missed around answer.2 later := by
  cases component_round tracked.place step with
  | skip plain skipped => exact .inl ⟨_, _, tracked.skip plain skipped⟩
  | top => exact .inl ⟨_, _, tracked⟩
  | up up =>
    rcases tracked.up_spec up with ⟨above | ⟨-, missed⟩, -⟩
    · exact .inl ⟨_, _, above⟩
    · exact .inr ⟨_, missed⟩
  | enter name mounted => exact .inl ⟨_, _, tracked_entered name tracked mounted⟩
  | visit name free visit =>
    have later := tracked_visit name tracked free (visited_visit visit)
    exact .inl later

/-- The result for a list of components. -/
def result (around : Surroundings FS) (root : FS) (components : List Path) (followed : Nat) :
    Resolved FS where
  path := render .slash components
  fs := (mount around root components).1
  off := min (render .slash components).length (mountEnd around root components)
  followed := followed

theorem Tracked.finish (tracked : Tracked around root state components rest)
    (ended : (following rest).length ≤ 1) :
    state.finish = some (result around root components state.followed) := by
  rw [finish_eq tracked.place ended fun segment listed => (tracked.names segment listed).1]
  have length := tracked.place.length_path
  have index := tracked.located.indexIntoFs_eq
  rw [tracked.root_eq] at index
  have position : (if rest = none then state.indexIntoFs
      else min (render .slash components).length state.indexIntoFs) =
        min (render .slash components).length (mountEnd around root components) := by
    cases rest with
    | none =>
      rw [if_pos rfl, index, length]
      rfl
    | some more =>
      rw [if_neg (some_ne_none more), index]
      omega
  rw [position, tracked.located.fs_eq, tracked.root_eq]
  rfl

theorem loop_eq (step : component around followLastSymlink state = some answer) :
    loop around followLastSymlink (fuel + 1) state = if answer.1 < 0 then some (.error answer.1)
      else if answer.2.path.length ≤ answer.2.index then answer.2.finish.map .ok
      else loop around followLastSymlink fuel answer.2 := by
  rw [PathResolution.loop, step]

/-- The result is that of the components that are left, unless a mount point is missed. -/
theorem Tracked.loop {rest : Path} {resolved : Resolved FS}
    (tracked : Tracked around root state components (some rest))
    (success : loop around followLastSymlink fuel state = some (.ok resolved)) :
    ∃ final, (∀ segment ∈ final, Name segment) ∧
      (resolved = result around root final resolved.followed ∨
        resolved.path = render .slash final ∧ ∃ state, Missed around state final) := by
  induction fuel generalizing state components rest with
  | zero => nomatch success
  | succ fuel inductionHypothesis =>
    obtain ⟨answer, step, -⟩ := component_spec followLastSymlink tracked.place
    rw [loop_eq step] at success
    split at success
    · nomatch success
    · rcases tracked.step step with ⟨later, laterRest, after⟩ | ⟨later, missed⟩
      · split at success
        · rename_i ended
          rw [after.finish (after.place.ended_iff.mp ended)] at success
          cases success
          exact ⟨later, after.names, .inl rfl⟩
        · rename_i unfinished
          obtain ⟨more, rfl⟩ := after.place.exists_rest unfinished
          exact inductionHypothesis after success
      · rw [if_pos (missed.place.ended_iff.mpr (Nat.zero_le 1)),
          finish_eq missed.place (Nat.zero_le 1) fun segment listed =>
            (missed.names segment listed).1] at success
        cases success
        exact ⟨later, missed.names, .inr ⟨rfl, _, missed⟩⟩

end Miosix.Filesystem
