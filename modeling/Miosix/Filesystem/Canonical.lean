/-
This file proves that path resolution ends, without an access to the string out of bounds, and that
the path it leaves is canonical. Every round takes something from the rest of the string or follows
a link, and only one link is followed. As long as none is followed the result is the lexical
normalisation of the path.

In the build with permissions the root directory itself is inspected first, with the flag that links
are not to be followed, and the flag is not looked at in this build. If the root directory is said
to be a symbolic link, its target is put behind the last slash of a path that was not scanned, and
the path that is left need not be canonical.
-/

import Miosix.Filesystem.Steps

namespace Miosix.Filesystem

open Segments PathResolution List

/-! ### Components -/

/-- A component that has a meaning of its own. -/
def Name (segment : Path) : Prop :=
  segment ≠ [] ∧ .slash ∉ segment ∧ segment ≠ [.dot] ∧ segment ≠ [.dot, .dot]

/-- An absolute path with neither empty components, `.` and `..` nor a slash at the end. The root
directory is the empty path. -/
structure Canonical (path : Path) : Prop where
  absolute : path = [] ∨ path.head? = some .slash
  names : ∀ segment ∈ (path.splitOn .slash).tail, Name segment

/-- The components that are left when the given ones are followed by others, or none if there is a
`..` too much. -/
def normaliseFrom : List Path → List Path → Option (List Path)
  | components, [] => some components
  | components, segment :: more =>
      if segment = [] ∨ segment = [.dot] then normaliseFrom components more
      else if segment = [.dot, .dot] then
        if components = [] then none else normaliseFrom components.dropLast more
      else normaliseFrom (components ++ [segment]) more

/-- The lexical normalisation of an absolute path. -/
def normalise (path : Path) : Option Path :=
  (normaliseFrom [] (path.tail.splitOn .slash)).map (render .slash)

def pending : Option Path → List Path
  | none => []
  | some rest => rest.splitOn .slash

variable {FS : Type} {around : Surroundings FS} {state next : PathResolution FS}
  {components : List Path} {rest : Option Path} {segment : Path} {laterRest behind : Option Path}
  {resolved : Resolved FS}

theorem pending_append (plain : .slash ∉ segment) :
    pending (some (segment ++ following behind)) = segment :: pending behind := by
  cases behind with
  | none =>
    rw [following, append_nil]
    exact splitOn_eq_singleton plain
  | some more => exact splitOn_append_cons_self_of_not_mem plain more

theorem normaliseFrom_pending_getD : normaliseFrom components (pending (some (behind.getD []))) =
      normaliseFrom components (pending behind) := by
  cases behind with
  | none | some => rfl

theorem exists_following (rest : Path) :
    ∃ segment behind, .slash ∉ segment ∧ rest = segment ++ following behind := by
  obtain ⟨segment, plain, whole | ⟨more, split⟩⟩ := exists_segment rest
  · exact ⟨segment, none, plain, whole.trans (append_nil _).symm⟩
  · exact ⟨segment, some more, plain, split⟩

theorem names_concat (names : ∀ other ∈ components, Name other)
    (name : Name segment) : ∀ other ∈ components ++ [segment], Name other := by
  intro other listed
  rcases mem_append.mp listed with early | here
  · exact names other early
  · rwa [mem_singleton.mp here]

theorem length_following {rest : Path} : (following (some rest)).length = rest.length + 1 := rfl

/-! ### Rounds -/

/-- What is left to do: the rest of the string, and the target of a link. -/
def budget (around : Surroundings FS) (state : PathResolution FS) (rest : Option Path) : Nat :=
  (following rest).length + if state.linksFollowed = 0 then around.pathMax + 1 else 0

/-- A round comes closer to the end and keeps what is left of the path, unless it follows a link. -/
structure Advances (around : Surroundings FS) (state next : PathResolution FS)
    (components laterComponents : List Path) (rest laterRest : Option Path) : Prop where
  place : At next laterComponents laterRest
  names : (∀ segment ∈ components, Name segment) → ∀ segment ∈ laterComponents, Name segment
  followed_le : state.followed ≤ next.followed
  same : next.followed = state.followed →
    normaliseFrom laterComponents (pending laterRest) = normaliseFrom components (pending rest)
  closer : (following laterRest).length ≤ 1 ∨
    budget around next laterRest < budget around state rest

theorem budget_lt (links : next.linksFollowed = state.linksFollowed)
    (shorter : (following laterRest).length < (following rest).length) :
    budget around next laterRest < budget around state rest := by
  unfold budget
  rw [links]
  exact Nat.add_lt_add_right shorter _

theorem budget_le (stays : state.linksFollowed ≤ next.linksFollowed) :
    budget around next rest ≤ budget around state rest := by
  unfold budget
  split <;> split <;> omega

theorem advances_skip {segment : Path} {behind : Option Path}
    (place : At state components (some (segment ++ following behind))) (plain : .slash ∉ segment)
    (skipped : segment = [] ∨ segment = [.dot]) :
    Advances around state
      { state with path := render .slash components ++ following (some (behind.getD [])) }
      components components (some (segment ++ following behind)) (some (behind.getD [])) where
  place := ⟨rfl, place.index_eq, place.plain, by simp [following]⟩
  names := id
  followed_le := le_rfl
  same _ := by
    rw [normaliseFrom_pending_getD, pending_append plain, normaliseFrom, if_pos skipped]
  closer := by
    cases behind with
    | none => exact .inl le_rfl
    | some more =>
      refine .inr (budget_lt rfl ?_)
      rw [length_following, Option.getD_some, length_following, length_append,
        length_following]
      omega

theorem advances_up {init : List Path} {last : Path}
    (place : At state (init ++ [last]) (some ([.dot, .dot] ++ following behind)))
    (moved : At next init (settled init behind)) (followed : next.followed = state.followed)
    (links : next.linksFollowed = state.linksFollowed) :
    Advances around state next (init ++ [last]) init (some ([.dot, .dot] ++ following behind))
      (settled init behind) where
  place := moved
  names names segment listed := names segment (mem_append_left _ listed)
  followed_le := followed.ge
  same _ := by
    rw [pending_append (by decide), normaliseFrom, if_neg (by decide), if_pos rfl,
      if_neg (by simp), dropLast_concat]
    unfold settled
    split
    · exact normaliseFrom_pending_getD
    · rfl
  closer := by
    refine .inr (budget_lt links ?_)
    rw [length_following, length_append, length_cons]
    unfold settled
    split
    · cases behind with
      | none =>
        rw [length_following, Option.getD_none, length_nil]
        omega
      | some more =>
        rw [Option.getD_some]
        omega
    · omega

theorem advances_name {later : PathResolution FS}
    (place : At state components (some (segment ++ following behind)))
    (name : Name segment) (handled : At later (components ++ [segment]) behind)
    (followed : later.followed = state.followed) (links : later.linksFollowed = state.linksFollowed)
    (outcome : Stays later next ∨ Jumps around later next components) : ∃ laterComponents laterRest,
      Advances around state next components laterComponents (some (segment ++ following behind))
        laterRest := by
  obtain ⟨nonempty, plain, noDot, noDots⟩ := name
  rcases outcome with stays | jumps
  · refine ⟨_, _, stays.at_next handled, fun names => ?_, ?_, fun _ => ?_, .inr ?_⟩
    · exact names_concat names ⟨nonempty, plain, noDot, noDots⟩
    · rw [stays.followed_eq, followed]
    · rw [pending_append plain, normaliseFrom, if_neg (not_or.mpr ⟨nonempty, noDot⟩), if_neg noDots]
    · refine lt_of_le_of_lt (budget_le (links ▸ stays.linksFollowed_le)) ?_
      unfold budget
      have positive := length_pos_of_ne_nil nonempty
      rw [length_following, length_append]
      omega
  · obtain ⟨landed, more, there, fits, kept⟩ := jumps.lands
    refine ⟨_, _, there, ?_, ?_, fun same => ?_, .inr ?_⟩
    · intro names other listed
      rcases kept with rfl | rfl
      · nomatch listed
      · exact names other listed
    · rw [jumps.followed_eq, followed]
      exact Nat.le_succ _
    · have more := jumps.followed_eq
      omega
    · have positive := length_pos_of_ne_nil nonempty
      unfold budget
      rw [jumps.linksFollowed_next, ← links, jumps.linksFollowed_eq, if_pos rfl,
        if_neg Nat.one_ne_zero, length_following, length_following, length_append]
      omega

/-- The answer of a component with the result that is tolerated at the end. -/
def excused (around : Surroundings FS) (answer : Int × PathResolution FS) :
    Int × PathResolution FS :=
  (if tolerated around answer.1 answer.2 then 0 else answer.1, answer.2)

/-- What a round does with the next component. -/
inductive Round (around : Surroundings FS) (followLastSymlink : Bool) (state : PathResolution FS) :
    List Path → Path → Int × PathResolution FS → Prop
  | skip {components : List Path} {segment : Path} {behind : Option Path}
      (plain : .slash ∉ segment) (skipped : segment = [] ∨ segment = [.dot]) :
      Round around followLastSymlink state components (segment ++ following behind) (0, { state with
        path := render .slash components ++ following (some (behind.getD [])) })
  | top {behind : Option Path} :
      Round around followLastSymlink state [] ([.dot, .dot] ++ following behind) (-ENOENT, state)
  | up {init : List Path} {last : Path} {behind : Option Path} {next : PathResolution FS}
      (up : upPathComponent around state (state.index + 2) = some (0, next)) :
      Round around followLastSymlink state (init ++ [last]) ([.dot, .dot] ++ following behind)
        (0, next)
  | enter {components : List Path} {segment : Path} {behind : Option Path} {fs : FS}
      (name : Name segment)
      (mounted : around.filesystems (render .slash (components ++ [segment])) = some fs) :
      Round around followLastSymlink state components (segment ++ following behind)
        (0, entered around fs { state with index := state.index + segment.length + 1 })
  | visit {components : List Path} {segment : Path} {behind : Option Path}
      {found : Int × PathResolution FS} (name : Name segment)
      (free : around.filesystems (render .slash (components ++ [segment])) = none)
      (visit : visited around (components ++ [segment]) components behind
        (if behind = none then followLastSymlink else true)
        { state with index := state.index + segment.length + 1 } = found) :
      Round around followLastSymlink state components (segment ++ following behind)
        (excused around found)

section

variable {rest : Path} {answer : Int × PathResolution FS} {followLastSymlink : Bool}
  (place : At state components (some rest))

include place

theorem Round.eq (round : Round around followLastSymlink state components rest answer) :
    component around followLastSymlink state = some answer := by
  cases round with
  | skip plain skipped => rw [component_eq followLastSymlink place plain, if_pos skipped]
  | top =>
    have top : state.index ≤ 1 := place.index_eq.le
    rw [component_eq followLastSymlink place (by decide), if_neg (by decide), if_pos rfl,
      upPathComponent, if_pos top]
  | up up =>
    rw [component_eq followLastSymlink place (by decide), if_neg (by decide), if_pos rfl, up]
  | enter name mounted =>
    rw [component_eq followLastSymlink place name.2.1, if_neg (not_or.mpr ⟨name.1, name.2.2.1⟩),
      if_neg name.2.2.2, normalPathComponent_mounted _ (place.handled name.2.1) mounted,
      Option.map_some, ite_self]
  | visit name free visit =>
    have handled := place.handled name.2.1
    rw [component_eq followLastSymlink place name.2.1, if_neg (not_or.mpr ⟨name.1, name.2.2.1⟩),
      if_neg name.2.2.2, normalPathComponent_free _ handled handled.keeps free, visit]
    rfl

theorem exists_round : ∃ answer, Round around followLastSymlink state components rest answer := by
  obtain ⟨segment, behind, plain, rfl⟩ := exists_following rest
  by_cases skipped : segment = [] ∨ segment = [.dot]
  · exact ⟨_, .skip plain skipped⟩
  · by_cases dots : segment = [.dot, .dot]
    · subst dots
      rcases eq_nil_or_concat' components with rfl | ⟨init, last, rfl⟩
      · exact ⟨_, .top⟩
      · exact ⟨_, .up (upPathComponent_eq place)⟩
    · have name : Name segment := ⟨fun empty => skipped (.inl empty), plain,
        fun dot => skipped (.inr dot), dots⟩
      cases mounted : around.filesystems (render .slash (components ++ [segment])) with
      | some fs => exact ⟨_, .enter name mounted⟩
      | none => exact ⟨_, .visit name mounted rfl⟩

theorem component_round (step : component around followLastSymlink state = some answer) :
    Round around followLastSymlink state components rest answer := by
  obtain ⟨found, round⟩ := exists_round place
  cases (round.eq place).symm.trans step
  exact round

end

/-- Every round has a result. -/
theorem component_spec {rest : Path} (followLastSymlink : Bool)
    (place : At state components (some rest)) :
    ∃ answer, component around followLastSymlink state = some answer ∧
      (answer.1 < 0 ∨ ∃ laterComponents laterRest,
        Advances around state answer.2 components laterComponents (some rest) laterRest) := by
  obtain ⟨answer, round⟩ := exists_round place
  refine ⟨answer, round.eq place, ?_⟩
  cases round with
  | skip plain skipped => exact .inr ⟨_, _, advances_skip place plain skipped⟩
  | top => exact .inl (by decide : -ENOENT < 0)
  | @up init last behind next up =>
    rw [upPathComponent_eq place] at up
    cases up
    have there := @at_lifted FS init behind state fun segment listed =>
      place.plain segment (mem_append_left _ listed)
    refine .inr ⟨_, _, advances_up place ?_ ?_ ?_⟩
    · split
      · exact there
      · exact { there with }
    · split <;> rfl
    · split <;> rfl
  | enter name mounted =>
    exact .inr (advances_name place name (place.handled name.2.1) rfl rfl
      (.inl ⟨rfl, rfl, rfl, rfl, le_rfl⟩))
  | visit name free visit =>
    have handled := place.handled name.2.1
    have outcome := (visited_visit visit).spec handled.keeps.plain
    exact .inr (advances_name place name handled rfl rfl outcome)

/-! ### The loop -/

theorem canonical_render (names : ∀ segment ∈ components, Name segment) :
    Canonical (render .slash components) where
  absolute := by
    cases components with
    | nil => exact .inl rfl
    | cons first more => exact .inr rfl
  names := by
    rw [splitOn_render fun segment listed => (names segment listed).2.1]
    exact names

/-- What is promised of the result, in the state in front of a rest. -/
def Promised (state : PathResolution FS) (components : List Path) (rest : Option Path)
    (resolved : Resolved FS) : Prop :=
  (∀ segment ∈ components, Name segment) →
    state.followed ≤ resolved.followed ∧ Canonical resolved.path ∧
      (resolved.followed = state.followed →
        (normaliseFrom components (pending rest)).map (render .slash) = some resolved.path)

theorem promised_of_finish (place : At state components rest)
    (ended : (following rest).length ≤ 1) (result : state.finish = some resolved) :
    Promised state components rest resolved := by
  intro names
  rw [finish_eq place ended fun segment listed => (names segment listed).1, Option.some.injEq]
    at result
  subst result
  refine ⟨le_rfl, canonical_render names, fun _ => ?_⟩
  cases rest with
  | none => rfl
  | some more =>
    obtain rfl : more = [] := length_eq_zero_iff.mp (by
      rw [length_following] at ended
      omega)
    rfl

theorem Advances.promised {laterComponents : List Path}
    (advances : Advances around state next components laterComponents rest laterRest)
    (promised : Promised next laterComponents laterRest resolved) :
    Promised state components rest resolved := by
  intro names
  obtain ⟨later, canonical, same⟩ := promised (advances.names names)
  refine ⟨advances.followed_le.trans later, canonical, fun unfollowed => ?_⟩
  have between := advances.followed_le
  rw [← advances.same (by omega), same (by omega)]

theorem loop_spec {followLastSymlink : Bool} {fuel : Nat} {rest : Path}
    (place : At state components (some rest)) (enough : budget around state (some rest) < fuel) :
    ∃ answer, loop around followLastSymlink fuel state = some answer ∧
      ∀ resolved, answer = .ok resolved → Promised state components (some rest) resolved := by
  induction fuel generalizing state components rest with
  | zero => omega
  | succ fuel inductionHypothesis =>
    obtain ⟨⟨result, next⟩, step, outcome⟩ := component_spec followLastSymlink place
    rw [loop, step]
    simp only
    rcases outcome with failed | ⟨laterComponents, laterRest, advances⟩
    · rw [if_pos failed]
      exact ⟨_, rfl, nofun⟩
    · split
      · exact ⟨_, rfl, nofun⟩
      · by_cases ended : next.path.length ≤ next.index
        · rw [if_pos ended]
          obtain ⟨resolved, found, -⟩ := finish_isSome advances.place.nonempty
          rw [found]
          refine ⟨_, rfl, fun other same => ?_⟩
          cases same
          exact advances.promised
            (promised_of_finish advances.place (advances.place.ended_iff.mp ended) found)
        · rw [if_neg ended]
          have open_ : ¬ (following laterRest).length ≤ 1 := fun short =>
            ended (advances.place.ended_iff.mpr short)
          obtain ⟨more, rfl⟩ : ∃ more, laterRest = some more := by
            cases laterRest with
            | none => contradiction
            | some more => exact ⟨more, rfl⟩
          have closer := advances.closer.resolve_left open_
          obtain ⟨answer, found, promised⟩ := inductionHypothesis advances.place (by omega)
          exact ⟨answer, found, fun resolved same => advances.promised (promised resolved same)⟩

/-! ### Path resolution -/

/-- With permissions, the root directory is not said to be a symbolic link when it is inspected. -/
def RootUnlinked (around : Surroundings FS) : Prop :=
  around.withPosixPermissions = true → ∀ root stat, around.filesystems [.slash] = some root →
    around.lstat 0 root [] = .ok stat → stat.isLink = false

theorem at_start (root : FS) (rest : Path) :
    At (start around root (.slash :: rest)) [] (some rest) :=
  ⟨rfl, rfl, nofun, cons_ne_nil _ _⟩

/-- Path resolution ends without an access out of bounds. If the root directory is not a symbolic
link the path that is left is canonical, and it is the lexical normalisation of the path if no link
was followed. -/
theorem resolvePath_is_canonical (around : Surroundings FS) {path : Path}
    (absolute : path.head? = some .slash) (followLastSymlink : Bool) :
    ∃ answer, resolvePath around path followLastSymlink = some answer ∧
      (RootUnlinked around → ∀ resolved, answer = .ok resolved → Canonical resolved.path ∧
        (resolved.followed = 0 → normalise path = some resolved.path)) := by
  obtain ⟨rest, rfl⟩ := exists_of_head absolute
  have names : ∀ segment ∈ ([] : List Path), Name segment := nofun
  unfold resolvePath
  cases mounted : around.filesystems [.slash] with
  | none => exact ⟨_, rfl, nofun⟩
  | some root =>
    have place := @at_start FS around root rest
    simp only
    split
    · rename_i permissions
      obtain ⟨kept, keeps⟩ := place.exists_keeps
      obtain ⟨⟨result, next⟩, step, outcome⟩ :=
        @normalPathComponent_spec FS around _ _ _ kept false place keeps
      rw [step]
      simp only
      split
      · exact ⟨_, rfl, nofun⟩
      · by_cases stays : Stays (start around root (.slash :: rest)) next
        · have enough : budget around next (some rest) <
              (Letter.slash :: rest).length + around.pathMax + 2 :=
            Nat.lt_succ_of_le (budget_le stays.linksFollowed_le)
          obtain ⟨answer, found, promised⟩ := loop_spec (stays.at_next place) enough
          refine ⟨answer, found, fun _ resolved same => ?_⟩
          obtain ⟨-, canonical, lexical⟩ := promised resolved same names
          exact ⟨canonical, fun unfollowed => lexical (unfollowed.trans stays.followed_eq.symm)⟩
        · obtain ⟨components, more, there, fits, -⟩ := (outcome.resolve_left stays).lands
          have enough : budget around next (some more) <
              (Letter.slash :: rest).length + around.pathMax + 2 := by
            rw [budget, (outcome.resolve_left stays).linksFollowed_next,
              if_neg Nat.one_ne_zero, length_following]
            omega
          obtain ⟨answer, found, -⟩ := loop_spec there enough
          refine ⟨answer, found, fun unlinked => absurd ?_ stays⟩
          exact normalPathComponent_stays place keeps
            (fun stat => unlinked permissions root stat mounted) step
    · have enough : budget around (start around root (.slash :: rest)) (some rest) <
          (Letter.slash :: rest).length + around.pathMax + 2 := Nat.lt_succ_self _
      obtain ⟨answer, found, promised⟩ := loop_spec place enough
      refine ⟨answer, found, fun _ resolved same => ?_⟩
      obtain ⟨-, canonical, lexical⟩ := promised resolved same names
      exact ⟨canonical, lexical⟩

/-- Filesystems on some paths, with one mode for their roots and one for everything else in them. -/
def sample (withPosixPermissions : Bool) (mountPoints : List Path) (rootMode mode : Flags)
    (target : Path) : Surroundings Nat where
  withPosixPermissions := withPosixPermissions
  pathMax := 4096
  filesystems := mountPoints.idxOf?
  supportsSymlinks _ := true
  lstat _ _ path := .ok ⟨if path = [] then rootMode else mode, 0, 0⟩
  readlink _ _ _ := .ok target
  euid := 0
  egid := 0

/-- A path with a `..` in it. -/
theorem resolvePath_is_canonical_below_root : Canonical [.slash, .other 2] ∧
    normalise [.slash, .other 1, .slash, .dot, .dot, .slash, .other 2] =
      some [.slash, .other 2] := by
  obtain ⟨answer, found, canonical⟩ := @resolvePath_is_canonical Nat
    (sample true [[.slash]] 0x41ff#32 0x41ff#32 [])
    [.slash, .other 1, .slash, .dot, .dot, .slash, .other 2] rfl true
  have result : resolvePath (sample true [[.slash]] 0x41ff#32 0x41ff#32 [])
        [.slash, .other 1, .slash, .dot, .dot, .slash, .other 2] true =
      some (.ok ⟨[.slash, .other 2], 0, 1, 0⟩) := rfl
  have unlinked : RootUnlinked (sample true [[.slash]] 0x41ff#32 0x41ff#32 []) := by
    intro _ root stat _ known
    cases known
    rfl
  obtain ⟨canonicalPath, lexical⟩ :=
    canonical unlinked _ (Option.some.inj (found.symm.trans result))
  exact ⟨canonicalPath, lexical rfl⟩

/-- With permissions, a root directory that is said to be a symbolic link leaves a `..` in the
path. -/
theorem linked_root_leaves_dots :
    resolvePath (sample true [[.slash]] 0xa1ff#32 0x41ff#32 [.other 2])
        [.slash, .dot, .dot, .slash, .other 1] true =
      some (.ok ⟨[.slash, .dot, .dot, .slash, .other 1], 0, 1, 1⟩) ∧
    ¬ Canonical [.slash, .dot, .dot, .slash, .other 1] := by
  refine ⟨rfl, fun canonical => ?_⟩
  exact (canonical.names [.dot, .dot] (by decide)).2.2.2 rfl

end Miosix.Filesystem
