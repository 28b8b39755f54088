/-
This file compares the resolution of a path with that of the same path with one slash more at the
end. Both handle the same components and ask the same questions in the same order, as long as more
than a slash is left of the first path. At its end the second may ask once more, and it requires a
directory where the first is content with anything. If the first string ends with a slash as well,
the directory must be one that may be searched. So both end in the same place if this place is such
a directory, unless the target of a link makes the second string too long.
-/

import Miosix.Filesystem.Mounts

namespace Miosix.Filesystem

open Segments PathResolution List

variable {FS : Type} {around : Surroundings FS} {state one other : PathResolution FS}
  {components : List Path} {rest : Option Path} {root : FS} {more : Path}
  {reply answer : Int × PathResolution FS} {later : List Path} {behind : Option Path}
  {followLastSymlink : Bool} {fuel : Nat} {last : Option Letter} {fs : FS} {path : Path}
  {resolved : Resolved FS}

/-! ### Directories -/

section

variable (around : Surroundings FS) (fs : FS) (path : Path)

/-- Whatever was asked before, a place is said to be a directory, which the caller may search. -/
def Directory : Prop :=
  ∀ questions, ∃ stat, around.lstat questions fs path = .ok stat ∧ stat.isDir = true ∧
    (around.withPosixPermissions = true →
      canSearchDirectory around.euid around.egid stat = true)

end

theorem isLink_of_isDir {stat : Stat} (directory : stat.isDir = true) : stat.isLink = false := by
  unfold Stat.isLink
  rw [beq_iff_eq.mp directory]
  decide

/-- Two resolutions that differ in a slash at the end of the string. As long as no link is followed,
the first string has the same end. -/
structure Paired (around : Surroundings FS) (root : FS) (last : Option Letter)
    (one other : PathResolution FS) (components : List Path) (rest : Path) : Prop where
  tracked : Tracked around root one components (some rest)
  otherTracked : Tracked around root other components (some (rest ++ [.slash]))
  linksFollowed_eq : other.linksFollowed = one.linksFollowed
  questions_eq : other.questions = one.questions
  followed_eq : other.followed = one.followed
  closing : one.followed = 0 → rest ≠ [] → rest.getLast? = last

/-- The two answers about a component. Both follow the same link, unless the second string gets too
long, or the first stays at the component, and the second too if more than a slash follows. -/
def Agree (around : Surroundings FS) (root : FS) (last : Option Letter) (components : List Path)
    (behind : Option Path) (followed : Nat) (answer reply : Int × PathResolution FS) : Prop :=
  (answer.1 = 0 ∧ answer.2.followed ≠ 0 ∧ (reply.1 = -ENAMETOOLONG ∨
    reply.1 = 0 ∧ ∃ later more, Paired around root last answer.2 reply.2 later more)) ∨
  (Tracked around root answer.2 components behind ∧ answer.2.followed = followed ∧
    ∀ more, behind = some more → more ≠ [] →
      reply.1 = answer.1 ∧ Paired around root last answer.2 reply.2 components more)

section

variable {segment : Path} {behind : Option Path}
  (paired : Paired around root last one other components (segment ++ following behind))

include paired

variable (name : Name segment)

include name

end

/-! ### Two runs -/

/-- The first string is at its end, and there is at most a slash left of the second one. -/
structure Ending (around : Surroundings FS) (root : FS) (one other : PathResolution FS)
    (components : List Path) : Prop where
  ended : ∃ rest, Tracked around root one components rest ∧ (following rest).length ≤ 1
  otherEnding : ∃ rest, Tracked around root other components (some rest) ∧
    (rest = [] ∨ rest = [.slash])
  followed_eq : other.followed = one.followed

theorem tolerated_eq (place : At state components rest) {result : Int} :
    tolerated around result state =
      (around.withPosixPermissions && result == -ENOENT && (following rest).length ≤ 1) := by
  unfold tolerated
  rw [decide_eq_decide.mpr place.ended_iff]

theorem excused_of_ne (other : answer.1 ≠ -ENOENT) : excused around answer = answer := by
  unfold excused tolerated
  rw [beq_eq_false_iff_ne.mpr other, Bool.and_false, Bool.false_and, if_neg Bool.false_ne_true]

section

variable {segment : Path} {behind : Option Path}
  (paired : Paired around root last one other components (segment ++ following behind))
  (name : Name segment)

include paired name

end

/-- If nothing follows a component without a name, one round ends the resolution. -/
theorem loop_unnamed {segment : Path} {behind : Option Path} (plain : .slash ∉ segment)
    (skipped : segment = [] ∨ segment = [.dot]) (nothing : behind.getD [] = [])
    (tracked : Tracked around root state components (some (segment ++ following behind)))
    (followLastSymlink : Bool) (fuel : Nat) :
    loop around followLastSymlink (fuel + 1) state =
      some (.ok (result around root components state.followed)) := by
  have skip := tracked.skip plain skipped
  have ended : (following (some (behind.getD []))).length ≤ 1 := by
    rw [nothing]
    exact le_rfl
  have step := @Round.eq _ around _ _ _ _ followLastSymlink tracked.place (.skip plain skipped)
  rw [loop_eq step, if_neg (lt_irrefl 0), if_pos (skip.place.ended_iff.mpr ended),
    skip.finish ended]
  rfl

/-- If nothing or a slash is left, one round ends the resolution. -/
theorem loop_skip {behind : Option Path} (nothing : behind.getD [] = [])
    (tracked : Tracked around root state components (some (following behind)))
    (followLastSymlink : Bool) (fuel : Nat) :
    loop around followLastSymlink (fuel + 1) state =
      some (.ok (result around root components state.followed)) :=
  @loop_unnamed _ _ _ _ _ [] behind not_mem_nil (.inl rfl) nothing tracked
    followLastSymlink fuel

theorem Ending.loop (followLastSymlink : Bool) (ending : Ending around root one other components) :
    (if other.path.length ≤ other.index then other.finish.map Except.ok
      else loop around followLastSymlink (fuel + 1) other) =
    some (.ok (result around root components one.followed)) := by
  obtain ⟨rest, tracked, rfl | rfl⟩ := ending.otherEnding
  · rw [if_pos (tracked.place.ended_iff.mpr le_rfl), tracked.finish le_rfl, ending.followed_eq]
    rfl
  · rw [if_neg fun ended => absurd (tracked.place.ended_iff.mp ended) (by decide)]
    rw [@loop_skip _ _ _ _ _ (some []) rfl tracked, ending.followed_eq]

end Miosix.Filesystem
