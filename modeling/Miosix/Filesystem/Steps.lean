/-
This file says what one step of a path resolution does. The string consists of the components that
are handled, each with a slash in front of it, and of what follows them. The position that is
reached is behind the slash in front of the rest, or two behind the end of the string when nothing
is left. In these terms a component that is empty or `.` disappears from the rest, a `..` takes the
last component that is handled away, another component is handled and may turn out to be a mount
point or a symbolic link, and the target of a link is put in front of the rest.
-/

import Miosix.Filesystem.Resolution

namespace Miosix.Filesystem

open Segments PathResolution List

/-! ### Positions -/

/-- What follows the components that are handled: nothing, or a slash and what is not handled. -/
def following : Option Path → Path
  | none => []
  | some rest => .slash :: rest

/-- The state in front of `rest`, with the components that are handled in front of it. -/
structure At {FS : Type} (state : PathResolution FS) (components : List Path)
    (rest : Option Path) : Prop where
  path_eq : state.path = render .slash components ++ following rest
  index_eq : state.index = (render .slash components).length + 1
  plain : ∀ segment ∈ components, .slash ∉ segment
  nonempty : state.path ≠ []

variable {FS : Type} {around : Surroundings FS} {state next : PathResolution FS}
  {components : List Path} {rest : Option Path}

theorem At.length_path (place : At state components rest) :
    state.path.length = (render .slash components).length + (following rest).length := by
  rw [place.path_eq, length_append]

theorem At.ended_iff (place : At state components rest) :
    state.path.length ≤ state.index ↔ (following rest).length ≤ 1 := by
  rw [place.length_path, place.index_eq]
  omega

theorem At.exists_rest (place : At state components rest)
    (unfinished : ¬ state.path.length ≤ state.index) : ∃ more, rest = some more := by
  cases rest with
  | none => exact absurd (place.ended_iff.mpr (Nat.zero_le 1)) unfinished
  | some more => exact ⟨more, rfl⟩

/-- The string up to the position that is reached. -/
theorem At.path_split {rest : Path} (place : At state components (some rest)) :
    ∃ front : Path, front = render .slash components ++ [.slash] ∧
      state.path = front ++ rest ∧ state.index = front.length := by
  refine ⟨_, rfl, ?_, ?_⟩
  · rw [place.path_eq, append_assoc]
    rfl
  · rw [place.index_eq, length_append]
    rfl

theorem At.slash_eq {segment : Path} {behind : Option Path}
    (place : At state components (some (segment ++ following behind)))
    (plain : .slash ∉ segment) :
    (findFirst .slash state.path state.index).getD state.path.length =
      state.index + segment.length := by
  obtain ⟨front, -, path, index⟩ := place.path_split
  rw [path, index]
  cases behind with
  | none =>
    rw [following, append_nil, findFirst_of_plain plain, Option.getD_none, length_append]
  | some more => rw [following, findFirst_append_separator plain, Option.getD_some]

theorem At.getElem?_path {rest : Path} (place : At state components (some rest))
    (offset : Nat) : state.path[state.index + offset]? = rest[offset]? := by
  obtain ⟨front, -, path, index⟩ := place.path_split
  rw [path, index, List.getElem?_append_right (by omega), Nat.add_sub_cancel_left]

variable {segment more : Path} {behind : Option Path} {count : Nat} {path : Path}
  {init kept : List Path} {target : Path}

/-- A component is erased together with the slash behind it, if there is one. -/
theorem At.erase_eq (place : At state components (some (segment ++ following behind))) :
    erase state.path state.index (segment.length + 1) =
      some (render .slash components ++ following (some (behind.getD []))) := by
  obtain ⟨front, rfl, path, index⟩ := place.path_split
  have removed : (segment ++ following behind).drop (segment.length + 1) = behind.getD [] := by
    rw [drop_append, drop_of_length_le (by omega), Nat.add_sub_cancel_left]
    cases behind <;> rfl
  rw [erase, if_neg (by rw [path, index, length_append]; omega), path, index, take_left,
    drop_append, drop_of_length_le (by omega), Nat.add_sub_cancel_left, removed,
    append_assoc]
  rfl

theorem isDot_iff : segment.length = 1 ∧ (segment ++ more)[0]? = some .dot ↔ segment = [.dot] := by
  constructor
  · rintro ⟨length, found⟩
    obtain ⟨letter, rfl⟩ := length_eq_one_iff.mp length
    exact congrArg ([·]) (Option.some.inj found)
  · rintro rfl
    exact ⟨rfl, rfl⟩

theorem isDots_iff :
    segment.length = 2 ∧ (segment ++ more)[0]? = some .dot ∧ (segment ++ more)[1]? = some .dot ↔
      segment = [.dot, .dot] := by
  constructor
  · rintro ⟨length, found, foundNext⟩
    obtain ⟨letter, other, rfl⟩ := length_eq_two.mp length
    exact congrArg₂ ([·, ·]) (Option.some.inj found) (Option.some.inj foundNext)
  · rintro rfl
    exact ⟨rfl, rfl, rfl⟩

/-- What is done with a component depends on the component only. -/
theorem component_eq {segment : Path} {behind : Option Path} (followLastSymlink : Bool)
    (place : At state components (some (segment ++ following behind)))
    (plain : .slash ∉ segment) :
    component around followLastSymlink state = if segment = [] ∨ segment = [.dot] then
        some (0, { state with
          path := render .slash components ++ following (some (behind.getD [])) })
      else if segment = [.dot, .dot] then
        upPathComponent around state (state.index + 2)
      else
        (normalPathComponent around { state with index := state.index + segment.length + 1 }
          (if behind = none then followLastSymlink else true)).map fun answer =>
            (if tolerated around answer.1 answer.2 then 0 else answer.1, answer.2) := by
  have last : state.path.length < state.index + segment.length + 1 ↔ behind = none := by
    obtain ⟨front, -, path, index⟩ := place.path_split
    rw [path, index, length_append, length_append]
    cases behind with
    | none => exact iff_of_true (by rw [following, length_nil]; omega) rfl
    | some more =>
      exact iff_of_false (by rw [following, length_cons]; omega) (Option.some_ne_none more)
  have first := place.getElem?_path 0
  have second := place.getElem?_path 1
  have erased := place.erase_eq
  unfold component
  rw [place.slash_eq plain]
  rw [Nat.add_zero] at first
  simp only [Nat.add_sub_cancel_left, last, Nat.add_eq_left, length_eq_zero_iff, first,
    second, isDot_iff, isDots_iff]
  by_cases empty : segment = []
  · subst empty
    rw [if_pos rfl, if_pos (.inl rfl)]
    exact congrArg (Option.map _) erased
  · rw [if_neg empty]
    by_cases dot : segment = [.dot]
    · subst dot
      exact congrArg (Option.map _) erased
    · rw [if_neg dot, if_neg (not_or.mpr ⟨empty, dot⟩)]
      by_cases dots : segment = [.dot, .dot]
      · subst dots
        rfl
      · rw [if_neg dots, if_neg dots]

/-- The state when the component is handled. -/
theorem At.handled (place : At state components (some (segment ++ following behind)))
    (plain : .slash ∉ segment) :
    At { state with index := state.index + segment.length + 1 } (components ++ [segment])
      behind := { place with
  path_eq := by
    rw [render_concat, append_assoc]
    exact place.path_eq
  index_eq := by
    show state.index + segment.length + 1 = _
    rw [place.index_eq, length_render_concat]
    omega
  plain := by
    intro other listed
    rcases mem_append.mp listed with early | here
    · exact place.plain other early
    · rwa [mem_singleton.mp here] }

/-! ### The way up -/

/-- The longest of the first prefixes of a list of components on which a filesystem is mounted, with
the filesystem. If there is none this is the root. -/
def locate (filesystems : Path → Option FS) (root : FS) (components : List Path) : Nat → FS × Nat
  | 0 => (root, 0)
  | count + 1 =>
      match filesystems (render .slash (components.take (count + 1))) with
      | some fs => (fs, count + 1)
      | none => locate filesystems root components count

/-- The state after a search for the filesystem among the first prefixes. -/
def relocated (around : Surroundings FS) (components : List Path) (count : Nat)
    (state : PathResolution FS) : PathResolution FS :=
  let found := locate around.filesystems state.root components count
  { state with
    fs := found.1, syms := around.supportsSymlinks found.1,
    indexIntoFs := (render .slash (components.take found.2)).length + 1,
    depthIntoFs := state.depthIntoFs + (count - found.2) }

theorem render_take_succ (within : count < components.length) :
    render Letter.slash (components.take (count + 1)) =
      render .slash (components.take count) ++ .slash :: components.get ⟨count, within⟩ := by
  rw [← render_concat, get_eq_getElem, ← take_concat_get' components count within]

theorem render_eq_take_append (components : List Path) (count : Nat) :
    render Letter.slash components =
      render .slash (components.take count) ++ render .slash (components.drop count) := by
  rw [← render_append, take_append_drop]

/-- The last slash in front of the end of a component is the one in front of the component. -/
theorem findLast_before
    (plain : ∀ segment ∈ components, .slash ∉ segment) (within : count < components.length)
    (path_eq : path = render .slash components ++ more) :
    findLast .slash path ((render .slash (components.take (count + 1))).length - 1) =
      some (render .slash (components.take count)).length := by
  rw [path_eq, render_eq_take_append components (count + 1), render_take_succ within,
    append_assoc, append_assoc]
  refine findLast_segment (plain _ (get_mem _ _)) ?_ (.inl ?_)
  · rw [length_append, length_cons]
    omega
  · rw [length_append, length_cons]
    omega

theorem recursiveFindFsLoop_eq (plain : ∀ segment ∈ components, .slash ∉ segment)
    (fuel backIndex : Nat) (state : PathResolution FS) (enough : count < fuel)
    (within : count ≤ components.length) (path : state.path = render .slash components ++ more)
    (found : findLast .slash state.path (backIndex - 1) =
      some (render .slash (components.take count)).length) :
    recursiveFindFsLoop around fuel backIndex state =
      some (0, relocated around components count state) := by
  induction count generalizing fuel backIndex state with
  | zero =>
    obtain ⟨fuel, rfl⟩ := Nat.exists_eq_succ_of_ne_zero (Nat.ne_of_gt enough)
    rw [recursiveFindFsLoop, found]
    simp [relocated, locate, render]
  | succ count inductionHypothesis =>
    obtain ⟨fuel, rfl⟩ := Nat.exists_eq_succ_of_ne_zero (Nat.ne_of_gt (by omega : 0 < fuel))
    have later : (render .slash (components.take (count + 1))).length ≠ 0 := by
      rw [render_take_succ within, length_append, length_cons]
      omega
    have key : stringPart state.path (render .slash (components.take (count + 1))).length 0 =
        render .slash (components.take (count + 1)) := by
      rw [stringPart, path, render_eq_take_append components (count + 1), append_assoc,
        take_left, drop_zero]
    rw [recursiveFindFsLoop, found]
    simp only
    rw [if_neg later, key]
    cases mounted : around.filesystems (render .slash (components.take (count + 1))) with
    | some fs => simp [relocated, locate, mounted]
    | none =>
      have same : relocated around components count
            { state with depthIntoFs := state.depthIntoFs + 1 } =
          relocated around components (count + 1) state := by
        simp only [relocated, locate, mounted, Nat.cast_add, Nat.cast_one, PathResolution.mk.injEq,
          true_and, and_true]
        omega
      exact (inductionHypothesis fuel _ { state with depthIntoFs := state.depthIntoFs + 1 }
        (by omega) (by omega) path (findLast_before plain within path)).trans
          (congrArg (fun next => some (0, next)) same)

section

variable (components : List Path) (behind : Option Path)

/-- What follows the components that are left after a `..`. -/
def settled : Option Path :=
  if components = [] then some (behind.getD []) else behind

/-- The state when a `..` and the component in front of it are removed. -/
def lifted (state : PathResolution FS) :
    PathResolution FS :=
  let path := render .slash components ++ following (settled components behind)
  { state with
    path := path, index := (render .slash components).length + 1,
    indexIntoFs := min path.length state.indexIntoFs, depthIntoFs := state.depthIntoFs - 1 }

/-- The number of components that are searched for a filesystem after a `..`. If the string ends
here, the last one is not among them. -/
def searched : Nat :=
  if settled components behind = none then components.length - 1 else components.length

end

theorem settled_path : (if render .slash components ++ following behind = [] then [Letter.slash]
      else render .slash components ++ following behind) =
    render .slash components ++ following (settled components behind) := by
  unfold settled
  by_cases top : components = []
  · subst top
    cases behind with
    | none => rfl
    | some more => exact if_neg (cons_ne_nil _ _)
  · rw [if_neg top]
    obtain ⟨init, last, rfl⟩ := eq_nil_or_concat' components |>.resolve_left top
    refine if_neg ?_
    rw [render_concat]
    simp

theorem length_le_length_render (components : List Path) :
    components.length ≤ (render Letter.slash components).length := by
  induction components with
  | nil => exact le_rfl
  | cons first more inductionHypothesis =>
    have step : render Letter.slash (first :: more) = (.slash :: first) ++ render .slash more := rfl
    rw [step, length_append, length_cons, length_cons]
    omega

theorem at_lifted {init : List Path} {behind : Option Path} (state : PathResolution FS)
    (plain : ∀ segment ∈ init, .slash ∉ segment) :
    At (lifted init behind state) init (settled init behind) where
  path_eq := rfl
  index_eq := rfl
  plain := plain
  nonempty := by
    show render .slash init ++ following (settled init behind) ≠ []
    rw [← settled_path]
    split
    · exact cons_ne_nil _ _
    · assumption

theorem recursiveFindFs_lifted (plain : ∀ segment ∈ init, .slash ∉ segment) :
    recursiveFindFs around (lifted init behind state) =
      some (0, relocated around init (searched init behind)
        { lifted init behind state with depthIntoFs := 1 }) := by
  have bound := length_le_length_render init
  have fewer : searched init behind ≤ init.length := by
    unfold searched
    split <;> omega
  refine recursiveFindFsLoop_eq plain _ _ _ ?_ fewer rfl ?_
  · show _ < (render .slash init).length + 1 + 1
    omega
  · show findLast .slash (render .slash init ++ following (settled init behind))
      (render .slash init).length = _
    unfold searched
    cases left : settled init behind with
    | some more =>
      rw [if_neg (Option.some_ne_none more), take_length]
      exact @findLast_segment _ _ _ _ [] more _ not_mem_nil le_rfl (.inl le_rfl)
    | none =>
      have lower : init ≠ [] := by
        rintro rfl
        exact Option.some_ne_none _ left
      obtain ⟨upper, last, rfl⟩ := (eq_nil_or_concat' init).resolve_left lower
      rw [if_pos rfl, following, append_nil, render_concat, length_append,
        length_append, length_singleton, Nat.add_sub_cancel, take_left]
      have found := @findLast_segment _ Letter.slash _ (render .slash upper) last []
        ((render .slash upper).length + (Letter.slash :: last).length)
        (plain _ (mem_append_right _ mem_cons_self)) (by omega) (.inr rfl)
      rwa [append_nil] at found

theorem clamp_eq_min {length position : Nat} :
    (if length < position then length else position) = min length position := by
  split <;> omega

theorem upPathComponent_eq {init : List Path} {last : Path} {behind : Option Path}
    (place : At state (init ++ [last]) (some ([.dot, .dot] ++ following behind))) :
    upPathComponent around state (state.index + 2) =
      some (0, if 0 < state.depthIntoFs - 1 then lifted init behind state
        else relocated around init (searched init behind)
          { lifted init behind state with depthIntoFs := 1 }) := by
  have plainLast := place.plain last (mem_append_right _ mem_cons_self)
  have plainInit : ∀ segment ∈ init, .slash ∉ segment := fun segment listed =>
    place.plain segment (mem_append_left _ listed)
  have index : state.index = (render Letter.slash init).length + last.length + 2 := by
    rw [place.index_eq, length_render_concat]
  have path : state.path = render .slash init ++
      (.slash :: last ++ .slash :: ([.dot, .dot] ++ following behind)) := by
    rw [place.path_eq, render_concat, append_assoc]
    rfl
  have found : findLast .slash state.path (state.index - 2) = some (render .slash init).length := by
    rw [path]
    exact findLast_segment plainLast (by omega) (.inl (by omega))
  have erased : erase state.path (render .slash init).length
      (state.index + 2 - (render .slash init).length) =
        some (render .slash init ++ following behind) := by
    obtain ⟨removed, removed_eq⟩ : ∃ removed : Path,
        removed = .slash :: last ++ [.slash, .dot, .dot] := ⟨_, rfl⟩
    have cut : state.path = (render .slash init ++ removed) ++ following behind := by
      rw [path, removed_eq]
      simp
    have length : (render .slash init ++ removed).length = state.index + 2 := by
      rw [removed_eq]
      simp only [length_append, length_cons, length_nil]
      omega
    have first : state.path.take (render .slash init).length = render .slash init := by
      rw [path, take_left]
    rw [erase, if_neg (by rw [path, length_append]; omega), first,
      Nat.add_sub_cancel' (by omega), ← length, cut, drop_left]
  unfold upPathComponent
  rw [if_neg (by omega), found]
  simp only
  rw [erased]
  simp only [settled_path, clamp_eq_min]
  split
  · rfl
  · exact recursiveFindFs_lifted plainInit

/-! ### Symbolic links -/

section

variable (around : Surroundings FS) (kept : List Path) (rest : Option Path)
  (state : PathResolution FS)

/-- What a target does to the state. A relative one replaces what follows the components that are
kept, an absolute one replaces these as well. -/
def redirected (target : Path)
    (state : PathResolution FS) : Int × PathResolution FS :=
  if target = [] then (-ENOENT, state)
  else if target[0]? = some .slash then
    if around.pathMax < (target ++ following rest).length then (-ENAMETOOLONG, state)
    else
      (0, { state with
        path := target ++ following rest, fs := state.root,
        syms := around.supportsSymlinks state.root, index := 1, indexIntoFs := 1,
        depthIntoFs := 1, followed := state.followed + 1 })
  else
    if around.pathMax < (render .slash kept ++ .slash :: (target ++ following rest)).length then
      (-ENAMETOOLONG, state)
    else
      (0, { state with
        path := render .slash kept ++ .slash :: (target ++ following rest),
        index := (render .slash kept).length + 1, depthIntoFs := state.depthIntoFs - 1,
        followed := state.followed + 1 })

/-- The state after the answer of `readlink`. -/
def linked : Except Int Path → Int × PathResolution FS
  | .error result => (result, state)
  | .ok target => redirected around kept rest target state

end

/-- The question that is asked about the components that are handled. -/
def subject (components : List Path) (state : PathResolution FS) : Path :=
  (render .slash components).drop state.indexIntoFs

section

variable (place : At state components rest)
include place

theorem At.take_path : state.path.take (state.index - 1) = render .slash components := by
  rw [place.index_eq, place.path_eq, Nat.add_sub_cancel, take_left]

theorem At.stringPart_eq :
    stringPart state.path (state.index - 1) state.indexIntoFs = subject components state := by
  rw [stringPart, place.take_path, subject]

theorem At.behind_eq :
    (if state.index ≤ state.path.length then state.path.drop (state.index - 1) else []) =
      following rest := by
  have dropped : state.path.drop (state.index - 1) = following rest := by
    rw [place.index_eq, place.path_eq, Nat.add_sub_cancel, drop_left]
  split
  · exact dropped
  · have length := place.length_path
    have index := place.index_eq
    exact (length_eq_zero_iff.mp (by omega)).symm

end

section

variable (around : Surroundings FS) (components kept : List Path) (rest : Option Path)
  (followIfSymlink : Bool) (state : PathResolution FS)

/-- The components up to the slash that is found are kept. -/
structure Keeps (kept : List Path) : Prop where
  found : findLast .slash state.path state.searchStart = some (render .slash kept).length
  front : state.path.take ((render .slash kept).length + 1) = render .slash kept ++ [.slash]
  plain : ∀ segment ∈ kept, .slash ∉ segment

/-- The state after a link is found. -/
def pursued : Int × PathResolution FS :=
  if maxLinkToFollow ≤ state.linksFollowed + 1 then
    (-ELOOP, { state with linksFollowed := state.linksFollowed + 1 })
  else
    linked around kept rest
      { state with linksFollowed := state.linksFollowed + 1, questions := state.questions + 1 }
      (around.readlink state.questions state.fs (subject components state))

/-- The state after the answer of `lstat`. -/
def judged : Except Int Stat → Int × PathResolution FS
  | .error result => (result, state)
  | .ok stat =>
      if stat.isLink then pursued around components kept rest state
      else if rest ≠ none ∧ stat.isDir = false then (-ENOTDIR, state)
      else if around.withPosixPermissions ∧ 1 < (following rest).length ∧
          canSearchDirectory around.euid around.egid stat = false then
        (-EACCES, state)
      else (0, state)

/-- The state after a component that is not a mount point. -/
def visited : Int × PathResolution FS :=
  if around.withPosixPermissions || (state.syms && followIfSymlink) then
    judged around components kept rest
      { state with depthIntoFs := state.depthIntoFs + 1, questions := state.questions + 1 }
      (around.lstat state.questions state.fs (subject components state))
  else (0, { state with depthIntoFs := state.depthIntoFs + 1 })

/-- The state after a component on which a filesystem is mounted. -/
def entered (fs : FS) (state : PathResolution FS) : PathResolution FS :=
  { state with
    fs := fs, syms := around.supportsSymlinks fs,
    indexIntoFs := min state.path.length state.index, depthIntoFs := 1 }

end

section

variable {kept : List Path} (place : At state components rest) (keeps : Keeps state kept)

include place keeps

theorem followSymlink_eq :
    followSymlink around state = some (pursued around components kept rest state) := by
  have behind := place.behind_eq
  have length := place.length_path
  have index := place.index_eq
  unfold followSymlink pursued
  simp only
  split
  · rfl
  · rw [place.stringPart_eq]
    cases around.readlink state.questions state.fs (subject components state) with
    | error result => rfl
    | ok target =>
      simp only [linked, redirected, behind]
      split
      · rfl
      · rename_i nonempty
        have positive : 0 < target.length := length_pos_of_ne_nil nonempty
        split
        · have size : target.length + state.path.length - state.index + 1 =
              (target ++ following rest).length := by
            rw [length_append]
            omega
          rw [size]
          split <;> rfl
        · have found : findLast .slash state.path (searchStart { state with
              linksFollowed := state.linksFollowed + 1, questions := state.questions + 1 }) =
                some (render .slash kept).length := keeps.found
          have within : (render .slash kept).length + 1 ≤ state.path.length := by
            have cut := congrArg List.length keeps.front
            rw [length_take, length_append, length_singleton] at cut
            omega
          have size : state.path.length + (render .slash kept).length + 2 + target.length -
              state.index =
                (render .slash kept ++ .slash :: (target ++ following rest)).length := by
            simp only [length_append, length_cons]
            omega
          rw [found]
          simp only [keeps.front, size, append_assoc, cons_append, nil_append]
          split <;> rfl

theorem inspect_eq : inspect around state = some (judged around components kept rest
      { state with questions := state.questions + 1 }
      (around.lstat state.questions state.fs (subject components state))) := by
  have length := place.length_path
  have index := place.index_eq
  have more : state.index ≤ state.path.length ↔ rest ≠ none := by
    cases rest with
    | none => exact iff_of_false (by rw [following, length_nil] at length; omega) (by simp)
    | some more =>
      exact iff_of_true (by rw [following, length_cons] at length; omega) (by simp)
  have further : state.index < state.path.length ↔ 1 < (following rest).length := by omega
  unfold inspect
  rw [place.stringPart_eq]
  cases around.lstat state.questions state.fs (subject components state) with
  | error result => rfl
  | ok stat =>
    simp only [judged, more, further]
    by_cases link : stat.isLink = true
    · rw [if_pos link, if_pos link]
      exact @followSymlink_eq FS around { state with questions := state.questions + 1 } _ _ kept
        { place with } { keeps with }
    · rw [if_neg link, if_neg link]
      split
      · rfl
      · split <;> rfl

end

theorem normalPathComponent_mounted {fs : FS} (followIfSymlink : Bool)
    (place : At state components rest)
    (mounted : around.filesystems (render .slash components) = some fs) :
    normalPathComponent around state followIfSymlink = some (0, entered around fs state) := by
  have index := place.index_eq
  have length := place.length_path
  unfold normalPathComponent
  rw [stringPart, place.take_path, drop_zero, mounted]
  simp only [entered]
  rw [show (if state.path.length < state.index then state.index - 1 else state.index) =
    min state.path.length state.index by split <;> omega]

theorem normalPathComponent_free {kept : List Path} (followIfSymlink : Bool)
    (place : At state components rest) (keeps : Keeps state kept)
    (free : around.filesystems (render .slash components) = none) :
    normalPathComponent around state followIfSymlink =
      some (visited around components kept rest followIfSymlink state) := by
  unfold normalPathComponent visited
  rw [stringPart, place.take_path, drop_zero, free]
  simp only
  split
  · exact @inspect_eq FS around { state with depthIntoFs := state.depthIntoFs + 1 } _ _ kept
      { place with } { keeps with }
  · rfl

/-! ### What a visit finds -/

theorem exists_of_head (absolute : path.head? = some .slash) : ∃ more, path = .slash :: more := by
  cases path with
  | nil => nomatch absolute
  | cons letter more => exact ⟨more, congrArg (· :: more) (Option.some.inj absolute)⟩

theorem exists_of_absolute (absolute : target[0]? = some .slash) :
    ∃ more, target = .slash :: more :=
  exists_of_head (List.head?_eq_getElem?.trans absolute)

section

variable (around : Surroundings FS) (components kept : List Path) (rest : Option Path)
  (followIfSymlink : Bool) (state : PathResolution FS)

/-- The string with the target of a link. -/
def destination (target : Path) : Path :=
  if target[0]? = some .slash then target ++ following rest
  else render .slash kept ++ .slash :: (target ++ following rest)

/-- The first link was read. -/
structure Reads (answer : Except Int Path) : Prop where
  first : state.linksFollowed = 0
  read : around.readlink state.questions state.fs (subject components state) = answer

def afterRead : PathResolution FS :=
  { state with linksFollowed := state.linksFollowed + 1, questions := state.questions + 1 }

/-- What is found at a link, with the answer. -/
inductive Pursuit : Int × PathResolution FS → Prop where
  | loops (many : maxLinkToFollow ≤ state.linksFollowed + 1) :
      Pursuit (-ELOOP, { state with linksFollowed := state.linksFollowed + 1 })
  | unread {code : Int} (reads : Reads around components state (.error code)) :
      Pursuit (code, afterRead state)
  | empty (reads : Reads around components state (.ok [])) : Pursuit (-ENOENT, afterRead state)
  | tooLong {target : Path} (reads : Reads around components state (.ok target))
      (full : target ≠ []) (long : around.pathMax < (destination kept rest target).length) :
      Pursuit (-ENAMETOOLONG, afterRead state)
  | absolute {more : Path} (reads : Reads around components state (.ok (.slash :: more)))
      (fits : (destination kept rest (.slash :: more)).length ≤ around.pathMax) :
      Pursuit (0, { afterRead state with
        path := .slash :: more ++ following rest, fs := state.root,
        syms := around.supportsSymlinks state.root, index := 1, indexIntoFs := 1,
        depthIntoFs := 1, followed := state.followed + 1 })
  | relative {target : Path} (reads : Reads around components state (.ok target))
      (full : target ≠ []) (relative : target[0]? ≠ some .slash)
      (fits : (destination kept rest target).length ≤ around.pathMax) :
      Pursuit (0, { afterRead state with
        path := render .slash kept ++ .slash :: (target ++ following rest),
        index := (render .slash kept).length + 1, depthIntoFs := state.depthIntoFs - 1,
        followed := state.followed + 1 })

/-- It was asked what the component is. -/
structure Asked (answer : Except Int Stat) : Prop where
  asks : (around.withPosixPermissions || (state.syms && followIfSymlink)) = true
  known : around.lstat state.questions state.fs (subject components state) = answer

def afterAsked : PathResolution FS :=
  { state with depthIntoFs := state.depthIntoFs + 1, questions := state.questions + 1 }

/-- What is found at a component that is not a mount point, with the answer. -/
inductive Visit : Int × PathResolution FS → Prop where
  | unasked (omits : ¬ (around.withPosixPermissions || (state.syms && followIfSymlink)) = true) :
      Visit (0, { state with depthIntoFs := state.depthIntoFs + 1 })
  | missing {code : Int} (asked : Asked around components followIfSymlink state (.error code)) :
      Visit (code, afterAsked state)
  | link {stat : Stat} {answer : Int × PathResolution FS}
      (asked : Asked around components followIfSymlink state (.ok stat))
      (link : stat.isLink = true)
      (pursuit : Pursuit around components kept rest (afterAsked state) answer) : Visit answer
  | file {stat : Stat} (asked : Asked around components followIfSymlink state (.ok stat))
      (unlinked : ¬ stat.isLink = true) (file : rest ≠ none ∧ stat.isDir = false) :
      Visit (-ENOTDIR, afterAsked state)
  | denied {stat : Stat} (asked : Asked around components followIfSymlink state (.ok stat))
      (unlinked : ¬ stat.isLink = true) (directory : ¬ (rest ≠ none ∧ stat.isDir = false))
      (denied : around.withPosixPermissions ∧ 1 < (following rest).length ∧
        canSearchDirectory around.euid around.egid stat = false) :
      Visit (-EACCES, afterAsked state)
  | passed {stat : Stat} (asked : Asked around components followIfSymlink state (.ok stat))
      (unlinked : ¬ stat.isLink = true) (directory : ¬ (rest ≠ none ∧ stat.isDir = false))
      (granted : ¬ (around.withPosixPermissions ∧ 1 < (following rest).length ∧
        canSearchDirectory around.euid around.egid stat = false)) :
      Visit (0, afterAsked state)

end

theorem pursued_pursuit :
    Pursuit around components kept rest state (pursued around components kept rest state) := by
  unfold pursued
  split
  · exact .loops ‹_›
  · rename_i few
    have first : state.linksFollowed = 0 := by
      unfold maxLinkToFollow at few
      omega
    cases read : around.readlink state.questions state.fs (subject components state) with
    | error code => exact .unread ⟨first, read⟩
    | ok target =>
      unfold linked redirected
      dsimp only
      split
      · subst target
        exact .empty ⟨first, read⟩
      · split
        · rename_i absolute
          obtain ⟨more, rfl⟩ := exists_of_absolute absolute
          split
          · exact .tooLong ⟨first, read⟩ (cons_ne_nil _ _) ‹_›
          · exact .absolute ⟨first, read⟩ (not_lt.mp ‹_›)
        · rename_i full relative
          split
          · refine .tooLong ⟨first, read⟩ full ?_
            rwa [destination, if_neg relative]
          · refine .relative ⟨first, read⟩ full relative ?_
            rwa [destination, if_neg relative, ← not_lt]

variable {followIfSymlink : Bool} {answer : Int × PathResolution FS}

theorem visited_visit (visit : visited around components kept rest followIfSymlink state = answer) :
    Visit around components kept rest followIfSymlink state answer := by
  subst visit
  unfold visited
  split
  · rename_i asks
    cases known : around.lstat state.questions state.fs (subject components state) with
    | error code => exact .missing ⟨asks, known⟩
    | ok stat =>
      unfold judged
      dsimp only
      split
      · exact .link ⟨asks, known⟩ ‹_› pursued_pursuit
      · split
        · exact .file ⟨asks, known⟩ ‹_› ‹_›
        · split
          · exact .denied ⟨asks, known⟩ ‹_› ‹_› ‹_›
          · exact .passed ⟨asks, known⟩ ‹_› ‹_› ‹_›
  · exact .unasked ‹_›

theorem Pursuit.eq (pursuit : Pursuit around components kept rest state answer) :
    pursued around components kept rest state = answer := by
  have few (first : state.linksFollowed = 0) : ¬ maxLinkToFollow ≤ state.linksFollowed + 1 := by
    rw [first]
    decide
  unfold pursued
  cases pursuit with
  | loops many => rw [if_pos many]
  | unread reads | empty reads =>
    rw [if_neg (few reads.first), reads.read]
    rfl
  | tooLong reads full long =>
    rw [if_neg (few reads.first), reads.read, linked, redirected, if_neg full]
    unfold destination at long
    split at long
    · rw [if_pos ‹_›, if_pos long]
      rfl
    · rw [if_neg ‹_›, if_pos long]
      rfl
  | absolute reads fits =>
    rw [if_neg (few reads.first), reads.read]
    exact if_neg (not_lt.mpr fits)
  | relative reads full relative fits =>
    rw [destination, if_neg relative] at fits
    rw [if_neg (few reads.first), reads.read, linked, redirected, if_neg full, if_neg relative,
      if_neg (not_lt.mpr fits)]
    rfl

theorem Visit.eq (visit : Visit around components kept rest followIfSymlink state answer) :
    visited around components kept rest followIfSymlink state = answer := by
  unfold visited
  cases visit with
  | unasked omits => rw [if_neg omits]
  | missing asked =>
    rw [if_pos asked.asks, asked.known]
    rfl
  | link asked link pursuit =>
    rw [if_pos asked.asks, asked.known, judged, if_pos link]
    exact pursuit.eq
  | file asked unlinked file =>
    rw [if_pos asked.asks, asked.known, judged, if_neg unlinked, if_pos file]
    rfl
  | denied asked unlinked directory denied =>
    rw [if_pos asked.asks, asked.known, judged, if_neg unlinked, if_neg directory, if_pos denied]
    rfl
  | passed asked unlinked directory granted =>
    rw [if_pos asked.asks, asked.known, judged, if_neg unlinked, if_neg directory, if_neg granted]
    rfl

/-- Neither the string nor the position in it is changed. -/
structure Stays (state next : PathResolution FS) : Prop where
  path_eq : next.path = state.path
  index_eq : next.index = state.index
  root_eq : next.root = state.root
  followed_eq : next.followed = state.followed
  linksFollowed_le : state.linksFollowed ≤ next.linksFollowed

/-- The target of the first link is put in front of the rest of the string. -/
structure Jumps (around : Surroundings FS) (state next : PathResolution FS)
    (kept : List Path) : Prop where
  root_eq : next.root = state.root
  followed_eq : next.followed = state.followed + 1
  linksFollowed_eq : state.linksFollowed = 0
  linksFollowed_next : next.linksFollowed = 1
  lands : ∃ components rest, At next components (some rest) ∧ rest.length ≤ around.pathMax ∧
    (components = [] ∨ components = kept)

theorem Stays.at_next (stays : Stays state next) (place : At state components rest) :
    At next components rest := { place with
  path_eq := stays.path_eq.trans place.path_eq
  index_eq := stays.index_eq.trans place.index_eq
  nonempty := stays.path_eq.symm ▸ place.nonempty }

theorem Pursuit.spec (plain : ∀ segment ∈ kept, .slash ∉ segment)
    (pursuit : Pursuit around components kept rest state answer) :
    Stays state answer.2 ∨ Jumps around state answer.2 kept := by
  cases pursuit with
  | absolute reads fits =>
    refine .inr ⟨rfl, rfl, reads.first, congrArg (· + 1) reads.first, [], _,
      ⟨rfl, rfl, nofun, cons_ne_nil _ _⟩, (Nat.le_succ _).trans fits, .inl rfl⟩
  | relative reads full relative fits =>
    rw [destination, if_neg relative, length_append, length_cons] at fits
    exact .inr ⟨rfl, rfl, reads.first, congrArg (· + 1) reads.first, kept, _,
      ⟨rfl, rfl, plain, by simp⟩, by omega, .inr rfl⟩
  | _ => exact .inl ⟨rfl, rfl, rfl, rfl, Nat.le_succ _⟩

theorem Visit.spec (plain : ∀ segment ∈ kept, .slash ∉ segment)
    (visit : Visit around components kept rest followIfSymlink state answer) :
    Stays state answer.2 ∨ Jumps around state answer.2 kept := by
  cases visit with
  | link asked link pursuit =>
    exact (pursuit.spec plain).imp (fun stays => { stays with }) fun jumps => { jumps with }
  | _ => exact .inl ⟨rfl, rfl, rfl, rfl, le_rfl⟩

theorem At.keeps {last : Path} (place : At state (init ++ [last]) rest) : Keeps state init := by
  have index : state.index = (render Letter.slash init).length + last.length + 2 := by
    rw [place.index_eq, length_render_concat]
  have path : state.path = render .slash init ++ (.slash :: last ++ following rest) := by
    rw [place.path_eq, render_concat, append_assoc]
  refine ⟨?_, ?_, fun segment listed => place.plain segment (mem_append_left _ listed)⟩
  · rw [path, searchStart, if_neg (by omega)]
    exact findLast_segment (place.plain last (mem_append_right _ mem_cons_self))
      (by omega) (.inl (by omega))
  · rw [path, cons_append, append_cons, take_append_of_le_length (by simp),
      take_of_length_le (by simp)]

/-- In front of the first component everything up to the last slash is kept. -/
theorem At.exists_keeps {rest : Path} (place : At state [] (some rest)) :
    ∃ kept, Keeps state kept := by
  have path : state.path = .slash :: rest := place.path_eq
  obtain ⟨segments, plain, rendered, nonempty⟩ := @exists_render _ Letter.slash _ rest
  obtain ⟨kept, last, rfl⟩ := (eq_nil_or_concat' segments).resolve_left nonempty
  have text : state.path = render .slash kept ++ (.slash :: last ++ []) := by
    rw [path, rendered, render_concat, append_nil]
  refine ⟨kept, ?_, ?_, fun segment listed => plain segment (mem_append_left _ listed)⟩
  · have first : state.index < 2 := by
      rw [place.index_eq]
      decide
    rw [searchStart, if_pos first, text]
    refine findLast_segment (plain last (mem_append_right _ mem_cons_self)) ?_ (.inr rfl)
    rw [length_append]
    omega
  · rw [text, cons_append, append_cons, take_append_of_le_length (by simp),
      take_of_length_le (by simp)]

theorem normalPathComponent_spec {kept : List Path} (followIfSymlink : Bool)
    (place : At state components rest) (keeps : Keeps state kept) :
    ∃ answer, normalPathComponent around state followIfSymlink = some answer ∧
      (Stays state answer.2 ∨ Jumps around state answer.2 kept) := by
  cases mounted : around.filesystems (render .slash components) with
  | some fs =>
    exact ⟨_, normalPathComponent_mounted followIfSymlink place mounted,
      .inl ⟨rfl, rfl, rfl, rfl, le_rfl⟩⟩
  | none =>
    exact ⟨_, normalPathComponent_free followIfSymlink place keeps mounted,
      (visited_visit rfl).spec keeps.plain⟩

/-- What is not a link is not followed. -/
theorem normalPathComponent_stays (place : At state components rest) (keeps : Keeps state kept)
    (unlinked : ∀ stat, around.lstat state.questions state.fs (subject components state) =
      .ok stat → stat.isLink = false)
    (result : normalPathComponent around state followIfSymlink = some answer) :
    Stays state answer.2 := by
  cases mounted : around.filesystems (render .slash components) with
  | some fs =>
    rw [normalPathComponent_mounted followIfSymlink place mounted] at result
    cases result
    exact ⟨rfl, rfl, rfl, rfl, le_rfl⟩
  | none =>
    rw [normalPathComponent_free followIfSymlink place keeps mounted] at result
    cases visited_visit (Option.some.inj result) with
    | link asked link => exact absurd link (by simp [unlinked _ asked.known])
    | _ => exact ⟨rfl, rfl, rfl, rfl, le_rfl⟩

/-! ### The end -/

/-- At the end there is nothing left but a slash, and the string has a last letter. -/
theorem finish_isSome (nonempty : state.path ≠ []) :
    ∃ resolved, state.finish = some resolved ∧ resolved.followed = state.followed := by
  have positive := length_pos_of_ne_nil nonempty
  unfold finish
  rw [List.getElem?_eq_getElem (by omega : state.path.length - 1 < state.path.length)]
  simp only
  split
  · rw [erase, if_neg (by omega)]
    exact ⟨_, rfl, rfl⟩
  · exact ⟨_, rfl, rfl⟩

/-- If the last component is not empty, the components that are handled are what is left. -/
theorem finish_eq (place : At state components rest) (ended : (following rest).length ≤ 1)
    (names : ∀ segment ∈ components, segment ≠ []) :
    state.finish = some
      { path := render .slash components, fs := state.fs,
        off := if rest = none then state.indexIntoFs
          else min (render .slash components).length state.indexIntoFs,
        followed := state.followed } := by
  unfold finish
  rw [← List.getLast?_eq_getElem?]
  cases rest with
  | none =>
    have path : state.path = render .slash components := by
      rw [place.path_eq, following, append_nil]
    obtain ⟨init, last, rfl⟩ := (eq_nil_or_concat' components).resolve_left (by
      rintro rfl
      exact place.nonempty path)
    have full := names last (mem_append_right _ mem_cons_self)
    obtain ⟨letter, found⟩ : ∃ letter, last.getLast? = some letter :=
      ⟨_, List.getLast?_eq_some_getLast full⟩
    have end_eq : state.path.getLast? = some letter := by
      rw [path, render_concat, List.getLast?_append, List.getLast?_cons, found]
      rfl
    have other : letter ≠ .slash := by
      rintro rfl
      exact place.plain last (mem_append_right _ mem_cons_self)
        (mem_of_getLast? found)
    rw [end_eq]
    simp only
    rw [if_neg other, if_pos trivial, path]
  | some more =>
    obtain rfl : more = [] := length_eq_zero_iff.mp (by
      rw [following, length_cons] at ended
      omega)
    have path : state.path = render .slash components ++ [.slash] := place.path_eq
    have erased : erase state.path (state.path.length - 1) 1 = some (render .slash components) := by
      rw [erase, if_neg (by omega), path, length_append, length_singleton,
        Nat.add_sub_cancel, take_left, drop_of_length_le (by simp), append_nil]
    rw [erased, path, List.getLast?_concat]
    simp only [if_true, Option.map_some, clamp_eq_min]
    rw [if_neg (Option.some_ne_none _)]

end Miosix.Filesystem
