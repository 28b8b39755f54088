/-
This file embeds the worker of the SD automounter together with the mount table, which other users
change too. The worker takes the answer that `/sd` is in use for a success, and when the card is
removed it unmounts whatever is mounted there. So a filesystem of somebody else, or of a card that
could not be unmounted, is taken for the one of the card that is in.
-/

import Miosix.Filesystem.Kmount

namespace Miosix.SdAutomounter

open Filesystem Transition

/-! ### The worker -/

def sd : Path := [.slash, .other 115, .other 100]

def mountRetryCount : Nat := 3

def unmountRetryCount : Nat := 3

/-- The worker waits for an edge, tries to mount FAT32 or LittleFS, or tries to unmount. The last
attempt to unmount, with none left, is made by force. -/
inductive Phase where
  | waiting
  | mounting (attempts : Nat) (littleFs : Bool)
  | unmounting (attempts : Nat)
  deriving DecidableEq

structure State where
  table : MountTable Nat
  sdMounted : Bool
  /-- The number of the insertion since the last removal. -/
  card : Option Nat
  insertions : Nat
  phase : Phase

def initial (table : MountTable Nat) : State := ⟨table, false, none, 0, .waiting⟩

/-- A format fails. After the last one the attempt does. -/
def nextFormat (attempts : Nat) (littleFs : Bool) : Phase :=
  if littleFs = false then .mounting attempts true
  else if attempts ≤ 1 then .waiting else .mounting (attempts - 1) false

/-- An edge, a failure before `kmount` is called, of a format or of the whole attempt, the calls of
the worker, and a call of somebody else. -/
inductive Label where
  | edge
  | fail (attempt : Bool)
  | kmount (contents : Contents Nat) (caller : Caller) (fs : Nat)
  | umount (caller : Caller) (tables : DescriptorTables Nat) (areAllFilesClosed : Nat → Nat → Bool)
  | other (call : MountCall Nat)

section

variable (build : Build) (origin : Nat → Option Nat)

/-- Somebody else does not mount a filesystem that the worker created. -/
def foreign : MountCall Nat → Bool
  | .kmount _ _ _ fs => fs.all (origin · = none)
  | .umount _ _ _ _ _ => true

/-- A step. A filesystem that the worker creates is for the insertion that is its `origin`, the
other ones have none. -/
def exec (state : State) : Label → Option State
  | .edge =>
      if state.phase = .waiting then some <|
        match state.card with
        | none => { state with
            card := some state.insertions
            insertions := state.insertions + 1
            phase := if state.sdMounted then .waiting else .mounting mountRetryCount false }
        | some _ => { state with
            card := none
            sdMounted := false
            phase := .unmounting unmountRetryCount }
      else none
  | .fail attempt =>
      match state.phase with
      | .mounting attempts littleFs =>
          some { state with phase := nextFormat attempts (littleFs || attempt) }
      | _ => none
  | .kmount contents caller fs =>
      match state.phase with
      | .mounting attempts littleFs =>
          if state.card ≠ none ∧ origin fs = state.card then
            (Filesystem.kmount build contents caller state.table sd (some fs)).map
              fun (result, table) =>
                if result = 0 ∨ result = -EBUSY then
                  { state with table := table, sdMounted := true, phase := .waiting }
                else { state with table := table, phase := nextFormat attempts littleFs }
          else none
      | _ => none
  | .umount caller tables areAllFilesClosed =>
      match state.phase with
      | .unmounting attempts =>
          let answer := Filesystem.umount build caller state.table tables areAllFilesClosed sd
            (attempts = 0)
          some { state with
            table := answer.2.1
            phase :=
              if attempts = 0 ∨ answer.1 = 0 ∨ answer.1 = -EINVAL then .waiting
              else if answer.1 = -EBUSY then .unmounting (attempts - 1)
              else .unmounting 0 }
      | _ => none
  | .other call =>
      if foreign origin call then
        (execMount build state.table call).map fun table => { state with table := table }
      else none

/-! ### What it is for -/

/-- The card counts as mounted only if the filesystem on `/sd` was created for it. -/
def Mounted (state : State) : Prop := state.sdMounted = true →
  ∃ fs, state.table.lookup sd = some fs ∧ state.card ≠ none ∧ origin fs = state.card

/-- What the worker unmounts is its own. -/
def UnmountsOwn (state next : State) : Label → Prop
  | .umount _ _ _ => ∀ entry ∈ state.table, entry ∉ next.table → origin entry.2 ≠ none
  | _ => True

/-- No card is inserted while a filesystem is still mounted on `/sd`, which is no link to another
directory and not busy for the filesystem below. Nobody else mounts on a name that starts with the
letters of `/sd`, or unmounts the card. -/
def Allowed (state : State) : Label → Prop
  | .edge => state.card = none → state.table.lookup sd = none
  | .kmount contents caller _ =>
      ∀ answer, mountDirectory (surroundings build contents caller state.table) sd = some answer →
        answer = .ok sd ∨ ∃ code ≠ -EBUSY, answer = .error code
  | .other (.kmount contents caller path _) =>
      ∀ key, mountDirectory (surroundings build contents caller state.table) path =
        some (.ok key) → startsWith key sd = false
  | .other (.umount _ _ _ path _) => state.sdMounted = true → startsWith sd path = false
  | _ => True

end

variable {build : Build} {origin : Nat → Option Nat} {state next : State} {label : Label}

/-- Nothing is under way while the card counts as mounted, the mount points that the worker would
unmount are its own, and `/sd` is free when it mounts. -/
structure Sound (origin : Nat → Option Nat) (state : State) : Prop where
  mounted : Mounted origin state
  idle : state.sdMounted = true → state.phase = .waiting
  owned : ∀ entry ∈ state.table, startsWith entry.1 sd = true → origin entry.2 ≠ none
  free : ∀ attempts littleFs, state.phase = .mounting attempts littleFs →
    state.table.lookup sd = none

/-- A successful call of somebody else adds a mount point that does not start with the letters of
`/sd`, or it removes those that start with the letters of a path. -/
theorem other_cases {call : MountCall Nat} {after : MountTable Nat}
    (allowed : Allowed build state (.other call))
    (called : execMount build state.table call = some after) :
    after = state.table ∨
    (∃ key fs, after = state.table ++ [(key, fs)] ∧ startsWith key sd = false) ∨
    ∃ path, (state.sdMounted = true → startsWith sd path = false) ∧
      after = state.table.filter fun entry => !startsWith entry.1 path := by
  cases call with
  | kmount contents caller path mounting =>
    obtain ⟨⟨result, grown⟩, answered, rfl⟩ := Option.map_eq_some_iff.mp called
    rcases kmount_spec answered with ⟨-, rfl⟩ | ⟨-, -, fs, key, -, -, rfl, ⟨rfl, -⟩ | checked⟩
    · exact .inl rfl
    · exact .inr (.inl ⟨_, fs, rfl, rfl⟩)
    · exact .inr (.inl ⟨key, fs, rfl, allowed key checked⟩)
  | umount caller tables areAllFilesClosed path force =>
    cases called
    rcases umount_cases state.table path with removed | ⟨_, -, _, kept, -⟩
    · exact .inr (.inr ⟨path, allowed, by rw [removed]⟩)
    · exact .inl (by rw [kept])

/-- Unmounting a path keeps the other mount points. -/
theorem lookup_filter {table : MountTable Nat} {path key : Path} {fs : Nat}
    (apart : startsWith key path = false) (found : table.lookup key = some fs) :
    (table.filter fun entry => !startsWith entry.1 path).lookup key = some fs := by
  obtain ⟨before, behind, split, earlier⟩ := List.lookup_eq_some_iff.mp found
  refine List.lookup_eq_some_iff.mpr ⟨before.filter fun entry => !startsWith entry.1 path,
    behind.filter fun entry => !startsWith entry.1 path, ?_, fun entry listed =>
      earlier entry (List.mem_of_mem_filter listed)⟩
  rw [split, List.filter_append, List.filter_cons_of_pos (by simp [apart])]

theorem lookup_filter_none {table : MountTable Nat} {key : Path} {kept : Path × Nat → Bool}
    (free : table.lookup key = none) : (table.filter kept).lookup key = none :=
  lookup_eq_none.mpr fun entry listed =>
    lookup_eq_none.mp free entry (List.mem_of_mem_filter listed)

/-- With `/sd` free, the worker mounts on it, or the call fails otherwise than being busy. -/
theorem kmount_sd {contents : Contents Nat} {caller : Caller} {fs : Nat} {result : Int}
    {after : MountTable Nat} (allowed : Allowed build state (.kmount contents caller fs))
    (free : state.table.lookup sd = none)
    (called : Filesystem.kmount build contents caller state.table sd (some fs) =
      some (result, after)) :
    result = 0 ∧ after = state.table ++ [(sd, fs)] ∨
      ¬ (result = 0 ∨ result = -EBUSY) ∧ after = state.table := by
  have below : ¬ (sd = [.slash] ∧ state.table = []) := fun first => nomatch first.1
  simp only [Filesystem.kmount, if_neg (by decide : ¬ sd = []), if_neg below] at called
  split_ifs at called
  · cases called
    exact .inr ⟨by decide, rfl⟩
  · cases called
    exact .inr ⟨by decide, rfl⟩
  · obtain ⟨answer, checked, given⟩ := Option.map_eq_some_iff.mp called
    rcases allowed answer checked with rfl | ⟨code, unused, rfl⟩
    · have mounted : insertMount state.table sd fs = (0, state.table ++ [(sd, fs)]) := if_pos free
      cases mounted.symm.trans given
      exact .inl ⟨rfl, rfl⟩
    · cases given
      exact .inr ⟨not_or.mpr ⟨(negative_of_mountDirectory checked).ne, unused⟩, rfl⟩

section

variable (sound : Sound origin state)
include sound

theorem Sound.unmounted (busy : state.phase ≠ .waiting) : state.sdMounted ≠ true :=
  fun mounted => busy (sound.idle mounted)

/-- A step of the worker that leaves the table as it is. -/
theorem Sound.of_unmounted (table : next.table = state.table) (unmounted : next.sdMounted ≠ true)
    (free : ∀ attempts littleFs, next.phase = .mounting attempts littleFs →
      state.table.lookup sd = none) : Sound origin next :=
  ⟨fun mounted => absurd mounted unmounted, fun mounted => absurd mounted unmounted,
    table ▸ sound.owned, table ▸ free⟩

theorem Sound.step (allowed : Allowed build state label)
    (stepped : exec build origin state label = some next) : Sound origin next := by
  cases label with
  | edge =>
    obtain ⟨-, rfl⟩ := of_guard stepped
    split
    · rename_i absent
      refine sound.of_unmounted rfl (fun mounted => ?_) fun _ _ _ => allowed absent
      obtain ⟨fs, -, present, -⟩ := sound.mounted mounted
      exact present absent
    · exact sound.of_unmounted rfl nofun nofun
  | fail attempt =>
    simp only [exec] at stepped
    split at stepped
    · rename_i attempts littleFs busy
      cases stepped
      exact sound.of_unmounted rfl (sound.unmounted (by simp [busy]))
        fun _ _ _ => sound.free _ _ busy
    · cases stepped
  | kmount contents caller fs =>
    simp only [exec] at stepped
    split at stepped
    · rename_i attempts littleFs busy
      have free := sound.free _ _ busy
      obtain ⟨⟨present, made⟩, stepped⟩ := Option.ite_none_right_eq_some.mp stepped
      obtain ⟨⟨result, after⟩, called, rfl⟩ := Option.map_eq_some_iff.mp stepped
      rcases kmount_sd allowed free called with ⟨rfl, rfl⟩ | ⟨failed, rfl⟩
      · rw [if_pos (.inl rfl)]
        refine ⟨fun _ => ⟨fs, ?_, present, made⟩, fun _ => rfl, fun entry listed same => ?_, nofun⟩
        · rw [List.lookup_append, free, Option.none_or, List.lookup_cons_self]
        · rcases List.mem_append.mp listed with old | new
          · exact sound.owned entry old same
          · rw [List.mem_singleton.mp new, made]
            exact present
      · rw [if_neg failed]
        exact sound.of_unmounted rfl (sound.unmounted (by simp [busy])) fun _ _ _ => free
    · cases stepped
  | umount caller tables areAllFilesClosed =>
    simp only [exec] at stepped
    split at stepped
    · rename_i attempts busy
      cases stepped
      have unmounted := sound.unmounted (by simp [busy])
      refine ⟨fun mounted => absurd mounted unmounted, fun mounted => absurd mounted unmounted,
        fun entry listed => ?_, fun _ _ mounting => ?_⟩
      · rcases umount_cases state.table sd with removed | ⟨_, -, _, kept, -⟩
        · rw [removed] at listed
          exact sound.owned entry (List.mem_of_mem_filter listed)
        · rw [kept] at listed
          exact sound.owned entry listed
      · dsimp only at mounting
        split_ifs at mounting
    · cases stepped
  | other call =>
    obtain ⟨-, stepped⟩ := Option.ite_none_right_eq_some.mp stepped
    obtain ⟨after, called, rfl⟩ := Option.map_eq_some_iff.mp stepped
    rcases other_cases allowed called with rfl | ⟨key, fs, rfl, apart⟩ | ⟨path, kept, rfl⟩
    · exact sound
    · refine ⟨fun mounted => ?_, sound.idle, fun entry listed same => ?_, fun _ _ mounting => ?_⟩
      · obtain ⟨card, found, current⟩ := sound.mounted mounted
        exact ⟨card, by rw [List.lookup_append, found, Option.some_or], current⟩
      · rcases List.mem_append.mp listed with old | new
        · exact sound.owned entry old same
        · rw [List.mem_singleton.mp new, apart] at same
          cases same
      · have other : sd ≠ key := by
          rintro rfl
          cases apart
        rw [List.lookup_append, sound.free _ _ mounting, Option.none_or, List.lookup_cons,
          beq_false_of_ne other]
        rfl
    · refine ⟨fun mounted => ?_, sound.idle, fun entry listed => ?_, fun _ _ mounting => ?_⟩
      · obtain ⟨card, found, current⟩ := sound.mounted mounted
        exact ⟨card, lookup_filter (kept mounted) found, current⟩
      · exact sound.owned entry (List.mem_of_mem_filter listed)
      · exact lookup_filter_none (sound.free _ _ mounting)

theorem Sound.unmountsOwn (stepped : exec build origin state label = some next) :
    UnmountsOwn origin state next label := by
  cases label with
  | umount caller tables areAllFilesClosed =>
    intro entry listed gone
    simp only [exec] at stepped
    split at stepped
    · cases stepped
      refine sound.owned entry listed ?_
      rcases umount_cases state.table sd with removed | ⟨_, -, _, kept, -⟩
      · rw [removed, List.mem_filter] at gone
        simpa [listed] using gone
      · exact absurd (kept ▸ listed) gone
    · cases stepped
  | _ => trivial

end

/-- If at first nothing is mounted on a name that starts with the letters of `/sd`, in every run in
which others do not mount there or unmount the card and no card is inserted while the filesystem of
another one is still mounted, the card counts as mounted only while the filesystem created for it is
on `/sd`, and the worker unmounts only what it mounted. -/
theorem card_is_mounted (build : Build) (origin : Nat → Option Nat) (table : MountTable Nat)
    (unused : ∀ entry ∈ table, startsWith entry.1 sd = false)
    (labels : List Label) (state next : State) (label : Label)
    (run : Run (exec build origin) (Allowed build) (initial table) labels state)
    (allowed : Allowed build state label)
    (stepped : exec build origin state label = some next) :
    Mounted origin next ∧ UnmountsOwn origin state next label := by
  have sound : Sound origin state := run.invariant (Sound origin)
    (fun _ _ _ sound allowed stepped => sound.step allowed stepped)
    ⟨nofun, nofun, fun entry listed same => by simp [unused entry listed] at same, nofun⟩
  exact ⟨(sound.step allowed stepped).mounted, sound.unmountsOwn stepped⟩

/-- The filesystems with odd numbers are created for the insertions in turn. -/
def oddOrigin (fs : Nat) : Option Nat := if fs % 2 = 1 then some (fs / 2) else none

/-- A card is mounted and removed, and unmounted in the second attempt. -/
theorem card_is_mounted_removed : ∃ state next,
    Run (exec ⟨false, 4096⟩ oddOrigin) (Allowed ⟨false, 4096⟩) (initial [([.slash], 0)])
      [.edge, .fail false, .kmount (directories 0 0x41ff#32 rfl) ⟨0, 0⟩ 1, .edge,
        .umount ⟨0, 0⟩ [] fun _ _ => false] state ∧
    exec ⟨false, 4096⟩ oddOrigin state (.umount ⟨0, 0⟩ [] fun _ _ => true) = some next ∧
      next.table = [([.slash], 0)] ∧ Mounted oddOrigin next := by
  refine ⟨⟨[([.slash], 0), (sd, 1)], false, none, 1, .unmounting 2⟩, _, ?run, rfl, rfl,
    (card_is_mounted _ _ _ (by decide) _ _ _ (.umount ..) ?run trivial rfl).1⟩
  refine .cons (fun _ => rfl) rfl (.cons trivial rfl (.cons (fun answer found => ?_) rfl
    (.cons nofun rfl (.cons trivial rfl (.nil _)))))
  cases found
  exact .inl rfl

/-- A filesystem that somebody else has mounted on `/sd` counts as the card, and it is unmounted.
Then the filesystem of a card whose files stay open counts as the next card. -/
theorem other_filesystem_counts_as_card : ∃ first second last,
    Run (exec ⟨false, 4096⟩ oddOrigin) unrestricted (initial [([.slash], 0), (sd, 2)])
      [.edge, .kmount (directories 0 0x41ff#32 rfl) ⟨0, 0⟩ 1] first ∧ ¬ Mounted oddOrigin first ∧
    Run (exec ⟨false, 4096⟩ oddOrigin) unrestricted first
      [.edge, .umount ⟨0, 0⟩ [] fun _ _ => true] second ∧ second.table = [([.slash], 0)] ∧
    Run (exec ⟨false, 4096⟩ oddOrigin) unrestricted second
      ([.edge, .kmount (directories 0 0x41ff#32 rfl) ⟨0, 0⟩ 3, .edge] ++
        List.replicate 4 (.umount ⟨0, 0⟩ [] fun _ _ => false) ++
        [.edge, .kmount (directories 0 0x41ff#32 rfl) ⟨0, 0⟩ 5]) last ∧
      ¬ Mounted oddOrigin last := by
  refine ⟨_, _, _, .of_replay rfl, fun mounted => ?_, .of_replay rfl, rfl, .of_replay rfl,
    fun mounted => ?_⟩
  all_goals
    obtain ⟨fs, found, -, same⟩ := mounted rfl
    cases found
    cases same

end Miosix.SdAutomounter
