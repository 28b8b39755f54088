/-
This file is the library of level queues: an array of first-in first-out lists, one for
each integer level from `0` to a bound, scanned from the highest level down.

Two predicates say what such an array holds. `Keyed` relates it to a set of members and
the level each member belongs at: every member is in the list of its own level, once, and
nothing else is in any list. `Ordered` relates the order inside a level to a time stamp.
Each operation comes with one lemma for each predicate, and `front` is characterised from
the two: the front item has the highest key, and the oldest stamp among those.
-/

import Miosix.Lib.Update

namespace Miosix.LevelQueue

open Function List

variable {Item : Type} {level : Int}

/-! ### Scanning the levels -/

/-- The highest nonempty level below a bound. -/
def highest (queued : Int → List Item) : Nat → Option Int
  | 0 => none
  | bound + 1 => if (queued bound).isEmpty then highest queued bound else some bound

section

variable (queued : Int → List Item) (bound : Nat)

theorem highest_eq_none_iff :
    highest queued bound = none ↔ ∀ level : Int, 0 ≤ level → level < bound → queued level = [] := by
  induction bound with
  | zero =>
    refine ⟨fun _ level low high => ?_, fun _ => rfl⟩
    exact absurd high (by simpa using low)
  | succ bound inductionHypothesis =>
    rw [highest]
    split
    · rename_i empty
      rw [inductionHypothesis]
      constructor
      · intro below level low high
        by_cases same : level = bound
        · exact same ▸ isEmpty_iff.mp empty
        · exact below level low (by push_cast at high; omega)
      · intro below level low high
        exact below level low (by push_cast; omega)
    · rename_i nonempty
      refine ⟨nofun, fun below => absurd ?_ nonempty⟩
      exact isEmpty_iff.mpr (below bound (by omega) (by push_cast; omega))

theorem highest_eq_some_iff : highest queued bound = some level ↔
      0 ≤ level ∧ level < bound ∧ queued level ≠ [] ∧
        ∀ above : Int, level < above → above < bound → queued above = [] := by
  induction bound with
  | zero =>
    refine ⟨nofun, fun ⟨low, high, _⟩ => ?_⟩
    exact absurd high (by simpa using low)
  | succ bound inductionHypothesis =>
    rw [highest]
    split
    · rename_i empty
      have emptyAt : queued bound = [] := isEmpty_iff.mp empty
      rw [inductionHypothesis]
      constructor
      · rintro ⟨low, high, nonempty, clear⟩
        refine ⟨low, by push_cast; omega, nonempty, fun above higher bounded => ?_⟩
        by_cases same : above = bound
        · exact same ▸ emptyAt
        · exact clear above higher (by push_cast at bounded; omega)
      · rintro ⟨low, high, nonempty, clear⟩
        have different : level ≠ bound := fun same => nonempty (same ▸ emptyAt)
        exact ⟨low, by push_cast at high; omega, nonempty,
          fun above higher bounded => clear above higher (by push_cast; omega)⟩
    · rename_i nonempty
      have nonemptyAt : queued bound ≠ [] := fun empty => nonempty (isEmpty_iff.mpr empty)
      rw [Option.some_inj]
      constructor
      · rintro rfl
        exact ⟨by omega, by push_cast; omega, nonemptyAt,
          fun above higher bounded => absurd bounded (by push_cast; omega)⟩
      · rintro ⟨low, high, _, clear⟩
        by_contra different
        exact nonemptyAt (clear bound (by push_cast at high; omega) (by push_cast; omega))

/-- The first item of the highest nonempty level. -/
def front : Option Item :=
  match highest queued bound with
  | none => none
  | some level => (queued level).head?

/-- The array without its front item. -/
def dequeue : Int → List Item :=
  match highest queued bound with
  | none => queued
  | some level => update queued level (queued level).tail

/-- The array with one item appended to one level. -/
def push (level : Int) (item : Item) : Int → List Item :=
  update queued level (queued level ++ [item])

end

/-- The array with one item unlinked from one level. -/
def remove [DecidableEq Item] (queued : Int → List Item) (level : Int) (item : Item) :
    Int → List Item :=
  update queued level ((queued level).erase item)

section

variable (queued : Int → List Item) {bound : Nat} {item member : Item} {other : Int}
include queued

theorem front_eq_none_iff : front queued bound = none ↔
      ∀ level : Int, 0 ≤ level → level < bound → queued level = [] := by
  rw [← highest_eq_none_iff]
  unfold front
  split
  · rename_i none
    simp [none]
  · rename_i level found
    obtain ⟨_, _, nonempty, _⟩ := (highest_eq_some_iff queued bound).mp found
    rw [found, List.head?_eq_none_iff]
    simp [nonempty]

/-- The front item heads its level, and every higher level is empty. -/
theorem front_eq_some_iff : front queued bound = some item ↔
      ∃ level : Int, highest queued bound = some level ∧
        queued level = item :: (queued level).tail := by
  unfold front
  split
  · rename_i none
    simp [none]
  · rename_i level found
    rw [List.head?_eq_some_iff]
    constructor
    · rintro ⟨rest, split⟩
      exact ⟨level, found, by rw [split, tail_cons]⟩
    · rintro ⟨other, same, split⟩
      rw [found, Option.some_inj] at same
      exact ⟨(queued level).tail, same ▸ split⟩

theorem mem_push_iff : member ∈ push queued level item other ↔
      member ∈ queued other ∨ (other = level ∧ member = item) := by
  unfold push
  by_cases same : other = level
  · subst same
    simp
  · simp [same]

theorem mem_remove_iff [DecidableEq Item]
    (nodup : (queued level).Nodup) : member ∈ remove queued level item other ↔
      member ∈ queued other ∧ ¬ (other = level ∧ member = item) := by
  unfold remove
  by_cases same : other = level
  · subst same
    rw [update_self, nodup.mem_erase_iff]
    tauto
  · simp [same]

/-- Dequeuing the front item is unlinking it from the level it heads. -/
theorem dequeue_eq_remove [DecidableEq Item] (found : highest queued bound = some level)
    (heads : queued level = item :: (queued level).tail) :
    dequeue queued bound = remove queued level item := by
  unfold dequeue remove
  rw [found]
  show update queued level (queued level).tail = _
  congr 1
  rw [heads, tail_cons, erase_cons_head]

end

variable {queued : Int → List Item} {bound : Nat} {member : Item → Prop} {key : Item → Int}
  {item : Item} {stamp : Item → Nat}

theorem dequeue_eq_self (none : front queued bound = none) : dequeue queued bound = queued := by
  unfold dequeue
  unfold front at none
  split
  · rfl
  · rename_i level found
    rw [found] at none
    have empty : queued level = [] := List.head?_eq_none_iff.mp none
    rw [empty, tail_nil, ← empty, update_eq_self]

/-! ### Membership -/

/-- The array holds exactly the members, each once, at the level of its key. -/
structure Keyed (queued : Int → List Item) (member : Item → Prop) (key : Item → Int) : Prop where
  mem_iff : ∀ level item, item ∈ queued level ↔ member item ∧ key item = level
  nodup : ∀ level, (queued level).Nodup

theorem Keyed.empty (nobody : ∀ item, ¬ member item) (key : Item → Int) :
    Keyed (fun _ => []) member key :=
  ⟨fun _ item => by simp [nobody item], fun _ => nodup_nil⟩

section

variable (keyed : Keyed queued member key)
include keyed

/-- Only the members and their keys matter. -/
theorem Keyed.congr {other : Item → Prop} {otherKey : Item → Int}
    (sameMember : ∀ item, other item ↔ member item)
    (sameKey : ∀ item, member item → otherKey item = key item) : Keyed queued other otherKey := by
  refine ⟨fun level item => ?_, keyed.nodup⟩
  rw [keyed.mem_iff, sameMember]
  constructor
  · rintro ⟨present, rfl⟩
    exact ⟨present, sameKey item present⟩
  · rintro ⟨present, rfl⟩
    exact ⟨present, (sameKey item present).symm⟩

theorem Keyed.push (item : Item) (fresh : ¬ member item) :
    Keyed (push queued (key item) item) (fun other => member other ∨ other = item) key := by
  refine ⟨fun level other => ?_, fun level => ?_⟩
  · rw [mem_push_iff, keyed.mem_iff]
    constructor
    · rintro (⟨present, rfl⟩ | ⟨rfl, rfl⟩)
      · exact ⟨Or.inl present, rfl⟩
      · exact ⟨Or.inr rfl, rfl⟩
    · rintro ⟨present | rfl, rfl⟩
      · exact Or.inl ⟨present, rfl⟩
      · exact Or.inr ⟨rfl, rfl⟩
  · unfold LevelQueue.push
    by_cases same : level = key item
    · subst same
      rw [update_self]
      refine List.Nodup.append (keyed.nodup _) (nodup_singleton item) ?_
      intro other present single
      rw [mem_singleton] at single
      exact fresh (single ▸ ((keyed.mem_iff _ _).mp present).1)
    · rw [update_of_ne same]
      exact keyed.nodup level

theorem Keyed.remove [DecidableEq Item] (item : Item) :
    Keyed (remove queued (key item) item) (fun other => member other ∧ other ≠ item) key := by
  refine ⟨fun level other => ?_, fun level => ?_⟩
  · rw [mem_remove_iff _ (keyed.nodup _), keyed.mem_iff]
    constructor
    · rintro ⟨⟨present, rfl⟩, different⟩
      exact ⟨⟨present, fun same => different ⟨same ▸ rfl, same⟩⟩, rfl⟩
    · rintro ⟨⟨present, different⟩, rfl⟩
      exact ⟨⟨present, rfl⟩, fun both => different both.2⟩
  · unfold LevelQueue.remove
    by_cases same : level = key item
    · subst same
      rw [update_self]
      exact (keyed.nodup _).erase item
    · rw [update_of_ne same]
      exact keyed.nodup level

/-- The members can be read off the array. -/
theorem Keyed.self : Keyed queued (fun item => item ∈ queued (key item)) key := by
  refine keyed.congr (fun item => ?_) fun _ _ => rfl
  rw [keyed.mem_iff]
  exact and_iff_left rfl

/-- The front item is a member of highest key. -/
theorem Keyed.front_greatest (first : front queued bound = some item)
    (bounded : ∀ other, member other → 0 ≤ key other ∧ key other < bound) :
    member item ∧ ∀ other, member other → key other ≤ key item := by
  obtain ⟨level, found, heads⟩ := (front_eq_some_iff queued).mp first
  obtain ⟨_, _, _, clear⟩ := (highest_eq_some_iff queued bound).mp found
  have atLevel : item ∈ queued level := by
    rw [heads]
    exact mem_cons_self
  obtain ⟨present, rfl⟩ := (keyed.mem_iff _ _).mp atLevel
  refine ⟨present, fun other otherPresent => ?_⟩
  by_contra higher
  have emptyAt := clear (key other) (by omega) (bounded other otherPresent).2
  have listed : other ∈ queued (key other) := (keyed.mem_iff _ _).mpr ⟨otherPresent, rfl⟩
  rw [emptyAt] at listed
  exact not_mem_nil listed

/-- An array without a front item has no member. -/
theorem Keyed.not_member_of_front_eq_none (none : front queued bound = none)
    (bounded : ∀ other, member other → 0 ≤ key other ∧ key other < bound) (item : Item) :
    ¬ member item := by
  intro present
  have emptyAt := (front_eq_none_iff queued).mp none (key item) (bounded item present).1
    (bounded item present).2
  have listed : item ∈ queued (key item) := (keyed.mem_iff _ _).mpr ⟨present, rfl⟩
  rw [emptyAt] at listed
  exact not_mem_nil listed

theorem Keyed.dequeue_eq [DecidableEq Item] (first : front queued bound = some item) :
    dequeue queued bound = LevelQueue.remove queued (key item) item := by
  obtain ⟨level, found, heads⟩ := (front_eq_some_iff queued).mp first
  have atLevel : item ∈ queued level := by
    rw [heads]
    exact mem_cons_self
  rw [((keyed.mem_iff _ _).mp atLevel).2]
  exact dequeue_eq_remove queued found heads

/-- All members but the front item are left. -/
theorem Keyed.dequeue [DecidableEq Item] (bound : Nat) : Keyed (dequeue queued bound)
      (fun other => member other ∧ front queued bound ≠ some other) key := by
  cases first : front queued bound with
  | none =>
    rw [dequeue_eq_self first]
    exact keyed.congr (fun _ => by simp) fun _ _ => rfl
  | some item =>
    rw [keyed.dequeue_eq first]
    exact (keyed.remove item).congr (fun _ => by simp [eq_comm]) fun _ _ => rfl

/-- A member is in the list of its level exactly once, and in no other list. -/
theorem Keyed.count_eq_one [DecidableEq Item] (present : member item) :
    (queued (key item)).count item = 1 ∧
      ∀ level, level ≠ key item → (queued level).count item = 0 := by
  refine ⟨count_eq_one_of_mem (keyed.nodup _) ((keyed.mem_iff _ _).mpr ⟨present, rfl⟩),
    fun level different => ?_⟩
  exact count_eq_zero_of_not_mem fun listed => different ((keyed.mem_iff _ _).mp listed).2.symm

end

/-! ### Order inside a level -/

/-- Inside every level the stamps increase from the front to the back. -/
def Ordered (queued : Int → List Item) (stamp : Item → Nat) : Prop :=
  ∀ level, (queued level).Pairwise fun first second => stamp first < stamp second

theorem Ordered.empty (stamp : Item → Nat) : Ordered (fun _ => []) stamp :=
  fun _ => List.Pairwise.nil

section

variable (ordered : Ordered queued stamp)
include ordered

/-- Only the stamps of the queued items matter. -/
theorem Ordered.congr {other : Item → Nat}
    (same : ∀ level, ∀ item ∈ queued level, other item = stamp item) : Ordered queued other := by
  intro level
  refine (ordered level).imp_of_mem fun {first second} firstListed secondListed less => ?_
  rw [same level first firstListed, same level second secondListed]
  exact less

/-- Appending the youngest item keeps the order. -/
theorem Ordered.push (level : Int) (item : Item)
    (youngest : ∀ other ∈ queued level, stamp other < stamp item) :
    Ordered (push queued level item) stamp := by
  intro other
  unfold LevelQueue.push
  refine forall_update ?_ (fun other _ => ?_)
  · rw [pairwise_append]
    refine ⟨ordered level, pairwise_singleton _ _, fun first listed second single => ?_⟩
    rw [mem_singleton] at single
    exact single ▸ youngest first listed
  · exact ordered other

theorem Ordered.remove [DecidableEq Item] (level : Int)
    (item : Item) : Ordered (remove queued level item) stamp := by
  intro other
  unfold LevelQueue.remove
  exact forall_update ((ordered level).sublist erase_sublist) (fun other _ => ordered other)

theorem Ordered.dequeue : Ordered (dequeue queued bound) stamp := by
  intro other
  unfold LevelQueue.dequeue
  cases highest queued bound with
  | none => exact ordered other
  | some level =>
    show ((update queued level (queued level).tail) other).Pairwise _
    exact forall_update ((ordered level).sublist (tail_sublist _)) fun other _ => ordered other

/-- The front item is the oldest of its level. -/
theorem Ordered.front_oldest (first : front queued bound = some item) (listed : item ∈ queued level)
    (unique : ∀ other, item ∈ queued other → other = level) :
    ∀ other ∈ queued level, other = item ∨ stamp item < stamp other := by
  obtain ⟨found, _, heads⟩ := (front_eq_some_iff queued).mp first
  have atFound : item ∈ queued found := by
    rw [heads]
    exact mem_cons_self
  obtain rfl := unique found atFound
  intro other otherListed
  have sorted := ordered found
  rw [heads] at sorted otherListed
  rcases mem_cons.mp otherListed with same | later
  · exact Or.inl same
  · exact Or.inr ((pairwise_cons.mp sorted).1 other later)

end

/-- The item that is due: none of the queued items has a higher key, and none of those with
the same key is older. -/
def Foremost (queued : Int → List Item) (key : Item → Int) (stamp : Item → Nat) : Option Item → Prop
  | none => ∀ item, item ∉ queued (key item)
  | some first => first ∈ queued (key first) ∧ ∀ other, other ∈ queued (key other) →
      key other < key first ∨ (key other = key first ∧ (other = first ∨ stamp first < stamp other))

/-- The front item is the one that is due. -/
theorem Keyed.front_foremost (keyed : Keyed queued member key) (ordered : Ordered queued stamp)
    (bounded : ∀ other, member other → 0 ≤ key other ∧ key other < bound) :
    Foremost queued key stamp (front queued bound) := by
  have member_of {item : Item} (listed : item ∈ queued (key item)) : member item :=
    ((keyed.mem_iff _ item).mp listed).1
  cases first : front queued bound with
  | none =>
    exact fun item listed => keyed.not_member_of_front_eq_none first bounded item (member_of listed)
  | some item =>
    obtain ⟨present, greatest⟩ := keyed.front_greatest first bounded
    have listed : item ∈ queued (key item) := (keyed.mem_iff _ item).mpr ⟨present, rfl⟩
    refine ⟨listed, fun other otherListed => ?_⟩
    rcases Int.lt_or_eq_of_le (greatest other (member_of otherListed)) with less | same
    · exact Or.inl less
    · refine Or.inr ⟨same, ordered.front_oldest first listed
        (fun level atLevel => ((keyed.mem_iff level item).mp atLevel).2.symm) other ?_⟩
      exact same ▸ otherListed

/-! ### The whole array as one list -/

/-- The items below a bound, in the order of a scan from the highest level down. -/
def listing (queued : Int → List Item) : Nat → List Item
  | 0 => []
  | bound + 1 => queued bound ++ listing queued bound

theorem mem_listing_iff (queued : Int → List Item) (bound : Nat) (item : Item) :
    item ∈ listing queued bound ↔
      ∃ level : Int, 0 ≤ level ∧ level < bound ∧ item ∈ queued level := by
  induction bound with
  | zero =>
    simp only [listing, not_mem_nil, false_iff]
    omega
  | succ bound inductionHypothesis =>
    rw [listing, mem_append, inductionHypothesis]
    constructor
    · rintro (here | ⟨level, low, high, below⟩)
      · exact ⟨bound, by omega, by omega, here⟩
      · exact ⟨level, low, by omega, below⟩
    · rintro ⟨level, low, high, listed⟩
      by_cases same : level = bound
      · exact Or.inl (same ▸ listed)
      · exact Or.inr ⟨level, low, by omega, listed⟩

section

variable (keyed : Keyed queued member key)
include keyed

theorem Keyed.mem_listing (bounded : ∀ other, member other → 0 ≤ key other ∧ key other < bound) :
    item ∈ listing queued bound ↔ member item := by
  rw [mem_listing_iff]
  constructor
  · rintro ⟨level, _, _, listed⟩
    exact ((keyed.mem_iff level item).mp listed).1
  · intro present
    exact ⟨key item, (bounded item present).1, (bounded item present).2,
      (keyed.mem_iff _ item).mpr ⟨present, rfl⟩⟩

theorem Keyed.lt_of_mem_listing (listed : item ∈ listing queued bound) : key item < bound := by
  obtain ⟨level, _, high, atLevel⟩ := (mem_listing_iff queued bound item).mp listed
  rw [((keyed.mem_iff level item).mp atLevel).2]
  exact high

/-- The keys in a listing are in descending order. -/
theorem Keyed.listing_descending (bound : Nat) :
    (listing queued bound).Pairwise fun first second => key second ≤ key first := by
  induction bound with
  | zero => exact List.Pairwise.nil
  | succ bound inductionHypothesis =>
    have level {item : Item} (listed : item ∈ queued bound) : key item = bound :=
      ((keyed.mem_iff _ item).mp listed).2
    refine pairwise_append.mpr ⟨?_, inductionHypothesis, fun first here second below => ?_⟩
    · refine pairwise_of_forall_mem_list fun first firstListed second secondListed => ?_
      exact Int.le_of_eq ((level secondListed).trans (level firstListed).symm)
    · rw [level here]
      exact Int.le_of_lt (keyed.lt_of_mem_listing below)

theorem Keyed.listing_nodup (bound : Nat) : (listing queued bound).Nodup := by
  induction bound with
  | zero => exact nodup_nil
  | succ bound inductionHypothesis =>
    refine nodup_append.mpr ⟨keyed.nodup _, inductionHypothesis, ?_⟩
    rintro first here second below rfl
    have high := keyed.lt_of_mem_listing below
    rw [((keyed.mem_iff _ first).mp here).2] at high
    exact Int.lt_irrefl _ high

end

/-- A listing sees only the levels below its bound. -/
theorem listing_update_of_le {level : Nat} (above : bound ≤ level) {items : List Item} :
    listing (update queued level items) bound = listing queued bound := by
  induction bound with
  | zero => rfl
  | succ bound inductionHypothesis =>
    have apart : (bound : Int) ≠ level := by omega
    rw [listing, listing, inductionHypothesis (by omega), update_of_ne apart]

end Miosix.LevelQueue
