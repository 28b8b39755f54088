/-
This file is a library about one pass over a list that looks for two things at once.

The pass stops at the first item it accepts, and for the items it passes over it remembers
the first candidate that one of them offers. It also leaves where it stopped, so that a
later pass may continue from there. The same pass over an array of lists is a pass over the
listing of the array.
-/

import Miosix.Lib.LevelQueue

namespace Miosix.Scan

variable {Item : Type} {Candidate : Type*}

/-- What a pass has found: the items passed over, the accepted item, the items after it, and the
candidate. -/
structure Found (Item Candidate : Type*) where
  skipped : List Item
  picked : Option Item
  rest : List Item
  candidate : Option Candidate

def scan (accepts : Item → Bool) (offer : Item → Option Candidate) :
    List Item → Option Candidate → Found Item Candidate
  | [], candidate => ⟨[], none, [], candidate⟩
  | item :: items, candidate =>
      if accepts item then ⟨[], some item, items, candidate⟩
      else
        let found := scan accepts offer items (candidate.or (offer item))
        { found with skipped := item :: found.skipped }

/-- A pass over the lists of an array from the highest level down, which stops at the first item
accepted: its level, the item, and what is left of its list. -/
def scanLevels (accepts : Item → Bool) (offer : Int → Item → Option Candidate)
    (queued : Int → List Item) :
    Nat → Option Candidate → Option (Nat × Item × List Item) × Option Candidate
  | 0, candidate => (none, candidate)
  | level + 1, candidate =>
      let found := scan accepts (offer level) (queued level) candidate
      match found.picked with
      | some item => (some (level, item, found.skipped ++ found.rest), found.candidate)
      | none => scanLevels accepts offer queued level found.candidate

/-- A pass over the lists from a level down to the last one above a bound, which stops at the
first item that offers a candidate. -/
def searchLevels (offer : Int → Item → Option Candidate) (queued : Int → List Item)
    (bound : Int) : Nat → Option Candidate
  | 0 => if bound < 0 then (queued 0).findSome? (offer 0) else none
  | level + 1 =>
      if bound < level + 1 then
        ((queued (level + 1)).findSome? (offer (level + 1))).or
          (searchLevels offer queued bound level)
      else none

/-- The list without the accepted item. -/
def Found.left (found : Found Item Candidate) : List Item := found.skipped ++ found.rest

variable (accepts : Item → Bool) (offer : Item → Option Candidate)

theorem scan_picked (items : List Item) (candidate : Option Candidate) :
    (scan accepts offer items candidate).picked = items.find? accepts := by
  induction items generalizing candidate with
  | nil => rfl
  | cons item items inductionHypothesis =>
    unfold scan
    by_cases accepted : accepts item = true
    · rw [if_pos accepted, List.find?_cons_of_pos accepted]
    · rw [if_neg accepted, List.find?_cons_of_neg accepted]
      exact inductionHypothesis _

theorem scan_left (items : List Item) (candidate : Option Candidate) :
    (scan accepts offer items candidate).left = items.eraseP accepts := by
  induction items generalizing candidate with
  | nil => rfl
  | cons item items inductionHypothesis =>
    unfold scan
    by_cases accepted : accepts item = true
    · rw [if_pos accepted, List.eraseP_cons_of_pos accepted]
      rfl
    · rw [if_neg accepted, List.eraseP_cons_of_neg accepted]
      exact congrArg (item :: ·) (inductionHypothesis _)

omit accepts in
/-- Erasing the first accepted item is erasing the item that a pass picks. -/
theorem eraseP_eq_erase [DecidableEq Item] {accepts : Item → Bool} {items : List Item}
    {picked : Item} (found : items.find? accepts = some picked) :
    items.eraseP accepts = items.erase picked := by
  induction items with
  | nil => cases found
  | cons item items inductionHypothesis =>
    by_cases accepted : accepts item = true
    · rw [List.find?_cons_of_pos accepted, Option.some_inj] at found
      rw [List.eraseP_cons_of_pos accepted, found, List.erase_cons_head]
    · rw [List.find?_cons_of_neg accepted] at found
      have different : item ≠ picked := by
        rintro rfl
        exact accepted (List.find?_some found)
      rw [List.eraseP_cons_of_neg accepted, List.erase_cons_tail (by simpa using different),
        inductionHypothesis found]

/-- A pass over one list: either nothing is accepted, or the list is split at the accepted item;
the candidate is the first one offered before that. -/
theorem scan_cases (items : List Item) (candidate : Option Candidate) :
    (items.find? accepts = none ∧ (scan accepts offer items candidate).candidate =
      candidate.or (items.findSome? offer)) ∨
    ∃ skipped item rest, items = skipped ++ item :: rest ∧ accepts item = true ∧
      (∀ other ∈ skipped, accepts other = false) ∧ scan accepts offer items candidate =
          ⟨skipped, some item, rest, candidate.or (skipped.findSome? offer)⟩ := by
  induction items generalizing candidate with
  | nil => exact .inl ⟨rfl, by simp [scan]⟩
  | cons item items inductionHypothesis =>
    by_cases accepted : accepts item = true
    · refine .inr ⟨[], item, items, rfl, accepted, by simp, ?_⟩
      simp [scan, accepted]
    · have passed : (candidate.or (offer item)).or (items.findSome? offer) =
          candidate.or ((item :: items).findSome? offer) := by
        cases offered : offer item <;> simp [offered]
      rcases inductionHypothesis (candidate.or (offer item)) with
        ⟨nobody, found⟩ | ⟨skipped, picked, rest, split, picks, passes, found⟩
      · refine .inl ⟨by rw [List.find?_cons_of_neg accepted, nobody], ?_⟩
        simp only [scan, if_neg accepted, found, passed]
      · refine .inr ⟨item :: skipped, picked, rest, by rw [split, List.cons_append], picks, ?_, ?_⟩
        · simpa [accepted] using passes
        · simp only [scan, if_neg accepted, found, Found.mk.injEq, true_and]
          cases offered : offer item <;> simp [offered]

/-! ### Passes over an array -/

section Levels

open LevelQueue

variable {queued : Int → List Item} {offers : Int → Item → Option Candidate}

omit accepts in
theorem findSome_congr {items : List Item} {first second : Item → Option Candidate}
    (same : ∀ item ∈ items, first item = second item) :
    items.findSome? first = items.findSome? second := by
  induction items with
  | nil => rfl
  | cons item items inductionHypothesis =>
    rw [List.findSome?_cons, List.findSome?_cons, same item List.mem_cons_self,
      inductionHypothesis fun other listed => same other (List.mem_cons_of_mem item listed)]

/-- A pass over the array splits its listing at the accepted item. -/
theorem scanLevels_cases (agree : ∀ level, ∀ item ∈ queued level, offers level item = offer item)
    (bound : Nat) (candidate : Option Candidate) :
    ((∀ item ∈ listing queued bound, accepts item = false) ∧
      scanLevels accepts offers queued bound candidate =
        (none, candidate.or ((listing queued bound).findSome? offer))) ∨
    ∃ (level : Nat) (above skipped : List Item) (item : Item) (rest : List Item),
      listing queued bound = above ++ (skipped ++ item :: rest) ++ listing queued level ∧
      queued level = skipped ++ item :: rest ∧ accepts item = true ∧
      (∀ other ∈ above ++ skipped, accepts other = false) ∧
      scanLevels accepts offers queued bound candidate = (some (level, item, skipped ++ rest),
          candidate.or ((above ++ skipped).findSome? offer)) := by
  induction bound generalizing candidate with
  | zero => exact .inl ⟨by simp [listing], by simp [scanLevels, listing]⟩
  | succ bound inductionHypothesis =>
    rcases scan_cases accepts (offers bound) (queued bound) candidate with
      ⟨nobody, found⟩ | ⟨skipped, item, rest, split, accepted, passed, found⟩
    · have picked := (scan_picked accepts (offers bound) (queued bound) candidate).trans nobody
      rw [findSome_congr (agree bound)] at found
      simp only [scanLevels, picked, found, listing]
      rcases inductionHypothesis (candidate.or ((queued bound).findSome? offer)) with
        ⟨nobodyBelow, result⟩ |
          ⟨level, above, skipped, item, rest, split, listed, here, passed, result⟩
      · refine .inl ⟨?_, by rw [result, List.findSome?_append, Option.or_assoc]⟩
        simp only [List.mem_append]
        rintro item (listed | listed)
        · simpa using List.find?_eq_none.mp nobody item listed
        · exact nobodyBelow item listed
      · refine .inr ⟨level, queued bound ++ above, skipped, item, rest, ?_, listed, here, ?_, ?_⟩
        · rw [split]
          simp only [List.append_assoc]
        · simp only [List.append_assoc, List.mem_append]
          rintro other (listed | listed)
          · simpa using List.find?_eq_none.mp nobody other listed
          · exact passed other (List.mem_append.mpr listed)
        · simp only [result, List.append_assoc, List.findSome?_append, Option.or_assoc]
    · have agreeHere : skipped.findSome? (offers bound) = skipped.findSome? offer :=
        findSome_congr fun other listed => agree bound other (by simp [split, listed])
      refine .inr ⟨bound, [], skipped, item, rest, by rw [listing, split]; rfl, split, accepted,
        passed, ?_⟩
      simp only [scanLevels, found, agreeHere, List.nil_append]

omit accepts in
/-- The second pass looks at the items whose key is above the bound. -/
theorem searchLevels_eq (agree : ∀ level, ∀ item ∈ queued level, offers level item = offer item)
    {key : Item → Int} (keys : ∀ level, ∀ item ∈ queued level, key item = level)
    (lowest : Int) (level : Nat) :
    searchLevels offers queued lowest level =
      ((listing queued (level + 1)).filter fun item => decide (lowest < key item)).findSome?
        offer := by
  have none_above {top : Nat} (low : ¬ lowest < top - 1) :
      (listing queued top).filter (fun item => decide (lowest < key item)) = [] := by
    refine List.filter_eq_nil_iff.mpr fun item listed => ?_
    obtain ⟨level, _, high, atLevel⟩ := (mem_listing_iff queued top item).mp listed
    rw [keys level item atLevel, decide_eq_true_eq]
    omega
  have all_above {top : Int} (high : lowest < top) :
      (queued top).filter (fun item => decide (lowest < key item)) = queued top :=
    List.filter_eq_self.mpr fun item listed => by simpa [keys top item listed] using high
  induction level with
  | zero =>
    by_cases high : lowest < 0
    · simpa [searchLevels, listing, high, all_above high] using findSome_congr (agree 0)
    · rw [searchLevels, if_neg high, none_above (by simpa using high), List.findSome?_nil]
  | succ level inductionHypothesis =>
    by_cases high : lowest < level + 1
    · rw [searchLevels, if_pos high, listing, List.filter_append, List.findSome?_append,
        ← inductionHypothesis]
      refine congrArg (Option.or · _) ?_
      rw [show ((level + 1 : Nat) : Int) = level + 1 by rfl, all_above high]
      exact findSome_congr (agree _)
    · rw [searchLevels, if_neg high, none_above (by omega), List.findSome?_nil]

end Levels

end Miosix.Scan
