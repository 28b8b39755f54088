/-
This file is a library about queues sorted by time.

An item is inserted in front of the first item that is not earlier, so items of equal time
come out in the reverse of the order they went in. Taking items while their time has come
takes exactly those whose time has come, because the queue is sorted.
-/

import Mathlib.Tactic

namespace Miosix.TimeQueue

open List

variable {Item : Type*} {time : Item → Int} {queued : List Item} {other : Item} {now : Int}
  {item : Item}

section

variable (time : Item → Int) (now : Int) (queued : List Item)

def Sorted : Prop :=
  queued.Pairwise fun earlier later => time earlier ≤ time later

def enqueue (item : Item) : List Item :=
  queued.orderedInsert (fun first second => time first ≤ time second) item

/-- The items whose time has come. -/
def expired : List Item :=
  queued.takeWhile fun item => decide (time item ≤ now)

/-- The items left once those whose time has come are taken. -/
def pending : List Item :=
  queued.dropWhile fun item => decide (time item ≤ now)

end

theorem expired_append_pending (queued : List Item) :
    expired time now queued ++ pending time now queued = queued :=
  takeWhile_append_dropWhile

theorem mem_enqueue : other ∈ enqueue time queued item ↔ other = item ∨ other ∈ queued :=
  mem_orderedInsert _

theorem perm_enqueue (time : Item → Int) (queued : List Item) (item : Item) :
    (enqueue time queued item).Perm (item :: queued) :=
  perm_orderedInsert _ item queued

section

variable (sorted : Sorted time queued)
include sorted

theorem Sorted.enqueue (item : Item) : Sorted time (enqueue time queued item) := by
  have : Std.Total fun first second : Item => time first ≤ time second :=
    ⟨fun first second => le_total (time first) (time second)⟩
  have : IsTrans Item fun first second => time first ≤ time second :=
    ⟨fun _ _ _ => le_trans⟩
  exact Pairwise.orderedInsert item queued sorted

theorem Sorted.sublist {part : List Item} (sublist : part.Sublist queued) : Sorted time part :=
  List.Pairwise.sublist sublist sorted

theorem Sorted.congr {other : Item → Int}
    (same : ∀ item ∈ queued, other item = time item) : Sorted other queued := by
  refine List.Pairwise.imp_of_mem (fun first second earlier => ?_) sorted
  rw [same _ first, same _ second]
  exact earlier

/-- The first item of a sorted queue is the earliest. -/
theorem Sorted.head_le {first : Item}
    (head : queued.head? = some first) (listed : other ∈ queued) : time first ≤ time other := by
  cases queued with
  | nil => cases head
  | cons front rest =>
    rw [List.head?_cons, Option.some_inj] at head
    subst head
    rcases mem_cons.mp listed with same | later
    · rw [same]
    · exact (pairwise_cons.mp sorted).1 other later

end

theorem pending_sublist : (pending time now queued).Sublist queued := dropWhile_sublist _

theorem Sorted.mem_expired_iff (sorted : Sorted time queued)
    : item ∈ expired time now queued ↔ item ∈ queued ∧ time item ≤ now := by
  induction queued with
  | nil => simp [expired]
  | cons first rest inductionHypothesis =>
    obtain ⟨least, tail⟩ := pairwise_cons.mp sorted
    unfold expired
    by_cases due : time first ≤ now
    · rw [takeWhile_cons_of_pos (by simpa using due), mem_cons, mem_cons]
      rw [show item ∈ List.takeWhile _ rest ↔ _ from inductionHypothesis tail]
      refine ⟨fun listed => ?_, fun ⟨listed, early⟩ => ?_⟩
      · rcases listed with same | inRest
        · exact ⟨Or.inl same, same ▸ due⟩
        · exact ⟨Or.inr inRest.1, inRest.2⟩
      · exact listed.imp id fun inRest => ⟨inRest, early⟩
    · rw [takeWhile_cons_of_neg (by simpa using due)]
      refine ⟨nofun, fun ⟨listed, early⟩ => ?_⟩
      rcases mem_cons.mp listed with same | later
      · rw [same] at early
        contradiction
      · have := least item later
        omega

end Miosix.TimeQueue
