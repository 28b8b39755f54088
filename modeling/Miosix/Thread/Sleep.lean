/-
This file embeds `sleepingList` of `kernel/thread.cpp`: the list of the threads that wait
with a deadline, sorted by the time they are to be woken.

A thread that waits with a deadline puts a token in the list, and the timer interrupt takes
out the tokens whose time has come. When the thread runs again it removes its token, and it
takes the absence of the token to mean that the wait timed out.
-/

import Miosix.Lib.TimeQueue

namespace Miosix

/-- What a wait with a deadline returns. -/
inductive TimedWaitResult where
  | noTimeout
  | timeout
  deriving DecidableEq, Repr

/-- `SleepToken`: a thread and when to wake it. -/
structure SleepToken (threads : Nat) where
  thread : Fin threads
  wakeupTime : Int
  deriving DecidableEq, Repr

namespace SleepingList

variable {threads : Nat} {tokens part : List (SleepToken threads)} {thread : Fin threads}

/-- `sleepingList.enqueue`, with the least wakeup time that the timed waits impose. -/
def enqueue (tokens : List (SleepToken threads)) (thread : Fin threads) (absTime : Int) :
    List (SleepToken threads) :=
  TimeQueue.enqueue SleepToken.wakeupTime tokens ⟨thread, max absTime 100000⟩

section

variable (tokens : List (SleepToken threads)) (thread : Fin threads)

/-- What `sleepingList.remove` answers for the token of a thread. -/
def contains : Bool :=
  tokens.any fun token => decide (token.thread = thread)

/-- `sleepingList.remove` of the token of a thread. -/
def remove : List (SleepToken threads) :=
  tokens.eraseP fun token => decide (token.thread = thread)

/-- The threads woken by the loop of `IRQwakeThreads`, in order. -/
def woken (now : Int) : List (Fin threads) :=
  (TimeQueue.expired SleepToken.wakeupTime now tokens).map SleepToken.thread

/-- The list after the loop of `IRQwakeThreads`. -/
def wakeThreads (now : Int) : List (SleepToken threads) :=
  TimeQueue.pending SleepToken.wakeupTime now tokens

/-- The list is sorted, and a thread has at most one token in it. -/
structure Sound : Prop where
  sorted : TimeQueue.Sorted SleepToken.wakeupTime tokens
  nodup : (tokens.map SleepToken.thread).Nodup

theorem contains_iff : contains tokens thread = true ↔ ∃ token ∈ tokens, token.thread = thread := by
  simp [contains]

theorem contains_enqueue {thread other : Fin threads} {absTime : Int} :
    contains (enqueue tokens thread absTime) other = true ↔
      other = thread ∨ contains tokens other = true := by
  simp only [contains_iff, enqueue, TimeQueue.mem_enqueue, exists_eq_or_imp]
  exact or_congr eq_comm Iff.rfl

end

theorem Sound.empty : Sound ([] : List (SleepToken threads)) := ⟨List.Pairwise.nil, List.nodup_nil⟩

section

variable (sound : Sound tokens)
include sound

theorem Sound.enqueue (absent : contains tokens thread = false) (absTime : Int) :
    Sound (enqueue tokens thread absTime) := by
  refine ⟨sound.sorted.enqueue _, ?_⟩
  have permuted := (TimeQueue.perm_enqueue SleepToken.wakeupTime tokens
    ⟨thread, max absTime 100000⟩).map SleepToken.thread
  refine permuted.nodup_iff.mpr (List.nodup_cons.mpr ⟨fun listed => ?_, sound.nodup⟩)
  obtain ⟨token, member, same⟩ := List.mem_map.mp listed
  have present := (contains_iff tokens thread).mpr ⟨token, member, same⟩
  rw [absent] at present
  cases present

theorem Sound.sublist (sublist : part.Sublist tokens) : Sound part :=
  ⟨sound.sorted.sublist sublist, sound.nodup.sublist (sublist.map SleepToken.thread)⟩

theorem Sound.remove (thread : Fin threads) : Sound (remove tokens thread) :=
  sound.sublist List.eraseP_sublist

theorem Sound.wakeThreads (now : Int) : Sound (wakeThreads tokens now) :=
  sound.sublist TimeQueue.pending_sublist

end

theorem contains_of_sublist (sublist : part.Sublist tokens)
    (present : contains part thread = true) : contains tokens thread = true := by
  obtain ⟨token, member, same⟩ := (contains_iff part thread).mp present
  exact (contains_iff tokens thread).mpr ⟨token, sublist.subset member, same⟩

theorem contains_remove_of_ne {other : Fin threads} (different : other ≠ thread) :
    contains (remove tokens thread) other = contains tokens other := by
  rw [Bool.eq_iff_iff, contains_iff, contains_iff]
  refine exists_congr fun token => and_congr_left fun same => List.mem_eraseP_of_neg ?_
  simp [same, different]

theorem Sound.contains_remove_self (sound : Sound tokens)
    (thread : Fin threads) : contains (SleepingList.remove tokens thread) thread = false := by
  obtain ⟨-, nodup⟩ := sound
  induction tokens with
  | nil => rfl
  | cons first rest inductionHypothesis =>
    obtain ⟨fresh, tail⟩ := List.nodup_cons.mp nodup
    unfold SleepingList.remove
    by_cases same : first.thread = thread
    · rw [List.eraseP_cons_of_pos (by simpa using same), ← Bool.not_eq_true, contains_iff]
      rintro ⟨token, member, equal⟩
      exact fresh (List.mem_map.mpr ⟨token, member, equal.trans same.symm⟩)
    · rw [List.eraseP_cons_of_neg (by simpa using same)]
      unfold contains
      rw [List.any_cons, decide_eq_false same, Bool.false_or]
      exact inductionHypothesis tail

/-- A token that the timer does not take stays in the list. -/
theorem contains_wakeThreads_of_notMem {now : Int} (present : contains tokens thread = true)
    (early : thread ∉ woken tokens now) : contains (wakeThreads tokens now) thread = true := by
  rw [contains_iff] at present ⊢
  obtain ⟨token, member, same⟩ := present
  rw [← TimeQueue.expired_append_pending tokens, List.mem_append] at member
  refine ⟨token, member.resolve_left fun expired => early ?_, same⟩
  exact List.mem_map.mpr ⟨token, expired, same⟩

theorem Sound.mem_woken_iff (sound : Sound tokens) {now : Int} : thread ∈ woken tokens now ↔
      ∃ token ∈ tokens, token.thread = thread ∧ token.wakeupTime ≤ now := by
  unfold woken
  rw [List.mem_map]
  refine exists_congr fun token => ?_
  rw [sound.sorted.mem_expired_iff]
  tauto

end SleepingList

end Miosix
