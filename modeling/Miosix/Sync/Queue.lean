/-
This file embeds `QueueBase` of `kernel/queue.h`, a queue between two parties.

The steps are the sections with the global lock held. A blocking call that finds the queue full or
empty leaves its thread in `waiting` and sleeps. It tries again when it is woken, which is another
call here, and a thread can also wake up for no reason.

The storage holds objects from the start. `reset` destroys those in use, but later calls assign to
the same slots, and the destructor of the storage destroys all of them.
-/

import Miosix.Lib.Ring
import Miosix.Lib.Transition

namespace Miosix.Queue

open Transition Function

inductive Party where
  | putter
  | getter
  deriving DecidableEq, Repr

/-- What a call answers. -/
inductive Answer (α : Type) where
  | stored
  | full
  | taken (value : α)
  | empty
  | done
  deriving DecidableEq, Repr

inductive Label (α : Type) where
  | put (value : α) (blocking : Bool)
  | get (blocking : Bool)
  | reset
  | wakeup (party : Party)

/-- The queue, its two parties and the last answer. Further, how often each object of the storage
was destroyed, whether one was used after that, and whether a reset found elements. -/
structure State (α : Type) where
  ring : Ring α
  waiting : Option Party
  blocked : Party → Bool
  answer : Answer α
  destroyed : Nat → Nat
  misused : Bool
  cleared : Bool

variable {α : Type} {capacity : Nat}

section

variable (state : State α)

/-- `IRQwakeWaitingThread`. -/
def State.wake : State α :=
  match state.waiting with
  | none => state
  | some party => { state with waiting := none, blocked := update state.blocked party false }

def State.wait (party : Party) (blocking : Bool) (answer : Answer α) : State α :=
  { if blocking then
      { state with waiting := some party, blocked := update state.blocked party true }
    else state with answer := answer }

def IRQput (capacity : Nat) (value : α) (blocking : Bool) : State α :=
  if state.ring.count = capacity then state.wait .putter blocking .full
  else { state with
    ring := state.ring.push capacity value
    misused := state.misused || 0 < state.destroyed state.ring.put
    answer := .stored }.wake

def IRQget (capacity : Nat) (blocking : Bool) : State α :=
  if state.ring.count = 0 then state.wait .getter blocking .empty
  else { state with
    ring := state.ring.pop capacity
    misused := state.misused || 0 < state.destroyed state.ring.get
    answer := .taken state.ring.front }.wake

/-- The loop of `IRQreset`. -/
def destroy (capacity : Nat) (destroyed : Nat → Nat) : Nat → Nat → Nat → Nat
  | 0, _ => destroyed
  | count + 1, position => destroy capacity
      (update destroyed position (destroyed position + 1)) count (Ring.next capacity position)

def IRQreset (capacity : Nat) : State α :=
  { state with
    ring := ⟨state.ring.buffer, 0, 0, 0⟩
    destroyed := destroy capacity state.destroyed state.ring.count state.ring.get
    cleared := state.cleared || 0 < state.ring.count
    answer := .done }.wake

def exec (capacity : Nat) : Label α → Option (State α)
  | .put value blocking =>
      if state.blocked .putter = false then some (IRQput state capacity value blocking) else none
  | .get blocking =>
      if state.blocked .getter = false then some (IRQget state capacity blocking) else none
  | .reset => some (IRQreset state capacity)
  | .wakeup party =>
      some { state with blocked := update state.blocked party false, answer := .done }

end

/-- The queue after its constructor. -/
def State.initial (buffer : Nat → α) : State α :=
  ⟨⟨buffer, 0, 0, 0⟩, none, fun _ => false, .done, fun _ => 0, false, false⟩

/-! ### A bounded queue -/

/-- What a call makes of the elements in a bounded queue, and its answer. -/
def fifo (capacity : Nat) : List α → Label α → List α × Answer α
  | values, .put value _ =>
      if values.length = capacity then (values, .full) else (values ++ [value], .stored)
  | [], .get _ => ([], .empty)
  | value :: more, .get _ => (more, .taken value)
  | _, .reset => ([], .done)
  | values, .wakeup _ => (values, .done)

/-- The reason for which a party waits. -/
def Stuck (capacity : Nat) (values : List α) : Party → Prop
  | .putter => values.length = capacity
  | .getter => values = []

/-- The ring holds the elements, and a party is blocked only while it has to wait. -/
structure Linked (capacity : Nat) (state : State α) (values : List α) : Prop where
  holds : state.ring.Holds capacity values
  waits : ∀ party, state.blocked party = true →
    state.waiting = some party ∧ Stuck capacity values party

variable {state next : State α} {values after : List α} {label : Label α} {party : Party}
  {answer : Answer α} {destroyed : Nat → Nat} {blocking : Bool}

theorem wake_ring : state.wake.ring = state.ring := by
  unfold State.wake
  split <;> rfl

theorem wake_answer : state.wake.answer = state.answer := by
  unfold State.wake
  split <;> rfl

/-- Nobody is blocked any more. -/
theorem Linked.wake (linked : Linked capacity state values) {ring : Ring α}
    (holds : ring.Holds capacity after) {misused cleared : Bool} :
    Linked capacity { state with ring, answer, misused, cleared, destroyed }.wake after := by
  refine ⟨?_, fun party blocked => ?_⟩
  · rw [wake_ring]
    exact holds
  · have alone := linked.waits party
    unfold State.wake at blocked
    split at blocked <;> grind [update_apply]

theorem Linked.wait (positive : 0 < capacity) (linked : Linked capacity state values)
    (stuck : Stuck capacity values party) :
    Linked capacity (state.wait party blocking answer) values := by
  cases blocking with
  | false => exact ⟨linked.holds, linked.waits⟩
  | true =>
    refine ⟨linked.holds, fun other blocked => ?_⟩
    by_cases same : other = party
    · subst same
      exact ⟨rfl, stuck⟩
    · have also := (linked.waits other ((update_of_ne same _ _).symm.trans blocked)).2
      cases party <;> cases other <;> grind [Stuck]

theorem Linked.step (positive : 0 < capacity) (linked : Linked capacity state values)
    (stepped : exec state capacity label = some next) :
    Linked capacity next (fifo capacity values label).1 ∧
      next.answer = (fifo capacity values label).2 := by
  have count := linked.holds.count
  have fits := linked.holds.fits
  cases label with
  | put value blocking =>
    obtain ⟨-, rfl⟩ := of_guard stepped
    simp only [IRQput, fifo, count]
    split
    · rename_i full
      exact ⟨linked.wait positive (show Stuck _ _ .putter from full), rfl⟩
    · exact ⟨linked.wake (linked.holds.push (by omega)), wake_answer⟩
  | get blocking =>
    obtain ⟨-, rfl⟩ := of_guard stepped
    simp only [IRQget, count]
    cases values with
    | nil => exact ⟨linked.wait positive (show Stuck _ _ .getter from rfl), rfl⟩
    | cons value more =>
      obtain ⟨front, holds⟩ := linked.holds.pop
      exact ⟨linked.wake holds, wake_answer.trans (congrArg Answer.taken front)⟩
  | reset =>
    cases stepped
    exact ⟨linked.wake .empty, wake_answer⟩
  | wakeup other =>
    cases stepped
    refine ⟨⟨linked.holds, fun party blocked => linked.waits party ?_⟩, rfl⟩
    grind [update_apply]

/-- In every run the queue holds and answers what a bounded queue does, and no party is blocked
while it could go on. -/
theorem queue_is_fifo (capacity : Nat) (positive : 0 < capacity) (buffer : Nat → α)
    (labels : List (Label α)) (state : State α) (values : List α)
    (run : Run (observing (exec · capacity) fun values _ label _ => (fifo capacity values label).1)
      unrestricted (.initial buffer, []) labels (state, values)) :
    state.ring.Holds capacity values ∧
      (∀ label next, exec state capacity label = some next →
        next.answer = (fifo capacity values label).2) ∧
      ∀ party, state.blocked party = true → Stuck capacity values party := by
  have linked : Linked capacity state values := run.observed (Linked capacity)
    (fun _ _ _ _ linked _ stepped => (linked.step positive stepped).1) ⟨.empty, nofun⟩
  exact ⟨linked.holds, fun _ _ stepped => (linked.step positive stepped).2,
    fun party blocked => (linked.waits party blocked).2⟩

/-- The queue has one place, and the second call of `put` waits for it. -/
theorem queue_is_fifo_full : ∃ state values, state.blocked .putter = true ∧
    Stuck 1 values .putter ∧ Run (observing (exec · 1) fun values _ label _ =>
      (fifo 1 values label).1) unrestricted (.initial fun _ => 0, [])
      [.put 7 true, .put 8 true] (state, values) :=
  exists_observed (fun state _ => state.blocked .putter = true) (by decide)
    fun state values run blocked => ⟨blocked,
      (queue_is_fifo 1 (by decide) _ _ state values run).2.2 _ blocked, run⟩

/-! ### The elements of the storage -/

/-- `StaticQueueBuffer` and `DynamicQueueBuffer`. -/
inductive Storage where
  | static
  | dynamic
  deriving DecidableEq, Repr

/-- How often each object was destroyed when the storage is gone. The effect of `delete` is not
defined for what `new[]` has made. -/
def Storage.destruct (destroyed : Nat → Nat) : Storage → Option (Nat → Nat)
  | .static => some fun slot => destroyed slot + 1
  | .dynamic => none

/-- No object is used after its destruction, and each one is destroyed once. -/
def LiveOnce (capacity : Nat) (storage : Storage) (state : State α) : Prop :=
  state.misused = false ∧ ∃ destroyed, storage.destruct state.destroyed = some destroyed ∧
    ∀ slot < capacity, destroyed slot = 1

/-- Objects are destroyed only by a reset that finds elements. -/
structure Kept (capacity : Nat) (state : State α) : Prop where
  place : state.ring.get < capacity
  used : state.cleared = false → state.misused = false ∧ ∀ slot, state.destroyed slot = 0
  dead : state.cleared = true → ∃ slot < capacity, 0 < state.destroyed slot

theorem le_destroy (count position slot : Nat) :
    destroyed slot ≤ destroy capacity destroyed count position slot := by
  induction count generalizing destroyed position with
  | zero => exact le_rfl
  | succ count inductionHypothesis =>
    refine le_trans ?_ (inductionHypothesis _)
    grind [update_apply]

theorem Kept.wake (kept : Kept capacity state) : Kept capacity state.wake := by
  unfold State.wake
  split
  · exact kept
  · exact { kept with }

theorem Kept.wait (kept : Kept capacity state) :
    Kept capacity (state.wait party blocking answer) := by
  cases blocking with
  | true | false => exact { kept with }

theorem Kept.step (positive : 0 < capacity) (kept : Kept capacity state)
    (stepped : exec state capacity label = some next) : Kept capacity next := by
  cases label with
  | put value blocking =>
    obtain ⟨-, rfl⟩ := of_guard stepped
    unfold IRQput
    split
    · exact kept.wait
    · refine Kept.wake ⟨kept.place, fun clean => ⟨?_, (kept.used clean).2⟩, kept.dead⟩
      simp [kept.used clean]
  | get blocking =>
    obtain ⟨-, rfl⟩ := of_guard stepped
    unfold IRQget
    split
    · exact kept.wait
    · refine Kept.wake ⟨?_, fun clean => ⟨?_, (kept.used clean).2⟩, kept.dead⟩
      · grind [Ring.pop, Ring.next]
      · simp [kept.used clean]
  | reset =>
    cases stepped
    refine Kept.wake ⟨positive, fun clean => ?_, fun found => ?_⟩
    · obtain ⟨clean, none⟩ := Bool.or_eq_false_iff.mp clean
      have empty : state.ring.count = 0 := by simpa using none
      simpa [empty, destroy] using kept.used clean
    · rcases Bool.or_eq_true_iff.mp found with known | some
      · obtain ⟨slot, below, many⟩ := kept.dead known
        exact ⟨slot, below, many.trans_le (le_destroy _ _ _)⟩
      · obtain ⟨count, more⟩ := Nat.exists_eq_add_of_lt (of_decide_eq_true some)
        refine ⟨state.ring.get, kept.place, ?_⟩
        rw [more, Nat.zero_add, destroy]
        refine lt_of_lt_of_le ?_ (le_destroy _ _ _)
        rw [update_self]
        exact Nat.succ_pos _
  | wakeup party =>
    cases stepped
    exact { kept with }

/-- In every run, the objects of the storage are used only while they live and are destroyed once
if and only if the storage is static and no reset found elements. -/
theorem live_once_iff (capacity : Nat) (positive : 0 < capacity) (storage : Storage)
    (buffer : Nat → α) (labels : List (Label α)) (state : State α)
    (run : Run (exec · capacity) unrestricted (.initial buffer) labels state) :
    LiveOnce capacity storage state ↔ storage = .static ∧ state.cleared = false := by
  have kept : Kept capacity state := run.invariant _
    (fun _ _ _ kept _ => kept.step positive) ⟨positive, fun _ => ⟨rfl, fun _ => rfl⟩, nofun⟩
  constructor
  · rintro ⟨-, destroyed, gone, once⟩
    cases storage with
    | dynamic => cases gone
    | static =>
      cases gone
      refine ⟨rfl, ?_⟩
      by_contra found
      obtain ⟨slot, below, many⟩ := kept.dead (by simpa using found)
      grind [once slot below]
  · rintro ⟨rfl, clean⟩
    exact ⟨(kept.used clean).1, _, rfl, fun slot _ => congrArg (· + 1) ((kept.used clean).2 slot)⟩

/-- Elements are put and taken, and the queue is reset when it is empty. -/
theorem live_once_iff_emptied : ∃ state, LiveOnce 2 .static state ∧
    Run (exec · 2) unrestricted (.initial fun _ => 0)
      [.put 7 true, .put 8 true, .get true, .get true, .reset] state :=
  exists_run (fun state => state.cleared = false) (by decide) fun state run dirty =>
    ⟨(live_once_iff 2 (by decide) .static _ _ state run).mpr ⟨rfl, dirty⟩, run⟩

/-- An element is put, the queue is reset and used again: the new element is assigned to an object
that was destroyed, and the storage destroys it once more. -/
theorem reset_destroys_twice : ∃ state, Run (exec · 1) unrestricted (.initial fun _ => 0)
    [.put 7 true, .reset, .put 8 true] state ∧
      (state.misused = true ∧ state.destroyed 0 = 1) ∧ ¬ LiveOnce 1 .static state :=
  exists_run (fun state => state.misused = true ∧ state.destroyed 0 = 1) (by decide)
    fun _ run used => ⟨run, used, fun live => Bool.false_ne_true (live.1.symm.trans used.1)⟩

end Miosix.Queue
