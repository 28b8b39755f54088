/-
This file embeds the measurements of `ControlScheduler` in `control_scheduler.cpp`: the time `Tp` of
a burst, and the time `Tr` of a round. The regulator uses them, and of what it does only the reset
of `Tr` is kept here. The cursor `curInRound` is the list of threads from the current one on.

The variable `burstStart` is never set, so the time of a burst counts from the start of the clock,
and `Tr` does not start with zero. A run with the kernel paused does nothing.
-/

import Miosix.Lib.Transition

namespace Miosix.ControlScheduler

open Transition Function

def bNominal : Int := 4000000

def burstStart : Int := 0

/-- The scheduler, where the idle thread is `none`. Further, when the running thread was switched
in, the times of the bursts of the round, and whether it is the first round. -/
structure State where
  threadList : List Nat
  curInRound : List Nat
  ready : Nat → Bool
  running : Option Nat
  Tp : Nat → Int
  Tr : Int
  switchedIn : Int
  bursts : List Int
  first : Bool

inductive Label where
  | add (thread : Nat)
  | remove (thread : Nat)
  | setReady (thread : Nat) (ready : Bool)
  | run (now : Int)

section

variable (state : State) (now : Int)

/-- The burst of the thread that is preempted is stored in 32 bits. -/
def State.switchOut : State :=
  match state.running with
  | none => state
  | some thread =>
      let Tp := (now - burstStart).bmod (2 ^ 32)
      { state with
        Tp := update state.Tp thread Tp
        Tr := (state.Tr + Tp).bmod (2 ^ 32)
        bursts := Tp :: state.bursts }

/-- The first ready thread of a list is run. Threads before it get no burst. -/
def State.switchIn (threads : List Nat) : State :=
  { state with
    curInRound := threads.dropWhile fun thread => !state.ready thread
    running := (threads.dropWhile fun thread => !state.ready thread).head?
    Tp := fun thread =>
      if thread ∈ threads.takeWhile fun thread => !state.ready thread then 0 else state.Tp thread
    switchedIn := now }

/-- Nothing is left of the round, and a thread is ready. -/
def State.EndsRound : Prop :=
  (∀ thread ∈ state.curInRound.tail, state.ready thread = false) ∧
    ∃ thread ∈ state.threadList, state.ready thread = true
  deriving Decidable

/-- `IRQrunRegulator`. -/
def State.runRegulator : State := { state with Tr := 0, bursts := [], first := false }

def IRQrunScheduler : State :=
  let state := state.switchOut now
  let rest := state.switchIn now state.curInRound.tail
  if state.EndsRound then rest.runRegulator.switchIn now state.threadList else rest

def exec : Label → Option State
  | .add thread => some { state with threadList := thread :: state.threadList }
  | .remove thread =>
      -- the idle thread does this
      if state.running = none then
        some { state with threadList := state.threadList.erase thread }
      else none
  | .setReady thread ready => some { state with ready := update state.ready thread ready }
  | .run now => some (IRQrunScheduler state now)

end

def State.initial : State :=
  ⟨[], [], fun _ => false, none, fun _ => bNominal, bNominal, 0, [], true⟩

/-- A run stores the time since the running thread was switched in, and at the end of a round the
regulator gets the sum of the bursts of the round. -/
structure Measured (state : State) (now : Int) : Prop where
  burst : ∀ thread, state.running = some thread →
    (state.switchOut now).Tp thread = now - state.switchedIn
  round : (state.switchOut now).EndsRound →
    (state.switchOut now).Tr = (state.switchOut now).bursts.sum

/-- The running thread was switched in at a multiple of the range of `Tp`, and less than half of
this range is gone; and a round that ends is not the first one, and its time fits. -/
structure Measurable (state : State) (now : Int) : Prop where
  burst : state.running ≠ none → (2 ^ 32 : Int) ∣ state.switchedIn ∧
    -2 ^ 31 ≤ now - state.switchedIn ∧ now - state.switchedIn < 2 ^ 31
  round : (state.switchOut now).EndsRound → state.first = false ∧
    -2 ^ 31 ≤ (state.switchOut now).bursts.sum ∧ (state.switchOut now).bursts.sum < 2 ^ 31

/-- What was added to `Tr` in this round. -/
def Summed (state : State) : Prop :=
  state.Tr = ((if state.first then bNominal else 0) + state.bursts.sum).bmod (2 ^ 32)

variable {state next : State} {label : Label} {now : Int}

theorem Summed.switchOut (summed : Summed state) : Summed (state.switchOut now) := by
  unfold State.switchOut
  split
  · exact summed
  · unfold Summed at summed ⊢
    dsimp only
    rw [List.sum_cons, summed, Int.bmod_add_bmod, add_assoc, add_comm state.bursts.sum]

theorem Summed.step (summed : Summed state) (stepped : exec state label = some next) :
    Summed next := by
  cases label with
  | add thread =>
    cases stepped
    exact summed
  | remove thread =>
    obtain ⟨-, rfl⟩ := of_guard stepped
    exact summed
  | setReady thread ready =>
    cases stepped
    exact summed
  | run now =>
    cases stepped
    unfold IRQrunScheduler
    dsimp only
    split
    · rfl
    · exact summed.switchOut

theorem first_switchOut : (state.switchOut now).first = state.first := by
  unfold State.switchOut
  split <;> rfl

theorem bmod_eq_iff (value offset : Int) : (offset + value).bmod (2 ^ 32) = value ↔
    (2 ^ 32 : Int) ∣ offset ∧ -2 ^ 31 ≤ value ∧ value < 2 ^ 31 := by
  rw [Int.bmod_def]
  omega

theorem burst_iff {thread : Nat} (runs : state.running = some thread) :
    (state.switchOut now).Tp thread = now - state.switchedIn ↔ (2 ^ 32 : Int) ∣ state.switchedIn ∧
      -2 ^ 31 ≤ now - state.switchedIn ∧ now - state.switchedIn < 2 ^ 31 := by
  have stored : (state.switchOut now).Tp thread =
      (state.switchedIn + (now - state.switchedIn)).bmod (2 ^ 32) := by
    simp [State.switchOut, runs, burstStart]
  rw [stored, bmod_eq_iff]

theorem Summed.round_iff (summed : Summed state) : state.Tr = state.bursts.sum ↔
    state.first = false ∧ -2 ^ 31 ≤ state.bursts.sum ∧ state.bursts.sum < 2 ^ 31 := by
  rw [summed, bmod_eq_iff]
  refine and_congr_left fun _ => ?_
  cases state.first <;> decide

/-- In every run, the next run of the scheduler measures what it should if and only if the running
thread was switched in at a multiple of `2^32` nanoseconds, and a round that ends is not the first
one and short enough. -/
theorem measures_iff (labels : List Label) (state : State)
    (run : Run exec unrestricted .initial labels state) (now : Int) :
    Measured state now ↔ Measurable state now := by
  have summed : Summed (state.switchOut now) := Summed.switchOut
    (run.invariant _ (fun _ _ _ summed _ => summed.step) rfl)
  have round := summed.round_iff
  rw [first_switchOut] at round
  constructor
  · intro measured
    refine ⟨fun runs => ?_, fun ends => round.mp (measured.round ends)⟩
    obtain ⟨thread, runs⟩ := Option.ne_none_iff_exists'.mp runs
    exact (burst_iff runs).mp (measured.burst thread runs)
  · intro measurable
    refine ⟨fun thread runs => (burst_iff runs).mpr (measurable.burst ?_),
      fun ends => round.mpr (measurable.round ends)⟩
    rw [runs]
    exact Option.some_ne_none thread

/-- A thread runs from the start of the clock. Then it blocks, or it is still ready and the second
round ends. -/
theorem measures_iff_idle : (∃ state, Measured state 1000 ∧
      Run exec unrestricted .initial [.add 1, .setReady 1 true, .run 0, .setReady 1 false] state) ∧
    ∃ state, Measured state 1000 ∧ (state.switchOut 1000).EndsRound ∧
      Run exec unrestricted .initial [.add 1, .setReady 1 true, .run 0] state := by
  have run : Run exec unrestricted .initial [.add 1, .setReady 1 true, .run 0] _ :=
    .cons trivial rfl (.cons trivial rfl (.cons trivial rfl (.nil _)))
  have blocked : Run exec unrestricted .initial
      [.add 1, .setReady 1 true, .run 0, .setReady 1 false] _ :=
    .cons trivial rfl (.cons trivial rfl (.cons trivial rfl (.cons trivial rfl (.nil _))))
  exact ⟨⟨_, (measures_iff _ _ blocked 1000).mpr ⟨fun _ => by decide, by decide⟩, blocked⟩,
    _, (measures_iff _ _ run 1000).mpr ⟨fun _ => by decide, fun _ => by decide⟩, by decide, run⟩

/-- A thread that is switched in after one second and out after two is measured with two. -/
theorem burst_counts_from_zero : ∃ state,
    Run exec unrestricted .initial [.add 1, .setReady 1 true, .run 1000000000] state ∧
      (state.switchedIn = 1000000000 ∧ (IRQrunScheduler state 2000000000).Tp 1 = 2000000000) ∧
      ¬ Measured state 2000000000 :=
  exists_run (fun state => (state.switchedIn = 1000000000 ∧
      (IRQrunScheduler state 2000000000).Tp 1 = 2000000000) ∧ state.running = some 1 ∧
      (state.switchOut 2000000000).Tp 1 ≠ 2000000000 - state.switchedIn) (by decide)
    fun _ run ⟨late, runs, wrong⟩ => ⟨run, late, fun measured => wrong (measured.burst 1 runs)⟩

end Miosix.ControlScheduler
