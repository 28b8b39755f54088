/-
This file embeds the waits with a deadline of `kernel/thread.cpp` on one core, together with the
timer that wakes the threads: `nanoSleepUntil`, the timed waits, `IRQwakeThreads`,
`IRQupdateOsTimer`, and `IRQcomputePreemption` of `kernel/scheduler/scheduler.h`, for both timer
models.

The scheduler is any of the three. They agree in that a run does nothing but set `pendingWakeup` if
the kernel is paused, and calls `IRQcomputePreemption` once otherwise. Which thread is selected,
with which time slice, and which threads outrank the one that runs, is left to the step. So is
everything that the rest of the kernel does with the global lock held, which may change the flags of
the threads and ask for a scheduler run. A step is one section in which interrupts are disabled, or
the part of a longer function between two points at which an interrupt makes a difference: `unlock`
of the pause kernel lock gives the lock back, then tests and clears `pendingWakeup`, then yields.

The driver of the timer is taken by its documentation. There is one interrupt at a time, it calls
`IRQwakeThreads` once, not before the time that was set, with the time at which it was called or an
earlier one that is not before the time that was set. When the time has passed and the interrupt was
not served yet, `IRQosTimerGetInterrupt` may return the time or that there is none. In the separate
model the interrupt for preemption has a timer of its own, and is a scheduler run like any other.
-/

import Miosix.Sched.Cores
import Miosix.Thread.Sleep

namespace Miosix.Sleeping

open Function

/-! ### State -/

/-- `OS_TIMER_MODEL_UNIFIED` or not. -/
inductive TimerModel where
  | unified
  | separate
  deriving DecidableEq, Repr

/-- `numeric_limits<long long>::max()`, which also stands for no time at all. -/
def maxTime : Int := 2 ^ 63 - 1

/-- Where a thread is, as far as the waits with a deadline and the pause kernel lock go. A thread in
`restarting` has given the lock back and has not looked at `pendingWakeup`; in `yielding` it has
seen it and is about to yield. A thread in `relocking` went to wait from where it held the lock. -/
inductive Activity where
  | outside
  | paused
  | restarting
  | yielding
  | sleeping (absTime : Int)
  | relocking (absTime : Option Int)
  deriving DecidableEq, Repr

/-- `holding` is whether the pause kernel lock is held, `armed` the time of the interrupt that was
set, and `nextPreempt` is `nextPreemptionWakeupCore`. -/
structure State (threads : Nat) where
  flags : Fin threads → ThreadFlags
  running : Fin threads
  activity : Fin threads → Activity
  holding : Bool
  pendingWakeup : Bool
  requested : Bool
  sleepingList : List (SleepToken threads)
  now : Int
  armed : Option Int
  nextPreempt : Int

variable {threads : Nat}

/-- After the boot of the kernel, with the thread that is idle. -/
def State.initial (idle : Fin threads) (now : Int) : State threads where
  flags _ := .clear
  running := idle
  activity _ := .outside
  holding := false
  pendingWakeup := false
  requested := true
  sleepingList := []
  now := now
  armed := none
  nextPreempt := maxTime

section

variable (state : State threads) (activity : Activity)

def State.setActivity : State threads :=
  { state with activity := update state.activity state.running activity }

/-- A flag of the thread that runs is set, and the scheduler is invoked. -/
def State.block (blocking : Blocking) : State threads :=
  { state with
    flags := update state.flags state.running ((state.flags state.running).set blocking)
    requested := true }

/-! ### The timer -/

def State.IRQosTimerSetInterrupt (time : Int) : State threads :=
  { state with armed := some time }

/-- Whether an interrupt that is due has passed already is up to the driver. -/
def State.IRQosTimerGetInterrupt (passed : Bool) : Int :=
  match state.armed with
  | none => maxTime
  | some time => if passed = true ∧ time ≤ state.now then maxTime else time

/-- The first wakeup time, or none. -/
def firstWakeup : List (SleepToken threads) → Int
  | [] => maxTime
  | token :: _ => token.wakeupTime

section

variable (model : TimerModel) (currentTime : Int) (outranks : Fin threads → Bool)

/-- On one core there is nothing to do in the unified model. -/
def State.IRQupdateOsTimer (passed : Bool) : State threads :=
  match model with
  | .unified => state
  | .separate =>
      if firstWakeup state.sleepingList < state.IRQosTimerGetInterrupt passed then
        state.IRQosTimerSetInterrupt (firstWakeup state.sleepingList)
      else state

def State.IRQcomputePreemption (timeSlice : Nat) : State threads :=
  match model with
  | .unified =>
      let nextPreempt := if 0 < timeSlice then state.now + timeSlice else maxTime
      { state with nextPreempt := nextPreempt }.IRQosTimerSetInterrupt
        (min (firstWakeup state.sleepingList) nextPreempt)
  | .separate => state

/-- The end of `IRQwakeThreads`, where `hptw` says that a thread was woken that outranks the one
that runs. -/
def State.rearm (hptw : Bool) : State threads :=
  match model with
  | .unified =>
      if hptw then { state with requested := true }
      else if state.nextPreempt ≤ currentTime then { state with requested := true }
      else state.IRQosTimerSetInterrupt (min (firstWakeup state.sleepingList) state.nextPreempt)
  | .separate =>
      let invoked := if hptw then { state with requested := true } else state
      if invoked.sleepingList = [] then invoked
      else invoked.IRQosTimerSetInterrupt (firstWakeup invoked.sleepingList)

/-- `IRQclearSleepAndWait` of the threads that the loop of `IRQwakeThreads` takes from the list. -/
def clearSleepAndWait (flags : Fin threads → ThreadFlags) :
    List (Fin threads) → Fin threads → ThreadFlags
  | [] => flags
  | thread :: rest =>
      clearSleepAndWait (update flags thread ((flags thread).unset .sleepAndWait)) rest

def State.IRQwakeThreads : State threads :=
  let woken := SleepingList.woken state.sleepingList currentTime
  { state with
    flags := clearSleepAndWait state.flags woken
    sleepingList := SleepingList.wakeThreads state.sleepingList currentTime }.rearm
      model currentTime (woken.any outranks)

/-! ### Steps -/

/-- The wait of the thread that runs, up to where it is blocked: the flag, the token, the timer and
the scheduler. -/
def State.sleep (passed : Bool) (absTime : Int)
    (blocking : Blocking) (activity : Activity) : State threads :=
  ({ state.block blocking with
    sleepingList := SleepingList.enqueue state.sleepingList state.running
      absTime }.IRQupdateOsTimer model passed).setActivity activity

/-- The steps. `other` is any other section of the kernel. -/
inductive Label (threads : Nat) where
  | elapse (time : Int)
  | interrupt (currentTime : Int) (outranks : Fin threads → Bool)
  | runScheduler (next : Fin threads) (timeSlice : Nat)
  | nanoSleepUntil (absTime : Int) (passed : Bool)
  | timedWait (absTime : Int) (passed : Bool)
  | endSleep
  | pauseKernel
  | restartKernel
  | testPendingWakeup
  | yield
  | PKwait
  | PKtimedWait (absTime : Int) (passed : Bool)
  | relock
  | other (flags : Fin threads → ThreadFlags) (invokes wakes : Bool)

/-- The thread that runs executes code of its own, at a certain place. -/
def State.IsAt : Prop :=
  (state.flags state.running).isReady = true ∧ state.activity state.running = activity
  deriving Decidable

/-- The interrupt that was set is due, and the driver calls `IRQwakeThreads` with this time. -/
def State.Fires : Prop :=
  currentTime ≤ state.now ∧ state.armed.any (fun time => decide (time ≤ currentTime)) = true
  deriving Decidable

end

/-- The end of `nanoSleepUntil` and `timedWait`, when the thread runs again. -/
def State.endSleep : Activity → Option (State threads)
  | .sleeping _ => some ({ state with
      sleepingList := SleepingList.remove state.sleepingList state.running }.setActivity .outside)
  | _ => none

/-- The end of `PKrestartKernelAndWait` and its timed version, when the thread runs again. -/
def State.relock : Activity → Option (State threads)
  | .relocking absTime => some ({ state with
      holding := true
      sleepingList := match absTime with
        | some _ => SleepingList.remove state.sleepingList state.running
        | none => state.sleepingList }.setActivity .paused)
  | _ => none

end

def exec (model : TimerModel) (state : State threads) : Label threads → Option (State threads)
  | .elapse time => if state.now ≤ time then some { state with now := time } else none
  | .interrupt currentTime outranks =>
      if state.Fires currentTime then
        some ({ state with armed := none }.IRQwakeThreads model currentTime outranks)
      else none
  | .runScheduler next timeSlice =>
      if state.holding then some { state with pendingWakeup := true, requested := false }
      else if (state.flags next).isReady = true then
        some ({ state with running := next, requested := false }.IRQcomputePreemption
          model timeSlice)
      else none
  | .nanoSleepUntil absTime passed =>
      if state.IsAt .outside then
        some (state.sleep model passed absTime .sleep (.sleeping absTime))
      else none
  | .timedWait absTime passed =>
      if state.IsAt .outside then
        some (state.sleep model passed absTime .wait (.sleeping absTime))
      else none
  | .endSleep =>
      if (state.flags state.running).isReady = true then
        state.endSleep (state.activity state.running)
      else none
  | .pauseKernel =>
      if state.IsAt .outside then some ({ state with holding := true }.setActivity .paused)
      else none
  | .restartKernel =>
      if state.IsAt .paused then some ({ state with holding := false }.setActivity .restarting)
      else none
  | .testPendingWakeup =>
      if state.IsAt .restarting then
        if state.pendingWakeup then
          some ({ state with pendingWakeup := false }.setActivity .yielding)
        else some (state.setActivity .outside)
      else none
  | .yield =>
      if state.IsAt .yielding then some ({ state with requested := true }.setActivity .outside)
      else none
  | .PKwait =>
      if state.IsAt .paused then
        some ({ state.block .wait with holding := false }.setActivity (.relocking none))
      else none
  | .PKtimedWait absTime passed =>
      if state.IsAt .paused then
        some { state.sleep model passed absTime .wait (.relocking (some absTime)) with
          holding := false }
      else none
  | .relock =>
      if (state.flags state.running).isReady = true then
        state.relock (state.activity state.running)
      else none
  | .other flags invokes wakes =>
      some { state with
        flags := flags
        requested := state.requested || invokes
        pendingWakeup := state.pendingWakeup || wakes }

end Miosix.Sleeping
