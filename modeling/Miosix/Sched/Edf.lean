/-
This file embeds `EDFScheduler` of `kernel/scheduler/edf/edf_scheduler.cpp`.

The ready threads are kept in two queues: those of the default priority, which are served in
turn, and those with a deadline, sorted by it. A running thread is in no list, and a thread
that is not ready is in a list of its own.

Every function runs with the global lock held, so the steps of the machine are whole
functions: those of the scheduler, and the places where the kernel changes the flags of a
thread. The length of the time slice and the saved stack pointers are left out.
-/

import Miosix.Lib.Scan
import Miosix.Lib.TimeQueue
import Miosix.Lib.Transition
import Miosix.Sched.Cores

namespace Miosix.EDFScheduler

open Function

variable {threads cores : Nat}

/-! ### Deadlines -/

/-- `numeric_limits<long long>::max()`. -/
def maxDeadline : Int := 2 ^ 63 - 1

/-- The priority of the idle threads. -/
def idleDeadline : Int := maxDeadline - 1

/-- `DEFAULT_PRIORITY`: the threads that are served in turn. -/
def defaultDeadline : Int := maxDeadline - 2

/-- `EDFSchedulerPriority::validate`. -/
def validate (deadline : Int) : Bool :=
  decide (0 ≤ deadline ∧ deadline ≤ maxDeadline ∧ deadline ≠ idleDeadline)

/-! ### The scheduler -/

structure State (threads cores : Nat) extends Cores threads cores where
  deadline : Fin threads → Int
  readyRr : List (Fin threads)
  readyEdf : List (Fin threads)

def State.setFlags (state : State threads cores) (thread : Fin threads) (flags : ThreadFlags) :
    State threads cores :=
  { state with toCores := state.toCores.setFlags thread flags }

def State.request (state : State threads cores) (core : Fin cores) : State threads cores :=
  { state with toCores := state.toCores.request core }

/-- A thread that is ready is put in one of the two queues. -/
def State.enqueue (state : State threads cores) (thread : Fin threads) : State threads cores :=
  if state.deadline thread = defaultDeadline then
    { state with readyRr := state.readyRr ++ [thread] }
  else { state with readyEdf := TimeQueue.enqueue state.deadline state.readyEdf thread }

section

variable (state : State threads cores) (thread : Fin threads)

def IRQaddThread (priority : Int) : State threads cores :=
  let added := { state with deadline := update state.deadline thread priority }
  if (state.flags thread).isReady = false then
    { added with notReady := thread :: state.notReady }
  else added.enqueue thread

/-- `IRQsetPriority`. A thread that is neither running nor ready only gets the new value, and so
does one for which the condition on the two priorities holds. -/
def IRQsetPriority (newPriority : Int) : State threads cores :=
  let changed := { state with deadline := update state.deadline thread newPriority }
  let oldRR := decide (state.deadline thread = defaultDeadline)
  let newRR := decide (newPriority = defaultDeadline)
  if ∃ core, thread = state.running core then changed
  else if (state.flags thread).isReady = false then changed
  else if oldRR = true ∨ newRR = true then changed
  else
    let removed := if oldRR then { changed with readyRr := state.readyRr.erase thread }
      else { changed with readyEdf := state.readyEdf.erase thread }
    if newRR then { removed with readyRr := removed.readyRr ++ [thread] }
    else { removed with
      readyEdf := TimeQueue.enqueue changed.deadline removed.readyEdf thread }

def IRQwokenThread : State threads cores :=
  if ∃ core, state.running core = thread then state
  else { state with notReady := state.notReady.erase thread }.enqueue thread

/-- `IRQclearWait`, `IRQclearSleepAndWait` and `IRQclearJoinWait`. -/
def IRQclear (unblocking : Unblocking) : State threads cores :=
  let flags := (state.flags thread).unset unblocking
  let cleared := state.setFlags thread flags
  if (state.flags thread).isReady = false ∧ flags.isReady = true then
    IRQwokenThread cleared thread
  else cleared

/-! ### The scheduler run -/

/-- The previously running thread is put in a list, unless it is the idle thread. -/
def State.requeue (core : Fin cores) : State threads cores :=
  let prev := state.running core
  if prev = state.idle core then state
  else if (state.flags prev).isZombie then { state with notReady := state.notReady ++ [prev] }
  else if (state.flags prev).isReady = false then
    { state with notReady := prev :: state.notReady }
  else state.enqueue prev

/-- The selection without affinity. -/
def State.dequeue (core : Fin cores) : State threads cores :=
  match state.readyEdf with
  | next :: rest => { state with readyEdf := rest, toCores := state.setRunning core next }
  | [] =>
      match state.readyRr with
      | next :: rest => { state with readyRr := rest, toCores := state.setRunning core next }
      | [] => { state with toCores := state.setRunning core (state.idle core) }

/-- The scheduler is invoked on a core, if one was found. -/
def State.invoke : Option (Fin cores) → State threads cores
  | some core => state.request core
  | none => state

def State.secondEarliestDeadline : Int :=
  match state.readyEdf, state.readyRr with
  | front :: _, _ => state.deadline front
  | [], _ :: _ => defaultDeadline
  | [], [] => idleDeadline

/-- The check for another core without affinity: the earliest ready thread is compared with what
runs on each core. -/
def State.reschedule : State threads cores :=
  let second := state.secondEarliestDeadline
  if second = idleDeadline then state
  else state.invoke ((List.finRange cores).find? fun core =>
    decide (second < state.deadline (state.running core)))

section

variable (runningDeadline : Fin cores → Int) (thread : Fin threads)

/-- The first core a thread may run on whose deadline is not before its own. -/
def preemptible : Option (Fin cores) :=
  (List.finRange cores).find? fun core => state.affinity thread core &&
    !decide (runningDeadline core < state.deadline thread)

/-- The first core a thread may run on that is idle. -/
def vacant : Option (Fin cores) :=
  (List.finRange cores).find? fun core => state.affinity thread core &&
    decide (runningDeadline core = idleDeadline)

end

end

/-- The loop over the rest of the queue of deadlines: the outcome is the core to invoke, if any,
once the loop jumps to its end, and `none` if it runs to the end of the queue. -/
def recheck (state : State threads cores) (runningDeadline : Fin cores → Int) (latest : Int) :
    List (Fin threads) → Option (Option (Fin cores))
  | [] => none
  | thread :: rest =>
      if latest ≤ state.deadline thread then some none
      else
        match preemptible state runningDeadline thread with
        | some core => some (some core)
        | none => recheck state runningDeadline latest rest

section

variable (extraChecks : ExtraChecks) (support : CoreSupport) (state : State threads cores)

/-- The core to invoke after the selection, if the selection has not found one. The deadline of
the own core, zero, is the least that counts. -/
def searchOther (runningDeadline : Fin cores → Int)
    (edfRest rrRest : List (Fin threads)) : Option (Fin cores) :=
  let latest := (List.finRange cores).foldl (fun latest core => max latest (runningDeadline core)) 0
  match recheck state runningDeadline latest edfRest with
  | some outcome => outcome
  | none =>
      if latest = idleDeadline then rrRest.findSome? (vacant state runningDeadline) else none

/-- The selection with affinity. The deadline of the own core is taken to be zero. -/
def State.dequeueWithAffinity (core : Fin cores) :
    State threads cores :=
  let runningDeadline := update (fun c => state.deadline (state.running c)) core 0
  let allowed := fun thread => state.affinity thread core
  let edf := Scan.scan allowed (preemptible state runningDeadline) state.readyEdf none
  let rr : Scan.Found (Fin threads) (Fin cores) := match edf.picked with
    | some _ => ⟨[], none, state.readyRr, edf.candidate⟩
    | none => Scan.scan allowed (vacant state runningDeadline) state.readyRr edf.candidate
  let next := (edf.picked.or rr.picked).getD (state.idle core)
  let scheduled := { state with
    readyEdf := edf.left
    readyRr := rr.left
    toCores := state.setRunning core next }
  scheduled.invoke (rr.candidate.or (searchOther state runningDeadline edf.rest rr.rest))

def IRQrunScheduler (core : Fin cores) :
    State threads cores :=
  let started := { state with requested := update state.requested core false }
  if state.holdingCore = some core then { started with pendingWakeup := true }
  else
    match support with
    | .single => (started.requeue core).dequeue core
    | .smp => ((started.requeue core).dequeue core).reschedule
    | .smpWithAffinity => (started.requeue core).dequeueWithAffinity core

/-! ### The machine -/

/-- A thread is added once, with a valid priority, and a process is added before it is ready. -/
def exec : Cores.Label threads cores → Option (State threads cores)
  | .add thread priority affinity waiting =>
      if state.allocated thread = false ∧ (∀ core, state.idle core ≠ thread) ∧
          validate priority = true then
        some (IRQaddThread { state with toCores := state.create thread affinity waiting }
          thread priority)
      else none
  | .setPriority thread newPriority =>
      if state.Live thread ∧ validate newPriority = true ∧
          (extraChecks = .kernel → (state.flags thread).isZombie = false) then
        some (IRQsetPriority state thread newPriority)
      else none
  | .unblock thread unblocking =>
      if state.Live thread then some (IRQclear state thread unblocking) else none
  | .runScheduler core => some (IRQrunScheduler support state core)
  | label => (state.toCores.exec label).map fun next => { state with toCores := next }

end

def State.initial (idle : Fin cores → Fin threads) : State threads cores where
  toCores := .initial idle
  deadline := fun _ => idleDeadline
  readyRr := []
  readyEdf := []

end Miosix.EDFScheduler
