/-
This file embeds `PriorityScheduler` of `kernel/scheduler/priority/priority_scheduler.cpp`.

The ready threads are in an array of lists, one for each priority, and the scheduler takes
the first thread of the highest one that is not empty. A running thread is in no list, and a
thread that is not ready is in a list of its own. With more than one core, a scheduler run
also looks for another core on which the scheduler has to run.

Every function runs with the global lock held. The length of the time slice and the saved
stack pointers are left out.
-/

import Miosix.Lib.Scan
import Miosix.Sched.Cores

namespace Miosix.PriorityScheduler

open Function

variable {threads cores : Nat}

/-! ### The scheduler -/

structure State (threads cores : Nat) extends Cores threads cores where
  priority : Fin threads → Int
  ready : Int → List (Fin threads)

section

variable (config : Config)

section

variable (state : State threads cores) (thread : Fin threads) (priority : Int)
  (affinity : Fin cores → Bool)

/-- The priority of the idle threads. -/
def idlePriority : Int := -1

def State.setFlags (state : State threads cores) (thread : Fin threads) (flags : ThreadFlags) :
    State threads cores :=
  { state with toCores := state.toCores.setFlags thread flags }

def State.request (state : State threads cores) (core : Fin cores) : State threads cores :=
  { state with toCores := state.toCores.request core }

/-- The scheduler is invoked on a core, if one was found. -/
def State.invoke : Option (Fin cores) → State threads cores
  | some core => state.request core
  | none => state

/-- A thread that is ready is appended to the list of its priority. -/
def State.enqueue : State threads cores :=
  { state with ready := LevelQueue.push state.ready (state.priority thread) thread }

def IRQaddThread : State threads cores :=
  let added := { state with priority := update state.priority thread priority }
  if (state.flags thread).isReady = false then
    { added with notReady := thread :: state.notReady }
  else added.enqueue thread

/-- A new thread object is made and given to the scheduler. -/
def State.addNew (waiting : Bool) : State threads cores :=
  IRQaddThread { state with toCores := state.create thread affinity waiting } thread priority

def IRQsetPriority (newPriority : Int) : State threads cores :=
  let changed := { state with priority := update state.priority thread newPriority }
  if ∃ core, thread = state.running core then changed
  else if (state.flags thread).isReady = false then changed
  else
    { changed with
      ready := LevelQueue.push
        (LevelQueue.remove state.ready (state.priority thread) thread) newPriority thread }

def IRQwokenThread : State threads cores :=
  if ∃ core, state.running core = thread then state
  else { state with notReady := state.notReady.erase thread }.enqueue thread

/-- `IRQclearWait`, `IRQclearSleepAndWait` and `IRQclearJoinWait`. -/
def IRQclear (unblocking : Unblocking) : State threads cores :=
  let flags := (state.flags thread).unset unblocking
  let cleared := state.setFlags thread flags
  if (state.flags thread).isReady = false ∧ flags.isReady = true then
    IRQwokenThread cleared thread
  else cleared

/-! ### The scheduler run -/

/-- The previously running thread is put in a list, unless it is the idle thread. -/
def State.requeue (core : Fin cores) : State threads cores :=
  let prev := state.running core
  if prev = state.idle core then state
  else if (state.flags prev).isZombie then { state with notReady := state.notReady ++ [prev] }
  else if (state.flags prev).isReady = false then
    { state with notReady := prev :: state.notReady }
  else state.enqueue prev

/-- The priorities of the running threads, where the own core counts as the highest. -/
def State.runningPrio (core : Fin cores) : Fin cores → Int :=
  update (fun other => state.priority (state.running other)) core
    (config.numPriorities - 1)

/-- The first core of least priority. -/
def coreRunningMinPriorityThread (runningPrio : Fin cores → Int) (first : Fin cores) : Fin cores :=
  (List.finRange cores).foldl
    (fun best core => if runningPrio core < runningPrio best then core else best) first

/-- A list is not empty from a level down to the last one above a bound. -/
def nonemptyAbove (ready : Int → List (Fin threads)) (bound : Int) : Nat → Bool
  | 0 => decide (bound < 0) && !(ready 0).isEmpty
  | level + 1 => decide (bound < level + 1) &&
      (!(ready (level + 1)).isEmpty || nonemptyAbove ready bound level)

/-- The selection on a single core. -/
def State.dequeue (config : Config) (state : State threads cores) (core : Fin cores) :
    State threads cores :=
  match LevelQueue.front state.ready config.numPriorities with
  | some next =>
      { state with
        ready := LevelQueue.dequeue state.ready config.numPriorities
        toCores := state.setRunning core next }
  | none => { state with toCores := state.setRunning core (state.idle core) }

/-- The check for another core without affinity, from the level of the selected thread down. -/
def State.reschedule (core : Fin cores) (scheduled : State threads cores) : State threads cores :=
  let runningPrio := state.runningPrio config core
  let lowest := coreRunningMinPriorityThread runningPrio ⟨0, core.pos⟩
  match LevelQueue.highest state.ready config.numPriorities with
  | none => scheduled
  | some level =>
      if nonemptyAbove scheduled.ready (runningPrio lowest) level.toNat then
        scheduled.request lowest
      else scheduled

/-- The first core a thread may run on whose priority is not above a level. -/
def preemptible (runningPrio : Fin cores → Int) (level : Int)
    (thread : Fin threads) : Option (Fin cores) :=
  (List.finRange cores).find? fun core => state.affinity thread core &&
    !decide (level < runningPrio core)

end

section

variable (extraChecks : ExtraChecks) (support : CoreSupport) (state : State threads cores)

/-- The selection with affinity. A core found for a thread that was passed over is invoked only
if no thread is selected. -/
def State.dequeueWithAffinity
    (core : Fin cores) : State threads cores :=
  let runningPrio := state.runningPrio config core
  let offer := preemptible state runningPrio
  match Scan.scanLevels (fun thread => state.affinity thread core) offer state.ready
      config.numPriorities none with
  | (some (level, next, left), scheduleOnOtherCore) =>
      let scheduled := { state with
        ready := update state.ready level left
        toCores := state.setRunning core next }
      let minRunningPriority := runningPrio (coreRunningMinPriorityThread runningPrio ⟨0, core.pos⟩)
      if scheduleOnOtherCore = none then
        scheduled.invoke (Scan.searchLevels offer scheduled.ready minRunningPriority level)
      else scheduled
  | (none, scheduleOnOtherCore) =>
      State.invoke { state with toCores := state.setRunning core (state.idle core) }
        scheduleOnOtherCore

def IRQrunScheduler
    (core : Fin cores) : State threads cores :=
  let started := { state with requested := update state.requested core false }
  if state.holdingCore = some core then { started with pendingWakeup := true }
  else
    let requeued := started.requeue core
    match support with
    | .single => requeued.dequeue config core
    | .smp => requeued.reschedule config core (requeued.dequeue config core)
    | .smpWithAffinity => requeued.dequeueWithAffinity config core

/-- The priority of a thread that does not exist yet means nothing. -/
def State.initial (idle : Fin cores → Fin threads) : State threads cores where
  toCores := .initial idle
  priority := fun thread => if ∃ core, idle core = thread then idlePriority else 0
  ready := fun _ => []

/-! ### The machine -/

/-- A thread is added once, with a valid priority. -/
def exec : Cores.Label threads cores → Option (State threads cores)
  | .add thread priority affinity waiting =>
      if state.allocated thread = false ∧ (∀ core, state.idle core ≠ thread) ∧
          validate config priority = true then
        some (state.addNew thread priority affinity waiting)
      else none
  | .setPriority thread newPriority =>
      if state.Live thread ∧ validate config newPriority = true ∧
          (extraChecks = .kernel → (state.flags thread).isZombie = false) then
        some (IRQsetPriority state thread newPriority)
      else none
  | .unblock thread unblocking =>
      if state.Live thread then some (IRQclear state thread unblocking) else none
  | .runScheduler core => some (IRQrunScheduler config support state core)
  | label => (state.toCores.exec label).map fun next => { state with toCores := next }

end

end

end Miosix.PriorityScheduler
