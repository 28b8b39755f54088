/-
This file has the part of the kernel state that every scheduler works on: the flags of the
threads (`ThreadFlags` of `kernel/thread.h`), which thread runs on which core, the list of
the threads that are not ready, the state of the pause kernel lock, and the cores on which a
scheduler run was requested. The steps in which no scheduler has a part are here as well.
-/

import Miosix.Config

namespace Miosix

open Function

/-! ### Thread flags -/

/-- `ThreadFlags`, one field for each bit that is read here. -/
structure ThreadFlags where
  wait : Bool
  sleep : Bool
  deleted : Bool
  deleting : Bool
  detached : Bool
  waitJoin : Bool
  deriving DecidableEq, Repr

/-- The flags of a thread that was just created. -/
def ThreadFlags.clear : ThreadFlags := ⟨false, false, false, false, false, false⟩

section

variable (flags : ThreadFlags)

def ThreadFlags.isReady : Bool :=
  !(flags.wait || flags.sleep || flags.deleted || flags.waitJoin)

def ThreadFlags.isZombie : Bool := flags.deleted

def ThreadFlags.isDeleted : Bool := flags.deleted && flags.detached

/-- The reasons for which a running thread stops being ready. -/
inductive Blocking where
  | wait
  | sleep
  | joinWait
  | deleted
  deriving DecidableEq, Repr

/-- `IRQsetWait`, `IRQsetSleep`, `IRQsetJoinWait` and `IRQsetDeleted`. -/
def ThreadFlags.set : Blocking → ThreadFlags
  | .wait => { flags with wait := true }
  | .sleep => { flags with sleep := true }
  | .joinWait => { flags with waitJoin := true }
  | .deleted => { flags with deleted := true }

/-- What a wakeup clears. -/
inductive Unblocking where
  | wait
  | sleepAndWait
  | joinWait
  deriving DecidableEq, Repr

/-- The flags after `IRQclearWait`, `IRQclearSleepAndWait` and `IRQclearJoinWait`. -/
def ThreadFlags.unset : Unblocking → ThreadFlags
  | .wait => { flags with wait := false }
  | .sleepAndWait => { flags with wait := false, sleep := false }
  | .joinWait => { flags with waitJoin := false }

end

/-- A wakeup that does not make a thread ready leaves it as it is. -/
theorem ThreadFlags.isReady_unset {flags : ThreadFlags} {unblocking : Unblocking}
    (stays : ¬ (flags.isReady = false ∧ (flags.unset unblocking).isReady = true)) :
    (flags.unset unblocking).isReady = flags.isReady := by
  cases ready : flags.isReady with
  | true =>
    obtain ⟨wait, sleep, deleted, deleting, detached, waitJoin⟩ := flags
    cases unblocking <;> simp_all [isReady, unset]
  | false => simpa [ready] using stays

theorem ThreadFlags.not_ready_of_zombie {flags : ThreadFlags} (zombie : flags.isZombie = true) :
    flags.isReady = false := by
  unfold isZombie at zombie
  simp [isReady, zombie]

/-! ### The cores -/

/-- How many cores the kernel is compiled for, and whether threads have an affinity. -/
inductive CoreSupport where
  | single
  | smp
  | smpWithAffinity
  deriving DecidableEq, Repr

/-- The fields of the kernel state that do not depend on the scheduler. `holdingCore` is the core
that holds the pause kernel lock, and `allocated` says whether the thread exists. -/
structure Cores (threads cores : Nat) where
  allocated : Fin threads → Bool
  flags : Fin threads → ThreadFlags
  affinity : Fin threads → Fin cores → Bool
  running : Fin cores → Fin threads
  idle : Fin cores → Fin threads
  notReady : List (Fin threads)
  holdingCore : Option (Fin cores)
  pendingWakeup : Bool
  requested : Fin cores → Bool

variable {threads cores : Nat}

section

variable (state : Cores threads cores)

section

variable (thread : Fin threads) (affinity : Fin cores → Bool)

/-- A thread that exists and is not the idle thread of a core. -/
def Cores.Live : Prop :=
  state.allocated thread = true ∧ ∀ core, state.idle core ≠ thread
  deriving Decidable

def Cores.setFlags (flags : ThreadFlags) : Cores threads cores :=
  { state with flags := update state.flags thread flags }

def Cores.setRunning (core : Fin cores) (thread : Fin threads) : Cores threads cores :=
  { state with running := update state.running core thread }

/-- A new thread object, which no scheduler knows yet. A process is created waiting. -/
def Cores.create (waiting : Bool) : Cores threads cores :=
  { state with
    allocated := update state.allocated thread true
    affinity := update state.affinity thread affinity
    flags := update state.flags thread { ThreadFlags.clear with wait := waiting } }

end

/-- One iteration of `removeDeadThreads`, whose lock covers only the list: the last thread of the
list is taken out if it is deleted, and its memory is given back. -/
def Cores.removeDeadThread : Option (Cores threads cores) :=
  match state.notReady.getLast? with
  | none => none
  | some thread =>
      if (state.flags thread).isDeleted then
        some { state with
          notReady := state.notReady.dropLast
          allocated := update state.allocated thread false }
      else none

/-- `IRQinvokeSchedulerOnCore`, on the own core also `IRQinvokeScheduler`. -/
def Cores.request (core : Fin cores) : Cores threads cores :=
  { state with requested := update state.requested core true }

/-- The end of the pause kernel lock. -/
def Cores.restartKernel (core : Fin cores) : Cores threads cores :=
  let unlocked := { state with holdingCore := none }
  if state.pendingWakeup then { unlocked with pendingWakeup := false }.request core else unlocked

/-! ### The steps -/

/-- What can happen to the threads and on the cores. -/
inductive Cores.Label (threads cores : Nat) where
  | add (thread : Fin threads) (priority : Int) (affinity : Fin cores → Bool) (waiting : Bool)
  | setPriority (thread : Fin threads) (newPriority : Int)
  | block (core : Fin cores) (blocking : Blocking)
  | unblock (thread : Fin threads) (unblocking : Unblocking)
  | detach (thread : Fin threads)
  | runScheduler (core : Fin cores)
  | pauseKernel (core : Fin cores)
  | restartKernel (core : Fin cores)
  | removeDeadThread

/-- The thread that a step adds. -/
def Cores.Label.added : Label threads cores → Option (Fin threads)
  | .add thread _ _ _ => some thread
  | _ => none

/-- The core on which a step runs the scheduler. -/
def Cores.Label.runs : Label threads cores → Option (Fin cores)
  | .runScheduler core => some core
  | _ => none

/-- The step is an iteration of `removeDeadThreads`. -/
def Cores.Label.removes : Label threads cores → Bool
  | .removeDeadThread => true
  | _ => false

/-- The steps that no scheduler has a part in. A thread that blocks does so on the core it runs on
and then asks for a scheduler run there. -/
def Cores.exec : Label threads cores → Option (Cores threads cores)
  | .block core blocking =>
      if state.running core ≠ state.idle core then
        let flags := (state.flags (state.running core)).set blocking
        some ((state.setFlags (state.running core) flags).request core)
      else none
  | .detach thread =>
      if state.Live thread then
        some (state.setFlags thread { state.flags thread with detached := true })
      else none
  | .pauseKernel core =>
      if state.holdingCore = none then some { state with holdingCore := some core } else none
  | .restartKernel core =>
      if state.holdingCore = some core then some (state.restartKernel core) else none
  | .removeDeadThread => state.removeDeadThread
  | .add _ _ _ _ | .setPriority _ _ | .unblock _ _ | .runScheduler _ => none

/-- Before the first thread is added: `IRQsetIdleThread` has been called for every core, and the
idle threads run. -/
def Cores.initial (idle : Fin cores → Fin threads) : Cores threads cores where
  allocated := fun _ => false
  flags := fun _ => ThreadFlags.clear
  affinity := fun _ _ => true
  running := idle
  idle := idle
  notReady := []
  holdingCore := none
  pendingWakeup := false
  requested := fun _ => false

end

end Miosix
