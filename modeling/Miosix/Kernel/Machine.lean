/-
This file puts the priority scheduler, the functions of `kernel/thread.cpp` that block and
wake threads, and the synchronization primitives together into one machine.

A step is one section with the global lock held, one scheduler run, or one step with the
pause kernel lock. The sections of the primitives hold the pause kernel lock and take the
global lock for each thing they ask of the scheduler, so such a section is several steps:
its body leaves an agenda, and the entries of the agenda are carried out one by one, while
interrupts and other cores go on. `PKrestartKernelAndWait` runs with interrupts disabled and is
one step. So is the end of the pause kernel lock, which first gives the lock back and later, in
a step of its own, looks at `pendingWakeup`; any core may make that second step.

A call through a pointer to a thread whose memory was given back has no defined effect, and
neither has a step that would touch such a thread. The same holds for a section that ends in
`errorHandler`. A thread that runs executes code only while it is ready: it stops being ready
in the section that also requests a scheduler run.
-/

import Miosix.Sync.Machine
import Miosix.Sched.Priority

namespace Miosix.Kernel

open PriorityScheduler (IRQaddThread IRQclear IRQsetPriority IRQrunScheduler)
open Function

variable {threads cores : Nat}

/-! ### Rescheduling -/

/-- `Thread::Hlb`: the order in which the cores are looked at. -/
inductive Hlb where
  | fromFirst
  | fromLast
  deriving DecidableEq, Repr

def Hlb.order (balancing : Hlb) (cores : Nat) : List (Fin cores) :=
  match balancing with
  | .fromFirst => List.finRange cores
  | .fromLast => (List.finRange cores).reverse

section

variable (support : CoreSupport) (balancing : Hlb) (sched : PriorityScheduler.State threads cores)

section

variable (thread : Fin threads) (excludedCore : Fin cores)

/-- `Thread::IRQconsiderRescheduling`. The flag tells the caller to run the scheduler on the
excluded core. -/
def IRQconsiderRescheduling : PriorityScheduler.State threads cores × Bool :=
  match (balancing.order cores).find? fun core =>
      (decide (support ≠ .smpWithAffinity) || sched.affinity thread core) &&
        decide (sched.priority (sched.running core) < sched.priority thread) with
  | none => (sched, false)
  | some core => if core = excludedCore then (sched, true) else (sched.request core, false)

/-- The callers that invoke the scheduler at once. -/
def IRQreschedule (core : Fin cores) :
    PriorityScheduler.State threads cores :=
  let considered := IRQconsiderRescheduling support balancing sched thread core
  if considered.2 then considered.1.request core else considered.1

/-- `Thread::IRQwakeup`. -/
def IRQwakeup (core : Fin cores) : PriorityScheduler.State threads cores :=
  IRQreschedule support .fromFirst (IRQclear sched thread .wait) thread core

/-- `Thread::PKwakeup`. -/
def PKwakeup (core : Fin cores) : PriorityScheduler.State threads cores :=
  let considered :=
    IRQconsiderRescheduling support .fromFirst (IRQclear sched thread .wait) thread core
  if considered.2 then { considered.1 with pendingWakeup := true } else considered.1

end

/-- The loop of `IRQwakeThreads`, with its flag. -/
def wakeLoop (support : CoreSupport) (core : Fin cores) :
    List (Fin threads) → PriorityScheduler.State threads cores × Bool →
      PriorityScheduler.State threads cores × Bool
  | [], woken => woken
  | thread :: rest, woken =>
      let considered := IRQconsiderRescheduling support .fromLast
        (IRQclear woken.1 thread .sleepAndWait) thread core
      wakeLoop support core rest (considered.1, woken.2 || considered.2)

def IRQwakeThreads
    (expired : List (Fin threads)) (core : Fin cores) : PriorityScheduler.State threads cores :=
  let woken := wakeLoop support core expired (sched, false)
  if woken.2 then woken.1.request core else woken.1

/-- The running thread stops being ready, and the scheduler is invoked on its core. -/
def IRQblock (core : Fin cores) (blocking : Blocking) : PriorityScheduler.State threads cores :=
  (sched.setFlags (sched.running core)
    ((sched.flags (sched.running core)).set blocking)).request core

def IRQsetDetached (thread : Fin threads) : PriorityScheduler.State threads cores :=
  sched.setFlags thread { sched.flags thread with detached := true }

end

section

variable (config : Config)

/-- `PriorityScheduler::IRQexists`. -/
def IRQexists (sched : PriorityScheduler.State threads cores) (thread : Fin threads) : Bool :=
  if ∃ core, sched.running core = thread then !(sched.flags thread).isDeleted
  else if (LevelQueue.listing sched.ready config.numPriorities).contains thread then true
  else sched.notReady.contains thread && !(sched.flags thread).isDeleted

/-! ### The state -/

/-- What a thread is in the middle of, apart from a call of a synchronization primitive: a wait
with a deadline, or `join`. -/
inductive Activity (threads : Nat) where
  | ordinary
  | sleeping
  | joining (target : Fin threads)
  deriving DecidableEq, Repr

/-- The state of the kernel. The agenda is what the section with the pause kernel lock still has
to ask of the scheduler, and `sleepUntil` the deadline with which it goes to wait. -/
structure State (threads cores : Nat) where
  sched : PriorityScheduler.State threads cores
  sync : Sync.State threads
  pc : Fin threads → Sync.Pc
  agenda : List (Sync.SchedulerCall threads)
  sleepUntil : Option Int
  sleepingList : List (SleepToken threads)
  waitingForJoin : Fin threads → Option (Fin threads)
  activity : Fin threads → Activity threads

section

variable (state : State threads cores) (thread : Fin threads)

section

variable (core : Fin cores)

/-- The thread that runs on a core. -/
def State.current : Fin threads :=
  state.sched.running core

/-- The thread on a core executes code of its own. -/
def State.Executes : Prop :=
  state.current core ≠ state.sched.idle core ∧
    (state.sched.flags (state.current core)).isReady = true ∧
      state.sched.holdingCore ≠ some core
  deriving Decidable

/-- It is not in the middle of a call. -/
def State.Free : Prop :=
  state.Executes core ∧ state.pc (state.current core) = .outside ∧
    state.activity (state.current core) = .ordinary
  deriving Decidable

end

/-- Memory for a new thread, which nothing refers to. -/
def State.Unused : Prop :=
  state.sched.allocated thread = false ∧ (∀ core, state.sched.idle core ≠ thread) ∧
    state.pc thread = .outside ∧ state.sync.mutexLocked thread = [] ∧
      ∀ request ∈ state.agenda, request.target ≠ thread
  deriving Decidable

/-- A pointer that may be passed to `join` and `detach`: with the extra checks, any. -/
def State.Valid : Prop :=
  config.extraChecks ≠ .none ∨ state.sched.allocated thread = true
  deriving Decidable

/-! ### Threads -/

/-- The new thread of `Thread::create` is given to the scheduler. -/
def addThread (sched : PriorityScheduler.State threads cores) (thread : Fin threads)
    (priority : Int) (detached : Bool) : PriorityScheduler.State threads cores :=
  let added := sched.addNew thread priority (fun _ => true) false
  if detached then IRQsetDetached added thread else added

/-- `Thread::create`, from where the new thread is given to the scheduler. -/
def State.create (support : CoreSupport) (state : State threads cores)
    (core : Fin cores) (thread : Fin threads) (priority : Int) (detached : Bool) :
    Option (State threads cores) :=
  if validate config priority = true ∧ state.Unused thread then
    some { state with
      sched := IRQreschedule support .fromLast
        (addThread state.sched thread priority detached) thread core
      sync := { state.sync with
        priority := update state.sync.priority thread priority
        savedPriority := update state.sync.savedPriority thread priority }
      waitingForJoin := update state.waitingForJoin thread none
      activity := update state.activity thread .ordinary }
  else none

/-- `Thread::wait`. -/
def State.wait (state : State threads cores) (core : Fin cores) : Option (State threads cores) :=
  if state.Free core then some { state with sched := IRQblock state.sched core .wait } else none

section

variable (core : Fin cores) (target : Fin threads)

/-- `Thread::nanoSleepUntil` and `Thread::timedWait`, which differ in the flag they set. -/
def State.sleep (absTime : Int)
    (blocking : Blocking) : Option (State threads cores) :=
  if state.Free core then
    some { state with
      sched := IRQblock state.sched core blocking
      sleepingList := SleepingList.enqueue state.sleepingList (state.current core) absTime
      activity := update state.activity (state.current core) .sleeping }
  else none

def State.nanoSleepUntil (absTime : Int) : Option (State threads cores) :=
  state.sleep core absTime .sleep

def State.timedWait (absTime : Int) : Option (State threads cores) :=
  state.sleep core absTime .wait

/-- The end of the two, when the thread runs again. -/
def State.endSleep : Option (State threads cores) :=
  if state.Executes core ∧ state.activity (state.current core) = .sleeping then
    some { state with
      sleepingList := SleepingList.remove state.sleepingList (state.current core)
      activity := update state.activity (state.current core) .ordinary }
  else none

/-- `Thread::join`, up to where the thread waits or the call returns. -/
def State.join : Option (State threads cores) :=
  if state.Free core ∧ state.Valid config target then
    if target = state.current core then some state
    else if config.extraChecks ≠ .none ∧ IRQexists config state.sched target = false then some state
    else if (state.sched.flags target).detached then some state
    else if (state.sched.flags target).isZombie then
      some { state with sched := IRQsetDetached state.sched target }
    else if state.waitingForJoin target ≠ none then some state
    else
      some { state with
        sched := IRQblock state.sched core .joinWait
        waitingForJoin := update state.waitingForJoin target (some (state.current core))
        activity := update state.activity (state.current core) (.joining target) }
  else none

/-- The loop of `join`, when the thread runs again. -/
def State.endJoin : Option (State threads cores) :=
  if state.Executes core ∧ state.activity (state.current core) = .joining target ∧
      state.Valid config target then
    let returned := { state with
      activity := update state.activity (state.current core) .ordinary }
    if config.extraChecks ≠ .none ∧ IRQexists config state.sched target = false then some returned
    else if (state.sched.flags target).detached then some returned
    else if (state.sched.flags target).isZombie then
      some { returned with sched := IRQsetDetached state.sched target }
    else some { state with sched := IRQblock state.sched core .joinWait }
  else none

/-- `IRQclearJoinWait` of the thread that waits in `join`, if there is one. -/
def clearJoinWait (sched : PriorityScheduler.State threads cores) :
    Option (Fin threads) → Option (PriorityScheduler.State threads cores)
  | none => some sched
  | some joiner => if sched.Live joiner then some (IRQclear sched joiner .joinWait) else none

/-- `Thread::detach`. -/
def State.detach (support : CoreSupport) (state : State threads cores)
    (core : Fin cores) (target : Fin threads) : Option (State threads cores) :=
  if state.Valid config target then
    if config.extraChecks ≠ .none ∧ target ≠ state.current core ∧
        IRQexists config state.sched target = false then some state
    else
      let detached := IRQsetDetached state.sched target
      match state.waitingForJoin target with
      | none => some { state with sched := detached }
      | some joiner =>
          if (state.sched.flags target).isZombie then some { state with sched := detached }
          else (clearJoinWait detached (some joiner)).map fun woken =>
            { state with sched := IRQreschedule support .fromLast woken joiner core }
  else none

/-- The end of `Thread::threadLauncher`. -/
def State.exit : Option (State threads cores) :=
  if state.Free core then
    let deleted := state.sched.setFlags (state.current core)
      ((state.sched.flags (state.current core)).set .deleted)
    (clearJoinWait deleted (if (state.sched.flags (state.current core)).detached then none
      else state.waitingForJoin (state.current core))).map fun woken =>
        { state with sched := woken.request core }
  else none

/-- `Thread::terminate`. -/
def State.terminate : Option (State threads cores) :=
  if state.sched.Live target then
    if (state.sched.flags target).deleting then some state
    else
      let deleting := state.sched.setFlags target
        { state.sched.flags target with deleting := true }
      some { state with sched := IRQclear deleting target .sleepAndWait }
  else none

/-! ### Sections with the pause kernel lock -/

/-- The first section of a call of a synchronization primitive or of `Thread::setPriority`. -/
def State.call (config : Config) (state : State threads cores) (core : Fin cores)
    (call : Sync.Call) : Option (State threads cores) :=
  if state.Free core ∧ state.sched.holdingCore = none ∧
      Sync.permitted config state.sync (state.current core) call = true then
    match Sync.enter config state.sync.clearCalls (state.current core) call with
    | .error _ => none
    | .ok (sync, outcome) => some { state with
        sched := { state.sched with holdingCore := some core }
        sync := sync
        pc := update state.pc (state.current core) outcome.pc
        agenda := sync.calls
        sleepUntil := match call with
          | .timedWait _ _ absTime => some absTime
          | _ => none }
  else none

/-- The section of a thread that was blocked in such a call and runs again. -/
def State.resume (state : State threads cores) (core : Fin cores) : Option (State threads cores) :=
  if state.Executes core ∧ state.sched.holdingCore = none then
    match Sync.resume state.sync.clearCalls (state.current core) (state.pc (state.current core))
        (SleepingList.contains state.sleepingList (state.current core)) with
    | .error _ => none
    | .ok (sync, outcome) => some { state with
        sched := { state.sched with holdingCore := some core }
        sync := sync
        pc := update state.pc (state.current core) outcome.pc
        agenda := sync.calls
        sleepUntil := none
        sleepingList := SleepingList.remove state.sleepingList (state.current core) }
  else none

/-- `PKrestartKernelAndWait` and its timed version. -/
def State.restartKernelAndWait : State threads cores :=
  { state with
    sched := { IRQblock state.sched core .wait with holdingCore := none }
    sleepUntil := none
    sleepingList := match state.sleepUntil with
      | some absTime => SleepingList.enqueue state.sleepingList (state.current core) absTime
      | none => state.sleepingList }

end

end

/-- `IRQsetPriority` with its extra check. -/
def setPriority (sched : PriorityScheduler.State threads cores)
    (thread : Fin threads) (priority : Int) : Option (PriorityScheduler.State threads cores) :=
  if sched.Live thread ∧
      ¬ (config.extraChecks = .kernel ∧ (sched.flags thread).isZombie = true) then
    some (IRQsetPriority sched thread priority)
  else none

section

variable (support : CoreSupport) (state : State threads cores)

/-- The next entry of the agenda is carried out. -/
def State.perform
    (core : Fin cores) : Option (State threads cores) :=
  if state.sched.holdingCore = some core then
    match state.agenda with
    | [] => none
    | .setPriority thread priority :: rest =>
        (setPriority config state.sched thread priority).map fun sched =>
          { state with sched := sched, agenda := rest }
    | .setOwnPriority thread priority pendingWakeup :: rest =>
        (setPriority config state.sched thread priority).map fun sched =>
          { state with
            sched := { sched with pendingWakeup := pendingWakeup || sched.pendingWakeup }
            agenda := rest }
    | .wakeup thread :: rest =>
        if state.sched.Live thread then
          some { state with
            sched := PKwakeup support state.sched thread core
            agenda := rest }
        else none
    | .restartKernelAndWait _ :: rest =>
        some { state.restartKernelAndWait core with agenda := rest }
  else none

/-! ### The machine -/

/-- The steps. A core is where the step is made; `yield` is also what the timer of the time
slices does. -/
inductive Label (threads cores : Nat) where
  | create (core : Fin cores) (thread : Fin threads) (priority : Int) (detached : Bool)
  | yield (core : Fin cores)
  | wait (core : Fin cores)
  | nanoSleepUntil (core : Fin cores) (absTime : Int)
  | timedWait (core : Fin cores) (absTime : Int)
  | endSleep (core : Fin cores)
  | wakeup (core : Fin cores) (thread : Fin threads)
  | PKwakeup (core : Fin cores) (thread : Fin threads)
  | timer (core : Fin cores) (now : Int)
  | join (core : Fin cores) (target : Fin threads)
  | endJoin (core : Fin cores) (target : Fin threads)
  | detach (core : Fin cores) (target : Fin threads)
  | exit (core : Fin cores)
  | terminate (target : Fin threads)
  | call (core : Fin cores) (call : Sync.Call)
  | resume (core : Fin cores)
  | perform (core : Fin cores)
  | pauseKernel (core : Fin cores)
  | restartKernel (core : Fin cores)
  | checkPendingWakeup (core : Fin cores)
  | runScheduler (core : Fin cores)
  | removeDeadThread
  deriving DecidableEq, Repr

def exec :
    Label threads cores → Option (State threads cores)
  | .create core thread priority detached =>
      state.create config support core thread priority detached
  | .yield core => some { state with sched := state.sched.request core }
  | .wait core => state.wait core
  | .nanoSleepUntil core absTime => state.nanoSleepUntil core absTime
  | .timedWait core absTime => state.timedWait core absTime
  | .endSleep core => state.endSleep core
  | .wakeup core thread =>
      if state.sched.Live thread then
        some { state with sched := IRQwakeup support state.sched thread core }
      else none
  | .PKwakeup core thread =>
      if state.sched.Live thread ∧ state.sched.holdingCore = some core then
        some { state with sched := PKwakeup support state.sched thread core }
      else none
  | .timer core now =>
      if ∀ thread ∈ SleepingList.woken state.sleepingList now, state.sched.Live thread then
        some { state with
          sched := IRQwakeThreads support state.sched
            (SleepingList.woken state.sleepingList now) core
          sleepingList := SleepingList.wakeThreads state.sleepingList now }
      else none
  | .join core target => state.join config core target
  | .endJoin core target => state.endJoin config core target
  | .detach core target => state.detach config support core target
  | .exit core => state.exit core
  | .terminate target => state.terminate target
  | .call core call => state.call config core call
  | .resume core => state.resume core
  | .perform core => state.perform config support core
  | .pauseKernel core =>
      if state.sched.holdingCore = none then
        some { state with sched := { state.sched with holdingCore := some core } }
      else none
  | .restartKernel core =>
      if state.sched.holdingCore = some core ∧ state.agenda = [] then
        some { state with sched := { state.sched with holdingCore := none } }
      else none
  | .checkPendingWakeup core =>
      if state.sched.pendingWakeup then
        some { state with sched := { state.sched with pendingWakeup := false }.request core }
      else some state
  | .runScheduler core =>
      some { state with sched := IRQrunScheduler config support state.sched core }
  | .removeDeadThread =>
      state.sched.removeDeadThread.map fun next =>
        { state with sched := { state.sched with toCores := next } }

end

end

/-- After the boot of the kernel: the idle threads run, the main thread is ready, and a scheduler
run is requested on every core. -/
def State.initial (config : Config) (idle : Fin cores → Fin threads) (main : Fin threads)
    (priority : Fin config.numPriorities) (recursive : Sync.Lockable → Bool) :
    State threads cores where
  sched := { (PriorityScheduler.State.initial idle).addNew main priority (fun _ => true) false with
    requested := fun _ => true }
  sync := (Sync.Machine.initial config
    (update (fun _ => ⟨0, priority.pos⟩) main priority) recursive).sync
  pc := fun _ => .outside
  agenda := []
  sleepUntil := none
  sleepingList := []
  waitingForJoin := fun _ => none
  activity := fun _ => .ordinary

end Miosix.Kernel
