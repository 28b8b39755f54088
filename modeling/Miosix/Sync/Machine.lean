/-
This file turns the synchronization primitives into a machine.

A thread that is in no call may make one at any moment, and a thread that is blocked in a
call may run again at any moment: the scheduler, the other cores and spurious wakeups are
all in that freedom. Each step is one critical section of the pause kernel lock, except
for the timer interrupt, which only takes tokens out of the sleeping list.

A section that ends in `errorHandler` stops the system, so it has no successor state.
Releasing a mutex that the caller does not own is such a section, unless the build leaves
the check out; there the machine takes it as a duty of the caller (`permitted`).
-/

import Miosix.Lib.Transition
import Miosix.Sync.Model

namespace Miosix.Sync

open Function

variable {threads : Nat}

/-! ### Both classes of mutex -/

def State.lock (state : State threads) (target : Lockable) (cur : Fin threads) :
    Except Fault (State threads × Bool) :=
  match target with
  | .mutex id => Mutex.lock state id cur
  | .fastMutex id => FastMutex.lock state id cur

def State.tryLock (state : State threads) (target : Lockable) (cur : Fin threads) :
    State threads × Bool :=
  match target with
  | .mutex id => Mutex.tryLock state id cur
  | .fastMutex id => FastMutex.tryLock state id cur

def State.unlock (config : Config) (state : State threads) (target : Lockable)
    (cur : Fin threads) : Except Fault (State threads) :=
  match target with
  | .mutex id => Mutex.unlock config state id cur
  | .fastMutex id => FastMutex.unlock config state id cur

def State.awaitOwnership (state : State threads) (target : Lockable) (cur : Fin threads) :
    State threads × Bool :=
  match target with
  | .mutex id => Mutex.awaitOwnership state id cur
  | .fastMutex id => FastMutex.awaitOwnership state id cur

def State.PKlockToDepth (state : State threads) (target : Lockable) (cur : Fin threads)
    (depth : Nat) : Except Fault (State threads × Bool) :=
  match target with
  | .mutex id => Mutex.PKlockToDepth state id cur depth
  | .fastMutex id => FastMutex.PKlockToDepth state id cur depth

def State.setDepth (state : State threads) (target : Lockable) (depth : Nat) : State threads :=
  match target with
  | .mutex id => Mutex.setDepth state id depth
  | .fastMutex id => FastMutex.setDepth state id depth

def State.PKunlockAllDepthLevels (config : Config) (state : State threads) (target : Lockable)
    (cur : Fin threads) : Except Fault (State threads × Nat) :=
  match target with
  | .mutex id => Mutex.PKunlockAllDepthLevels config state id cur
  | .fastMutex id => FastMutex.PKunlockAllDepthLevels config state id cur

/-! ### Critical sections -/

/-- The calls a thread makes. -/
inductive Call where
  | lock (target : Lockable)
  | tryLock (target : Lockable)
  | unlock (target : Lockable)
  | wait (condition : Nat) (target : Lockable)
  | timedWait (condition : Nat) (target : Lockable) (absTime : Int)
  | signal (condition : Nat)
  | broadcast (condition : Nat)
  | setPriority (priority : Int)
  deriving DecidableEq, Repr

/-- What a call returns. -/
inductive Answer where
  | done
  | tried (locked : Bool)
  | timed (result : TimedWaitResult)
  deriving DecidableEq, Repr

/-- How a section ends: the call returns, or the thread waits inside it. -/
inductive Outcome where
  | returns (answer : Answer)
  | blocks (pc : Pc)
  deriving DecidableEq, Repr

def Outcome.pc : Outcome → Pc
  | .returns _ => .outside
  | .blocks pc => pc

def Outcome.answer : Outcome → Option Answer
  | .returns answer => some answer
  | .blocks _ => none

/-- The answer of `wait`, which has no result, or of `timedWait`. -/
def Answer.ofResult : Option TimedWaitResult → Answer
  | none => .done
  | some result => .timed result

section

variable (config : Config) (state : State threads) (cur : Fin threads)

/-- The first section of `wait` and of `timedWait`. -/
def beginWait (condition : Nat)
    (target : Lockable) (timed : Bool) : Except Fault (State threads × Outcome) :=
  match state.PKunlockAllDepthLevels config target cur with
  | .error fault => .error fault
  | .ok (state, depth) =>
      .ok ((ConditionVariable.PKenqueue state condition cur).call (.restartKernelAndWait cur),
        .blocks (.waiting condition target depth timed))

/-- The first section of a call. -/
def enter : Call → Except Fault (State threads × Outcome)
  | .lock target =>
      match state.lock target cur with
      | .error fault => .error fault
      | .ok (state, true) => .ok (state, .returns .done)
      | .ok (state, false) => .ok (state, .blocks (.lock target))
  | .tryLock target =>
      .ok ((state.tryLock target cur).1, .returns (.tried (state.tryLock target cur).2))
  | .unlock target =>
      match state.unlock config target cur with
      | .error fault => .error fault
      | .ok state => .ok (state, .returns .done)
  | .wait condition target => beginWait config state cur condition target false
  | .timedWait condition target _ => beginWait config state cur condition target true
  | .signal condition => .ok (ConditionVariable.signal config state condition, .returns .done)
  | .broadcast condition =>
      .ok (ConditionVariable.broadcast config state condition, .returns .done)
  | .setPriority priority => .ok (setPriority config state cur priority, .returns .done)

/-- The section of a blocked thread that runs again. The flag says whether the sleeping list
still held the token of a timed wait. -/
def resume (pc : Pc) (removed : Bool) : Except Fault (State threads × Outcome) :=
  match pc with
  | .outside => .error .unexpected
  | .lock target =>
      match state.awaitOwnership target cur with
      | (state, true) => .ok (state, .returns .done)
      | (state, false) => .ok (state, .blocks (.lock target))
  | .waiting condition target depth timed =>
      let result :=
        if timed then some (if removed then TimedWaitResult.noTimeout else TimedWaitResult.timeout)
        else none
      match (ConditionVariable.PKremove state condition cur).PKlockToDepth target cur depth with
      | .error fault => .error fault
      | .ok (state, true) => .ok (state, .returns (.ofResult result))
      | .ok (state, false) => .ok (state, .blocks (.lockToDepth target depth result))
  | .lockToDepth target depth result =>
      match state.awaitOwnership target cur with
      | (state, true) => .ok (state.setDepth target depth, .returns (.ofResult result))
      | (state, false) => .ok (state, .blocks (.lockToDepth target depth result))

/-! ### The machine -/

/-- The state of the machine. The answer of a thread is what its last call returned, and
none while the call is under way. -/
structure Machine (threads : Nat) where
  sync : State threads
  pc : Fin threads → Pc
  answer : Fin threads → Option Answer
  sleepingList : List (SleepToken threads)

inductive Label (threads : Nat) where
  | call (thread : Fin threads) (call : Call)
  | resume (thread : Fin threads)
  | timer (now : Int)
  deriving DecidableEq, Repr

/-- The caller's duty in a build without extra checks: only the owner releases a mutex. -/
def permitted : Call → Bool
  | .unlock target | .wait _ target | .timedWait _ target _ =>
      decide (config.extraChecks ≠ .none) ||
        decide ((state.lockable target).owner = some cur)
  | _ => true

/-- The sleeping list after the first section of a call. -/
def sleepAfter (tokens : List (SleepToken threads)) (cur : Fin threads) :
    Call → List (SleepToken threads)
  | .timedWait _ _ absTime => SleepingList.enqueue tokens cur absTime
  | _ => tokens

/-- A section starts with no requests to the scheduler. -/
def State.clearCalls : State threads := { state with calls := [] }

def exec (machine : Machine threads) : Label threads → Option (Machine threads)
  | .call thread call =>
      if machine.pc thread = .outside ∧ permitted config machine.sync thread call = true then
        match enter config machine.sync.clearCalls thread call with
        | .error _ => none
        | .ok (sync, outcome) => some
            { sync := sync
              pc := update machine.pc thread outcome.pc
              answer := update machine.answer thread outcome.answer
              sleepingList := sleepAfter machine.sleepingList thread call }
      else none
  | .resume thread =>
      match resume machine.sync.clearCalls thread (machine.pc thread)
          (SleepingList.contains machine.sleepingList thread) with
      | .error _ => none
      | .ok (sync, outcome) => some
          { sync := sync
            pc := update machine.pc thread outcome.pc
            answer := update machine.answer thread outcome.answer
            sleepingList := SleepingList.remove machine.sleepingList thread }
  | .timer now =>
      some { machine with sleepingList := SleepingList.wakeThreads machine.sleepingList now }

/-- Every thread runs with its own priority, and nothing is locked. -/
def Machine.initial (priority : Fin threads → Fin config.numPriorities)
    (recursive : Lockable → Bool) : Machine threads :=
  let free (target : Lockable) : MutexData threads :=
    { owner := none
      recursiveDepth := if recursive target then 0 else -1
      waitQueue := fun _ => [] }
  { sync :=
      { priority := fun thread => (priority thread).val
        savedPriority := fun thread => (priority thread).val
        mutexLocked := fun _ => []
        mutexWaiting := fun _ => none
        mutex := fun id => free (.mutex id)
        fastMutex := fun id => free (.fastMutex id)
        condition := fun _ _ => []
        clock := 1
        enqueuedAt := fun _ => 0
        calls := [] }
    pc := fun _ => .outside
    answer := fun _ => none
    sleepingList := [] }

end

end Miosix.Sync
