/-
This file embeds the synchronization primitives of `kernel/sync.cpp` and
`Thread::setPriority` of `kernel/thread.cpp`, for the priority scheduler.

Every function below runs with the pause kernel lock held, so it is a function from the
data that lock protects to that data. A call that blocks ends its critical section inside
`Thread::PKrestartKernelAndWait`; the rest of the call is a section of its own, entered
when the thread runs again. The program counter `Pc` says in which call a thread is
blocked, and carries the local variables of that call.

The wait queue of every primitive is the array of lists of `PriorityQueue`: a thread waits
in the list of its level, and the level is the actual priority for a `Mutex` and the saved
priority for a `FastMutex` and for a condition variable (`PriorityPolicy`). With a single
priority level the source uses a plain first-in first-out list, which is the array with
one level.

Two fields record history and are read by no function: `clock` counts the insertions in
wait queues, and `enqueuedAt` is when a thread was last inserted in one. The field `calls`
lists what a section has asked of the scheduler, in order.
-/

import Miosix.Config
import Miosix.Lib.LevelQueue
import Miosix.Thread.Sleep

namespace Miosix.Sync

open Function LevelQueue

/-! ### Data -/

/-- The ways a section does not end: `errorHandler` with `MUTEX_ERROR` or `UNEXPECTED`, the
dereference of a null pointer, or a loop that runs past its bound. -/
inductive Fault where
  | mutexError
  | unexpected
  | nullPointer
  | nonTermination
  deriving DecidableEq, Repr

/-- What a section asks of the scheduler. `setOwnPriority` is the locked block that ends
`Thread::setPriority`: its flag says whether the block also sets `pendingWakeup`. -/
inductive SchedulerCall (threads : Nat) where
  | setPriority (thread : Fin threads) (priority : Int)
  | setOwnPriority (thread : Fin threads) (priority : Int) (pendingWakeup : Bool)
  | wakeup (thread : Fin threads)
  | restartKernelAndWait (thread : Fin threads)
  deriving DecidableEq, Repr

/-- The fields of `Mutex` and of `FastMutex`. A negative depth marks a mutex that is not
recursive. -/
structure MutexData (threads : Nat) where
  owner : Option (Fin threads)
  recursiveDepth : Int
  waitQueue : Int → List (Fin threads)

/-- The thread a request is about. -/
def SchedulerCall.target {threads : Nat} : SchedulerCall threads → Fin threads
  | .setPriority thread _ => thread
  | .setOwnPriority thread _ _ => thread
  | .wakeup thread => thread
  | .restartKernelAndWait thread => thread

/-- The data the pause kernel lock protects. -/
structure State (threads : Nat) where
  priority : Fin threads → Int
  savedPriority : Fin threads → Int
  mutexLocked : Fin threads → List Nat
  mutexWaiting : Fin threads → Option Nat
  mutex : Nat → MutexData threads
  fastMutex : Nat → MutexData threads
  condition : Nat → Int → List (Fin threads)
  clock : Nat
  enqueuedAt : Fin threads → Nat
  calls : List (SchedulerCall threads)

/-- A mutex of either class. -/
inductive Lockable where
  | mutex (id : Nat)
  | fastMutex (id : Nat)
  deriving DecidableEq, Repr

variable {threads : Nat}

/-- The fields of a mutex of either class. -/
def State.lockable (state : State threads) : Lockable → MutexData threads
  | .mutex id => state.mutex id
  | .fastMutex id => state.fastMutex id

/-- Where a thread is blocked. The locals are the `depth` and the `result` of the condition
variable call that is under way. -/
inductive Pc where
  | outside
  | lock (target : Lockable)
  | waiting (condition : Nat) (target : Lockable) (depth : Nat) (timed : Bool)
  | lockToDepth (target : Lockable) (depth : Nat) (result : Option TimedWaitResult)
  deriving DecidableEq, Repr

/-! ### Field updates -/

section

variable (state : State threads) (id : Nat) (data : MutexData threads)

/-- New fields of a `Mutex`. -/
def State.setMutex : State threads :=
  { state with mutex := update state.mutex id data }

/-- New fields of a `FastMutex`. -/
def State.setFastMutex : State threads :=
  { state with fastMutex := update state.fastMutex id data }

/-- A new wait queue of a condition variable. -/
def State.setCondition (queued : Int → List (Fin threads)) : State threads :=
  { state with condition := update state.condition id queued }

section

variable (thread : Fin threads)

/-- The `Mutex` that a thread waits for. -/
def State.setMutexWaiting (value : Option Nat) : State threads :=
  { state with mutexWaiting := update state.mutexWaiting thread value }

/-- The `Mutex`es that a thread has locked. -/
def State.setMutexLocked (value : List Nat) : State threads :=
  { state with mutexLocked := update state.mutexLocked thread value }

/-- Record that the thread enters a wait queue. -/
def State.stamp : State threads :=
  { state with
    clock := state.clock + 1
    enqueuedAt := update state.enqueuedAt thread state.clock }

/-- Record a call of the scheduler. -/
def State.call (request : SchedulerCall threads) : State threads :=
  { state with calls := state.calls ++ [request] }

/-- `Scheduler::IRQsetPriority` as the primitives see it. -/
def State.setPriority (state : State threads) (thread : Fin threads) (priority : Int) :
    State threads :=
  { state with priority := update state.priority thread priority }.call
    (.setPriority thread priority)

section

variable (config : Config) (priority : Int)

/-! ### The wait queue and the locked list of a `Mutex` -/

/-- `waitQueue.PKenqueue` of a `Mutex`. -/
def Mutex.PKenqueue : State threads :=
  (state.setMutex id { state.mutex id with
    waitQueue := push (state.mutex id).waitQueue (state.priority thread) thread }).stamp
    thread

/-- `waitQueue.PKremove` of a `Mutex`. -/
def Mutex.PKremove : State threads :=
  state.setMutex id { state.mutex id with
    waitQueue := remove (state.mutex id).waitQueue (state.priority thread) thread }

/-- The mutex becomes the first of the list. -/
def Mutex.addToLockedList : State threads :=
  state.setMutexLocked thread (id :: state.mutexLocked thread)

/-- The code goes on with a null pointer if the list is empty, and reports a mutex that it does not
find. -/
def Mutex.removeFromLockedList : Except Fault (State threads) :=
  match state.mutexLocked thread with
  | [] => .error .nullPointer
  | first :: rest =>
      if first = id then .ok (state.setMutexLocked thread rest)
      else if id ∈ rest then .ok (state.setMutexLocked thread (first :: rest.erase id))
      else .error .unexpected

/-- One round of the loop of `inheritPriorityFromLockedList`. -/
def Mutex.inheritFrom (state : State threads) (priority : Int) (id : Nat) : Int :=
  match front (state.mutex id).waitQueue config.numPriorities with
  | none => priority
  | some waiter => if priority < state.priority waiter then state.priority waiter else priority

/-- The highest priority among the given one and the first waiters of the mutexes in the list. -/
def Mutex.inheritPriorityFromLockedList (state : State threads)
    (thread : Fin threads) (priority : Int) : Int :=
  (state.mutexLocked thread).foldl (Mutex.inheritFrom config state) priority

/-- A thread that waits on a mutex is taken out of its wait queue, given a priority, and put
back. -/
def Mutex.requeue : State threads :=
  Mutex.PKenqueue ((Mutex.PKremove state id thread).setPriority thread priority) id thread

end

end

end

/-- The loop of `inheritPriorityTowardsMutexOwner`, standing at `walk`. -/
def Mutex.inheritLoop (priority : Int) :
    Nat → Fin threads → State threads → Except Fault (State threads)
  | 0, _, _ => .error .nonTermination
  | fuel + 1, walk, state =>
      if state.priority walk < priority then
        match state.mutexWaiting walk with
        | none => .ok (state.setPriority walk priority)
        | some id =>
            let moved := Mutex.requeue state id walk priority
            match (moved.mutex id).owner with
            | none => .error .nullPointer
            | some owner => Mutex.inheritLoop priority fuel owner moved
      else .ok state

section

variable (state : State threads) (id : Nat)

/-- The bound of the loop is one more than the number of threads. -/
def Mutex.inheritPriorityTowardsMutexOwner (priority : Int) : Except Fault (State threads) :=
  match (state.mutex id).owner with
  | none => .error .nullPointer
  | some owner => Mutex.inheritLoop priority (threads + 1) owner state

section

variable (config : Config)

/-- The owner drops to what it inherits through the mutexes it still has. -/
def Mutex.deInheritPriority (state : State threads) (id : Nat)
    (owner : Fin threads) : Except Fault (State threads) :=
  match Mutex.removeFromLockedList state id owner with
  | .error fault => .error fault
  | .ok state =>
      let priority :=
        if state.mutexLocked owner = [] then state.savedPriority owner
        else Mutex.inheritPriorityFromLockedList config state owner (state.savedPriority owner)
      if priority ≠ state.priority owner then .ok (state.setPriority owner priority)
      else .ok state

/-- The first waiter becomes the owner and is woken up. -/
def Mutex.chooseNextOwner (state : State threads) (id : Nat) : Except Fault (State threads) :=
  match front (state.mutex id).waitQueue config.numPriorities with
  | none => .ok (state.setMutex id { state.mutex id with owner := none })
  | some next =>
      let woken := (state.setMutex id { state.mutex id with
        owner := some next
        waitQueue := dequeue (state.mutex id).waitQueue config.numPriorities }).call
        (.wakeup next)
      if woken.mutexWaiting next ≠ some id then .error .unexpected
      else .ok (Mutex.addToLockedList (woken.setMutexWaiting next none) id next)

/-! ### `Mutex` -/

section

variable (cur : Fin threads) (depth : Nat)

/-- The test of `while(owner!=cur) Thread::PKrestartKernelAndWait(dLock)`: `true` leaves the
loop, `false` ends the section waiting. -/
def Mutex.awaitOwnership : State threads × Bool :=
  if (state.mutex id).owner = some cur then (state, true)
  else (state.call (.restartKernelAndWait cur), false)

/-- The part of `lock` and of `PKlockToDepth` that waits for another owner. -/
def Mutex.waitForOwner : Except Fault (State threads × Bool) :=
  if state.mutexWaiting cur ≠ none then .error .unexpected
  else
    match Mutex.inheritPriorityTowardsMutexOwner (state.setMutexWaiting cur (some id)) id
        (state.priority cur) with
    | .error fault => .error fault
    | .ok state => .ok (Mutex.awaitOwnership (Mutex.PKenqueue state id cur) id cur)

/-- The section up to the first wait. The flag says that the mutex is locked. -/
def Mutex.lock : Except Fault (State threads × Bool) :=
  match (state.mutex id).owner with
  | none =>
      .ok (Mutex.addToLockedList
        (state.setMutex id { state.mutex id with owner := some cur }) id cur, true)
  | some owner =>
      if owner = cur then
        if 0 ≤ (state.mutex id).recursiveDepth then
          .ok (state.setMutex id { state.mutex id with
            recursiveDepth := (state.mutex id).recursiveDepth + 1 }, true)
        else .error .mutexError
      else Mutex.waitForOwner state id cur

/-- The flag says that the mutex is locked. -/
def Mutex.tryLock : State threads × Bool :=
  if (state.mutex id).owner = none then
    (Mutex.addToLockedList (state.setMutex id { state.mutex id with owner := some cur }) id cur,
      true)
  else if (state.mutex id).owner = some cur ∧ 0 ≤ (state.mutex id).recursiveDepth then
    (state.setMutex id { state.mutex id with
      recursiveDepth := (state.mutex id).recursiveDepth + 1 }, true)
  else (state, false)

/-- `deInheritPriority` and `chooseNextOwner`, the two parts of releasing a mutex. -/
def Mutex.release (state : State threads) (id : Nat) : Except Fault (State threads) :=
  match (state.mutex id).owner with
  | none => .error .nullPointer
  | some owner =>
      match Mutex.deInheritPriority config state id owner with
      | .error fault => .error fault
      | .ok state => Mutex.chooseNextOwner config state id

/-- Only the last `unlock` of an owner releases the mutex. -/
def Mutex.unlock (state : State threads) (id : Nat) (cur : Fin threads) :
    Except Fault (State threads) :=
  if config.extraChecks ≠ .none ∧ (state.mutex id).owner ≠ some cur then .error .mutexError
  else if 0 < (state.mutex id).recursiveDepth then
    .ok (state.setMutex id { state.mutex id with
      recursiveDepth := (state.mutex id).recursiveDepth - 1 })
  else Mutex.release config state id

/-- The depth a mutex is given when it is locked to a depth. -/
def depthAfter (current : Int) (depth : Nat) : Int := if 0 ≤ current then depth else current

/-- As `lock`, but a depth is set. -/
def Mutex.PKlockToDepth : Except Fault (State threads × Bool) :=
  match (state.mutex id).owner with
  | none =>
      .ok (Mutex.addToLockedList (state.setMutex id { state.mutex id with
        owner := some cur
        recursiveDepth := depthAfter (state.mutex id).recursiveDepth depth }) id cur, true)
  | some owner =>
      if owner = cur then
        if 0 ≤ (state.mutex id).recursiveDepth then
          .ok (state.setMutex id { state.mutex id with recursiveDepth := depth }, true)
        else .error .mutexError
      else Mutex.waitForOwner state id cur

/-- The end of `PKlockToDepth`, after its loop. -/
def Mutex.setDepth : State threads :=
  state.setMutex id { state.mutex id with
    recursiveDepth := depthAfter (state.mutex id).recursiveDepth depth }

/-- The mutex is released at once. The depth it had is returned. -/
def Mutex.PKunlockAllDepthLevels (state : State threads) (id : Nat)
    (cur : Fin threads) : Except Fault (State threads × Nat) :=
  if config.extraChecks ≠ .none ∧ (state.mutex id).owner ≠ some cur then .error .mutexError
  else
    match Mutex.release config state id with
    | .error fault => .error fault
    | .ok state =>
        if (state.mutex id).recursiveDepth < 0 then .ok (state, 0)
        else .ok (state.setMutex id { state.mutex id with recursiveDepth := 0 },
          (state.mutex id).recursiveDepth.toNat)

/-! ### `FastMutex` -/

/-- `waitQueue.PKenqueue` of a `FastMutex`. -/
def FastMutex.PKenqueue (thread : Fin threads) : State threads :=
  (state.setFastMutex id { state.fastMutex id with
    waitQueue := push (state.fastMutex id).waitQueue (state.savedPriority thread)
      thread }).stamp thread

/-- `owner=waitQueue.PKwakeOne()`. -/
def FastMutex.wakeOne (state : State threads) (id : Nat) : State threads :=
  match front (state.fastMutex id).waitQueue config.numPriorities with
  | none => state.setFastMutex id { state.fastMutex id with owner := none }
  | some next =>
      (state.setFastMutex id { state.fastMutex id with
        owner := some next
        waitQueue := dequeue (state.fastMutex id).waitQueue config.numPriorities }).call
        (.wakeup next)

/-- As `Mutex.awaitOwnership`. -/
def FastMutex.awaitOwnership : State threads × Bool :=
  if (state.fastMutex id).owner = some cur then (state, true)
  else (state.call (.restartKernelAndWait cur), false)

/-- The section up to the first wait. No priority is inherited. -/
def FastMutex.lock : Except Fault (State threads × Bool) :=
  match (state.fastMutex id).owner with
  | none => .ok (state.setFastMutex id { state.fastMutex id with owner := some cur }, true)
  | some owner =>
      if owner = cur then
        if 0 ≤ (state.fastMutex id).recursiveDepth then
          .ok (state.setFastMutex id { state.fastMutex id with
            recursiveDepth := (state.fastMutex id).recursiveDepth + 1 }, true)
        else .error .mutexError
      else .ok (FastMutex.awaitOwnership (FastMutex.PKenqueue state id cur) id cur)

/-- As `Mutex.tryLock`, without the list. -/
def FastMutex.tryLock : State threads × Bool :=
  if (state.fastMutex id).owner = none then
    (state.setFastMutex id { state.fastMutex id with owner := some cur }, true)
  else if (state.fastMutex id).owner = some cur ∧ 0 ≤ (state.fastMutex id).recursiveDepth then
    (state.setFastMutex id { state.fastMutex id with
      recursiveDepth := (state.fastMutex id).recursiveDepth + 1 }, true)
  else (state, false)

/-- Only the last `unlock` of an owner wakes the next one. -/
def FastMutex.unlock (state : State threads) (id : Nat) (cur : Fin threads) :
    Except Fault (State threads) :=
  if config.extraChecks ≠ .none ∧ (state.fastMutex id).owner ≠ some cur then .error .mutexError
  else if 0 < (state.fastMutex id).recursiveDepth then
    .ok (state.setFastMutex id { state.fastMutex id with
      recursiveDepth := (state.fastMutex id).recursiveDepth - 1 })
  else .ok (FastMutex.wakeOne config state id)

/-- As `lock`, but a depth is set. -/
def FastMutex.PKlockToDepth : Except Fault (State threads × Bool) :=
  match (state.fastMutex id).owner with
  | none =>
      .ok (state.setFastMutex id { state.fastMutex id with
        owner := some cur
        recursiveDepth := depthAfter (state.fastMutex id).recursiveDepth depth }, true)
  | some owner =>
      if owner = cur then
        if 0 ≤ (state.fastMutex id).recursiveDepth then
          .ok (state.setFastMutex id { state.fastMutex id with recursiveDepth := depth }, true)
        else .error .mutexError
      else .ok (FastMutex.awaitOwnership (FastMutex.PKenqueue state id cur) id cur)

/-- The end of `PKlockToDepth`, after its loop. -/
def FastMutex.setDepth : State threads :=
  state.setFastMutex id { state.fastMutex id with
    recursiveDepth := depthAfter (state.fastMutex id).recursiveDepth depth }

end

/-- The mutex is released at once. The depth it had is returned. -/
def FastMutex.PKunlockAllDepthLevels (state : State threads) (id : Nat)
    (cur : Fin threads) : Except Fault (State threads × Nat) :=
  if config.extraChecks ≠ .none ∧ (state.fastMutex id).owner ≠ some cur then .error .mutexError
  else
    let state := FastMutex.wakeOne config state id
    if (state.fastMutex id).recursiveDepth < 0 then .ok (state, 0)
    else .ok (state.setFastMutex id { state.fastMutex id with recursiveDepth := 0 },
      (state.fastMutex id).recursiveDepth.toNat)

/-! ### `ConditionVariable` -/

/-- `waitQueue.PKenqueue`, on the level of the saved priority. -/
def ConditionVariable.PKenqueue (thread : Fin threads) : State threads :=
  (state.setCondition id
    (push (state.condition id) (state.savedPriority thread) thread)).stamp thread

/-- `waitQueue.PKremove`, on the level of the saved priority. -/
def ConditionVariable.PKremove (thread : Fin threads) : State threads :=
  state.setCondition id
    (remove (state.condition id) (state.savedPriority thread) thread)

/-- The first waiter is woken up, if there is one. -/
def ConditionVariable.signal (state : State threads) (id : Nat) : State threads :=
  match front (state.condition id) config.numPriorities with
  | none => state
  | some woken =>
      (state.setCondition id (dequeue (state.condition id) config.numPriorities)).call
        (.wakeup woken)

/-- `dequeueAll` empties the lists of the levels below `NUM_PRIORITIES`, from the highest down. -/
def ConditionVariable.broadcast (state : State threads) (id : Nat) : State threads :=
  { state with
    condition := update state.condition id fun level =>
      if 0 ≤ level ∧ level < config.numPriorities then [] else state.condition id level
    calls := state.calls ++
      (listing (state.condition id) config.numPriorities).map .wakeup }

end

/-! ### `Thread::setPriority` -/

/-- The end of `setPriority`, once the priority to apply is known. -/
def applyPriority (cur : Fin threads) (priority : Int) : State threads :=
  if priority = state.priority cur then state
  else
    let saved :=
      if state.mutexLocked cur = [] then update state.savedPriority cur priority
      else state.savedPriority
    { state with
      savedPriority := saved
      priority := update state.priority cur priority }.call
      (.setOwnPriority cur priority (decide (priority < state.priority cur)))

end

/-- A thread that has locked a `Mutex` keeps what it inherits. -/
def setPriority (config : Config) (state : State threads) (cur : Fin threads) (priority : Int) :
    State threads :=
  if validate config priority = false then state
  else if state.mutexLocked cur ≠ [] then
    if state.savedPriority cur = priority then state
    else
      let saved := { state with
        savedPriority := update state.savedPriority cur priority }
      applyPriority saved cur
        (Mutex.inheritPriorityFromLockedList config saved cur priority)
  else applyPriority state cur priority

end Miosix.Sync
