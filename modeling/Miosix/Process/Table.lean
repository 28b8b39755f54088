/-
This file embeds the process table of `kernel/process.cpp`: `Process::create`, `Process::waitpid`
and the end of `Process::start`, as a machine whose steps are the sections in which `procMutex` is
held. Every process may have several threads that call `create` and `waitpid` at the same time. In
the code only the kernel has more than one, and a process ends in its only thread, so a process does
not end while a thread of it is in a call. A thread that waits goes on after a broadcast of the
condition variable it is in.

`create` reads the pid of the new process when its thread has been started, without the mutex. There
may be no memory for the entry of a new process in the table, or of one that ends in the list of
zombies. A `create` that fails earlier changes nothing here but the counter of pids, and is left
out.

A process is an object that is allocated by `create` and deleted when `waitpid` returns it, or when
its thread could not be created. Objects are numbered in the order of their allocation, so that an
access to a deleted object, which is the flag `fault`, can be told from one to an object at the same
address. The calls of `errorHandler` set the same flag. `returned` and `freed` count how often an
object was returned and deleted, which the code does not.
-/

import Miosix.Lib.Errno

namespace Miosix.ProcessTable

open Function

/-! ### State -/

abbrev Object := Nat

/-- The kernel is a process as well. -/
def kernel : Object := 0

/-- Where a thread is in the calls of this file, when the mutex is not locked by it. -/
inductive Activity where
  | outside
  | creating (proc : Object)
  /-- The process was started, and its pid is read next. -/
  | announcing (proc : Object)
  | waitingForAny (woken : Bool)
  | waitingFor (joined : Object) (woken : Bool)
  deriving DecidableEq, Repr

structure State (threads : Nat) where
  allocated : Object → Bool
  pid : Object → Int
  ppid : Object → Int
  childs : Object → List Object
  zombies : Object → List Object
  zombie : Object → Bool
  waitCount : Object → Int
  started : Object → Bool
  processes : Int → Option Object
  pidCounter : Int
  activity : Object → Fin threads → Activity
  objects : Nat
  returned : Object → Nat
  freed : Object → Nat
  fault : Bool

variable {threads : Nat}

/-- Only the kernel is there. -/
def State.initial (threads : Nat) : State threads where
  allocated object := object == kernel
  pid _ := 0
  ppid _ := 0
  childs _ := []
  zombies _ := []
  zombie _ := false
  waitCount _ := 0
  started object := object == kernel
  processes pid := if pid = 0 then some kernel else none
  pidCounter := 1
  activity _ _ := .outside
  objects := 1
  returned _ := 0
  freed _ := 0
  fault := false

section

variable (state : State threads) (self : Object)

section

variable (parent : Object) (thread : Fin threads) (pid : Int)

def State.setActivity (activity : Activity) : State threads :=
  { state with
    activity := fun object other =>
      if object = self ∧ other = thread then activity else state.activity object other }

/-! ### Creation -/

/-- `pidCounter++`. -/
def increment (counter : Int) : Int := if counter = 2 ^ 31 - 1 then -2 ^ 31 else counter + 1

/-- The loop of `getNewPid`, with the new value of the counter. -/
def getNewPid (processes : Int → Option Object) : Nat → Int → Option (Int × Int)
  | 0, _ => none
  | fuel + 1, pidCounter =>
      let pidCounter := if pidCounter ≤ 0 then 1 else pidCounter
      match processes pidCounter with
      | some _ => getNewPid processes fuel (increment pidCounter)
      | none => some (pidCounter, increment pidCounter)

/-- The first section of `create`. -/
def State.insert (pidCounter : Int) : State threads :=
  let proc := state.objects
  { state with
    allocated := update state.allocated proc true
    pid := update state.pid proc pid
    ppid := update state.ppid proc (state.pid parent)
    childs := update
      (update state.childs proc []) parent (state.childs parent ++ [proc])
    zombies := update state.zombies proc []
    zombie := update state.zombie proc false
    waitCount := update state.waitCount proc 0
    started := update state.started proc false
    processes := update state.processes pid (some proc)
    pidCounter := pidCounter
    objects := state.objects + 1 }.setActivity parent thread (.creating proc)

/-- The first section of `create` when there is no memory for the entry in the table: the process is
deleted, and stays in the list of its parent. -/
def State.insertFails (pidCounter : Int) : State threads :=
  { state with
    childs := update state.childs parent (state.childs parent ++ [state.objects])
    pidCounter := pidCounter
    objects := state.objects + 1
    freed := update state.freed state.objects 1 }

/-- The thread of the process is started. -/
def State.start (proc : Object) : State threads :=
  { state with started := update state.started proc true }.setActivity
    parent thread (.announcing proc)

/-- The pid is read, to be returned. -/
def State.announce (proc : Object) : State threads :=
  { state with fault := state.fault || !state.allocated proc }.setActivity parent thread .outside

/-- The section of `create` when there is no memory for the thread, and the deletion. -/
def State.abandon (proc : Object) : State threads :=
  { state with
    processes := update state.processes (state.pid proc) none
    childs := update state.childs parent ((state.childs parent).filter (· ≠ proc))
    allocated := update state.allocated proc false
    freed := update state.freed proc (state.freed proc + 1)
    fault := state.fault || !state.allocated proc }.setActivity parent thread .outside

/-! ### Waiting -/

/-- What a section of `waitpid` ends with. -/
inductive Answer where
  | returns (result : Int)
  | collects (joined : Object)
  | blocks
  deriving DecidableEq, Repr

/-- The loop for any child. -/
def State.anyChild : Answer :=
  match state.zombies self with
  | joined :: _ => .collects joined
  | [] => if state.childs self = [] then .returns (-ECHILD) else .blocks

/-- The loop for one child, and the test of the reference count behind it. -/
def State.oneChild (joined : Object) (nohang : Bool) : Answer :=
  if state.zombie joined = false then if nohang then .returns 0 else .blocks
  else if 0 < state.waitCount joined then .returns (-ECHILD)
  else .collects joined

/-- The first section of `waitpid`, with the child if there is a certain one to wait for. -/
def State.request (nohang : Bool) : Option Object × Answer :=
  if pid ≤ 0 then
    (none, if state.zombies self = [] ∧ nohang then .returns 0 else state.anyChild self)
  else
    match state.processes pid with
    | none => (none, .returns (-ECHILD))
    | some joined =>
        if state.ppid joined ≠ state.pid self ∨ pid = state.pid self then
          (none, .returns (-ECHILD))
        else (some joined, state.oneChild joined nohang)

/-- The end of `waitpid`. -/
def State.collect (self joined : Object) : State threads :=
  { state with
    zombies := update state.zombies self ((state.zombies self).filter (· ≠ joined))
    processes := update state.processes (state.pid joined) none
    allocated := update state.allocated joined false
    returned := update state.returned joined (state.returned joined + 1)
    freed := update state.freed joined (state.freed joined + 1)
    fault := state.fault || !state.allocated joined }

/-- The rest of a section of `waitpid`. -/
def State.conclude (target : Option Object) : Answer → State threads
  | .returns _ => state.setActivity self thread .outside
  | .collects joined =>
      { state.collect self joined with
        fault := (state.collect self joined).fault || (target == none &&
          state.waitCount joined != 0) }.setActivity self thread .outside
  | .blocks =>
      match target with
      | none => state.setActivity self thread (.waitingForAny false)
      | some joined =>
          { state with
            waitCount := update state.waitCount joined
              (state.waitCount joined + 1) }.setActivity self thread (.waitingFor joined false)

end

/-- The return from the wait on a child. -/
def State.leave (joined : Object) : State threads :=
  { state with
    waitCount := update state.waitCount joined (state.waitCount joined - 1)
    fault := state.fault || !state.allocated joined || decide (state.waitCount joined < 1) }

/-! ### Termination -/

/-- The effect of the two broadcasts on a thread. -/
def Activity.wake (proc : Object) (waited : Bool) : Activity → Activity
  | .waitingForAny _ => .waitingForAny true
  | .waitingFor joined woken => .waitingFor joined (woken || (joined == proc && waited))
  | activity => activity

/-- The children of a process become those of the kernel. -/
def State.orphan (proc : Object) : State threads :=
  { state with
    ppid := fun object =>
      if object ∈ state.childs proc ∨ object ∈ state.zombies proc then 0 else state.ppid object
    childs := update
      (update state.childs kernel (state.childs proc ++ state.childs kernel)) proc []
    zombies := update
      (update state.zombies kernel (state.zombies proc ++ state.zombies kernel)) proc []
    fault := state.fault || !(state.childs proc ++ state.zombies proc).all state.allocated }

/-- The process leaves the list of living children of its parent. -/
def State.terminate (parent proc : Object) : State threads :=
  { state with
    childs := update state.childs parent ((state.childs parent).filter (· ≠ proc))
    zombies :=
      if 0 < state.waitCount proc then state.zombies
      else update state.zombies parent (state.zombies parent ++ [proc])
    activity := fun object thread =>
      (state.activity object thread).wake proc (0 < state.waitCount proc) }

/-- The section at the end of `start`. An exception ends it when there is no memory for the entry in
the list of zombies. -/
def State.exit (proc : Object) (memory : Bool) : State threads :=
  let state := { state with zombie := update state.zombie proc true }.orphan proc
  match state.processes (state.ppid proc) with
  | none => { state with fault := true }
  | some parent =>
      if memory = true ∨ 0 < state.waitCount proc then state.terminate parent proc
      else { state with childs := (state.terminate parent proc).childs }

/-! ### Steps -/

inductive Label (threads : Nat) where
  | create (self : Object) (thread : Fin threads)
  | insertionFails (self : Object) (thread : Fin threads)
  | created (self : Object) (thread : Fin threads)
  | announced (self : Object) (thread : Fin threads)
  | creationFails (self : Object) (thread : Fin threads)
  | waitpid (self : Object) (thread : Fin threads) (pid : Int) (nohang : Bool)
  | resume (self : Object) (thread : Fin threads)
  | exit (proc : Object) (memory : Bool)

/-- A process whose threads run. -/
def State.Running : Prop :=
  state.allocated self = true ∧ state.started self = true ∧ state.zombie self = false
  deriving Decidable

/-- A thread that is about to make a call. -/
def State.MayCall (thread : Fin threads) : Prop :=
  state.Running self ∧ state.activity self thread = .outside
  deriving Decidable

/-- The next section of a thread that was woken. -/
def State.resume (thread : Fin threads) : Activity → Option (State threads)
  | .waitingForAny true => some (state.conclude self thread none (state.anyChild self))
  | .waitingFor joined true =>
      some ((state.leave joined).conclude self thread (some joined)
        ((state.leave joined).oneChild joined false))
  | _ => none

end

/-- What the creating thread does next. -/
def State.creation (next : Object → State threads) : Activity → Option (State threads)
  | .creating proc => some (next proc)
  | _ => none

def exec (state : State threads) : Label threads → Option (State threads)
  | .create self thread =>
      if state.MayCall self thread then
        (getNewPid state.processes (2 ^ 32) state.pidCounter).map fun found =>
          state.insert self thread found.1 found.2
      else none
  | .insertionFails self thread =>
      if state.MayCall self thread then
        (getNewPid state.processes (2 ^ 32) state.pidCounter).map fun found =>
          state.insertFails self found.2
      else none
  | .created self thread =>
      State.creation (state.start self thread) (state.activity self thread)
  | .announced self thread =>
      match state.activity self thread with
      | .announcing proc => some (state.announce self thread proc)
      | _ => none
  | .creationFails self thread =>
      State.creation (state.abandon self thread) (state.activity self thread)
  | .waitpid self thread pid nohang =>
      if state.MayCall self thread then
        some (state.conclude self thread (state.request self pid nohang).1
          (state.request self pid nohang).2)
      else none
  | .resume self thread => state.resume self thread (state.activity self thread)
  | .exit proc memory =>
      if state.Running proc ∧ proc ≠ kernel ∧
          ∀ thread, state.activity proc thread = .outside then
        some (state.exit proc memory)
      else none

end Miosix.ProcessTable
