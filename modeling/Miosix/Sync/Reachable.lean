/-
This file lifts the invariant of the sections to every reachable state of the machine, and
reads priority inheritance off it.

Priority inheritance is stated in its own terms (`PriorityInheritance`): the priority of a
thread is the maximum of a set, a locked mutex is in one locked list, and a waiting thread
is in one place of one queue. Nothing in the statement excludes cycles of waiting threads,
and the run at the end makes one.
-/

import Miosix.Sync.Sections

namespace Miosix.Sync

open Transition Function LevelQueue
open SleepingList (contains)

variable {threads : Nat}

/-! ### Steps -/

/-- What a step of the machine does. -/
inductive Steps (config : Config) (machine : Machine threads) :
    Label threads → Machine threads → Prop where
  | call (thread : Fin threads) (call : Call) (after : State threads) (outcome : Outcome)
      (outside : machine.pc thread = .outside)
      (enters : Enters config machine.sync.clearCalls machine.pc thread call after
        outcome) :
      Steps config machine (.call thread call)
        { sync := after
          pc := update machine.pc thread outcome.pc
          answer := update machine.answer thread outcome.answer
          sleepingList := sleepAfter machine.sleepingList thread call }
  | resume (thread : Fin threads) (after : State threads) (outcome : Outcome)
      (inside : machine.pc thread ≠ .outside)
      (resumes : Resumes config machine.sync.clearCalls machine.pc thread
        (contains machine.sleepingList thread) after outcome) :
      Steps config machine (.resume thread)
        { sync := after
          pc := update machine.pc thread outcome.pc
          answer := update machine.answer thread outcome.answer
          sleepingList := SleepingList.remove machine.sleepingList thread }
  | timer (now : Int) :
      Steps config machine (.timer now)
        { machine with sleepingList := SleepingList.wakeThreads machine.sleepingList now }

/-- The invariant of the machine: the primitives are consistent, and only threads in a
timed wait have a token in the sleeping list. -/
structure Machine.Sound (config : Config) (machine : Machine threads) : Prop where
  consistent : Consistent config machine.sync machine.pc
  sleeping : SleepingList.Sound machine.sleepingList
  asleep : ∀ thread, contains machine.sleepingList thread = true →
    ∃ condition target depth, machine.pc thread = .waiting condition target depth true

variable {config : Config} {machine after : Machine threads} {label : Label threads}
  {state : State threads} {thread : Fin threads} {call : Call}

theorem permitted_clearCalls :
    permitted config state.clearCalls thread call = permitted config state thread call := by
  have same (target : Lockable) : state.clearCalls.lockable target = state.lockable target := by
    cases target with
    | mutex | fastMutex => rfl
  cases call <;> simp only [permitted, same]

theorem Consistent.clearCalls {pc : Fin threads → Pc}
    (consistent : Consistent config state pc) : Consistent config state.clearCalls pc :=
  consistent.withCalls []

theorem exec_steps (sound : machine.Sound config)
    (stepped : exec config machine label = some after) :
    Steps config machine label after := by
  have consistent := sound.consistent.clearCalls
  cases label with
  | call thread call =>
    simp only [exec] at stepped
    split at stepped
    · rename_i enabled
      have spec := enter_spec consistent enabled.1 (permitted_clearCalls.trans enabled.2)
      split at stepped
      · cases stepped
      · rename_i sync outcome result
        rw [result] at spec
        rw [← Option.some_inj.mp stepped]
        exact .call thread call sync outcome enabled.1 spec
    · cases stepped
  | resume thread =>
    simp only [exec] at stepped
    by_cases outside : machine.pc thread = .outside
    · rw [outside] at stepped
      cases stepped
    · obtain ⟨sync, outcome, result, spec⟩ := resume_spec consistent outside
      rw [result] at stepped
      rw [← Option.some_inj.mp stepped]
      exact .resume thread sync outcome outside spec
  | timer now =>
    rw [← Option.some_inj.mp stepped]
    exact .timer now

theorem asleep_sleepAfter {tokens : List (SleepToken threads)} {other : Fin threads}
    (present : contains (sleepAfter tokens thread call) other = true) :
    contains tokens other = true ∨
      (other = thread ∧
        ∃ condition target absTime, call = .timedWait condition target absTime) := by
  cases call with
  | timedWait condition target absTime =>
    rcases (SleepingList.contains_enqueue tokens).mp present with
      same | before
    · exact Or.inr ⟨same, condition, target, absTime, rfl⟩
    · exact Or.inl before
  | _ => exact Or.inl present

theorem Steps.sound (sound : machine.Sound config) (steps : Steps config machine label after) :
    after.Sound config := by
  have consistent := sound.consistent.clearCalls
  cases steps with
  | call thread call sync outcome outside enters =>
    have awake : contains machine.sleepingList thread = false := by
      rw [← Bool.not_eq_true]
      intro present
      obtain ⟨condition, target, depth, waiting⟩ := sound.asleep thread present
      rw [outside] at waiting
      cases waiting
    refine ⟨enters.consistent consistent outside, ?_, fun other present => ?_⟩
    · cases call with
      | timedWait condition target absTime => exact sound.sleeping.enqueue awake absTime
      | _ => exact sound.sleeping
    · show ∃ condition target depth, update machine.pc thread outcome.pc other = _
      rcases asleep_sleepAfter present with before | ⟨rfl, condition, target, absTime, rfl⟩
      · have different : other ≠ thread := fun same => by
          rw [same, awake] at before
          cases before
        rw [update_of_ne different]
        exact sound.asleep other before
      · rw [update_self]
        cases enters with
        | wait _ waitedOn waitedWith timed between waits owns releases =>
          obtain ⟨rfl, rfl, rfl⟩ := waits
          exact ⟨_, _, _, rfl⟩
  | resume thread sync outcome inside resumes =>
    refine ⟨resumes.consistent consistent, sound.sleeping.remove thread, fun other present => ?_⟩
    show ∃ condition target depth, update machine.pc thread outcome.pc other = _
    have different : other ≠ thread := fun same => by
      rw [same, sound.sleeping.contains_remove_self thread] at present
      cases present
    rw [update_of_ne different]
    rw [SleepingList.contains_remove_of_ne different] at present
    exact sound.asleep other present
  | timer now =>
    refine ⟨sound.consistent, sound.sleeping.wakeThreads now, fun other present => ?_⟩
    exact sound.asleep other (SleepingList.contains_of_sublist TimeQueue.pending_sublist present)

/-! ### Reachable states -/

section

variable (priority : Fin threads → Fin config.numPriorities) (recursive : Lockable → Bool)

theorem Machine.initial_coherent :
    Coherent config (Machine.initial config priority recursive).sync where
  priorityValid thread := ⟨Int.natCast_nonneg _, Int.ofNat_lt.mpr (priority thread).isLt⟩
  savedValid thread := ⟨Int.natCast_nonneg _, Int.ofNat_lt.mpr (priority thread).isLt⟩
  savedLe _ := le_rfl
  lockedIff _ _ := ⟨nofun, nofun⟩
  lockedNodup _ := List.nodup_nil
  ownedByOther _ _ waits := (by cases waits)
  stamped _ := Nat.zero_lt_one
  ordered _ := Ordered.empty _
  queued _ := Keyed.empty nofun _
  inherits _ _ _ waits := (by cases waits)
  attained _ := Or.inl rfl

theorem Machine.initial_sound : (Machine.initial config priority recursive).Sound config where
  consistent :=
    { coherent := Machine.initial_coherent priority recursive
      waits := fun _ _ => ⟨nofun, fun both => (by cases both.1)⟩
      fastMutexes :=
        { queued := fun _ => Keyed.empty (fun _ both => (by cases both.1)) _
          owned := nofun
          ordered := fun _ => Ordered.empty _ }
      conditions :=
        { queued := fun _ => Keyed.empty (fun _ => List.not_mem_nil) _
          waiting := nofun
          ordered := fun _ => Ordered.empty _ }
      released := nofun }
  sleeping := SleepingList.Sound.empty
  asleep _ present := (by cases present)

end

/-- Every reachable state is sound. -/
theorem reachable_sound {priority : Fin threads → Fin config.numPriorities}
    {recursive : Lockable → Bool} {allowed : Machine threads → Label threads → Prop}
    {labels : List (Label threads)}
    (run : Run (exec config) allowed (Machine.initial config priority recursive) labels machine) :
    machine.Sound config :=
  run.invariant (fun machine => machine.Sound config)
    (fun _ _ _ sound _ stepped => (exec_steps sound stepped).sound sound)
    (Machine.initial_sound priority recursive)

/-! ### Priority inheritance -/

/-- The priorities of the threads that wait on a mutex of the thread. -/
def inheritable (state : State threads) (thread : Fin threads) : Set Int :=
  { priority | ∃ waiter id, (state.mutex id).owner = some thread ∧
    state.mutexWaiting waiter = some id ∧ state.priority waiter = priority }

/-- What priority inheritance is to provide. -/
structure PriorityInheritance (state : State threads) : Prop where
  priority : ∀ thread, IsGreatest
    (insert (state.savedPriority thread) (inheritable state thread)) (state.priority thread)
  locked : ∀ id owner, (state.mutex id).owner = some owner → ∀ thread,
    (state.mutexLocked thread).count id = if thread = owner then 1 else 0
  waiting : ∀ thread id, state.mutexWaiting thread = some id → ∀ level,
    ((state.mutex id).waitQueue level).count thread = if level = state.priority thread then 1 else 0

theorem Coherent.priorityInheritance (coherent : Coherent config state) :
    PriorityInheritance state where
  priority thread := by
    constructor
    · rcases coherent.attained thread with same | ⟨waiter, id, waits, owns, equal⟩
      · exact Set.mem_insert_iff.mpr (Or.inl same)
      · exact Set.mem_insert_of_mem _ ⟨waiter, id, owns, waits, equal⟩
    · rintro priority (same | ⟨waiter, id, owns, waits, equal⟩)
      · rw [same]
        exact coherent.savedLe thread
      · rw [← equal]
        exact coherent.inherits thread waiter id waits owns
  locked id owner owns thread := by
    by_cases same : thread = owner
    · subst same
      rw [if_pos rfl]
      exact List.count_eq_one_of_mem (coherent.lockedNodup thread)
        ((coherent.lockedIff thread id).mpr owns)
    · rw [if_neg same]
      refine List.count_eq_zero_of_not_mem fun listed => same ?_
      rw [coherent.lockedIff, owns, Option.some_inj] at listed
      exact listed.symm
  waiting thread id waits level := by
    obtain ⟨once, nowhereElse⟩ := (coherent.queued id).count_eq_one waits
    by_cases same : level = state.priority thread
    · rw [if_pos same, same]
      exact once
    · rw [if_neg same]
      exact nowhereElse level same

/-- In every reachable state, whatever the threads lock, release, wait for or set, priority
inheritance holds, and no section that may come next runs into an internal error or fails to
end: the only error is the one reported for misusing a mutex. -/
theorem priority_inheritance (config : Config) (priority : Fin threads → Fin config.numPriorities)
    (recursive : Lockable → Bool) (labels : List (Label threads)) (machine : Machine threads)
    (run : Run (exec config) unrestricted (Machine.initial config priority recursive) labels
      machine) :
    PriorityInheritance machine.sync ∧ (∀ thread call fault, machine.pc thread = .outside →
        permitted config machine.sync thread call = true →
        enter config machine.sync thread call = .error fault → fault = .mutexError) ∧
      ∀ thread removed, machine.pc thread ≠ .outside →
        ∃ result, resume machine.sync thread (machine.pc thread) removed = .ok result := by
  have sound := reachable_sound run
  refine ⟨sound.consistent.coherent.priorityInheritance, ?_, ?_⟩
  · intro thread call fault outside allowed failed
    have spec := enter_spec sound.consistent outside allowed
    rw [failed] at spec
    exact spec
  · intro thread removed inside
    obtain ⟨after, outcome, result, -⟩ := resume_spec sound.consistent inside
    exact ⟨_, result⟩

/-- Three threads lock a mutex each and then wait for each other's in a cycle. -/
def deadlock (first second third : Fin threads) : List (Label threads) :=
  [.call first (.lock (.mutex 0)), .call second (.lock (.mutex 1)),
    .call third (.lock (.mutex 2)), .call first (.lock (.mutex 1)),
    .call second (.lock (.mutex 2)), .call third (.lock (.mutex 0))]

theorem priority_inheritance_deadlock : ∃ machine, Run (exec defaultConfig) unrestricted
        (Machine.initial defaultConfig Fin.castSucc fun _ => false) (deadlock 0 1 2) machine ∧
      (∀ thread, machine.pc thread ≠ .outside ∧ machine.sync.priority thread = 2) ∧
      PriorityInheritance machine.sync :=
  exists_run (fun machine => ∀ thread,
      machine.pc thread ≠ .outside ∧ machine.sync.priority thread = 2) (by decide)
    fun _ run waits => ⟨run, waits, (priority_inheritance _ _ _ _ _ run).1⟩

end Miosix.Sync
