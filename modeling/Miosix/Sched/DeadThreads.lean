/-
This file has the reclaiming of dead threads for the priority and the EDF scheduler.

Both keep the list of the threads that are not ready in the same way, so each of them moves the
threads as a call of `removeDeadThreads` needs it. For the EDF scheduler this depends on its two
ready queues, which are right as long as no ready thread is switched between the default
priority and a deadline.
-/

import Miosix.Sched.Affinity
import Miosix.Sched.EdfQueues
import Miosix.Sched.Reclaim

namespace Miosix.Reclaim

open Transition Function

variable {threads cores callers : Nat} {before : Cores threads cores}
  {state : EDFScheduler.State threads cores} {extraChecks : ExtraChecks} {support : CoreSupport}
  {idle : Fin cores → Fin threads} {thread : Fin threads} {unblocking : Unblocking}
  {config : Config} {core : Fin cores}

/-! ### The two schedulers -/

section

variable (config : Config) (extraChecks : ExtraChecks) (support : CoreSupport)
  (idle : Fin cores → Fin threads)

def priorityScheduler : BasicScheduler threads cores where
  State := PriorityScheduler.State threads cores
  exec := PriorityScheduler.exec config extraChecks support
  initial := PriorityScheduler.State.initial idle
  toCores := PriorityScheduler.State.toCores
  withCores := fun state next => { state with toCores := next }
  queued := PriorityScheduler.State.Queued
  steady := fun _ _ => true

def edfScheduler : BasicScheduler threads cores where
  State := EDFScheduler.State threads cores
  exec := EDFScheduler.exec extraChecks support
  initial := EDFScheduler.State.initial idle
  toCores := EDFScheduler.State.toCores
  withCores := fun state next => { state with toCores := next }
  queued := EDFScheduler.State.Queued
  steady := fun state label => decide (EDFScheduler.Steady state label)

end

/-- The scheduler the kernel is compiled with. -/
inductive SchedulerType where
  | priority (config : Config)
  | edf

def SchedulerType.scheduler (extraChecks : ExtraChecks) (support : CoreSupport)
    (idle : Fin cores → Fin threads) : SchedulerType → BasicScheduler threads cores
  | .priority config => priorityScheduler config extraChecks support idle
  | .edf => edfScheduler extraChecks support idle

theorem isDeleted_cleared (state : Cores threads cores) (thread : Fin threads)
    (unblocking : Unblocking) (other : Fin threads) : (state.flags other).isDeleted = true →
      (update state.flags thread ((state.flags thread).unset unblocking) other).isDeleted = true :=
  isDeleted_update (fun deleted => isDeleted_unset deleted unblocking) other

/-! ### The steps of the priority scheduler -/

theorem priority_invoke
    {state : PriorityScheduler.State threads cores} (same : Unmoved before state.toCores)
    (found : Option (Fin cores)) : Unmoved before (state.invoke found).toCores := by
  cases found with
  | none => exact same
  | some core => exact { same with }

section

variable (config : Config) (state : PriorityScheduler.State threads cores) (core : Fin cores)

theorem priority_dequeue : Unmoved state.toCores (state.dequeue config core).toCores := by
  unfold PriorityScheduler.State.dequeue
  split <;> exact ⟨rfl, rfl, rfl, rfl⟩

theorem priority_reschedule
    {scheduled : PriorityScheduler.State threads cores} (same : Unmoved before scheduled.toCores)
    {state : PriorityScheduler.State threads cores} {core : Fin cores} :
    Unmoved before (state.reschedule config core scheduled).toCores := by
  simp only [PriorityScheduler.State.reschedule]
  split
  · exact same
  split
  · exact priority_invoke same (some _)
  · exact same

theorem priority_dequeueWithAffinity :
    Unmoved state.toCores (state.dequeueWithAffinity config core).toCores := by
  simp only [PriorityScheduler.State.dequeueWithAffinity]
  split
  · split
    · refine priority_invoke ?_ _
      exact ⟨rfl, rfl, rfl, rfl⟩
    · exact ⟨rfl, rfl, rfl, rfl⟩
  · refine priority_invoke ?_ _
    exact ⟨rfl, rfl, rfl, rfl⟩

theorem priority_requeue : Requeued core state.toCores (state.requeue core).toCores := by
  simp only [PriorityScheduler.State.requeue]
  split
  · exact .inl rfl
  split
  · rename_i zombie
    exact .inr (.inl ⟨zombie, rfl⟩)
  rename_i alive
  split
  · exact .inr (.inr ⟨by simpa using alive, rfl⟩)
  · exact .inl rfl

theorem priority_runScheduler {state : PriorityScheduler.State threads cores} {core : Fin cores} :
    Moves none (some core) state.toCores
      (PriorityScheduler.IRQrunScheduler config support state core).toCores := by
  simp only [PriorityScheduler.IRQrunScheduler]
  split
  · exact .of_flags rfl rfl (fun _ => id) (List.Sublist.refl _)
  · refine .of_run (priority_requeue { state with
      requested := update state.requested core false } core) ?_
    cases support with
    | single => exact priority_dequeue config _ core
    | smp => exact priority_reschedule config (priority_dequeue config _ core)
    | smpWithAffinity => exact priority_dequeueWithAffinity config _ core

theorem priority_unblock : Moves none none state.toCores
      (PriorityScheduler.IRQclear state thread unblocking).toCores := by
  have deleted := isDeleted_cleared state.toCores thread unblocking
  simp only [PriorityScheduler.IRQclear, PriorityScheduler.IRQwokenThread]
  split
  · split
    · exact .of_flags rfl rfl deleted (List.Sublist.refl _)
    · exact .of_flags rfl rfl deleted List.erase_sublist
  · exact .of_flags rfl rfl deleted (List.Sublist.refl _)

end

theorem priority_moves {state next : PriorityScheduler.State threads cores}
    {label : Cores.Label threads cores} (keeps : label.removes = false)
    (stepped : PriorityScheduler.exec config extraChecks support state label = some next) :
    Moves label.added label.runs state.toCores next.toCores := by
  cases label with
  | add thread priority affinity waiting =>
    obtain ⟨⟨unallocated, notIdle, -⟩, rfl⟩ := of_guard stepped
    refine .of_create affinity waiting notIdle ?_
    simp only [PriorityScheduler.State.addNew, PriorityScheduler.IRQaddThread]
    split
    · exact .inr rfl
    · exact .inl rfl
  | setPriority thread newPriority =>
    obtain ⟨-, rfl⟩ := of_guard stepped
    simp only [PriorityScheduler.IRQsetPriority]
    split_ifs <;> exact .of_flags rfl rfl (fun _ => id) (List.Sublist.refl _)
  | unblock thread unblocking =>
    obtain ⟨-, rfl⟩ := of_guard stepped
    exact priority_unblock state
  | runScheduler core =>
    obtain ⟨⟩ := stepped
    exact priority_runScheduler config
  | block | detach | pauseKernel | restartKernel | removeDeadThread =>
    obtain ⟨shared, taken, rfl⟩ := Option.map_eq_some_iff.mp stepped
    exact .of_exec keeps taken

theorem priority_lawful :
    Lawful (priorityScheduler config extraChecks support idle)
      (PriorityScheduler.Sound config) where
  initial := PriorityScheduler.initial_sound idle
  unallocated := fun _ => rfl
  slots := fun _ sound => sound.cores
  step := fun _ _ _ sound keeps _ stepped => ⟨sound.step stepped, priority_moves keeps stepped⟩
  removed := fun _ _ sound taken => ⟨sound.stepCores .removeDeadThread taken, rfl⟩

/-! ### The steps of the EDF scheduler -/

theorem edf_invoke (same : Unmoved before state.toCores) {found : Option (Fin cores)} :
    Unmoved before (state.invoke found).toCores := by
  cases found with
  | none => exact same
  | some core => exact { same with }

theorem edf_dequeue (state : EDFScheduler.State threads cores) :
    Unmoved state.toCores (state.dequeue core).toCores := by
  unfold EDFScheduler.State.dequeue
  repeat' split
  all_goals exact ⟨rfl, rfl, rfl, rfl⟩

theorem edf_reschedule
    (same : Unmoved before state.toCores) : Unmoved before state.reschedule.toCores := by
  simp only [EDFScheduler.State.reschedule]
  split
  · exact same
  · exact edf_invoke same

theorem edf_requeue (state : EDFScheduler.State threads cores) :
    Requeued core state.toCores (state.requeue core).toCores := by
  simp only [EDFScheduler.State.requeue]
  split
  · exact .inl rfl
  split
  · rename_i zombie
    exact .inr (.inl ⟨zombie, rfl⟩)
  rename_i alive
  split
  · exact .inr (.inr ⟨by simpa using alive, rfl⟩)
  · exact .inl EDFScheduler.enqueue_toCores

theorem edf_runScheduler : Moves none (some core) state.toCores
      (EDFScheduler.IRQrunScheduler support state core).toCores := by
  simp only [EDFScheduler.IRQrunScheduler]
  split
  · exact .of_flags rfl rfl (fun _ => id) (List.Sublist.refl _)
  · refine .of_run (edf_requeue { state with
      requested := update state.requested core false }) ?_
    cases support with
    | single => exact edf_dequeue _
    | smp => exact edf_reschedule (edf_dequeue _)
    | smpWithAffinity =>
      refine edf_invoke ?_
      exact ⟨rfl, rfl, rfl, rfl⟩

theorem edf_unblock : Moves none none state.toCores
      (EDFScheduler.IRQclear state thread unblocking).toCores := by
  have deleted := isDeleted_cleared state.toCores thread unblocking
  simp only [EDFScheduler.IRQclear, EDFScheduler.IRQwokenThread]
  split
  · split
    · exact .of_flags rfl rfl deleted (List.Sublist.refl _)
    · rw [EDFScheduler.enqueue_toCores]
      exact .of_flags rfl rfl deleted List.erase_sublist
  · exact .of_flags rfl rfl deleted (List.Sublist.refl _)

theorem edf_moves {next : EDFScheduler.State threads cores}
    {label : Cores.Label threads cores} (keeps : label.removes = false)
    (stepped : EDFScheduler.exec extraChecks support state label = some next) :
    Moves label.added label.runs state.toCores next.toCores := by
  cases label with
  | add thread priority affinity waiting =>
    obtain ⟨⟨-, notIdle, -⟩, rfl⟩ := of_guard stepped
    refine .of_create affinity waiting notIdle ?_
    simp only [EDFScheduler.IRQaddThread]
    split
    · exact .inr rfl
    · exact .inl EDFScheduler.enqueue_toCores
  | setPriority thread newPriority =>
    obtain ⟨-, rfl⟩ := of_guard stepped
    simp only [EDFScheduler.IRQsetPriority]
    split_ifs <;> exact .of_flags rfl rfl (fun _ => id) (List.Sublist.refl _)
  | unblock thread unblocking =>
    obtain ⟨-, rfl⟩ := of_guard stepped
    exact edf_unblock
  | runScheduler core =>
    obtain ⟨⟩ := stepped
    exact edf_runScheduler
  | block | detach | pauseKernel | restartKernel | removeDeadThread =>
    obtain ⟨shared, taken, rfl⟩ := Option.map_eq_some_iff.mp stepped
    exact .of_exec keeps taken

theorem edf_lawful : Lawful (edfScheduler extraChecks support idle) EDFScheduler.Sound where
  initial := EDFScheduler.initial_sound idle
  unallocated := fun _ => rfl
  slots := fun _ sound => sound.cores
  step := by
    intro (state : EDFScheduler.State threads cores) label next sound keeps steady stepped
    exact ⟨sound.step (of_decide_eq_true steady) stepped, edf_moves keeps stepped⟩
  removed := fun _ _ sound taken => ⟨sound.withCores (sound.cores.removeDeadThread taken), rfl⟩

/-! ### The reclaiming of dead threads -/

theorem Lawful.reclaimed {scheduler : BasicScheduler threads cores}
    {Sound : scheduler.State → Prop} (lawful : Lawful scheduler Sound)
    {machine next : Machine scheduler callers} {record dead : Record threads callers}
    {labels : List (Label threads cores callers)} {caller : Fin callers}
    (run : Run (observing exec note) (fun observed => Safe observed.1)
      (Machine.initial scheduler callers, dead) labels (machine, record))
    (safe : Safe machine (.look caller)) (stepped : exec machine (.look caller) = some next)
    (returned : next.phase caller = .outside) : Reclaimed (record caller) next := by
  have good : Good Sound machine record := run.observed (Good Sound)
    (fun _ _ _ _ good safe stepped => good.step lawful safe stepped) (initial_good lawful)
  exact good.reclaimed lawful safe stepped returned

/-- In every run in which no deleted thread is hidden from a call, every thread that was deleted
before a call of `removeDeadThreads` has been removed from the scheduler and freed once when the
call returns, and every other thread is still registered. -/
theorem dead_threads_are_reclaimed (kind : SchedulerType) (extraChecks : ExtraChecks)
    (support : CoreSupport) (idle : Fin cores → Fin threads)
    (labels : List (Label threads cores callers))
    (machine next : Machine (kind.scheduler extraChecks support idle) callers)
    (record : Record threads callers) (caller : Fin callers)
    (run : Run (observing exec note) (fun observed => Safe observed.1)
      (Machine.initial _ callers, fun _ _ => false) labels (machine, record))
    (safe : Safe machine (.look caller)) (stepped : exec machine (.look caller) = some next)
    (returned : next.phase caller = .outside) : Reclaimed (record caller) next := by
  cases kind with
  | priority config =>
    exact priority_lawful.reclaimed run safe stepped returned
  | edf => exact edf_lawful.reclaimed run safe stepped returned

/-- Two threads terminate, one after the other, and a third one joins one of them. -/
def twoTerminate (core : Fin cores) (first second third joined : Fin threads) :
    List (Label threads cores callers) :=
  [.step (.add first 1 (fun _ => true) false), .step (.add second 1 (fun _ => true) false),
    .step (.add third 1 (fun _ => true) false), .step (.runScheduler core),
    .step (.block core .deleted), .step (.runScheduler core), .step (.block core .deleted),
    .step (.runScheduler core), .step (.detach joined)]

/-- If the second one is joined, a call reclaims it and leaves the first one alone. -/
theorem dead_threads_are_reclaimed_secondJoined :
    ∃ (machine next : Machine (SchedulerType.scheduler .none .single (fun _ : Fin 1 => (0 : Fin 4))
        (.priority defaultConfig)) 1) (record : Record 4 1),
      Run (observing exec note) (fun observed => Safe observed.1)
        (Machine.initial _ 1, fun _ _ => false)
        (twoTerminate 0 1 2 3 2 ++ [.removeDeadThreads 0, .look 0, .free 0])
        (machine, record) ∧
      exec machine (.look 0) = some next ∧ next.phase 0 = .outside ∧
      (record 0 2 = true ∧ record 0 1 = false) ∧ Reclaimed (record 0) next :=
  (exists_congr fun _ => exists_comm).mpr <| exists_observed (fun machine record =>
      Safe machine (.look 0) ∧ ∃ next ∈ exec machine (.look 0), next.phase 0 = .outside ∧
        record 0 2 = true ∧ record 0 1 = false) (by decide)
    fun machine record run ⟨safe, next, stepped, returned, noted⟩ =>
      ⟨next, run, stepped, returned, noted, dead_threads_are_reclaimed _ .none .single _ _ machine
        next record 0 run safe stepped returned⟩

/-- If the first one is joined, the second one hides it: the call returns and has freed nothing. -/
theorem unjoined_thread_hides_deleted :
    ∃ (machine next : Machine (SchedulerType.scheduler .none .single (fun _ : Fin 1 => (0 : Fin 4))
        (.priority defaultConfig)) 1) (record : Record 4 1),
      Run (observing exec note) unrestricted (Machine.initial _ 1, fun _ _ => false)
        (twoTerminate 0 1 2 3 1 ++ [.removeDeadThreads 0]) (machine, record) ∧
      exec machine (.look 0) = some next ∧ next.phase 0 = .outside ∧
      (record 0 1 = true ∧ next.kernel.notReady = [1, 2] ∧ next.freed 1 = 0) ∧
      ¬ Reclaimed (record 0) next := by
  refine (exists_congr fun _ => exists_comm).mpr <| exists_observed (fun machine record =>
      ∃ next ∈ exec machine (.look 0), next.phase 0 = .outside ∧ record 0 1 = true ∧
        next.kernel.notReady = [1, 2] ∧ next.freed 1 = 0) (by decide)
    fun machine record run ⟨next, stepped, returned, ended⟩ =>
      ⟨next, run, stepped, returned, ended, fun reclaimed => ?_⟩
  have freed := (reclaimed.gone 1 ended.1).2
  rw [ended.2.2] at freed
  cases freed

end Miosix.Reclaim
