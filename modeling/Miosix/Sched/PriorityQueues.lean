/-
This file proves where the priority scheduler keeps each thread: the array of ready lists
holds exactly the ready threads that do not run, each once, in the list of its priority. Every
function of the scheduler keeps this, and the selected thread is of highest priority.
-/

import Miosix.Sched.Priority
import Miosix.Sched.Slots

namespace Miosix.PriorityScheduler

open Function LevelQueue

variable {threads cores : Nat} {config : Config}

/-! ### The ready lists -/

def State.Queued (state : State threads cores) (thread : Fin threads) : Prop :=
  thread ∈ state.ready (state.priority thread)

def Arranged (state : State threads cores) : Prop :=
  Keyed state.ready state.Queued state.priority

variable {state : State threads cores} {thread : Fin threads} {core : Fin cores}
  {next : Cores threads cores} {newPriority : Int}

theorem Arranged.withCores (arranged : Arranged state) (next : Cores threads cores) :
    Arranged { state with toCores := next } :=
  { arranged with }

/-- An array that holds the members of some predicate is arranged. -/
theorem arranged_of_keyed (state : State threads cores) {member : Fin threads → Prop}
    (keyed : Keyed state.ready member state.priority) :
    Arranged state ∧ ∀ thread, state.Queued thread ↔ member thread := by
  refine ⟨keyed.self, fun thread => ?_⟩
  unfold State.Queued
  rw [keyed.mem_iff]
  exact and_iff_left rfl

theorem Arranged.enqueue (arranged : Arranged state) (fresh : ¬ state.Queued thread) :
    Arranged (state.enqueue thread) ∧
      ∀ other, (state.enqueue thread).Queued other ↔ state.Queued other ∨ other = thread :=
  arranged_of_keyed (state.enqueue thread) (Keyed.push arranged thread fresh)

theorem Arranged.take (arranged : Arranged state) (thread : Fin threads)
    (after : State threads cores)
    (removed : after.ready = remove state.ready (state.priority thread) thread)
    (same : after.priority = state.priority) :
    Arranged after ∧ ∀ other, after.Queued other ↔ state.Queued other ∧ other ≠ thread := by
  refine arranged_of_keyed after ?_
  rw [removed, same]
  exact Keyed.remove arranged thread

/-- The value of a thread that is in no list does not matter. -/
theorem Arranged.revalue (arranged : Arranged state) (unqueued : ¬ state.Queued thread)
    (newPriority : Int) :
    Arranged { state with priority := update state.priority thread newPriority } ∧
      ∀ other, State.Queued { state with
        priority := update state.priority thread newPriority } other ↔
          state.Queued other := by
  refine arranged_of_keyed _ (Keyed.congr arranged (fun _ => Iff.rfl) ?_)
  intro other queued
  refine update_of_ne ?_ _ _
  rintro rfl
  exact unqueued queued

/-! ### The invariant -/

structure Sound (config : Config) (state : State threads cores) : Prop where
  cores : state.toCores.Sound state.Queued
  arranged : Arranged state
  valid : ∀ thread, state.Live thread → validate config (state.priority thread) = true
  idle : ∀ core, state.priority (state.idle core) = idlePriority

theorem initial_sound (idle : Fin cores → Fin threads) : Sound config (State.initial idle) where
  cores := Cores.sound_of_unallocated (fun _ => rfl) (fun _ => rfl) rfl
    (by simp [State.Queued, State.initial])
  arranged := Keyed.empty (by simp [State.Queued, State.initial]) _
  valid := fun thread live => absurd live (Cores.not_live_of_unallocated rfl)
  idle := fun core => if_pos ⟨core, rfl⟩

/-- A step that touches only the part of the state every scheduler has. -/
theorem Sound.withCores (sound : Sound config state)
    (kept : next.Sound state.Queued) (live : ∀ thread, next.Live thread → state.Live thread)
    (sameIdle : next.idle = state.idle) : Sound config { state with toCores := next } where
  cores := kept
  arranged := sound.arranged.withCores next
  valid := fun thread alive => sound.valid thread (live thread alive)
  idle := by
    intro core
    rw [sameIdle]
    exact sound.idle core

/-- The lists do not depend on the masks, the lock and the requests. -/
theorem Sound.withRequests (sound : Sound config state) {affinity : Fin threads → Fin cores → Bool}
    {holdingCore : Option (Fin cores)} {pendingWakeup : Bool} {requested : Fin cores → Bool} :
    Sound config { state with
      affinity := affinity
      holdingCore := holdingCore
      pendingWakeup := pendingWakeup
      requested := requested } :=
  sound.withCores sound.cores.withRequests (fun _ => id) rfl

/-! ### Threads that are added, set to a priority, and woken -/

theorem valid_update (valued : validate config newPriority = true)
    {other : Fin threads} (valid : other ≠ thread → validate config (state.priority other) = true) :
    validate config (update state.priority thread newPriority other) = true := by
  by_cases same : other = thread
  · rw [same, update_self]
    exact valued
  · rw [update_of_ne same]
    exact valid same

theorem Sound.add (sound : Sound config state) (unallocated : state.allocated thread = false)
    (notIdle : ∀ core, state.idle core ≠ thread) {priority : Int}
    (valued : validate config priority = true) (affinity : Fin cores → Bool) (waiting : Bool) :
    Sound config (state.addNew thread priority affinity waiting) := by
  have dead := Cores.not_live_of_unallocated unallocated
  have unqueued : ¬ state.Queued thread := (sound.cores.unlisted dead).1
  obtain ⟨revalued, sameQueue⟩ := sound.arranged.revalue unqueued priority
  have valid : ∀ other, (state.create thread affinity waiting).Live other →
      validate config (update state.priority thread priority other) = true := by
    intro other live
    refine valid_update valued fun different => sound.valid other ?_
    exact (Cores.create_agree affinity waiting different).live.mp live
  have idle : ∀ core, update state.priority thread priority (state.idle core) =
      idlePriority := by
    intro core
    rw [update_of_ne (notIdle core)]
    exact sound.idle core
  cases waiting with
  | true =>
    have waits : ((state.create thread affinity true).flags thread).isReady = false :=
      Cores.isReady_create
    simp only [State.addNew, IRQaddThread, if_pos waits]
    refine ⟨?_, revalued.withCores _, valid, idle⟩
    exact (sound.cores.addWaiting unallocated notIdle affinity).congr fun other => (sameQueue other)
  | false =>
    have ready : ¬ ((state.create thread affinity false).flags thread).isReady = false := by
      rw [Cores.isReady_create]
      decide
    simp only [State.addNew, IRQaddThread, if_neg ready]
    obtain ⟨placed, grown⟩ := (revalued.withCores (state.create thread affinity false)).enqueue
      (fun queued => unqueued ((sameQueue thread).mp queued))
    refine ⟨?_, placed, valid, idle⟩
    exact sound.cores.addReady unallocated notIdle affinity fun other =>
      (grown other).trans (or_congr_left (sameQueue other))

/-- A ready thread that waits for a core is put in the list of its new priority. -/
theorem Arranged.reprioritise (arranged : Arranged state) (queued : state.Queued thread) :
    Arranged { state with
      priority := update state.priority thread newPriority
      ready := push (remove state.ready (state.priority thread) thread)
        newPriority thread } ∧
      ∀ other, State.Queued { state with
        priority := update state.priority thread newPriority
        ready := push (remove state.ready (state.priority thread) thread)
          newPriority thread } other ↔ state.Queued other := by
  have revalued : Keyed _ _ (update state.priority thread newPriority) :=
    (Keyed.remove arranged thread).congr (fun _ => Iff.rfl)
      fun other member => update_of_ne member.2 _ _
  have pushed := revalued.push thread fun member => member.2 rfl
  rw [update_self] at pushed
  obtain ⟨placed, grown⟩ := arranged_of_keyed { state with
    priority := update state.priority thread newPriority
    ready := push (remove state.ready (state.priority thread) thread)
      newPriority thread } pushed
  refine ⟨placed, fun other => (grown other).trans ?_⟩
  by_cases same : other = thread
  · simp [same, queued]
  · simp [same]

section

variable (sound : Sound config state)

include sound

theorem Sound.setPriority (live : state.Live thread) (valued : validate config newPriority = true) :
    Sound config (IRQsetPriority state thread newPriority) := by
  have valid : ∀ other, state.Live other →
      validate config (update state.priority thread newPriority other) = true :=
    fun other alive => valid_update valued fun _ => sound.valid other alive
  have idle : ∀ core, update state.priority thread newPriority (state.idle core) =
      idlePriority := fun core => (update_of_ne (live.2 core) _ _).trans (sound.idle core)
  have unlisted : ¬ state.Queued thread → Sound config { state with
      priority := update state.priority thread newPriority } := by
    intro unqueued
    obtain ⟨revalued, same⟩ := sound.arranged.revalue unqueued newPriority
    exact ⟨sound.cores.congr same, revalued, valid, idle⟩
  simp only [IRQsetPriority]
  split
  · rename_i running
    obtain ⟨core, rfl⟩ := running
    exact unlisted (sound.cores.running_unlisted core).1
  rename_i stopped
  split
  · rename_i unready
    exact unlisted (sound.cores.not_queued_of_unready unready)
  rename_i ready
  have queued : state.Queued thread := (sound.cores.queued_iff thread).mpr
    ⟨live, by simpa using ready, fun core same => stopped ⟨core, same.symm⟩⟩
  obtain ⟨placed, same⟩ := sound.arranged.reprioritise queued
  exact ⟨sound.cores.congr same, placed, valid, idle⟩

theorem Sound.woken (live : state.Live thread)
    (waiting : (state.flags thread).isReady = false) {flags : ThreadFlags}
    (ready : flags.isReady = true) :
    Sound config (IRQwokenThread (state.setFlags thread flags) thread) := by
  unfold IRQwokenThread
  split
  · rename_i running
    exact sound.withCores (sound.cores.setFlags (.inl running)) (fun _ => id) rfl
  · rename_i stopped
    have unqueued := sound.cores.not_queued_of_unready waiting
    obtain ⟨placed, grown⟩ := (sound.arranged.withCores { state.toCores.setFlags thread flags with
      notReady := state.notReady.erase thread }).enqueue unqueued
    exact ⟨sound.cores.wake live stopped ready grown, placed, sound.valid, sound.idle⟩

theorem Sound.unblock (live : state.Live thread)
    (unblocking : Unblocking) : Sound config (IRQclear state thread unblocking) := by
  simp only [IRQclear]
  split
  · rename_i wakes
    exact sound.woken live wakes.1 wakes.2
  · rename_i stays
    exact sound.withCores (sound.cores.setFlags (.inr (ThreadFlags.isReady_unset stays)))
      (fun _ => id) rfl

theorem Sound.request (core : Fin cores) : Sound config (state.request core) :=
  sound.withCores (sound.cores.request core) (fun _ => id) rfl

theorem Sound.stepCores (label : Cores.Label threads cores)
    (stepped : state.toCores.exec label = some next) :
    Sound config { state with toCores := next } := by
  obtain ⟨live, idle⟩ := Cores.live_of_exec stepped
  exact sound.withCores (sound.cores.step stepped) live idle

theorem Sound.invoke (found : Option (Fin cores)) : Sound config (state.invoke found) := by
  cases found with
  | none => exact sound
  | some core => exact sound.request core

end

/-! ### The scheduler run -/

/-- The previously running thread has been put in a list, and nothing runs on this core yet. -/
structure Vacated (config : Config) (state : State threads cores) (core : Fin cores) : Prop where
  cores : state.toCores.Vacated core state.Queued
  arranged : Arranged state
  valid : ∀ thread, state.Live thread → validate config (state.priority thread) = true
  idle : ∀ core, state.priority (state.idle core) = idlePriority

theorem Sound.requeue (sound : Sound config state) (core : Fin cores) :
    Vacated config (state.requeue core) core := by
  simp only [State.requeue]
  split
  · rename_i idle
    exact { sound with cores := sound.cores.vacateIdle idle }
  rename_i busy
  split
  · rename_i zombie
    exact ⟨sound.cores.vacateAside busy (ThreadFlags.not_ready_of_zombie zombie)
      (List.perm_append_singleton _ _), sound.arranged.withCores _, sound.valid, sound.idle⟩
  split
  · rename_i unready
    exact ⟨sound.cores.vacateAside busy unready (List.Perm.refl _), sound.arranged.withCores _,
      sound.valid, sound.idle⟩
  · rename_i ready
    obtain ⟨placed, grown⟩ := sound.arranged.enqueue (sound.cores.running_unlisted core).1
    exact ⟨sound.cores.vacateReady busy (by simpa using ready) grown, placed, sound.valid,
      sound.idle⟩

section

variable (vacated : Vacated config state core)

include vacated

theorem Vacated.bounds (thread : Fin threads) (queued : state.Queued thread) :
    0 ≤ state.priority thread ∧ state.priority thread < config.numPriorities :=
  of_decide_eq_true (vacated.valid thread ((vacated.cores.queued_iff thread).mp queued).1)

theorem Vacated.run {next : Fin threads} (queued : state.Queued next) : Sound config { state with
      ready := remove state.ready (state.priority next) next
      toCores := state.setRunning core next } := by
  obtain ⟨arranged, taken⟩ := vacated.arranged.take next { state with
    ready := remove state.ready (state.priority next) next
    toCores := state.setRunning core next } rfl rfl
  exact ⟨vacated.cores.dispatch (.inr queued) taken, arranged, vacated.valid, vacated.idle⟩

theorem Vacated.runIdle :
    Sound config { state with toCores := state.setRunning core (state.idle core) } :=
  ⟨vacated.cores.dispatchIdle, vacated.arranged.withCores _, vacated.valid, vacated.idle⟩

/-- Without affinity the selected thread is of highest priority. -/
theorem Vacated.dequeue_cases : (∃ next, state.Queued next ∧
      (∀ other, state.Queued other → state.priority other ≤ state.priority next) ∧
      highest state.ready config.numPriorities = some (state.priority next) ∧
      state.dequeue config core = { state with
        ready := remove state.ready (state.priority next) next
        toCores := state.setRunning core next }) ∨
    ((∀ thread, ¬ state.Queued thread) ∧
      highest state.ready config.numPriorities = none ∧
      state.dequeue config core = { state with
        toCores := state.setRunning core (state.idle core) }) := by
  have keyed : Keyed state.ready state.Queued state.priority := vacated.arranged
  cases first : front state.ready config.numPriorities with
  | some next =>
    obtain ⟨queued, greatest⟩ := keyed.front_greatest first vacated.bounds
    obtain ⟨level, found, heads⟩ := (front_eq_some_iff _).mp first
    have listed : next ∈ state.ready level := by
      rw [heads]
      exact List.mem_cons_self
    refine .inl ⟨next, queued, greatest, ?_, ?_⟩
    · rw [found, ((keyed.mem_iff level next).mp listed).2]
    · simp only [State.dequeue, first, keyed.dequeue_eq first]
  | none =>
    refine .inr ⟨keyed.not_member_of_front_eq_none first vacated.bounds, ?_, ?_⟩
    · rw [highest_eq_none_iff, ← front_eq_none_iff, first]
    · simp only [State.dequeue, first]

theorem Vacated.dequeue : Sound config (state.dequeue config core) := by
  rcases vacated.dequeue_cases with ⟨next, queued, -, -, runs⟩ | ⟨-, -, runs⟩
  · exact runs ▸ vacated.run queued
  · exact runs ▸ vacated.runIdle

end

theorem Sound.reschedule {scheduled : State threads cores} (sound : Sound config scheduled)
    (state : State threads cores) (core : Fin cores) :
    Sound config (state.reschedule config core scheduled) := by
  simp only [State.reschedule]
  split
  · exact sound
  · split
    · exact sound.request _
    · exact sound

end Miosix.PriorityScheduler
