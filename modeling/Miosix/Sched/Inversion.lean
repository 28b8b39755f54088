/-
This file is about a scheduler run of the priority scheduler without affinity: afterwards no
thread that awaits a core outranks a running one, or another run is requested.

The run puts a thread of highest priority on its core. With several cores, the thread it takes
off that core may be the right one for another core, so the run looks for a thread above the
least priority that runs elsewhere, and requests a run there.
-/

import Miosix.Sched.Affinity

namespace Miosix.PriorityScheduler

open Function

variable {threads cores : Nat} {config : Config} {first second third : State threads cores}

section

variable (state : State threads cores)

/-- No thread that awaits a core outranks a running one. -/
def Settled : Prop :=
  ∀ thread, state.AwaitsCore thread → ∀ core,
    state.priority thread ≤ state.priority (state.running core)
  deriving Decidable

/-- A scheduler run is pending. -/
def Pending : Prop :=
  (∃ core, state.requested core = true) ∨ state.pendingWakeup = true
  deriving Decidable

theorem pending_request {core : Fin cores} : Pending (state.request core) :=
  .inl ⟨core, update_self ..⟩

/-! ### What a step leaves alone -/

/-- The fields that say which thread runs where, and with what priority. -/
structure SameSchedule (before after : State threads cores) : Prop where
  idle : after.idle = before.idle
  priority : after.priority = before.priority
  running : after.running = before.running
  holdingCore : after.holdingCore = before.holdingCore
  live : ∀ core, before.Live (before.running core) → after.Live (before.running core)

theorem SameSchedule.refl : SameSchedule state state := ⟨rfl, rfl, rfl, rfl, fun _ => id⟩

end

theorem SameSchedule.trans (one : SameSchedule first second) (two : SameSchedule second third) :
    SameSchedule first third where
  idle := two.idle.trans one.idle
  priority := two.priority.trans one.priority
  running := two.running.trans one.running
  holdingCore := two.holdingCore.trans one.holdingCore
  live := fun core live => by
    have moved := two.live core
    rw [one.running] at moved
    exact moved (one.live core live)

/-- Only the flags of one thread and the lists change. -/
structure Touches (before after : State threads cores) (thread : Fin threads) : Prop where
  allocated : after.allocated = before.allocated
  idle : after.idle = before.idle
  priority : after.priority = before.priority
  running : after.running = before.running
  holdingCore : after.holdingCore = before.holdingCore
  requested : after.requested = before.requested
  pendingWakeup : after.pendingWakeup = before.pendingWakeup
  flags : ∀ other, other ≠ thread → after.flags other = before.flags other

variable {before after state : State threads cores} {thread : Fin threads} {core : Fin cores}
  {support : CoreSupport}

theorem Touches.live_iff (touches : Touches before after thread) (other : Fin threads) :
    after.Live other ↔ before.Live other := by
  unfold Cores.Live
  rw [touches.allocated, touches.idle]

theorem Touches.sameSchedule (touches : Touches before after thread) : SameSchedule before after :=
  { touches with live := fun _ => (touches.live_iff _).mpr }

theorem Touches.trans (one : Touches first second thread) (two : Touches second third thread) :
    Touches first third thread where
  allocated := two.allocated.trans one.allocated
  idle := two.idle.trans one.idle
  priority := two.priority.trans one.priority
  running := two.running.trans one.running
  holdingCore := two.holdingCore.trans one.holdingCore
  requested := two.requested.trans one.requested
  pendingWakeup := two.pendingWakeup.trans one.pendingWakeup
  flags := fun other different => (two.flags other different).trans (one.flags other different)

theorem Touches.pending_iff (touches : Touches before after thread) :
    Pending after ↔ Pending before := by
  unfold Pending
  rw [touches.requested, touches.pendingWakeup]

/-- A thread that may have become ready outranks nobody. -/
theorem Touches.settled (touches : Touches before after thread) (settled : Settled before)
    (low : after.AwaitsCore thread →
      ∀ core, before.priority thread ≤ before.priority (before.running core)) : Settled after := by
  intro other awaits core
  rw [touches.priority, touches.running]
  by_cases same : other = thread
  · subst same
    exact low awaits core
  · refine settled other ?_ core
    obtain ⟨live, ready, off⟩ := awaits
    rw [touches.flags other same] at ready
    rw [touches.running] at off
    exact ⟨(touches.live_iff other).mp live, ready, off⟩

section

variable (state : State threads cores) (thread : Fin threads) (flags : ThreadFlags)

theorem setFlags_touches : Touches state (state.setFlags thread flags) thread :=
  ⟨rfl, rfl, rfl, rfl, rfl, rfl, rfl, fun _ different => update_of_ne different ..⟩

theorem clear_touches
    (unblocking : Unblocking) : Touches state (IRQclear state thread unblocking) thread := by
  have flagged := setFlags_touches state thread ((state.flags thread).unset unblocking)
  simp only [IRQclear]
  split
  · unfold IRQwokenThread
    split
    · exact flagged
    · exact flagged.trans ⟨rfl, rfl, rfl, rfl, rfl, rfl, rfl, fun _ _ => rfl⟩
  · exact flagged

theorem request_sameSchedule : SameSchedule state (state.request core) :=
  ⟨rfl, rfl, rfl, rfl, fun _ => id⟩

end

/-! ### The scheduler run -/

theorem nonemptyAbove_iff {ready : Int → List (Fin threads)} {bound : Int} {top : Nat} :
    nonemptyAbove ready bound top = true ↔
      ∃ level : Int, 0 ≤ level ∧ level ≤ top ∧ bound < level ∧ ready level ≠ [] := by
  induction top with
  | zero =>
    simp only [nonemptyAbove, Bool.and_eq_true, decide_eq_true_eq, Bool.not_eq_true',
      List.isEmpty_eq_false_iff]
    constructor
    · rintro ⟨low, listed⟩
      exact ⟨0, le_rfl, le_rfl, low, listed⟩
    · rintro ⟨level, low, high, above, listed⟩
      obtain rfl : level = 0 := by omega
      exact ⟨above, listed⟩
  | succ top inductionHypothesis =>
    simp only [nonemptyAbove, Bool.and_eq_true, Bool.or_eq_true, decide_eq_true_eq,
      Bool.not_eq_true', List.isEmpty_eq_false_iff, inductionHypothesis]
    constructor
    · rintro ⟨low, listed | ⟨level, least, high, above, listed⟩⟩
      · exact ⟨top + 1, by omega, by omega, low, listed⟩
      · exact ⟨level, least, by omega, above, listed⟩
    · rintro ⟨level, least, high, above, listed⟩
      refine ⟨by omega, ?_⟩
      by_cases same : level = top + 1
      · exact .inl (same ▸ listed)
      · exact .inr ⟨level, least, by omega, above, listed⟩

/-- With one core, or with the check for another core, a run leaves nothing to be done that is not
requested. -/
def Fits (support : CoreSupport) (cores : Nat) : Prop :=
  support = .smp ∨ (support = .single ∧ cores = 1)

/-- A thread that awaits a core after the selection was in line before, and is not above the
selected one. -/
theorem Vacated.dequeue_awaits (vacated : Vacated config state core)
    (awaits : (state.dequeue config core).AwaitsCore thread) :
    ∃ next, LevelQueue.highest state.ready config.numPriorities = some (state.priority next) ∧
      state.dequeue config core = { state with
        ready := LevelQueue.remove state.ready (state.priority next) next
        toCores := state.setRunning core next } ∧
      state.priority thread ≤ state.priority next ∧ 0 ≤ state.priority thread ∧
      thread ∈ (state.dequeue config core).ready (state.priority thread) := by
  have queued := (vacated.dequeue.cores.queued_iff thread).mpr awaits
  rcases vacated.dequeue_cases with ⟨next, listed, greatest, highest, runs⟩ | ⟨nobody, -, runs⟩
  · refine ⟨next, highest, runs, ?_⟩
    have taken := vacated.arranged.take next (state.dequeue config core) (by rw [runs])
      (by rw [runs])
    have before := ((taken.2 thread).mp queued).1
    refine ⟨greatest thread before, (vacated.bounds thread before).1, ?_⟩
    have same : (state.dequeue config core).priority = state.priority := by rw [runs]
    rw [← same]
    exact queued
  · rw [runs] at queued
    exact absurd queued (nobody thread)

theorem Vacated.settled_single {state : State threads 1} {core : Fin 1}
    (vacated : Vacated config state core) : Settled (state.dequeue config core) := by
  intro thread awaits other
  obtain ⟨next, -, runs, low, -⟩ := vacated.dequeue_awaits awaits
  rw [Subsingleton.elim other core, runs]
  exact low.trans_eq (congrArg state.priority (Cores.setRunning_self ..).symm)

theorem Vacated.settled_smp (vacated : Vacated config state core) :
    Settled (state.reschedule config core (state.dequeue config core)) ∨
      Pending (state.reschedule config core (state.dequeue config core)) := by
  simp only [State.reschedule]
  split
  · rename_i highest
    refine .inl fun thread awaits => ?_
    obtain ⟨next, found, -⟩ := vacated.dequeue_awaits awaits
    rw [highest] at found
    cases found
  · rename_i level highest
    split
    · exact .inr (pending_request _)
    · rename_i nobody
      refine .inl fun thread awaits other => ?_
      obtain ⟨next, found, runs, low, least, listed⟩ := vacated.dequeue_awaits awaits
      obtain rfl := Option.some_inj.mp (highest.symm.trans found)
      have priority : (state.dequeue config core).priority = state.priority := by rw [runs]
      rw [priority]
      by_cases here : other = core
      · rw [here, runs]
        exact low.trans_eq (congrArg state.priority (Cores.setRunning_self ..).symm)
      · have running : (state.dequeue config core).running other = state.running other := by
          rw [runs]
          exact Cores.setRunning_of_ne here
        rw [running]
        by_contra more
        refine nobody (nonemptyAbove_iff.mpr ⟨state.priority thread, least, ?_, ?_,
          List.ne_nil_of_mem listed⟩)
        · exact low.trans (Int.self_le_toNat _)
        · refine (coreRunningMinPriorityThread_le _ _ other).trans_lt ?_
          rw [State.runningPrio, update_of_ne here]
          exact not_le.mp more

theorem Sound.runScheduler_settles (sound : Sound config state)
    (fits : Fits support cores) (core : Fin cores) :
    Settled (IRQrunScheduler config support state core) ∨
      Pending (IRQrunScheduler config support state core) := by
  have started : Sound config { state with
      requested := update state.requested core false } := sound.withRequests
  have vacated := started.requeue core
  simp only [IRQrunScheduler]
  split
  · exact .inr (.inr rfl)
  · rcases fits with rfl | ⟨rfl, rfl⟩
    · exact vacated.settled_smp
    · exact .inl vacated.settled_single

/-- A run changes which thread runs on its own core only, and not if the kernel is paused there. -/
structure RunsOn (before after : State threads cores) (core : Fin cores) : Prop where
  allocated : after.allocated = before.allocated
  idle : after.idle = before.idle
  priority : after.priority = before.priority
  holdingCore : after.holdingCore = before.holdingCore
  running : ∀ other, other ≠ core ∨ before.holdingCore = some core →
    after.running other = before.running other

theorem RunsOn.request (runs : RunsOn before after core) (other : Fin cores) :
    RunsOn before (after.request other) core :=
  { runs with }

theorem requeue_runsOn : RunsOn state (state.requeue core) core := by
  simp only [State.requeue]
  split_ifs <;> exact ⟨rfl, rfl, rfl, rfl, fun _ _ => rfl⟩

theorem dequeue_runsOn (config : Config) (runs : RunsOn before state core)
    (unpaused : before.holdingCore ≠ some core) :
    RunsOn before (state.dequeue config core) core := by
  have elsewhere (next : Fin threads) : ∀ other, other ≠ core ∨ before.holdingCore = some core →
      (state.setRunning core next).running other = before.running other := by
    intro other apart
    rw [Cores.setRunning_of_ne (apart.resolve_right unpaused)]
    exact runs.running other apart
  unfold State.dequeue
  split <;> exact { runs with running := elsewhere _ }

theorem runScheduler_runsOn (fits : Fits support cores)
    (state : State threads cores) (core : Fin cores) :
    RunsOn state (IRQrunScheduler config support state core) core := by
  simp only [IRQrunScheduler]
  split
  · exact ⟨rfl, rfl, rfl, rfl, fun _ _ => rfl⟩
  · rename_i unpaused
    have requeued : RunsOn state (State.requeue { state with
        requested := update state.requested core false } core) core := by
      obtain ⟨allocated, idle, priority, holdingCore, running⟩ := requeue_runsOn
      exact ⟨allocated, idle, priority, holdingCore, running⟩
    have selected : RunsOn state _ core := dequeue_runsOn config requeued unpaused
    rcases fits with rfl | ⟨rfl, rfl⟩
    · simp only [State.reschedule]
      split
      · exact selected
      · split
        · exact selected.request _
        · exact selected
    · exact selected

end Miosix.PriorityScheduler
