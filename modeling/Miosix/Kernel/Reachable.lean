/-
This file carries the invariant of the kernel machine through every step and every run, and
proves what the scheduler is for: where nothing is pending and no lock is held, no thread that
awaits a core outranks one that runs.

The one step that breaks it is `Thread::terminate`, which makes a sleeping or waiting thread
ready and, unlike everything else that does so, does not consider a scheduler run. The invariant
survives the calls of `terminate` that find such a run not needed (`Harmless`).
-/

import Miosix.Kernel.Invariant

namespace Miosix.Kernel

open PriorityScheduler Transition

variable {threads cores : Nat} {config : Config} {support : CoreSupport}
  {state : State threads cores} {main : Fin threads} {idle : Fin cores → Fin threads}
  {priority : Fin config.numPriorities} {recursive : Sync.Lockable → Bool}

/-! ### The steps -/

/-- The scheduler runs. The core that holds the pause kernel lock keeps its thread. -/
theorem Sound.run (sound : Sound config state) (fits : Fits support cores) (core : Fin cores) :
    Sound config { state with sched := IRQrunScheduler config support state.sched core } := by
  have runs : RunsOn state.sched (IRQrunScheduler config support state.sched core) core :=
    runScheduler_runsOn fits state.sched core
  have settled := sound.sched.runScheduler_settles fits core
  refine ⟨sound.sched.runScheduler support core, sound.sync, fun thread known => ?_,
    fun other => ?_, fun busy => ?_, .inl settled⟩
  · rw [runs.priority]
    exact sound.tracked thread fun other same => known other (by rw [runs.idle]; exact same)
  · rw [runs.idle]
    exact sound.idle other
  · obtain ⟨holder, holding, live, careful⟩ := sound.careful busy
    have stays : (IRQrunScheduler config support state.sched core).running holder =
        state.current holder := by
      refine runs.running holder ?_
      by_cases same : holder = core
      · exact .inr (same ▸ holding)
      · exact .inl same
    refine ⟨holder, runs.holdingCore.trans holding, ?_, ?_⟩
    · simp only [State.current, stays]
      unfold Cores.Live at live ⊢
      rw [runs.allocated, runs.idle]
      exact live
    · simp only [State.current, stays, runs.priority]
      unfold Real
      rw [runs.idle]
      exact careful

/-- A step keeps the invariant, with a condition on `terminate`. -/
theorem Sound.step {next : State threads cores} (sound : Sound config state)
    (fits : Fits support cores) {label : Label threads cores}
    (harmless : ∀ target, label = .terminate target → Harmless state.sched target)
    (stepped : exec config support state label = some next) : Sound config next := by
  have noAffinity : support ≠ .smpWithAffinity := by
    rcases fits with rfl | ⟨rfl, -⟩ <;> simp
  cases label with
  | create core thread priority detached => exact sound.create noAffinity stepped
  | yield core =>
    obtain rfl := Option.some_inj.mp stepped
    exact sound.keeps request_keeps (fun _ => .inr (pending_request _)) rfl rfl rfl
  | wait core => exact sound.wait stepped
  | nanoSleepUntil | timedWait => exact sound.sleep stepped
  | endSleep core =>
    obtain ⟨-, rfl⟩ := of_guard stepped
    exact sound.keeps (.refl _) id rfl rfl rfl
  | wakeup core thread =>
    obtain ⟨live, rfl⟩ := of_guard stepped
    exact sound.keeps (IRQwakeup_keeps noAffinity live)
      (clear_reschedule_orderly noAffinity) rfl rfl rfl
  | PKwakeup core thread =>
    obtain ⟨⟨live, -⟩, rfl⟩ := of_guard stepped
    exact sound.keeps (PKwakeup_keeps noAffinity live)
      (fun orderly => PKwakeup_orderly noAffinity (.inl orderly)) rfl rfl rfl
  | timer core now =>
    obtain ⟨live, rfl⟩ := of_guard stepped
    exact sound.keeps (IRQwakeThreads_keeps noAffinity live)
      (IRQwakeThreads_orderly noAffinity) rfl rfl rfl
  | join core target => exact sound.join stepped
  | endJoin core target => exact sound.endJoin stepped
  | detach core target => exact sound.detach noAffinity stepped
  | exit core => exact sound.exit stepped
  | terminate target => exact sound.terminate (fun _ => harmless target rfl) stepped
  | call core call => exact sound.call stepped
  | resume core => exact sound.resume stepped
  | perform core => exact sound.perform noAffinity stepped
  | pauseKernel core =>
    obtain ⟨free, rfl⟩ := of_guard stepped
    exact sound.withHolder (sound.agenda_eq_nil free)
  | restartKernel core =>
    obtain ⟨⟨-, empty⟩, rfl⟩ := of_guard stepped
    exact sound.withHolder empty
  | checkPendingWakeup core =>
    rw [exec] at stepped
    split at stepped
    · obtain rfl := Option.some_inj.mp stepped
      exact sound.keeps ((pendingWakeup_keeps _).trans request_keeps)
        (fun _ => .inr (pending_request _)) rfl rfl rfl
    · exact Option.some_inj.mp stepped ▸ sound
  | runScheduler core =>
    obtain rfl := Option.some_inj.mp stepped
    exact sound.run fits core
  | removeDeadThread =>
    obtain ⟨next, removed, rfl⟩ := Option.map_eq_some_iff.mp stepped
    obtain ⟨keeps, orderly⟩ := removeDeadThread_keeps removed sound.sched
    exact sound.keeps keeps orderly rfl rfl rfl

/-! ### Reachable states -/

theorem initial_orderly : Orderly (State.initial config idle main priority recursive).sched := by
  rcases isEmpty_or_nonempty (Fin cores) with none | ⟨⟨core⟩⟩
  · exact .inl fun _ _ => none.elim
  · exact .inr (.inl ⟨core, rfl⟩)

theorem initial_sound (idle : Fin cores → Fin threads)
    (notIdle : ∀ core, idle core ≠ main) (priority : Fin config.numPriorities)
    (recursive : Sync.Lockable → Bool) :
    Sound config (State.initial config idle main priority recursive) := by
  have valued : validate config priority = true :=
    decide_eq_true ⟨by omega, by exact_mod_cast priority.isLt⟩
  have added := (PriorityScheduler.initial_sound idle).add rfl notIdle valued (fun _ => true) false
  refine ⟨added.withRequests, (Sync.Machine.initial_sound _ recursive).consistent,
    fun thread known => ?_,
    fun _ => rfl, absurd rfl, .inl (initial_orderly ..)⟩
  have adds := addNew_adds (PriorityScheduler.State.initial idle) main priority
    (fun _ => true) false
  have idleless : ¬ ∃ core, idle core = thread := fun ⟨core, isIdle⟩ =>
    known core ((congrFun adds.idle core).trans isIdle)
  refine Eq.trans ?_ (congrFun adds.priority thread).symm
  by_cases same : thread = main
  · simp [State.initial, Sync.Machine.initial, same]
  · simp [State.initial, Sync.Machine.initial, PriorityScheduler.State.initial, same, idleless]

/-- The invariant holds at the end of every run whose calls of `terminate` are harmless. -/
theorem reachable_sound (fits : Fits support cores)
    {allowed : State threads cores → Label threads cores → Prop}
    (harmless : ∀ state target, allowed state (.terminate target) → Harmless state.sched target)
    (notIdle : ∀ core, idle core ≠ main)
    {labels : List (Label threads cores)} (run : Run (exec config support) allowed
      (State.initial config idle main priority recursive) labels state) : Sound config state := by
  refine run.invariant (Sound config) (fun before label after sound permitted stepped => ?_)
    (initial_sound idle notIdle priority recursive)
  exact sound.step fits (fun target same => harmless before target (same ▸ permitted)) stepped

theorem Sound.settled (sound : Sound config state)
    (unlocked : state.sched.holdingCore = none) (quiet : ¬ Pending state.sched) :
    Settled state.sched :=
  (sound.orderly_of_agenda (sound.agenda_eq_nil unlocked)).resolve_right quiet

/-! ### One core -/

section

variable (state : State threads cores) (label : Label threads cores)

/-- The steps of a run in which `terminate` does not miss a scheduler run. -/
def TerminatesHarmlessly : Prop :=
  ∀ target, label = .terminate target → Harmless state.sched target
  deriving Decidable

end

/-- The processor runs a thread that no ready thread outranks, unless a scheduler run is pending
or the kernel is paused. -/
theorem running_thread_is_not_outranked (config : Config) (idle : Fin 1 → Fin threads)
    (main : Fin threads) (notIdle : ∀ core, idle core ≠ main)
    (priority : Fin config.numPriorities) (recursive : Sync.Lockable → Bool)
    (labels : List (Label threads 1)) (state : State threads 1)
    (run : Run (exec config .single) TerminatesHarmlessly
      (State.initial config idle main priority recursive) labels state)
    (unlocked : state.sched.holdingCore = none) (quiet : ¬ Pending state.sched) :
    ∀ thread, state.sched.AwaitsCore thread →
      state.sched.priority thread ≤ state.sched.priority (state.current 0) := by
  have sound : Sound config state :=
    reachable_sound (.inr ⟨rfl, rfl⟩) (fun _ target harmless => harmless target rfl) notIdle run
  exact fun thread awaits => sound.settled unlocked quiet thread awaits 0

/-- The main thread, 1, creates thread 2 of a lower priority and terminates it before it has run. -/
theorem running_thread_is_not_outranked_terminated : ∃ state : State 3 1,
    Run (exec defaultConfig .single) TerminatesHarmlessly
      (State.initial defaultConfig (fun _ => 0) 1 (1 : Fin 4) fun _ => false)
      [.runScheduler 0, .create 0 2 0 false, .terminate 2] state ∧
    state.sched.AwaitsCore 2 ∧ ∀ thread, state.sched.AwaitsCore thread →
      state.sched.priority thread ≤ state.sched.priority (state.current 0) :=
  exists_run (fun state => state.sched.AwaitsCore 2 ∧
      state.sched.holdingCore = none ∧ ¬ Pending state.sched) (by decide)
    fun state run ⟨awaits, unlocked, quiet⟩ => ⟨run, awaits, running_thread_is_not_outranked
      defaultConfig _ _ (by decide) _ _ _ state run unlocked quiet⟩

/-- The main thread, 1, creates thread 2 of a higher priority, which runs and waits. The main thread
terminates it: thread 2 is ready, and the main thread goes on. -/
theorem terminate_misses_reschedule : ∃ state : State 3 1,
    Run (exec defaultConfig .single) unrestricted
      (State.initial defaultConfig (fun _ => 0) 1 (1 : Fin 4) fun _ => false)
      [.runScheduler 0, .create 0 2 2 false, .runScheduler 0, .wait 0, .runScheduler 0,
        .terminate 2] state ∧
    state.sched.holdingCore = none ∧ ¬ Pending state.sched ∧ state.sched.AwaitsCore 2 ∧
      state.current 0 = 1 ∧ state.sched.priority (state.current 0) < state.sched.priority 2 :=
  exists_run _ (by decide) fun _ run passed => ⟨run, passed⟩

/-! ### Several cores -/

/-- Without thread affinity, no ready thread outranks one that runs on some core, unless a
scheduler run is pending or the kernel is paused. -/
theorem running_threads_are_not_outranked (config : Config) (idle : Fin cores → Fin threads)
    (main : Fin threads) (notIdle : ∀ core, idle core ≠ main)
    (priority : Fin config.numPriorities) (recursive : Sync.Lockable → Bool)
    (labels : List (Label threads cores)) (state : State threads cores)
    (run : Run (exec config .smp) (fun _ label => ∀ target, label ≠ .terminate target)
      (State.initial config idle main priority recursive) labels state)
    (unlocked : state.sched.holdingCore = none) (quiet : ¬ Pending state.sched) :
    ∀ thread, state.sched.AwaitsCore thread → ∀ core,
      state.sched.priority thread ≤ state.sched.priority (state.current core) := by
  have sound : Sound config state :=
    reachable_sound (.inl rfl) (fun _ target none => absurd rfl (none target)) notIdle run
  exact sound.settled unlocked quiet

/-- The main thread, 2, creates thread 3, of priority 2, which runs on the other core and waits, and
thread 4, of its own priority, which takes its place. The main thread wakes thread 3 and loses
its core to it. Thread 3 lowers its priority, and the main thread gets the core back. -/
theorem running_threads_are_not_outranked_lowered :
    ∃ (labels : List (Label 5 2)) (state : State 5 2),
    Run (exec defaultConfig .smp) (fun _ label => ∀ target, label ≠ .terminate target)
      (State.initial defaultConfig (Fin.castLE (by decide)) 2 (1 : Fin 4) fun _ => false)
      labels state ∧
    state.sched.AwaitsCore 3 ∧ state.current 0 = 2 ∧ state.current 1 = 4 ∧
      ∀ thread, state.sched.AwaitsCore thread → ∀ core,
        state.sched.priority thread ≤ state.sched.priority (state.current core) :=
  ⟨[.runScheduler 0, .runScheduler 1, .create 0 3 2 false, .runScheduler 1,
      .create 0 4 1 false, .wait 1, .runScheduler 1, .wakeup 0 3, .runScheduler 0,
      .call 0 (.setPriority 0), .perform 0, .restartKernel 0, .checkPendingWakeup 0,
      .runScheduler 0],
    exists_run (fun state => state.sched.AwaitsCore 3 ∧ state.current 0 = 2 ∧
      state.current 1 = 4 ∧ state.sched.holdingCore = none ∧ ¬ Pending state.sched) (by decide)
    fun state run ⟨awaits, first, second, unlocked, quiet⟩ => ⟨run, awaits, first, second,
      running_threads_are_not_outranked defaultConfig _ _ (by decide) _ _ _ state run unlocked
        quiet⟩⟩

/-! ### The scheduler with the mutexes -/

/-- A thread waits for a mutex of another one. -/
def State.WaitsFor (state : State threads cores) (waiter owner : Fin threads) : Prop :=
  ∃ id, state.sync.mutexWaiting waiter = some id ∧ (state.sync.mutex id).owner = some owner

theorem Sound.priority_le (sound : Sound config state) (unlocked : state.sched.holdingCore = none)
    {waiter owner : Fin threads} (real : Real state owner) (waits : state.WaitsFor waiter owner) :
    Real state waiter ∧ state.sched.priority waiter ≤ state.sched.priority owner := by
  obtain ⟨id, waits, owns⟩ := waits
  have waiterReal : Real state waiter := by
    rintro core rfl
    exact Sync.Pc.ne_outside ((sound.sync.waits _ id).mp waits).1 (sound.idle core)
  have inherits := sound.sync.coherent.inherits owner waiter id waits owns
  rw [sound.tracked owner real, sound.tracked waiter waiterReal,
    sound.agenda_eq_nil unlocked] at inherits
  exact ⟨waiterReal, inherits⟩

section

variable (fits : Fits support cores) (notIdle : ∀ core, idle core ≠ main)
  {labels : List (Label threads cores)} (run : Run (exec config support) TerminatesHarmlessly
    (State.initial config idle main priority recursive) labels state)
  (unlocked : state.sched.holdingCore = none) (quiet : ¬ Pending state.sched)
  {owner : Fin threads} (ready : state.sched.AwaitsCore owner) (core : Fin cores)
include fits notIdle run unlocked quiet ready

/-- Where nothing is pending and no lock is held, no core idles while a thread is ready. -/
theorem no_core_idles (other : Fin cores) : state.current core ≠ state.sched.idle other := by
  have sound : Sound config state :=
    reachable_sound fits (fun _ target harmless => harmless target rfl) notIdle run
  have settled := sound.settled unlocked quiet owner ready core
  have valid := of_decide_eq_true (sound.sched.valid owner ready.1)
  intro same
  rw [show state.sched.running core = _ from same, sound.sched.idle, idlePriority] at settled
  omega

/-- There, no core runs a thread that is outranked by one that is ready, nor by one that waits for
it over mutexes and their owners. -/
theorem no_priority_inversion {waiter : Fin threads}
    (waits : Relation.ReflTransGen state.WaitsFor waiter owner) :
    state.sched.priority waiter ≤ state.sched.priority (state.current core) := by
  have sound : Sound config state :=
    reachable_sound fits (fun _ target harmless => harmless target rfl) notIdle run
  have lent : Real state waiter ∧ state.sched.priority waiter ≤ state.sched.priority owner := by
    -- The chain is followed from the thread that is ready to the one that waits.
    induction waits using Relation.ReflTransGen.head_induction_on with
    | refl => exact ⟨ready.1.2, le_rfl⟩
    | head waits _ inductionHypothesis =>
      obtain ⟨real, lower⟩ := sound.priority_le unlocked inductionHypothesis.1 waits
      exact ⟨real, lower.trans inductionHypothesis.2⟩
  exact lent.2.trans (sound.settled unlocked quiet owner ready core)

end

/-- The main thread, 1, creates thread 2 of its own priority. -/
theorem no_core_idles_created : ∃ state : State 3 1,
    Run (exec defaultConfig .single) TerminatesHarmlessly
      (State.initial defaultConfig (fun _ => 0) 1 (1 : Fin 4) fun _ => false)
      [.runScheduler 0, .create 0 2 1 false] state ∧ state.current 0 ≠ state.sched.idle 0 :=
  exists_run (fun state => state.sched.AwaitsCore 2 ∧ state.sched.holdingCore = none ∧
      ¬ Pending state.sched) (by decide) fun state run ⟨ready, unlocked, quiet⟩ =>
    ⟨run, no_core_idles (.inr ⟨rfl, rfl⟩) (by decide) run unlocked quiet ready 0 0⟩

/-- The main thread, 1, is ready and owns the mutex that thread 2 waits for. Thread 3 runs. -/
theorem no_priority_inversion_preempted : ∃ state : State 4 1,
    Run (exec defaultConfig .single) TerminatesHarmlessly
      (State.initial defaultConfig (fun _ => 0) 1 (1 : Fin 4) fun _ => false)
      [.runScheduler 0, .call 0 (.lock (.mutex 0)), .restartKernel 0, .create 0 2 2 false,
        .runScheduler 0, .call 0 (.lock (.mutex 0)), .perform 0, .perform 0, .runScheduler 0,
        .create 0 3 3 false, .runScheduler 0] state ∧
    state.sched.priority 2 ≤ state.sched.priority (state.current 0) :=
  exists_run (fun state => state.sched.AwaitsCore 1 ∧ state.sync.mutexWaiting 2 = some 0 ∧
      (state.sync.mutex 0).owner = some 1 ∧ state.sched.holdingCore = none ∧
      ¬ Pending state.sched) (by decide) fun state run ⟨ready, waits, owns, unlocked, quiet⟩ =>
      ⟨run, no_priority_inversion (.inr ⟨rfl, rfl⟩) (by decide) run unlocked quiet ready 0
        (.single ⟨0, waits, owns⟩)⟩

end Miosix.Kernel
