/-
This file is about the places of the threads of the priority scheduler, along all its runs.

A thread that is removed from an intrusive list has to be in it, so that every thread is in one
known place is a condition of safety. The invariant of the lists gives it at once.

With affinity, a thread also has to be on a core that it may run on. `Thread::setAffinity` changes
the mask of a thread wherever it is, and asks for a scheduler run where the thread is on the wrong
core. A run on the core that holds the pause kernel lock is put off: it leaves the flag
`pendingWakeup`, which is read once the lock is free. There is one flag for all cores, and another
core that takes the lock in between and gives it back takes the flag for its own.
-/

import Miosix.Sched.Affinity

namespace Miosix.PriorityScheduler

open Function Transition

variable {threads cores : Nat} {config : Config}

/-! ### One place for each thread -/

structure Bookkept (state : State threads cores) : Prop where
  registered : ∀ thread, (∃ level, thread ∈ state.ready level) ∨ thread ∈ state.notReady →
    state.Live thread
  nodup : (∀ level, (state.ready level).Nodup) ∧ state.notReady.Nodup
  placed : ∀ thread, state.Live thread →
    ((∃! core, state.running core = thread) ∧ (∀ level, thread ∉ state.ready level) ∧
      thread ∉ state.notReady) ∨
    ((∀ core, state.running core ≠ thread) ∧ (state.flags thread).isReady = true ∧
      (∀ level, thread ∈ state.ready level ↔ level = state.priority thread) ∧
      thread ∉ state.notReady) ∨
    ((∀ core, state.running core ≠ thread) ∧ (state.flags thread).isReady = false ∧
      (∀ level, thread ∉ state.ready level) ∧ thread ∈ state.notReady)

/-- A thread that an operation takes out of a list is in it. A scheduler run and `removeDeadThreads`
only take out what they have found there. -/
def RemovesListed (state : State threads cores) : Cores.Label threads cores → Prop
  | .setPriority thread _ => (∀ core, thread ≠ state.running core) →
      (state.flags thread).isReady = true → thread ∈ state.ready (state.priority thread)
  | .unblock thread unblocking => (∀ core, state.running core ≠ thread) →
      (state.flags thread).isReady = false →
        ((state.flags thread).unset unblocking).isReady = true → thread ∈ state.notReady
  | _ => True

variable {state : State threads cores} {thread : Fin threads} {core : Fin cores}
  {extraChecks : ExtraChecks} {label : Cores.Label threads cores}

section

variable (sound : Sound config state)
include sound

theorem Sound.mem_ready_iff {level : Int} :
    thread ∈ state.ready level ↔ state.AwaitsCore thread ∧ state.priority thread = level := by
  rw [← sound.cores.queued_iff]
  exact sound.arranged.mem_iff level thread

theorem Sound.bookkept : Bookkept state := by
  refine ⟨fun thread listed => ?_, ⟨sound.arranged.nodup, sound.cores.filed.nodup⟩,
    fun thread live => ?_⟩
  · rcases listed with ⟨level, ready⟩ | notReady
    · exact (sound.mem_ready_iff.mp ready).1.1
    · exact (sound.cores.mem_notReady_iff.mp notReady).1
  simp only [sound.mem_ready_iff, sound.cores.mem_notReady_iff, Cores.AwaitsCore]
  by_cases runs : ∃ core, state.running core = thread
  · obtain ⟨core, rfl⟩ := runs
    exact .inl ⟨⟨core, rfl, fun other same => sound.cores.once other core (same ▸ live) same⟩,
      fun _ ⟨⟨_, _, off⟩, _⟩ => off core rfl, fun ⟨_, _, off⟩ => off core rfl⟩
  · have off := not_exists.mp runs
    cases ready : (state.flags thread).isReady with
    | true => exact .inr (.inl ⟨off, rfl, fun level => by simp [live, off, eq_comm], by simp⟩)
    | false => exact .inr (.inr ⟨off, rfl, by simp, live, rfl, off⟩)

theorem Sound.removesListed {support : CoreSupport} {next : State threads cores}
    (stepped : exec config extraChecks support state label = some next) :
    RemovesListed state label := by
  cases label with
  | setPriority thread newPriority =>
    obtain ⟨⟨live, -⟩, -⟩ := Option.ite_none_right_eq_some.mp stepped
    intro off ready
    exact sound.mem_ready_iff.mpr ⟨⟨live, ready, fun core => (off core).symm⟩, rfl⟩
  | unblock thread unblocking =>
    obtain ⟨live, -⟩ := Option.ite_none_right_eq_some.mp stepped
    intro off blocked _
    exact sound.cores.mem_notReady_iff.mpr ⟨live, blocked, off⟩
  | add | block | detach | runScheduler | pauseKernel | restartKernel | removeDeadThread =>
    trivial

end

section

variable (config : Config) (extraChecks : ExtraChecks) (state : State threads cores)

/-- Whatever is done with the threads, each is in one place, and none is removed from a list it is
not in. -/
theorem threads_are_in_one_place (support : CoreSupport) (idle : Fin cores → Fin threads)
    (labels : List (Cores.Label threads cores)) (state : State threads cores)
    (run : Run (exec config extraChecks support) unrestricted (.initial idle) labels state) :
    Bookkept state ∧ ∀ label next, exec config extraChecks support state label = some next →
      RemovesListed state label := by
  have sound : Sound config state := run.invariant (Sound config) (fun _ _ _ sound _ => sound.step)
      (initial_sound idle)
  exact ⟨sound.bookkept, fun label next => sound.removesListed⟩

/-- Thread 2 waits and is woken before the scheduler runs, and its priority changes meanwhile. -/
theorem threads_are_in_one_place_woken_early : ∃ state : State 3 2,
    Run (exec defaultConfig .none .smpWithAffinity) unrestricted
      (.initial fun core => core.castLE (by decide))
      [.add 2 1 (fun _ => true) false, .runScheduler 1, .block 1 .wait, .setPriority 2 3,
        .unblock 2 .wait, .runScheduler 1] state ∧ state.running 1 = 2 ∧ Bookkept state :=
  exists_run (fun state => state.running 1 = 2) (by decide)
    fun state run woken => ⟨run, woken, (threads_are_in_one_place _ _ _ _ _ state run).1⟩

/-! ### Affinity -/

def setAffinity (thread : Fin threads)
    (affinity : Fin cores → Bool) : State threads cores :=
  let changed := { state with affinity := update state.affinity thread affinity }
  match (List.finRange cores).find? fun core => decide (state.running core = thread) with
  | some core => if affinity core then changed else changed.request core
  | none => changed

/-- The end of the pause kernel lock is two steps here: the lock is given back, and then the flag is
read. In between, others may take the lock. -/
inductive Action (threads cores : Nat) where
  | step (label : Cores.Label threads cores)
  | setAffinity (thread : Fin threads) (affinity : Fin cores → Bool)
  | invoke (core : Fin cores)
  | PKwakeup
  | unlock (core : Fin cores)
  | checkPendingWakeup (core : Fin cores)

/-- The mask that is set is not empty. Other parts of the kernel may ask for a scheduler run, and
set the flag when they wake a thread with the lock held. -/
def perform :
    Action threads cores → Option (State threads cores)
  | .step (.restartKernel _) => none
  | .step label => exec config extraChecks .smpWithAffinity state label
  | .setAffinity thread affinity =>
      if state.Live thread ∧ ∃ core, affinity core = true then
        some (setAffinity state thread affinity)
      else none
  | .invoke core => some (state.request core)
  | .PKwakeup => some { state with pendingWakeup := true }
  | .unlock core =>
      if state.holdingCore = some core then some { state with holdingCore := none } else none
  | .checkPendingWakeup core =>
      if state.pendingWakeup then some ({ state with pendingWakeup := false }.request core)
      else some state

/-- The cores whose last scheduler run was put off. -/
def putOff (deferred : Fin cores → Bool) (state : State threads cores) :
    Action threads cores → State threads cores → Fin cores → Bool
  | .step (.runScheduler core), _ =>
      update deferred core (decide (state.holdingCore = some core))
  | _, _ => deferred

/-- A thread is on a core that it may run on, or a scheduler run is pending there: it was requested,
or put off until the flag is read. -/
def AffinityKept (deferred : Fin cores → Bool) : Prop :=
  ∀ core, state.requested core = false → ¬ (state.pendingWakeup = true ∧ deferred core = true) →
    state.running core ≠ state.idle core → state.affinity (state.running core) core = true

end

/-- A core that finds the flag set is the only one whose run was put off. -/
def OwnWakeup (observed : State threads cores × (Fin cores → Bool)) :
    Action threads cores → Prop
  | .checkPendingWakeup core => observed.1.pendingWakeup = true →
      ∀ other, observed.2 other = true → other = core
  | _ => True

variable {deferred : Fin cores → Bool} {next : State threads cores}

section

variable (kept : AffinityKept state deferred)

include kept

theorem AffinityKept.frame
    (running : next.running = state.running) (idle : next.idle = state.idle)
    (requested : ∀ core, state.requested core = true → next.requested core = true)
    (pending : state.pendingWakeup = true → next.pendingWakeup = true)
    (affinity : ∀ core, next.requested core = false →
      state.affinity (state.running core) core = true →
        next.affinity (state.running core) core = true) :
    AffinityKept next deferred := by
  intro core unrequested settled busy
  rw [running] at busy ⊢
  refine affinity core unrequested (kept core ?_ (fun ⟨set, off⟩ => settled ⟨pending set, off⟩)
    (idle ▸ busy))
  rw [← Bool.not_eq_true] at unrequested ⊢
  exact mt (requested core) unrequested

theorem AffinityKept.invoke (found : Option (Fin cores)) :
    AffinityKept (state.invoke found) deferred := by
  cases found with
  | none => exact kept
  | some other =>
    exact kept.frame rfl rfl
      (fun core requested => (requested_invoke state (some other)).mpr (.inl requested)) id
      fun _ _ => id

/-- A run that is not put off leaves the own core with a thread that may run there. -/
theorem AffinityKept.select (core : Fin cores) (off : Bool) :
    AffinityKept ({ (state.requeue core).select config core with
      requested := update state.requested core false } : State threads cores)
      (update deferred core off) := by
  intro other unrequested settled busy
  have same : (state.requeue core).running = state.running ∧
      (state.requeue core).idle = state.idle ∧ (state.requeue core).affinity = state.affinity ∧
      (state.requeue core).pendingWakeup = state.pendingWakeup := by
    simp only [State.requeue]
    split_ifs <;> exact ⟨rfl, rfl, rfl, rfl⟩
  obtain ⟨running, idle, affinity, pendingWakeup⟩ := same
  by_cases own : other = core
  · subst own
    unfold State.select at busy ⊢
    split at busy
    · rename_i next first
      have allowed := List.find?_some first
      simpa [first, Cores.setRunning] using allowed
    · simp [Cores.setRunning] at busy
  · have kinds : ((state.requeue core).select config core).idle = state.idle ∧
        ((state.requeue core).select config core).pendingWakeup = state.pendingWakeup := by
      rw [← idle, ← pendingWakeup]
      unfold State.select
      split <;> exact ⟨rfl, rfl⟩
    simp only [select_running_of_ne own, select_affinity, kinds, running, affinity,
      update_of_ne own] at unrequested settled busy ⊢
    exact kept other unrequested settled busy

end

section

variable (sound : Sound config state) (kept : AffinityKept state deferred)

include sound kept

theorem AffinityKept.runScheduler
    (core : Fin cores) : AffinityKept (IRQrunScheduler config .smpWithAffinity state core)
      (update deferred core (decide (state.holdingCore = some core))) := by
  by_cases paused : state.holdingCore = some core
  · simp only [IRQrunScheduler, if_pos paused, decide_eq_true paused]
    intro other
    by_cases same : other = core
    · simp [same]
    · simpa [same] using fun unrequested unset => kept other unrequested (by simp [unset])
  · rw [show IRQrunScheduler config .smpWithAffinity state core = _ from
      sound.runScheduler_eq paused state.requested]
    exact (kept.select core _).invoke _

theorem AffinityKept.setAffinity
    (affinity : Fin cores → Bool) (live : state.Live thread) :
    AffinityKept (setAffinity state thread affinity) deferred := by
  have elsewhere (core : Fin cores) (different : state.running core ≠ thread)
      (before : state.affinity (state.running core) core = true) :
      update state.affinity thread affinity (state.running core) core = true := by
    rwa [update_of_ne different]
  simp only [PriorityScheduler.setAffinity]
  split
  · rename_i core found
    have runs : state.running core = thread := by simpa using List.find?_some found
    have others (other : Fin cores) (different : other ≠ core) := elsewhere other fun same =>
      different (sound.cores.once other core (same ▸ live) (same.trans runs.symm))
    split
    · rename_i allowed
      refine kept.frame rfl rfl (fun _ => id) id fun other _ before => ?_
      by_cases own : other = core
      · simpa [own, runs] using allowed
      · exact others other own before
    · refine kept.frame rfl rfl (fun other => ?_) id fun other unrequested before => ?_
      · exact fun requested => (requested_invoke state (some core)).mpr (.inl requested)
      · by_cases own : other = core
        · simp [own, State.request, Cores.request] at unrequested
        · exact others other own before
  · rename_i absent
    refine kept.frame rfl rfl (fun _ => id) id fun core _ before => ?_
    exact elsewhere core
      (by simpa using List.find?_eq_none.mp absent core (List.mem_finRange core)) before

theorem AffinityKept.step
    (notRestart : ∀ core, label ≠ .restartKernel core) (notRun : ∀ core, label ≠ .runScheduler core)
    (stepped : exec config extraChecks .smpWithAffinity state label = some next) :
    AffinityKept next deferred := by
  cases label with
  | add thread priority affinity waiting =>
    obtain ⟨⟨unallocated, notIdle, -⟩, rfl⟩ := of_guard stepped
    have off := Cores.off_iff.mp
      (sound.cores.off_of_not_live (Cores.not_live_of_unallocated unallocated) notIdle)
    have same (core : Fin cores) := update_of_ne (off core) affinity state.affinity
    simp only [State.addNew, IRQaddThread]
    split <;> exact kept.frame rfl rfl (fun _ => id) id fun core _ before =>
      (congrFun (same core) core).trans before
  | setPriority thread newPriority =>
    obtain ⟨-, rfl⟩ := of_guard stepped
    simp only [IRQsetPriority]
    split_ifs <;> exact kept
  | block core blocking =>
    obtain ⟨shared, taken, rfl⟩ := Option.map_eq_some_iff.mp stepped
    obtain ⟨-, rfl⟩ := of_guard taken
    exact AffinityKept.invoke kept (some core)
  | unblock thread unblocking =>
    obtain ⟨-, rfl⟩ := of_guard stepped
    simp only [IRQclear, IRQwokenThread]
    split_ifs <;> exact kept
  | detach | pauseKernel =>
    obtain ⟨shared, taken, rfl⟩ := Option.map_eq_some_iff.mp stepped
    obtain ⟨-, rfl⟩ := of_guard taken
    exact kept
  | runScheduler core => exact absurd rfl (notRun core)
  | restartKernel core => exact absurd rfl (notRestart core)
  | removeDeadThread =>
    obtain ⟨removed, taken, rfl⟩ := Option.map_eq_some_iff.mp stepped
    obtain ⟨dead, -, rfl, -⟩ := Cores.removeDeadThread_eq_some taken
    exact kept

end

theorem perform_step (notRestart : ∀ core, label ≠ .restartKernel core) :
    perform config extraChecks state (.step label) =
      exec config extraChecks .smpWithAffinity state label := by
  cases label with
  | restartKernel core => exact absurd rfl (notRestart core)
  | _ => rfl

theorem AffinityKept.perform {action : Action threads cores}
    (sound : Sound config state) (kept : AffinityKept state deferred)
    (own : OwnWakeup (state, deferred) action)
    (performed : perform config extraChecks state action = some next) :
    Sound config next ∧ AffinityKept next (putOff deferred state action next) := by
  cases action with
  | step label =>
    cases label with
    | restartKernel core => cases performed
    | runScheduler core =>
      cases performed
      exact ⟨sound.runScheduler _ core, kept.runScheduler sound core⟩
    | add | setPriority | block | unblock | detach | pauseKernel | removeDeadThread =>
      rw [perform_step (by simp)] at performed
      exact ⟨sound.step performed, kept.step sound (by simp) (by simp) performed⟩
  | setAffinity thread affinity =>
    obtain ⟨⟨live, -⟩, rfl⟩ := of_guard performed
    refine ⟨?_, kept.setAffinity sound affinity live⟩
    simp only [PriorityScheduler.setAffinity]
    split
    · split <;> exact sound.withRequests
    · exact sound.withRequests
  | invoke core =>
    cases performed
    exact ⟨sound.request core, kept.invoke (some core)⟩
  | PKwakeup =>
    cases performed
    exact ⟨sound.withRequests, kept.frame rfl rfl (fun _ => id) (fun _ => rfl) fun _ _ => id⟩
  | unlock core =>
    obtain ⟨-, rfl⟩ := of_guard performed
    exact ⟨sound.withRequests, kept⟩
  | checkPendingWakeup core =>
    simp only [PriorityScheduler.perform] at performed
    split at performed
    · rename_i set
      cases performed
      refine ⟨sound.withRequests, fun other unrequested _ busy => ?_⟩
      have different : other ≠ core := by
        rintro rfl
        simp [State.request, Cores.request] at unrequested
      refine kept other ?_ (fun pending => different (own set other pending.2)) busy
      simpa [State.request, Cores.request, different] using unrequested
    · cases performed
      exact ⟨sound, kept⟩

/-- While every core takes the flag only for its own run, a thread whose core has no scheduler run
pending is on a core that it may run on. -/
theorem threads_respect_affinity (config : Config) (extraChecks : ExtraChecks)
    (idle : Fin cores → Fin threads) (actions : List (Action threads cores))
    (state : State threads cores) (deferred : Fin cores → Bool)
    (run : Run (observing (perform config extraChecks) putOff) OwnWakeup
      (.initial idle, fun _ => false) actions (state, deferred)) :
    AffinityKept state deferred := by
  exact (run.observed (fun state deferred => Sound config state ∧ AffinityKept state deferred)
    (fun _ _ _ _ held own performed => held.2.perform held.1 own performed)
    ⟨initial_sound idle, fun core _ _ => absurd rfl⟩).2

instance (observed : State threads cores × (Fin cores → Bool)) : DecidablePred (OwnWakeup observed)
  | .checkPendingWakeup _ => inferInstanceAs (Decidable (_ → _))
  | .step _ | .setAffinity .. | .invoke _ | .PKwakeup | .unlock _ =>
      inferInstanceAs (Decidable True)

/-- A thread runs with the lock held, and another one on a second core, when the mask of the first
is changed to the second core. The scheduler run on the first core is put off. -/
def maskChanged (one two : Fin cores) (moved other : Fin threads) : List (Action threads cores) :=
  [.step (.add moved 1 (fun _ => true) false), .step (.runScheduler one),
    .step (.add other 1 (fun _ => true) false), .step (.runScheduler two), .step (.pauseKernel one),
    .setAffinity moved (fun core => decide (core = two)), .step (.runScheduler one), .unlock one]

theorem threads_respect_affinity_moved : ∃ (state : State 4 2) (deferred : Fin 2 → Bool),
    Run (observing (perform defaultConfig .none) putOff) OwnWakeup
      (.initial fun core => core.castLE (by decide), fun _ => false)
      (maskChanged 0 1 2 3 ++ [.checkPendingWakeup 0, .step (.runScheduler 0)]) (state, deferred) ∧
    state.running 0 = 0 ∧ state.requested 1 = true ∧ AffinityKept state deferred :=
  exists_observed (fun state _ => state.running 0 = 0 ∧ state.requested 1 = true) (by decide)
    fun state deferred run ⟨moved, requested⟩ => ⟨run, moved, requested,
      threads_respect_affinity _ _ _ _ state deferred run⟩

/-- Core 1 takes the lock and gives it back before thread 2 reads the flag. The scheduler then runs
on core 1, and thread 2 goes on on core 0. -/
theorem wakeup_is_taken : ∃ (state : State 4 2) (deferred : Fin 2 → Bool),
    Run (observing (perform defaultConfig .none) putOff) unrestricted
      (.initial fun core => core.castLE (by decide), fun _ => false)
      (maskChanged 0 1 2 3 ++ [.step (.pauseKernel 1), .unlock 1, .checkPendingWakeup 1,
        .checkPendingWakeup 0]) (state, deferred) ∧
    state.running 0 = 2 ∧ state.affinity 2 0 = false ∧ state.requested 0 = false ∧
      state.pendingWakeup = false ∧ ¬ AffinityKept state deferred := by
  refine exists_observed (fun state _ => state.running 0 = 2 ∧ state.affinity 2 0 = false ∧
    state.requested 0 = false ∧ state.pendingWakeup = false ∧ state.idle 0 = 0) (by decide)
    fun state deferred run ⟨running, refused, unrequested, unset, idle⟩ =>
      ⟨run, running, refused, unrequested, unset, fun kept => ?_⟩
  have allowed := kept 0 unrequested (fun ⟨set, _⟩ => by cases unset.symm.trans set)
    (by rw [running, idle]; decide)
  rw [running, refused] at allowed
  cases allowed

end Miosix.PriorityScheduler
