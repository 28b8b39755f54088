/-
This file proves where the EDF scheduler keeps each thread.

The ready threads of the default priority are in one queue and those with a deadline in the
other, sorted by it. Every step keeps this, except for `IRQsetPriority` on a ready thread
whose old or new priority is the default one: it changes the value and leaves the thread in
its queue. The queues are right in every run where that call does not switch a ready thread
between the default priority and a deadline.
-/

import Miosix.Sched.Edf
import Miosix.Sched.Slots

namespace Miosix.EDFScheduler

open Transition Function List

variable {threads cores : Nat}

/-! ### The two ready queues -/

def State.Queued (state : State threads cores) (thread : Fin threads) : Prop :=
  thread ∈ state.readyRr ∨ thread ∈ state.readyEdf

/-- Each queue holds threads of its kind, once, and the deadlines are in order. -/
structure Arranged (state : State threads cores) : Prop where
  inTurn : ∀ thread ∈ state.readyRr, state.deadline thread = defaultDeadline
  timed : ∀ thread ∈ state.readyEdf, state.deadline thread ≠ defaultDeadline
  nodupRr : state.readyRr.Nodup
  nodupEdf : state.readyEdf.Nodup
  sorted : TimeQueue.Sorted state.deadline state.readyEdf

variable {state : State threads cores} {thread : Fin threads} {core : Fin cores} {newPriority : Int}
  {extraChecks : ExtraChecks} {support : CoreSupport} {next : Fin threads}

section

variable (arranged : Arranged state)
include arranged

theorem Arranged.mem_readyRr_iff : thread ∈ state.readyRr ↔
      state.Queued thread ∧ state.deadline thread = defaultDeadline := by
  refine ⟨fun listed => ⟨.inl listed, arranged.inTurn thread listed⟩, fun ⟨queued, default⟩ => ?_⟩
  exact queued.resolve_right fun listed => arranged.timed thread listed default

theorem Arranged.mem_readyEdf_iff : thread ∈ state.readyEdf ↔
      state.Queued thread ∧ state.deadline thread ≠ defaultDeadline := by
  refine ⟨fun listed => ⟨.inr listed, arranged.timed thread listed⟩, fun ⟨queued, special⟩ => ?_⟩
  exact queued.resolve_left fun listed => special (arranged.inTurn thread listed)

theorem Arranged.withCores (next : Cores threads cores) : Arranged { state with toCores := next } :=
  { arranged with }

/-- The value of a thread that is in neither queue does not matter. -/
theorem Arranged.revalue (unqueued : ¬ state.Queued thread) (newPriority : Int) :
    Arranged { state with deadline := update state.deadline thread newPriority } := by
  have same : ∀ other, state.Queued other →
      update state.deadline thread newPriority other = state.deadline other := by
    intro other queued
    refine update_of_ne ?_ _ _
    rintro rfl
    exact unqueued queued
  exact
    { arranged with
      inTurn := fun other listed => (same other (.inl listed)).trans (arranged.inTurn other listed)
      timed := fun other listed default =>
        arranged.timed other listed ((same other (.inr listed)).symm.trans default)
      sorted := arranged.sorted.congr fun other listed => same other (.inr listed) }

end

theorem enqueue_toCores : (state.enqueue thread).toCores = state.toCores := by
  unfold State.enqueue
  split <;> rfl

theorem enqueue_deadline : (state.enqueue thread).deadline = state.deadline := by
  unfold State.enqueue
  split <;> rfl

theorem queued_enqueue (other : Fin threads) :
    (state.enqueue thread).Queued other ↔ state.Queued other ∨ other = thread := by
  unfold State.enqueue State.Queued
  split
  · simp only [mem_append, mem_singleton]
    tauto
  · simp only [TimeQueue.mem_enqueue]
    tauto

section

variable (arranged : Arranged state)
include arranged

theorem Arranged.enqueue (fresh : ¬ state.Queued thread) : Arranged (state.enqueue thread) := by
  have absentRr : thread ∉ state.readyRr := fun listed => fresh (.inl listed)
  have absentEdf : thread ∉ state.readyEdf := fun listed => fresh (.inr listed)
  unfold State.enqueue
  split
  · rename_i default
    refine { arranged with inTurn := fun other listed => ?_, nodupRr := ?_ }
    · rcases mem_append.mp listed with queued | last
      · exact arranged.inTurn other queued
      · rw [mem_singleton.mp last]
        exact default
    · exact (perm_append_singleton thread _).nodup_iff.mpr
        (nodup_cons.mpr ⟨absentRr, arranged.nodupRr⟩)
  · rename_i special
    refine ⟨arranged.inTurn, fun other listed => ?_, arranged.nodupRr, ?_,
      arranged.sorted.enqueue thread⟩
    · rcases TimeQueue.mem_enqueue.mp listed with rfl | queued
      · exact special
      · exact arranged.timed other queued
    · exact (TimeQueue.perm_enqueue _ _ thread).nodup_iff.mpr
        (nodup_cons.mpr ⟨absentEdf, arranged.nodupEdf⟩)

theorem Arranged.takeRr : Arranged { state with readyRr := state.readyRr.erase thread } :=
  { arranged with
  inTurn := fun other listed => arranged.inTurn other (mem_of_mem_erase listed)
  nodupRr := arranged.nodupRr.erase thread }

theorem Arranged.takeEdf : Arranged { state with readyEdf := state.readyEdf.erase thread } :=
  { arranged with
  timed := fun other listed => arranged.timed other (mem_of_mem_erase listed)
  nodupEdf := arranged.nodupEdf.erase thread
  sorted := arranged.sorted.sublist erase_sublist }

theorem Arranged.queued_takeRr (listed : thread ∈ state.readyRr) (other : Fin threads) :
    State.Queued { state with readyRr := state.readyRr.erase thread } other ↔
      state.Queued other ∧ other ≠ thread := by
  have apart : thread ∉ state.readyEdf := fun timed =>
    arranged.timed thread timed (arranged.inTurn thread listed)
  show other ∈ state.readyRr.erase thread ∨ other ∈ state.readyEdf ↔ _
  rw [arranged.nodupRr.mem_erase_iff, State.Queued]
  by_cases same : other = thread
  · simp [same, apart]
  · simp [same]

theorem Arranged.queued_takeEdf (listed : thread ∈ state.readyEdf) (other : Fin threads) :
    State.Queued { state with readyEdf := state.readyEdf.erase thread } other ↔
      state.Queued other ∧ other ≠ thread := by
  have apart : thread ∉ state.readyRr := fun inTurn =>
    arranged.timed thread listed (arranged.inTurn thread inTurn)
  show other ∈ state.readyRr ∨ other ∈ state.readyEdf.erase thread ↔ _
  rw [arranged.nodupEdf.mem_erase_iff, State.Queued]
  by_cases same : other = thread
  · simp [same, apart]
  · simp [same]

end

/-! ### The invariant -/

structure Sound (state : State threads cores) : Prop where
  cores : state.toCores.Sound state.Queued
  arranged : Arranged state

theorem initial_sound (idle : Fin cores → Fin threads) : Sound (State.initial idle) where
  cores := Cores.sound_of_unallocated (fun _ => rfl) (fun _ => rfl) rfl
    (by simp [State.Queued, State.initial])
  arranged := by
    constructor <;> simp [State.initial, TimeQueue.Sorted]

/-- A step that touches only the part of the state every scheduler has. -/
theorem Sound.withCores (sound : Sound state) {next : Cores threads cores}
    (kept : next.Sound state.Queued) : Sound { state with toCores := next } :=
  ⟨kept, sound.arranged.withCores next⟩

/-- A thread is put in a ready queue in a step that makes it ready. -/
theorem Arranged.sound_enqueue (arranged : Arranged state) (fresh : ¬ state.Queued thread)
    (kept : ∀ queuedAfter : Fin threads → Prop,
      (∀ other, queuedAfter other ↔ state.Queued other ∨ other = thread) →
        state.toCores.Sound queuedAfter) : Sound (state.enqueue thread) where
  cores := by
    rw [enqueue_toCores]
    exact kept _ queued_enqueue
  arranged := arranged.enqueue fresh

theorem Sound.add (sound : Sound state) (unallocated : state.allocated thread = false)
    (notIdle : ∀ core, state.idle core ≠ thread) (priority : Int) (affinity : Fin cores → Bool)
    (waiting : Bool) :
    Sound (IRQaddThread { state with toCores := state.create thread affinity waiting } thread
      priority) := by
  have dead := Cores.not_live_of_unallocated unallocated
  have unqueued : ¬ state.Queued thread := (sound.cores.unlisted dead).1
  have revalued := sound.arranged.revalue unqueued priority
  cases waiting with
  | true =>
    have waits : ((state.create thread affinity true).flags thread).isReady = false :=
      Cores.isReady_create
    simp only [IRQaddThread, if_pos waits]
    exact ⟨sound.cores.addWaiting unallocated notIdle affinity, revalued.withCores _⟩
  | false =>
    have ready : ¬ ((state.create thread affinity false).flags thread).isReady = false := by
      rw [Cores.isReady_create]
      decide
    simp only [IRQaddThread, if_neg ready]
    exact (revalued.withCores (state.create thread affinity false)).sound_enqueue unqueued
      fun _ => sound.cores.addReady unallocated notIdle affinity

/-- `IRQsetPriority` does not switch a ready thread that waits for a core between the default
priority and a deadline. -/
def Steady (state : State threads cores) : Cores.Label threads cores → Prop
  | .setPriority thread newPriority => (∀ core, state.running core ≠ thread) →
      (state.flags thread).isReady = true →
        (state.deadline thread = defaultDeadline ↔ newPriority = defaultDeadline)
  | _ => True

instance (state : State threads cores) (label : Cores.Label threads cores) :
    Decidable (Steady state label) :=
  match label with
  | .setPriority _ _ => inferInstanceAs (Decidable (_ → _ → (_ ↔ _)))
  | .add _ _ _ _ | .block _ _ | .unblock _ _ | .detach _ | .runScheduler _ | .pauseKernel _
  | .restartKernel _ | .removeDeadThread => inferInstanceAs (Decidable True)

section

variable (sound : Sound state)
include sound

theorem Sound.revalue (unqueued : ¬ state.Queued thread) (newPriority : Int) :
    Sound { state with deadline := update state.deadline thread newPriority } :=
  ⟨sound.cores, sound.arranged.revalue unqueued newPriority⟩

/-- A thread with a deadline gets another one and a new place in the queue. -/
theorem Sound.postpone (listed : thread ∈ state.readyEdf)
    (special : newPriority ≠ defaultDeadline) : Sound { state with
      deadline := update state.deadline thread newPriority
      readyEdf := TimeQueue.enqueue (update state.deadline thread newPriority)
        (state.readyEdf.erase thread) thread } := by
  have taken := sound.arranged.queued_takeEdf listed
  have unqueued : ¬ State.Queued { state with readyEdf := state.readyEdf.erase thread } thread :=
    fun queued => ((taken thread).mp queued).2 rfl
  have revalued := sound.arranged.takeEdf.revalue unqueued newPriority
  have placed := revalued.sound_enqueue unqueued fun queuedAfter grown => by
    refine sound.cores.congr fun other =>
      (grown other).trans ((or_congr_left (taken other)).trans ?_)
    by_cases same : other = thread
    · simp [same, State.Queued, listed]
    · simp [same]
  simpa [State.enqueue, special] using placed

theorem Sound.setPriority (live : state.Live thread)
    (steady : Steady state (.setPriority thread newPriority)) :
    Sound (IRQsetPriority state thread newPriority) := by
  simp only [IRQsetPriority]
  split
  · rename_i running
    obtain ⟨core, rfl⟩ := running
    exact sound.revalue (sound.cores.running_unlisted core).1 newPriority
  rename_i stopped
  have off : ∀ core, state.running core ≠ thread := fun core same => stopped ⟨core, same.symm⟩
  split
  · rename_i unready
    exact sound.revalue (sound.cores.not_queued_of_unready unready) newPriority
  rename_i ready
  have ready : (state.flags thread).isReady = true := by simpa using ready
  split
  · rename_i someRR
    have both := steady off ready
    have same : newPriority = state.deadline thread := by
      rcases someRR with old | new
      · rw [both.mp (of_decide_eq_true old), of_decide_eq_true old]
      · rw [both.mpr (of_decide_eq_true new), of_decide_eq_true new]
    rw [same, update_eq_self]
    exact sound
  · rename_i neither
    rw [not_or, decide_eq_true_eq, decide_eq_true_eq] at neither
    simp only [neither.1, neither.2, decide_false, Bool.false_eq_true, if_false]
    have queued := (sound.cores.queued_iff thread).mpr ⟨live, ready, off⟩
    exact sound.postpone (sound.arranged.mem_readyEdf_iff.mpr ⟨queued, neither.1⟩) neither.2

theorem Sound.woken (live : state.Live thread)
    (waiting : (state.flags thread).isReady = false) {flags : ThreadFlags}
    (ready : flags.isReady = true) :
    Sound (IRQwokenThread (state.setFlags thread flags) thread) := by
  unfold IRQwokenThread
  split
  · rename_i running
    exact sound.withCores (sound.cores.setFlags (.inl running))
  · rename_i stopped
    have unqueued := sound.cores.not_queued_of_unready waiting
    exact (sound.arranged.withCores _).sound_enqueue unqueued
      fun _ => sound.cores.wake live stopped ready

theorem Sound.unblock (live : state.Live thread) (unblocking : Unblocking) :
    Sound (IRQclear state thread unblocking) := by
  simp only [IRQclear]
  split
  · rename_i wakes
    exact sound.woken live wakes.1 wakes.2
  · rename_i stays
    exact sound.withCores (sound.cores.setFlags (.inr (ThreadFlags.isReady_unset stays)))

end

/-! ### The scheduler run -/

/-- The previously running thread has been put in a list, and nothing runs on this core yet. -/
structure Vacated (state : State threads cores) (core : Fin cores) : Prop where
  cores : state.toCores.Vacated core state.Queued
  arranged : Arranged state

theorem Sound.requeue (sound : Sound state) (core : Fin cores) :
    Vacated (state.requeue core) core := by
  simp only [State.requeue]
  split
  · rename_i idle
    exact ⟨sound.cores.vacateIdle idle, sound.arranged⟩
  rename_i busy
  split
  · rename_i zombie
    exact ⟨sound.cores.vacateAside busy (ThreadFlags.not_ready_of_zombie zombie)
      (perm_append_singleton _ _), sound.arranged.withCores _⟩
  split
  · rename_i unready
    exact ⟨sound.cores.vacateAside busy unready (List.Perm.refl _), sound.arranged.withCores _⟩
  · rename_i ready
    refine ⟨?_, sound.arranged.enqueue (sound.cores.running_unlisted core).1⟩
    rw [enqueue_toCores]
    exact sound.cores.vacateReady busy (by simpa using ready) queued_enqueue

section

variable (vacated : Vacated state core)
include vacated

theorem Vacated.runEdf (listed : next ∈ state.readyEdf) : Sound { state with
      readyEdf := state.readyEdf.erase next
      toCores := state.setRunning core next } :=
  ⟨vacated.cores.dispatch (.inr (.inr listed)) (vacated.arranged.queued_takeEdf listed),
    vacated.arranged.takeEdf.withCores _⟩

theorem Vacated.runRr (listed : next ∈ state.readyRr) : Sound { state with
      readyRr := state.readyRr.erase next
      toCores := state.setRunning core next } :=
  ⟨vacated.cores.dispatch (.inr (.inl listed)) (vacated.arranged.queued_takeRr listed),
    vacated.arranged.takeRr.withCores _⟩

theorem Vacated.runIdle : Sound { state with toCores := state.setRunning core (state.idle core) } :=
  ⟨vacated.cores.dispatchIdle, vacated.arranged.withCores _⟩

theorem Vacated.dequeue : Sound (state.dequeue core) := by
  unfold State.dequeue
  split
  · rename_i next rest listed
    have runs := vacated.runEdf (show next ∈ state.readyEdf by simp [listed])
    simpa only [listed, erase_cons_head] using runs
  · split
    · rename_i next rest listed
      have runs := vacated.runRr (show next ∈ state.readyRr by simp [listed])
      simpa only [listed, erase_cons_head] using runs
    · exact vacated.runIdle

end

theorem Sound.invoke (sound : Sound state) (found : Option (Fin cores)) :
    Sound (state.invoke found) := by
  cases found with
  | none => exact sound
  | some core => exact sound.withCores (sound.cores.request core)

theorem Sound.reschedule (sound : Sound state) : Sound state.reschedule := by
  simp only [State.reschedule]
  split
  · exact sound
  · exact sound.invoke _

theorem Vacated.dequeueWithAffinity (vacated : Vacated state core) :
    Sound (state.dequeueWithAffinity core) := by
  refine Sound.invoke ?_ _
  rw [Scan.scan_left, Scan.scan_picked]
  cases edf : state.readyEdf.find? fun thread => state.affinity thread core with
  | some next =>
    rw [Scan.eraseP_eq_erase edf]
    simpa [Scan.Found.left] using vacated.runEdf (mem_of_find?_eq_some edf)
  | none =>
    rw [eraseP_of_forall_not (by simpa using edf)]
    rw [Scan.scan_left, Scan.scan_picked]
    cases rr : state.readyRr.find? fun thread => state.affinity thread core with
    | some next =>
      rw [Scan.eraseP_eq_erase rr]
      exact vacated.runRr (mem_of_find?_eq_some rr)
    | none =>
      rw [eraseP_of_forall_not (by simpa using rr)]
      exact vacated.runIdle

theorem Sound.runScheduler (sound : Sound state) (support : CoreSupport) (core : Fin cores) :
    Sound (IRQrunScheduler support state core) := by
  have started : Sound { state with
      requested := update state.requested core false } :=
    sound.withCores sound.cores.withRequests
  simp only [IRQrunScheduler]
  split
  · exact started.withCores started.cores.withRequests
  · have vacated := started.requeue core
    cases support with
    | single => exact vacated.dequeue
    | smp => exact vacated.dequeue.reschedule
    | smpWithAffinity => exact vacated.dequeueWithAffinity

theorem Sound.step {next : State threads cores} {label : Cores.Label threads cores}
    (sound : Sound state) (steady : Steady state label)
    (stepped : exec extraChecks support state label = some next) : Sound next := by
  cases label with
  | add thread priority affinity waiting =>
    obtain ⟨⟨unallocated, notIdle, -⟩, rfl⟩ := of_guard stepped
    exact sound.add unallocated notIdle priority affinity waiting
  | setPriority thread newPriority =>
    obtain ⟨⟨live, -⟩, rfl⟩ := of_guard stepped
    exact sound.setPriority live steady
  | unblock thread unblocking =>
    obtain ⟨live, rfl⟩ := of_guard stepped
    exact sound.unblock live unblocking
  | runScheduler core =>
    obtain ⟨⟩ := stepped
    exact sound.runScheduler support core
  | block | detach | pauseKernel | restartKernel | removeDeadThread =>
    obtain ⟨shared, taken, rfl⟩ := Option.map_eq_some_iff.mp stepped
    exact sound.withCores (sound.cores.step taken)

/-! ### The queues are right -/

inductive Place (cores : Nat) where
  | running (core : Fin cores)
  | roundRobin
  | edf
  | notReady

def State.At (state : State threads cores) (thread : Fin threads) : Place cores → Prop
  | .running core => state.running core = thread
  | .roundRobin => thread ∈ state.readyRr
  | .edf => thread ∈ state.readyEdf
  | .notReady => thread ∈ state.notReady

/-- Every thread but the idle ones is in exactly one place, the two ready queues hold exactly the
ready threads that do not run, by whether they have the default priority, and the threads with
a deadline are sorted by it. -/
structure QueuesRight (state : State threads cores) : Prop where
  place : ∀ thread, state.Live thread → ∃! place, state.At thread place
  nodup : state.readyRr.Nodup ∧ state.readyEdf.Nodup ∧ state.notReady.Nodup
  roundRobin : ∀ thread, thread ∈ state.readyRr ↔ state.Live thread ∧
    (state.flags thread).isReady = true ∧ (∀ core, state.running core ≠ thread) ∧
      state.deadline thread = defaultDeadline
  edf : ∀ thread, thread ∈ state.readyEdf ↔ state.Live thread ∧
    (state.flags thread).isReady = true ∧ (∀ core, state.running core ≠ thread) ∧
      state.deadline thread ≠ defaultDeadline
  sorted : TimeQueue.Sorted state.deadline state.readyEdf

section

variable (sound : Sound state)

include sound

theorem Sound.readyRr_iff (thread : Fin threads) : thread ∈ state.readyRr ↔ state.Live thread ∧
      (state.flags thread).isReady = true ∧ (∀ core, state.running core ≠ thread) ∧
        state.deadline thread = defaultDeadline := by
  rw [sound.arranged.mem_readyRr_iff, sound.cores.queued_iff, Cores.AwaitsCore]
  tauto

theorem Sound.readyEdf_iff (thread : Fin threads) : thread ∈ state.readyEdf ↔ state.Live thread ∧
      (state.flags thread).isReady = true ∧ (∀ core, state.running core ≠ thread) ∧
        state.deadline thread ≠ defaultDeadline := by
  rw [sound.arranged.mem_readyEdf_iff, sound.cores.queued_iff, Cores.AwaitsCore]
  tauto

theorem Sound.existsUnique_place (live : state.Live thread) : ∃! place, state.At thread place := by
  have roundRobin := sound.readyRr_iff thread
  have edf := sound.readyEdf_iff thread
  have aside : thread ∈ state.notReady ↔ _ := sound.cores.mem_notReady_iff
  by_cases runs : ∃ core, state.running core = thread
  · obtain ⟨core, runs⟩ := runs
    refine ⟨.running core, runs, fun place located => ?_⟩
    cases place with
    | running other =>
      have runs' : state.running other = thread := located
      rw [sound.cores.once core other (runs ▸ live) (runs.trans runs'.symm)]
    | roundRobin => exact absurd runs ((roundRobin.mp located).2.2.1 core)
    | edf => exact absurd runs ((edf.mp located).2.2.1 core)
    | notReady => exact absurd runs ((aside.mp located).2.2 core)
  · have off : ∀ core, state.running core ≠ thread := not_exists.mp runs
    cases ready : (state.flags thread).isReady with
    | false =>
      refine ⟨.notReady, aside.mpr ⟨live, ready, off⟩, fun place located => ?_⟩
      cases place <;> simp_all [State.At]
    | true =>
      by_cases default : state.deadline thread = defaultDeadline
      · refine ⟨.roundRobin, roundRobin.mpr ⟨live, ready, off, default⟩, fun place located => ?_⟩
        cases place <;> simp_all [State.At]
      · refine ⟨.edf, edf.mpr ⟨live, ready, off, default⟩, fun place located => ?_⟩
        cases place <;> simp_all [State.At]

theorem Sound.queuesRight : QueuesRight state where
  place := fun _ live => sound.existsUnique_place live
  nodup := ⟨sound.arranged.nodupRr, sound.arranged.nodupEdf, sound.cores.filed.nodup⟩
  roundRobin := sound.readyRr_iff
  edf := sound.readyEdf_iff
  sorted := sound.arranged.sorted

end

theorem reachable_sound {idle : Fin cores → Fin threads} {labels : List (Cores.Label threads cores)}
    (run : Run (exec extraChecks support) Steady (State.initial idle) labels state) : Sound state :=
  run.invariant Sound (fun _ _ _ sound steady => sound.step steady) (initial_sound idle)

/-- In every run that switches no waiting thread between the default priority and a deadline,
every thread is where it belongs. -/
theorem queues_right (extraChecks : ExtraChecks) (support : CoreSupport)
    (idle : Fin cores → Fin threads) (labels : List (Cores.Label threads cores))
    (state : State threads cores)
    (run : Run (exec extraChecks support) Steady (State.initial idle) labels state) :
    QueuesRight state :=
  (reachable_sound run).queuesRight

/-- Two threads with a deadline and one of the default priority; the later of the two deadlines is
moved before the other one while both wait for the only core. -/
theorem queues_right_earlierDeadline : ∃ state : State 4 1,
    Run (exec .none .single) Steady (State.initial fun _ => 0)
      [.add 1 defaultDeadline (fun _ => true) false, .add 2 50 (fun _ => true) false,
        .add 3 70 (fun _ => true) false, .setPriority 3 20, .runScheduler 0] state ∧
    QueuesRight state :=
  exists_run (fun _ => True) (by decide)
    fun state run _ => ⟨run, queues_right .none .single _ _ state run⟩

/-- A thread of the default priority waits for the core and is given a deadline, as when it owns a
mutex that a thread with a deadline wants: it stays in the queue of the default priority. -/
theorem setPriority_keeps_queue : ∃ state : State 3 1,
    Run (exec .none .single) unrestricted (State.initial fun _ => 0)
      [.add 1 defaultDeadline (fun _ => true) false, .setPriority 1 50] state ∧
    (state.deadline 1 = 50 ∧ state.readyRr = [1] ∧ state.readyEdf = []) ∧
    ¬ QueuesRight state := by
  refine exists_run (fun state => state.deadline 1 = 50 ∧ state.readyRr = [1] ∧
    state.readyEdf = []) (by decide) fun state run passed => ⟨run, passed, fun right => ?_⟩
  obtain ⟨deadline, queued, -⟩ := passed
  have default := ((right.roundRobin 1).mp (by simp [queued])).2.2.2
  rw [deadline] at default
  contradiction

end Miosix.EDFScheduler
