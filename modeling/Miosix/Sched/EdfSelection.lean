/-
This file proves which thread the EDF scheduler selects on a single core.

The scheduler takes the thread of earliest deadline, and a thread of the default priority
only if no thread has a deadline. The maximum deadline is valid and is meant for threads that
never run, but such a thread is in the queue of deadlines like any other: when no thread with
a real deadline is ready it is selected before the threads of the default priority and before
the idle thread. In every other case the selection is right.

The order in which the threads of the default priority are served is stated with a record of
the run, which notes when each of them began to wait for the core.
-/

import Miosix.Sched.EdfQueues

namespace Miosix.EDFScheduler

open Transition Function

variable {threads cores : Nat}

/-! ### What a step does to deadlines and to the queue of the default priority -/

/-- A queue from which any threads may leave and to whose end one new thread may come. -/
def Advances (before after : List (Fin threads)) : Prop :=
  after.Sublist before ∨ ∃ fresh, fresh ∉ before ∧ after.Sublist (before ++ [fresh])

structure Effect (before after : State threads cores) : Prop where
  idle : after.idle = before.idle
  live : ∀ thread, after.Live thread → before.Live thread ∨
    validate (after.deadline thread) = true
  deadline : ∀ thread, after.deadline thread = before.deadline thread ∨
    (validate (after.deadline thread) = true ∧ ∀ core, before.idle core ≠ thread)
  line : Advances before.readyRr after.readyRr

variable {before after state : State threads cores} {thread : Fin threads}
  {extraChecks : ExtraChecks} {core : Fin cores}

theorem Effect.frame (sameIdle : after.idle = before.idle)
    (live : ∀ thread, after.Live thread → before.Live thread)
    (sameDeadline : after.deadline = before.deadline)
    (sublist : after.readyRr.Sublist before.readyRr) : Effect before after where
  idle := sameIdle
  live := fun thread alive => .inl (live thread alive)
  deadline := fun thread => .inl (by rw [sameDeadline])
  line := .inl sublist

theorem advances_enqueue (fresh : thread ∉ state.readyRr) :
    Advances state.readyRr (state.enqueue thread).readyRr := by
  unfold State.enqueue
  split
  · exact .inr ⟨thread, fresh, List.Sublist.refl _⟩
  · exact .inl (List.Sublist.refl _)

theorem Sound.add_effect (sound : Sound state) (unallocated : state.allocated thread = false)
    (notIdle : ∀ core, state.idle core ≠ thread) {priority : Int}
    (valid : validate priority = true) {affinity : Fin cores → Bool} {waiting : Bool} :
    Effect state (IRQaddThread { state with toCores := state.create thread affinity waiting }
      thread priority) := by
  have dead := Cores.not_live_of_unallocated unallocated
  have fresh : thread ∉ state.readyRr := fun listed => (sound.cores.unlisted dead).1 (.inl listed)
  have deadline : ∀ other, update state.deadline thread priority other = state.deadline other ∨
      (validate (update state.deadline thread priority other) = true ∧
        ∀ core, state.idle core ≠ other) := by
    intro other
    by_cases same : other = thread
    · subst same
      exact .inr ⟨by simpa using valid, notIdle⟩
    · exact .inl (update_of_ne same _ _)
  have live : ∀ other, (state.create thread affinity waiting).Live other → state.Live other ∨
      validate (update state.deadline thread priority other) = true := by
    rintro other ⟨allocated, free⟩
    by_cases same : other = thread
    · exact .inr (by simpa [same] using valid)
    · exact .inl ⟨by simpa [Cores.create, same] using allocated, free⟩
  simp only [IRQaddThread]
  split
  · exact ⟨rfl, live, deadline, .inl (List.Sublist.refl _)⟩
  · refine ⟨by rw [enqueue_toCores]; rfl, ?_, ?_, advances_enqueue fresh⟩
    · rw [enqueue_toCores, enqueue_deadline]
      exact live
    · rw [enqueue_deadline]
      exact deadline

section

variable (state : State threads cores) (thread : Fin threads) (newPriority : Int)

theorem setPriority_toCores :
    (IRQsetPriority state thread newPriority).toCores = state.toCores := by
  simp only [IRQsetPriority]
  split_ifs <;> rfl

theorem setPriority_deadline : (IRQsetPriority state thread newPriority).deadline =
      update state.deadline thread newPriority := by
  simp only [IRQsetPriority]
  split_ifs <;> rfl

/-- `IRQsetPriority` never moves a thread out of or into the queue of the default priority. -/
theorem setPriority_readyRr :
    (IRQsetPriority state thread newPriority).readyRr = state.readyRr := by
  simp only [IRQsetPriority]
  split_ifs with running waits someRR newRR oldRR oldRR
  · rfl
  · rfl
  · rfl
  · exact absurd (.inr newRR) someRR
  · exact absurd (.inr newRR) someRR
  · exact absurd (.inl oldRR) someRR
  · rfl

end

theorem setPriority_effect {newPriority : Int} (live : state.Live thread)
    (valid : validate newPriority = true) :
    Effect state (IRQsetPriority state thread newPriority) where
  idle := by rw [setPriority_toCores]
  live := by
    rw [setPriority_toCores]
    exact fun _ => .inl
  deadline := by
    intro other
    rw [setPriority_deadline]
    by_cases same : other = thread
    · subst same
      exact .inr ⟨by simpa using valid, live.2⟩
    · exact .inl (update_of_ne same _ _)
  line := .inl (by rw [setPriority_readyRr])

theorem Sound.unblock_effect (sound : Sound state) {unblocking : Unblocking} :
    Effect state (IRQclear state thread unblocking) := by
  simp only [IRQclear]
  split
  · rename_i wakes
    have fresh : thread ∉ state.readyRr := by
      rw [sound.readyRr_iff]
      rintro ⟨-, ready, -⟩
      rw [wakes.1] at ready
      cases ready
    unfold IRQwokenThread
    split
    · exact .frame rfl (fun _ alive => alive) rfl (List.Sublist.refl _)
    · refine ⟨by rw [enqueue_toCores]; rfl, ?_, ?_, advances_enqueue fresh⟩
      · rw [enqueue_toCores]
        exact fun _ => .inl
      · rw [enqueue_deadline]
        exact fun _ => .inl rfl
  · exact .frame rfl (fun _ alive => alive) rfl (List.Sublist.refl _)

theorem Sound.requeue_advances (sound : Sound state) :
    Advances state.readyRr (state.requeue core).readyRr := by
  have fresh : state.running core ∉ state.readyRr := fun listed =>
    (sound.cores.running_unlisted core).1 (.inl listed)
  simp only [State.requeue]
  split_ifs
  · exact .inl (List.Sublist.refl _)
  · exact .inl (List.Sublist.refl _)
  · exact .inl (List.Sublist.refl _)
  · exact advances_enqueue fresh

theorem Advances.sublist {before middle after : List (Fin threads)}
    (advances : Advances before middle) (sublist : after.Sublist middle) :
    Advances before after :=
  advances.imp sublist.trans fun ⟨fresh, new, tail⟩ => ⟨fresh, new, sublist.trans tail⟩

theorem dequeue_readyRr_sublist : (state.dequeue core).readyRr.Sublist state.readyRr := by
  unfold State.dequeue
  split
  · exact List.Sublist.refl _
  · split
    · rename_i queued
      rw [queued]
      exact List.sublist_cons_self _ _
    · exact List.Sublist.refl _

/-- Selecting a thread changes neither which threads exist nor their deadlines. -/
theorem dequeue_kept : (state.dequeue core).allocated = state.allocated ∧
      (state.dequeue core).idle = state.idle ∧ (state.dequeue core).deadline = state.deadline := by
  unfold State.dequeue
  split
  · exact ⟨rfl, rfl, rfl⟩
  · split <;> exact ⟨rfl, rfl, rfl⟩

theorem requeue_kept (state : State threads cores) :
    state.toCores.SameThreads (state.requeue core).toCores ∧
      (state.requeue core).deadline = state.deadline := by
  simp only [State.requeue]
  split_ifs
  · exact ⟨.refl _, rfl⟩
  · exact ⟨⟨rfl, rfl, rfl, rfl, rfl⟩, rfl⟩
  · exact ⟨⟨rfl, rfl, rfl, rfl, rfl⟩, rfl⟩
  · rw [enqueue_toCores, enqueue_deadline]
    exact ⟨.refl _, rfl⟩

theorem Sound.runScheduler_effect (sound : Sound state) :
    Effect state (IRQrunScheduler .single state core) := by
  simp only [IRQrunScheduler]
  split
  · exact .frame rfl (fun _ alive => alive) rfl (List.Sublist.refl _)
  · have started : Sound { state with
        requested := update state.requested core false } :=
      sound.withCores sound.cores.withRequests
    obtain ⟨same, sameDeadline⟩ := requeue_kept { state with
      requested := update state.requested core false }
    obtain ⟨allocated, idle, deadline⟩ := dequeue_kept
    refine ⟨?_, fun thread alive => .inl ?_, fun thread => .inl ?_,
      started.requeue_advances.sublist dequeue_readyRr_sublist⟩
    · rw [idle, same.idle]
    · unfold Cores.Live at alive
      rw [allocated, idle, same.allocated, same.idle] at alive
      exact alive
    · rw [deadline, sameDeadline]

theorem Sound.effect {next : State threads cores}
    (sound : Sound state) {label : Cores.Label threads cores}
    (stepped : exec extraChecks .single state label = some next) : Effect state next := by
  cases label with
  | add thread priority affinity waiting =>
    obtain ⟨⟨unallocated, notIdle, valid⟩, rfl⟩ := of_guard stepped
    exact sound.add_effect unallocated notIdle valid
  | setPriority thread newPriority =>
    obtain ⟨⟨live, valid, -⟩, rfl⟩ := of_guard stepped
    exact setPriority_effect live valid
  | unblock thread unblocking =>
    obtain ⟨-, rfl⟩ := of_guard stepped
    exact sound.unblock_effect
  | runScheduler core =>
    obtain ⟨⟩ := stepped
    exact sound.runScheduler_effect
  | block | detach | pauseKernel | restartKernel | removeDeadThread =>
    obtain ⟨shared, taken, rfl⟩ := Option.map_eq_some_iff.mp stepped
    obtain ⟨live, idle⟩ := Cores.live_of_exec taken
    exact .frame idle live rfl (List.Sublist.refl _)

/-! ### The deadlines are valid -/

section

variable (state : State threads cores)

/-- The deadlines of threads are valid, and idle threads have theirs. -/
structure Valid : Prop where
  live : ∀ thread, state.Live thread → validate (state.deadline thread) = true
  idle : ∀ core, state.deadline (state.idle core) = idleDeadline

theorem Valid.step (valid : Valid before) (effect : Effect before after) : Valid after := by
  refine ⟨fun thread alive => ?_, fun core => ?_⟩
  · rcases effect.deadline thread with same | changed
    · rcases effect.live thread alive with live | validated
      · rw [same]
        exact valid.live thread live
      · exact validated
    · exact changed.1
  · rw [effect.idle]
    rcases effect.deadline (before.idle core) with same | changed
    · rw [same]
      exact valid.idle core
    · exact absurd rfl (changed.2 core)

/-! ### Who waits for how long -/

/-- The number of steps so far, and when each thread of the default priority last began to wait
for a core. -/
structure Line (threads : Nat) where
  clock : Nat
  since : Fin threads → Nat

def Line.initial : Line threads := ⟨0, fun _ => 0⟩

/-- The thread is ready, has the default priority, and does not run. -/
def State.WaitsInTurn (thread : Fin threads) : Prop :=
  state.Live thread ∧ (state.flags thread).isReady = true ∧
    (∀ core, state.running core ≠ thread) ∧ state.deadline thread = defaultDeadline
  deriving Decidable

end

def Line.note (line : Line threads) (before : State threads cores) (_ : Cores.Label threads cores)
    (after : State threads cores) : Line threads where
  clock := line.clock + 1
  since := fun thread => if after.WaitsInTurn thread ∧ ¬ before.WaitsInTurn thread then line.clock
    else line.since thread

variable {line : Line threads} {next : Fin threads} {rest : List (Fin threads)}

/-- The queue of the default priority is in the order in which its threads came. -/
structure Line.Ordered (line : Line threads) (queue : List (Fin threads)) : Prop where
  ordered : queue.Pairwise fun first second => line.since first < line.since second
  past : ∀ thread ∈ queue, line.since thread < line.clock

/-- The stamps of a queue to whose end a new thread may have come. -/
theorem Line.Ordered.append {queue : List (Fin threads)} (ordered : line.Ordered queue)
    {fresh : Fin threads} (new : fresh ∉ queue) :
    (queue ++ [fresh]).Pairwise fun first second =>
      (if first ∈ queue then line.since first else line.clock) <
        (if second ∈ queue then line.since second else line.clock) := by
  refine List.pairwise_append.mpr ⟨?_, List.pairwise_singleton _ _, ?_⟩
  · refine ordered.ordered.imp_of_mem fun first second earlier => ?_
    rw [if_pos first, if_pos second]
    exact earlier
  · intro first member second last
    obtain rfl := List.mem_singleton.mp last
    rw [if_pos member, if_neg new]
    exact ordered.past first member

theorem Line.Ordered.step (ordered : line.Ordered before.readyRr) (soundBefore : Sound before)
    (soundAfter : Sound after) (effect : Effect before after) (label : Cores.Label threads cores) :
    (line.note before label after).Ordered after.readyRr := by
  have stamp : ∀ thread ∈ after.readyRr, (line.note before label after).since thread =
      if thread ∈ before.readyRr then line.since thread else line.clock := by
    intro thread listed
    have waits : after.WaitsInTurn thread := (soundAfter.readyRr_iff thread).mp listed
    have waited : before.WaitsInTurn thread ↔ thread ∈ before.readyRr :=
      (soundBefore.readyRr_iff thread).symm
    simp only [Line.note, waits, waited, true_and, ite_not]
  refine ⟨?_, fun thread listed => ?_⟩
  · have pairs : after.readyRr.Pairwise fun first second =>
        (if first ∈ before.readyRr then line.since first else line.clock) <
          (if second ∈ before.readyRr then line.since second else line.clock) := by
      rcases effect.line with sublist | ⟨fresh, new, sublist⟩
      · refine (ordered.ordered.imp_of_mem fun first second earlier => ?_).sublist sublist
        rw [if_pos first, if_pos second]
        exact earlier
      · exact (ordered.append new).sublist sublist
    refine pairs.imp_of_mem fun first second earlier => ?_
    rw [stamp _ first, stamp _ second]
    exact earlier
  · rw [stamp thread listed]
    split
    · rename_i queued
      exact Nat.lt_succ_of_lt (ordered.past thread queued)
    · exact Nat.lt_succ_self _

/-- The invariants of a run with its record. -/
structure Served (state : State threads cores) (line : Line threads) : Prop where
  sound : Sound state
  valid : Valid state
  ordered : line.Ordered state.readyRr

theorem reachable_served {idle : Fin cores → Fin threads}
    {labels : List (Cores.Label threads cores)}
    (run : Run (observing (exec extraChecks .single) Line.note) (fun observed => Steady observed.1)
      (State.initial idle, Line.initial) labels (state, line)) : Served state line := by
  refine run.observed Served ?_ ?_
  · intro before line label after served steady stepped
    have effect := served.sound.effect stepped
    have sound := served.sound.step steady stepped
    exact ⟨sound, served.valid.step effect, served.ordered.step served.sound sound effect label⟩
  · exact ⟨initial_sound idle, ⟨fun _ live => absurd live.1 Bool.false_ne_true,
      fun _ => rfl⟩, List.Pairwise.nil, nofun⟩

/-! ### The selection on one core -/

section

variable (state : State threads cores) (core : Fin cores)

/-- A thread that could run now. -/
def State.Runnable (thread : Fin threads) : Prop :=
  state.Live thread ∧ (state.flags thread).isReady = true
  deriving Decidable

/-- What a scheduler run on a core should select. -/
structure Selection (before : State threads cores) (line : Line threads) (core : Fin cores)
    (after : State threads cores) : Prop where
  ready : after.running core = before.idle core ∨ before.Runnable (after.running core)
  earliest : ∀ thread, before.Runnable thread →
    before.deadline (after.running core) ≤ before.deadline thread
  inTurn : before.deadline (after.running core) = defaultDeadline →
    ∀ thread, before.Runnable thread → defaultDeadline ≤ before.deadline thread
  never : before.deadline (after.running core) ≠ maxDeadline
  fifo : before.deadline (after.running core) = defaultDeadline →
    ∀ thread, before.WaitsInTurn thread → thread ≠ after.running core →
      before.WaitsInTurn (after.running core) ∧
        line.since (after.running core) < line.since thread

/-- A thread of maximum deadline is ready only along with one of a real deadline. -/
def Punctual : Prop :=
  (∃ thread, state.Runnable thread ∧ state.deadline thread = maxDeadline) →
    ∃ thread, state.Runnable thread ∧ state.deadline thread < defaultDeadline
  deriving Decidable

section

variable {state : State threads 1} (sound : Sound state)

include sound

/-- Once the running thread is put back, the two queues hold exactly the threads that could
run. -/
theorem queued_requeue :
    (state.requeue 0).Queued thread ↔ state.Runnable thread := by
  obtain ⟨same, -⟩ := requeue_kept state
  have alone : (state.requeue 0).elsewhere 0 thread = false := by
    rw [← Bool.not_eq_true, Cores.mem_elsewhere]
    rintro ⟨other, different, -⟩
    exact different (Subsingleton.elim _ _)
  rw [(sound.requeue 0).cores.queued_iff, same.live, same.flags, State.Runnable]
  simp [alone]

theorem mem_readyEdf_requeue
    (thread : Fin threads) : thread ∈ (state.requeue 0).readyEdf ↔
      state.Runnable thread ∧ state.deadline thread ≠ defaultDeadline := by
  rw [(sound.requeue 0).arranged.mem_readyEdf_iff, queued_requeue sound, (requeue_kept state).2]

theorem mem_readyRr_requeue
    (thread : Fin threads) : thread ∈ (state.requeue 0).readyRr ↔
      state.Runnable thread ∧ state.deadline thread = defaultDeadline := by
  rw [(sound.requeue 0).arranged.mem_readyRr_iff, queued_requeue sound, (requeue_kept state).2]

end

theorem dequeue_running : (state.dequeue core).running core =
      (state.readyEdf ++ state.readyRr).head?.getD (state.idle core) := by
  unfold State.dequeue
  split
  · rename_i queued
    simp [queued, Cores.setRunning]
  · rename_i noneLeft
    split
    · rename_i queued
      simp [noneLeft, queued, Cores.setRunning]
    · rename_i empty
      simp [noneLeft, empty, Cores.setRunning]

theorem runScheduler_single {state : State threads 1} (free : state.holdingCore ≠ some 0) :
    (IRQrunScheduler .single state 0).running 0 =
      ((state.requeue 0).readyEdf ++ (state.requeue 0).readyRr).head?.getD (state.idle 0) := by
  obtain ⟨same, -⟩ := requeue_kept { state with
    requested := update state.requested 0 false }
  simp only [IRQrunScheduler, if_neg free]
  rw [dequeue_running, same.idle]
  simp only [State.requeue, State.enqueue]
  split_ifs <;> rfl

theorem validate_cases {deadline : Int} (valid : validate deadline = true)
    (special : deadline ≠ defaultDeadline) :
    deadline < defaultDeadline ∨ deadline = maxDeadline := by
  obtain ⟨-, bounded, notIdle⟩ := of_decide_eq_true valid
  unfold idleDeadline at notIdle
  unfold defaultDeadline at special ⊢
  omega

/-- A thread with a deadline is selected: this is right unless it is the maximum deadline. -/
theorem Served.selection_edf {state after : State threads 1} (served : Served state line)
    (queued : (state.requeue 0).readyEdf = next :: rest) (runs : after.running 0 = next) :
    Selection state line 0 after ↔ Punctual state := by
  obtain ⟨runnable, special⟩ := (mem_readyEdf_requeue served.sound next).mp (by simp [queued])
  have sorted := (served.sound.requeue 0).arranged.sorted
  rw [(requeue_kept state).2] at sorted
  have least : ∀ thread, state.Runnable thread → state.deadline thread ≠ defaultDeadline →
      state.deadline next ≤ state.deadline thread := fun thread ready other =>
    sorted.head_le (by rw [queued, List.head?_cons])
      ((mem_readyEdf_requeue served.sound thread).mpr ⟨ready, other⟩)
  rcases validate_cases (served.valid.live next runnable.1) special with early | never
  · have earliest : ∀ thread, state.Runnable thread →
        state.deadline next ≤ state.deadline thread := by
      intro thread ready
      by_cases default : state.deadline thread = defaultDeadline
      · rw [default]
        exact le_of_lt early
      · exact least thread ready default
    refine ⟨fun _ _ => ⟨next, runnable, early⟩, fun _ => ⟨?_, ?_, ?_, ?_, ?_⟩⟩
    · exact .inr (runs ▸ runnable)
    · exact runs ▸ earliest
    · exact fun default => absurd (runs ▸ default) special
    · rw [runs]
      simp only [defaultDeadline] at early
      omega
    · exact fun default => absurd (runs ▸ default) special
  · refine ⟨fun selection => absurd (runs ▸ never) selection.never, fun punctual => ?_⟩
    obtain ⟨thread, ready, early⟩ := punctual ⟨next, runnable, never⟩
    have later := least thread ready (ne_of_lt early)
    simp only [defaultDeadline] at early
    omega

/-- The running thread is put behind those that wait. -/
theorem requeue_readyRr_append : ∃ last, (state.requeue core).readyRr = state.readyRr ++ last := by
  simp only [State.requeue, State.enqueue]
  split_ifs
  · exact ⟨[], (List.append_nil _).symm⟩
  · exact ⟨[], (List.append_nil _).symm⟩
  · exact ⟨[], (List.append_nil _).symm⟩
  · exact ⟨[state.running core], rfl⟩
  · exact ⟨[], (List.append_nil _).symm⟩

end

theorem Served.first_in_turn {state : State threads 1} (served : Served state line)
    (queued : (state.requeue 0).readyRr = next :: rest) (waits : state.WaitsInTurn thread)
    (other : thread ≠ next) : state.WaitsInTurn next ∧ line.since next < line.since thread := by
  have listed := (served.sound.readyRr_iff thread).mpr waits
  obtain ⟨last, requeued⟩ := requeue_readyRr_append state 0
  rw [queued] at requeued
  have ordered := served.ordered.ordered
  cases inQueue : state.readyRr with
  | nil =>
    rw [inQueue] at listed
    cases listed
  | cons first behind =>
    rw [inQueue, List.cons_append] at requeued
    obtain rfl : next = first := (List.cons.inj requeued).1
    rw [inQueue] at listed ordered
    refine ⟨(served.sound.readyRr_iff next).mp (by simp [inQueue]), ?_⟩
    exact (List.pairwise_cons.mp ordered).1 thread ((List.mem_cons.mp listed).resolve_left other)

/-- No thread with a deadline is ready: the first thread of the default priority is selected, or
the idle thread. -/
theorem Served.selection_rest {state after : State threads 1} (served : Served state line)
    (noneLeft : (state.requeue 0).readyEdf = [])
    (runs : after.running 0 = (state.requeue 0).readyRr.head?.getD (state.idle 0)) :
    Selection state line 0 after ∧ Punctual state := by
  have default : ∀ thread, state.Runnable thread → state.deadline thread = defaultDeadline := by
    intro thread ready
    by_contra special
    have listed := (mem_readyEdf_requeue served.sound thread).mpr ⟨ready, special⟩
    rw [noneLeft] at listed
    cases listed
  refine ⟨?_, ?_⟩
  · cases queued : (state.requeue 0).readyRr with
    | nil =>
      rw [queued] at runs
      have idle : state.deadline (after.running 0) = idleDeadline := by
        rw [runs]
        exact served.valid.idle 0
      have nobody : ∀ thread, ¬ state.Runnable thread := by
        intro thread ready
        have listed := (mem_readyRr_requeue served.sound thread).mpr ⟨ready, default thread ready⟩
        rw [queued] at listed
        cases listed
      refine ⟨.inl runs, fun thread ready => absurd ready (nobody thread),
        fun _ thread ready => absurd ready (nobody thread), ?_, fun turn => ?_⟩
      · rw [idle]
        decide
      · rw [idle] at turn
        contradiction
    | cons next rest =>
      rw [queued] at runs
      obtain ⟨runnable, turn⟩ := (mem_readyRr_requeue served.sound next).mp (by simp [queued])
      have runs : after.running 0 = next := runs
      rw [← runs] at runnable turn
      refine ⟨.inr runnable, fun thread ready => ?_, fun _ thread ready => ?_, ?_,
        fun _ thread waits other => ?_⟩
      · rw [turn, default thread ready]
      · rw [default thread ready]
      · rw [turn]
        decide
      · rw [runs] at other ⊢
        exact served.first_in_turn queued waits other
  · rintro ⟨thread, ready, never⟩
    rw [default thread ready] at never
    contradiction

/-- In every run that switches no waiting thread between the default priority and a deadline,
a scheduler run selects the right thread exactly when no thread of maximum deadline is ready
without one of a real deadline. -/
theorem selection_right (extraChecks : ExtraChecks) (idle : Fin 1 → Fin threads)
    (labels : List (Cores.Label threads 1)) (state : State threads 1) (line : Line threads)
    (run : Run (observing (exec extraChecks .single) Line.note) (fun observed => Steady observed.1)
      (State.initial idle, Line.initial) labels (state, line))
    (free : state.holdingCore ≠ some 0) :
    Selection state line 0 (IRQrunScheduler .single state 0) ↔ Punctual state := by
  have served := reachable_served run
  have runs := runScheduler_single free
  cases queued : (state.requeue 0).readyEdf with
  | nil =>
    rw [queued, List.nil_append] at runs
    have rest := served.selection_rest queued runs
    exact ⟨fun _ => rest.2, fun _ => rest.1⟩
  | cons next rest =>
    rw [queued] at runs
    exact served.selection_edf queued runs

/-- A thread of the default priority runs, another one waits, and a thread of maximum deadline is
ready along with one of deadline 50, which is selected. -/
theorem selection_right_realDeadline : ∃ (state : State 5 1) (line : Line 5),
    (Run (observing (exec .none .single) Line.note) (fun observed => Steady observed.1)
      (State.initial fun _ => 0, Line.initial)
      [.add 1 defaultDeadline (fun _ => true) false, .runScheduler 0,
        .add 2 defaultDeadline (fun _ => true) false, .add 3 maxDeadline (fun _ => true) false,
        .add 4 50 (fun _ => true) false] (state, line) ∧
      state.holdingCore ≠ some 0 ∧ Punctual state) ∧
    Selection state line 0 (IRQrunScheduler .single state 0) :=
  exists_observed (fun state _ => state.holdingCore ≠ some 0 ∧ Punctual state) (by decide)
    fun state line run reached => ⟨⟨run, reached⟩,
      (selection_right .none _ _ state line run reached.1).mpr reached.2⟩

/-- A thread of maximum deadline and one of the default priority are ready: the first one is
selected. -/
theorem maxDeadline_runs : ∃ (state : State 3 1) (line : Line 3),
    Run (observing (exec .none .single) Line.note) unrestricted
      (State.initial fun _ => 0, Line.initial)
      [.add 1 defaultDeadline (fun _ => true) false, .add 2 maxDeadline (fun _ => true) false]
      (state, line) ∧
    (state.holdingCore ≠ some 0 ∧ state.deadline 2 = maxDeadline ∧
      (IRQrunScheduler .single state 0).running 0 = 2) ∧
    ¬ Selection state line 0 (IRQrunScheduler .single state 0) := by
  refine exists_observed (fun state _ => state.holdingCore ≠ some 0 ∧
    state.deadline 2 = maxDeadline ∧ (IRQrunScheduler .single state 0).running 0 = 2) (by decide)
    fun state line run reached => ⟨run, reached, fun selection => selection.never ?_⟩
  obtain ⟨-, never, runs⟩ := reached
  rw [runs, never]

end Miosix.EDFScheduler
