/-
This file proves the invariant of the kernel machine: the scheduler lists are right, the
synchronization primitives are consistent, the agenda of a section accounts for the
difference between the priorities the primitives and the scheduler know, and the schedule is in
order, or a run is pending, or the section under way is about to request one.

Most steps change neither who runs nor the priorities (`Keeps`); for those one lemma does it
(`Sound.keeps`). The others are a new thread, the steps with the pause kernel lock and the
scheduler run.
-/

import Miosix.Kernel.Rescheduling
import Miosix.Sync.Reachable
import Miosix.Sync.Requests

namespace Miosix.Kernel

open PriorityScheduler Transition Function Option

variable {threads cores : Nat} {config : Config} {support : CoreSupport}

/-! ### The invariant -/

/-- The section under way goes to wait, or wakes next a thread that outranks its own. -/
def Owing (state : State threads cores) : Prop :=
  (∃ thread, .restartKernelAndWait thread ∈ state.agenda) ∨
    ∃ core next, state.sched.holdingCore = some core ∧
      state.agenda.head? = some (.wakeup next) ∧
        state.sched.priority (state.current core) < state.sched.priority next

/-- A thread that is not an idle thread. -/
def Real (state : State threads cores) (thread : Fin threads) : Prop :=
  ∀ core, state.sched.idle core ≠ thread

structure Sound (config : Config) (state : State threads cores) : Prop where
  sched : PriorityScheduler.Sound config state.sched
  sync : Sync.Consistent config state.sync state.pc
  tracked : ∀ thread, Real state thread →
    state.sync.priority thread = Sync.repriced state.sched.priority state.agenda thread
  idle : ∀ core, state.pc (state.sched.idle core) = .outside
  careful : state.agenda ≠ [] → ∃ core, state.sched.holdingCore = some core ∧
    state.sched.Live (state.current core) ∧
      Sync.Careful config (Real state) (state.current core) state.sched.priority state.agenda
  order : Orderly state.sched ∨ Owing state

variable {state after : State threads cores} {core : Fin cores} {target thread : Fin threads}
  {sched before : PriorityScheduler.State threads cores} {priority value : Int}
  {rest : List (Sync.SchedulerCall threads)} {request : Sync.SchedulerCall threads}
  {detached : Bool} {holder : Option (Fin cores)}

theorem real_congr (idle : after.sched.idle = state.sched.idle) : Real after = Real state := by
  unfold Real
  rw [idle]

section

variable (sound : Sound config state)
include sound

/-- A step that changes neither who runs nor the priorities. -/
theorem Sound.keeps (keeps : Keeps config state.sched after.sched)
    (orderly : Orderly state.sched → Orderly after.sched) (sync : after.sync = state.sync)
    (pc : after.pc = state.pc) (agenda : after.agenda = state.agenda) : Sound config after := by
  have same := keeps.same
  have real := real_congr same.idle
  have current : after.current = state.current := same.running
  refine ⟨keeps.sound sound.sched, sync ▸ pc ▸ sound.sync, fun thread known => ?_, fun core => ?_,
    fun busy => ?_, ?_⟩
  · rw [sync, same.priority, agenda]
    exact sound.tracked thread (real ▸ known)
  · rw [pc, same.idle]
    exact sound.idle core
  · obtain ⟨core, holding, live, careful⟩ := sound.careful (agenda ▸ busy)
    rw [real, current, same.priority, agenda, same.holdingCore]
    exact ⟨core, holding, same.live core live, careful⟩
  · refine sound.order.imp orderly fun owing => ?_
    unfold Owing
    rw [agenda, same.holdingCore, same.priority, current]
    exact owing

/-- Nobody is in a section with the pause kernel lock while the lock is free. -/
theorem Sound.agenda_eq_nil (free : state.sched.holdingCore = none) : state.agenda = [] := by
  by_contra busy
  obtain ⟨core, holding, -⟩ := sound.careful busy
  rw [free] at holding
  cases holding

theorem Sound.orderly_of_agenda (empty : state.agenda = []) : Orderly state.sched := by
  refine sound.order.resolve_right ?_
  rintro (⟨thread, listed⟩ | ⟨core, next, -, head, -⟩)
  · rw [empty] at listed
    cases listed
  · rw [empty] at head
    cases head

theorem Sound.live_current (executes : state.Executes core) :
    state.sched.Live (state.current core) :=
  (sound.sched.cores.home core).resolve_left executes.1

end

/-! ### Threads that block, wake and end -/

theorem block_orderly (sched : PriorityScheduler.State threads cores) (core : Fin cores)
    {blocking : Blocking} : Orderly (IRQblock sched core blocking) :=
  .inr (pending_request _)

section

variable (sound : Sound config state)

include sound

theorem Sound.wait (stepped : state.wait core = some after) : Sound config after := by
  obtain ⟨-, rfl⟩ := of_guard stepped
  exact sound.keeps block_keeps (fun _ => block_orderly _ _) rfl rfl rfl

theorem Sound.sleep {absTime : Int} {blocking : Blocking}
    (stepped : state.sleep core absTime blocking = some after) : Sound config after := by
  obtain ⟨-, rfl⟩ := of_guard stepped
  exact sound.keeps block_keeps (fun _ => block_orderly _ _) rfl rfl rfl

theorem Sound.join (stepped : state.join config core target = some after) : Sound config after := by
  obtain ⟨-, stepped⟩ := ite_none_right_eq_some.mp stepped
  split_ifs at stepped <;> obtain rfl := some_inj.mp stepped
  · exact sound
  · exact sound
  · exact sound
  · exact sound.keeps setDetached_keeps setDetached_orderly rfl rfl rfl
  · exact sound
  · exact sound.keeps block_keeps (fun _ => block_orderly _ _) rfl rfl rfl

theorem Sound.endJoin
    (stepped : state.endJoin config core target = some after) : Sound config after := by
  obtain ⟨-, stepped⟩ := ite_none_right_eq_some.mp stepped
  dsimp only at stepped
  split_ifs at stepped <;> obtain rfl := some_inj.mp stepped
  · exact sound.keeps (.refl _) id rfl rfl rfl
  · exact sound.keeps (.refl _) id rfl rfl rfl
  · exact sound.keeps setDetached_keeps setDetached_orderly rfl rfl rfl
  · exact sound.keeps block_keeps (fun _ => block_orderly _ _) rfl rfl rfl

theorem Sound.detach (noAffinity : support ≠ .smpWithAffinity)
    (stepped : state.detach config support core target = some after) : Sound config after := by
  have detached : Keeps config state.sched (IRQsetDetached state.sched target) := setDetached_keeps
  obtain ⟨-, stepped⟩ := ite_none_right_eq_some.mp stepped
  split at stepped
  · exact some_inj.mp stepped ▸ sound
  split at stepped
  · obtain rfl := some_inj.mp stepped
    exact sound.keeps detached setDetached_orderly rfl rfl rfl
  · split at stepped
    · obtain rfl := some_inj.mp stepped
      exact sound.keeps detached setDetached_orderly rfl rfl rfl
    · obtain ⟨woken, cleared, rfl⟩ := map_eq_some_iff.mp stepped
      obtain ⟨live, rfl⟩ := of_guard cleared
      exact sound.keeps ((detached.trans (clear_keeps live)).trans
        (reschedule_keeps noAffinity _ _ _ _)) (fun orderly =>
          clear_reschedule_orderly noAffinity (setDetached_orderly orderly)) rfl rfl rfl

theorem Sound.exit (stepped : state.exit core = some after) : Sound config after := by
  obtain ⟨-, stepped⟩ := ite_none_right_eq_some.mp stepped
  obtain ⟨woken, cleared, rfl⟩ := map_eq_some_iff.mp stepped
  have deleted : Keeps config state.sched (state.sched.setFlags (state.current core)
    ((state.sched.flags (state.current core)).set .deleted)) := setFlags_keeps (.inl ⟨core, rfl⟩)
  exact sound.keeps ((deleted.trans (clearJoinWait_keeps cleared)).trans request_keeps)
    (fun _ => .inr (pending_request _)) rfl rfl rfl

theorem Sound.terminate (harmless : Orderly state.sched → Harmless state.sched target)
    (stepped : state.terminate target = some after) : Sound config after := by
  obtain ⟨live, stepped⟩ := ite_none_right_eq_some.mp stepped
  split at stepped
  · exact some_inj.mp stepped ▸ sound
  · rename_i fresh
    obtain rfl := some_inj.mp stepped
    exact sound.keeps (terminate_keeps live) (fun orderly =>
      terminate_orderly orderly (by simpa using fresh) (harmless orderly)) rfl rfl rfl

end

theorem removeDeadThread_keeps {next : Cores threads cores}
    (removed : sched.removeDeadThread = some next) (sound : PriorityScheduler.Sound config sched) :
    Keeps config sched { sched with toCores := next } ∧
      (Orderly sched → Orderly { sched with toCores := next }) := by
  have kept := sound.stepCores .removeDeadThread removed
  have shrinks := fun other => @Cores.live_of_removeDeadThread _ _ _ _ removed other
  obtain ⟨thread, listed, rfl, -⟩ := Cores.removeDeadThread_eq_some removed
  have off := (sound.cores.mem_notReady_iff.mp listed).2.2
  refine ⟨⟨fun _ => kept, rfl, rfl, rfl, rfl, fun core live => ?_⟩,
    fun orderly => orderly.imp (fun settled other awaits => ?_) id⟩
  · exact ⟨(update_of_ne (off core) _ _).trans live.1, live.2⟩
  · exact settled other ⟨shrinks other awaits.1, awaits.2⟩

/-! ### New threads -/

/-- What adding a thread leaves alone. -/
structure Adds (before after : PriorityScheduler.State threads cores) (thread : Fin threads)
    (priority : Int) : Prop where
  idle : after.idle = before.idle
  priority : after.priority = update before.priority thread priority
  running : after.running = before.running
  holdingCore : after.holdingCore = before.holdingCore
  requested : after.requested = before.requested
  pendingWakeup : after.pendingWakeup = before.pendingWakeup
  live : ∀ other, other ≠ thread → (after.Live other ↔ before.Live other)
  flags : ∀ other, other ≠ thread → after.flags other = before.flags other

theorem addNew_adds (sched : PriorityScheduler.State threads cores) (thread : Fin threads)
    (priority : Int) (affinity : Fin cores → Bool) (waiting : Bool) :
    Adds sched (sched.addNew thread priority affinity waiting) thread priority := by
  have live : ∀ other, other ≠ thread →
      ((sched.create thread affinity waiting).Live other ↔ sched.Live other) :=
    fun other different => (Cores.create_agree affinity waiting different).live
  have flags : ∀ other, other ≠ thread →
      (sched.create thread affinity waiting).flags other = sched.flags other :=
    fun other different => update_of_ne different ..
  simp only [State.addNew, IRQaddThread]
  split <;> exact ⟨rfl, rfl, rfl, rfl, rfl, rfl, live, flags⟩

theorem addThread_adds (sched : PriorityScheduler.State threads cores) (thread : Fin threads)
    (priority : Int) (detached : Bool) :
    Adds sched (addThread sched thread priority detached) thread priority := by
  have added := addNew_adds sched thread priority (fun _ => true) false
  simp only [addThread]
  split
  · exact { added with
      flags := fun other apart => (update_of_ne apart ..).trans (added.flags other apart) }
  · exact added

theorem addThread_sound (sound : PriorityScheduler.Sound config sched)
    (unallocated : sched.allocated thread = false) (notIdle : ∀ core, sched.idle core ≠ thread)
    (valued : validate config priority = true) :
    PriorityScheduler.Sound config (addThread sched thread priority detached) := by
  have added := sound.add unallocated notIdle valued (fun _ => true) false
  simp only [addThread]
  split
  · exact setDetached_keeps.sound added
  · exact added

theorem Adds.settled {after : PriorityScheduler.State threads cores}
    (adds : Adds before after thread priority) (off : ∀ core, before.running core ≠ thread)
    (settled : Settled before)
    (low : ∀ core, after.priority thread ≤ after.priority (after.running core)) :
    Settled after := by
  intro other awaits core
  by_cases same : other = thread
  · exact same ▸ low core
  · obtain ⟨live, ready, away⟩ := awaits
    rw [adds.flags other same] at ready
    rw [adds.running] at away
    rw [adds.priority, adds.running, update_of_ne same, update_of_ne (off core)]
    exact settled other ⟨(adds.live other same).mp live, ready, away⟩ core

theorem Adds.reschedule_orderly (noAffinity : support ≠ .smpWithAffinity)
    {after : PriorityScheduler.State threads cores} (adds : Adds before after thread priority)
    (off : ∀ core, before.running core ≠ thread) (orderly : Orderly before) {balancing : Hlb}
    : Orderly (IRQreschedule support balancing after thread core) := by
  rcases reschedule_cases noAffinity balancing after thread core with
    ⟨low, result⟩ | ⟨other, result⟩
  · rw [result]
    refine orderly.imp (fun settled => adds.settled off settled low) fun pending => ?_
    unfold Pending
    rw [adds.requested, adds.pendingWakeup]
    exact pending
  · rw [result]
    exact .inr (pending_request _)

/-- A step that gives a thread nobody refers to a priority. -/
theorem Sound.addPriority (sound : Sound config state) (off : ∀ core, state.current core ≠ thread)
    (unused : ∀ request ∈ state.agenda, request.target ≠ thread)
    (sched : PriorityScheduler.Sound config after.sched)
    (idle : after.sched.idle = state.sched.idle)
    (newPriority : after.sched.priority = update state.sched.priority thread priority)
    (running : after.sched.running = state.sched.running)
    (holdingCore : after.sched.holdingCore = state.sched.holdingCore)
    (live : ∀ core, state.sched.Live (state.current core) → after.sched.Live (state.current core))
    (orderly : Orderly state.sched → Orderly after.sched)
    (sync : Sync.Consistent config after.sync after.pc)
    (syncPriority : after.sync.priority = update state.sync.priority thread priority)
    (pc : after.pc = state.pc) (agenda : after.agenda = state.agenda) : Sound config after := by
  have real := real_congr idle
  have current : after.current = state.current := running
  refine ⟨sched, sync, fun other known => ?_, fun core => ?_, fun busy => ?_, ?_⟩
  · rw [syncPriority, newPriority, agenda, Sync.repriced_fresh unused]
    by_cases isNew : other = thread
    · rw [isNew, update_self, update_self]
    · rw [update_of_ne isNew, update_of_ne isNew]
      exact sound.tracked other (real ▸ known)
  · rw [pc, idle]
    exact sound.idle core
  · obtain ⟨core, holding, alive, careful⟩ := sound.careful (agenda ▸ busy)
    rw [real, current, newPriority, agenda, holdingCore]
    exact ⟨core, holding, live core alive, careful.fresh unused (off core) priority⟩
  · refine sound.order.imp orderly (Or.imp (fun waits => ?_) ?_)
    · rw [agenda]
      exact waits
    · rintro ⟨core, next, holding, head, outranks⟩
      have apart : next ≠ thread := unused _ (List.mem_of_mem_head? head)
      refine ⟨core, next, holdingCore.trans holding, agenda ▸ head, ?_⟩
      rw [newPriority, current, update_of_ne (off core), update_of_ne apart]
      exact outranks

theorem Sound.create (sound : Sound config state) (noAffinity : support ≠ .smpWithAffinity)
    (stepped : state.create config support core thread priority detached = some after) :
    Sound config after := by
  obtain ⟨⟨valued, unallocated, notIdle, outside, unlocked, unused⟩, rfl⟩ := of_guard stepped
  have off : ∀ core, state.sched.running core ≠ thread := Cores.off_iff.mp
    (sound.sched.cores.off_of_not_live (Cores.not_live_of_unallocated unallocated) notIdle)
  have adds := addThread_adds state.sched thread priority detached
  have keeps : Keeps config (addThread state.sched thread priority detached) _ :=
    reschedule_keeps noAffinity .fromLast _ thread core
  have same := keeps.same
  refine sound.addPriority off unused (keeps.sound
      (addThread_sound sound.sched unallocated notIdle valued)) (same.idle.trans adds.idle)
    (same.priority.trans adds.priority) (same.running.trans adds.running)
    (same.holdingCore.trans adds.holdingCore) (fun other live => ?_)
    (fun orderly => adds.reschedule_orderly noAffinity off orderly)
    (sound.sync.addThread outside unlocked (of_decide_eq_true valued)) rfl rfl rfl
  have moved := same.live other
  rw [adds.running] at moved
  exact moved ((adds.live _ (off other)).mpr live)

/-! ### Sections with the pause kernel lock -/

section

variable (sound : Sound config state)
include sound

/-- The lock is taken or given back while nothing is on the agenda. -/
theorem Sound.withHolder (empty : state.agenda = []) :
    Sound config { state with sched := { state.sched with holdingCore := holder } } :=
  { sound with
    sched := sound.sched.withRequests
    careful := absurd empty
    order := .inl (sound.orderly_of_agenda empty) }

/-- The body of a section leaves its requests as the agenda. -/
theorem Sound.begin (executes : state.Executes core) (free : state.sched.holdingCore = none)
    (asks : Sync.Asks config state.pc (state.current core) state.sync.clearCalls after.sync)
    (consistent : Sync.Consistent config after.sync after.pc) {counter : Sync.Pc}
    (sched : after.sched = { state.sched with holdingCore := some core })
    (pc : after.pc = update state.pc (state.current core) counter)
    (agenda : after.agenda = after.sync.calls) : Sound config after := by
  have live := sound.live_current executes
  have empty := sound.agenda_eq_nil free
  obtain ⟨requests, asked, careful⟩ := asks
  have listed : after.agenda = requests := agenda.trans asked.calls
  have real : Real after = Real state := real_congr (by rw [sched])
  have agreed : ∀ thread, Real state thread →
      state.sched.priority thread = state.sync.priority thread := by
    intro thread known
    rw [sound.tracked thread known, empty]
    rfl
  have inside : ∀ thread, state.pc thread ≠ .outside → Real state thread := by
    rintro _ blocked other rfl
    exact blocked (sound.idle other)
  refine ⟨sched ▸ sound.sched.withRequests, consistent, fun thread known => ?_,
    fun other => ?_, fun _ => ⟨core, by rw [sched], ?_, ?_⟩, .inl ?_⟩
  · rw [asked.priority, listed, sched]
    exact (Sync.repriced_congr agreed (real ▸ known)).symm
  · rw [sched, pc]
    exact (update_of_ne (live.2 other) _ _).trans (sound.idle other)
  · rw [sched, State.current, sched]
    exact live
  · rw [real, listed, State.current, sched]
    exact careful.transfer inside live.2 agreed
  · rw [sched]
    exact sound.orderly_of_agenda empty

theorem Sound.call {call : Sync.Call}
    (stepped : state.call config core call = some after) : Sound config after := by
  obtain ⟨⟨free, unheld, allowed⟩, stepped⟩ := ite_none_right_eq_some.mp stepped
  have consistent := sound.sync.clearCalls
  have permitted := Sync.permitted_clearCalls.trans allowed
  have enters := Sync.enter_spec consistent free.2.1 permitted
  split at stepped
  · cases stepped
  · rename_i sync outcome result
    rw [result] at enters
    obtain rfl := some_inj.mp stepped
    exact sound.begin free.1 unheld (Sync.enter_asks consistent free.2.1 permitted result)
      (Sync.Enters.consistent consistent free.2.1 enters) rfl rfl rfl

theorem Sound.resume (stepped : state.resume core = some after) : Sound config after := by
  obtain ⟨⟨executes, unheld⟩, stepped⟩ := ite_none_right_eq_some.mp stepped
  have consistent := sound.sync.clearCalls
  have inside : state.pc (state.current core) ≠ .outside := by
    intro outside
    rw [outside] at stepped
    cases stepped
  obtain ⟨sync, outcome, result, resumes⟩ := Sync.resume_spec consistent inside
  rw [result] at stepped
  obtain rfl := some_inj.mp stepped
  exact sound.begin executes unheld (Sync.resume_asks consistent result)
    (resumes.consistent consistent) rfl rfl rfl

end

/-! ### The agenda -/

/-- The state with a new priority, as far as the schedule is concerned. -/
structure Reprices (before after : PriorityScheduler.State threads cores) (thread : Fin threads)
    (value : Int) : Prop where
  allocated : after.allocated = before.allocated
  idle : after.idle = before.idle
  priority : after.priority = update before.priority thread value
  running : after.running = before.running
  holdingCore : after.holdingCore = before.holdingCore
  requested : after.requested = before.requested
  pendingWakeup : after.pendingWakeup = before.pendingWakeup
  flags : after.flags = before.flags

theorem IRQsetPriority_reprices (sched : PriorityScheduler.State threads cores)
    (thread : Fin threads) (value : Int) :
    Reprices sched (IRQsetPriority sched thread value) thread value := by
  simp only [IRQsetPriority]
  split
  · exact ⟨rfl, rfl, rfl, rfl, rfl, rfl, rfl, rfl⟩
  · split <;> exact ⟨rfl, rfl, rfl, rfl, rfl, rfl, rfl, rfl⟩

section

variable {after : PriorityScheduler.State threads cores}
  (reprices : Reprices before after thread value)

include reprices

theorem Reprices.live_iff (other : Fin threads) : after.Live other ↔ before.Live other := by
  unfold Cores.Live
  rw [reprices.allocated, reprices.idle]

/-- A running thread whose priority does not drop. -/
theorem Reprices.orderly (orderly : Orderly before)
    (runs : before.running core = thread) (higher : before.priority thread ≤ value) :
    Orderly after := by
  refine orderly.imp (fun settled other awaits place => ?_) fun pending => ?_
  · obtain ⟨live, ready, off⟩ := awaits
    rw [reprices.flags] at ready
    rw [reprices.running] at off
    have low := settled other ⟨(reprices.live_iff other).mp live, ready, off⟩ place
    have apart : other ≠ thread := fun same => off core (runs.trans same.symm)
    rw [reprices.priority, reprices.running, update_of_ne apart]
    by_cases same : before.running place = thread
    · rw [same] at low
      rw [same, update_self]
      exact low.trans higher
    · rw [update_of_ne same]
      exact low
  · unfold Pending
    rw [reprices.requested, reprices.pendingWakeup]
    exact pending

end

/-- An entry of the agenda that sets a priority is carried out. -/
theorem Sound.reprice (sound : Sound config state)
    (agenda : state.agenda = request :: rest) (sched : PriorityScheduler.Sound config after.sched)
    (idle : after.sched.idle = state.sched.idle)
    (priority : after.sched.priority = request.reprice state.sched.priority)
    (running : after.sched.running = state.sched.running)
    (holdingCore : after.sched.holdingCore = state.sched.holdingCore)
    (live : ∀ core, state.sched.Live (state.current core) → after.sched.Live (state.current core))
    (sync : after.sync = state.sync) (pc : after.pc = state.pc) (left : after.agenda = rest)
    (order : Orderly after.sched ∨ Owing after) : Sound config after := by
  have real := real_congr idle
  refine ⟨sched, sync ▸ pc ▸ sound.sync, fun thread known => ?_, fun core => ?_, fun _ => ?_, order⟩
  · rw [sync, sound.tracked thread (real ▸ known), agenda, left, priority]
    rfl
  · rw [pc, idle]
    exact sound.idle core
  · obtain ⟨core, holding, alive, careful⟩ := sound.careful (by simp [agenda])
    rw [agenda] at careful
    have current : after.current = state.current := running
    rw [real, left, priority, holdingCore, current]
    exact ⟨core, holding, live core alive, careful.2⟩

/-- The rest of an agenda still goes to wait, unless the wait was its head. -/
theorem Owing.tail (owing : Owing state) (agenda : state.agenda = request :: rest) :
    (∃ thread, .restartKernelAndWait thread ∈ rest) ∨
      (∃ thread, request = .restartKernelAndWait thread) ∨
      ∃ core next, state.sched.holdingCore = some core ∧ request = .wakeup next ∧
        state.sched.priority (state.current core) < state.sched.priority next := by
  rcases owing with ⟨thread, listed⟩ | ⟨core, next, holding, head, outranks⟩
  · rw [agenda] at listed
    rcases List.mem_cons.mp listed with same | later
    · exact .inr (.inl ⟨thread, same.symm⟩)
    · exact .inl ⟨thread, later⟩
  · rw [agenda, List.head?_cons, some_inj] at head
    exact .inr (.inr ⟨core, next, holding, head, outranks⟩)

section

variable (sound : Sound config state)

include sound

theorem Sound.performSetPriority (holding : state.sched.holdingCore = some core)
    (agenda : state.agenda = .setPriority thread value :: rest) (live : state.sched.Live thread) :
    Sound config { state with
      sched := IRQsetPriority state.sched thread value
      agenda := rest } := by
  obtain ⟨holder, held, -, careful⟩ := sound.careful (by simp [agenda])
  obtain rfl := some_inj.mp (holding.symm.trans held)
  rw [agenda] at careful
  obtain ⟨valid, prudent⟩ := careful.1
  have reprices := IRQsetPriority_reprices state.sched thread value
  refine sound.reprice agenda (sound.sched.setPriority live (decide_eq_true valid)) reprices.idle
    reprices.priority reprices.running reprices.holdingCore
    (fun _ => (reprices.live_iff _).mpr) rfl rfl rfl ?_
  rcases prudent with waits | ⟨rfl, lowers⟩
  · exact .inr (.inl ⟨_, waits⟩)
  by_cases lower : value < state.sched.priority (state.current core)
  · obtain ⟨next, different, -, head, outranks⟩ := lowers lower
    refine .inr (.inr ⟨core, next, reprices.holdingCore.trans holding, head, ?_⟩)
    show (IRQsetPriority state.sched _ value).priority
      ((IRQsetPriority state.sched _ value).running core) <
        (IRQsetPriority state.sched _ value).priority next
    rw [reprices.priority, reprices.running, update_of_ne different]
    show update state.sched.priority (state.current core) value (state.current core) < _
    rw [update_self]
    exact outranks
  · rcases sound.order with orderly | owing
    · exact .inl (reprices.orderly orderly rfl (not_lt.mp lower))
    · rcases owing.tail agenda with waits | ⟨_, ⟨⟩⟩ | ⟨_, _, _, ⟨⟩, _⟩
      exact .inr (.inl waits)

theorem Sound.performSetOwnPriority
    (holding : state.sched.holdingCore = some core) {pendingWakeup : Bool}
    (agenda : state.agenda = .setOwnPriority thread value pendingWakeup :: rest)
    (live : state.sched.Live thread) :
    Sound config { state with
      sched := { IRQsetPriority state.sched thread value with
        pendingWakeup := pendingWakeup || (IRQsetPriority state.sched thread value).pendingWakeup }
      agenda := rest } := by
  obtain ⟨holder, held, -, careful⟩ := sound.careful (by simp [agenda])
  obtain rfl := some_inj.mp (holding.symm.trans held)
  rw [agenda] at careful
  obtain ⟨valid, rfl, flag⟩ := careful.1
  have reprices := IRQsetPriority_reprices state.sched (state.current core) value
  have right := sound.sched.setPriority live (decide_eq_true valid)
  refine sound.reprice agenda ((pendingWakeup_keeps _).sound right) reprices.idle
    reprices.priority reprices.running reprices.holdingCore
    (fun _ => (reprices.live_iff _).mpr) rfl rfl rfl ?_
  by_cases lower : value < state.sched.priority (state.current core)
  · refine .inl (.inr (.inr ?_))
    rw [flag, decide_eq_true lower, Bool.true_or]
  · have same : (pendingWakeup || (IRQsetPriority state.sched (state.current core)
        value).pendingWakeup) =
          (IRQsetPriority state.sched (state.current core) value).pendingWakeup := by
      rw [flag, decide_eq_false lower, Bool.false_or]
    simp only [same]
    rcases sound.order with orderly | owing
    · exact .inl (reprices.orderly orderly rfl (not_lt.mp lower))
    · rcases owing.tail agenda with waits | ⟨_, ⟨⟩⟩ | ⟨_, _, _, ⟨⟩, _⟩
      exact .inr (.inl waits)

theorem Sound.performWakeup (noAffinity : support ≠ .smpWithAffinity)
    {core : Fin cores} (agenda : state.agenda = .wakeup thread :: rest)
    (live : state.sched.Live thread) :
    Sound config { state with
      sched := PKwakeup support state.sched thread core
      agenda := rest } := by
  have keeps : Keeps config state.sched (PKwakeup support state.sched thread core) :=
    PKwakeup_keeps noAffinity live
  have same := keeps.same
  refine sound.reprice agenda (keeps.sound sound.sched) same.idle same.priority same.running
    same.holdingCore same.live rfl rfl rfl ?_
  rcases sound.order with orderly | owing
  · exact .inl (PKwakeup_orderly noAffinity (.inl orderly))
  · rcases owing.tail agenda with waits | ⟨_, ⟨⟩⟩ | ⟨holder, next, _, ⟨⟩, outranks⟩
    · exact .inr (.inl waits)
    · exact .inl (PKwakeup_orderly noAffinity (.inr ⟨holder, outranks⟩))

theorem Sound.performRestart (agenda : state.agenda = .restartKernelAndWait thread :: rest) :
    Sound config { state.restartKernelAndWait core with agenda := rest } := by
  obtain ⟨holder, -, -, careful⟩ := sound.careful (by simp [agenda])
  rw [agenda] at careful
  have last : rest = [] := careful.1.2
  have keeps : Keeps config state.sched (IRQblock state.sched core .wait) := block_keeps
  refine ⟨(keeps.sound sound.sched).withRequests, sound.sync, fun other known => ?_,
    sound.idle, absurd last, .inl (block_orderly state.sched core)⟩
  have tracked := sound.tracked other known
  rw [agenda] at tracked
  exact tracked

theorem Sound.perform (noAffinity : support ≠ .smpWithAffinity)
    (stepped : state.perform config support core = some after) : Sound config after := by
  obtain ⟨holding, stepped⟩ := ite_none_right_eq_some.mp stepped
  split at stepped
  · cases stepped
  · rename_i thread value rest agenda
    obtain ⟨sched, set, rfl⟩ := map_eq_some_iff.mp stepped
    obtain ⟨⟨live, -⟩, rfl⟩ := of_guard set
    exact sound.performSetPriority holding agenda live
  · rename_i thread value pendingWakeup rest agenda
    obtain ⟨sched, set, rfl⟩ := map_eq_some_iff.mp stepped
    obtain ⟨⟨live, -⟩, rfl⟩ := of_guard set
    exact sound.performSetOwnPriority holding agenda live
  · rename_i thread rest agenda
    obtain ⟨live, rfl⟩ := of_guard stepped
    exact sound.performWakeup noAffinity agenda live
  · rename_i thread rest agenda
    obtain rfl := some_inj.mp stepped
    exact sound.performRestart agenda

end

end Miosix.Kernel
