/-
This file is about where a scheduler keeps each thread, for any scheduler.

What a thread is and does (whether it exists, runs on a core and is ready) says where it
belongs, its slot: in no list, in the ready queue, or in the list of threads that are not
ready. How the ready queue is built is up to the scheduler; here it is the predicate `queued`.
A step changes the slot of one thread at a time, and the lemmas say what the step has to do
with the lists then.
-/

import Miosix.Lib.Transition
import Miosix.Sched.Cores

namespace Miosix.Cores

open Function

variable {threads cores : Nat}

/-! ### Slots -/

/-- The list a thread belongs in; a running thread is in none. -/
inductive Slot where
  | nowhere
  | ready
  | notReady
  deriving DecidableEq, Repr

section

variable (state : Cores threads cores)

/-- The slot of a thread, for the threads that count as running. -/
def slot (onCore : Fin threads → Bool) (thread : Fin threads) :
    Slot :=
  if ¬ state.Live thread ∨ onCore thread = true then .nowhere
  else if (state.flags thread).isReady = true then .ready
  else .notReady

def onCore (thread : Fin threads) : Bool :=
  decide (∃ core, state.running core = thread)

/-- The threads that run on other cores. -/
def elsewhere (core : Fin cores) (thread : Fin threads) : Bool :=
  decide (∃ other, other ≠ core ∧ state.running other = thread)

end

variable {state before after : Cores threads cores} {thread : Fin threads} {core : Fin cores}
  {onCore : Fin threads → Bool} {queued queuedAfter : Fin threads → Prop}
  {next : Cores threads cores}

theorem mem_onCore : state.onCore thread = true ↔ ∃ core, state.running core = thread := by
  simp [onCore]

theorem off_iff : state.onCore thread = false ↔ ∀ core, state.running core ≠ thread := by
  rw [← Bool.not_eq_true, mem_onCore, not_exists]

theorem mem_elsewhere :
    state.elsewhere core thread = true ↔ ∃ other, other ≠ core ∧ state.running other = thread := by
  simp [elsewhere]

/-- A thread runs elsewhere or it is the one that runs here. -/
theorem onCore_eq (core : Fin cores) (thread : Fin threads) : state.onCore thread =
      (state.elsewhere core thread || decide (thread = state.running core)) := by
  rw [Bool.eq_iff_iff, Bool.or_eq_true, mem_onCore, mem_elsewhere, decide_eq_true_eq]
  constructor
  · rintro ⟨other, same⟩
    by_cases here : other = core
    · exact .inr (by rw [← same, here])
    · exact .inl ⟨other, here, same⟩
  · rintro (⟨other, -, same⟩ | same)
    · exact ⟨other, same⟩
    · exact ⟨core, same.symm⟩

theorem slot_nowhere (absent : ¬ state.Live thread ∨ onCore thread = true) :
    state.slot onCore thread = .nowhere :=
  if_pos absent

theorem slot_eq_ready_iff : state.slot onCore thread = .ready ↔
      state.Live thread ∧ onCore thread = false ∧ (state.flags thread).isReady = true := by
  unfold slot
  by_cases live : state.Live thread
  · cases onCore thread <;> simp [live]
  · simp [live]

theorem slot_eq_notReady_iff : state.slot onCore thread = .notReady ↔
      state.Live thread ∧ onCore thread = false ∧ (state.flags thread).isReady = false := by
  unfold slot
  by_cases live : state.Live thread
  · cases onCore thread <;> cases (state.flags thread).isReady <;> simp [live]
  · simp [live]

/-- Two states agree on where a thread belongs. -/
structure Agree (before after : Cores threads cores) (onCore onCoreAfter : Fin threads → Bool)
    (thread : Fin threads) : Prop where
  live : after.Live thread ↔ before.Live thread
  onCore : onCoreAfter thread = onCore thread
  ready : (after.flags thread).isReady = (before.flags thread).isReady

theorem Agree.slot_eq {onCoreAfter : Fin threads → Bool}
    (agree : Agree before after onCore onCoreAfter thread) :
    after.slot onCoreAfter thread = before.slot onCore thread := by
  simp only [slot, agree.onCore, agree.ready, agree.live]

section

variable (state : Cores threads cores) (queued : Fin threads → Prop) (slot : Fin threads → Slot)

/-- A thread that is ready and runs on no core. -/
def AwaitsCore (thread : Fin threads) : Prop :=
  state.Live thread ∧ (state.flags thread).isReady = true ∧ ∀ core, state.running core ≠ thread
  deriving Decidable

/-! ### The invariant -/

/-- The lists hold exactly the threads of their slots. -/
structure Filed : Prop where
  ready : ∀ thread, queued thread ↔ slot thread = .ready
  notReady : ∀ thread, thread ∈ state.notReady ↔ slot thread = .notReady
  nodup : state.notReady.Nodup

/-- The lists are right, and a thread runs on one core. -/
structure Sound : Prop where
  filed : state.Filed queued (state.slot state.onCore)
  home : ∀ core, state.running core = state.idle core ∨ state.Live (state.running core)
  once : ∀ core other, state.Live (state.running core) →
    state.running core = state.running other → core = other

end

section

variable (sound : Sound state queued)
include sound

theorem Sound.queued_iff (thread : Fin threads) : queued thread ↔ state.AwaitsCore thread := by
  rw [sound.filed.ready, slot_eq_ready_iff, off_iff]
  exact and_congr_right fun _ => And.comm

theorem Sound.mem_notReady_iff :
    thread ∈ state.notReady ↔ state.Live thread ∧ (state.flags thread).isReady = false ∧
      ∀ core, state.running core ≠ thread := by
  rw [sound.filed.notReady, slot_eq_notReady_iff, off_iff]
  exact and_congr_right fun _ => And.comm

theorem Sound.off_of_not_live (dead : ¬ state.Live thread)
    (notIdle : ∀ core, state.idle core ≠ thread) : state.onCore thread = false := by
  rw [off_iff]
  rintro core rfl
  rcases sound.home core with idle | live
  · exact notIdle core idle.symm
  · exact dead live

theorem Sound.running_unlisted (core : Fin cores) :
    ¬ queued (state.running core) ∧ state.running core ∉ state.notReady := by
  rw [sound.queued_iff, sound.mem_notReady_iff]
  exact ⟨fun both => both.2.2 core rfl, fun both => both.2.2 core rfl⟩

theorem Sound.not_queued_of_unready (unready : (state.flags thread).isReady = false) :
    ¬ queued thread := by
  intro listed
  rw [((sound.queued_iff thread).mp listed).2.1] at unready
  cases unready

theorem Sound.congr {other : Fin threads → Prop}
    (same : ∀ thread, other thread ↔ queued thread) : Sound state other :=
  (show other = queued from funext fun thread => propext (same thread)) ▸ sound

/-- A step that changes neither the lists nor where a thread belongs. -/
theorem Sound.frame (sameNotReady : after.notReady = state.notReady)
    (sameRunning : after.running = state.running) (sameIdle : after.idle = state.idle)
    (sameLive : ∀ thread, after.Live thread ↔ state.Live thread)
    (sameReady : ∀ thread, (∃ core, state.running core = thread) ∨
      (after.flags thread).isReady = (state.flags thread).isReady) : Sound after queued := by
  have sameOn : after.onCore = state.onCore := by
    unfold onCore
    rw [sameRunning]
  have sameSlot : after.slot after.onCore = state.slot state.onCore := by
    funext thread
    rcases sameReady thread with running | ready
    · have onCore := mem_onCore.mpr running
      rw [slot_nowhere (.inr onCore), slot_nowhere (.inr (sameOn ▸ onCore))]
    · exact Agree.slot_eq ⟨sameLive thread, by rw [sameOn], ready⟩
  refine ⟨⟨?_, ?_, ?_⟩, fun core => ?_, fun core other => ?_⟩
  · rw [sameSlot]
    exact sound.filed.ready
  · rw [sameSlot, sameNotReady]
    exact sound.filed.notReady
  · exact sameNotReady ▸ sound.filed.nodup
  · rw [sameRunning, sameIdle, sameLive]
    exact sound.home core
  · rw [sameRunning, sameLive]
    exact sound.once core other

/-- The lists do not depend on the masks, the lock and the requests. -/
theorem Sound.withRequests {affinity : Fin threads → Fin cores → Bool}
    {holdingCore : Option (Fin cores)} {pendingWakeup : Bool} {requested : Fin cores → Bool} :
    Sound { state with
      affinity := affinity
      holdingCore := holdingCore
      pendingWakeup := pendingWakeup
      requested := requested } queued :=
  sound.frame rfl rfl rfl (fun _ => Iff.rfl) fun _ => .inr rfl

/-- A step that concerns one thread, which does not run. -/
theorem Sound.move (moved : Fin threads)
    (agree : ∀ thread, thread ≠ moved → Agree state after state.onCore after.onCore thread)
    (off : state.onCore moved = false) (sameRunning : after.running = state.running)
    (sameIdle : after.idle = state.idle)
    (others : ∀ thread, thread ≠ moved → (queuedAfter thread ↔ queued thread))
    (othersAside : ∀ thread, thread ≠ moved → (thread ∈ after.notReady ↔ thread ∈ state.notReady))
    (ready : queuedAfter moved ↔ after.slot after.onCore moved = .ready)
    (aside : moved ∈ after.notReady ↔ after.slot after.onCore moved = .notReady)
    (nodup : after.notReady.Nodup) : Sound after queuedAfter := by
  have notMoved : ∀ core, state.running core ≠ moved := off_iff.mp off
  refine ⟨⟨fun thread => ?_, fun thread => ?_, nodup⟩, fun core => ?_,
    fun core other live same => ?_⟩
  · by_cases same : thread = moved
    · exact same ▸ ready
    · rw [others thread same, (agree thread same).slot_eq]
      exact sound.filed.ready thread
  · by_cases same : thread = moved
    · exact same ▸ aside
    · rw [othersAside thread same, (agree thread same).slot_eq]
      exact sound.filed.notReady thread
  · rw [sameRunning, sameIdle]
    exact (sound.home core).imp id (agree _ (notMoved core)).live.mpr
  · rw [sameRunning] at live same
    exact sound.once core other ((agree _ (notMoved core)).live.mp live) same

end

/-! ### Threads that come, wake and go -/

/-- The slots of the other threads when a thread is created. -/
theorem create_agree (affinity : Fin cores → Bool) (waiting : Bool) {other : Fin threads}
    (different : other ≠ thread) : Agree state (state.create thread affinity waiting) state.onCore
      (state.create thread affinity waiting).onCore other :=
  ⟨by simp [Live, create, different], rfl, by simp [create, different]⟩

theorem isReady_create {affinity : Fin cores → Bool} {waiting : Bool} :
    ((state.create thread affinity waiting).flags thread).isReady = !waiting := by
  cases waiting <;> simp [create, ThreadFlags.isReady, ThreadFlags.clear]

theorem not_live_of_unallocated (unallocated : state.allocated thread = false) :
    ¬ state.Live thread :=
  fun live => absurd (live.1.symm.trans unallocated) (by simp)

theorem Sound.create_slot (sound : Sound state queued)
    (unallocated : state.allocated thread = false) (notIdle : ∀ core, state.idle core ≠ thread)
    (affinity : Fin cores → Bool) (waiting : Bool) :
    state.onCore thread = false ∧
      (state.create thread affinity waiting).slot (state.create thread affinity waiting).onCore
        thread = if waiting then .notReady else .ready := by
  have off := sound.off_of_not_live (not_live_of_unallocated unallocated) notIdle
  refine ⟨off, ?_⟩
  have live : (state.create thread affinity waiting).Live thread := ⟨by simp [create], notIdle⟩
  have offAfter : (state.create thread affinity waiting).onCore thread = false := off
  cases waiting with
  | true => exact slot_eq_notReady_iff.mpr ⟨live, offAfter, isReady_create⟩
  | false => exact slot_eq_ready_iff.mpr ⟨live, offAfter, isReady_create⟩

section

variable (sound : Sound state queued) {flags : ThreadFlags}

include sound

theorem Sound.unlisted (dead : ¬ state.Live thread) :
    ¬ queued thread ∧ thread ∉ state.notReady := by
  rw [sound.queued_iff, sound.mem_notReady_iff]
  exact ⟨fun both => dead both.1, fun both => dead both.1⟩

section

variable (unallocated : state.allocated thread = false) (notIdle : ∀ core, state.idle core ≠ thread)
  (affinity : Fin cores → Bool)

include unallocated notIdle affinity

theorem Sound.addReady (grown : ∀ other, queuedAfter other ↔ queued other ∨ other = thread) :
    Sound (state.create thread affinity false) queuedAfter := by
  obtain ⟨off, belongs⟩ := sound.create_slot unallocated notIdle affinity false
  obtain ⟨-, unset⟩ := sound.unlisted (not_live_of_unallocated unallocated)
  refine sound.move thread (fun other => create_agree affinity false)
    off rfl rfl (fun other different => by simp [grown, different]) (fun _ _ => Iff.rfl) ?_ ?_
    sound.filed.nodup
  · simp [grown, belongs]
  · rw [belongs]
    exact ⟨fun listed => absurd listed unset, nofun⟩

theorem Sound.addWaiting :
    Sound { state.create thread affinity true with notReady := thread :: state.notReady }
      queued := by
  obtain ⟨off, belongs⟩ := sound.create_slot unallocated notIdle affinity true
  obtain ⟨unqueued, unset⟩ := sound.unlisted (not_live_of_unallocated unallocated)
  refine sound.move thread (fun other different => ?_) off rfl rfl (fun _ _ => Iff.rfl)
    (fun other different => by simp [different]) ?_ ?_
    (List.nodup_cons.mpr ⟨unset, sound.filed.nodup⟩)
  · obtain ⟨live, -, ready⟩ := create_agree affinity true different
    exact ⟨live, rfl, ready⟩
  · refine ⟨fun listed => absurd listed unqueued, fun ready => ?_⟩
    exact absurd (belongs.symm.trans ready) (by simp)
  · exact ⟨fun _ => belongs, fun _ => List.mem_cons_self⟩

end

/-- A thread that does not run becomes ready and is put in the ready queue. -/
theorem Sound.wake (live : state.Live thread)
    (stopped : ¬ ∃ core, state.running core = thread) (ready : flags.isReady = true)
    (grown : ∀ other, queuedAfter other ↔ queued other ∨ other = thread) :
    Sound { state.setFlags thread flags with notReady := state.notReady.erase thread }
      queuedAfter := by
  have off : state.onCore thread = false := off_iff.mpr (not_exists.mp stopped)
  have belongs : (state.setFlags thread flags).slot (state.setFlags thread flags).onCore thread =
      .ready := slot_eq_ready_iff.mpr ⟨live, off, by simpa [setFlags] using ready⟩
  refine sound.move thread (fun other different => ⟨Iff.rfl, rfl, by simp [setFlags, different]⟩)
    off rfl rfl (fun other different => by simp [grown, different])
    (fun other => List.mem_erase_of_ne) ?_ ?_ (sound.filed.nodup.erase thread)
  · exact ⟨fun _ => belongs, fun _ => (grown thread).mpr (.inr rfl)⟩
  · refine ⟨fun listed => absurd listed sound.filed.nodup.not_mem_erase, fun aside => ?_⟩
    exact absurd (belongs.symm.trans aside) (by simp)

/-- The flags of a thread change, but not whether it is ready, unless it runs. -/
theorem Sound.setFlags
    (same : (∃ core, state.running core = thread) ∨ flags.isReady = (state.flags thread).isReady) :
    Sound (state.setFlags thread flags) queued := by
  refine sound.frame rfl rfl rfl (fun _ => Iff.rfl) fun other => ?_
  by_cases equal : other = thread
  · subst equal
    simpa [Cores.setFlags] using same
  · exact .inr (by simp [Cores.setFlags, equal])

theorem Sound.request (core : Fin cores) : Sound (state.request core) queued :=
  sound.withRequests

theorem Sound.restartKernel (core : Fin cores) : Sound (state.restartKernel core) queued := by
  simp only [Cores.restartKernel]
  split <;> exact sound.withRequests

end

/-- What `removeDeadThreads` takes out is a deleted thread at the end of the list. -/
theorem removeDeadThread_eq_some (removed : state.removeDeadThread = some next) :
    ∃ thread, thread ∈ state.notReady ∧ next = { state with
      notReady := state.notReady.dropLast
      allocated := update state.allocated thread false } ∧
        state.notReady.dropLast ++ [thread] = state.notReady := by
  unfold Cores.removeDeadThread at removed
  split at removed
  · cases removed
  · rename_i thread last
    obtain ⟨-, rfl⟩ := of_guard removed
    have split := List.dropLast_append_getLast? thread last
    exact ⟨thread, by rw [← split]; simp, rfl, split⟩

theorem live_of_removeDeadThread {state next : Cores threads cores}
    (removed : state.removeDeadThread = some next) {other : Fin threads}
    (live : next.Live other) : state.Live other := by
  obtain ⟨thread, -, rfl, -⟩ := removeDeadThread_eq_some removed
  by_cases same : other = thread
  · simp [Live, same] at live
  · simpa [Live, same] using live

theorem Sound.removeDeadThread (sound : Sound state queued)
    (removed : state.removeDeadThread = some next) : Sound next queued := by
  obtain ⟨thread, listed, rfl, split⟩ := removeDeadThread_eq_some removed
  obtain ⟨-, unready, off⟩ := sound.mem_notReady_iff.mp listed
  have nodup := sound.filed.nodup
  rw [← split, List.nodup_append] at nodup
  have dead : Cores.slot { state with
      notReady := state.notReady.dropLast
      allocated := update state.allocated thread false } state.onCore thread = .nowhere :=
    slot_nowhere (.inl fun live => by simp [Live] at live)
  refine sound.move thread (fun other different => ⟨by simp [Live, different], rfl, rfl⟩)
    (off_iff.mpr off) rfl rfl (fun _ _ => Iff.rfl) (fun other different => ?_) ?_ ?_ nodup.1
  · conv_rhs => rw [← split]
    simp [different]
  · exact ⟨fun queued => absurd queued (sound.not_queued_of_unready unready),
      fun ready => absurd (dead.symm.trans ready) (by simp)⟩
  · refine ⟨fun member => absurd rfl (nodup.2.2 thread member thread (by simp)), fun aside => ?_⟩
    exact absurd (dead.symm.trans aside) (by simp)

section

variable {label : Label threads cores} (stepped : state.exec label = some next)
include stepped

theorem Sound.step (sound : Sound state queued) : Sound next queued := by
  cases label with
  | add | setPriority | unblock | runScheduler => cases stepped
  | block core blocking =>
    obtain ⟨-, rfl⟩ := of_guard stepped
    exact (sound.setFlags (.inl ⟨core, rfl⟩)).request core
  | detach thread =>
    obtain ⟨-, rfl⟩ := of_guard stepped
    exact sound.setFlags (.inr rfl)
  | pauseKernel core =>
    obtain ⟨-, rfl⟩ := of_guard stepped
    exact sound.withRequests
  | restartKernel core =>
    obtain ⟨-, rfl⟩ := of_guard stepped
    exact sound.restartKernel core
  | removeDeadThread => exact sound.removeDeadThread stepped

/-- No thread is added, and the idle threads stay the same. -/
theorem live_of_exec : (∀ thread, next.Live thread → state.Live thread) ∧
    next.idle = state.idle := by
  cases label with
  | add | setPriority | unblock | runScheduler => cases stepped
  | block | detach | pauseKernel =>
    obtain ⟨-, rfl⟩ := of_guard stepped
    exact ⟨fun _ => id, rfl⟩
  | restartKernel core =>
    obtain ⟨-, rfl⟩ := of_guard stepped
    unfold Cores.restartKernel
    split <;> exact ⟨fun _ => id, rfl⟩
  | removeDeadThread =>
    refine ⟨fun _ => live_of_removeDeadThread stepped, ?_⟩
    obtain ⟨-, -, rfl, -⟩ := removeDeadThread_eq_some stepped
    rfl

end

/-! ### The scheduler run -/

/-- The previously running thread has been put in a list, and nothing runs on this core yet. -/
structure Vacated (state : Cores threads cores) (core : Fin cores) (queued : Fin threads → Prop) :
    Prop where
  filed : state.Filed queued (state.slot (state.elsewhere core))
  home : ∀ other, other ≠ core →
    state.running other = state.idle other ∨ state.Live (state.running other)
  once : ∀ first second, first ≠ core → second ≠ core → state.Live (state.running first) →
    state.running first = state.running second → first = second

theorem Vacated.queued_iff (vacated : Vacated state core queued) (thread : Fin threads) :
    queued thread ↔ state.Live thread ∧ (state.flags thread).isReady = true ∧
      state.elsewhere core thread = false := by
  rw [vacated.filed.ready, slot_eq_ready_iff]
  exact and_congr_right fun _ => And.comm

/-- Putting a thread in a list changes nothing that says where threads belong. -/
structure SameThreads (before after : Cores threads cores) : Prop where
  allocated : after.allocated = before.allocated
  flags : after.flags = before.flags
  affinity : after.affinity = before.affinity
  running : after.running = before.running
  idle : after.idle = before.idle

theorem SameThreads.refl (state : Cores threads cores) : SameThreads state state :=
  ⟨rfl, rfl, rfl, rfl, rfl⟩

theorem SameThreads.live (same : SameThreads before after) (thread : Fin threads) :
    after.Live thread ↔ before.Live thread := by
  unfold Live
  rw [same.allocated, same.idle]

section

variable (sound : Sound state queued) {list : List (Fin threads)}

include sound

/-- Where the running thread belongs once it does not run: an idle thread in no list, and any
other thread where its flags say. -/
theorem Sound.elsewhere_slot : state.slot (state.elsewhere core) = update (state.slot state.onCore)
      (state.running core) (if state.running core = state.idle core then .nowhere
        else if (state.flags (state.running core)).isReady then .ready else .notReady) := by
  funext thread
  by_cases same : thread = state.running core
  · subst same
    rw [update_self]
    split
    · rename_i idle
      exact slot_nowhere (.inl fun live => live.2 core idle.symm)
    · rename_i busy
      have live := (sound.home core).resolve_left busy
      have alone : state.elsewhere core (state.running core) = false := by
        rw [← Bool.not_eq_true, mem_elsewhere]
        rintro ⟨other, different, same⟩
        exact different (sound.once core other live same.symm).symm
      simp [Cores.slot, live, alone]
  · rw [update_of_ne same]
    exact Agree.slot_eq ⟨Iff.rfl, by simp [onCore_eq core, same], rfl⟩

/-- The previously running thread is put where it belongs. -/
theorem Sound.vacate (core : Fin cores)
    (others : ∀ thread, thread ≠ state.running core → (queuedAfter thread ↔ queued thread))
    (othersAside : ∀ thread, thread ≠ state.running core →
      (thread ∈ list ↔ thread ∈ state.notReady))
    (ready : queuedAfter (state.running core) ↔ state.running core ≠ state.idle core ∧
      (state.flags (state.running core)).isReady = true)
    (aside : state.running core ∈ list ↔ state.running core ≠ state.idle core ∧
      (state.flags (state.running core)).isReady = false) (nodup : list.Nodup) :
    Vacated { state with notReady := list } core queuedAfter := by
  refine ⟨?_, fun other _ => sound.home other, fun first second _ _ => sound.once first second⟩
  show Filed _ _ (state.slot (state.elsewhere core))
  rw [sound.elsewhere_slot]
  refine ⟨fun thread => ?_, fun thread => ?_, nodup⟩
  · by_cases same : thread = state.running core
    · subst same
      rw [update_self, ready]
      split_ifs <;> simp_all
    · rw [update_of_ne same, others thread same]
      exact sound.filed.ready thread
  · by_cases same : thread = state.running core
    · subst same
      rw [update_self]
      refine aside.trans ?_
      split_ifs <;> simp_all
    · rw [update_of_ne same]
      exact (othersAside thread same).trans (sound.filed.notReady thread)

theorem Sound.vacateIdle
    (idle : state.running core = state.idle core) : Vacated state core queued := by
  obtain ⟨unqueued, unset⟩ := sound.running_unlisted core
  exact sound.vacate core (fun _ _ => Iff.rfl) (fun _ _ => Iff.rfl)
    ⟨fun listed => absurd listed unqueued, fun busy => absurd idle busy.1⟩
    ⟨fun listed => absurd listed unset, fun busy => absurd idle busy.1⟩ sound.filed.nodup

theorem Sound.vacateAside (busy : state.running core ≠ state.idle core)
    (unready : (state.flags (state.running core)).isReady = false)
    (permuted : list.Perm (state.running core :: state.notReady)) :
    Vacated { state with notReady := list } core queued := by
  obtain ⟨unqueued, unset⟩ := sound.running_unlisted core
  refine sound.vacate core (fun _ _ => Iff.rfl) (fun thread different => ?_)
    (by simp [unqueued, unready]) ?_
    (permuted.nodup_iff.mpr (List.nodup_cons.mpr ⟨unset, sound.filed.nodup⟩))
  · simp [permuted.mem_iff, different]
  · simp [permuted.mem_iff, busy, unready]

theorem Sound.vacateReady (busy : state.running core ≠ state.idle core)
    (ready : (state.flags (state.running core)).isReady = true)
    (grown : ∀ thread, queuedAfter thread ↔ queued thread ∨ thread = state.running core) :
    Vacated state core queuedAfter := by
  obtain ⟨unqueued, unset⟩ := sound.running_unlisted core
  exact sound.vacate core (fun thread different => by simp [grown, different])
    (fun _ _ => Iff.rfl) (by simp [grown, busy, ready]) (by simp [unset, ready])
    sound.filed.nodup

end

theorem setRunning_self : (state.setRunning core thread).running core = thread := update_self ..

theorem setRunning_of_ne {other : Fin cores} (different : other ≠ core) :
    (state.setRunning core thread).running other = state.running other :=
  update_of_ne different ..

/-- The slot of a thread that was not selected. -/
theorem setRunning_slot {next : Fin threads} (different : thread ≠ next) :
    (state.setRunning core next).slot (state.setRunning core next).onCore thread =
      state.slot (state.elsewhere core) thread := by
  refine Agree.slot_eq ⟨Iff.rfl, ?_, rfl⟩
  rw [onCore_eq core, setRunning_self, decide_eq_false different, Bool.or_false,
    Bool.eq_iff_iff, mem_elsewhere, mem_elsewhere]
  refine exists_congr fun other => and_congr_right fun apart => ?_
  rw [setRunning_of_ne apart]

/-- The selected thread leaves its queue and runs. -/
theorem Vacated.dispatch (vacated : Vacated state core queued) {next : Fin threads}
    (fits : next = state.idle core ∨ queued next)
    (taken : ∀ thread, queuedAfter thread ↔ queued thread ∧ thread ≠ next) :
    Sound (state.setRunning core next) queuedAfter := by
  have fresh : ∀ other, other ≠ core → state.Live next → state.running other ≠ next := by
    intro other different live running
    rcases fits with idle | listed
    · exact live.2 core idle.symm
    · have alone := ((vacated.queued_iff next).mp listed).2.2
      exact absurd (mem_elsewhere.mpr ⟨other, different, running⟩) (by simp [alone])
  have chosen : (state.setRunning core next).slot (state.setRunning core next).onCore next =
      .nowhere := slot_nowhere (.inr (mem_onCore.mpr ⟨core, setRunning_self ..⟩))
  refine ⟨⟨fun thread => ?_, fun thread => ?_, vacated.filed.nodup⟩, fun other => ?_,
    fun first second live same => ?_⟩
  · by_cases same : thread = next
    · subst same
      simp [taken, chosen]
    · rw [taken, setRunning_slot same, ← vacated.filed.ready]
      exact and_iff_left same
  · refine (vacated.filed.notReady thread).trans ?_
    by_cases same : thread = next
    · subst same
      rw [chosen]
      refine ⟨fun aside => ?_, nofun⟩
      rcases fits with idle | listed
      · exact absurd idle.symm ((slot_eq_notReady_iff.mp aside).1.2 core)
      · rw [(vacated.filed.ready thread).mp listed] at aside
        cases aside
    · rw [setRunning_slot same]
  · by_cases here : other = core
    · subst here
      rw [setRunning_self]
      exact fits.imp id fun listed => ((vacated.queued_iff next).mp listed).1
    · rw [setRunning_of_ne here]
      exact vacated.home other here
  · by_cases firstHere : first = core
    · by_cases secondHere : second = core
      · rw [firstHere, secondHere]
      · rw [firstHere, setRunning_self] at live same
        rw [setRunning_of_ne secondHere] at same
        exact absurd same.symm (fresh second secondHere live)
    · rw [setRunning_of_ne firstHere] at live same
      by_cases secondHere : second = core
      · rw [secondHere, setRunning_self] at same
        exact absurd same (fresh first firstHere (same ▸ live))
      · rw [setRunning_of_ne secondHere] at same
        exact vacated.once first second firstHere secondHere live same

theorem Vacated.dispatchIdle (vacated : Vacated state core queued) :
    Sound (state.setRunning core (state.idle core)) queued := by
  refine vacated.dispatch (.inl rfl) fun thread => ⟨fun listed => ⟨listed, ?_⟩, And.left⟩
  rintro rfl
  exact ((vacated.queued_iff _).mp listed).1.2 core rfl

/-- Before the first thread is created. -/
theorem sound_of_unallocated (unallocated : ∀ thread, state.allocated thread = false)
    (idle : ∀ core, state.running core = state.idle core) (empty : state.notReady = [])
    (nobody : ∀ thread, ¬ queued thread) : Sound state queued := by
  have dead := fun thread => not_live_of_unallocated (unallocated thread)
  refine ⟨⟨fun thread => ?_, fun thread => ?_, empty ▸ List.nodup_nil⟩,
    fun core => .inl (idle core),
    fun core _ live => absurd live (dead _)⟩
  · simp [nobody thread, slot_nowhere (.inl (dead thread))]
  · simp [empty, slot_nowhere (.inl (dead thread))]

end Miosix.Cores
