/-
This file proves what the functions that block and wake threads do to the schedule: each of
them keeps the lists right, and none leaves a thread that awaits a core above a running one
without a scheduler run pending. The exception is `Thread::terminate`.
-/

import Miosix.Kernel.Machine
import Miosix.Sched.Inversion

namespace Miosix.Kernel

open PriorityScheduler

variable {threads cores : Nat} {config : Config} {support : CoreSupport} {core : Fin cores}

/-! ### One wakeup -/

/-- The schedule is in order, or somebody is going to look at it. -/
def Orderly (sched : PriorityScheduler.State threads cores) : Prop := Settled sched ∨ Pending sched

/-- A step on the schedule that changes neither who runs nor the priorities. -/
structure Keeps (config : Config) (before after : PriorityScheduler.State threads cores) :
    Prop where
  sound : Sound config before → Sound config after
  same : SameSchedule before after

theorem Keeps.refl (sched : PriorityScheduler.State threads cores) : Keeps config sched sched :=
  ⟨id, .refl sched⟩

theorem Keeps.trans {first second third : PriorityScheduler.State threads cores}
    (one : Keeps config first second) (two : Keeps config second third) :
    Keeps config first third :=
  ⟨two.sound ∘ one.sound, one.same.trans two.same⟩

theorem request_keeps {sched : PriorityScheduler.State threads cores} :
    Keeps config sched (sched.request core) :=
  ⟨fun sound => sound.request core, request_sameSchedule sched⟩

variable {sched : PriorityScheduler.State threads cores} {thread : Fin threads}
  {flags : ThreadFlags} {target : Fin threads} {unblocking : Unblocking} {balancing : Hlb}

theorem clear_keeps (live : sched.Live thread) :
    Keeps config sched (IRQclear sched thread unblocking) :=
  ⟨fun sound => sound.unblock live unblocking, (clear_touches sched thread unblocking).sameSchedule⟩

theorem pendingWakeup_keeps (sched : PriorityScheduler.State threads cores) {value : Bool} :
    Keeps config sched { sched with pendingWakeup := value } :=
  ⟨fun sound => sound.withRequests, ⟨rfl, rfl, rfl, rfl, fun _ => id⟩⟩

section

variable (noAffinity : support ≠ .smpWithAffinity)

include noAffinity

section

variable (balancing : Hlb) (sched : PriorityScheduler.State threads cores) (thread : Fin threads)
  (core : Fin cores)

/-- `IRQconsiderRescheduling` finds a core just if the thread outranks a running one, and then a
run is requested there or left to the caller. -/
theorem consider_cases : ((∀ other, sched.priority thread ≤ sched.priority (sched.running other)) ∧
      IRQconsiderRescheduling support balancing sched thread core = (sched, false)) ∨
    IRQconsiderRescheduling support balancing sched thread core = (sched, true) ∨
    ∃ other, IRQconsiderRescheduling support balancing sched thread core =
      (sched.request other, false) := by
  have all : ∀ other, other ∈ balancing.order cores := by
    intro other
    cases balancing <;> simp [Hlb.order]
  unfold IRQconsiderRescheduling
  split
  · rename_i nobody
    refine .inl ⟨fun other => ?_, rfl⟩
    simpa [noAffinity] using List.find?_eq_none.mp nobody other (all other)
  · split
    · exact .inr (.inl rfl)
    · exact .inr (.inr ⟨_, rfl⟩)

theorem reschedule_cases :
    ((∀ other, sched.priority thread ≤ sched.priority (sched.running other)) ∧
      IRQreschedule support balancing sched thread core = sched) ∨
    ∃ other, IRQreschedule support balancing sched thread core = sched.request other := by
  unfold IRQreschedule
  rcases consider_cases noAffinity balancing sched thread core with
    ⟨low, result⟩ | result | ⟨other, result⟩
  · exact .inl ⟨low, by simp [result]⟩
  · exact .inr ⟨core, by simp [result]⟩
  · exact .inr ⟨other, by simp [result]⟩

theorem reschedule_keeps :
    Keeps config sched (IRQreschedule support balancing sched thread core) := by
  rcases reschedule_cases noAffinity balancing sched thread core with
    ⟨-, result⟩ | ⟨other, result⟩
  · rw [result]
    exact .refl sched
  · rw [result]
    exact request_keeps

end

/-- Waking a thread and considering it leaves the schedule in order. -/
theorem clear_reschedule_orderly (orderly : Orderly sched) :
    Orderly (IRQreschedule support balancing (IRQclear sched thread unblocking) thread core) := by
  have touches := clear_touches sched thread unblocking
  rcases reschedule_cases noAffinity balancing (IRQclear sched thread unblocking) thread core with
    ⟨low, result⟩ | ⟨other, result⟩
  · rw [result]
    rw [touches.priority, touches.running] at low
    exact orderly.imp (fun settled => touches.settled settled fun _ => low) touches.pending_iff.mpr
  · rw [result]
    exact .inr (pending_request _)

theorem IRQwakeup_keeps (live : sched.Live thread)
    : Keeps config sched (IRQwakeup support sched thread core) :=
  (clear_keeps live).trans (reschedule_keeps noAffinity _ _ _ _)

theorem PKwakeup_cases : ((∀ other, sched.priority thread ≤ sched.priority (sched.running other)) ∧
      PKwakeup support sched thread core = IRQclear sched thread .wait) ∨
    PKwakeup support sched thread core =
      { IRQclear sched thread .wait with pendingWakeup := true } ∨
    ∃ other, PKwakeup support sched thread core = (IRQclear sched thread .wait).request other := by
  have touches := clear_touches sched thread .wait
  unfold PKwakeup
  rcases consider_cases noAffinity .fromFirst (IRQclear sched thread .wait) thread core with
    ⟨low, result⟩ | result | ⟨other, result⟩
  · rw [touches.priority, touches.running] at low
    exact .inl ⟨low, by simp [result]⟩
  · exact .inr (.inl (by simp [result]))
  · exact .inr (.inr ⟨other, by simp [result]⟩)

theorem PKwakeup_keeps (live : sched.Live thread)
    : Keeps config sched (PKwakeup support sched thread core) := by
  have cleared : Keeps config sched (IRQclear sched thread .wait) := clear_keeps live
  rcases PKwakeup_cases noAffinity with ⟨-, result⟩ | result | ⟨other, result⟩
  · exact result ▸ cleared
  · exact result ▸ cleared.trans (pendingWakeup_keeps _)
  · exact result ▸ cleared.trans request_keeps

theorem PKwakeup_orderly (orderly : Orderly sched ∨
      ∃ other, sched.priority (sched.running other) < sched.priority thread) :
    Orderly (PKwakeup support sched thread core) := by
  have touches := clear_touches sched thread .wait
  rcases PKwakeup_cases noAffinity with ⟨low, result⟩ | result | ⟨other, result⟩
  · rw [result]
    rcases orderly with orderly | ⟨other, more⟩
    · exact orderly.imp (fun settled => touches.settled settled fun _ => low)
        touches.pending_iff.mpr
    · exact absurd (low other) (not_le.mpr more)
  · exact .inr (.inr (by rw [result]))
  · exact .inr (result ▸ pending_request _)

end

/-! ### The timer interrupt -/

section

variable (noAffinity : support ≠ .smpWithAffinity) {expired : List (Fin threads)}

include noAffinity

theorem consider_keeps :
    Keeps config sched (IRQconsiderRescheduling support balancing sched thread core).1 ∧
      ∀ other, (IRQconsiderRescheduling support balancing sched thread core).1.Live other ↔
        sched.Live other := by
  rcases consider_cases noAffinity balancing sched thread core with
    ⟨-, result⟩ | result | ⟨other, result⟩ <;> rw [result]
  · exact ⟨.refl sched, fun _ => Iff.rfl⟩
  · exact ⟨.refl sched, fun _ => Iff.rfl⟩
  · exact ⟨request_keeps, fun _ => Iff.rfl⟩

section

variable (core : Fin cores) (expired : List (Fin threads))
  (sched : PriorityScheduler.State threads cores) (flag : Bool)

theorem wakeLoop_keeps (live : ∀ thread ∈ expired, sched.Live thread) :
    Keeps config sched (wakeLoop support core expired (sched, flag)).1 := by
  induction expired generalizing sched flag with
  | nil => exact .refl sched
  | cons thread rest inductionHypothesis =>
    have cleared : Keeps config sched (IRQclear sched thread .sleepAndWait) :=
      clear_keeps (live thread List.mem_cons_self)
    obtain ⟨considered, sameLive⟩ : Keeps config _ _ ∧ _ := consider_keeps noAffinity
    refine (cleared.trans considered).trans (inductionHypothesis _ _ fun other listed => ?_)
    rw [sameLive, (clear_touches sched thread .sleepAndWait).live_iff]
    exact live other (List.mem_cons_of_mem thread listed)

/-- Each wakeup of the loop leaves the schedule in order, or has set the flag. -/
theorem wakeLoop_orderly (orderly : Orderly sched ∨ flag = true) :
    Orderly (wakeLoop support core expired (sched, flag)).1 ∨
      (wakeLoop support core expired (sched, flag)).2 = true := by
  induction expired generalizing sched flag with
  | nil => exact orderly
  | cons thread rest inductionHypothesis =>
    refine inductionHypothesis _ _ ?_
    have touches := clear_touches sched thread .sleepAndWait
    rcases consider_cases noAffinity .fromLast
      (IRQclear sched thread .sleepAndWait) thread core with
      ⟨low, result⟩ | result | ⟨other, result⟩
    · rw [result]
      rw [touches.priority, touches.running] at low
      exact orderly.imp (fun orderly => orderly.imp
        (fun settled => touches.settled settled fun _ => low) touches.pending_iff.mpr)
        (by simp [·])
    · rw [result]
      exact .inr (Bool.or_true flag)
    · rw [result]
      exact .inl (.inr (pending_request _))

end

theorem IRQwakeThreads_keeps (live : ∀ thread ∈ expired, sched.Live thread)
    : Keeps config sched (IRQwakeThreads support sched expired core) := by
  have woken : Keeps config sched (wakeLoop support core expired (sched, false)).1 :=
    wakeLoop_keeps noAffinity core expired sched false live
  simp only [IRQwakeThreads]
  split
  · exact woken.trans request_keeps
  · exact woken

theorem IRQwakeThreads_orderly (orderly : Orderly sched) :
    Orderly (IRQwakeThreads support sched expired core) := by
  have woken := wakeLoop_orderly noAffinity core expired sched false (.inl orderly)
  simp only [IRQwakeThreads]
  split
  · exact .inr (pending_request _)
  · rename_i low
    exact woken.resolve_right low

end

/-! ### Threads that block, end and are detached -/

theorem setFlags_keeps
    (same : (∃ core, sched.running core = thread) ∨ flags.isReady = (sched.flags thread).isReady) :
    Keeps config sched (sched.setFlags thread flags) :=
  ⟨fun sound => sound.withCores (sound.cores.setFlags same) (fun _ => id) rfl,
    (setFlags_touches sched thread flags).sameSchedule⟩

theorem setFlags_orderly
    (same : flags.isReady = (sched.flags thread).isReady) (orderly : Orderly sched) :
    Orderly (sched.setFlags thread flags) := by
  have touches := setFlags_touches sched thread flags
  refine orderly.imp (fun settled => touches.settled settled fun awaits => ?_)
    touches.pending_iff.mpr
  obtain ⟨live, ready, off⟩ := awaits
  refine settled thread ⟨live, ?_, off⟩
  rw [← same]
  simpa [PriorityScheduler.State.setFlags, Cores.setFlags] using ready

theorem block_keeps {blocking : Blocking} : Keeps config sched (IRQblock sched core blocking) :=
  (setFlags_keeps (.inl ⟨core, rfl⟩)).trans request_keeps

theorem setDetached_keeps : Keeps config sched (IRQsetDetached sched thread) :=
  setFlags_keeps (.inr rfl)

theorem setDetached_orderly (orderly : Orderly sched) : Orderly (IRQsetDetached sched thread) :=
  setFlags_orderly rfl orderly

theorem clearJoinWait_keeps {woken : PriorityScheduler.State threads cores}
    {joiner : Option (Fin threads)} (result : clearJoinWait sched joiner = some woken) :
    Keeps config sched woken := by
  cases joiner with
  | none =>
    obtain rfl := Option.some_inj.mp result
    exact .refl sched
  | some joiner =>
    obtain ⟨live, rfl⟩ := of_guard result
    exact clear_keeps live

section

variable (sched : PriorityScheduler.State threads cores) (target : Fin threads)

/-- What `terminate` has to find: it wakes nobody, or nobody who outranks a running thread, or a
scheduler run is pending anyway. -/
def Harmless : Prop :=
  (sched.flags target).deleting = true ∨ Pending sched ∨
    (∃ core, sched.running core = target) ∨
      ((sched.flags target).unset .sleepAndWait).isReady = false ∨
        ∀ core, sched.priority target ≤ sched.priority (sched.running core)
  deriving Decidable

theorem clear_flags_self : (IRQclear sched thread unblocking).flags thread =
      (sched.flags thread).unset unblocking := by
  have flagged : (sched.setFlags thread ((sched.flags thread).unset unblocking)).flags thread =
      (sched.flags thread).unset unblocking := Function.update_self ..
  simp only [IRQclear]
  split
  · unfold IRQwokenThread
    split <;> exact flagged
  · exact flagged

end

/-- The section of `terminate`. -/
theorem terminate_orderly (orderly : Orderly sched)
    (fresh : (sched.flags target).deleting = false) (harmless : Harmless sched target) :
    Orderly (IRQclear (sched.setFlags target { sched.flags target with deleting := true }) target
      .sleepAndWait) := by
  have touches := (setFlags_touches sched target
    { sched.flags target with deleting := true }).trans (clear_touches _ target .sleepAndWait)
  rcases orderly with settled | pending
  · rcases harmless with deleting | pending | ⟨core, running⟩ | unready | low
    · rw [deleting] at fresh
      cases fresh
    · exact .inr (touches.pending_iff.mpr pending)
    · refine .inl (touches.settled settled fun awaits => absurd ?_ (awaits.2.2 core))
      rw [touches.running]
      exact running
    · refine .inl (touches.settled settled fun awaits => ?_)
      have ready := awaits.2.1
      simp only [clear_flags_self, PriorityScheduler.State.setFlags, Cores.setFlags,
        Function.update_self] at ready
      exact absurd (unready.symm.trans ready) (by simp)
    · exact .inl (touches.settled settled fun _ => low)
  · exact .inr (touches.pending_iff.mpr pending)

theorem terminate_keeps (live : sched.Live target) :
    Keeps config sched (IRQclear (sched.setFlags target { sched.flags target with
      deleting := true }) target .sleepAndWait) := by
  have flagged : Keeps config sched (sched.setFlags target { sched.flags target with
    deleting := true }) := setFlags_keeps (.inr rfl)
  exact flagged.trans (clear_keeps (((setFlags_touches sched target _).live_iff target).mpr live))

end Miosix.Kernel
