/-
This file shows that the timer is armed whenever a thread sleeps. In the separate model it always
is, because the code that puts a token in the list sets it. In the unified model nobody sets it
between the sleep of a thread and the scheduler run that it asks for, and the run may be put off by
the pause kernel lock, so that the invariant follows the run: it is requested, or recorded in
`pendingWakeup` while the lock is held, or the thread that gave the lock back is about to see the
record or to yield.

A wakeup time that is the largest number is the exception. `IRQosTimerGetInterrupt` returns this
number when no interrupt is set, and then `IRQupdateOsTimer` does not set one.
-/

import Miosix.Kernel.Sleeping
import Miosix.Lib.Transition

namespace Miosix.Sleeping

open Transition Function SleepingList

variable {threads : Nat} {model : TimerModel} {state next : State threads} {thread : Fin threads}
  {currentTime : Int} {hptw : Bool} {outranks : Fin threads → Bool} {activity : Activity}
  {holding : Bool} {flags : Fin threads → ThreadFlags}

/-! ### What is to be shown -/

/-- The time at which a thread in a wait with a deadline is to be woken. -/
def Activity.deadline : Activity → Option Int
  | .sleeping absTime => some (max absTime 100000)
  | .relocking (some absTime) => some (max absTime 100000)
  | _ => none

/-- A scheduler run is pending when no kernel lock is held. -/
def State.Pending (state : State threads) : Prop :=
  state.requested = true ∨
    state.activity state.running = .restarting ∧ state.pendingWakeup = true ∨
      state.activity state.running = .yielding

section

variable (state : State threads) (model : TimerModel)

/-- The timer is armed for a time that is not later than the wakeup times, and in the unified model
not later than the end of the time slice. -/
def State.Armed : Prop :=
  ∃ time, state.armed = some time ∧ (∀ token ∈ state.sleepingList, time ≤ token.wakeupTime) ∧
    (model = .unified → time ≤ state.nextPreempt)

/-- There is a wakeup time to be reached. -/
def State.Awaited : Prop :=
  ∃ token ∈ state.sleepingList, token.wakeupTime < maxTime

/-- What holds of the waits with a deadline. -/
structure Served (state : State threads) : Prop where
  not_early : ∀ currentTime outranks next,
    exec model state (.interrupt currentTime outranks) = some next →
      ∀ thread, next.flags thread ≠ state.flags thread →
        ∃ deadline, (state.activity thread).deadline = some deadline ∧ deadline ≤ state.now
  armed : state.holding = false → state.Awaited → state.Pending ∨ state.Armed model
  in_call : ∀ token ∈ state.sleepingList,
    (state.activity token.thread).deadline = some token.wakeupTime

/-! ### The timer -/

theorem firstWakeup_le {tokens : List (SleepToken threads)} (sound : Sound tokens)
    {token : SleepToken threads} (listed : token ∈ tokens) :
    firstWakeup tokens ≤ token.wakeupTime := by
  cases tokens with
  | nil => nomatch listed
  | cons first rest => exact sound.sorted.head_le rfl listed

/-- The timer is armed if a wakeup time is to be reached. -/
def State.Covered : Prop :=
  state.Awaited → state.Armed model

end

theorem covered_setInterrupt (sound : Sound state.sleepingList) :
    (state.IRQosTimerSetInterrupt (firstWakeup state.sleepingList)).Covered .separate :=
  fun _ => ⟨_, rfl, fun _ => firstWakeup_le sound, nofun⟩

theorem covered_min (sound : Sound state.sleepingList) : (state.IRQosTimerSetInterrupt
      (min (firstWakeup state.sleepingList) state.nextPreempt)).Covered .unified :=
  fun _ => ⟨_, rfl, fun _ listed => (min_le_left _ _).trans (firstWakeup_le sound listed),
    fun _ => min_le_right _ _⟩

/-- Fewer tokens are covered by the same interrupt. -/
theorem State.Covered.sublist (covered : state.Covered model)
    (sublist : next.sleepingList.Sublist state.sleepingList) (armed : next.armed = state.armed)
    (nextPreempt : next.nextPreempt = state.nextPreempt) : next.Covered model := by
  rintro ⟨token, listed, early⟩
  obtain ⟨time, set, before, slice⟩ := covered ⟨token, sublist.subset listed, early⟩
  exact ⟨time, armed.trans set, fun other member => before other (sublist.subset member),
    fun unified => nextPreempt ▸ slice unified⟩

theorem covered_update {passed : Bool} (sound : Sound state.sleepingList) :
    (state.IRQupdateOsTimer .separate passed).Covered .separate := by
  show State.Covered (if _ then _ else _) _
  by_cases earlier : firstWakeup state.sleepingList < state.IRQosTimerGetInterrupt passed
  · rw [if_pos earlier]
    exact covered_setInterrupt sound
  · rw [if_neg earlier]
    rintro ⟨token, listed, early⟩
    have first := firstWakeup_le sound listed
    unfold State.IRQosTimerGetInterrupt at earlier
    cases set : state.armed with
    | none =>
      rw [set] at earlier
      exact absurd (first.trans_lt early) earlier
    | some time =>
      rw [set] at earlier
      dsimp only at earlier
      split at earlier
      · exact absurd (first.trans_lt early) earlier
      · exact ⟨time, set, fun other member =>
          (not_lt.mp earlier).trans (firstWakeup_le sound member),
          nofun⟩

/-! ### The invariant -/

/-- A scheduler run is requested, or will be by the thread that runs. -/
def State.Due (state : State threads) : Prop :=
  state.requested = true ∨
    state.pendingWakeup = true ∧
      (state.holding = true ∨ state.activity state.running = .restarting) ∨
    state.activity state.running = .yielding

/-- The tokens are those of threads in a wait with a deadline, the thread that holds the pause
kernel lock runs, and the timer is armed unless the scheduler will arm it. -/
structure Sustained (model : TimerModel) (state : State threads) : Prop where
  sound : Sound state.sleepingList
  in_call : ∀ token ∈ state.sleepingList,
    (state.activity token.thread).deadline = some token.wakeupTime
  paused_iff : ∀ thread, state.activity thread = .paused ↔
    state.holding = true ∧ thread = state.running
  covered : state.Covered model ∨ model = .unified ∧ state.Due

/-- A place at which the thread neither holds the pause kernel lock nor gives it back. -/
def Activity.Ordinary : Activity → Prop
  | .paused | .restarting | .yielding => False
  | _ => True

theorem initial_sustained {idle : Fin threads} {now : Int} :
    Sustained model (State.initial idle now) where
  sound := .empty
  in_call _ listed := nomatch listed
  paused_iff _ := iff_of_false nofun fun both => nomatch both.1
  covered := .inl fun ⟨_, listed, _⟩ => nomatch listed

section

variable (sustained : Sustained model state)

include sustained

theorem Sustained.not_listed (free : (state.activity thread).deadline = none) :
    contains state.sleepingList thread = false := by
  rw [← Bool.not_eq_true, contains_iff]
  rintro ⟨token, listed, rfl⟩
  have calls := sustained.in_call token listed
  rw [free] at calls
  nomatch calls

/-- A thread that has no token may go anywhere. -/
theorem Sustained.in_call_of_free (free : (state.activity state.running).deadline = none)
    (activity : Activity) (token : SleepToken threads) (listed : token ∈ state.sleepingList) :
    ((state.setActivity activity).activity token.thread).deadline = some token.wakeupTime := by
  have calls := sustained.in_call token listed
  have different : token.thread ≠ state.running := fun same => by
    rw [same, free] at calls
    nomatch calls
  have kept : (state.setActivity activity).activity token.thread = state.activity token.thread :=
    update_of_ne different _ _
  rw [kept]
  exact calls

theorem Sustained.paused_setActivity
    (iff : activity = .paused ↔ holding = true) (thread : Fin threads) :
    (state.setActivity activity).activity thread = .paused ↔
      holding = true ∧ thread = state.running := by
  by_cases same : thread = state.running
  · subst same
    have here : (state.setActivity activity).activity state.running = activity := update_self _ _ _
    rw [here, and_iff_left rfl]
    exact iff
  · have kept : (state.setActivity activity).activity thread = state.activity thread :=
      update_of_ne same _ _
    rw [kept]
    exact iff_of_false (fun paused => same ((sustained.paused_iff thread).mp paused).2)
      fun both => same both.2

theorem Sustained.not_holding
    (known : state.activity state.running = activity) (other : activity ≠ .paused) :
    state.holding = false :=
  Bool.eq_false_iff.mpr fun held =>
    other (known.symm.trans ((sustained.paused_iff _).mpr ⟨held, rfl⟩))

/-- At an ordinary place, a run that is due is requested. -/
theorem Sustained.requested_of_due (due : state.Due)
    (ordinary : (state.activity state.running).Ordinary) : state.requested = true := by
  rcases due with requested | ⟨-, held | restarting⟩ | yielding
  · exact requested
  · rw [(sustained.paused_iff _).mpr ⟨held, rfl⟩] at ordinary
    exact ordinary.elim
  · rw [restarting] at ordinary
    exact ordinary.elim
  · rw [yielding] at ordinary
    exact ordinary.elim

end

/-! ### The interrupt -/

theorem clearSleepAndWait_of_notMem {woken : List (Fin threads)} (absent : thread ∉ woken) :
    clearSleepAndWait flags woken thread = flags thread := by
  induction woken generalizing flags with
  | nil => rfl
  | cons first rest inductionHypothesis =>
    have later : thread ∉ rest := fun listed => absent (List.mem_cons_of_mem first listed)
    have different : thread ≠ first := fun same => absent (same ▸ List.mem_cons_self)
    exact (inductionHypothesis later).trans (update_of_ne different _ _)

theorem flags_rearm : (state.rearm model currentTime hptw).flags = state.flags := by
  cases model <;> unfold State.rearm <;> dsimp only <;> split_ifs <;> rfl

/-- The rest of the interrupt only sets the timer, or asks for a scheduler run. -/
theorem Sustained.rearm (sound : Sound state.sleepingList)
    (in_call : ∀ token ∈ state.sleepingList,
      (state.activity token.thread).deadline = some token.wakeupTime)
    (paused_iff : ∀ thread, state.activity thread = .paused ↔
      state.holding = true ∧ thread = state.running) :
    Sustained model (state.rearm model currentTime hptw) := by
  cases model with
  | unified =>
    simp only [State.rearm]
    split_ifs
    · exact ⟨sound, in_call, paused_iff, .inr ⟨rfl, .inl rfl⟩⟩
    · exact ⟨sound, in_call, paused_iff, .inr ⟨rfl, .inl rfl⟩⟩
    · exact ⟨sound, in_call, paused_iff, .inl (covered_min sound)⟩
  | separate =>
    have invoked : ∃ requested, (if hptw then { state with requested := true } else state) =
        { state with requested := requested } := by
      cases hptw with
      | false => exact ⟨state.requested, rfl⟩
      | true => exact ⟨true, rfl⟩
    obtain ⟨requested, same⟩ := invoked
    unfold State.rearm
    rw [same]
    by_cases empty : state.sleepingList = []
    · rw [if_pos empty]
      refine ⟨sound, in_call, paused_iff, .inl ?_⟩
      rintro ⟨token, listed, -⟩
      rw [show ({ state with requested := requested } : State threads).sleepingList = [] from
        empty] at listed
      nomatch listed
    · rw [if_neg empty]
      exact ⟨sound, in_call, paused_iff, .inl (covered_setInterrupt sound)⟩

theorem Sustained.interrupt (sustained : Sustained model state) : Sustained model
      ({ state with armed := none }.IRQwakeThreads model currentTime outranks) := by
  refine Sustained.rearm (sustained.sound.wakeThreads currentTime) (fun token listed => ?_)
    sustained.paused_iff
  exact sustained.in_call token (TimeQueue.pending_sublist.subset listed)

/-! ### The scheduler -/

theorem Sustained.deferred (sustained : Sustained model state) (held : state.holding = true) :
    Sustained model { state with pendingWakeup := true, requested := false } := by
  refine { sustained with covered := ?_ }
  exact sustained.covered.imp id fun both => ⟨both.1, .inr (.inl ⟨rfl, .inl held⟩)⟩

theorem Sustained.run {timeSlice : Nat} {chosen : Fin threads} (sustained : Sustained model state)
    (free : state.holding = false) :
    Sustained model ({ state with running := chosen, requested := false }.IRQcomputePreemption
      model timeSlice) := by
  have paused_iff (thread : Fin threads) : state.activity thread = .paused ↔
      state.holding = true ∧ thread = chosen := by
    rw [sustained.paused_iff, free]
    exact iff_of_false (fun both => nomatch both.1) fun both => nomatch both.1
  cases model with
  | unified =>
    refine ⟨sustained.sound, sustained.in_call, paused_iff, .inl ?_⟩
    exact @covered_min _ { state with
      running := chosen
      requested := false
      nextPreempt := if 0 < timeSlice then state.now + timeSlice else maxTime } sustained.sound
  | separate =>
    refine ⟨sustained.sound, sustained.in_call, paused_iff, .inl ?_⟩
    exact sustained.covered.resolve_right fun both => nomatch both.1

/-! ### Waits with a deadline -/

section

variable (state : State threads) (model : TimerModel) (passed : Bool) (absTime : Int)
  (blocking : Blocking)

/-- The state of a thread that starts to wait, with the interrupt that is then set. -/
def State.asleep (activity : Activity) (armed : Option Int) : State threads :=
  { state.block blocking with
    sleepingList := enqueue state.sleepingList state.running absTime
    activity := update state.activity state.running activity
    armed := armed }

theorem update_eq :
    ∃ armed, state.IRQupdateOsTimer model passed = { state with armed := armed } := by
  cases model with
  | unified => exact ⟨state.armed, rfl⟩
  | separate =>
    unfold State.IRQupdateOsTimer
    by_cases earlier : firstWakeup state.sleepingList < state.IRQosTimerGetInterrupt passed
    · rw [if_pos earlier]
      exact ⟨_, rfl⟩
    · rw [if_neg earlier]
      exact ⟨state.armed, rfl⟩

theorem sleep_eq (sound : Sound
      (enqueue state.sleepingList state.running absTime)) :
    ∃ armed, state.sleep model passed absTime blocking activity =
        state.asleep absTime blocking activity armed ∧
      (model = .separate → (state.asleep absTime blocking activity armed).Covered model) := by
  unfold State.sleep
  obtain ⟨armed, same⟩ := update_eq { state.block blocking with
    sleepingList := enqueue state.sleepingList state.running absTime } model passed
  refine ⟨armed, by rw [same]; rfl, ?_⟩
  rintro rfl
  have covered := @covered_update _ { state.block blocking with
    sleepingList := enqueue state.sleepingList state.running absTime } passed sound
  rw [same] at covered
  exact covered

end

/-- The thread that runs has no token before it starts to wait, and the lock is not held after. -/
theorem Sustained.asleep {absTime : Int} {blocking : Blocking} {activity : Activity}
    {armed : Option Int} {holding : Bool} (sustained : Sustained model state)
    (sound : Sound (enqueue state.sleepingList state.running absTime))
    (free : (state.activity state.running).deadline = none)
    (calls : activity.deadline = some (max absTime 100000)) (released : holding = false)
    (covered : model = .separate → (state.asleep absTime blocking activity armed).Covered model) :
    Sustained model { state.asleep absTime blocking activity armed with holding := holding } := by
  have unpaused : activity ≠ .paused := by
    rintro rfl
    nomatch calls
  refine ⟨sound, fun token listed => ?_,
    sustained.paused_setActivity (iff_of_false unpaused (Bool.eq_false_iff.mp released)), ?_⟩
  · rcases TimeQueue.mem_enqueue.mp listed with rfl | before
    · exact (congrArg Activity.deadline (update_self _ _ _)).trans calls
    · exact sustained.in_call_of_free free activity token before
  · cases model with
    | unified => exact .inr ⟨rfl, .inl rfl⟩
    | separate => exact .inl (covered rfl)

theorem Sustained.enqueue (sustained : Sustained model state)
    (free : (state.activity state.running).deadline = none) (absTime : Int) :
    Sound (enqueue state.sleepingList state.running absTime) :=
  sustained.sound.enqueue (sustained.not_listed free) absTime

/-- `nanoSleepUntil` and `timedWait`. -/
theorem Sustained.sleep {passed : Bool} {absTime : Int} {blocking : Blocking}
    (sustained : Sustained model state) (outside : state.activity state.running = .outside) :
    Sustained model (state.sleep model passed absTime blocking (.sleeping absTime)) := by
  have free : (state.activity state.running).deadline = none := by
    rw [outside]
    rfl
  have released : state.holding = false := sustained.not_holding outside nofun
  have sound := sustained.enqueue free absTime
  obtain ⟨armed, same, covered⟩ := sleep_eq state model passed absTime blocking sound
  rw [same]
  exact @Sustained.asleep _ _ _ absTime blocking (.sleeping absTime) armed state.holding sustained
    sound free rfl released covered

section

variable (sustained : Sustained model state)
include sustained

theorem Sustained.PKtimedWait {passed : Bool} {absTime : Int}
    (paused : state.activity state.running = .paused) :
    Sustained model { state.sleep model passed absTime .wait (.relocking (some absTime)) with
      holding := false } := by
  have free : (state.activity state.running).deadline = none := by
    rw [paused]
    rfl
  have sound := sustained.enqueue free absTime
  obtain ⟨armed, same, covered⟩ := sleep_eq state model passed absTime .wait sound
  rw [same]
  exact sustained.asleep sound free rfl rfl covered

/-- The thread that runs takes its token from the list. -/
theorem Sustained.in_call_of_remove (activity : Activity) (token : SleepToken threads)
    (listed : token ∈ remove state.sleepingList state.running) :
    ((state.setActivity activity).activity token.thread).deadline = some token.wakeupTime := by
  have different : token.thread ≠ state.running := by
    intro same
    have absent := sustained.sound.contains_remove_self state.running
    rw [← Bool.not_eq_true, contains_iff] at absent
    exact absent ⟨token, listed, same⟩
  have kept : (state.setActivity activity).activity token.thread = state.activity token.thread :=
    update_of_ne different _ _
  rw [kept]
  exact sustained.in_call token (List.eraseP_sublist.subset listed)

theorem Sustained.endSleep (ended : state.endSleep (state.activity state.running) = some next) :
    Sustained model next := by
  cases known : state.activity state.running with
  | sleeping absTime =>
    rw [known] at ended
    cases ended
    refine ⟨sustained.sound.remove _, sustained.in_call_of_remove .outside,
      sustained.paused_setActivity (iff_of_false nofun ?_), ?_⟩
    · exact Bool.eq_false_iff.mp (sustained.not_holding known nofun)
    · refine sustained.covered.imp (fun covered => covered.sublist List.eraseP_sublist rfl rfl)
        fun both => ⟨both.1, .inl ?_⟩
      refine sustained.requested_of_due both.2 ?_
      rw [known]
      trivial
  | outside | paused | restarting | yielding | relocking => rw [known] at ended; nomatch ended

/-! ### The pause kernel lock -/

/-- A thread without a token goes to another place, and a run that is due stays due. -/
theorem Sustained.move {pendingWakeup requested : Bool}
    (free : (state.activity state.running).deadline = none)
    (iff : activity = .paused ↔ holding = true) (due : state.Due → ({ state with
      flags := flags
      holding := holding
      pendingWakeup := pendingWakeup
      requested := requested }.setActivity activity).Due) : Sustained model ({ state with
      flags := flags
      holding := holding
      pendingWakeup := pendingWakeup
      requested := requested }.setActivity activity) :=
  ⟨sustained.sound, sustained.in_call_of_free free activity, sustained.paused_setActivity iff,
    sustained.covered.imp id fun both => ⟨both.1, due both.2⟩⟩

end

theorem running_setActivity : (state.setActivity activity).activity state.running = activity :=
  update_self _ _ _

section

variable (sustained : Sustained model state)
include sustained

theorem Sustained.relock (locked : state.relock (state.activity state.running) = some next) :
    Sustained model next := by
  have ordinary {absTime : Option Int}
      (known : state.activity state.running = .relocking absTime) (due : state.Due) :
      state.requested = true := by
    refine sustained.requested_of_due due ?_
    rw [known]
    trivial
  cases known : state.activity state.running with
  | relocking absTime =>
    rw [known] at locked
    cases absTime with
    | none =>
      cases locked
      refine sustained.move ?_ (iff_of_true rfl rfl) fun due => .inl (ordinary known due)
      rw [known]
      rfl
    | some absTime =>
      cases locked
      refine ⟨sustained.sound.remove _, sustained.in_call_of_remove .paused,
        sustained.paused_setActivity (iff_of_true rfl rfl), ?_⟩
      exact sustained.covered.imp (fun covered => covered.sublist List.eraseP_sublist rfl rfl)
        fun both => ⟨both.1, .inl (ordinary known both.2)⟩
  | outside | paused | restarting | yielding | sleeping => rw [known] at locked; nomatch locked

theorem Sustained.testPendingWakeup (restarting : state.activity state.running = .restarting)
    (tested : (if state.pendingWakeup then
      some ({ state with pendingWakeup := false }.setActivity .yielding)
      else some (state.setActivity .outside)) = some next) : Sustained model next := by
  have free : (state.activity state.running).deadline = none := by
    rw [restarting]
    rfl
  have released := Bool.eq_false_iff.mp (sustained.not_holding restarting nofun)
  split at tested
  · cases tested
    exact sustained.move free (iff_of_false nofun released) fun _ =>
      .inr (.inr running_setActivity)
  · rename_i unset
    cases tested
    refine sustained.move free (iff_of_false nofun released) fun due => .inl ?_
    rcases due with requested | ⟨set, -⟩ | yielding
    · exact requested
    · exact absurd set unset
    · rw [restarting] at yielding
      nomatch yielding

/-! ### Runs -/

theorem Sustained.step {label : Label threads}
    (stepped : exec model state label = some next) : Sustained model next := by
  cases label with
  | elapse time =>
    obtain ⟨-, rfl⟩ := of_guard stepped
    exact { sustained with }
  | interrupt currentTime outranks =>
    obtain ⟨-, rfl⟩ := of_guard stepped
    exact sustained.interrupt
  | runScheduler chosen timeSlice =>
    unfold exec at stepped
    dsimp only at stepped
    by_cases held : state.holding = true
    · rw [if_pos held] at stepped
      cases stepped
      exact sustained.deferred held
    · rw [if_neg held] at stepped
      obtain ⟨-, rfl⟩ := of_guard stepped
      exact sustained.run (Bool.eq_false_iff.mpr held)
  | nanoSleepUntil | timedWait =>
    obtain ⟨⟨-, outside⟩, rfl⟩ := of_guard stepped
    exact sustained.sleep outside
  | endSleep =>
    obtain ⟨-, stepped⟩ := Option.ite_none_right_eq_some.mp stepped
    exact sustained.endSleep stepped
  | pauseKernel =>
    obtain ⟨⟨-, outside⟩, rfl⟩ := of_guard stepped
    refine sustained.move (by rw [outside]; rfl) (iff_of_true rfl rfl) fun due => .inl ?_
    refine sustained.requested_of_due due ?_
    rw [outside]
    trivial
  | restartKernel =>
    obtain ⟨⟨-, paused⟩, rfl⟩ := of_guard stepped
    refine sustained.move (by rw [paused]; rfl)
      (iff_of_false nofun Bool.false_ne_true) fun due => ?_
    rcases due with requested | ⟨pending, -⟩ | yielding
    · exact .inl requested
    · exact .inr (.inl ⟨pending, .inr running_setActivity⟩)
    · rw [paused] at yielding
      nomatch yielding
  | testPendingWakeup =>
    obtain ⟨⟨-, restarting⟩, stepped⟩ := Option.ite_none_right_eq_some.mp stepped
    exact sustained.testPendingWakeup restarting stepped
  | yield =>
    obtain ⟨⟨-, yielding⟩, rfl⟩ := of_guard stepped
    refine sustained.move (by rw [yielding]; rfl) (iff_of_false nofun ?_) fun _ => .inl rfl
    exact Bool.eq_false_iff.mp (sustained.not_holding yielding nofun)
  | PKwait =>
    obtain ⟨⟨-, paused⟩, rfl⟩ := of_guard stepped
    exact sustained.move (by rw [paused]; rfl)
      (iff_of_false nofun Bool.false_ne_true) fun _ => .inl rfl
  | PKtimedWait absTime passed =>
    obtain ⟨⟨-, paused⟩, rfl⟩ := of_guard stepped
    exact sustained.PKtimedWait paused
  | relock =>
    obtain ⟨-, stepped⟩ := Option.ite_none_right_eq_some.mp stepped
    exact sustained.relock stepped
  | other flags invokes wakes =>
    cases stepped
    refine { sustained with covered := ?_ }
    refine sustained.covered.imp id fun both => ⟨both.1, ?_⟩
    rcases both.2 with requested | ⟨pending, place⟩ | yielding
    · exact .inl (Bool.or_eq_true_iff.mpr (.inl requested))
    · exact .inr (.inl ⟨Bool.or_eq_true_iff.mpr (.inl pending), place⟩)
    · exact .inr (.inr yielding)

/-- The threads that an interrupt wakes are in a wait whose time has come. -/
theorem Sustained.not_early
    (stepped : exec model state (.interrupt currentTime outranks) = some next)
    (changed : next.flags thread ≠ state.flags thread) :
    ∃ deadline, (state.activity thread).deadline = some deadline ∧ deadline ≤ state.now := by
  obtain ⟨⟨reached, -⟩, rfl⟩ := of_guard stepped
  have woken : thread ∈ woken state.sleepingList currentTime := by
    by_contra absent
    refine changed ?_
    unfold State.IRQwakeThreads
    rw [flags_rearm]
    exact clearSleepAndWait_of_notMem absent
  obtain ⟨token, listed, rfl, early⟩ := sustained.sound.mem_woken_iff.mp woken
  exact ⟨token.wakeupTime, sustained.in_call token listed, early.trans reached⟩

end

/-- In every run, for each scheduler and timer model: a thread is woken by the timer when its time
has come, the timer is armed or a scheduler run is pending when a thread sleeps, and the tokens in
the list are those of calls that are under way. -/
theorem sleeping_threads_are_served {idle : Fin threads} {now : Int} {labels : List (Label threads)}
    (run : Run (exec model) unrestricted (State.initial idle now) labels state) :
    Served model state := by
  have sustained : Sustained model state :=
    run.invariant (Sustained model) (fun _ _ _ holds _ => holds.step) initial_sustained
  refine ⟨fun _ _ _ stepped _ => sustained.not_early stepped,
    fun released awaited => ?_, sustained.in_call⟩
  rcases sustained.covered with covered | ⟨-, requested | ⟨pending, held | restarting⟩ | yielding⟩
  · exact .inr (covered awaited)
  · exact .inl (.inl requested)
  · exact absurd (held.symm.trans released) (by decide)
  · exact .inl (.inr (.inl ⟨restarting, pending⟩))
  · exact .inl (.inr (.inr yielding))

/-- A thread sleeps in the unified model, and its time comes while another holds the pause kernel
lock. When the lock is given back, the run that was put off is still to come. -/
theorem sleeping_threads_are_served_after_lock : ∃ state : State 3,
      Run (exec .unified) unrestricted (State.initial 0 0)
        [.runScheduler 1 1000000, .nanoSleepUntil 200000 false, .runScheduler 2 1000000,
          .nanoSleepUntil 900000 false, .runScheduler 0 0, .pauseKernel, .elapse 300000,
          .interrupt 250000 (fun _ => true), .runScheduler 1 0, .restartKernel] state ∧
      Served .unified state ∧ state.holding = false ∧ state.armed = none ∧
        state.sleepingList = [⟨2, 900000⟩] :=
  exists_run (fun last => last.holding = false ∧ last.armed = none ∧
      last.sleepingList = [⟨2, 900000⟩]) (by decide +kernel)
    fun _ run found => ⟨run, sleeping_threads_are_served run, found⟩

/-- In the separate model, a thread that sleeps until the largest time does not arm the timer. -/
theorem largest_time_is_not_armed : ∃ state : State 2,
      Run (exec .separate) unrestricted (State.initial 0 0)
        [.runScheduler 1 0, .nanoSleepUntil maxTime false, .runScheduler 0 0] state ∧
      state.holding = false ∧ state.sleepingList = [⟨1, maxTime⟩] ∧ ¬ state.Pending ∧
        state.armed = none := by
  refine exists_run (fun last => last.holding = false ∧ last.sleepingList = [⟨1, maxTime⟩] ∧
    last.requested = false ∧ last.activity last.running = .outside ∧ last.armed = none)
    (by decide +kernel) fun last run ⟨released, list, unrequested, outside, unarmed⟩ =>
      ⟨run, released, list, ?_, unarmed⟩
  unfold State.Pending
  rw [unrequested, outside]
  rintro (impossible | ⟨impossible, -⟩ | impossible) <;> nomatch impossible

end Miosix.Sleeping
