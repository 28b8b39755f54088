/-
This file is about `clock_nanosleep` of `kercalls/libc_integration.cpp`, with the conversion of the
request to nanoseconds and `nanoSleepUntil`. A thread that sleeps is made ready by the timer only,
and by `terminate`.

Seconds are multiplied by a billion in 64 bits. For large requests this overflows, the time is in
the past, and the call returns at once.
-/

import Miosix.Kernel.Arming

namespace Miosix.Sleeping

open Transition Function

/-! ### Requests -/

structure Timespec where
  tv_sec : Int
  tv_nsec : Int

section

variable (absolute : Bool) (request : Timespec)

/-- Non-negative seconds, and nanoseconds below one second. -/
def Timespec.Valid : Prop :=
  0 ≤ request.tv_sec ∧ 0 ≤ request.tv_nsec ∧ request.tv_nsec < 1000000000

def nsPerSec : Int := 1000000000

/-- A `long long`. -/
def wrap (value : Int) : Int := (BitVec.ofInt 64 value).toInt

def timespec2ll : Int :=
  wrap (wrap (request.tv_sec * nsPerSec) + request.tv_nsec)

/-- What `clock_nanosleep` hands to `nanoSleepUntil`, when `getTime` returns `time`. -/
def clock_nanosleep (time : Int) : Int :=
  if absolute then timespec2ll request else wrap (timespec2ll request + time)

/-- The end of the sleep that is requested. -/
def Timespec.finish (absolute : Bool) (time : Int) : Int :=
  request.tv_sec * nsPerSec + request.tv_nsec + if absolute then 0 else time

end

theorem wrap_add (value more : Int) : wrap (wrap value + more) = wrap (value + more) := by
  unfold wrap
  rw [BitVec.ofInt_add, BitVec.ofInt_toInt, ← BitVec.ofInt_add]

theorem clock_nanosleep_eq {absolute : Bool} {request : Timespec} {time : Int}
    (valid : request.Valid) (nonnegative : 0 ≤ time)
    (fits : request.finish absolute time ≤ maxTime) :
    clock_nanosleep absolute request time = request.finish absolute time := by
  obtain ⟨seconds, nanoseconds, -⟩ := valid
  have wrapped : clock_nanosleep absolute request time = wrap (request.finish absolute time) := by
    unfold clock_nanosleep timespec2ll Timespec.finish
    split
    · rw [wrap_add, add_zero]
    · rw [wrap_add, add_assoc, wrap_add, add_assoc]
  have positive : 0 ≤ request.finish absolute time := by
    unfold Timespec.finish nsPerSec
    split <;> omega
  rw [wrapped, wrap, BitVec.toInt_ofInt]
  unfold maxTime at fits
  exact Int.bmod_eq_of_le (by omega) (by omega)

/-! ### Threads that sleep -/

variable {threads : Nat} {model : TimerModel} {state next : State threads} {thread : Fin threads}
  {label : Label threads} {absTime : Int} {between : State threads} {activity : Activity}

/-- No section of the kernel but the timer wakes a thread that sleeps, that is, no thread that
sleeps is terminated. -/
def Undisturbed (state : State threads) (label : Label threads) : Prop :=
  ∀ flags invokes wakes, label = .other flags invokes wakes →
    ∀ thread, (state.flags thread).sleep = true → (flags thread).sleep = true

/-- A step of the thread that runs. -/
structure Own (state next : State threads) : Prop where
  ready : (state.flags state.running).isReady = true
  now : next.now = state.now
  activity : ∀ other, other ≠ state.running → next.activity other = state.activity other
  flags : ∀ other, other ≠ state.running → next.flags other = state.flags other

theorem Own.setActivity
    (ready : (state.flags state.running).isReady = true) (same : between.running = state.running)
    (now : between.now = state.now) (others : between.activity = state.activity)
    (flags : ∀ other, other ≠ state.running → between.flags other = state.flags other) :
    Own state (between.setActivity activity) := by
  refine ⟨ready, now, fun other different => ?_, flags⟩
  rw [← same] at different
  exact (update_of_ne different _ _).trans (congrFun others other)

theorem Own.sleep {passed : Bool} {blocking : Blocking} {activity : Activity}
    (ready : (state.flags state.running).isReady = true) :
    Own state (state.sleep model passed absTime blocking activity) := by
  obtain ⟨armed, same⟩ := update_eq { state.block blocking with
    sleepingList := SleepingList.enqueue state.sleepingList state.running absTime } model passed
  unfold State.sleep
  rw [same]
  exact ⟨ready, rfl, fun _ different => update_of_ne different _ _,
    fun _ different => update_of_ne different _ _⟩

/-- What a step does to the flags, the activities and the time. -/
theorem exec_cases (stepped : exec model state label = some next) : Own state next ∨
      (next.activity = state.activity ∧ next.flags = state.flags ∧ state.now ≤ next.now) ∨
      next.activity = state.activity ∧ next.now = state.now ∧
        ((∃ currentTime outranks, label = .interrupt currentTime outranks) ∨
          ∃ invokes wakes, label = .other next.flags invokes wakes) := by
  cases label with
  | elapse time =>
    obtain ⟨later, rfl⟩ := of_guard stepped
    exact .inr (.inl ⟨rfl, rfl, later⟩)
  | interrupt currentTime outranks =>
    obtain ⟨-, rfl⟩ := of_guard stepped
    refine .inr (.inr ⟨?_, ?_, .inl ⟨currentTime, outranks, rfl⟩⟩) <;>
      cases model <;> simp only [State.IRQwakeThreads, State.rearm] <;> split_ifs <;> rfl
  | runScheduler chosen timeSlice =>
    rw [exec] at stepped
    split at stepped
    · cases stepped
      exact .inr (.inl ⟨rfl, rfl, le_rfl⟩)
    · obtain ⟨-, rfl⟩ := of_guard stepped
      cases model with
      | unified | separate => exact .inr (.inl ⟨rfl, rfl, le_rfl⟩)
  | nanoSleepUntil | timedWait =>
    obtain ⟨⟨ready, -⟩, rfl⟩ := of_guard stepped
    exact .inl (.sleep ready)
  | endSleep =>
    obtain ⟨ready, stepped⟩ := Option.ite_none_right_eq_some.mp stepped
    unfold State.endSleep at stepped
    split at stepped
    · cases stepped
      exact .inl (.setActivity ready rfl rfl rfl fun _ _ => rfl)
    · cases stepped
  | pauseKernel | restartKernel | yield =>
    obtain ⟨⟨ready, -⟩, rfl⟩ := of_guard stepped
    exact .inl (.setActivity ready rfl rfl rfl fun _ _ => rfl)
  | testPendingWakeup =>
    obtain ⟨⟨ready, -⟩, stepped⟩ := Option.ite_none_right_eq_some.mp stepped
    split at stepped <;> cases stepped <;>
      exact .inl (.setActivity ready rfl rfl rfl fun _ _ => rfl)
  | PKwait =>
    obtain ⟨⟨ready, -⟩, rfl⟩ := of_guard stepped
    exact .inl (.setActivity ready rfl rfl rfl fun _ different => update_of_ne different _ _)
  | PKtimedWait absTime passed =>
    obtain ⟨⟨ready, -⟩, rfl⟩ := of_guard stepped
    obtain ⟨-, now, activity, flags⟩ := @Own.sleep _ model state absTime passed .wait
      (.relocking (some absTime)) ready
    exact .inl ⟨ready, now, activity, flags⟩
  | relock =>
    obtain ⟨ready, stepped⟩ := Option.ite_none_right_eq_some.mp stepped
    unfold State.relock at stepped
    split at stepped
    · cases stepped
      exact .inl (.setActivity ready rfl rfl rfl fun _ _ => rfl)
    · cases stepped
  | other flags invokes wakes =>
    cases stepped
    exact .inr (.inr ⟨rfl, rfl, .inr ⟨invokes, wakes, rfl⟩⟩)

/-- A thread in `nanoSleepUntil`, from the start of the call on: it sleeps, or the time is
reached. -/
def Sleeps (thread : Fin threads) (absTime : Int) (state : State threads) : Prop :=
  (state.flags thread).sleep = true ∧ state.activity thread = .sleeping absTime ∨
    absTime ≤ state.now

theorem Sleeps.step (sustained : Sustained model state) (sleeps : Sleeps thread absTime state)
    (undisturbed : Undisturbed state label) (stepped : exec model state label = some next) :
    Sleeps thread absTime next := by
  rcases sleeps with ⟨asleep, inside⟩ | reached
  · rcases exec_cases stepped with own | ⟨activity, flags, -⟩ | ⟨activity, now, label⟩
    · have different : thread ≠ state.running := fun same => by
        have ready := own.ready
        rw [← same, ThreadFlags.isReady, asleep] at ready
        simp at ready
      exact .inl ⟨own.flags thread different ▸ asleep, (own.activity thread different).trans inside⟩
    · exact .inl ⟨flags ▸ asleep, activity ▸ inside⟩
    · rcases label with ⟨currentTime, outranks, rfl⟩ | ⟨invokes, wakes, rfl⟩
      · by_cases changed : next.flags thread = state.flags thread
        · exact .inl ⟨changed ▸ asleep, activity ▸ inside⟩
        · obtain ⟨deadline, due, early⟩ := sustained.not_early stepped changed
          rw [inside] at due
          cases due
          exact .inr (now ▸ (le_max_left absTime 100000).trans early)
      · exact .inl ⟨undisturbed _ _ _ rfl thread asleep, activity ▸ inside⟩
  · rcases exec_cases stepped with own | ⟨-, -, later⟩ | ⟨-, now, -⟩
    · exact .inr (own.now ▸ reached)
    · exact .inr (reached.trans later)
    · exact .inr (now ▸ reached)

/-- If no thread that sleeps is terminated, and the end of the requested sleep fits in 64 bits, a
thread that has called `clock_nanosleep` is not ready before the end of its sleep. The clock was
read before the thread went to sleep. -/
theorem sleeps_are_long_enough {idle : Fin threads} {first time : Int} {absolute passed : Bool}
    {request : Timespec} {before after : List (Label threads)} {started last : State threads}
    (valid : request.Valid) (nonnegative : 0 ≤ time)
    (fits : request.finish absolute time ≤ maxTime)
    (run : Run (exec model) Undisturbed (State.initial idle first) before state)
    (called : exec model state (.nanoSleepUntil (clock_nanosleep absolute request time) passed) =
      some started)
    (goes : Run (exec model) Undisturbed started after last)
    (ready : (last.flags state.running).isReady = true) :
    request.finish absolute time ≤ last.now := by
  have sustained : Sustained model state :=
    run.invariant (Sustained model) (fun _ _ _ holds _ => holds.step) initial_sustained
  rw [clock_nanosleep_eq valid nonnegative fits] at called
  have begun : Sleeps state.running (request.finish absolute time) started := by
    obtain ⟨-, rfl⟩ := of_guard called
    obtain ⟨armed, same⟩ := update_eq { state.block .sleep with
      sleepingList := SleepingList.enqueue state.sleepingList state.running _ } model passed
    unfold State.sleep
    rw [same]
    refine .inl ⟨?_, update_self _ _ _⟩
    exact (congrArg ThreadFlags.sleep (update_self state.running _ state.flags)).trans rfl
  obtain ⟨-, asleep | reached⟩ := goes.invariant
    (fun state' => Sustained model state' ∧ Sleeps state.running _ state')
    (fun _ _ _ holds undisturbed stepped =>
      ⟨holds.1.step stepped, holds.2.step holds.1 undisturbed stepped⟩)
    ⟨sustained.step called, begun⟩
  · rw [ThreadFlags.isReady, asleep.1] at ready
    simp at ready
  · exact reached

/-- A thread calls `clock_nanosleep` after the boot, and is ready at a certain time. -/
def Wakes (absolute : Bool) (request : Timespec) (time : Int) (state last : State 2) : Prop :=
  ∃ started, Run (exec .separate) Undisturbed (State.initial 0 0) [.runScheduler 1 0] state ∧
    exec .separate state (.nanoSleepUntil (clock_nanosleep absolute request 0) false) =
      some started ∧
    Run (exec .separate) Undisturbed started
      [.runScheduler 0 0, .elapse time, .interrupt time fun _ => true] last ∧
    (last.flags state.running).isReady = true

/-- A thread sleeps for a millisecond, and is ready when it has passed. -/
theorem sleeps_are_long_enough_for_a_millisecond : ∃ state last : State 2,
    Wakes false ⟨0, 1000000⟩ 1000000 state last ∧
      Timespec.finish ⟨0, 1000000⟩ false 0 ≤ last.now := by
  have wakes : ∃ state last, Wakes false ⟨0, 1000000⟩ 1000000 state last := by
    refine ⟨_, _, _, .cons ?_ rfl (.nil _), rfl,
      .cons ?_ rfl (.cons ?_ rfl (.cons ?_ rfl (.nil _))), by decide⟩
    all_goals rintro _ _ _ ⟨⟩
  obtain ⟨state, last, started, run, called, goes, ready⟩ := wakes
  exact ⟨state, last, ⟨started, run, called, goes, ready⟩,
    sleeps_are_long_enough (by unfold Timespec.Valid; decide) le_rfl (by decide) run called goes
      ready⟩

/-- The end of the sleep does not fit, and the thread is ready after a tenth of a millisecond. -/
theorem overflow_ends_sleep : ∃ state last : State 2, Wakes true ⟨9223372037, 0⟩ 100000 state last ∧
      last.now < Timespec.finish ⟨9223372037, 0⟩ true 0 := by
  refine ⟨_, _, ⟨_, .cons ?_ rfl (.nil _), rfl,
    .cons ?_ rfl (.cons ?_ rfl (.cons ?_ rfl (.nil _))), by decide⟩, by decide⟩
  all_goals rintro _ _ _ ⟨⟩

end Miosix.Sleeping
