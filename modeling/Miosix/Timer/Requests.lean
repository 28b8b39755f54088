/-
This file follows a request for an interrupt from the call of `IRQsetIrqNs` to the call of
`IRQwakeThreads` that serves it.

While a request is outstanding, the registers hold its tick, and if the tick has been reached then
something sees it: a flag of the hardware, or the function that is under way. The ticks that can
still pass before the request is served are counted by `effort`: those to the tick of the
interrupt, and then those for which the interrupt can be masked.
-/

import Miosix.Timer.Clock

namespace Miosix.Timer

open Transition Words

variable {config : Config} {state next : State} {requested : Nat} {tick : BitVec 64} {spent : Nat}

/-! ### What is required -/

/-- The tick of the last request, unless it has been served. -/
def outstanding : List Event → Option Nat
  | [] => none
  | .reading _ _ :: trace => outstanding trace
  | .request tick :: _ => some tick
  | .wakeThreads _ _ :: _ => none

/-- Every call of `IRQwakeThreads` serves the last request, which was not served before and whose
tick has been reached. -/
def WellServed : List Event → Prop
  | [] => True
  | .wakeThreads _ tick :: trace =>
      (∃ requested, outstanding trace = some requested ∧ requested ≤ tick) ∧ WellServed trace
  | .reading _ _ :: trace => WellServed trace
  | .request _ :: trace => WellServed trace

/-- The tick of the interrupt that is set. -/
def armedTick (state : State) : Nat := state.upperIrqTick.toNat + state.matchReg

section

variable (config : Config) (state : State)

/-- The condition on the calls. A tick that has not been reached is not requested while the flag of
a late interrupt is set. A change of the time moves the interrupt to a tick that can be
represented, and brings it no further away. -/
def Timely : Label config → Prop
  | .setIrqNs request => state.lateIrq = true → request.tick ≤ state.tick
  | .setTimeNs tick =>
      state.tick < tick → state.upperIrqTick ≠ never → state.tick < armedTick state →
        armedTick state + config.quirkAdvance < never.toNat ∧
        (tick < armedTick state → state.tick + config.quirkAdvance ≤ tick)
  | _ => True

instance decidableTimely : (label : Label config) → Decidable (Timely config state label)
  | .setIrqNs _ => inferInstanceAs (Decidable (_ → _))
  | .setTimeNs _ => inferInstanceAs (Decidable (_ → _ → _ → _ ∧ (_ → _)))
  | .count | .raise | .unmasked | .getTimeTick | .handler | .advance | .woken => .isTrue trivial

/-! ### What is seen -/

/-- What a function that is under way will do about a tick. -/
inductive Promise where
  | check (tick : BitVec 64)
  | retry (tick : BitVec 64)
  deriving DecidableEq, Repr

def Reader.promise : Reader → Option Promise
  | .setIrq tick => some (.check tick)
  | .retry tick => some (.check tick)
  | _ => none

def Place.promise : Place → Option Promise
  | .counter reader => reader.promise
  | .overflowFlag reader _ _ => reader.promise
  | .counterAgain reader _ _ => reader.promise
  | .setMatchReg tick => some (.retry tick)
  | _ => none

def Place.retrying : Place → Bool
  | .setMatchReg _ => true
  | _ => false

/-- The handler is going to test the flag of a late interrupt. -/
def Place.Handling : Place → Prop
  | .clearMatchFlag => True
  | .counter reader => reader = .handler
  | .overflowFlag reader _ _ => reader = .handler
  | .counterAgain reader _ _ => reader = .handler
  | _ => False

/-- A reader that has read the counter at an instant will notice that a tick was reached. -/
def Reader.Sees (reader : Reader) (armed instant : Nat) : Prop :=
  match reader with
  | .caller => False
  | .setIrq tick => tick.toNat ≤ instant
  | .retry tick => tick.toNat ≤ instant
  | .handler => armed ≤ instant

/-- The function that is under way will notice that a tick was reached. -/
def Place.Watching (armed : Nat) : Place → Prop
  | .counter reader => reader ≠ .caller
  | .overflowFlag reader _ instant => reader.Sees armed instant
  | .counterAgain reader _ instant => reader.Sees armed instant
  | .setMatchReg _ => True
  | _ => False

/-! ### The invariant -/

/-- What a promise rests on. -/
def Kept (requested : Nat) : Promise → Prop
  | .check tick => requested ≤ max tick.toNat state.tick ∧
      tick.toNat + config.quirkAdvance = armedTick state
  | .retry tick => config.withRtcAsOsTimer = true ∧ state.lateIrq = false ∧
      requested ≤ max tick.toNat state.tick ∧ tick.toNat ≤ requested + 2 ∧
      tick.toNat ≤ state.tick + 1

/-- The registers hold the tick of an interrupt for a request. -/
structure Armed (requested : Nat) : Prop where
  aligned : config.period ∣ state.upperIrqTick.toNat
  matchReg_lt : state.matchReg < config.period
  armed_lt : armedTick state < never.toNat
  requested_le : requested ≤ max (armedTick state) state.tick
  late : state.lateIrq = true → requested ≤ state.tick
  close : config.withRtcAsOsTimer = true → ∀ later : Nat, requested + 2 ≤ later →
    config.Representable later →
      state.irqNs.sle (config.tick2ns (BitVec.ofNat 64 later)) = true
  promise : ∀ promise, state.place.promise = some promise → Kept config state requested promise
  seenLate : state.lateIrq = true → state.forced = true ∨ state.place.Handling
  seen : armedTick state ≤ state.tick →
    state.lateIrq = true ∨ state.matched = true ∨ state.place.Watching (armedTick state)

/-- No interrupt is set. -/
structure Idle : Prop where
  upperIrqTick : state.upperIrqTick = never
  matchReg_lt : state.matchReg < config.period
  lateIrq : state.lateIrq = false
  promise : state.place.promise = none

structure Served : Prop where
  wellServed : WellServed state.trace
  idle : outstanding state.trace = none → Idle config state
  armed : ∀ requested, outstanding state.trace = some requested → Armed config state requested

end

/-! ### The tick of the interrupt -/

theorem Armed.toNat_getIrqTick (armed : Armed config state requested) :
    (getIrqTick state).toNat = armedTick state :=
  toNat_or_of_dvd (le_of_lt config.bits_lt) armed.aligned armed.matchReg_lt

theorem Armed.upper_ne_never (armed : Armed config state requested) :
    state.upperIrqTick ≠ never := by
  intro same
  have bound := armed.armed_lt
  rw [armedTick, same] at bound
  omega

theorem never_or_of_lt {lower : Nat} (small : lower < 2 ^ 32) :
    never ||| BitVec.ofNat 64 lower = never := by
  apply BitVec.eq_of_toNat_eq
  rw [BitVec.toNat_or, toNat_never, toNat_ofNat_of_lt (by omega)]
  refine Nat.eq_of_testBit_eq fun i => ?_
  rw [Nat.testBit_or, Nat.testBit_two_pow_sub_one]
  by_cases upper : i < 63
  · simp [upper]
  · have above : lower < 2 ^ i := lt_of_lt_of_le small (Nat.pow_le_pow_right (by decide) (by omega))
    simp [upper, Nat.testBit_lt_two_pow above]

theorem Idle.getIrqTick (idle : Idle config state) : getIrqTick state = never := by
  rw [Timer.getIrqTick, idle.upperIrqTick]
  exact never_or_of_lt (lt_of_lt_of_le idle.matchReg_lt config.period_le)

/-- The registers after the tick of an interrupt was written. -/
theorem writeIrqTick_spec (config : Config) (state : State) (tick2 : BitVec 64) :
    config.period ∣ (writeIrqTick config state tick2).upperIrqTick.toNat ∧
    (writeIrqTick config state tick2).matchReg < config.period ∧
    armedTick (writeIrqTick config state tick2) = tick2.toNat := by
  refine ⟨dvd_and_upperMask tick2 config.bits_lt, ?_, ?_⟩
  · show (tick2 &&& Words.lowerMask 64 config.bits).toNat < config.period
    rw [toNat_and_lowerMask config.bits_lt]
    exact Nat.mod_lt _ config.period_pos
  · show (tick2 &&& Words.upperMask 64 config.bits).toNat +
      (tick2 &&& Words.lowerMask 64 config.bits).toNat = tick2.toNat
    rw [toNat_and_lowerMask config.bits_lt, toNat_and_upperMask tick2 config.bits_lt]

theorem toNat_add_quirk (small : tick.toNat + config.quirkAdvance < never.toNat) :
    (tick + BitVec.ofNat 64 config.quirkAdvance).toNat = tick.toNat + config.quirkAdvance := by
  have quirk : (BitVec.ofNat 64 config.quirkAdvance).toNat = config.quirkAdvance :=
    toNat_ofNat_of_lt (lt_trans config.quirk_lt (by decide))
  rw [BitVec.toNat_add_of_lt (by omega), quirk]

/-! ### The ticks that can still pass -/

section

variable (config : Config) (state : State)

/-- The tick at which the handler notices that the interrupt is due. -/
def goal : Nat :=
  if state.lateIrq = true ∨ state.place.retrying = true then 0 else armedTick state

/-- The tick from which on the handler serves a request. A real time clock may try two more
ticks. -/
def horizon (requested : Nat) : Nat :=
  max (goal state)
    (if config.withRtcAsOsTimer then requested + 2 + config.quirkAdvance else 0)

/-- The ticks that can pass before a request is served: those to the horizon, and then those for
which interrupts can be masked. -/
def effort (requested : Nat) : Nat :=
  (horizon config state requested - state.tick) +
    if horizon config state requested ≤ state.tick then config.period - 1 - state.waited
    else config.period - 1

/-- A step after which everything holds again, and that spends ticks of every request that is
still outstanding. -/
structure Progress (spent : Nat) (before after : State) : Prop where
  served : Served config after
  spends : ∀ requested, outstanding after.trace = some requested →
    outstanding before.trace = some requested ∧
      effort config after requested + spent ≤ effort config before requested

end

theorem Progress.trans {first second : Nat} {middle : State}
    (earlier : Progress config first state middle) (later : Progress config second middle next) :
    Progress config (first + second) state next := { later with
  spends := by
    intro requested waiting
    obtain ⟨waiting, spent⟩ := later.spends requested waiting
    obtain ⟨waiting, before⟩ := earlier.spends requested waiting
    exact ⟨waiting, by omega⟩ }

/-- The request that is outstanding stays so. -/
theorem progress_of_armed (waiting : outstanding state.trace = some requested)
    (same : outstanding next.trace = some requested) (wellServed : WellServed next.trace)
    (armed : Armed config next requested)
    (closer : effort config next requested + spent ≤ effort config state requested) :
    Progress config spent state next where
  served :=
    { wellServed := wellServed
      idle := fun nothing => nomatch same.symm.trans nothing
      armed := fun other found => Option.some.inj (same.symm.trans found) ▸ armed }
  spends := by
    intro other found
    obtain rfl : requested = other := Option.some.inj (same.symm.trans found)
    exact ⟨waiting, closer⟩

/-- No request is outstanding. -/
theorem progress_of_idle (nothing : outstanding next.trace = none)
    (wellServed : WellServed next.trace) (idle : Idle config next) :
    Progress config spent state next where
  served :=
    { wellServed := wellServed
      idle := fun _ => idle
      armed := fun _ found => nomatch nothing.symm.trans found }
  spends := fun _ found => nomatch nothing.symm.trans found

theorem effort_le (waited : next.waited = state.waited)
    (closer : horizon config next requested - next.tick ≤
      horizon config state requested - state.tick) :
    effort config next requested ≤ effort config state requested := by
  unfold effort
  split_ifs <;> omega

theorem effort_le_of_goal_le (tick : next.tick = state.tick) (waited : next.waited = state.waited)
    (closer : goal next ≤ goal state) :
    effort config next requested ≤ effort config state requested := by
  refine effort_le waited ?_
  rw [tick]
  exact Nat.sub_le_sub_right (max_le_max closer le_rfl) _

theorem goal_le (state : State) : goal state ≤ armedTick state := by
  unfold goal
  split_ifs
  · exact Nat.zero_le _
  · exact le_rfl

/-! ### Steps that do not touch the interrupt -/

/-- The registers of the interrupt, the time and the request are the same, and what was seen is
still seen. -/
structure Calm (before after : State) : Prop where
  upperIrqTick : after.upperIrqTick = before.upperIrqTick
  matchReg : after.matchReg = before.matchReg
  irqNs : after.irqNs = before.irqNs
  lateIrq : after.lateIrq = before.lateIrq
  tick : after.tick = before.tick
  waited : after.waited = before.waited
  outstanding : outstanding after.trace = outstanding before.trace
  wellServed : WellServed before.trace → WellServed after.trace
  promise : after.place.promise = none ∨ after.place.promise = before.place.promise
  retrying : before.place.retrying = true → after.place.retrying = true
  seenLate : before.lateIrq = true → before.forced = true ∨ before.place.Handling →
    after.forced = true ∨ after.place.Handling
  seen : before.lateIrq = false → armedTick before ≤ before.tick →
    (∀ tick, before.place.promise = some (.check tick) → tick.toNat ≤ armedTick before) →
    before.matched = true ∨ before.place.Watching (armedTick before) →
    after.matched = true ∨ after.place.Watching (armedTick before)

theorem Calm.armedTick (calm : Calm state next) : armedTick next = armedTick state := by
  rw [Timer.armedTick, Timer.armedTick, calm.upperIrqTick, calm.matchReg]

theorem Calm.kept (calm : Calm state next) {promise : Promise}
    (kept : Kept config state requested promise) : Kept config next requested promise := by
  cases promise with
  | check tick =>
    rw [Kept, calm.armedTick, calm.tick]
    exact kept
  | retry tick =>
    rw [Kept, calm.lateIrq, calm.tick]
    exact kept

theorem Armed.check_le (armed : Armed config state requested)
    (promise : state.place.promise = some (.check tick)) : tick.toNat ≤ armedTick state := by
  have kept := armed.promise _ promise
  exact kept.2 ▸ Nat.le_add_right _ _

section

variable (calm : Calm state next)
include calm

theorem Calm.armed (armed : Armed config state requested) : Armed config next requested where
  aligned := calm.upperIrqTick ▸ armed.aligned
  matchReg_lt := calm.matchReg ▸ armed.matchReg_lt
  armed_lt := calm.armedTick ▸ armed.armed_lt
  requested_le := by
    rw [calm.armedTick, calm.tick]
    exact armed.requested_le
  late := by
    rw [calm.lateIrq, calm.tick]
    exact armed.late
  close := calm.irqNs ▸ armed.close
  promise := by
    intro promise made
    rcases calm.promise with nothing | same
    · rw [nothing] at made
      cases made
    · exact calm.kept (armed.promise promise (same ▸ made))
  seenLate := by
    intro late
    rw [calm.lateIrq] at late
    exact calm.seenLate late (armed.seenLate late)
  seen := by
    rw [calm.armedTick, calm.tick, calm.lateIrq]
    intro due
    cases late : state.lateIrq with
    | true => exact .inl rfl
    | false =>
      refine .inr (calm.seen late due (fun tick => armed.check_le) ?_)
      exact (armed.seen due).resolve_left (by rw [late]; decide)

theorem Calm.idle (idle : Idle config state) : Idle config next where
  upperIrqTick := calm.upperIrqTick.trans idle.upperIrqTick
  matchReg_lt := calm.matchReg ▸ idle.matchReg_lt
  lateIrq := calm.lateIrq.trans idle.lateIrq
  promise := calm.promise.elim id fun same => same.trans idle.promise

theorem Calm.goal_le : goal next ≤ goal state := by
  unfold goal
  rw [calm.lateIrq, calm.armedTick]
  by_cases early : state.lateIrq = true ∨ state.place.retrying = true
  · rw [if_pos (early.imp id calm.retrying)]
    exact Nat.zero_le _
  · split_ifs
    · exact Nat.zero_le _
    · exact le_rfl

theorem Calm.progress (served : Served config state) : Progress config 0 state next where
  served :=
    { wellServed := calm.wellServed served.wellServed
      idle := fun nothing => calm.idle (served.idle (calm.outstanding ▸ nothing))
      armed := fun _ waiting => calm.armed (served.armed _ (calm.outstanding ▸ waiting)) }
  spends := fun _ waiting =>
    ⟨calm.outstanding ▸ waiting, effort_le_of_goal_le calm.tick calm.waited calm.goal_le⟩

end

theorem calm_noteReading (instant : Nat) (value : BitVec 64) :
    Calm state (noteReading state instant value) :=
  ⟨rfl, rfl, rfl, rfl, rfl, rfl, rfl, id, .inr rfl, id, fun _ => id, fun _ _ _ => id⟩

/-- A place that has nothing to do with a request. -/
def Place.Aside : Place → Prop
  | .ready => True
  | .testOverflow => True
  | .clearOverflow => True
  | _ => False

theorem Place.Aside.unseeing {place : Place} (aside : place.Aside) :
    place.retrying = false ∧ ¬ place.Handling ∧ ∀ armed, ¬ place.Watching armed := by
  cases place with
  | ready | testOverflow | clearOverflow => exact ⟨rfl, id, fun _ => id⟩
  | _ => exact aside.elim

theorem calm_of_aside (aside : state.place.Aside) {place : Place} (settled : place.promise = none)
    {inHandler overflow : Bool} {upperTimeTick : BitVec 64} : Calm state { state with
      place := place
      inHandler := inHandler
      overflow := overflow
      upperTimeTick := upperTimeTick } := by
  obtain ⟨calm, unhandled, unwatched⟩ := aside.unseeing
  exact ⟨rfl, rfl, rfl, rfl, rfl, rfl, rfl, id, .inl settled,
    fun retrying => absurd (calm.symm.trans retrying) (by decide),
    fun _ seen => seen.imp id fun handling => absurd handling unhandled,
    fun _ _ _ seen => seen.imp id fun watching => absurd watching (unwatched _)⟩

end Miosix.Timer
