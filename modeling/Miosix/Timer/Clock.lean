/-
This file shows that the driver of the timer extends the counter to 64 bits correctly: the time it
reads is the number of ticks that had passed when it read the counter for the first time.

While interrupts are masked the counter makes less than one turn, so the flag of the overflow
stands for at most one turn that is not yet in the upper bits. Whether that turn was before or
after the first read is what the second read of the counter tells.
-/

import Miosix.Timer.Adapter

namespace Miosix.Timer

open Transition Words

variable {config : Config} {state next : State}

/-! ### Words of the driver -/

theorem Config.bits_lt (config : Config) : config.bits < 64 :=
  lt_of_le_of_lt config.bits_le (by decide)

theorem Config.period_pos (config : Config) : 0 < config.period := Nat.two_pow_pos config.bits

theorem Config.period_le (config : Config) : config.period ≤ 2 ^ 32 :=
  Nat.pow_le_pow_right (by decide) config.bits_le

theorem toNat_upperIncr : config.upperIncr.toNat = config.period := toNat_carry config.bits_lt

theorem toNat_never : never.toNat = 2 ^ 63 - 1 := rfl

variable {tick counter instant : Nat} {place : Place} {value oldTick : BitVec 64} {reader : Reader}

theorem Config.Representable.lt (representable : config.Representable tick) :
    tick < 2 ^ 63 - 1 := by
  have bound : tick + 1 + config.quirkAdvance < 2 ^ 63 - 1 := representable
  omega

theorem toNat_ofNat_of_representable (representable : config.Representable tick) :
    (BitVec.ofNat 64 tick).toNat = tick :=
  toNat_ofNat_of_lt (by have := representable.lt; omega)

/-! ### The invariant of the clock -/

section

variable (config : Config) (state : State)

/-- The upper bits, the flag and the counter give the tick. If the flag is set, the turn ended after
interrupts were masked. -/
structure Clock : Prop where
  counter_lt : state.counter < config.period
  aligned : config.period ∣ state.upperTimeTick.toNat
  tick_eq : state.tick = state.upperTimeTick.toNat +
    (if state.overflow then config.period else 0) + state.counter
  rolled : state.overflow = true → state.counter < state.waited
  waited_lt : state.waited < config.period
  representable : config.Representable state.tick

/-- A value of the counter that was read at an instant, while interrupts have been masked. -/
structure Sampled (counter instant : Nat) : Prop where
  le : instant ≤ state.tick
  recent : state.tick ≤ instant + state.waited
  counter_lt : counter < config.period
  counted : instant = state.upperTimeTick.toNat + counter ∨
    state.overflow = true ∧ instant = state.upperTimeTick.toNat + config.period + counter

/-- What holds in the middle of a function. -/
def AtPlace : Place → Prop
  | .overflowFlag _ counter instant => Sampled config state counter instant
  | .counterAgain _ counter instant =>
      Sampled config state counter instant ∧ state.overflow = true
  | .clearOverflow => state.overflow = true
  | _ => True

/-- The times that were read, the last one first. -/
def readings (trace : List Event) : List (Nat × BitVec 64) :=
  trace.filterMap fun
    | .reading instant value => some (instant, value)
    | _ => none

/-- The instant of the reading that is under way, or the present. -/
def latest : Nat :=
  match state.place with
  | .overflowFlag _ _ instant => instant
  | .counterAgain _ _ instant => instant
  | _ => state.tick

/-- The times that were read are the ticks at their instants, and the instants are in order. -/
structure Truthful : Prop where
  correct : ∀ reading ∈ readings state.trace, reading.2.toNat = reading.1
  past : ∀ reading ∈ readings state.trace, reading.1 ≤ latest state
  ordered : (readings state.trace).Pairwise fun later earlier => earlier.1 ≤ later.1

structure Consistent : Prop where
  clock : Clock config state
  place : AtPlace config state state.place
  truthful : Truthful state

end

/-! ### Reading the time -/

section

variable (clock : Clock config state)

include clock

theorem Clock.toNat_or (below : counter < config.period) :
    (state.upperTimeTick ||| BitVec.ofNat 64 counter).toNat = state.upperTimeTick.toNat + counter :=
  toNat_or_of_dvd (le_of_lt config.bits_lt) clock.aligned below

theorem Clock.upper_le : state.upperTimeTick.toNat ≤ state.tick := by
  rw [clock.tick_eq]
  omega

theorem Clock.tick_lt : state.tick < 2 ^ 63 - 1 := clock.representable.lt

theorem Clock.toNat_timeTick_false (below : counter < config.period) :
    (timeTick config state counter false).toNat = state.upperTimeTick.toNat + counter := by
  rw [timeTick, if_neg (by decide), clock.toNat_or below]

theorem Clock.toNat_timeTick_true (below : counter < config.period) :
    (timeTick config state counter true).toNat =
      state.upperTimeTick.toNat + config.period + counter := by
  have upper := clock.upper_le
  have tick := clock.tick_lt
  have period := config.period_le
  rw [timeTick, if_pos rfl, BitVec.toNat_add_of_lt, clock.toNat_or below, toNat_upperIncr]
  · omega
  · rw [clock.toNat_or below, toNat_upperIncr]
    omega

/-- If the flag is not set, no turn has ended since the counter was read. -/
theorem Clock.reading_of_no_overflow
    (sampled : Sampled config state counter instant) (flag : state.overflow = false) :
    (timeTick config state counter false).toNat = instant := by
  rw [clock.toNat_timeTick_false sampled.counter_lt]
  rcases sampled.counted with counted | ⟨rolled, _⟩
  · exact counted.symm
  · rw [flag] at rolled
    cases rolled

/-- If the flag is set, the second read tells whether the turn ended before the first one. -/
theorem Clock.reading_of_overflow
    (sampled : Sampled config state counter instant) (flag : state.overflow = true) :
    (timeTick config state counter (decide (state.counter ≥ counter))).toNat = instant := by
  have total := clock.tick_eq
  rw [if_pos flag] at total
  have recent := sampled.recent
  have past := sampled.le
  have waited := clock.waited_lt
  by_cases again : state.counter ≥ counter
  · rw [decide_eq_true again, clock.toNat_timeTick_true sampled.counter_lt]
    rcases sampled.counted with counted | ⟨_, counted⟩ <;> omega
  · rw [decide_eq_false again, clock.toNat_timeTick_false sampled.counter_lt]
    rcases sampled.counted with counted | ⟨_, counted⟩ <;> omega

/-- The time while the timer is stopped. -/
theorem Clock.toNat_timeTick :
    (timeTick config state state.counter state.overflow).toNat = state.tick := by
  rw [clock.tick_eq]
  cases flag : state.overflow with
  | false =>
    rw [clock.toNat_timeTick_false clock.counter_lt]
    simp
  | true =>
    rw [clock.toNat_timeTick_true clock.counter_lt]
    simp

/-- The value of the counter is a sample. -/
theorem Clock.sampled : Sampled config state state.counter state.tick := { clock with
  le := le_rfl
  recent := Nat.le_add_right _ _
  counted := by
    have total := clock.tick_eq
    cases flag : state.overflow with
    | false =>
      rw [flag, if_neg (by decide), Nat.add_zero] at total
      exact .inl total
    | true =>
      rw [flag, if_pos rfl] at total
      exact .inr ⟨rfl, total⟩ }

end

/-! ### Steps that do not touch the clock -/

/-- The clock is the same, and no time was read. -/
structure Quiet (before after : State) : Prop where
  counter : after.counter = before.counter
  overflow : after.overflow = before.overflow
  upperTimeTick : after.upperTimeTick = before.upperTimeTick
  tick : after.tick = before.tick
  waited : after.waited = before.waited
  readings : readings after.trace = readings before.trace

/-- Nothing is remembered at this place. -/
def Place.Settled : Place → Prop
  | .overflowFlag _ _ _ => False
  | .counterAgain _ _ _ => False
  | .clearOverflow => False
  | _ => True

theorem Quiet.clock (quiet : Quiet state next) (clock : Clock config state) :
    Clock config next where
  counter_lt := quiet.counter ▸ clock.counter_lt
  aligned := quiet.upperTimeTick ▸ clock.aligned
  tick_eq := by
    rw [quiet.tick, quiet.upperTimeTick, quiet.overflow, quiet.counter]
    exact clock.tick_eq
  rolled := by
    rw [quiet.overflow, quiet.counter, quiet.waited]
    exact clock.rolled
  waited_lt := quiet.waited ▸ clock.waited_lt
  representable := quiet.tick ▸ clock.representable

theorem Quiet.sampled (quiet : Quiet state next) (sampled : Sampled config state counter instant)
    : Sampled config next counter instant := { sampled with
  le := quiet.tick ▸ sampled.le
  recent := by
    rw [quiet.tick, quiet.waited]
    exact sampled.recent
  counted := by
    rw [quiet.upperTimeTick, quiet.overflow]
    exact sampled.counted }

theorem Quiet.atPlace (quiet : Quiet state next) (holds : AtPlace config state place) :
    AtPlace config next place := by
  cases place with
  | overflowFlag reader counter instant => exact quiet.sampled holds
  | counterAgain reader counter instant =>
    exact ⟨quiet.sampled holds.1, quiet.overflow.trans holds.2⟩
  | clearOverflow => exact quiet.overflow.trans holds
  | _ => trivial

theorem atPlace_of_settled (settled : place.Settled) : AtPlace config state place := by
  cases place with
  | overflowFlag | counterAgain | clearOverflow => exact settled.elim
  | _ => trivial

theorem latest_of_settled (settled : state.place.Settled) : latest state = state.tick := by
  revert settled
  unfold latest
  cases state.place with
  | overflowFlag | counterAgain => exact False.elim
  | _ => exact fun _ => rfl

section

variable (consistent : Consistent config state)

include consistent

theorem Consistent.latest_le : latest state ≤ state.tick := by
  have place := consistent.place
  unfold latest
  revert place
  cases state.place with
  | overflowFlag => exact fun sampled => sampled.le
  | counterAgain => exact fun rolled => rolled.1.le
  | _ => exact fun _ => le_rfl

theorem Consistent.move (quiet : Quiet state next)
    (place : AtPlace config state next.place) (later : latest state ≤ latest next) :
    Consistent config next where
  clock := quiet.clock consistent.clock
  place := quiet.atPlace place
  truthful :=
    { correct := quiet.readings ▸ consistent.truthful.correct
      past := by
        rw [quiet.readings]
        exact fun reading member => (consistent.truthful.past reading member).trans later
      ordered := quiet.readings ▸ consistent.truthful.ordered }

theorem Consistent.settle (quiet : Quiet state next)
    (settled : next.place.Settled) : Consistent config next := by
  refine consistent.move quiet (atPlace_of_settled settled) ?_
  rw [latest_of_settled settled, quiet.tick]
  exact consistent.latest_le

/-- A reading that is right is noted. -/
theorem Consistent.note (right : value.toNat = latest state) :
    Consistent config (noteReading state (latest state) value) where
  clock := { consistent.clock with }
  place := by
    have place := consistent.place
    show AtPlace config _ state.place
    revert place
    cases state.place with
    | overflowFlag => exact fun sampled => { sampled with }
    | counterAgain => exact fun rolled => ⟨{ rolled.1 with }, rolled.2⟩
    | _ => exact id
  truthful :=
    { correct := by
        exact List.forall_mem_cons.mpr ⟨right, consistent.truthful.correct⟩
      past := by
        exact List.forall_mem_cons.mpr ⟨le_rfl, consistent.truthful.past⟩
      ordered := List.Pairwise.cons consistent.truthful.past consistent.truthful.ordered }

end

/-! ### The functions keep the invariant -/

section

variable {tick : BitVec 64}

theorem quiet_checkLate : Quiet state (checkLate state tick value place) := by
  unfold checkLate
  split <;> exact ⟨rfl, rfl, rfl, rfl, rfl, rfl⟩

theorem place_checkLate : (checkLate state tick value place).place = place := by
  unfold checkLate
  split <;> rfl

theorem quiet_serve : Quiet state (serve config state tick) := by
  unfold serve wakeThreads
  split_ifs <;> exact ⟨rfl, rfl, rfl, rfl, rfl, rfl⟩

theorem settled_serve : (serve config state tick).place.Settled := by
  unfold serve wakeThreads
  split_ifs <;> trivial

end

theorem quiet_returned : Quiet state (returned config state reader value) := by
  cases reader with
  | caller => exact ⟨rfl, rfl, rfl, rfl, rfl, rfl⟩
  | setIrq | retry => exact quiet_checkLate
  | handler => exact quiet_serve

theorem settled_returned : (returned config state reader value).place.Settled := by
  cases reader with
  | caller => trivial
  | setIrq tick =>
    show (checkLate state tick value .ready).place.Settled
    rw [place_checkLate]
    trivial
  | retry tick =>
    show (checkLate state tick value .testOverflow).place.Settled
    rw [place_checkLate]
    trivial
  | handler => exact settled_serve

theorem Consistent.finish (consistent : Consistent config state) {rolled : Bool}
    (now : latest state = instant)
    (right : (timeTick config state counter rolled).toNat = instant) :
    Consistent config (finish config state reader counter instant rolled) := by
  subst now
  exact (consistent.note right).settle quiet_returned settled_returned

theorem quiet_moveIrq {tick : BitVec 64} : Quiet state (moveIrq config state oldTick tick) := by
  unfold moveIrq late writeIrqTick
  split_ifs <;> exact ⟨rfl, rfl, rfl, rfl, rfl, rfl⟩

theorem place_moveIrq {tick : BitVec 64} :
    (moveIrq config state oldTick tick).place = state.place := by
  unfold moveIrq late writeIrqTick
  split_ifs <;> rfl

theorem Consistent.setCounter (consistent : Consistent config state)
    (ready : state.place = .ready) (representable : config.Representable tick)
    (later : state.tick < tick) :
    Consistent config (setCounter config state (BitVec.ofNat 64 tick)) where
  clock :=
    { counter_lt := by
        show (_ &&& Words.lowerMask 64 config.bits).toNat < config.period
        rw [toNat_and_lowerMask config.bits_lt]
        exact Nat.mod_lt _ config.period_pos
      aligned := dvd_and_upperMask _ config.bits_lt
      tick_eq := by
        show (BitVec.ofNat 64 tick).toNat = (_ &&& Words.upperMask 64 config.bits).toNat + 0 +
          (_ &&& Words.lowerMask 64 config.bits).toNat
        rw [Nat.add_zero, toNat_and_lowerMask config.bits_lt, toNat_and_upperMask _ config.bits_lt]
      rolled := nofun
      waited_lt := consistent.clock.waited_lt
      representable := by
        show config.Representable (BitVec.ofNat 64 tick).toNat
        rw [toNat_ofNat_of_representable representable]
        exact representable }
  place := by
    show AtPlace config _ state.place
    rw [ready]
    trivial
  truthful :=
    { correct := consistent.truthful.correct
      past := by
        intro reading member
        have settled : (Timer.setCounter config state (BitVec.ofNat 64 tick)).place.Settled := by
          show state.place.Settled
          rw [ready]
          trivial
        rw [latest_of_settled settled]
        show reading.1 ≤ (BitVec.ofNat 64 tick).toNat
        rw [toNat_ofNat_of_representable representable]
        exact ((consistent.truthful.past reading member).trans consistent.latest_le).trans later.le
      ordered := consistent.truthful.ordered }

theorem Clock.slt_timeTick_iff (clock : Clock config state)
    (representable : config.Representable tick) :
    (timeTick config state state.counter state.overflow).slt (BitVec.ofNat 64 tick) = true ↔
      state.tick < tick := by
  have small := representable.lt
  have below := clock.tick_lt
  have old := clock.toNat_timeTick
  have value := toNat_ofNat_of_representable representable
  rw [slt_iff_of_lt (by rw [old]; omega) (by rw [value]; omega), old, value]

theorem Consistent.setTimeNs (consistent : Consistent config state) (ready : state.place = .ready)
    (representable : config.Representable tick) :
    Consistent config (setTimeNs config state (BitVec.ofNat 64 tick)) := by
  have now : latest state = state.tick := latest_of_settled (ready ▸ trivial)
  have noted := consistent.note (consistent.clock.toNat_timeTick.trans now.symm)
  rw [now] at noted
  simp only [Timer.setTimeNs, consistent.clock.slt_timeTick_iff representable]
  split_ifs with later
  · refine (noted.setCounter ready representable later).settle quiet_moveIrq ?_
    rw [place_moveIrq]
    exact (ready ▸ trivial : state.place.Settled)
  · exact noted

/-! ### The passage of time -/

/-- While interrupts are masked, at most one turn of the counter ends. -/
theorem Clock.counted (clock : Clock config state)
    (representable : config.Representable (state.tick + 1))
    (masked : state.waited + 1 < config.period) : Clock config (counted config state) := by
  have total := clock.tick_eq
  have below := clock.counter_lt
  by_cases last : state.counter + 1 = config.period
  · have flag : state.overflow = false := by
      by_contra set
      have rolled := clock.rolled (Bool.eq_true_of_not_eq_false set)
      omega
    have zero : (state.counter + 1) % config.period = 0 := by rw [last, Nat.mod_self]
    have after : (Timer.counted config state).overflow = true := by simp [Timer.counted, zero]
    have start : (Timer.counted config state).counter = 0 := zero
    rw [flag, if_neg (by decide)] at total
    refine ⟨?_, clock.aligned, ?_, fun _ => ?_, masked, representable⟩
    · rw [start]
      exact config.period_pos
    · rw [after, if_pos rfl, start]
      show state.tick + 1 = state.upperTimeTick.toNat + config.period + 0
      omega
    · rw [start]
      exact Nat.succ_pos state.waited
  · have step : (state.counter + 1) % config.period = state.counter + 1 :=
      Nat.mod_eq_of_lt (by omega)
    have after : (Timer.counted config state).overflow = state.overflow := by
      simp [Timer.counted, step]
    have moved : (Timer.counted config state).counter = state.counter + 1 := step
    refine ⟨?_, clock.aligned, ?_, ?_, masked, representable⟩
    · omega
    · rw [after, moved]
      show state.tick + 1 = state.upperTimeTick.toNat + _ + (state.counter + 1)
      omega
    · rw [after, moved]
      exact fun flag => Nat.succ_lt_succ (clock.rolled flag)

theorem overflow_counted (flag : state.overflow = true) :
    (counted config state).overflow = true := by
  simp [counted, flag]

theorem sampled_counted (sampled : Sampled config state counter instant) :
    Sampled config (counted config state) counter instant := { sampled with
  le := sampled.le.trans (Nat.le_succ _)
  recent := Nat.succ_le_succ sampled.recent
  counted := sampled.counted.imp id fun turned => ⟨overflow_counted turned.1, turned.2⟩ }

theorem atPlace_counted (holds : AtPlace config state place) :
    AtPlace config (counted config state) place := by
  cases place with
  | overflowFlag reader counter instant => exact sampled_counted holds
  | counterAgain reader counter instant =>
    exact ⟨sampled_counted holds.1, overflow_counted holds.2⟩
  | clearOverflow => exact overflow_counted holds
  | _ => trivial

theorem latest_le_counted : latest state ≤ latest (counted config state) := by
  cases found : state.place with
  | overflowFlag | counterAgain => simp [latest, counted, found]
  | _ => simp [latest, counted, found]

section

variable (consistent : Consistent config state)
include consistent

theorem Consistent.counted (representable : config.Representable (state.tick + 1))
    (masked : state.waited + 1 < config.period) : Consistent config (counted config state) where
  clock := consistent.clock.counted representable masked
  place := atPlace_counted consistent.place
  truthful :=
    { correct := consistent.truthful.correct
      past := fun reading member =>
        (consistent.truthful.past reading member).trans latest_le_counted
      ordered := consistent.truthful.ordered }

/-- When interrupts are enabled and none is requested, every turn is in the upper bits. -/
theorem Consistent.unmasked (ready : state.place = .ready)
    (quiet : state.pending = false) : Consistent config { state with waited := 0 } where
  clock := { consistent.clock with
    rolled := by
      intro flag
      have clear : state.overflow = false := by
        simp only [State.pending, Bool.or_eq_false_iff] at quiet
        exact quiet.1.1
      exact absurd (clear.symm.trans flag) (by decide)
    waited_lt := config.period_pos }
  place := by
    rw [ready]
    trivial
  truthful := { consistent.truthful with }

/-- The handler adds the turn that the flag stands for. -/
theorem Consistent.clearOverflow (place : state.place = .clearOverflow) :
    Consistent config { state with
      overflow := false
      upperTimeTick := state.upperTimeTick + config.upperIncr
      place := .ready
      inHandler := false } := by
  have clock := consistent.clock
  have flag : state.overflow = true := by
    have holds := consistent.place
    rw [place] at holds
    exact holds
  have total := clock.tick_eq
  rw [if_pos flag] at total
  have small := clock.tick_lt
  have upper : (state.upperTimeTick + config.upperIncr).toNat =
      state.upperTimeTick.toNat + config.period := by
    rw [BitVec.toNat_add_of_lt, toNat_upperIncr]
    rw [toNat_upperIncr]
    omega
  refine ⟨{ clock with aligned := ?_, tick_eq := ?_, rolled := nofun },
    trivial, consistent.truthful.correct, ?_, consistent.truthful.ordered⟩
  · rw [upper]
    exact Nat.dvd_add clock.aligned dvd_rfl
  · show state.tick = (state.upperTimeTick + config.upperIncr).toNat + 0 + state.counter
    omega
  · intro reading member
    exact (consistent.truthful.past reading member).trans consistent.latest_le

/-! ### Every run -/

theorem Consistent.advance (stepped : advance config state = some next) :
    Consistent config next := by
  have holds := consistent.place
  unfold Timer.advance at stepped
  cases place : state.place with
  | ready => simp [place] at stepped
  | counter reader =>
    simp only [place] at stepped
    cases stepped
    refine consistent.move ⟨rfl, rfl, rfl, rfl, rfl, rfl⟩ consistent.clock.sampled ?_
    exact consistent.latest_le
  | overflowFlag reader counter instant =>
    rw [place] at holds
    simp only [place] at stepped
    have now : latest state = instant := by simp [latest, place]
    split_ifs at stepped with flag
    · cases stepped
      exact consistent.move ⟨rfl, rfl, rfl, rfl, rfl, rfl⟩ ⟨holds, flag⟩ now.le
    · cases stepped
      exact consistent.finish now
        (consistent.clock.reading_of_no_overflow holds (Bool.eq_false_of_not_eq_true flag))
  | counterAgain reader counter instant =>
    rw [place] at holds
    have now : latest state = instant := by simp [latest, place]
    simp only [place] at stepped
    cases stepped
    exact consistent.finish now (consistent.clock.reading_of_overflow holds.1 holds.2)
  | clearMatchFlag | setMatchReg =>
    simp only [place] at stepped
    cases stepped
    exact consistent.settle ⟨rfl, rfl, rfl, rfl, rfl, rfl⟩ trivial
  | testOverflow =>
    simp only [place] at stepped
    have now : latest state = state.tick := by simp [latest, place]
    split_ifs at stepped with flag
    · cases stepped
      exact consistent.move ⟨rfl, rfl, rfl, rfl, rfl, rfl⟩ flag now.le
    · cases stepped
      exact consistent.settle ⟨rfl, rfl, rfl, rfl, rfl, rfl⟩ trivial
  | clearOverflow =>
    simp only [place] at stepped
    cases stepped
    exact consistent.clearOverflow place

theorem Consistent.step {label : Label config}
    (stepped : exec config state label = some next) : Consistent config next := by
  cases label with
  | count =>
    obtain ⟨⟨representable, masked⟩, rfl⟩ := of_guard stepped
    exact consistent.counted representable masked
  | raise =>
    obtain ⟨_, rfl⟩ := of_guard stepped
    exact consistent.move ⟨rfl, rfl, rfl, rfl, rfl, rfl⟩ consistent.place le_rfl
  | unmasked =>
    obtain ⟨⟨ready, _, quiet⟩, rfl⟩ := of_guard stepped
    exact consistent.unmasked ready quiet
  | getTimeTick | setIrqNs | woken =>
    obtain ⟨_, rfl⟩ := of_guard stepped
    exact consistent.settle ⟨rfl, rfl, rfl, rfl, rfl, rfl⟩ trivial
  | setTimeNs tick =>
    obtain ⟨⟨ready, representable⟩, rfl⟩ := of_guard stepped
    exact consistent.setTimeNs ready representable
  | handler =>
    obtain ⟨_, rfl⟩ := of_guard stepped
    refine consistent.settle ⟨rfl, rfl, rfl, rfl, rfl, rfl⟩ ?_
    show Place.Settled (if _ then _ else _)
    split <;> trivial
  | advance => exact consistent.advance stepped

end

theorem consistent_initial : Consistent config initial where
  clock :=
    { counter_lt := config.period_pos
      aligned := dvd_zero _
      tick_eq := rfl
      rolled := nofun
      waited_lt := config.period_pos
      representable := by
        show 0 + 1 + config.quirkAdvance < 2 ^ 63 - 1
        have small := config.quirk_lt
        omega }
  place := trivial
  truthful := ⟨nofun, nofun, .nil⟩

theorem consistent_of_run {allowed : State → Label config → Prop} {labels : List (Label config)}
    {last : State} (run : Run (exec config) allowed initial labels last) :
    Consistent config last :=
  run.invariant (Consistent config) (fun _ _ _ consistent _ => consistent.step) consistent_initial

theorem Consistent.toInt_reading (consistent : Consistent config state) {reading : Nat × BitVec 64}
    (member : reading ∈ readings state.trace) : reading.2.toInt = reading.1 := by
  have value := consistent.truthful.correct reading member
  have past := (consistent.truthful.past reading member).trans consistent.latest_le
  have small := consistent.clock.tick_lt
  rw [BitVec.toInt_eq_toNat_of_lt (by omega), value]

/-- Every time that the driver has read is the number of ticks at the instant of its first read of
the counter, and no time is less than one that was read before. -/
theorem time_is_read_correctly {labels : List (Label config)} {last : State}
    (run : Run (exec config) unrestricted initial labels last) :
    (∀ reading ∈ readings last.trace, reading.2.toInt = reading.1) ∧
    (readings last.trace).Pairwise fun later earlier => earlier.2.toInt ≤ later.2.toInt := by
  have consistent := consistent_of_run run
  refine ⟨fun reading => consistent.toInt_reading, ?_⟩
  refine consistent.truthful.ordered.imp_of_mem
    fun {later earlier} laterMember earlierMember order => ?_
  rw [consistent.toInt_reading laterMember, consistent.toInt_reading earlierMember]
  exact Nat.cast_le.mpr order

/-- A turn of the counter ends between the first read and that of the flag. The handler adds it,
and the time is read again. -/
theorem time_is_read_correctly_at_rollover :
    ∃ labels last, Run (exec (.plain 2 (by decide))) unrestricted initial labels last ∧
      readings last.trace = [(4, 4#64), (4, 4#64), (3, 3#64)] ∧
      (readings last.trace).Pairwise fun later earlier => earlier.2.toInt ≤ later.2.toInt :=
  ⟨[.count, .count, .unmasked, .count, .getTimeTick, .advance, .count, .advance, .advance,
      .handler, .advance, .advance, .advance, .advance, .advance, .advance,
      .getTimeTick, .advance, .advance],
    exists_run _ (by decide +kernel)
      fun _ run found => ⟨run, found, (time_is_read_correctly run).2⟩⟩

end Miosix.Timer
