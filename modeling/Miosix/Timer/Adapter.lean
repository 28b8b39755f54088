/-
This file models the driver of the operating system timer (`TimerAdapter`) together with the
hardware timer it drives: a counter of a few bits, a match register, a flag for each of them, and
an interrupt that can also be forced.

Every access to a register is a step of its own, so that the counter can advance between any two
of them. Computations that only use variables are part of the step before. Some fields are not
part of the driver: the number of ticks that have really passed, the ticks since interrupts were
last served, and the trace of what happened.
-/

import Miosix.Lib.Transition
import Miosix.Lib.Words

namespace Miosix.Timer

open Transition Words

/-- The parameters of a driver. The conversion to nanoseconds is used only if the timer is a real
time clock. -/
structure Config where
  bits : Nat
  quirkAdvance : Nat
  withRtcAsOsTimer : Bool
  tick2ns : BitVec 64 → BitVec 64
  bits_le : bits ≤ 32
  quirk_lt : quirkAdvance < 2 ^ 32

/-- A timer without quirks that is not a real time clock. -/
def Config.plain (bits : Nat) (bits_le : bits ≤ 32) : Config :=
  ⟨bits, 0, false, id, bits_le, Nat.two_pow_pos 32⟩

section

variable (config : Config)

/-- The ticks of one turn of the counter. -/
def Config.period : Nat := 2 ^ config.bits

def Config.upperIncr : BitVec 64 := carry 64 config.bits

def Config.lowerMask (config : Config) : BitVec 64 := Words.lowerMask 64 config.bits

def Config.upperMask (config : Config) : BitVec 64 := Words.upperMask 64 config.bits

/-- The largest time, which stands for no interrupt. -/
def never : BitVec 64 := 0x7FFFFFFFFFFFFFFF#64

/-- The number of a tick can be represented, and so can that of a request for the next one. -/
def Config.Representable (tick : Nat) : Prop :=
  tick + 1 + config.quirkAdvance < never.toNat
  deriving Decidable

/-- A time and the tick the conversion gives for it. The error of the conversion is less than two
ticks. -/
structure Request where
  ns : BitVec 64
  tick : Nat
  representable : config.Representable tick
  close : config.withRtcAsOsTimer = true → ∀ later : Nat, tick + 2 ≤ later →
    config.Representable later → ns.sle (config.tick2ns (BitVec.ofNat 64 later)) = true

def Request.plain {bits : Nat} {bits_le : bits ≤ 32} (tick : Nat)
    (representable : tick + 1 < never.toNat) : Request (.plain bits bits_le) :=
  ⟨BitVec.ofNat 64 tick, tick, representable, nofun⟩

/-! ### The state -/

/-- Who reads the time. -/
inductive Reader where
  | caller
  | setIrq (tick : BitVec 64)
  | retry (tick : BitVec 64)
  | handler
  deriving DecidableEq, Repr

/-- The next access to the hardware. A reader remembers the counter, and here the tick at which it
has read it too. -/
inductive Place where
  | ready
  | counter (reader : Reader)
  | overflowFlag (reader : Reader) (counter instant : Nat)
  | counterAgain (reader : Reader) (counter instant : Nat)
  | clearMatchFlag
  | setMatchReg (tick : BitVec 64)
  | testOverflow
  | clearOverflow
  deriving DecidableEq, Repr

/-- What happened. -/
inductive Event where
  | reading (instant : Nat) (value : BitVec 64)
  | request (tick : Nat)
  | wakeThreads (now : BitVec 64) (tick : Nat)
  deriving DecidableEq, Repr

structure State where
  counter : Nat
  matchReg : Nat
  overflow : Bool
  matched : Bool
  forced : Bool
  upperTimeTick : BitVec 64
  upperIrqTick : BitVec 64
  irqNs : BitVec 64
  lateIrq : Bool
  inHandler : Bool
  place : Place
  tick : Nat
  waited : Nat
  trace : List Event
  deriving DecidableEq, Repr

def initial : State where
  counter := 0
  matchReg := 0
  overflow := false
  matched := false
  forced := false
  upperTimeTick := 0#64
  upperIrqTick := never
  irqNs := never
  lateIrq := false
  inHandler := false
  place := .ready
  tick := 0
  waited := 0
  trace := []

section

variable (state : State)

/-- An interrupt is requested. -/
def State.pending : Bool := state.overflow || state.matched || state.forced

/-! ### The functions of the driver -/

/-- The value of `IRQgetTimeTick` after its reads. -/
def timeTick (counter : Nat) (rolled : Bool) : BitVec 64 :=
  if rolled then (state.upperTimeTick ||| BitVec.ofNat 64 counter) + config.upperIncr
  else state.upperTimeTick ||| BitVec.ofNat 64 counter

/-- `IRQgetIrqTick`. -/
def getIrqTick : BitVec 64 := state.upperIrqTick ||| BitVec.ofNat 64 state.matchReg

/-- The registers of the interrupt that is set. -/
def writeIrqTick (tick2 : BitVec 64) : State :=
  { state with
    upperIrqTick := tick2 &&& config.upperMask
    matchReg := (tick2 &&& config.lowerMask).toNat }

/-- `IRQsetIrqTick` up to its call of `IRQgetTimeTick`. -/
def setIrqTick (tick : BitVec 64) (reader : Reader) : State :=
  { writeIrqTick config state (tick + BitVec.ofNat 64 config.quirkAdvance) with
    place := .counter reader }

def late : State := { state with forced := true, lateIrq := true }

/-- `IRQsetIrqTick` after its call of `IRQgetTimeTick`. -/
def checkLate (tick value : BitVec 64) (next : Place) : State :=
  if tick.sle value then { late state with place := next } else { state with place := next }

/-- The call of `IRQwakeThreads`. -/
def wakeThreads (state : State) (now : BitVec 64) : State :=
  { state with
    lateIrq := false
    irqNs := never
    upperIrqTick := never
    place := .ready
    trace := .wakeThreads now state.tick :: state.trace }

/-- `IRQhandler` after its call of `IRQgetTimeTick`. -/
def serve (tick : BitVec 64) : State :=
  if (getIrqTick state).sle tick || state.lateIrq then
    if config.withRtcAsOsTimer then
      if (config.tick2ns tick).slt state.irqNs then
        { state with lateIrq := false, place := .setMatchReg (tick + 1#64) }
      else wakeThreads state (config.tick2ns tick)
    else wakeThreads state state.irqNs
  else { state with place := .testOverflow }

/-- What follows a call of `IRQgetTimeTick`. -/
def returned (reader : Reader) (value : BitVec 64) : State :=
  match reader with
  | .caller => { state with place := .ready }
  | .setIrq tick => checkLate state tick value .ready
  | .retry tick => checkLate state tick value .testOverflow
  | .handler => serve config state value

def noteReading (instant : Nat) (value : BitVec 64) : State :=
  { state with trace := .reading instant value :: state.trace }

/-- The end of the reads. -/
def finish (reader : Reader) (counter instant : Nat) (rolled : Bool) : State :=
  returned config (noteReading state instant (timeTick config state counter rolled)) reader
    (timeTick config state counter rolled)

/-- The interrupt that is set moves with the time. -/
def moveIrq (oldTick tick : BitVec 64) : State :=
  if getIrqTick state ≠ never ∧ oldTick.slt (getIrqTick state) = true then
    if (getIrqTick state).sle tick then
      late (writeIrqTick config state (getIrqTick state + BitVec.ofNat 64 config.quirkAdvance))
    else writeIrqTick config state (getIrqTick state + BitVec.ofNat 64 config.quirkAdvance)
  else state

/-- The counter gets a new value. -/
def setCounter (tick : BitVec 64) : State :=
  { state with
    upperTimeTick := tick &&& config.upperMask
    counter := (tick &&& config.lowerMask).toNat
    overflow := false
    tick := tick.toNat }

/-- `IRQsetTimeNs`. The timer is stopped meanwhile. -/
def setTimeNs (tick : BitVec 64) : State :=
  let oldTick := timeTick config state state.counter state.overflow
  let state := noteReading state state.tick oldTick
  if oldTick.slt tick then moveIrq config (setCounter config state tick) oldTick tick else state

/-- The next access to the hardware. -/
def advance : Option State :=
  match state.place with
  | .ready => none
  | .counter reader => some { state with place := .overflowFlag reader state.counter state.tick }
  | .overflowFlag reader counter instant =>
      if state.overflow then some { state with place := .counterAgain reader counter instant }
      else some (finish config state reader counter instant false)
  | .counterAgain reader counter instant =>
      some (finish config state reader counter instant (decide (state.counter ≥ counter)))
  | .clearMatchFlag => some { state with matched := false, place := .counter .handler }
  | .setMatchReg tick => some (setIrqTick config state tick (.retry tick))
  | .testOverflow =>
      if state.overflow then some { state with place := .clearOverflow }
      else some { state with place := .ready, inHandler := false }
  | .clearOverflow => some { state with
      overflow := false
      upperTimeTick := state.upperTimeTick + config.upperIncr
      place := .ready
      inHandler := false }

/-! ### The machine -/

/-- The steps: the counter advances; a match that goes on raises the flag; interrupts are enabled
and none is requested; the functions of the driver are called, from the handler too when it has
called the kernel; the next access of a function; and the return of `IRQwakeThreads`. -/
inductive Label where
  | count
  | raise
  | unmasked
  | getTimeTick
  | setIrqNs (request : Request config)
  | setTimeNs (tick : Nat)
  | handler
  | advance
  | woken

/-- The timer after one more tick. -/
def counted : State :=
  { state with
    counter := (state.counter + 1) % config.period
    overflow := state.overflow || (state.counter + 1) % config.period == 0
    matched := state.matched || (state.counter + 1) % config.period == state.matchReg
    tick := state.tick + 1
    waited := state.waited + 1 }

/-- The counter advances. Interrupts are never masked for a whole period. -/
def count : Option State :=
  if config.Representable (state.tick + 1) ∧ state.waited + 1 < config.period then
    some (counted config state)
  else none

/-- The start of `IRQhandler`. -/
def enter : State :=
  { state with
    forced := false
    inHandler := true
    place := if state.matched || state.lateIrq then .clearMatchFlag else .testOverflow }

/-- `IRQsetIrqNs`. -/
def setIrqNs {config : Config} (state : State) (request : Request config) : State :=
  setIrqTick config
    { state with irqNs := request.ns, trace := .request request.tick :: state.trace }
    (BitVec.ofNat 64 request.tick) (.setIrq (BitVec.ofNat 64 request.tick))

def exec : Label config → Option State
  | .count => count config state
  | .raise =>
      if state.counter = state.matchReg then some { state with matched := true } else none
  | .unmasked =>
      if state.place = .ready ∧ state.inHandler = false ∧ state.pending = false then
        some { state with waited := 0 }
      else none
  | .getTimeTick =>
      if state.place = .ready then some { state with place := .counter .caller } else none
  | .setIrqNs request => if state.place = .ready then some (setIrqNs state request) else none
  | .setTimeNs tick =>
      if state.place = .ready ∧ config.Representable tick then
        some (setTimeNs config state (BitVec.ofNat 64 tick))
      else none
  | .handler =>
      if state.place = .ready ∧ state.inHandler = false then some (enter state) else none
  | .advance => advance config state
  | .woken =>
      if state.place = .ready ∧ state.inHandler = true then
        some { state with place := .testOverflow }
      else none

end

end

end Miosix.Timer
