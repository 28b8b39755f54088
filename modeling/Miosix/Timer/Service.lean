/-
This file shows that the driver of the timer serves requests as it should, if a tick that has not
been reached is never requested while the flag of a late interrupt is set: the flag belongs to the
request before, and the handler would take it for the new one.

Every step of the timer keeps the invariant of requests, and no step but a request takes a request
further away from its service.
-/

import Miosix.Timer.Requests

namespace Miosix.Timer

open Transition Words

variable {config : Config} {state next : State} {requested : Nat}

/-! ### The passage of time -/

theorem Clock.tick_mod (clock : Clock config state) :
    state.tick % config.period = state.counter := by
  obtain ⟨turns, aligned⟩ := clock.aligned
  have total := clock.tick_eq
  rw [aligned] at total
  cases flag : state.overflow with
  | false =>
    rw [total, flag, if_neg (by decide), Nat.add_zero, Nat.mul_add_mod,
      Nat.mod_eq_of_lt clock.counter_lt]
  | true =>
    rw [total, flag, if_pos rfl, ← Nat.mul_succ, Nat.mul_add_mod, Nat.mod_eq_of_lt clock.counter_lt]

section

variable (armed : Armed config state requested)
include armed

theorem Armed.armed_mod : armedTick state % config.period = state.matchReg := by
  obtain ⟨turns, aligned⟩ := armed.aligned
  rw [armedTick, aligned, Nat.mul_add_mod, Nat.mod_eq_of_lt armed.matchReg_lt]

/-- The flag of the match is raised when the tick of the interrupt is reached. -/
theorem Armed.matched_of_reached
    (clock : Clock config (counted config state)) (reached : armedTick state = state.tick + 1) :
    (counted config state).matched = true := by
  have same : (state.counter + 1) % config.period = state.matchReg := by
    rw [← armed.armed_mod, reached]
    exact clock.tick_mod.symm
  show (state.matched || _) = true
  rw [same]
  simp

theorem Armed.counted (clock : Clock config (counted config state)) :
    Armed config (counted config state) requested := { armed with
  requested_le := armed.requested_le.trans (max_le_max le_rfl (Nat.le_succ _))
  late := fun late => (armed.late late).trans (Nat.le_succ _)
  promise := by
    intro promise made
    have kept := armed.promise promise made
    cases promise with
    | check tick =>
      exact ⟨kept.1.trans (max_le_max le_rfl (Nat.le_succ _)), kept.2⟩
    | retry tick =>
      exact ⟨kept.1, kept.2.1, kept.2.2.1.trans (max_le_max le_rfl (Nat.le_succ _)), kept.2.2.2.1,
        kept.2.2.2.2.trans (Nat.le_succ _)⟩
  seen := by
    intro due
    rcases Nat.lt_or_ge state.tick (armedTick state) with before | after
    · have reached : armedTick state = state.tick + 1 := le_antisymm due before
      exact .inr (.inl (armed.matched_of_reached clock reached))
    · refine (armed.seen after).imp id (Or.imp ?_ id)
      intro matched
      show (state.matched || _) = true
      rw [matched, Bool.true_or] }

end

theorem Served.counted (served : Served config state)
    (clock : Clock config (counted config state)) (masked : state.waited + 1 < config.period) :
    Progress config 1 state (counted config state) where
  served :=
    { served with
      idle := fun nothing =>
        have idle := served.idle nothing
        { idle with }
      armed := fun requested waiting => (served.armed requested waiting).counted clock }
  spends := by
    refine fun requested waiting => ⟨waiting, ?_⟩
    have same : horizon config (Timer.counted config state) requested =
      horizon config state requested := rfl
    unfold effort
    show horizon config state requested - (state.tick + 1) +
      (if _ ≤ state.tick + 1 then config.period - 1 - (state.waited + 1) else _) + 1 ≤ _
    split_ifs <;> omega

/-- Interrupts are not enabled without one that is requested if the interrupt is due. -/
theorem Armed.tick_lt_horizon (armed : Armed config state requested) (ready : state.place = .ready)
    (quiet : state.pending = false) : state.tick < horizon config state requested := by
  simp only [State.pending, Bool.or_eq_false_iff] at quiet
  have onTime : state.lateIrq = false := by
    by_contra late
    rcases armed.seenLate (Bool.eq_true_of_not_eq_false late) with forced | handling
    · exact absurd (quiet.2.symm.trans forced) (by decide)
    · rw [ready] at handling
      exact handling
  have early : state.tick < armedTick state := by
    by_contra due
    rcases armed.seen (not_lt.mp due) with late | matched | watching
    · exact absurd (onTime.symm.trans late) (by decide)
    · exact absurd (quiet.1.2.symm.trans matched) (by decide)
    · rw [ready] at watching
      exact watching
  have same : goal state = armedTick state := by
    rw [goal, if_neg]
    rintro (late | retrying)
    · exact absurd (onTime.symm.trans late) (by decide)
    · rw [ready] at retrying
      cases retrying
  exact lt_of_lt_of_le (same ▸ early) (le_max_left _ _)

section

variable (served : Served config state)
include served

theorem Served.unmasked (ready : state.place = .ready)
    (quiet : state.pending = false) : Progress config 0 state { state with waited := 0 } where
  served :=
    { served with
      idle := fun nothing =>
        have idle := served.idle nothing
        { idle with }
      armed := fun requested waiting =>
        have armed := served.armed requested waiting
        { armed with } }
  spends := by
    refine fun requested waiting => ⟨waiting, ?_⟩
    have early := (served.armed requested waiting).tick_lt_horizon ready quiet
    have same : horizon config { state with waited := 0 } requested =
      horizon config state requested := rfl
    unfold effort
    rw [same]
    rw [if_neg (not_le.mpr early), if_neg (not_le.mpr early)]
    exact le_rfl

/-! ### A request -/

theorem Served.matchReg_lt : state.matchReg < config.period := by
  cases waiting : outstanding state.trace with
  | none => exact (served.idle waiting).matchReg_lt
  | some requested => exact (served.armed requested waiting).matchReg_lt

/-- Outside of the functions of the driver, an interrupt that is late is requested. -/
theorem Served.forced_of_late (ready : state.place = .ready)
    (late : state.lateIrq = true) : state.forced = true := by
  cases waiting : outstanding state.trace with
  | none => exact absurd ((served.idle waiting).lateIrq.symm.trans late) (by decide)
  | some requested =>
    refine ((served.armed requested waiting).seenLate late).resolve_right ?_
    rw [ready]
    exact id

theorem Served.setIrqNs (ready : state.place = .ready)
    {request : Request config} (timely : state.lateIrq = true → request.tick ≤ state.tick) :
    Served config (setIrqNs state request) := by
  have value := toNat_ofNat_of_representable request.representable
  have fits : request.tick + 1 + config.quirkAdvance < never.toNat := request.representable
  have sum : (BitVec.ofNat 64 request.tick + BitVec.ofNat 64 config.quirkAdvance).toNat =
      request.tick + config.quirkAdvance := by
    rw [toNat_add_quirk (by rw [value]; omega), value]
  have registers := writeIrqTick_spec config
    { state with irqNs := request.ns, trace := .request request.tick :: state.trace }
    (BitVec.ofNat 64 request.tick + BitVec.ofNat 64 config.quirkAdvance)
  have target : armedTick (Timer.setIrqNs state request) = request.tick + config.quirkAdvance :=
    registers.2.2.trans sum
  refine ⟨served.wellServed, nofun, fun requested waiting => ?_⟩
  obtain rfl : request.tick = requested := Option.some.inj waiting
  refine ⟨registers.1, registers.2.1, ?_, ?_, timely, request.close, ?_, ?_, ?_⟩
  · omega
  · omega
  · intro promise made
    obtain rfl : Promise.check (BitVec.ofNat 64 request.tick) = promise := Option.some.inj made
    refine ⟨?_, ?_⟩
    · rw [value]
      exact le_max_left _ _
    · rw [value, target]
  · intro late
    exact .inl (served.forced_of_late ready late)
  · intro due
    exact .inr (.inr (nofun : Reader.setIrq _ ≠ Reader.caller))

end

variable {tick oldTick value : BitVec 64} {reader : Reader} {label : Label config}
  {labels : List (Label config)} {last : State}

/-! ### A change of the time -/

section

variable (armed : Armed config state requested)
include armed

theorem slt_getIrqTick_iff (small : tick.toNat < 2 ^ 63) :
    tick.slt (getIrqTick state) = true ↔ tick.toNat < armedTick state := by
  have bound := armed.armed_lt
  rw [toNat_never] at bound
  have value := armed.toNat_getIrqTick
  rw [slt_iff_of_lt (by omega) (by rw [value]; omega), value]

theorem sle_getIrqTick_iff (small : tick.toNat < 2 ^ 63) :
    (getIrqTick state).sle tick = true ↔ armedTick state ≤ tick.toNat := by
  have bound := armed.armed_lt
  rw [toNat_never] at bound
  have value := armed.toNat_getIrqTick
  rw [sle_iff_of_lt (by rw [value]; omega) (by omega), value]

theorem Armed.getIrqTick_ne : getIrqTick state ≠ never := by
  intro same
  have bound := armed.armed_lt
  rw [← armed.toNat_getIrqTick, same] at bound
  exact lt_irrefl _ bound

end

theorem Idle.moveIrq_eq (idle : Idle config state) : moveIrq config state oldTick tick = state :=
  if_neg fun moved => moved.1 idle.getIrqTick

theorem goal_of_ready (ready : state.place = .ready) :
    goal state = if state.lateIrq = true then 0 else armedTick state := by
  unfold goal
  simp [ready, Place.retrying]

/-- The interrupt that is set, at a later time. -/
theorem Armed.setCounter (armed : Armed config state requested) (ready : state.place = .ready)
    (later : state.tick < tick.toNat) (due : armedTick state ≤ state.tick) :
    Armed config (setCounter config state tick) requested := { armed with
  requested_le := armed.requested_le.trans (max_le_max le_rfl later.le)
  late := fun late => (armed.late late).trans later.le
  promise := by
    intro promise made
    have nothing : state.place.promise = some promise := made
    rw [ready] at nothing
    cases nothing
  seen := fun _ => armed.seen due }

/-- The timer after a change of the time that moves the interrupt. -/
def moved (config : Config) (state : State) (tick : BitVec 64) : State :=
  writeIrqTick config (setCounter config state tick)
    (getIrqTick state + BitVec.ofNat 64 config.quirkAdvance)

theorem Armed.registers_moved (armed : Armed config state requested) (tick : BitVec 64)
    (fits : armedTick state + config.quirkAdvance < never.toNat) :
    config.period ∣ (moved config state tick).upperIrqTick.toNat ∧
    (moved config state tick).matchReg < config.period ∧
    armedTick (moved config state tick) = armedTick state + config.quirkAdvance := by
  have registers := writeIrqTick_spec config (Timer.setCounter config state tick)
    (getIrqTick state + BitVec.ofNat 64 config.quirkAdvance)
  refine ⟨registers.1, registers.2.1, registers.2.2.trans ?_⟩
  rw [toNat_add_quirk (by rw [armed.toNat_getIrqTick]; exact fits), armed.toNat_getIrqTick]

theorem promise_eq_none_of_ready (ready : state.place = .ready) : state.place.promise = none := by
  rw [ready]
  rfl

section

variable (armed : Armed config state requested)
include armed

section

variable (ready : state.place = .ready) (later : state.tick < tick.toNat)

include ready later

/-- The time does not reach the interrupt. -/
theorem Armed.moved (early : tick.toNat < armedTick state)
    (fits : armedTick state + config.quirkAdvance < never.toNat) :
    Armed config (moved config state tick) requested := by
  obtain ⟨aligned, matchReg_lt, target⟩ := armed.registers_moved tick fits
  have requested_le := armed.requested_le
  refine ⟨aligned, matchReg_lt, target ▸ fits, ?_, fun late => (armed.late late).trans later.le,
    armed.close, ?_, armed.seenLate, ?_⟩
  · omega
  · intro promise made
    cases (promise_eq_none_of_ready ready).symm.trans made
  · rw [target]
    intro due
    have due : armedTick state + config.quirkAdvance ≤ tick.toNat := due
    omega

/-- The time passes the interrupt, which is late then. -/
theorem Armed.movedLate (reached : armedTick state ≤ tick.toNat)
    (fits : armedTick state + config.quirkAdvance < never.toNat) :
    Armed config (Timer.late (Timer.moved config state tick)) requested := by
  obtain ⟨aligned, matchReg_lt, target⟩ := armed.registers_moved tick fits
  have requested_le := armed.requested_le
  have present : requested ≤ tick.toNat := by omega
  exact ⟨aligned, matchReg_lt, target ▸ fits, le_max_of_le_right present, fun _ => present,
    armed.close, fun promise made => (nomatch (promise_eq_none_of_ready ready).symm.trans made),
    fun _ => .inl rfl, fun _ => .inl rfl⟩

end

theorem Armed.moveIrq_eq (oldSmall : oldTick.toNat < 2 ^ 63) (small : tick.toNat < 2 ^ 63) :
    moveIrq config (Timer.setCounter config state tick) oldTick tick =
      if oldTick.toNat < armedTick state then
        if armedTick state ≤ tick.toNat then Timer.late (Timer.moved config state tick)
        else Timer.moved config state tick else Timer.setCounter config state tick := by
  have irq : getIrqTick (Timer.setCounter config state tick) = getIrqTick state := rfl
  unfold moveIrq
  simp only [irq, armed.getIrqTick_ne, slt_getIrqTick_iff armed oldSmall,
    sle_getIrqTick_iff armed small, ne_eq, not_false_eq_true, true_and]
  rfl

end

/-- The time changes to a later tick. -/
theorem Served.changeTime (served : Served config state) (ready : state.place = .ready)
    (old : oldTick.toNat = state.tick) (small : state.tick < 2 ^ 63) {tick : Nat}
    (representable : config.Representable tick) (later : state.tick < tick)
    (timely : Timely config state (.setTimeNs tick)) :
    Progress config 0 state
      (moveIrq config (Timer.setCounter config state (BitVec.ofNat 64 tick)) oldTick
        (BitVec.ofNat 64 tick)) := by
  have value := toNat_ofNat_of_representable representable
  have below := representable.lt
  have after : state.tick < (BitVec.ofNat 64 tick).toNat := by rw [value]; exact later
  cases waiting : outstanding state.trace with
  | none =>
    have idle := served.idle waiting
    have idle : Idle config (Timer.setCounter config state (BitVec.ofNat 64 tick)) :=
      { idle with }
    rw [idle.moveIrq_eq]
    exact progress_of_idle waiting served.wellServed idle
  | some requested =>
    have armed := served.armed requested waiting
    have start := goal_of_ready ready
    rw [armed.moveIrq_eq (by rw [old]; exact small) (by rw [value]; omega), old]
    split_ifs with ahead reached
    · have fits := (timely later armed.upper_ne_never ahead).1
      refine progress_of_armed waiting waiting served.wellServed
        (armed.movedLate ready after reached fits) (effort_le rfl ?_)
      unfold horizon
      show max 0 _ - (BitVec.ofNat 64 tick).toNat ≤ _
      omega
    · obtain ⟨fits, distance⟩ := timely later armed.upper_ne_never ahead
      rw [value] at reached
      have distance := distance (not_le.mp reached)
      refine progress_of_armed waiting waiting served.wellServed
        (armed.moved ready after (by rw [value]; omega) fits) (effort_le rfl ?_)
      have target := (armed.registers_moved (BitVec.ofNat 64 tick) fits).2.2
      have finish : goal (Timer.moved config state (BitVec.ofNat 64 tick)) =
          if state.lateIrq = true then 0 else armedTick state + config.quirkAdvance := by
        rw [goal_of_ready (show (Timer.moved config state _).place = .ready from ready), target]
        rfl
      unfold horizon
      rw [start, finish]
      show max _ _ - (BitVec.ofNat 64 tick).toNat ≤ _
      split_ifs <;> omega
    · refine progress_of_armed waiting waiting served.wellServed
        (armed.setCounter ready after (not_lt.mp ahead)) (effort_le rfl ?_)
      show horizon config state requested - (BitVec.ofNat 64 tick).toNat ≤ _
      omega

/-- A change of the time takes no request further away from its service. -/
theorem Served.setTimeNs (served : Served config state) (clock : Clock config state)
    (ready : state.place = .ready) {tick : Nat} (representable : config.Representable tick)
    (timely : Timely config state (.setTimeNs tick)) :
    Progress config 0 state (setTimeNs config state (BitVec.ofNat 64 tick)) := by
  have noted := (calm_noteReading state.tick
    (timeTick config state state.counter state.overflow)).progress served
  have small := clock.tick_lt
  simp only [Timer.setTimeNs, clock.slt_timeTick_iff representable]
  split_ifs with later
  · exact noted.trans (noted.served.changeTime ready clock.toNat_timeTick
      (lt_trans small (by decide)) representable later timely)
  · exact noted

/-! ### The time was read -/

/-- A place at which a reader has read the counter at an instant. -/
structure AtReading (state : State) (reader : Reader) (instant : Nat) : Prop where
  promise : state.place.promise = reader.promise
  handling : state.place.Handling → reader = .handler
  watching : ∀ armed, state.place.Watching armed → reader.Sees armed instant
  retrying : state.place.retrying = false

section

variable (served : Served config state)
include served

theorem Served.exists_armed {promise : Promise} (made : state.place.promise = some promise) :
    ∃ requested, outstanding state.trace = some requested ∧ Armed config state requested := by
  cases waiting : outstanding state.trace with
  | none => cases (served.idle waiting).promise.symm.trans made
  | some requested => exact ⟨requested, rfl, served.armed requested waiting⟩

/-- A request whose tick has been reached when the time is read is late. -/
theorem Served.checkLate {place : Place} (made : reader.promise = some (.check tick))
    (sees : ∀ armed, reader.Sees armed value.toNat → tick.toNat ≤ value.toNat)
    (atReading : AtReading state reader value.toNat) (past : value.toNat ≤ state.tick)
    (small : state.tick < 2 ^ 63) (settled : place.promise = none) :
    Progress config 0 state (checkLate state tick value place) := by
  obtain ⟨requested, waiting, armed⟩ := served.exists_armed (atReading.promise.trans made)
  have kept := armed.promise _ (atReading.promise.trans made)
  have bound := armed.armed_lt
  rw [toNat_never] at bound
  have order : tick.sle value = true ↔ tick.toNat ≤ value.toNat :=
    sle_iff_of_lt (by have := kept.2; omega) (by omega)
  by_cases reached : tick.toNat ≤ value.toNat
  · rw [Timer.checkLate, if_pos (order.mpr reached)]
    refine progress_of_armed waiting waiting served.wellServed ?_ ?_
    · have present : requested ≤ state.tick := by
        have := kept.1
        omega
      exact { armed with
        late := fun _ => present
        promise := fun promise later => (nomatch settled.symm.trans later)
        seenLate := fun _ => .inl rfl
        seen := fun _ => .inl rfl }
    · refine effort_le_of_goal_le rfl rfl ?_
      exact Nat.zero_le _
  · rw [Timer.checkLate, if_neg fun late => reached (order.mp late)]
    refine Calm.progress ⟨rfl, rfl, rfl, rfl, rfl, rfl, rfl, id, .inl settled, ?_, ?_, ?_⟩ served
    · intro retrying
      cases atReading.retrying.symm.trans retrying
    · intro late seen
      refine seen.imp id fun handling => ?_
      rw [atReading.handling handling] at made
      cases made
    · intro _ _ _ seen
      exact seen.imp id fun watching => absurd (sees _ (atReading.watching _ watching)) reached

/-- The handler finds something to serve only if the tick of a request has been reached. -/
theorem Served.exists_due (past : value.toNat ≤ state.tick) (small : state.tick < 2 ^ 63 - 1)
    (due : ((getIrqTick state).sle value || state.lateIrq) = true) :
    ∃ requested, outstanding state.trace = some requested ∧ Armed config state requested ∧
      requested ≤ state.tick := by
  cases waiting : outstanding state.trace with
  | none =>
    have idle := served.idle waiting
    rw [idle.lateIrq, Bool.or_false, idle.getIrqTick,
      sle_iff_of_lt (by rw [toNat_never]; decide) (by omega), toNat_never] at due
    omega
  | some requested =>
    have armed := served.armed requested waiting
    refine ⟨requested, rfl, armed, ?_⟩
    rcases Bool.or_eq_true_iff.mp due with reached | late
    · rw [sle_getIrqTick_iff armed (by omega)] at reached
      have := armed.requested_le
      omega
    · exact armed.late late

/-- The request is served. -/
theorem Served.wakeThreads (past : value.toNat ≤ state.tick) (small : state.tick < 2 ^ 63 - 1)
    (due : ((getIrqTick state).sle value || state.lateIrq) = true) (now : BitVec 64) :
    Progress config 0 state (wakeThreads state now) := by
  obtain ⟨requested, waiting, -, reached⟩ := served.exists_due past small due
  refine progress_of_idle rfl ⟨⟨requested, waiting, reached⟩, served.wellServed⟩ ?_
  exact ⟨rfl, served.matchReg_lt, rfl, rfl⟩

end

/-- A request is tried again only if its tick was reached less than two ticks before. -/
theorem Armed.value_lt_of_early (armed : Armed config state requested)
    (rtc : config.withRtcAsOsTimer = true) (representable : config.Representable value.toNat)
    (early : (config.tick2ns value).slt state.irqNs = true) : value.toNat < requested + 2 := by
  by_contra late
  have reached := armed.close rtc value.toNat (not_lt.mp late) representable
  rw [BitVec.ofNat_toNat, BitVec.setWidth_eq] at reached
  rw [BitVec.sle_iff_toInt_le] at reached
  rw [BitVec.slt_iff_toInt_lt] at early
  omega

section

variable (served : Served config state)
include served

/-- The handler serves a request that is due, or tries it again. -/
theorem Served.serve
    (atReading : AtReading state .handler value.toNat) (past : value.toNat ≤ state.tick)
    (representable : config.Representable state.tick) :
    Progress config 0 state (serve config state value) := by
  have small := representable.lt
  unfold Timer.serve
  split_ifs with due rtc early
  · obtain ⟨requested, waiting, armed, reached⟩ := served.exists_due past small due
    have fits : config.Representable value.toNat := by
      have fits : state.tick + 1 + config.quirkAdvance < never.toNat := representable
      show value.toNat + 1 + config.quirkAdvance < never.toNat
      omega
    have recent := armed.value_lt_of_early rtc fits early
    have successor : (value + 1#64).toNat = value.toNat + 1 := BitVec.toNat_add_of_lt (by
      show value.toNat + 1 < 2 ^ 64
      omega)
    refine progress_of_armed waiting waiting served.wellServed ?_ ?_
    · refine { armed with
        late := nofun
        promise := ?_
        seenLate := nofun
        seen := fun _ => .inr (.inr trivial) }
      intro promise made
      obtain rfl : Promise.retry (value + 1#64) = promise := Option.some.inj made
      refine ⟨rtc, rfl, le_max_of_le_right reached, ?_, ?_⟩
      · omega
      · rw [successor]
        exact Nat.succ_le_succ past
    · refine effort_le_of_goal_le rfl rfl ?_
      exact Nat.zero_le _
  · exact served.wakeThreads past small due _
  · exact served.wakeThreads past small due _
  · obtain ⟨early, onTime⟩ := Bool.or_eq_false_iff.mp (Bool.eq_false_of_not_eq_true due)
    cases waiting : outstanding state.trace with
    | none =>
      have idle := served.idle waiting
      exact progress_of_idle waiting served.wellServed
        { idle with promise := rfl }
    | some requested =>
      have armed := served.armed requested waiting
      refine Calm.progress ⟨rfl, rfl, rfl, rfl, rfl, rfl, rfl, id, .inl rfl, ?_, ?_, ?_⟩ served
      · intro retrying
        cases atReading.retrying.symm.trans retrying
      · intro late
        cases onTime.symm.trans late
      · intro _ _ _ seen
        refine seen.imp id fun watching => ?_
        have reached := (sle_getIrqTick_iff armed (by omega)).mpr (atReading.watching _ watching)
        cases early.symm.trans reached

theorem Served.returned
    (atReading : AtReading state reader value.toNat) (past : value.toNat ≤ state.tick)
    (representable : config.Representable state.tick) :
    Progress config 0 state (returned config state reader value) := by
  have small : state.tick < 2 ^ 63 := lt_trans representable.lt (by decide)
  cases reader with
  | caller =>
    refine Calm.progress ⟨rfl, rfl, rfl, rfl, rfl, rfl, rfl, id, .inl rfl, ?_, ?_, ?_⟩ served
    · intro retrying
      cases atReading.retrying.symm.trans retrying
    · exact fun _ seen => seen.imp id fun handling => nomatch atReading.handling handling
    · exact fun _ _ _ seen => seen.imp id fun watching => (atReading.watching _ watching).elim
  | setIrq | retry => exact served.checkLate rfl (fun _ => id) atReading past small rfl
  | handler => exact served.serve atReading past representable

theorem Served.finish {counter instant : Nat} {rolled : Bool}
    (right : (timeTick config state counter rolled).toNat = instant)
    (atReading : AtReading state reader instant) (past : instant ≤ state.tick)
    (representable : config.Representable state.tick) :
    Progress config 0 state (finish config state reader counter instant rolled) := by
  subst right
  have noted := (calm_noteReading (timeTick config state counter rolled).toNat
    (timeTick config state counter rolled)).progress served
  refine noted.trans (noted.served.returned ?_ past representable)
  exact { atReading with }

/-- The handler of a real time clock sets the interrupt again. -/
theorem Served.retry (place : state.place = .setMatchReg tick)
    (representable : config.Representable state.tick) :
    Progress config 0 state (setIrqTick config state tick (.retry tick)) := by
  have made : state.place.promise = some (.retry tick) := by rw [place]; rfl
  obtain ⟨requested, waiting, armed⟩ := served.exists_armed made
  obtain ⟨rtc, onTime, requested_le, recent, soon⟩ := armed.promise _ made
  have fits : state.tick + 1 + config.quirkAdvance < never.toNat := representable
  have sum : (tick + BitVec.ofNat 64 config.quirkAdvance).toNat =
      tick.toNat + config.quirkAdvance := toNat_add_quirk (by omega)
  obtain ⟨aligned, matchReg_lt, target⟩ := writeIrqTick_spec config state
    (tick + BitVec.ofNat 64 config.quirkAdvance)
  have target : armedTick (setIrqTick config state tick (.retry tick)) =
      tick.toNat + config.quirkAdvance := target.trans sum
  have late : state.lateIrq ≠ true := by rw [onTime]; decide
  refine progress_of_armed waiting waiting served.wellServed ?_ (effort_le rfl ?_)
  · refine ⟨aligned, matchReg_lt, ?_, ?_, fun isLate => absurd isLate late, armed.close, ?_,
      fun isLate => absurd isLate late, fun _ => .inr (.inr (nofun : Reader.retry _ ≠ .caller))⟩
    · omega
    · show requested ≤ max _ state.tick
      omega
    · intro promise again
      obtain rfl : Promise.check tick = promise := Option.some.inj again
      exact ⟨requested_le, target.symm⟩
  · have closer := goal_le (setIrqTick config state tick (.retry tick))
    unfold horizon
    rw [rtc, if_pos rfl]
    show max _ _ - state.tick ≤ _
    omega

/-! ### Every step -/

theorem Served.advance (consistent : Consistent config state)
    (stepped : advance config state = some next) : Progress config 0 state next := by
  have clock := consistent.clock
  have holds := consistent.place
  unfold Timer.advance at stepped
  cases place : state.place with
  | ready => simp [place] at stepped
  | counter reader =>
    simp only [place] at stepped
    cases stepped
    refine Calm.progress ⟨rfl, rfl, rfl, rfl, rfl, rfl, rfl, id, ?_, ?_, ?_, ?_⟩ served <;>
      rw [place]
    · exact .inr rfl
    · exact nofun
    · exact fun _ => id
    · intro _ due checks seen
      refine seen.imp id fun watching => ?_
      cases reader with
      | caller => contradiction
      | setIrq tick | retry tick => exact (checks tick rfl).trans due
      | handler => exact due
  | overflowFlag reader counter instant =>
    rw [place] at holds
    simp only [place] at stepped
    split_ifs at stepped with flag
    · cases stepped
      refine Calm.progress ⟨rfl, rfl, rfl, rfl, rfl, rfl, rfl, id, ?_, ?_, ?_, ?_⟩ served <;>
        rw [place]
      · exact .inr rfl
      · exact nofun
      · exact fun _ => id
      · exact fun _ _ _ => id
    · cases stepped
      refine served.finish (clock.reading_of_no_overflow holds
        (Bool.eq_false_of_not_eq_true flag)) ?_ holds.le clock.representable
      exact ⟨by rw [place]; rfl, by rw [place]; exact id, by rw [place]; exact fun _ => id,
        by rw [place]; rfl⟩
  | counterAgain reader counter instant =>
    rw [place] at holds
    simp only [place] at stepped
    cases stepped
    refine served.finish (clock.reading_of_overflow holds.1 holds.2) ?_ holds.1.le
      clock.representable
    exact ⟨by rw [place]; rfl, by rw [place]; exact id, by rw [place]; exact fun _ => id,
      by rw [place]; rfl⟩
  | clearMatchFlag =>
    simp only [place] at stepped
    cases stepped
    refine Calm.progress ⟨rfl, rfl, rfl, rfl, rfl, rfl, rfl, id, .inl rfl, ?_,
      fun _ _ => .inr rfl, fun _ _ _ _ => .inr (nofun : Reader.handler ≠ .caller)⟩ served
    rw [place]
    exact nofun
  | setMatchReg tick =>
    simp only [place] at stepped
    cases stepped
    exact served.retry place clock.representable
  | testOverflow =>
    have aside : state.place.Aside := by rw [place]; trivial
    simp only [place] at stepped
    split_ifs at stepped <;> cases stepped <;> exact (calm_of_aside aside rfl).progress served
  | clearOverflow =>
    have aside : state.place.Aside := by rw [place]; trivial
    simp only [place] at stepped
    cases stepped
    exact (calm_of_aside aside rfl).progress served

end

/-- The handler takes over from the flags. -/
theorem calm_enter (ready : state.place = .ready) : Calm state (enter state) := by
  refine ⟨rfl, rfl, rfl, rfl, rfl, rfl, rfl, id, .inl ?_, ?_, fun late _ => .inr ?_, ?_⟩
  · show Place.promise (if _ then _ else _) = none
    split_ifs <;> rfl
  · rw [ready]
    exact nofun
  · show Place.Handling (if _ then _ else _)
    rw [late, Bool.or_true, if_pos rfl]
    trivial
  · rw [ready]
    exact fun _ _ _ seen => seen.imp id False.elim

def Label.isRequest : Label config → Bool
  | .setIrqNs _ => true
  | _ => false

def Label.ticks : Label config → Nat
  | .count => 1
  | _ => 0

/-- No step but a request takes a request further away from its service. -/
theorem Served.step (served : Served config state) (consistent : Consistent config state)
    (timely : Timely config state label)
    (stepped : exec config state label = some next) (ordinary : label.isRequest = false) :
    Progress config label.ticks state next := by
  cases label with
  | count =>
    obtain ⟨⟨representable, masked⟩, rfl⟩ := of_guard stepped
    exact served.counted (consistent.clock.counted representable masked) masked
  | raise =>
    obtain ⟨_, rfl⟩ := of_guard stepped
    exact Calm.progress ⟨rfl, rfl, rfl, rfl, rfl, rfl, rfl, id, .inr rfl, id, fun _ => id,
      fun _ _ _ _ => .inl rfl⟩ served
  | unmasked =>
    obtain ⟨⟨ready, _, quiet⟩, rfl⟩ := of_guard stepped
    exact served.unmasked ready quiet
  | getTimeTick =>
    obtain ⟨ready, rfl⟩ := of_guard stepped
    exact (calm_of_aside (by rw [ready]; trivial) rfl).progress served
  | setIrqNs request => cases ordinary
  | setTimeNs tick =>
    obtain ⟨⟨ready, representable⟩, rfl⟩ := of_guard stepped
    exact served.setTimeNs consistent.clock ready representable timely
  | handler =>
    obtain ⟨⟨ready, _⟩, rfl⟩ := of_guard stepped
    exact (calm_enter ready).progress served
  | advance => exact served.advance consistent stepped
  | woken =>
    obtain ⟨⟨ready, _⟩, rfl⟩ := of_guard stepped
    exact (calm_of_aside (by rw [ready]; trivial) rfl).progress served

/-! ### Every run -/

theorem served_initial : Served config initial where
  wellServed := trivial
  idle := fun _ => ⟨rfl, config.period_pos, rfl, rfl⟩
  armed := nofun

theorem Served.exec (served : Served config state) (consistent : Consistent config state)
    (timely : Timely config state label)
    (stepped : exec config state label = some next) : Served config next := by
  cases ordinary : label.isRequest with
  | false => exact (served.step consistent timely stepped ordinary).served
  | true =>
    cases label with
    | setIrqNs request =>
      obtain ⟨ready, rfl⟩ := of_guard stepped
      exact served.setIrqNs ready timely
    | _ => cases ordinary

theorem served_of_run (run : Run (exec config) (Timely config) initial labels last) :
    Served config last ∧ Consistent config last :=
  run.invariant (fun state => Served config state ∧ Consistent config state)
    (fun _ _ _ holds timely stepped => ⟨holds.1.exec holds.2 timely stepped, holds.2.step stepped⟩)
    ⟨served_initial, consistent_initial⟩

/-- The ticks of a run without requests are spent. -/
theorem progress_of_run {first : State}
    (run : Run (exec config) (Timely config) first labels last) (served : Served config first)
    (consistent : Consistent config first) (ordinary : ∀ label ∈ labels, label.isRequest = false) :
    Progress config (labels.map Label.ticks).sum first last := by
  induction run with
  | nil state => exact ⟨served, fun requested waiting => ⟨waiting, le_rfl⟩⟩
  | cons timely stepped _ inductionHypothesis =>
    obtain ⟨head, tail⟩ := List.forall_mem_cons.mp ordinary
    have progress := served.step consistent timely stepped head
    exact progress.trans (inductionHypothesis progress.served (consistent.step stepped) tail)

/-- If no tick that has not been reached is requested while the flag of a late interrupt is set,
every call of `IRQwakeThreads` serves the last request, once and when its tick has been reached, and
a request that is not replaced is served before more ticks have passed than its `effort`. -/
theorem requests_are_served {labels : List (Label config)} {last : State}
    (run : Run (exec config) (Timely config) initial labels last) :
    WellServed last.trace ∧
    ∀ requested, outstanding last.trace = some requested →
      ∀ more final, Run (exec config) (Timely config) last more final →
        (∀ label ∈ more, label.isRequest = false) →
        effort config last requested < (more.map Label.ticks).sum →
          outstanding final.trace = none := by
  obtain ⟨served, consistent⟩ := served_of_run run
  refine ⟨served.wellServed, fun requested asked more final continued ordinary enough => ?_⟩
  have progress := progress_of_run continued served consistent ordinary
  cases waiting : outstanding final.trace with
  | none => rfl
  | some other =>
    obtain ⟨before, spent⟩ := progress.spends other waiting
    rw [asked] at before
    cases before
    omega

/-- Three turns of a counter of one bit, with the handler called in time. -/
def turns : List (Label (.plain 1 (by decide))) :=
  [.count, .handler, .advance, .advance, .advance, .woken, .advance, .unmasked, .count, .handler,
    .advance, .advance, .unmasked, .count]

/-- A request for the next tick is served before three ticks have passed. -/
theorem requests_are_served_on_time : ∃ first last,
    Run (exec (.plain 1 (by decide))) (Timely _) initial
      [.setIrqNs (.plain 1 (by decide)), .advance, .advance, .unmasked] first ∧
    outstanding first.trace = some 1 ∧ effort (.plain 1 (by decide)) first 1 < 3 ∧
    Run (exec _) (Timely _) first turns last ∧ outstanding last.trace = none := by
  refine exists_run (fun first => outstanding first.trace = some 1 ∧
      effort (.plain 1 (by decide)) first 1 < 3 ∧
      (replay (guarded (exec (.plain 1 (by decide))) (Timely _)) first turns).isSome)
    (by decide +kernel) fun first run ⟨asked, left, goes⟩ =>
      ⟨_, run, asked, left, .of_replay (Option.some_get goes).symm, ?_⟩
  exact (requests_are_served run).2 1 asked _ _ (.of_replay (Option.some_get goes).symm)
    (by decide) left

/-- The flag of a request for a tick in the past is still set when a later tick is requested, and
the handler serves the new request at once. -/
theorem stale_flag_serves_too_early :
    ∃ labels last, Run (exec (.plain 16 (by decide))) unrestricted initial labels last ∧
      last.trace = [.wakeThreads 1000#64 0, .reading 0 0#64, .reading 0 0#64, .request 1000,
        .reading 0 0#64, .request 0] ∧
      ¬ WellServed last.trace := by
  refine ⟨[.setIrqNs (.plain 0 (by decide)), .advance, .advance,
      .setIrqNs (.plain 1000 (by decide)), .advance, .advance, .handler, .advance, .advance,
      .advance],
    exists_run _ (by decide +kernel) fun last run trace => ⟨run, trace, ?_⟩⟩
  rw [trace]
  rintro ⟨⟨requested, waiting, reached⟩, _⟩
  cases waiting
  contradiction

end Miosix.Timer
