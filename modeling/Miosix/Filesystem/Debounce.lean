/-
This file compares the debounce filter of the SD automounter with the law it is documented by.

The filter is a counter that goes up and down and reports a change when it reaches an end. The law
is about consecutive equal samples. A sample of the other value takes the counter one step back but
does not make it start again, so that fewer samples than required can follow it when the change is
reported, and a card that is present from the start is reported also by a sample that is absent.
-/

import Miosix.Lib.Transition

namespace Miosix.Automounter

open Transition

/-! ### The filter -/

inductive Edge where
  | none
  | inserted
  | removed
  deriving DecidableEq, Repr

structure PollingState where
  stablePresent : Bool
  lastPresent : Bool
  samplesCount : Int

section

variable (required : Nat) (present : Bool)

/-- The state after the constructor. -/
def PollingState.initial : PollingState :=
  ⟨present, false, if present then required else 0⟩

def PollingState.advance (state : PollingState) (raw : Bool) : Edge × PollingState :=
  let samplesCount :=
    if raw then min (state.samplesCount + 1) required else max (state.samplesCount - 1) 0
  let stablePresent :=
    if required ≤ samplesCount then true
    else if samplesCount ≤ 0 then false else state.stablePresent
  if stablePresent = state.lastPresent then
    (.none, ⟨stablePresent, state.lastPresent, samplesCount⟩)
  else
    (if stablePresent then .inserted else .removed, ⟨stablePresent, stablePresent, samplesCount⟩)

/-- The filter with the samples it was given, the last one first, and the last edge. -/
structure Watched where
  state : PollingState
  samples : List Bool
  lastEdge : Edge

def Watched.initial : Watched := ⟨.initial required present, [], .none⟩

section

variable (watched : Watched) (raw : Bool)

def exec : Option Watched :=
  let answer := watched.state.advance required raw
  some ⟨answer.2, raw :: watched.samples,
    if answer.1 = .none then watched.lastEdge else answer.1⟩

/-! ### The law -/

/-- So many samples, of which the last one is the first in the list, are equal. -/
def Streak (count : Nat) (value : Bool) (samples : List Bool) : Prop :=
  List.replicate count value <+: samples
  deriving Decidable

/-- Edges alternate, from an insertion on, and they end consecutive equal samples. These always
bring the reported state to their value. The counter is an `int`, which is incremented before it is
bounded. -/
structure Lawful : Prop where
  inserted : (watched.state.advance required raw).1 = .inserted → watched.lastEdge ≠ .inserted ∧
    (Streak required true (raw :: watched.samples) ∨
      present = true ∧ raw :: watched.samples = [true])
  removed : (watched.state.advance required raw).1 = .removed → watched.lastEdge = .inserted ∧
    Streak required false (raw :: watched.samples)
  settles : ∀ value, Streak required value (raw :: watched.samples) →
    (watched.state.advance required raw).2.stablePresent = value
  bounded : raw = true → watched.state.samplesCount + 1 < 2 ^ 31

/-- A sample differs from the one before only after as many equal ones as the threshold, or as long
as all have been as at the start. The first one after a start with a card is present, unless one
sample is enough. The threshold is no larger than an `int` that is incremented can be. -/
def Allowed : Prop :=
  (raw = watched.samples.headD present ∨ Streak required (!raw) watched.samples ∨
    ∀ sample ∈ watched.samples, sample = present) ∧
  (watched.samples = [] → present = true → raw = true ∨ required = 1) ∧ required + 1 < 2 ^ 31
  deriving Decidable

/-! ### The counter and the samples -/

/-- The counter is at least as far as consecutive equal samples bring it, and it is at an end or
what is accepted is reported. -/
structure Counted : Prop where
  lower : 0 ≤ watched.state.samplesCount
  upper : watched.state.samplesCount ≤ required
  absent : watched.state.stablePresent = false → watched.state.samplesCount < required
  stays : watched.state.stablePresent = true → 0 < watched.state.samplesCount
  reported : watched.state.lastPresent = watched.state.stablePresent ∨
    watched.state.stablePresent = true ∧ watched.state.samplesCount = required
  edge : watched.state.lastPresent = true ↔ watched.lastEdge = .inserted
  rises : ∀ count, Streak count true watched.samples →
    min (count : Int) required ≤ watched.state.samplesCount
  falls : ∀ count, Streak count false watched.samples →
    watched.state.samplesCount ≤ max ((required : Int) - count) 0

/-- How far the counter is on its way to the end of a value. -/
def progress (value : Bool) : Int :=
  if value then watched.state.samplesCount else required - watched.state.samplesCount

/-- After samples that meet the condition the counter is at the end it started from, or it counts
the equal samples since it left an end. -/
structure Tidy : Prop where
  started : (∀ sample ∈ watched.samples, sample = present) → progress required watched present =
    required
  counts : progress required watched (watched.samples.headD present) < required →
    Streak (progress required watched (watched.samples.headD present)).toNat
      (watched.samples.headD present) watched.samples
  unreported : watched.state.stablePresent ≠ watched.state.lastPresent →
    watched.samples = [] ∧ present = true

end

end

variable {required count : Nat} {present raw value : Bool} {watched next : Watched}
  {samples : List Bool}

theorem streak_cons_iff (positive : 0 < count) :
    Streak count value (raw :: samples) ↔ raw = value ∧ Streak (count - 1) value samples := by
  obtain ⟨more, rfl⟩ := Nat.exists_eq_add_of_lt positive
  unfold Streak
  rw [Nat.zero_add, List.replicate_succ, List.cons_prefix_cons, Nat.add_sub_cancel, eq_comm]

theorem Counted.initial (positive : 0 < required) :
    Counted required (.initial required present) := by
  have nothing {value : Bool} (count : Nat) (streak : Streak count value []) : count = 0 := by
    simpa [Streak] using streak
  cases present <;> constructor <;> grind [Watched.initial, PollingState.initial]

theorem Counted.step (positive : 0 < required) (counted : Counted required watched)
    (stepped : exec required watched raw = some next) : Counted required next := by
  cases stepped
  obtain ⟨lower, upper, -, -, -, edge, rises, falls⟩ := counted
  have cons := @streak_cons_iff
  constructor <;> grind [PollingState.advance]

theorem Counted.inserted_iff (positive : 0 < required) (counted : Counted required watched) :
    (watched.state.advance required raw).1 = .inserted ↔ watched.state.lastPresent = false ∧
      if raw then required ≤ watched.state.samplesCount + 1
      else watched.state.stablePresent = true ∧ 1 < required := by
  grind [PollingState.advance, Counted]

theorem Counted.removed_iff (counted : Counted required watched) :
    (watched.state.advance required raw).1 = .removed ↔
      watched.state.lastPresent = true ∧ raw = false ∧ watched.state.samplesCount ≤ 1 := by
  grind [PollingState.advance, Counted]

theorem Counted.settles (positive : 0 < required) (counted : Counted required watched)
    (streak : Streak required value (raw :: watched.samples)) :
    (watched.state.advance required raw).2.stablePresent = value := by
  have after := counted.step positive (rfl : exec required watched raw = _)
  have absent := after.absent
  have stays := after.stays
  cases value with
  | true => grind [after.rises required streak]
  | false => grind [after.falls required streak]

theorem Tidy.initial : Tidy required present (.initial required present) := by
  cases present <;> constructor <;> simp [Watched.initial, PollingState.initial, progress]

section

variable (counted : Counted required watched) (tidy : Tidy required present watched)
  (allowed : Allowed required present watched raw)
include counted tidy allowed

/-- A sample changes only while the counter is at an end. -/
theorem Tidy.at_end (changed : raw ≠ watched.samples.headD present) :
    progress required watched raw = 0 := by
  obtain ⟨lower, upper, -, -, -, -, rises, falls⟩ := counted
  rcases allowed.1 with same | streak | all
  · exact absurd same changed
  · cases raw with
    | true => grind [falls required streak, progress]
    | false => grind [rises required streak, progress]
  · have head : watched.samples.headD present = present := by
      cases samples : watched.samples with
      | nil => rfl
      | cons sample rest => exact all sample (samples ▸ List.mem_cons_self)
    have start := tidy.started all
    rw [head] at changed
    cases raw <;> cases present <;> simp_all [progress]

/-- A sample goes on with the streak of the samples before, or it starts one. -/
theorem Tidy.streak (below : progress required watched raw < required) :
    Streak (progress required watched raw + 1).toNat raw (raw :: watched.samples) := by
  have lower : 0 ≤ progress required watched raw := by grind [progress, Counted]
  rw [streak_cons_iff (by omega)]
  refine ⟨rfl, ?_⟩
  by_cases same : raw = watched.samples.headD present
  · have counts := tidy.counts
    rw [← same] at counts
    rw [show (progress required watched raw + 1).toNat - 1 =
      (progress required watched raw).toNat by omega]
    exact counts below
  · rw [tidy.at_end counted allowed same]
    exact List.nil_prefix

theorem Tidy.step (stepped : exec required watched raw = some next) :
    Tidy required present next := by
  have streak := tidy.streak counted allowed
  cases stepped
  have moved : progress required ⟨(watched.state.advance required raw).2, raw :: watched.samples,
      if (watched.state.advance required raw).1 = .none then watched.lastEdge
      else (watched.state.advance required raw).1⟩ raw =
        min (progress required watched raw + 1) required := by
    obtain ⟨lower, upper, -, -, -, -, -, -⟩ := counted
    cases raw <;> grind [PollingState.advance, progress]
  refine ⟨fun all => ?_, fun below => ?_, by grind [PollingState.advance]⟩
  · obtain ⟨rfl, before⟩ := List.forall_mem_cons.mp all
    rw [moved, tidy.started before]
    omega
  · replace below := moved ▸ below
    rw [List.headD_cons, moved, min_eq_left (by omega)]
    exact streak (by omega)

theorem Tidy.lawful (positive : 0 < required) : Lawful required present watched raw := by
  have streak (reached : progress required watched raw + 1 = required) :
      Streak required raw (raw :: watched.samples) := by
    have whole := tidy.streak counted allowed (by omega)
    rwa [reached, Int.toNat_natCast] at whole
  refine ⟨fun inserts => ?_, fun removes => ?_, fun value => counted.settles positive, fun _ => ?_⟩
  · obtain ⟨unreported, reaches⟩ := (counted.inserted_iff positive).mp inserts
    refine ⟨fun same => by simp [counted.edge.mpr same] at unreported, ?_⟩
    by_cases accepted : watched.state.stablePresent = true
    · obtain ⟨first, card⟩ := tidy.unreported (by simp [accepted, unreported])
      cases raw with
      | true => exact .inr ⟨card, by rw [first]⟩
      | false => grind [allowed.2.1 first card]
    · have below := counted.absent (Bool.eq_false_of_not_eq_true accepted)
      cases raw with
      | false => exact absurd reaches.1 accepted
      | true => exact .inl (streak (by grind [progress]))
  · obtain ⟨reported, rfl, reaches⟩ := counted.removed_iff.mp removes
    refine ⟨counted.edge.mp reported, streak ?_⟩
    have stays := counted.stays
    grind [counted.reported, progress]
  · have upper := counted.upper
    have small := allowed.2.2
    omega

end

/-! ### When the law holds -/

/-- In every run whose samples meet the condition, a sample that meets it is filtered as
documented. -/
theorem filter_is_lawful (required : Nat) (positive : 0 < required) (present : Bool)
    (samples : List Bool) (watched : Watched)
    (run : Run (exec required) (Allowed required present) (.initial required present) samples
      watched) (raw : Bool) (allowed : Allowed required present watched raw) :
    Lawful required present watched raw := by
  obtain ⟨counted, tidy⟩ : Counted required watched ∧ Tidy required present watched :=
    run.invariant (fun watched => Counted required watched ∧ Tidy required present watched)
      (fun _ _ _ holds allowed stepped => ⟨holds.1.step positive stepped,
        holds.2.step holds.1 allowed stepped⟩) ⟨.initial positive, .initial⟩
  exact tidy.lawful counted allowed positive

/-- A card is inserted and taken out, with three samples for each change. -/
theorem filter_is_lawful_removed : ∃ watched,
    Run (exec 3) (Allowed 3 false) (.initial 3 false) [true, true, true, true, false, false]
      watched ∧ Lawful 3 false watched false :=
  exists_run (fun watched => Allowed 3 false watched false) (by decide) fun watched run allowed =>
    ⟨run, filter_is_lawful 3 (by decide) false _ watched run false allowed⟩

/-- With a card from the start, an absent sample is reported as an insertion. -/
theorem absent_sample_is_insertion : ((PollingState.initial 2 true).advance 2 false).1 = .inserted ∧
      ¬ Lawful 2 true (.initial 2 true) false := by
  refine ⟨by decide, fun lawful => ?_⟩
  rcases (lawful.inserted (by decide)).2 with streak | ⟨-, start⟩
  · contradiction
  · cases start

end Miosix.Automounter
