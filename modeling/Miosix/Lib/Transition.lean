/-
This file is the run library: a machine is an executable partial step function
`exec : State → Label → Option State`, a run is a list of labels, and a property of
every reachable state is proved from what one step preserves. The labels carry all
the nondeterminism (which thread moves, when an interrupt fires), so a run is data
and a concrete one is replayed by evaluation.
-/

import Mathlib.Tactic

namespace Miosix

/-- What a guarded step does. -/
theorem of_guard {State : Type*} {guard : Prop} [Decidable guard] {after next : State}
    (stepped : (if guard then some after else none) = some next) : guard ∧ after = next := by
  obtain ⟨met, same⟩ := Option.ite_none_right_eq_some.mp stepped
  exact ⟨met, Option.some.inj same⟩

namespace Transition

variable {State Label : Type}

/-- A run whose every step meets the condition `allowed` on the state before the step. -/
inductive Run (exec : State → Label → Option State) (allowed : State → Label → Prop) :
    State → List Label → State → Prop where
  | nil (state : State) : Run exec allowed state [] state
  | cons {state next last : State} {label : Label} {labels : List Label} :
      allowed state label → exec state label = some next → Run exec allowed next labels last →
        Run exec allowed state (label :: labels) last

/-- Every label is allowed. -/
def unrestricted : State → Label → Prop := fun _ _ => True

/-- Replaying a list of labels. -/
def replay (exec : State → Label → Option State) : State → List Label → Option State
  | state, [] => some state
  | state, label :: labels =>
      match exec state label with
      | none => none
      | some next => replay exec next labels

variable {exec : State → Label → Option State} {first last : State} {labels : List Label}

/-- The invariant rule: what one allowed step preserves holds at the end of every run. -/
theorem Run.invariant {allowed : State → Label → Prop} (holds : State → Prop)
    (preserved : ∀ state label next, holds state → allowed state label →
      exec state label = some next → holds next) (run : Run exec allowed first labels last)
    (start : holds first) : holds last := by
  induction run with
  | nil => exact start
  | cons permitted stepped _ inductionHypothesis =>
    exact inductionHypothesis (preserved _ _ _ start permitted stepped)

/-! ### Runs that meet a condition -/

/-- The machine stops where the condition does not hold. -/
def guarded (exec : State → Label → Option State) (permits : State → Label → Prop)
    [∀ state label, Decidable (permits state label)] (state : State) (label : Label) :
    Option State :=
  if permits state label then exec state label else none

instance (state : State) (label : Label) : Decidable (unrestricted state label) :=
  inferInstanceAs (Decidable True)

variable {allowed : State → Label → Prop} [∀ state label, Decidable (allowed state label)]

/-- A replay that does not stop is a run. -/
theorem Run.of_replay (replayed : replay (guarded exec allowed) first labels = some last) :
    Run exec allowed first labels last := by
  induction labels generalizing first with
  | nil =>
    rw [replay, Option.some_inj] at replayed
    exact replayed ▸ .nil first
  | cons label labels inductionHypothesis =>
    rw [replay] at replayed
    split at replayed
    · cases replayed
    · rename_i next stepped
      obtain ⟨permitted, stepped⟩ := Option.ite_none_right_eq_some.mp stepped
      exact .cons permitted stepped (inductionHypothesis replayed)

/-- A replay whose last state passes a check is a run, and shows what follows from the two. -/
theorem exists_run {shown : State → Prop} (check : State → Prop) [DecidablePred check]
    (passed : (replay (guarded exec allowed) first labels).any (decide <| check ·) = true)
    (follows : ∀ last, Run exec allowed first labels last → check last → shown last) :
    ∃ last, shown last := by
  obtain ⟨last, replayed, passed⟩ := (Option.any_eq_true _ _).mp passed
  exact ⟨last, follows last (.of_replay replayed) (of_decide_eq_true passed)⟩

/-! ### Records of a run -/

variable {Record : Type}

/-- The machine together with a record of its run, which no step reads. -/
def observing (exec : State → Label → Option State)
    (note : Record → State → Label → State → Record) :
    State × Record → Label → Option (State × Record) :=
  fun observed label => (exec observed.1 label).map fun next =>
    (next, note observed.2 observed.1 label next)

/-- The invariant rule for a machine with its record. -/
theorem Run.observed {note : Record → State → Label → State → Record}
    {allowed : State × Record → Label → Prop} {start finish : State × Record}
    (run : Run (observing exec note) allowed start labels finish) (holds : State → Record → Prop)
    (preserved : ∀ state record label next, holds state record → allowed (state, record) label →
      exec state label = some next → holds next (note record state label next))
    (initially : holds start.1 start.2) : holds finish.1 finish.2 := by
  refine run.invariant (fun observed => holds observed.1 observed.2)
    (fun before label after held permitted observed => ?_) initially
  obtain ⟨next, stepped, rfl⟩ := Option.map_eq_some_iff.mp observed
  exact preserved _ _ _ _ held permitted stepped

theorem exists_observed {exec : State × Record → Label → Option (State × Record)}
    {allowed : State × Record → Label → Prop} [∀ state label, Decidable (allowed state label)]
    {first : State × Record} {shown : State → Record → Prop} (check : State → Record → Prop)
    [∀ state record, Decidable (check state record)]
    (passed : (replay (guarded exec allowed) first labels).any
      (fun last => decide (check last.1 last.2)) = true)
    (follows : ∀ state record, Run exec allowed first labels (state, record) →
      check state record → shown state record) : ∃ state record, shown state record := by
  obtain ⟨last, held⟩ := exists_run (fun last : State × Record => check last.1 last.2) passed
    fun last run met => follows last.1 last.2 run met
  exact ⟨last.1, last.2, held⟩

end Transition

end Miosix
