/-
This file has the build options of `miosix_settings.h` that the modelled code depends on.
-/

import Mathlib.Tactic

namespace Miosix

/-- `ExtraChecks` of `miosix_settings.h`. -/
inductive ExtraChecks where
  | none
  | application
  | kernel
  deriving DecidableEq, Repr

structure Config where
  numPriorities : Nat
  extraChecks : ExtraChecks

/-- The values the repository ships with. -/
def defaultConfig : Config where
  numPriorities := 4
  extraChecks := .none

/-- `PrioritySchedulerPriority::validate`. -/
def validate (config : Config) (priority : Int) : Bool :=
  decide (0 ≤ priority ∧ priority < config.numPriorities)

end Miosix
