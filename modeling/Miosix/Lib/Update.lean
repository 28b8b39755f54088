/-
This file has the rules for a function that is changed at one argument, as the states of the
machines are in most of their steps.
-/

import Mathlib.Tactic

namespace Miosix

open Function

variable {Index Value Part : Type*} [DecidableEq Index] {old : Index → Value} {place : Index}
  {new : Value}

/-- What holds of the new value, and of the old ones elsewhere, holds after the change. -/
@[elab_as_elim]
theorem forall_update {motive : Index → Value → Prop} (here : motive place new)
    (elsewhere : ∀ other, other ≠ place → motive other (old other)) {other : Index} :
    motive other (update old place new other) := by
  by_cases same : other = place
  · rw [same, update_self]
    exact here
  · rw [update_of_ne same]
    exact elsewhere other same

/-- A part that the new value shares with the old one is the same everywhere. -/
theorem part_update {part : Value → Part} (same : part new = part (old place)) (other : Index) :
    part (update old place new other) = part (old other) :=
  forall_update same (fun _ _ => rfl)

end Miosix
