/-
This file is the library of computations that log what they access: a value, and the events
that came up on the way to it, in their order. What a computation may access is then a
property of its events, and the rules here reduce it to the parts of the computation. A loop
may end early, so what it accesses depends on how far it gets.
-/

import Mathlib.Tactic

namespace Miosix

structure Logged (Event Value : Type) where
  value : Value
  events : List Event

namespace Logged

variable {Event Value Result State Exit : Type} {event : Event}

instance : Monad (Logged Event) where
  pure value := ⟨value, []⟩
  bind first next := ⟨(next first.value).value, first.events ++ (next first.value).events⟩

section

variable (permitted : Event → Prop) {value : Value} {first : Logged Event Value}

/-- Every event of a computation is permitted. -/
def All (computation : Logged Event Value) : Prop :=
  ∀ event ∈ computation.events, permitted event

theorem value_pure : (pure value : Logged Event Value).value = value := rfl

theorem value_bind {next : Value → Logged Event Result} :
    (first >>= next).value = (next first.value).value := rfl

theorem all_pure (value : Value) : (pure value : Logged Event Value).All permitted := by
  intro event listed
  cases listed

theorem all_bind_iff (first : Logged Event Value)
    (next : Value → Logged Event Result) : (first >>= next).All permitted ↔
      first.All permitted ∧ (next first.value).All permitted := by
  exact List.forall_mem_append

theorem all_ite_iff (condition : Prop) [Decidable condition] (first second : Logged Event Value) :
    (if condition then first else second).All permitted ↔
      (condition → first.All permitted) ∧ (¬ condition → second.All permitted) := by
  split <;> simp_all

theorem value_ite {condition : Prop} [Decidable condition] {second : Logged Event Value} :
    (if condition then first else second).value = if condition then first.value else second.value :=
  apply_ite Logged.value _ _ _

theorem all_singleton_iff : All permitted ⟨value, [event]⟩ ↔ permitted event := by
  exact List.forall_mem_singleton

end

/-- A sequence gets past its first part if it never ends as stated after an error there. -/
theorem exists_ok_of_bind {first : Logged Event (Except Exit Value)}
    {rest : Except Exit Value → Logged Event Result} {result : Result}
    (ended : (first >>= rest).value = result)
    (never : ∀ exit, (rest (.error exit)).value ≠ result) :
    ∃ value, first.value = .ok value ∧ (rest (.ok value)).value = result := by
  rw [value_bind] at ended
  cases outcome : first.value with
  | error exit =>
    rw [outcome] at ended
    exact absurd ended (never exit)
  | ok value =>
    rw [outcome] at ended
    exact ⟨value, rfl, ended⟩

/-! ### Loops that may end early -/

instance decidableForallOk {Exit Value : Type} (holds : Value → Prop) [DecidablePred holds] :
    (outcome : Except Exit Value) → Decidable (∀ value, outcome = .ok value → holds value)
  | .ok value => decidable_of_iff (holds value) (by simp)
  | .error _ => .isTrue (by simp)

/-- A loop over a counter. -/
def loop (body : Nat → State → Logged Event (Except Exit State)) :
    List Nat → State → Logged Event (Except Exit State)
  | [], state => pure (.ok state)
  | index :: rest, state => do
      match ← body index state with
      | .error exit => return .error exit
      | .ok next => loop body rest next

/-- The loop over the first iterations, starting from a given counter. -/
def iterate (body : Nat → State → Logged Event (Except Exit State)) (start count : Nat)
    (state : State) : Logged Event (Except Exit State) :=
  loop body (List.range' start count) state

variable {body : Nat → State → Logged Event (Except Exit State)} {start count : Nat}
  {state last : State}

theorem value_iterate_succ (start count : Nat) (state : State) :
    (iterate body start (count + 1) state).value = match (body start state).value with
      | .error exit => .error exit
      | .ok next => (iterate body (start + 1) count next).value := by
  show (loop body (start :: _) state).value = _
  rw [loop, value_bind]
  cases (body start state).value with
  | error | ok => rfl

section

variable (permitted : Event → Prop) (start count : Nat) (state : State)

theorem all_iterate_succ_iff : (iterate body start (count + 1) state).All permitted ↔
      (body start state).All permitted ∧ ∀ next, (body start state).value = .ok next →
        (iterate body (start + 1) count next).All permitted := by
  show (loop body (start :: _) state).All permitted ↔ _
  rw [loop, all_bind_iff]
  refine and_congr_right fun _ => ?_
  cases (body start state).value with
  | error exit => simp [all_pure]
  | ok next =>
    simp only [Except.ok.injEq, forall_eq']
    rfl

/-- The events of a loop are those of the iterations it gets to. -/
theorem all_iterate_iff : (iterate body start count state).All permitted ↔
      ∀ index < count, ∀ reached, (iterate body start index state).value = .ok reached →
        (body (start + index) reached).All permitted := by
  induction count generalizing start state with
  | zero =>
    refine iff_of_true (all_pure permitted _) fun index below => absurd below (by omega)
  | succ count inductionHypothesis =>
    rw [all_iterate_succ_iff]
    constructor
    · rintro ⟨first, rest⟩ index below reached got
      cases index with
      | zero =>
        cases got
        exact first
      | succ index =>
        rw [value_iterate_succ] at got
        cases ended : (body start state).value with
        | error exit =>
          rw [ended] at got
          cases got
        | ok next =>
          rw [ended] at got
          have := (inductionHypothesis (start + 1) next).mp (rest next ended) index (by omega)
            reached got
          rwa [show start + 1 + index = start + (index + 1) by omega] at this
    · intro every
      refine ⟨every 0 (by omega) state rfl, fun next ended => ?_⟩
      refine (inductionHypothesis (start + 1) next).mpr fun index below reached got => ?_
      have := every (index + 1) (by omega) reached (by rw [value_iterate_succ, ended]; exact got)
      rwa [show start + (index + 1) = start + 1 + index by omega] at this

/-- The last iteration of a loop. -/
theorem value_iterate_snoc : (iterate body start (count + 1) state).value =
      match (iterate body start count state).value with
      | .error exit => .error exit
      | .ok reached => (body (start + count) reached).value := by
  induction count generalizing start state with
  | zero =>
    show _ = (body start state).value
    rw [value_iterate_succ]
    cases (body start state).value with
    | error | ok => rfl
  | succ count inductionHypothesis =>
    rw [value_iterate_succ, value_iterate_succ]
    cases (body start state).value with
    | error exit => rfl
    | ok next =>
      rw [show start + (count + 1) = start + 1 + count by omega]
      exact inductionHypothesis (start + 1) next

end

theorem iterate_succ_eq_ok_iff : (iterate body start (count + 1) state).value = .ok last ↔
      ∃ reached, (iterate body start count state).value = .ok reached ∧
        (body (start + count) reached).value = .ok last := by
  rw [value_iterate_snoc]
  cases (iterate body start count state).value with
  | error | ok => simp

/-- A loop that runs to its end has run to the end of all the iterations before. -/
theorem iterate_eq_ok_of_le {index : Nat}
    (done : (iterate body start count state).value = .ok last) (earlier : index ≤ count) :
    ∃ reached, (iterate body start index state).value = .ok reached := by
  induction count generalizing last with
  | zero =>
    obtain rfl : index = 0 := by omega
    exact ⟨last, done⟩
  | succ count inductionHypothesis =>
    rcases Nat.lt_or_eq_of_le earlier with before | rfl
    · obtain ⟨reached, got, -⟩ := iterate_succ_eq_ok_iff.mp done
      exact inductionHypothesis got (by omega)
    · exact ⟨last, done⟩

/-- The rule for a loop: what each iteration preserves holds at the end. -/
theorem iterate_invariant (holds : Nat → State → Prop) (first : holds 0 state)
    (step : ∀ index < count, ∀ before after, holds index before →
      (body (start + index) before).value = .ok after → holds (index + 1) after)
    (done : (iterate body start count state).value = .ok last) : holds count last := by
  induction count generalizing last with
  | zero =>
    cases done
    exact first
  | succ count inductionHypothesis =>
    obtain ⟨reached, got, final⟩ := iterate_succ_eq_ok_iff.mp done
    have earlier := inductionHypothesis (fun index below => step index (by omega)) got
    exact step count (by omega) reached last earlier final

/-- The events of a loop that runs to its end, if those of an iteration do not depend on the
state. -/
theorem all_iterate_iff_of_eq_ok {permitted : Event → Prop} {holds : Nat → Prop}
    (done : (iterate body start count state).value = .ok last)
    (each : ∀ index < count, ∀ before after, (body (start + index) before).value = .ok after →
      ((body (start + index) before).All permitted ↔ holds index)) :
    (iterate body start count state).All permitted ↔ ∀ index < count, holds index := by
  rw [all_iterate_iff]
  refine forall₂_congr fun index below => ?_
  obtain ⟨next, got⟩ := iterate_eq_ok_of_le done (Nat.succ_le_of_lt below)
  obtain ⟨reached, before, stepped⟩ := iterate_succ_eq_ok_iff.mp got
  have same := each index below reached next stepped
  constructor
  · exact fun every => same.mp (every reached before)
  · intro held other otherBefore
    rw [before] at otherBefore
    cases otherBefore
    exact same.mpr held

/-! ### Books kept along the events -/

variable {Books View Fault : Type}

/-- The events of a computation can be booked one after the other, and its value and the books at
the end are as stated. -/
def Booked (book : Books → Event → Option Books) (computation : Logged Event Value) (books : Books)
    (outcome : Value → Books → Prop) : Prop :=
  ∃ next, computation.events.foldlM book books = some next ∧ outcome computation.value next

variable {book : Books → Event → Option Books} {books : Books} {value : Value}
  {outcome : Value → Books → Prop}

theorem booked_pure (holds : outcome value books) : Booked book (pure value) books outcome :=
  ⟨books, rfl, holds⟩

theorem booked_singleton {next : Books} (noted : book books event = some next)
    (holds : outcome value next) : Booked book ⟨value, [event]⟩ books outcome := by
  refine ⟨next, ?_, holds⟩
  rw [List.foldlM_cons, noted]
  rfl

/-- The rule for a sequence. -/
theorem Booked.bind {first : Logged Event Value} {rest : Value → Logged Event Result}
    {between : Value → Books → Prop} {outcome : Result → Books → Prop}
    (start : Booked book first books between)
    (following : ∀ reached, between first.value reached →
      Booked book (rest first.value) reached outcome) :
    Booked book (first >>= rest) books outcome := by
  obtain ⟨reached, noted, holds⟩ := start
  obtain ⟨next, restNoted, final⟩ := following reached holds
  refine ⟨next, ?_, final⟩
  show (first.events ++ (rest first.value).events).foldlM book books = some next
  rw [List.foldlM_append, noted]
  exact restNoted

theorem Booked.mono {computation : Logged Event Value} {weaker : Value → Books → Prop}
    (booked : Booked book computation books outcome)
    (implies : ∀ next, outcome computation.value next → weaker computation.value next) :
    Booked book computation books weaker := by
  obtain ⟨next, noted, holds⟩ := booked
  exact ⟨next, noted, implies next holds⟩

section

variable (act : View → Nat → Except Fault View) (view : State → Books → View)
  (fault : Exit → Books → Fault)

/-- What is seen of the outcome of a loop. -/
def seen :
    Except Exit State → Books → Except Fault View
  | .ok state, books => .ok (view state books)
  | .error exit, books => .error (fault exit books)

/-- The rule for a loop each iteration of which refines an action on what is seen: the loop refines
the actions one after the other. -/
theorem booked_iterate
    (step : ∀ index state books, Booked book (body index state) books fun outcome next =>
      act (view state books) index = seen view fault outcome next)
    (start count : Nat) (state : State) (books : Books) :
    Booked book (iterate body start count state) books fun outcome next =>
      (List.range' start count).foldlM act (view state books) = seen view fault outcome next := by
  induction count generalizing start state books with
  | zero => exact booked_pure rfl
  | succ count inductionHypothesis =>
    refine Booked.bind (step start state books) fun reached acted => ?_
    rw [List.range'_succ]
    cases ended : (body start state).value with
    | error exit =>
      rw [ended] at acted
      refine booked_pure ?_
      rw [List.foldlM_cons, acted]
      rfl
    | ok next =>
      rw [ended] at acted
      refine (inductionHypothesis (start + 1) next reached).mono fun last rest => ?_
      rw [List.foldlM_cons, acted]
      exact rest

end

/-- Actions on the parts of the elements are the actions on all the parts, one after the other. -/
theorem foldlM_flatMap {Element Part : Type} (act : View → Part → Except Fault View)
    (parts : Element → List Part) (elements : List Element) (view : View) :
    (elements.flatMap parts).foldlM act view =
      elements.foldlM (fun reached element => (parts element).foldlM act reached) view := by
  induction elements generalizing view with
  | nil => rfl
  | cons element rest inductionHypothesis =>
    rw [List.flatMap_cons, List.foldlM_append, List.foldlM_cons]
    exact bind_congr inductionHypothesis

end Logged

end Miosix
