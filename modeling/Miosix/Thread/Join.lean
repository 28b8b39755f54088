/-
This file embeds `Thread::join`, `Thread::detach` and the end of `Thread::threadLauncher` of
`kernel/thread.cpp` for one thread that is joined, and proves the contract of `join`.

The steps are the sections with the global lock held: a call of `join` up to where it waits
or returns, a joiner that runs again, `detach`, the termination of the thread, and
`removeDeadThreads`, which gives the memory of the thread back. What that memory holds
afterwards is arbitrary.

`joinData` is a union, so it is one word here: the pointer of the waiting joiner while the
thread runs, and the value its entry point returned once it has terminated. A call of `join`
that finds the thread terminated completes at once and does not look whether an earlier
joiner, woken by the termination, has yet to run. The contract holds in the runs where no
call comes in that window (`Orderly`).
-/

import Miosix.Config
import Miosix.Lib.Transition

namespace Miosix.Join

open Transition Function

variable {threads : Nat}

/-! ### The thread that is joined and its joiners -/

/-- The fields of the joined thread that `join` reads: two bits of `flags` and `joinData`. -/
structure Fields where
  deleted : Bool
  detached : Bool
  joinData : Nat
  deriving DecidableEq, Repr

/-- Whether a thread is inside `join`, and if so whether it passed a pointer for the result. -/
inductive Pc where
  | outside
  | joining (result : Bool)
  deriving DecidableEq, Repr

/-- What `join` returns, and the value it delivers through its pointer. -/
structure Answer where
  success : Bool
  delivered : Option Nat
  deriving DecidableEq, Repr

def Answer.failure : Answer := ⟨false, none⟩

/-- The joined thread, whether `IRQexists` finds it, and for every thread whether it is blocked
by `IRQsetJoinWait`, where it is and what its last call returned. -/
structure State (threads : Nat) where
  fields : Fields
  registered : Bool
  joinWait : Fin threads → Bool
  pc : Fin threads → Pc
  answer : Fin threads → Option Answer

/-- The word that holds the address of a thread; the null pointer is zero. -/
def pointer (thread : Fin threads) : Nat := thread + 1

section

variable (state : State threads)

/-- `IRQclearJoinWait` of the thread at an address. -/
def State.clearJoinWait (address : Nat) : State threads :=
  { state with
    joinWait := fun thread => if pointer thread = address then false else state.joinWait thread }

def State.returns (thread : Fin threads) (answer : Answer) : State threads :=
  { state with
    pc := update state.pc thread .outside
    answer := update state.answer thread (some answer) }

section

variable (extraChecks : ExtraChecks) (target : Fin threads) (state : State threads)
  (caller : Fin threads) (result : Bool)

/-- The end of `join`, once the thread has terminated. -/
def State.complete : State threads :=
  { state with fields := { state.fields with detached := true } }.returns caller
    ⟨true, if result then some state.fields.joinData else none⟩

/-- The section of `join` up to where it waits or returns. -/
def join : State threads :=
  if target = caller then state.returns caller .failure
  else if extraChecks ≠ .none ∧ state.registered = false then state.returns caller .failure
  else if state.fields.detached then state.returns caller .failure
  else if state.fields.deleted then state.complete caller result
  else if state.fields.joinData ≠ 0 then state.returns caller .failure
  else
    { state with
      fields := { state.fields with joinData := pointer caller }
      joinWait := update state.joinWait caller true
      pc := update state.pc caller (.joining result)
      answer := update state.answer caller none }

/-- The loop of `join`, when the thread runs again. -/
def resume : State threads :=
  if extraChecks ≠ .none ∧ state.registered = false then state.returns caller .failure
  else if state.fields.detached then state.returns caller .failure
  else if state.fields.deleted then state.complete caller result
  else { state with joinWait := update state.joinWait caller true }

def detach : State threads :=
  if extraChecks ≠ .none ∧ target ≠ caller ∧ state.registered = false then state
  else
    let detached := { state with fields := { state.fields with detached := true } }
    if state.fields.joinData ≠ 0 ∧ state.fields.deleted = false then
      detached.clearJoinWait state.fields.joinData
    else detached

end

/-- The end of `threadLauncher`, after the entry point has returned a value. -/
def terminate (value : Nat) : State threads :=
  let deleted := { state with fields := { state.fields with deleted := true } }
  if state.fields.detached = false then
    let woken := if state.fields.joinData ≠ 0 then deleted.clearJoinWait state.fields.joinData
      else deleted
    { woken with fields := { woken.fields with joinData := value } }
  else deleted

/-! ### The machine -/

inductive Label (threads : Nat) where
  | join (caller : Fin threads) (result : Bool)
  | resume (caller : Fin threads)
  | detach (caller : Fin threads)
  | terminate (value : Nat)
  | reclaim
  | overwrite (fields : Fields)
  deriving DecidableEq, Repr

/-- The joined thread has not terminated. -/
def State.alive : Prop :=
  state.registered = true ∧ state.fields.deleted = false
  deriving Decidable

/-- A thread calls when it is not blocked in `join`, and the joined thread only while it lives.
Memory that was given back may be overwritten at any time. -/
def exec (extraChecks : ExtraChecks) (target : Fin threads) (state : State threads) :
    Label threads → Option (State threads)
  | .join caller result =>
      if state.pc caller = .outside ∧ (target = caller → state.alive) then
        some (join extraChecks target state caller result)
      else none
  | .resume caller =>
      match state.pc caller with
      | .outside => none
      | .joining result =>
          if state.joinWait caller = false then some (resume extraChecks state caller result)
          else none
  | .detach caller =>
      if state.pc caller = .outside ∧ (target = caller → state.alive) then
        some (detach extraChecks target state caller)
      else none
  | .terminate value =>
      if state.alive then some (terminate state value) else none
  | .reclaim =>
      if state.registered = true ∧ state.fields.deleted = true ∧ state.fields.detached = true then
        some { state with registered := false }
      else none
  | .overwrite fields =>
      if state.registered = false then some { state with fields := fields } else none

/-- A thread that was just created, joinable or not. -/
def initial (detached : Bool) : State threads where
  fields := { deleted := false, detached := detached, joinData := 0 }
  registered := true
  joinWait := fun _ => false
  pc := fun _ => .outside
  answer := fun _ => none

/-! ### The calls of a run -/

/-- The calls of `join`, numbered in the order they were made: which one each thread is in,
which one was the first to find the thread joinable, and what each returned. Further the value
that the entry point returned, and whether `detach` was called. -/
structure Record (threads : Nat) where
  calls : Nat
  current : Fin threads → Nat
  first : Option Nat
  returned : Nat → Option Answer
  entry : Option Nat
  detached : Bool

def Record.initial : Record threads := ⟨0, fun _ => 0, none, fun _ => none, none, false⟩

/-- The thread exists and is not detached. -/
def State.joinable : Prop :=
  state.registered = true ∧ state.fields.detached = false
  deriving Decidable

end

section

variable (target : Fin threads) (record : Record threads) (before : State threads)
  (label : Label threads)

/-- A call is made, by another thread than the joined one and while that one is joinable, or
not. -/
def Record.opened (caller : Fin threads) (joinable : Prop)
    [Decidable joinable] : Record threads :=
  { record with
    calls := record.calls + 1
    current := update record.current caller record.calls
    first := record.first.or (if joinable then some record.calls else none) }

def Record.closed (caller : Fin threads) (after : State threads) :
    Record threads :=
  if after.pc caller = .outside then
    { record with
      returned := update record.returned (record.current caller) (after.answer caller) }
  else record

def Record.note (after : State threads) : Record threads :=
  match label with
  | .join caller _ => (record.opened caller (target ≠ caller ∧ before.joinable)).closed caller after
  | .resume caller => record.closed caller after
  | .detach _ => { record with detached := true }
  | .terminate value => { record with entry := some value }
  | .reclaim | .overwrite _ => record

/-- No call comes between the termination and the moment the woken joiner runs, and without
`extraChecks` none uses memory that was given back. -/
def Orderly (extraChecks : ExtraChecks) (state : State threads) : Label threads → Prop
  | .join _ _ => (extraChecks = .none → state.registered = true) ∧
      (state.joinable → state.fields.deleted = true → ∀ thread, state.pc thread = .outside)
  | .resume _ | .detach _ => extraChecks = .none → state.registered = true
  | _ => True

instance (extraChecks : ExtraChecks) (state : State threads) (label : Label threads) :
    Decidable (Orderly extraChecks state label) :=
  match label with
  | .join _ _ => inferInstanceAs (Decidable (_ ∧ _))
  | .resume _ | .detach _ => inferInstanceAs (Decidable (_ → _))
  | .terminate _ | .reclaim | .overwrite _ => inferInstanceAs (Decidable True)

/-! ### The contract -/

/-- Only the first call that found the thread joinable returns true, with the value of the entry
point; every other one returns false; and the first one returns false only after `detach`. -/
structure JoinContract : Prop where
  success : ∀ call answer, record.returned call = some answer → answer.success = true →
    record.first = some call ∧ ∀ value ∈ answer.delivered, record.entry = some value
  others : ∀ call < record.calls, record.first ≠ some call →
    record.returned call = some .failure
  refused : ∀ call answer, record.first = some call → record.returned call = some answer →
    answer.success = false → record.detached = true

/-- The contract, and the calls are numbered in order. -/
structure Ledger : Prop where
  contract : JoinContract record
  numbered : ∀ call, record.first = some call ∨ record.returned call ≠ none →
    call < record.calls

end

variable {record : Record threads} {state : State threads} {caller target : Fin threads}
  {extraChecks : ExtraChecks} {result : Bool} {joinable : Prop} {thread : Fin threads}

section

variable (ledger : Ledger record)
include ledger

theorem Ledger.unread : record.returned record.calls = none := by
  by_contra read
  exact Nat.lt_irrefl _ (ledger.numbered record.calls (.inr read))

/-- The first call that finds the thread joinable. -/
theorem Ledger.claim (unclaimed : record.first = none) {current : Fin threads → Nat} :
    Ledger { record with
      calls := record.calls + 1
      current := current
      first := some record.calls } := by
  refine ⟨⟨?_, ?_, ?_⟩, ?_⟩
  · intro call answer returned success
    have first := (ledger.contract.success call answer returned success).1
    rw [unclaimed] at first
    cases first
  · intro call called different
    have earlier : call < record.calls := by
      have : call ≠ record.calls := fun same => different (congrArg some same.symm)
      dsimp only at called
      omega
    exact ledger.contract.others call earlier (by simp [unclaimed])
  · intro call answer first returned
    obtain rfl : record.calls = call := Option.some_inj.mp first
    rw [show record.returned record.calls = none from ledger.unread] at returned
    cases returned
  · rintro call (first | returned)
    · obtain rfl : record.calls = call := Option.some_inj.mp first
      exact Nat.lt_succ_self _
    · exact Nat.lt_succ_of_lt (ledger.numbered call (.inr returned))

/-- A call that is not the first returns false. -/
theorem Ledger.refuse (current : Fin threads → Nat) : Ledger { record with
      calls := record.calls + 1
      current := current
      returned := update record.returned record.calls (some .failure) } := by
  have fresh : record.first ≠ some record.calls := fun first =>
    Nat.lt_irrefl _ (ledger.numbered _ (.inl first))
  refine ⟨⟨?_, ?_, ?_⟩, ?_⟩
  · intro call answer returned success
    by_cases same : call = record.calls
    · subst same
      simp only [update_self, Option.some_inj] at returned
      subst returned
      cases success
    · exact ledger.contract.success call answer (by simpa [same] using returned) success
  · intro call called different
    by_cases same : call = record.calls
    · simp [same]
    · have earlier : call < record.calls := by
        dsimp only at called
        omega
      simpa [same] using ledger.contract.others call earlier different
  · intro call answer first returned failure
    have same : call ≠ record.calls := by
      rintro rfl
      exact fresh first
    exact ledger.contract.refused call answer first (by simpa [same] using returned) failure
  · intro call known
    by_cases same : call = record.calls
    · exact same ▸ Nat.lt_succ_self _
    · exact Nat.lt_succ_of_lt (ledger.numbered call (by simpa [same] using known))

/-- The first call returns. -/
theorem Ledger.settle {call : Nat} (first : record.first = some call) (answer : Answer)
    (accepted : answer.success = true → ∀ value ∈ answer.delivered, record.entry = some value)
    (refused : answer.success = false → record.detached = true) :
    Ledger { record with returned := update record.returned call (some answer) } := by
  refine ⟨⟨?_, ?_, ?_⟩, ?_⟩
  · intro other given returned success
    by_cases same : other = call
    · subst same
      simp only [update_self, Option.some_inj] at returned
      subst returned
      exact ⟨first, accepted success⟩
    · exact ledger.contract.success other given (by simpa [same] using returned) success
  · intro other called different
    have same : other ≠ call := by
      rintro rfl
      exact different first
    simpa [same] using ledger.contract.others other called different
  · intro other given isFirst returned failure
    obtain rfl : call = other := Option.some_inj.mp (first.symm.trans isFirst)
    simp only [update_self, Option.some_inj] at returned
    subst returned
    exact refused failure
  · intro other known
    by_cases same : other = call
    · exact ledger.numbered other (.inl (same ▸ first))
    · exact ledger.numbered other (by simpa [same] using known)

end

theorem update_failure {returned : Nat → Option Answer}
    (unfinished : ∀ call answer, returned call = some answer → answer.success = false)
    {number : Nat} : ∀ call answer, update returned number (some .failure) call =
      some answer → answer.success = false := by
  intro call answer given
  by_cases same : call = number
  · subst same
    simp only [update_self, Option.some_inj] at given
    exact given ▸ rfl
  · exact unfinished call answer (by simpa [same] using given)

/-! ### The joiner -/

/-- At most one thread is inside `join`, in the first call. While the thread is joinable
`joinData` is the pointer of that thread, or null, or the returned value. -/
structure Sound (state : State threads) (record : Record threads) : Prop where
  ledger : Ledger record
  inside : ∀ thread, state.pc thread ≠ .outside → record.first = some (record.current thread)
  sole : ∀ thread other, state.pc thread ≠ .outside → state.pc other ≠ .outside → thread = other
  unclaimed : state.joinable → record.first = none ∨ ∃ thread, state.pc thread ≠ .outside
  waiter : state.joinable → state.fields.deleted = false →
    (state.fields.joinData = 0 ∧ ∀ thread, state.pc thread = .outside) ∨
      ∃ thread, state.fields.joinData = pointer thread ∧ state.pc thread ≠ .outside
  value : state.joinable → state.fields.deleted = true →
    record.entry = some state.fields.joinData
  released : ¬ state.joinable → ∀ thread, state.pc thread ≠ .outside → record.detached = true
  woken : ¬ (state.alive ∧ state.joinable) → ∀ thread, state.pc thread ≠ .outside →
    state.joinWait thread = false
  unfinished : state.alive → ∀ call answer, record.returned call = some answer →
    answer.success = false

theorem initial_sound (detached : Bool) :
    Sound (initial detached : State threads) Record.initial where
  ledger := ⟨⟨by simp [Record.initial], by simp [Record.initial], by simp [Record.initial]⟩,
    by simp [Record.initial]⟩
  inside := by simp [initial]
  sole := by simp [initial]
  unclaimed := fun _ => .inl rfl
  waiter := fun _ _ => .inl ⟨rfl, fun _ => rfl⟩
  value := by simp [initial]
  released := by simp [initial]
  woken := by simp [initial]
  unfinished := by simp [Record.initial]

theorem Sound.nobody (ledger : Ledger record) (alone : ∀ thread, state.pc thread = .outside)
    (gone : ¬ state.joinable)
    (unfinished : state.alive → ∀ call answer, record.returned call = some answer →
      answer.success = false) :
    Sound state record where
  ledger := ledger
  inside := fun thread inside => absurd (alone thread) inside
  sole := fun thread _ inside => absurd (alone thread) inside
  unclaimed := fun joinable => absurd joinable gone
  waiter := fun joinable => absurd joinable gone
  value := fun joinable => absurd joinable gone
  released := fun _ thread inside => absurd (alone thread) inside
  woken := fun _ thread inside => absurd (alone thread) inside
  unfinished := unfinished

/-- The pointer in `joinData` is the one of the thread inside `join`. -/
theorem Sound.joinData_eq (sound : Sound state record) (joinable : state.joinable)
    (running : state.fields.deleted = false)
    (inside : state.pc thread ≠ .outside) : state.fields.joinData = pointer thread := by
  rcases sound.waiter joinable running with ⟨-, alone⟩ | ⟨other, named, waits⟩
  · exact absurd (alone thread) inside
  · rw [named, sound.sole other thread waits inside]

theorem State.returns_of_outside (outside : state.pc caller = .outside) (answer : Answer) :
    state.returns caller answer =
      { state with answer := update state.answer caller (some answer) } := by
  rw [State.returns, ← outside, update_eq_self]

theorem Record.closed_returns {answer : Answer} :
    record.closed caller (state.returns caller answer) = { record with
      returned := update record.returned (record.current caller) (some answer) } := by
  simp [Record.closed, State.returns]

theorem Sound.refuse (sound : Sound state record) (outside : state.pc caller = .outside) :
    Sound (state.returns caller .failure) { record with
      calls := record.calls + 1
      current := update record.current caller record.calls
      returned := update record.returned record.calls (some .failure) } := by
  rw [State.returns_of_outside outside]
  refine { sound with
    ledger := sound.ledger.refuse _
    inside := fun thread inside => ?_
    unfinished := fun alive => update_failure (sound.unfinished alive) }
  have different : thread ≠ caller := by
    rintro rfl
    exact inside outside
  simpa [different] using sound.inside thread inside

/-- The first call finds the thread terminated, or its joiner runs again and does: it takes the
value and detaches the thread. -/
theorem Sound.complete (ledger : Ledger record)
    (first : record.first = some (record.current caller))
    (alone : ∀ thread, thread ≠ caller → state.pc thread = .outside)
    (deleted : state.fields.deleted = true) (value : record.entry = some state.fields.joinData)
    (result : Bool) :
    Sound (state.complete caller result) (record.closed caller (state.complete caller result)) := by
  rw [State.complete, Record.closed_returns]
  refine .nobody (ledger.settle first _ (fun _ => ?_) nofun) (fun thread => ?_) ?_
    fun alive => absurd (alive.2.symm.trans deleted) (by simp)
  · cases result <;> simp [value]
  · by_cases same : thread = caller
    · simp [State.returns, same]
    · simpa [State.returns, same] using alone thread same
  · rintro ⟨-, joinable⟩
    cases joinable

theorem Sound.register (sound : Sound state record) {caller : Fin threads}
    (joinable : state.joinable) (running : state.fields.deleted = false)
    (alone : ∀ thread, state.pc thread = .outside) (unclaimed : record.first = none)
    (result : Bool) :
    Sound { state with
        fields := { state.fields with joinData := pointer caller }
        joinWait := update state.joinWait caller true
        pc := update state.pc caller (.joining result)
        answer := update state.answer caller none }
      { record with
        calls := record.calls + 1
        current := update record.current caller record.calls
        first := some record.calls } := by
  have only : ∀ thread, update state.pc caller (.joining result) thread ≠ .outside →
      thread = caller := by
    intro thread inside
    by_contra different
    exact inside (by simpa [different] using alone thread)
  refine ⟨sound.ledger.claim unclaimed, ?_, ?_, ?_, ?_, ?_, ?_, ?_, sound.unfinished⟩
  · intro thread inside
    simp [only thread inside]
  · intro thread other inside otherInside
    rw [only thread inside, only other otherInside]
  · exact fun _ => .inr ⟨caller, by simp⟩
  · exact fun _ _ => .inr ⟨caller, rfl, by simp⟩
  · intro _ deleted
    exact absurd (deleted.symm.trans running) (by simp)
  · exact absurd joinable
  · exact absurd ⟨⟨joinable.1, running⟩, joinable⟩

theorem Record.noted_refused [Decidable joinable] (late : joinable → record.first ≠ none) :
    (record.opened caller joinable).closed caller (state.returns caller .failure) =
      { record with
        calls := record.calls + 1
        current := update record.current caller record.calls
        returned := update record.returned record.calls (some .failure) } := by
  have first : record.first.or (if joinable then some record.calls else none) = record.first := by
    cases claimed : record.first with
    | none => simpa using fun met => late met claimed
    | some call => rfl
  simp [Record.opened, Record.closed, State.returns, first]

theorem Record.opened_claim (unclaimed : record.first = none)
    [Decidable joinable] (met : joinable) : record.opened caller joinable = { record with
      calls := record.calls + 1
      current := update record.current caller record.calls
      first := some record.calls } := by
  simp [Record.opened, unclaimed, met]

theorem Sound.join (sound : Sound state record) (outside : state.pc caller = .outside)
    (orderly : Orderly extraChecks state (.join caller result)) :
    Sound (join extraChecks target state caller result)
      (record.note target state (.join caller result)
        (join extraChecks target state caller result)) := by
  simp only [Record.note]
  have refused : ((target ≠ caller ∧ state.joinable) → record.first ≠ none) →
      Sound (state.returns caller .failure)
        ((record.opened caller (target ≠ caller ∧ state.joinable)).closed caller
          (state.returns caller .failure)) := by
    intro late
    rw [Record.noted_refused late]
    exact sound.refuse outside
  unfold Join.join
  split
  · rename_i same
    exact refused fun met => absurd same met.1
  rename_i different
  split
  · rename_i unknown
    exact refused fun met => absurd (met.2.1.symm.trans unknown.2) (by simp)
  rename_i known
  split
  · rename_i detached
    exact refused fun met => absurd (met.2.2.symm.trans detached) (by simp)
  rename_i attached
  have registered : state.registered = true := by
    by_cases unchecked : extraChecks = .none
    · exact orderly.1 unchecked
    · simpa [unchecked] using known
  have joinable : state.joinable := ⟨registered, by simpa using attached⟩
  split
  · rename_i deleted
    have alone := orderly.2 joinable deleted
    have unclaimed := (sound.unclaimed joinable).resolve_right
      fun ⟨thread, inside⟩ => inside (alone thread)
    rw [Record.opened_claim unclaimed ⟨different, joinable⟩]
    exact .complete (sound.ledger.claim unclaimed) (by simp) (fun thread _ => alone thread)
      deleted (sound.value joinable deleted) result
  rename_i running
  have running : state.fields.deleted = false := by simpa using running
  split
  · rename_i taken
    refine refused fun _ unclaimed => ?_
    rcases sound.waiter joinable running with ⟨null, -⟩ | ⟨thread, -, inside⟩
    · exact taken null
    · have first := sound.inside thread inside
      rw [unclaimed] at first
      cases first
  · rename_i null
    rcases sound.waiter joinable running with ⟨-, alone⟩ | ⟨thread, named, -⟩
    · have unclaimed := (sound.unclaimed joinable).resolve_right
        fun ⟨thread, inside⟩ => inside (alone thread)
      rw [Record.opened_claim unclaimed ⟨different, joinable⟩, Record.closed, if_neg (by simp)]
      exact sound.register joinable running alone unclaimed result
    · rw [not_not.mp null] at named
      contradiction

/-- The joiner runs again and finds the thread detached or gone. -/
theorem Sound.giveUp (sound : Sound state record) (waits : state.pc caller ≠ .outside)
    (gone : ¬ state.joinable) :
    Sound (state.returns caller .failure)
      (record.closed caller (state.returns caller .failure)) := by
  rw [Record.closed_returns]
  refine .nobody (sound.ledger.settle (sound.inside caller waits) _ nofun
    fun _ => sound.released gone caller waits) (fun thread => ?_) gone
    fun alive => update_failure (sound.unfinished alive)
  by_cases same : thread = caller
  · simp [State.returns, same]
  · by_contra inside
    simp only [State.returns, update_of_ne same] at inside
    exact same (sound.sole thread caller inside waits)

theorem Sound.resume (sound : Sound state record) (waits : state.pc caller = .joining result)
    (orderly : Orderly extraChecks state (.resume caller)) :
    Sound (resume extraChecks state caller result)
      (record.note target state (.resume caller) (resume extraChecks state caller result)) := by
  have inside : state.pc caller ≠ .outside := by simp [waits]
  simp only [Record.note]
  unfold Join.resume
  split
  · rename_i unknown
    exact sound.giveUp inside fun joinable => absurd (joinable.1.symm.trans unknown.2) (by simp)
  rename_i known
  split
  · rename_i detached
    exact sound.giveUp inside fun joinable => absurd (joinable.2.symm.trans detached) (by simp)
  rename_i attached
  have registered : state.registered = true := by
    by_cases unchecked : extraChecks = .none
    · exact orderly unchecked
    · simpa [unchecked] using known
  have joinable : state.joinable := ⟨registered, by simpa using attached⟩
  split
  · rename_i deleted
    refine .complete sound.ledger (sound.inside caller inside) (fun thread different => ?_)
      deleted (sound.value joinable deleted) result
    by_contra otherInside
    exact different (sound.sole thread caller otherInside inside)
  · rename_i running
    rw [Record.closed, if_neg inside]
    refine { sound with woken := fun gone => absurd ⟨⟨registered, ?_⟩, joinable⟩ gone }
    simpa using running

/-! ### The steps of the joined thread -/

theorem clearJoinWait_self : (state.clearJoinWait (pointer thread)).joinWait thread = false := by
  simp [State.clearJoinWait]

theorem Ledger.detach (ledger : Ledger record) : Ledger { record with detached := true } :=
  ⟨⟨ledger.contract.success, ledger.contract.others, fun _ _ _ _ _ => rfl⟩, ledger.numbered⟩

/-- The thread is detached; if it still runs, its joiner is woken. -/
theorem Sound.detached {after : State threads} (sound : Sound state record)
    (samePc : after.pc = state.pc) (gone : ¬ after.joinable)
    (sameLife : after.alive → state.alive)
    (woken : ∀ thread, state.pc thread ≠ .outside → after.joinWait thread = false) :
    Sound after { record with detached := true } where
  ledger := sound.ledger.detach
  inside := samePc ▸ sound.inside
  sole := samePc ▸ sound.sole
  unclaimed := fun joinable => absurd joinable gone
  waiter := fun joinable => absurd joinable gone
  value := fun joinable => absurd joinable gone
  released := fun _ _ _ => rfl
  woken := fun _ => samePc ▸ woken
  unfinished := fun alive => sound.unfinished (sameLife alive)

theorem Sound.detach (sound : Sound state record) :
    Sound (detach extraChecks target state caller) { record with detached := true } := by
  simp only [Join.detach]
  split
  · exact { sound with ledger := sound.ledger.detach, released := fun _ _ _ => rfl }
  · split
    · rename_i running
      refine sound.detached rfl (fun joinable => by cases joinable.2) id fun thread inside => ?_
      by_cases joinable : state.joinable
      · rw [sound.joinData_eq joinable running.2 inside]
        exact clearJoinWait_self
      · have woken := sound.woken (fun both => joinable both.2) thread inside
        simp [State.clearJoinWait, woken]
    · rename_i quiet
      refine sound.detached rfl (fun joinable => by cases joinable.2) id fun thread inside => ?_
      refine sound.woken (fun both => ?_) thread inside
      have named := sound.joinData_eq both.2 both.1.2 inside
      refine quiet ⟨?_, both.1.2⟩
      rw [named]
      exact Nat.succ_ne_zero _

/-- A thread that terminates while it is joinable. -/
theorem terminate_of_attached (attached : state.fields.detached = false) {value : Nat} :
    terminate state value =
      { state.clearJoinWait state.fields.joinData with fields := ⟨true, false, value⟩ } := by
  simp only [Join.terminate, if_pos attached]
  by_cases null : state.fields.joinData = 0
  · simp [null, State.clearJoinWait, attached, pointer]
  · simp [null, State.clearJoinWait, attached]

/-- The thread terminates; if it is joinable its joiner is woken and finds the value. -/
theorem Sound.terminate (sound : Sound state record) (alive : state.alive) (value : Nat) :
    Sound (terminate state value) { record with entry := some value } := by
  have ledger : Ledger { record with entry := some value } := by
    refine ⟨⟨fun call answer returned success => ?_, sound.ledger.contract.others,
      sound.ledger.contract.refused⟩, sound.ledger.numbered⟩
    rw [sound.unfinished alive call answer returned] at success
    cases success
  by_cases attached : state.fields.detached = false
  · have joinable : state.joinable := ⟨alive.1, attached⟩
    rw [terminate_of_attached attached]
    refine ⟨ledger, sound.inside, sound.sole, fun _ => sound.unclaimed joinable, nofun,
      fun _ _ => rfl, absurd ⟨alive.1, rfl⟩, fun _ thread inside => ?_,
      fun alive => by cases alive.2⟩
    rw [sound.joinData_eq joinable alive.2 inside]
    exact clearJoinWait_self
  · have gone : ¬ state.joinable := fun joinable => attached joinable.2
    simp only [Join.terminate, if_neg attached]
    exact ⟨ledger, sound.inside, sound.sole, fun joinable => absurd joinable gone,
      fun joinable => absurd joinable gone, fun joinable => absurd joinable gone,
      fun _ => sound.released gone, fun _ => sound.woken fun both => gone both.2,
      fun alive => by cases alive.2⟩

/-- The memory of the thread is given back, or overwritten after that. -/
theorem Sound.reclaim (sound : Sound state record) (gone : ¬ state.joinable) (fields : Fields) :
    Sound { state with fields := fields, registered := false } record := { sound with
  unclaimed := fun joinable => by cases joinable.1
  waiter := fun joinable => by cases joinable.1
  value := fun joinable => by cases joinable.1
  released := fun _ => sound.released gone
  woken := fun _ => sound.woken fun both => gone both.2
  unfinished := fun alive => by cases alive.1 }

theorem Sound.step {next : State threads} (sound : Sound state record) {label : Label threads}
    (orderly : Orderly extraChecks state label)
    (stepped : exec extraChecks target state label = some next) :
    Sound next (record.note target state label next) := by
  cases label with
  | join caller result =>
    obtain ⟨⟨outside, -⟩, rfl⟩ := of_guard stepped
    exact sound.join outside orderly
  | resume caller =>
    unfold exec at stepped
    cases waits : state.pc caller with
    | outside => simp [waits] at stepped
    | joining result =>
      simp only [waits] at stepped
      obtain ⟨-, rfl⟩ := of_guard stepped
      exact sound.resume waits orderly
  | detach caller =>
    obtain ⟨-, rfl⟩ := of_guard stepped
    exact sound.detach
  | terminate value =>
    obtain ⟨alive, rfl⟩ := of_guard stepped
    exact sound.terminate alive value
  | reclaim =>
    obtain ⟨⟨-, -, detached⟩, rfl⟩ := of_guard stepped
    exact sound.reclaim (fun joinable => absurd (joinable.2.symm.trans detached) (by simp)) _
  | overwrite fields =>
    obtain ⟨unknown, rfl⟩ := of_guard stepped
    have reclaimed := sound.reclaim
      (fun joinable => absurd (joinable.1.symm.trans unknown) (by simp)) fields
    rwa [← unknown] at reclaimed

/-! ### The contract of join -/

/-- In every orderly run only the first call that found the thread joinable returns true, with
the value the entry point returned, and a call is blocked only while the thread runs and is
joinable. -/
theorem join_contract (extraChecks : ExtraChecks) (target : Fin threads) (detached : Bool)
    (labels : List (Label threads)) (state : State threads) (record : Record threads)
    (run : Run (observing (exec extraChecks target) (Record.note target))
      (fun observed => Orderly extraChecks observed.1)
      (initial detached, Record.initial) labels (state, record)) :
    JoinContract record ∧ ∀ thread, state.pc thread ≠ .outside → state.joinWait thread = true →
      state.alive ∧ state.joinable := by
  have sound : Sound state record := run.observed Sound
    (fun _ _ _ _ sound orderly stepped => sound.step orderly stepped) (initial_sound detached)
  refine ⟨sound.ledger.contract, fun thread inside blocked => ?_⟩
  by_contra ended
  exact absurd (blocked.symm.trans (sound.woken ended thread inside)) (by simp)

/-- Thread 1 joins thread 0 and waits, thread 2 joins it too and returns false, and the value
arrives at thread 1 once thread 0 has terminated. -/
theorem join_contract_twoJoiners : ∃ (state : State 3) (record : Record 3),
    (Run (observing (exec .none 0) (Record.note 0)) (fun observed => Orderly .none observed.1)
      (initial false, Record.initial)
      [.join 1 true, .join 2 true, .terminate 42, .resume 1, .reclaim] (state, record) ∧
      record.returned 0 = some ⟨true, some 42⟩ ∧ record.returned 1 = some .failure) ∧
    JoinContract record :=
  exists_observed (fun _ record =>
      record.returned 0 = some ⟨true, some 42⟩ ∧ record.returned 1 = some .failure) (by decide)
    fun state record run passed => ⟨⟨run, passed⟩,
      (join_contract .none 0 false _ state record run).1⟩

/-- Thread 1 joins thread 0 and waits. Thread 0 terminates, and before thread 1 runs again thread
2 joins: the second call returns true with the value, and the first returns false, although
nobody called `detach`. -/
theorem late_join_overtakes : ∃ (state : State 3) (record : Record 3),
    Run (observing (exec .none 0) (Record.note 0)) unrestricted (initial false, Record.initial)
      [.join 1 true, .terminate 42, .join 2 true, .resume 1] (state, record) ∧
    (record.first = some 0 ∧ record.returned 0 = some .failure ∧
      record.returned 1 = some ⟨true, some 42⟩) ∧ ¬ JoinContract record := by
  refine exists_observed (fun _ record => record.first = some 0 ∧
    record.returned 0 = some .failure ∧ record.returned 1 = some ⟨true, some 42⟩) (by decide)
    fun state record run passed => ⟨run, passed, fun contract => ?_⟩
  obtain ⟨first, -, late⟩ := passed
  have claimed := (contract.success 1 _ late rfl).1
  rw [first] at claimed
  cases claimed

end Miosix.Join
