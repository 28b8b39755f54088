/-
This file says what each critical section does, for both classes of mutex at once.

A mutex is seen through its owner and its recursive depth. A section changes them at one
mutex at most, in one of a few ways, which `Acquires` and `Releases` list together with the
fact that the section keeps the invariant. The results about ownership and about priority
inheritance are read off these lists, and never look at the code of a section again.
-/

import Miosix.Sync.Consistency

namespace Miosix.Sync

open Function State

variable {threads : Nat} {thread : Fin threads}

/-! ### Owner and depth -/

def State.owner (state : State threads) (target : Lockable) : Option (Fin threads) :=
  (state.lockable target).owner

def State.depth (state : State threads) (target : Lockable) : Int :=
  (state.lockable target).recursiveDepth

section

variable {before after : State threads} (mutex : after.mutex = before.mutex)
  (fastMutex : after.fastMutex = before.fastMutex)

include mutex fastMutex

theorem State.lockable_congr : after.lockable = before.lockable := by
  funext target
  cases target with
  | mutex id => exact congrFun mutex id
  | fastMutex id => exact congrFun fastMutex id

theorem State.owner_congr : after.owner = before.owner := by
  unfold owner
  rw [lockable_congr mutex fastMutex]

theorem State.depth_congr : after.depth = before.depth := by
  unfold depth
  rw [lockable_congr mutex fastMutex]

end

section

variable (state : State threads) {request : SchedulerCall threads} {condition : Nat}

include state

theorem State.owner_call : (state.call request).owner = state.owner := owner_congr rfl rfl

theorem State.depth_call : (state.call request).depth = state.depth := depth_congr rfl rfl

theorem State.depth_clearCalls : state.clearCalls.depth = state.depth := depth_congr rfl rfl

theorem State.owner_PKenqueue :
    (ConditionVariable.PKenqueue state condition thread).owner = state.owner :=
  owner_congr rfl rfl

theorem State.depth_PKenqueue :
    (ConditionVariable.PKenqueue state condition thread).depth = state.depth :=
  depth_congr rfl rfl

end

/-- The fields of a mutex of either class, replaced. -/
def State.setLockable (state : State threads) (target : Lockable) (data : MutexData threads) :
    State threads :=
  match target with
  | .mutex id => state.setMutex id data
  | .fastMutex id => state.setFastMutex id data

section

variable (state : State threads) (target : Lockable) (data : MutexData threads)

include state target data

theorem State.lockable_setLockable :
    (state.setLockable target data).lockable = update state.lockable target data := by
  funext other
  cases target with
  | mutex id =>
    cases other with
    | mutex otherId =>
      exact (update_apply_of_injective state.lockable (fun _ _ => Lockable.mutex.inj) id data
        otherId).symm
    | fastMutex otherId => exact (update_of_ne (by simp) _ _).symm
  | fastMutex id =>
    cases other with
    | fastMutex otherId =>
      exact (update_apply_of_injective state.lockable (fun _ _ => Lockable.fastMutex.inj) id data
        otherId).symm
    | mutex otherId => exact (update_of_ne (by simp) _ _).symm

theorem State.owner_setLockable :
    (state.setLockable target data).owner = update state.owner target data.owner := by
  funext other
  unfold owner
  rw [lockable_setLockable]
  exact apply_update (fun _ => MutexData.owner) state.lockable target data other

theorem State.depth_setLockable : (state.setLockable target data).depth =
      update state.depth target data.recursiveDepth := by
  funext other
  unfold depth
  rw [lockable_setLockable]
  exact apply_update (fun _ => MutexData.recursiveDepth) state.lockable target data other

theorem State.owner_setLockable_eq (same : data.owner = state.owner target) :
    (state.setLockable target data).owner = state.owner := by
  rw [owner_setLockable, same, update_eq_self]

theorem State.depth_setLockable_eq (same : data.recursiveDepth = state.depth target) :
    (state.setLockable target data).depth = state.depth := by
  rw [depth_setLockable, same, update_eq_self]

end

theorem Consistent.setLockable {config : Config} {state : State threads}
    {pc : Fin threads → Pc} (consistent : Consistent config state pc) (target : Lockable)
    (data : MutexData threads) (owner : data.owner = state.owner target)
    (waitQueue : data.waitQueue = (state.lockable target).waitQueue) :
    Consistent config (state.setLockable target data) pc := by
  cases target with
  | mutex id => exact consistent.setMutex id data owner waitQueue
  | fastMutex id => exact consistent.setFastMutex id data owner waitQueue

/-- What the operations on mutexes leave alone. -/
structure Frame (before after : State threads) : Prop where
  savedPriority : after.savedPriority = before.savedPriority
  condition : after.condition = before.condition

theorem setLockable_frame {state : State threads} {target : Lockable} {data : MutexData threads} :
    Frame state (state.setLockable target data) := by
  cases target with
  | mutex | fastMutex => exact ⟨rfl, rfl⟩

/-! ### Acquiring -/

section Sections

variable {config : Config} {state : State threads} {pc : Fin threads → Pc} {cur : Fin threads}
  {target : Lockable} {after : State threads} {call : Call} {condition : Nat} {timed : Bool}
  {taken again : Int} {outcome : Outcome} {depth : Nat} {removed : Bool}

/-- The ways an attempt to acquire a mutex ends. The depth is `taken` when the mutex was
free, and `again` when the current thread owned it. -/
inductive Acquires (config : Config) (state : State threads) (pc : Fin threads → Pc)
    (cur : Fin threads) (target : Lockable) (taken again : Int) :
    Except Fault (State threads × Bool) → Prop where
  | took (after : State threads) (unowned : state.owner target = none)
      (owner : after.owner = update state.owner target (some cur))
      (depth : after.depth = update state.depth target taken)
      (frame : Frame state after) (consistent : Consistent config after pc) :
      Acquires config state pc cur target taken again (.ok (after, true))
  | relocked (after : State threads) (owns : state.owner target = some cur)
      (recursive : 0 ≤ state.depth target) (owner : after.owner = state.owner)
      (depth : after.depth = update state.depth target again)
      (frame : Frame state after) (consistent : Consistent config after pc) :
      Acquires config state pc cur target taken again (.ok (after, true))
  | blocked (after : State threads) (holder : Fin threads)
      (owned : state.owner target = some holder) (other : holder ≠ cur)
      (owner : after.owner = state.owner) (depth : after.depth = state.depth)
      (frame : Frame state after) (consistent : ∀ next : Pc, next.blockedOn = some target →
        Consistent config after (update pc cur next)) :
      Acquires config state pc cur target taken again (.ok (after, false))
  | deadlock (owns : state.owner target = some cur) (notRecursive : state.depth target < 0) :
      Acquires config state pc cur target taken again (.error .mutexError)

section

variable (state : State threads) (target : Lockable) (cur : Fin threads) (taken again : Int)

/-- A free mutex is given to the current thread. -/
def State.take (depth : Int) :
    State threads :=
  match target with
  | .mutex id => Mutex.addToLockedList (state.setMutex id { state.mutex id with
      owner := some cur
      recursiveDepth := depth }) id cur
  | .fastMutex id => state.setFastMutex id { state.fastMutex id with
      owner := some cur
      recursiveDepth := depth }

/-- The part of a call that waits for another owner. -/
def State.waitForOwner (state : State threads) (target : Lockable) (cur : Fin threads) :
    Except Fault (State threads × Bool) :=
  match target with
  | .mutex id => Mutex.waitForOwner state id cur
  | .fastMutex id => .ok (FastMutex.awaitOwnership (FastMutex.PKenqueue state id cur) id cur)

/-- What `lock` and `PKlockToDepth` have in common. -/
def State.attempt : Except Fault (State threads × Bool) :=
  match state.owner target with
  | none => .ok (state.take target cur taken, true)
  | some owner =>
      if owner = cur then
        if 0 ≤ state.depth target then
          .ok (state.setLockable target
            { state.lockable target with recursiveDepth := again }, true)
        else .error .mutexError
      else state.waitForOwner target cur

end

theorem lock_eq : state.lock target cur =
    state.attempt target cur (state.depth target) (state.depth target + 1) := by
  cases target with
  | mutex | fastMutex => rfl

theorem PKlockToDepth_eq : state.PKlockToDepth target cur depth =
      state.attempt target cur (depthAfter (state.depth target) depth) depth := by
  cases target with
  | mutex | fastMutex => rfl

theorem tryLock_eq : state.tryLock target cur =
    if state.owner target = none then (state.take target cur (state.depth target), true)
    else if state.owner target = some cur ∧ 0 ≤ state.depth target then
      (state.setLockable target { state.lockable target with
        recursiveDepth := state.depth target + 1 }, true) else (state, false) := by
  cases target with
  | mutex | fastMutex => rfl

section

variable (consistent : Consistent config state pc)

include consistent

theorem waitForOwner_acquires (outside : pc cur = .outside)
    {holder : Fin threads} (owned : state.owner target = some holder) (other : holder ≠ cur) :
    Acquires config state pc cur target taken again (state.waitForOwner target cur) := by
  have notOwner : state.owner target ≠ some cur := by
    rw [owned, ne_eq, Option.some_inj]
    exact other
  cases target with
  | mutex id =>
    obtain ⟨boosted, same, result, coherent⟩ := waitForOwner_spec consistent.coherent
      (consistent.mutexWaiting_outside outside) owned other
    rw [show state.waitForOwner (.mutex id) cur = _ from result]
    refine .blocked _ holder owned other ?_ ?_ { same with }
      fun next => consistent.blockMutex outside notOwner same coherent
    · refine (owner_congr rfl rfl).trans
        ((boosted.owner_setLockable_eq (.mutex id) _ (by rfl)).trans (funext fun target => ?_))
      cases target with
      | mutex otherId => exact same.owner otherId
      | fastMutex otherId => exact congrArg MutexData.owner (congrFun same.fastMutex otherId)
    · refine (depth_congr rfl rfl).trans
        ((boosted.depth_setLockable_eq (.mutex id) _ (by rfl)).trans (funext fun target => ?_))
      cases target with
      | mutex otherId => exact same.recursiveDepth otherId
      | fastMutex otherId =>
        exact congrArg MutexData.recursiveDepth (congrFun same.fastMutex otherId)
  | fastMutex id =>
    have sameOwner : (FastMutex.PKenqueue state id cur).owner = state.owner :=
      (owner_congr rfl rfl).trans (state.owner_setLockable_eq (.fastMutex id) _ (by rfl))
    show Acquires _ _ _ _ _ _ _ (.ok (if (FastMutex.PKenqueue state id cur).owner (.fastMutex id) =
      some cur then _ else _))
    rw [sameOwner, if_neg notOwner]
    exact .blocked _ holder owned other ((owner_congr rfl rfl).trans sameOwner)
      ((depth_congr rfl rfl).trans (state.depth_setLockable_eq (.fastMutex id) _ (by rfl)))
      ⟨rfl, rfl⟩ fun next => consistent.blockFastMutex outside owned other

theorem take_acquires (outside : pc cur = .outside) (unowned : state.owner target = none) :
    Acquires config state pc cur target taken again (.ok (state.take target cur taken, true)) := by
  cases target with
  | mutex id =>
    exact .took _ unowned
      ((owner_congr rfl rfl).trans (state.owner_setLockable (.mutex id) _))
      ((depth_congr rfl rfl).trans (state.depth_setLockable (.mutex id) _)) ⟨rfl, rfl⟩
      (consistent.acquireMutex outside unowned rfl rfl)
  | fastMutex id =>
    exact .took _ unowned (state.owner_setLockable (.fastMutex id) _)
      (state.depth_setLockable (.fastMutex id) _) ⟨rfl, rfl⟩
      (consistent.acquireFastMutex outside unowned rfl rfl)

theorem relock_acquires (owns : state.owner target = some cur)
    (recursive : 0 ≤ state.depth target) :
    Acquires config state pc cur target taken again (.ok (state.setLockable target
      { state.lockable target with recursiveDepth := again }, true)) :=
  .relocked _ owns recursive (state.owner_setLockable_eq target _ rfl)
    (state.depth_setLockable target _) setLockable_frame (consistent.setLockable target _ rfl rfl)

theorem attempt_acquires (outside : pc cur = .outside) (target : Lockable) (taken again : Int) :
    Acquires config state pc cur target taken again (state.attempt target cur taken again) := by
  unfold attempt
  split
  · rename_i unowned
    exact take_acquires consistent outside unowned
  · rename_i holder owned
    split
    · rename_i same
      rw [same] at owned
      split
      · rename_i recursive
        exact relock_acquires consistent owned recursive
      · rename_i notRecursive
        exact .deadlock owned (not_le.mp notRecursive)
    · rename_i other
      exact waitForOwner_acquires consistent outside owned other

/-- `tryLock` acquires the mutex, or changes nothing. -/
theorem tryLock_spec (outside : pc cur = .outside) : ((state.tryLock target cur).2 = true ∧
        Acquires config state pc cur target (state.depth target) (state.depth target + 1)
          (.ok ((state.tryLock target cur).1, true))) ∨
      state.tryLock target cur = (state, false) := by
  rw [tryLock_eq]
  split
  · rename_i unowned
    exact Or.inl ⟨rfl, take_acquires consistent outside unowned⟩
  · split
    · rename_i owned
      exact Or.inl ⟨rfl, relock_acquires consistent owned.1 owned.2⟩
    · exact Or.inr rfl

end

/-! ### Releasing -/

section

variable (config : Config) (state : State threads) (pc : Fin threads → Pc) (target : Lockable)

/-- The thread a released mutex goes to. -/
def State.heir :
    Option (Fin threads) :=
  LevelQueue.front (state.lockable target).waitQueue config.numPriorities

/-- What releasing a mutex does. -/
structure Releases (after : State threads) : Prop where
  owner : after.owner = update state.owner target (state.heir config target)
  depth : after.depth = state.depth
  frame : Frame state after
  consistent : Consistent config after pc

end

/-- The part of a call that gives the mutex to the next owner. -/
def State.release (config : Config) (state : State threads) (target : Lockable) :
    Except Fault (State threads) :=
  match target with
  | .mutex id => Mutex.release config state id
  | .fastMutex id => .ok (FastMutex.wakeOne config state id)

theorem unlock_eq (owns : state.owner target = some cur) : state.unlock config target cur =
      if 0 < state.depth target then .ok (state.setLockable target { state.lockable target with
          recursiveDepth := state.depth target - 1 }) else state.release config target := by
  cases target with
  | mutex | fastMutex => exact if_neg fun both => both.2 owns

section

variable (consistent : Consistent config state pc)

include consistent

theorem release_releases (outside : pc cur = .outside) (owns : state.owner target = some cur) :
    ∃ after, state.release config target = .ok after ∧
      Releases config state pc target after := by
  cases target with
  | mutex id =>
    obtain ⟨priority, requests, result, -, -, coherent⟩ := release_spec consistent.coherent
      (consistent.mutexWaiting_outside outside) owns
    obtain ⟨savedPriority, fastMutex, condition, -, -⟩ := afterRelease_frame
    refine ⟨_, result, funext fun target => ?_, funext fun target => ?_,
      ⟨savedPriority, condition⟩, consistent.releaseMutex outside owns coherent⟩
    · cases target with
      | mutex other =>
        refine afterRelease_owner.trans ?_
        by_cases same : other = id
        · subst same
          rw [if_pos rfl, update_self]
          rfl
        · rw [if_neg same, update_of_ne (by simpa using same)]
          rfl
      | fastMutex other => exact congrArg MutexData.owner (congrFun fastMutex other)
    · cases target with
      | mutex other =>
        exact afterRelease_recursiveDepth
      | fastMutex other => exact congrArg MutexData.recursiveDepth (congrFun fastMutex other)
  | fastMutex id =>
    have kept := consistent.wakeOne outside owns
    refine ⟨_, rfl, ?_⟩
    rw [wakeOne_eq] at kept ⊢
    exact ⟨(owner_congr rfl rfl).trans (state.owner_setLockable (.fastMutex id) _),
      (depth_congr rfl rfl).trans (state.depth_setLockable_eq (.fastMutex id) _ (by rfl)),
      ⟨rfl, rfl⟩, kept⟩

/-- `unlock` by the owner goes one level up, or releases the mutex. -/
theorem unlock_spec (outside : pc cur = .outside) (owns : state.owner target = some cur) :
    ∃ after, state.unlock config target cur = .ok after ∧
      ((0 < state.depth target ∧ after.owner = state.owner ∧
          after.depth = update state.depth target (state.depth target - 1) ∧
          Frame state after ∧ Consistent config after pc) ∨
        (state.depth target ≤ 0 ∧ Releases config state pc target after)) := by
  rw [unlock_eq owns]
  split
  · rename_i deep
    exact ⟨_, rfl, Or.inl ⟨deep, state.owner_setLockable_eq target _ rfl,
      state.depth_setLockable target _,
      setLockable_frame, consistent.setLockable target _ rfl rfl⟩⟩
  · rename_i shallow
    obtain ⟨after, result, releases⟩ := release_releases consistent outside owns
    exact ⟨after, result, Or.inr ⟨not_lt.mp shallow, releases⟩⟩

/-- The thread a mutex goes to was waiting for it. -/
theorem Consistent.heir_blocked {next : Fin threads} (heir : state.heir config target = some next) :
    (pc next).blockedOn = some target ∧ state.owner target ≠ some next := by
  cases target with
  | mutex id =>
    obtain ⟨waits, -⟩ := (consistent.coherent.queued id).front_greatest heir
      fun other _ => consistent.coherent.priorityValid other
    exact (consistent.waits next id).mp waits
  | fastMutex id =>
    exact ((consistent.fastMutexes.queued id).front_greatest heir
      fun other _ => consistent.coherent.savedValid other).1

theorem Consistent.heir_ne (notBlocked : (pc thread).blockedOn = none) :
    state.heir config target ≠ some thread := fun heir => by
  have blocked := (consistent.heir_blocked heir).1
  rw [notBlocked] at blocked
  cases blocked

end

/-- What `wait` does to the mutex: it is released at all its levels at once. -/
structure ReleasesAll (config : Config) (state : State threads) (pc : Fin threads → Pc)
    (target : Lockable) (after : State threads) : Prop where
  owner : after.owner = update state.owner target (state.heir config target)
  depth : after.depth = update state.depth target (min (state.depth target) 0)
  frame : Frame state after
  consistent : Consistent config after pc

theorem Releases.keepDepth
    (releases : Releases config state pc target after) (negative : state.depth target < 0) :
    ReleasesAll config state pc target after := { releases with
  depth := by rw [min_eq_left (le_of_lt negative), update_eq_self, releases.depth] }

theorem Releases.clearDepth
    (releases : Releases config state pc target after) (recursive : 0 ≤ state.depth target) :
    ReleasesAll config state pc target
      (after.setLockable target { after.lockable target with recursiveDepth := 0 }) where
  owner := (after.owner_setLockable_eq target _ (by rfl)).trans releases.owner
  depth := by
    rw [after.depth_setLockable, releases.depth, min_eq_right recursive]
  frame :=
    have kept := setLockable_frame
    ⟨kept.savedPriority.trans releases.frame.savedPriority,
      kept.condition.trans releases.frame.condition⟩
  consistent := releases.consistent.setLockable target _ rfl rfl

theorem PKunlockAllDepthLevels_eq
    (owns : state.owner target = some cur) (result : state.release config target = .ok after) :
    state.PKunlockAllDepthLevels config target cur = if after.depth target < 0 then .ok (after, 0)
      else .ok (after.setLockable target { after.lockable target with recursiveDepth := 0 },
        (after.depth target).toNat) := by
  cases target with
  | mutex id =>
    refine (if_neg fun both => both.2 owns).trans ?_
    rw [show Mutex.release config state id = .ok after from result]
    rfl
  | fastMutex id =>
    cases result
    exact if_neg fun both => both.2 owns

theorem PKunlockAllDepthLevels_spec (consistent : Consistent config state pc)
    (outside : pc cur = .outside) (owns : state.owner target = some cur) :
    ∃ after, state.PKunlockAllDepthLevels config target cur =
        .ok (after, (state.depth target).toNat) ∧
      ReleasesAll config state pc target after := by
  obtain ⟨after, result, releases⟩ := release_releases consistent outside owns
  rw [PKunlockAllDepthLevels_eq owns result, releases.depth]
  split
  · rename_i negative
    rw [Int.toNat_of_nonpos (le_of_lt negative)]
    exact ⟨after, rfl, releases.keepDepth negative⟩
  · rename_i recursive
    exact ⟨_, rfl, releases.clearDepth (not_lt.mp recursive)⟩

/-! ### The first section of a call -/

/-- The condition variable and the mutex of a call that waits, and whether it has a
deadline. -/
def Call.waits : Call → Option (Nat × Lockable × Bool)
  | .wait condition target => some (condition, target, false)
  | .timedWait condition target _ => some (condition, target, true)
  | _ => none

/-- What the first section of a call does. -/
inductive Enters (config : Config) (state : State threads) (pc : Fin threads → Pc)
    (cur : Fin threads) : Call → State threads → Outcome → Prop where
  | lock (target : Lockable) (after : State threads)
      (acquires : Acquires config state pc cur target (state.depth target)
        (state.depth target + 1) (.ok (after, true))) :
      Enters config state pc cur (.lock target) after (.returns .done)
  | lockBlocked (target : Lockable) (after : State threads)
      (acquires : Acquires config state pc cur target (state.depth target)
        (state.depth target + 1) (.ok (after, false))) :
      Enters config state pc cur (.lock target) after (.blocks (.lock target))
  | tryLock (target : Lockable) (after : State threads)
      (acquires : Acquires config state pc cur target (state.depth target)
        (state.depth target + 1) (.ok (after, true))) :
      Enters config state pc cur (.tryLock target) after (.returns (.tried true))
  | tryLockFailed (target : Lockable) :
      Enters config state pc cur (.tryLock target) state (.returns (.tried false))
  | unlockLevel (target : Lockable) (after : State threads)
      (owns : state.owner target = some cur) (deep : 0 < state.depth target)
      (owner : after.owner = state.owner)
      (depth : after.depth = update state.depth target (state.depth target - 1))
      (frame : Frame state after) (consistent : Consistent config after pc) :
      Enters config state pc cur (.unlock target) after (.returns .done)
  | unlock (target : Lockable) (after : State threads) (owns : state.owner target = some cur)
      (shallow : state.depth target ≤ 0) (releases : Releases config state pc target after) :
      Enters config state pc cur (.unlock target) after (.returns .done)
  | wait (call : Call) (condition : Nat) (target : Lockable) (timed : Bool)
      (between : State threads) (waits : call.waits = some (condition, target, timed))
      (owns : state.owner target = some cur)
      (releases : ReleasesAll config state pc target between) :
      Enters config state pc cur call
        ((ConditionVariable.PKenqueue between condition cur).call (.restartKernelAndWait cur))
        (.blocks (.waiting condition target (state.depth target).toNat timed))
  | signal (condition : Nat) :
      Enters config state pc cur (.signal condition)
        (ConditionVariable.signal config state condition) (.returns .done)
  | broadcast (condition : Nat) :
      Enters config state pc cur (.broadcast condition)
        (ConditionVariable.broadcast config state condition) (.returns .done)
  | setPriority (priority : Int) :
      Enters config state pc cur (.setPriority priority)
        (Sync.setPriority config state cur priority) (.returns .done)

theorem unlock_refused (checks : config.extraChecks ≠ .none)
    (notOwner : state.owner target ≠ some cur) :
    state.unlock config target cur = .error .mutexError := by
  cases target with
  | mutex | fastMutex => exact if_pos ⟨checks, notOwner⟩

theorem PKunlockAllDepthLevels_refused (checks : config.extraChecks ≠ .none)
    (notOwner : state.owner target ≠ some cur) :
    state.PKunlockAllDepthLevels config target cur = .error .mutexError := by
  cases target with
  | mutex | fastMutex => exact if_pos ⟨checks, notOwner⟩

/-- A call that is permitted releases a mutex of the caller, or is refused. -/
theorem checks_of_permitted (allowed : (decide (config.extraChecks ≠ .none) ||
      decide ((state.lockable target).owner = some cur)) = true)
    (notOwner : state.owner target ≠ some cur) : config.extraChecks ≠ .none := by
  rw [Bool.or_eq_true, decide_eq_true_eq, decide_eq_true_eq] at allowed
  exact allowed.resolve_right notOwner

/-- What a section ends in: a state that the specification allows, or the error for a
misused mutex. -/
def Ends (spec : State threads → Outcome → Prop) : Except Fault (State threads × Outcome) → Prop
  | .ok (after, outcome) => spec after outcome
  | .error fault => fault = .mutexError

theorem beginWait_spec (consistent : Consistent config state pc) (outside : pc cur = .outside)
    (waits : call.waits = some (condition, target, timed))
    (allowed : (decide (config.extraChecks ≠ .none) ||
      decide ((state.lockable target).owner = some cur)) = true) :
    Ends (Enters config state pc cur call) (beginWait config state cur condition target timed) := by
  unfold beginWait
  by_cases owns : state.owner target = some cur
  · obtain ⟨between, result, releases⟩ := PKunlockAllDepthLevels_spec consistent outside owns
    rw [result]
    exact Enters.wait call condition target timed between waits owns releases
  · rw [PKunlockAllDepthLevels_refused (checks_of_permitted allowed owns) owns]
    exact rfl

theorem enter_spec (consistent : Consistent config state pc) (outside : pc cur = .outside)
    (allowed : permitted config state cur call = true) :
    Ends (Enters config state pc cur call) (enter config state cur call) := by
  cases call with
  | lock target =>
    have acquires := attempt_acquires consistent outside target (state.depth target)
      (state.depth target + 1)
    rw [← lock_eq] at acquires
    simp only [enter]
    cases result : state.lock target cur with
    | error fault =>
      rw [result] at acquires
      cases acquires
      exact rfl
    | ok pair =>
      obtain ⟨after, got⟩ := pair
      rw [result] at acquires
      cases got with
      | true => exact Enters.lock target after acquires
      | false => exact Enters.lockBlocked target after acquires
  | tryLock target =>
    show Enters config state pc cur (.tryLock target) (state.tryLock target cur).1
      (.returns (.tried (state.tryLock target cur).2))
    rcases tryLock_spec consistent outside with ⟨got, acquires⟩ | failed
    · rw [got]
      exact Enters.tryLock target _ acquires
    · rw [failed]
      exact Enters.tryLockFailed target
  | unlock target =>
    simp only [enter]
    by_cases owns : state.owner target = some cur
    · obtain ⟨after, result, ⟨deep, owner, depth, frame, kept⟩ | ⟨shallow, releases⟩⟩ :=
        unlock_spec consistent outside owns
      · rw [result]
        exact Enters.unlockLevel target after owns deep owner depth frame kept
      · rw [result]
        exact Enters.unlock target after owns shallow releases
    · rw [unlock_refused (checks_of_permitted allowed owns) owns]
      exact rfl
  | wait | timedWait => exact beginWait_spec consistent outside rfl allowed
  | signal condition => exact Enters.signal condition
  | broadcast condition => exact Enters.broadcast condition
  | setPriority priority => exact Enters.setPriority priority

theorem update_outside (outside : pc cur = .outside) : update pc cur .outside = pc := by
  rw [← outside, update_eq_self]

theorem Acquires.consistent_of_got
    (acquires : Acquires config state pc cur target taken again (.ok (after, true))) :
    Consistent config after pc := by
  cases acquires with
  | took _ _ _ _ _ consistent | relocked _ _ _ _ _ _ consistent => exact consistent

theorem Acquires.consistent_of_blocked
    (acquires : Acquires config state pc cur target taken again (.ok (after, false))) {next : Pc}
    (blocks : next.blockedOn = some target) : Consistent config after (update pc cur next) := by
  cases acquires with
  | blocked _ _ _ _ _ _ _ consistent => exact consistent next blocks

/-- The first section of a call keeps the invariant. -/
theorem Enters.consistent (consistent : Consistent config state pc) (outside : pc cur = .outside)
    (enters : Enters config state pc cur call after outcome) :
    Consistent config after (update pc cur outcome.pc) := by
  cases enters with
  | lock _ _ acquires | tryLock _ _ acquires =>
    exact (update_outside outside).symm ▸ acquires.consistent_of_got
  | lockBlocked target _ acquires => exact acquires.consistent_of_blocked rfl
  | tryLockFailed target =>
    exact (update_outside outside).symm ▸ consistent
  | unlockLevel _ _ _ _ _ _ _ kept =>
    exact (update_outside outside).symm ▸ kept
  | unlock _ _ _ _ releases =>
    exact (update_outside outside).symm ▸ releases.consistent
  | wait _ condition target timed between waits owns releases =>
    refine releases.consistent.enterCondition outside ?_
    show between.owner target ≠ some cur
    rw [releases.owner, update_self]
    exact consistent.heir_ne (by rw [outside]; rfl)
  | signal condition =>
    exact (update_outside outside).symm ▸ consistent.signal outside condition
  | broadcast condition =>
    exact (update_outside outside).symm ▸ consistent.broadcast outside condition
  | setPriority priority =>
    exact (update_outside outside).symm ▸ consistent.setPriority outside priority

/-! ### The section of a thread that runs again -/

/-- The result of a wait on a condition variable. -/
def waitResult (timed removed : Bool) : Option TimedWaitResult :=
  if timed then some (if removed then TimedWaitResult.noTimeout else TimedWaitResult.timeout)
  else none

/-- What the section of a blocked thread that runs again does. -/
inductive Resumes (config : Config) (state : State threads) (pc : Fin threads → Pc)
    (cur : Fin threads) (removed : Bool) : State threads → Outcome → Prop where
  | locked (target : Lockable) (counter : pc cur = .lock target)
      (owns : state.owner target = some cur) :
      Resumes config state pc cur removed state (.returns .done)
  | lockBlocked (target : Lockable) (counter : pc cur = .lock target)
      (notOwner : state.owner target ≠ some cur) :
      Resumes config state pc cur removed (state.call (.restartKernelAndWait cur))
        (.blocks (.lock target))
  | took (condition : Nat) (target : Lockable) (depth : Nat) (timed : Bool)
      (after : State threads) (counter : pc cur = .waiting condition target depth timed)
      (unowned : state.owner target = none)
      (owner : after.owner = update state.owner target (some cur))
      (depthAfter : after.depth = update state.depth target
        (depthAfter (state.depth target) depth))
      (frame : Frame (ConditionVariable.PKremove state condition cur) after)
      (consistent : Consistent config after (update pc cur .outside)) :
      Resumes config state pc cur removed after (.returns (.ofResult (waitResult timed removed)))
  | blocked (condition : Nat) (target : Lockable) (depth : Nat) (timed : Bool)
      (after : State threads) (counter : pc cur = .waiting condition target depth timed)
      (notOwner : state.owner target ≠ some cur) (owner : after.owner = state.owner)
      (sameDepth : after.depth = state.depth)
      (frame : Frame (ConditionVariable.PKremove state condition cur) after)
      (consistent : Consistent config after
        (update pc cur (.lockToDepth target depth (waitResult timed removed)))) :
      Resumes config state pc cur removed after
        (.blocks (.lockToDepth target depth (waitResult timed removed)))
  | lockedToDepth (target : Lockable) (depth : Nat) (result : Option TimedWaitResult)
      (counter : pc cur = .lockToDepth target depth result)
      (owns : state.owner target = some cur) :
      Resumes config state pc cur removed (state.setDepth target depth)
        (.returns (.ofResult result))
  | lockToDepthBlocked (target : Lockable) (depth : Nat) (result : Option TimedWaitResult)
      (counter : pc cur = .lockToDepth target depth result)
      (notOwner : state.owner target ≠ some cur) :
      Resumes config state pc cur removed (state.call (.restartKernelAndWait cur))
        (.blocks (.lockToDepth target depth result))

theorem awaitOwnership_eq : state.awaitOwnership target cur =
      if state.owner target = some cur then (state, true)
      else (state.call (.restartKernelAndWait cur), false) := by
  cases target with
  | mutex | fastMutex => rfl

theorem setDepth_eq :
    state.setDepth target depth = state.setLockable target { state.lockable target with
      recursiveDepth := depthAfter (state.depth target) depth } := by
  cases target with
  | mutex | fastMutex => rfl

/-- A thread that leaves a condition variable does not own the mutex, so it either takes it
or waits for it. -/
theorem resume_waiting_spec (consistent : Consistent config state pc)
    (waiting : pc cur = .waiting condition target depth timed) :
    ∃ after outcome, resume state cur (.waiting condition target depth timed) removed =
        .ok (after, outcome) ∧ Resumes config state pc cur removed after outcome := by
  have acquires := attempt_acquires (consistent.leaveCondition waiting)
    (update_self cur .outside pc) target
    (depthAfter ((ConditionVariable.PKremove state condition cur).depth target) depth) depth
  have notOwner := consistent.released cur condition target depth timed waiting
  have sameOwner : (ConditionVariable.PKremove state condition cur).owner = state.owner :=
    owner_congr rfl rfl
  have sameDepth : (ConditionVariable.PKremove state condition cur).depth = state.depth :=
    depth_congr rfl rfl
  simp only [resume]
  rw [PKlockToDepth_eq]
  generalize (ConditionVariable.PKremove state condition cur).attempt target cur _ _ =
    result at acquires ⊢
  cases acquires with
  | took after unowned owner depthAfter frame kept =>
    exact ⟨after, _, rfl, .took condition target depth timed after waiting unowned owner depthAfter
      frame kept⟩
  | relocked | deadlock =>
    contradiction
  | blocked after holder owned other owner depthAfter frame kept =>
    refine ⟨after, _, rfl, .blocked condition target depth timed after waiting notOwner owner
      depthAfter frame ?_⟩
    have blocked := kept (.lockToDepth target depth (waitResult timed removed)) rfl
    rwa [update_idem] at blocked

/-- A blocked thread that runs again never fails. -/
theorem resume_spec (consistent : Consistent config state pc) (inside : pc cur ≠ .outside)
    : ∃ after outcome, resume state cur (pc cur) removed = .ok (after, outcome) ∧
      Resumes config state pc cur removed after outcome := by
  cases counter : pc cur with
  | outside => contradiction
  | lock target =>
    simp only [resume]
    rw [awaitOwnership_eq]
    by_cases owns : state.owner target = some cur
    · rw [if_pos owns]
      exact ⟨_, _, rfl, .locked target counter owns⟩
    · rw [if_neg owns]
      exact ⟨_, _, rfl, .lockBlocked target counter owns⟩
  | waiting condition target depth timed => exact resume_waiting_spec consistent counter
  | lockToDepth target depth result =>
    simp only [resume]
    rw [awaitOwnership_eq]
    by_cases owns : state.owner target = some cur
    · rw [if_pos owns]
      exact ⟨_, _, rfl, .lockedToDepth target depth result counter owns⟩
    · rw [if_neg owns]
      exact ⟨_, _, rfl, .lockToDepthBlocked target depth result counter owns⟩

/-- The section of a blocked thread that runs again keeps the invariant. -/
theorem Resumes.consistent (consistent : Consistent config state pc)
    (resumes : Resumes config state pc cur removed after outcome) :
    Consistent config after (update pc cur outcome.pc) := by
  cases resumes with
  | locked target counter owns => exact consistent.unblock (by rw [counter]; rfl) owns
  | lockBlocked target counter notOwner =>
    show Consistent config _ (update pc cur (.lock target))
    rw [← counter, update_eq_self]
    exact consistent.withCalls _
  | took _ _ _ _ _ _ _ _ _ _ kept | blocked _ _ _ _ _ _ _ _ _ _ kept => exact kept
  | lockedToDepth target depth result counter owns =>
    rw [setDepth_eq]
    exact (consistent.unblock (by rw [counter]; rfl) owns).setLockable target _ rfl rfl
  | lockToDepthBlocked target depth result counter notOwner =>
    show Consistent config _ (update pc cur (.lockToDepth target depth result))
    rw [← counter, update_eq_self]
    exact consistent.withCalls _

end Sections

end Miosix.Sync
