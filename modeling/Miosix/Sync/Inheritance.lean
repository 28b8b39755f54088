/-
This file proves what the priority inheritance code of `kernel/sync.cpp` keeps.

The invariant `Coherent` says three things of the data the pause kernel lock protects: the
locked lists and the owners agree, every waiting thread is queued once at the level of its
priority, and the priority of a thread is the greatest of its saved priority and of the
priorities of the threads that wait for it. The last one is split into an upper bound
(`inherits`) and a witness (`Attained`), since the code restores the two at different
moments.

A boost that travels along a chain of owners breaks exactly one instance of each half, at
the thread the loop stands on; `Propagating` is the invariant with that instance left out.
The loop ends because each round lifts one more thread to the priority being propagated,
also around a cycle of owners.
-/

import Miosix.Sync.Model

namespace Miosix.Sync

open Function LevelQueue

variable {threads : Nat} {config : Config} {id : Nat} {priority : Int} {thread : Fin threads}

/-! ### The invariant -/

/-- The priority of the thread is its saved one or that of a thread waiting for it. -/
def Attained (state : State threads) (thread : Fin threads) : Prop :=
  state.priority thread = state.savedPriority thread ∨
    ∃ waiter id, state.mutexWaiting waiter = some id ∧ (state.mutex id).owner = some thread ∧
      state.priority waiter = state.priority thread

section

variable (config : Config) (state : State threads)

/-- The part of the invariant that holds also while a boost is under way. -/
structure Linked : Prop where
  priorityValid : ∀ thread, 0 ≤ state.priority thread ∧
    state.priority thread < config.numPriorities
  savedValid : ∀ thread, 0 ≤ state.savedPriority thread ∧
    state.savedPriority thread < config.numPriorities
  savedLe : ∀ thread, state.savedPriority thread ≤ state.priority thread
  lockedIff : ∀ thread id, id ∈ state.mutexLocked thread ↔ (state.mutex id).owner = some thread
  lockedNodup : ∀ thread, (state.mutexLocked thread).Nodup
  ownedByOther : ∀ thread id, state.mutexWaiting thread = some id →
    ∃ owner, (state.mutex id).owner = some owner ∧ owner ≠ thread
  stamped : ∀ thread, state.enqueuedAt thread < state.clock
  ordered : ∀ id, Ordered (state.mutex id).waitQueue state.enqueuedAt

/-- The invariant between critical sections. -/
structure Coherent : Prop extends Linked config state where
  queued : ∀ id, Keyed (state.mutex id).waitQueue
    (fun thread => state.mutexWaiting thread = some id) state.priority
  inherits : ∀ owner waiter id, state.mutexWaiting waiter = some id →
    (state.mutex id).owner = some owner → state.priority waiter ≤ state.priority owner
  attained : ∀ thread, Attained state thread

/-- The invariant with the current thread marked as waiting and not yet queued. -/
structure Settled (cur : Fin threads) : Prop extends Linked config state where
  queued : ∀ id, Keyed (state.mutex id).waitQueue
    (fun thread => state.mutexWaiting thread = some id ∧ thread ≠ cur) state.priority
  inherits : ∀ owner waiter id, state.mutexWaiting waiter = some id →
    (state.mutex id).owner = some owner → state.priority waiter ≤ state.priority owner
  attained : ∀ thread, Attained state thread

/-- The invariant while the priority of the current thread travels along the owners and has
reached `walk`, which still has to be compared with it. -/
structure Propagating (cur : Fin threads)
    (priority : Int) (walk : Fin threads) : Prop extends Linked config state where
  queued : ∀ id, Keyed (state.mutex id).waitQueue
    (fun thread => state.mutexWaiting thread = some id ∧ thread ≠ cur) state.priority
  curPriority : state.priority cur = priority
  inherits : ∀ owner waiter id, state.mutexWaiting waiter = some id →
    (state.mutex id).owner = some owner →
      state.priority waiter ≤ state.priority owner ∨
        (owner = walk ∧ state.priority waiter ≤ priority)
  attained : ∀ thread, Attained state thread ∨ (thread = walk ∧ state.priority walk < priority)
  boosted : ∃ waiter id, state.mutexWaiting waiter = some id ∧
    (state.mutex id).owner = some walk ∧ state.priority waiter = priority

/-- What a chain of boosts leaves alone. Only priorities, queue positions and stamps of
threads that wait on a mutex may change. -/
structure SameLinks (before after : State threads) : Prop where
  savedPriority : after.savedPriority = before.savedPriority
  mutexLocked : after.mutexLocked = before.mutexLocked
  mutexWaiting : after.mutexWaiting = before.mutexWaiting
  owner : ∀ id, (after.mutex id).owner = (before.mutex id).owner
  recursiveDepth : ∀ id, (after.mutex id).recursiveDepth = (before.mutex id).recursiveDepth
  fastMutex : after.fastMutex = before.fastMutex
  condition : after.condition = before.condition
  clockLe : before.clock ≤ after.clock
  enqueuedAt : ∀ thread, before.mutexWaiting thread = none →
    after.enqueuedAt thread = before.enqueuedAt thread
  priorityLe : ∀ thread, before.priority thread ≤ after.priority thread

theorem SameLinks.refl : SameLinks state state :=
  ⟨rfl, rfl, rfl, fun _ => rfl, fun _ => rfl, rfl, rfl, le_rfl, fun _ _ => rfl, fun _ => le_rfl⟩

end

theorem SameLinks.trans {first second third : State threads} (before : SameLinks first second)
    (after : SameLinks second third) : SameLinks first third where
  savedPriority := after.savedPriority.trans before.savedPriority
  mutexLocked := after.mutexLocked.trans before.mutexLocked
  mutexWaiting := after.mutexWaiting.trans before.mutexWaiting
  owner id := (after.owner id).trans (before.owner id)
  recursiveDepth id := (after.recursiveDepth id).trans (before.recursiveDepth id)
  fastMutex := after.fastMutex.trans before.fastMutex
  condition := after.condition.trans before.condition
  clockLe := before.clockLe.trans after.clockLe
  enqueuedAt thread free := by
    rw [after.enqueuedAt thread (by rw [before.mutexWaiting]; exact free),
      before.enqueuedAt thread free]
  priorityLe thread := (before.priorityLe thread).trans (after.priorityLe thread)

/-- The fields that the invariant reads, but for the stamps. -/
structure SameInheritance (before after : State threads) : Prop where
  priority : after.priority = before.priority
  savedPriority : after.savedPriority = before.savedPriority
  mutexLocked : after.mutexLocked = before.mutexLocked
  mutexWaiting : after.mutexWaiting = before.mutexWaiting
  owner : ∀ id, (after.mutex id).owner = (before.mutex id).owner
  waitQueue : ∀ id, (after.mutex id).waitQueue = (before.mutex id).waitQueue

/-- The invariant reads only the stamps of the threads that wait on a mutex. -/
theorem Coherent.frame {before after : State threads}
    (coherent : Coherent config before) (same : SameInheritance before after)
    (stamped : ∀ thread, after.enqueuedAt thread < after.clock)
    (enqueuedAt : ∀ thread, before.mutexWaiting thread ≠ none →
      after.enqueuedAt thread = before.enqueuedAt thread) : Coherent config after where
  priorityValid := by rw [same.priority]; exact coherent.priorityValid
  savedValid := by rw [same.savedPriority]; exact coherent.savedValid
  savedLe := by rw [same.savedPriority, same.priority]; exact coherent.savedLe
  lockedIff := by simp only [same.mutexLocked, same.owner]; exact coherent.lockedIff
  lockedNodup := by rw [same.mutexLocked]; exact coherent.lockedNodup
  ownedByOther := by simp only [same.mutexWaiting, same.owner]; exact coherent.ownedByOther
  stamped := stamped
  ordered id := by
    rw [same.waitQueue]
    refine (coherent.ordered id).congr fun level thread listed => enqueuedAt thread ?_
    rw [(((coherent.queued id).mem_iff level thread).mp listed).1]
    exact Option.some_ne_none id
  queued id := by
    rw [same.waitQueue, same.mutexWaiting, same.priority]
    exact coherent.queued id
  inherits := by
    simp only [same.mutexWaiting, same.owner, same.priority]
    exact coherent.inherits
  attained := by
    simp only [Attained, same.mutexWaiting, same.owner, same.priority, same.savedPriority]
    exact coherent.attained

theorem Coherent.withCalls {state : State threads}
    (coherent : Coherent config state) (calls : List (SchedulerCall threads)) :
    Coherent config { state with calls := calls } :=
  coherent.frame ⟨rfl, rfl, rfl, rfl, fun _ => rfl, fun _ => rfl⟩ coherent.stamped fun _ _ => rfl

section Waiting

variable {state : State threads} {thread : Fin threads}

theorem ne_of_waiting {other : Fin threads} (free : state.mutexWaiting other = none)
    (waits : state.mutexWaiting thread = some id) : thread ≠ other := by
  rintro rfl
  cases waits.symm.trans free

theorem State.stamp_enqueuedAt_lt (state : State threads) {cur : Fin threads}
    (stamped : ∀ thread, state.enqueuedAt thread < state.clock) (thread : Fin threads) :
    (state.stamp cur).enqueuedAt thread < (state.stamp cur).clock := by
  show update state.enqueuedAt cur state.clock thread < state.clock + 1
  refine forall_update ?_ (fun thread _ => ?_)
  · omega
  · have := stamped thread
    omega

theorem le_update_priority (lower : state.priority thread < priority)
    (other : Fin threads) : state.priority other ≤ update state.priority thread priority other :=
  forall_update (le_of_lt lower) (fun _ _ => le_rfl)

theorem PKenqueue_owner (state : State threads) (id : Nat) (thread : Fin threads) (other : Nat) :
    ((Mutex.PKenqueue state id thread).mutex other).owner = (state.mutex other).owner := by
  exact part_update (by rfl) other

end Waiting

/-! ### One round of the boost -/

section

variable (state : State threads)
include state

theorem requeue_mutex : (Mutex.requeue state id thread priority).mutex =
      update state.mutex id { state.mutex id with
        waitQueue := push (remove (state.mutex id).waitQueue
          (state.priority thread) thread) priority thread } := by
  simp only [Mutex.requeue, Mutex.PKenqueue, Mutex.PKremove, State.setPriority, State.setMutex,
    State.stamp, State.call, update_self, update_idem]

section

variable (id other : Nat) (thread : Fin threads) (priority : Int)

theorem requeue_owner :
    ((Mutex.requeue state id thread priority).mutex other).owner = (state.mutex other).owner := by
  rw [requeue_mutex]
  exact part_update (by rfl) other

theorem requeue_recursiveDepth :
    ((Mutex.requeue state id thread priority).mutex other).recursiveDepth =
      (state.mutex other).recursiveDepth := by
  rw [requeue_mutex]
  exact part_update (by rfl) other

end

theorem requeue_sameLinks (waits : state.mutexWaiting thread = some id)
    (lower : state.priority thread < priority) :
    SameLinks state (Mutex.requeue state id thread priority) := { SameLinks.refl state with
  owner other := requeue_owner state id other thread priority
  recursiveDepth other := requeue_recursiveDepth state id other thread priority
  clockLe := Nat.le_succ _
  enqueuedAt _ free := update_of_ne (ne_of_waiting free waits).symm _ _
  priorityLe := le_update_priority lower }

end

variable {config : Config} {state : State threads} {cur walk : Fin threads} {priority : Int}
  {id : Nat} {owner : Fin threads}

section

variable (propagating : Propagating config state cur priority walk)

include propagating

theorem Propagating.priorityValid_update (thread : Fin threads) :
    0 ≤ update state.priority walk priority thread ∧
      update state.priority walk priority thread < config.numPriorities := by
  refine forall_update ?_ (fun thread _ => propagating.priorityValid thread)
  rw [← propagating.curPriority]
  exact propagating.priorityValid cur

section

variable (waits : state.mutexWaiting walk = some id) (lower : state.priority walk < priority)

include waits lower

/-- Requeuing moves the thread to its new level and leaves every other queue as it is. -/
theorem requeue_queued (other : Nat) :
    Keyed ((Mutex.requeue state id walk priority).mutex other).waitQueue
      (fun thread => state.mutexWaiting thread = some other ∧ thread ≠ cur)
      (update state.priority walk priority) := by
  rw [requeue_mutex]
  refine forall_update ?_ (fun other same => ?_)
  · have removed := (propagating.queued id).remove walk
    have rekeyed : Keyed
        (remove (state.mutex id).waitQueue (state.priority walk) walk)
        (fun thread => (state.mutexWaiting thread = some id ∧ thread ≠ cur) ∧ thread ≠ walk)
        (update state.priority walk priority) :=
      removed.congr (fun _ => Iff.rfl) fun thread member => update_of_ne member.2 _ _
    have pushed := rekeyed.push walk (fun member => member.2 rfl)
    rw [update_self] at pushed
    have notCur : walk ≠ cur := fun same => by
      rw [same, propagating.curPriority] at lower
      omega
    refine pushed.congr (fun thread => ?_) fun _ _ => rfl
    by_cases isWalk : thread = walk
    · subst isWalk
      simp [waits, notCur]
    · simp [isWalk]
  · refine (propagating.queued other).congr (fun _ => Iff.rfl) fun thread member => ?_
    refine update_of_ne (fun isWalk => same ?_) _ _
    rw [isWalk, waits] at member
    exact (Option.some_inj.mp member.1).symm

theorem requeue_linked : Linked config (Mutex.requeue state id walk priority) := { propagating with
  priorityValid := propagating.priorityValid_update
  savedLe thread := (propagating.savedLe thread).trans (le_update_priority lower thread)
  lockedIff thread other := by
    rw [requeue_owner]
    exact propagating.lockedIff thread other
  ownedByOther thread other waiting := by
    rw [requeue_owner]
    exact propagating.ownedByOther thread other waiting
  stamped := state.stamp_enqueuedAt_lt propagating.stamped
  ordered other := by
    rw [requeue_mutex]
    refine forall_update ?_ (fun other same => ?_)
    · have keyed := (propagating.queued id).remove walk
      have unstamped : Ordered
          (remove (state.mutex id).waitQueue (state.priority walk) walk)
          (update state.enqueuedAt walk state.clock) := by
        refine ((propagating.ordered id).remove (state.priority walk) walk).congr
          fun level thread listed => ?_
        exact update_of_ne ((keyed.mem_iff level thread).mp listed).1.2 _ _
      refine unstamped.push priority walk fun thread listed => ?_
      rw [update_of_ne ((keyed.mem_iff priority thread).mp listed).1.2, update_self]
      exact propagating.stamped thread
    · refine (propagating.ordered other).congr fun level thread listed => ?_
      refine update_of_ne (fun isWalk => same ?_) _ _
      have member := (((propagating.queued other).mem_iff level thread).mp listed).1.1
      rw [isWalk, waits] at member
      exact (Option.some_inj.mp member).symm }

end

/-- Lifting the thread the loop stands on keeps every witness, except that of the owner it
waits for. -/
theorem attained_update (lower : state.priority walk < priority)
    (notBehind : ∀ id, state.mutexWaiting walk = some id → (state.mutex id).owner ≠ some thread) :
    update state.priority walk priority thread = state.savedPriority thread ∨
      ∃ waiter id, state.mutexWaiting waiter = some id ∧ (state.mutex id).owner = some thread ∧
        update state.priority walk priority waiter =
          update state.priority walk priority thread := by
  by_cases isWalk : thread = walk
  · subst isWalk
    obtain ⟨waiter, id, waits, owns, equal⟩ := propagating.boosted
    refine Or.inr ⟨waiter, id, waits, owns, ?_⟩
    have different : waiter ≠ thread := fun same => by
      rw [same] at equal
      omega
    rw [update_of_ne different, update_self, equal]
  · rw [update_of_ne isWalk]
    rcases propagating.attained thread with (saved | ⟨waiter, id, waits, owns, equal⟩) | ⟨same, _⟩
    · exact Or.inl saved
    · refine Or.inr ⟨waiter, id, waits, owns, ?_⟩
      have different : waiter ≠ walk := fun same => notBehind id (same ▸ waits) owns
      rw [update_of_ne different]
      exact equal
    · contradiction

/-- After one round the loop stands on the owner of the mutex the lifted thread waits for. -/
theorem requeue_propagating
    (waits : state.mutexWaiting walk = some id) (lower : state.priority walk < priority)
    {next : Fin threads} (owns : (state.mutex id).owner = some next) :
    Propagating config (Mutex.requeue state id walk priority) cur priority next where
  toLinked := requeue_linked propagating waits lower
  queued := requeue_queued propagating waits lower
  curPriority := by
    show update state.priority walk priority cur = priority
    have notCur : cur ≠ walk := fun same => by
      rw [← same, propagating.curPriority] at lower
      omega
    rw [update_of_ne notCur]
    exact propagating.curPriority
  inherits owner waiter other waiting owned := by
    show update state.priority walk priority waiter ≤
      update state.priority walk priority owner ∨ _ ∧
        update state.priority walk priority waiter ≤ priority
    rw [requeue_owner] at owned
    by_cases isWalk : waiter = walk
    · subst isWalk
      cases waiting.symm.trans waits
      cases owned.symm.trans owns
      rw [update_self]
      exact Or.inr ⟨rfl, le_rfl⟩
    · rw [update_of_ne isWalk]
      by_cases ownerIsWalk : owner = walk
      · subst ownerIsWalk
        rw [update_self]
        rcases propagating.inherits owner waiter other waiting owned with below | ⟨_, below⟩
        · exact Or.inl (by omega)
        · exact Or.inl below
      · rw [update_of_ne ownerIsWalk]
        rcases propagating.inherits owner waiter other waiting owned with below | ⟨same, _⟩
        · exact Or.inl below
        · contradiction
  attained thread := by
    show (update state.priority walk priority thread = state.savedPriority thread ∨
      ∃ waiter id', state.mutexWaiting waiter = some id' ∧
        ((Mutex.requeue state id walk priority).mutex id').owner = some thread ∧
        update state.priority walk priority waiter = update state.priority walk priority thread) ∨
      (thread = next ∧ update state.priority walk priority next < priority)
    simp only [requeue_owner]
    by_cases behind : thread = next
    · subst behind
      by_cases raised : update state.priority walk priority thread < priority
      · exact Or.inr ⟨rfl, raised⟩
      · refine Or.inl ?_
        by_cases isWalk : thread = walk
        · obtain ⟨other, owned, different⟩ := propagating.ownedByOther walk id waits
          cases owned.symm.trans owns
          contradiction
        · rw [update_of_ne isWalk] at raised ⊢
          rcases propagating.attained thread with
            (saved | ⟨waiter, other, waiting, owned, equal⟩) | ⟨same, _⟩
          · exact Or.inl saved
          · refine Or.inr ⟨waiter, other, waiting, owned, ?_⟩
            have different : waiter ≠ walk := fun same => by
              rw [same] at equal
              omega
            rw [update_of_ne different]
            exact equal
          · contradiction
    · refine Or.inl (attained_update propagating lower fun other waiting owned => ?_)
      cases waiting.symm.trans waits
      exact behind (Option.some_inj.mp (owned.symm.trans owns))
  boosted := by
    refine ⟨walk, id, waits, ?_, update_self _ _ _⟩
    rw [requeue_owner]
    exact owns

end

/-! ### The whole boost -/

/-- The threads a boost has still to lift. -/
def below (state : State threads) (priority : Int) : Finset (Fin threads) :=
  Finset.univ.filter fun thread => state.priority thread < priority

theorem below_update_card_lt (state : State threads) (priority : Int) (walk : Fin threads)
    (lower : state.priority walk < priority) (after : State threads)
    (updated : after.priority = update state.priority walk priority) :
    (below after priority).card < (below state priority).card := by
  refine Finset.card_lt_card (Finset.ssubset_iff_of_subset ?_ |>.mpr ⟨walk, ?_, ?_⟩)
  · intro thread member
    simp only [below, Finset.mem_filter, Finset.mem_univ, true_and, updated] at member ⊢
    by_cases same : thread = walk
    · exact same ▸ lower
    · rwa [update_of_ne same] at member
  · simpa [below] using lower
  · simp [below, updated]

/-- The loop may stop where the priority no longer has to be raised. -/
theorem Propagating.settled (propagating : Propagating config state cur priority walk)
    (reached : ¬ state.priority walk < priority) : Settled config state cur := { propagating with
  inherits owner waiter id waits owns := by
    rcases propagating.inherits owner waiter id waits owns with below | ⟨same, below⟩
    · exact below
    · rw [same]
      omega
  attained thread := by
    rcases propagating.attained thread with attained | ⟨_, lower⟩
    · exact attained
    · exact absurd lower reached }

/-- The loop may stop after lifting a thread that waits on no mutex. -/
theorem Propagating.setPriority_settled (propagating : Propagating config state cur priority walk)
    (lower : state.priority walk < priority) (free : state.mutexWaiting walk = none) :
    Settled config (state.setPriority walk priority) cur := { propagating with
  priorityValid := propagating.priorityValid_update
  savedLe thread := (propagating.savedLe thread).trans (le_update_priority lower thread)
  queued id := by
    refine (propagating.queued id).congr (fun _ => Iff.rfl) fun thread member => ?_
    exact update_of_ne (ne_of_waiting free member.1) _ _
  inherits owner waiter id waits owns := by
    show update state.priority walk priority waiter ≤ update state.priority walk priority owner
    rw [update_of_ne (ne_of_waiting free waits)]
    by_cases isWalk : owner = walk
    · subst isWalk
      rw [update_self]
      rcases propagating.inherits owner waiter id waits owns with below | ⟨_, below⟩ <;> omega
    · rw [update_of_ne isWalk]
      rcases propagating.inherits owner waiter id waits owns with below | ⟨same, _⟩
      · exact below
      · contradiction
  attained thread := attained_update propagating lower fun id waits => by
    rw [free] at waits
    cases waits }

theorem setPriority_sameLinks (state : State threads) (priority : Int)
    (lower : state.priority thread < priority) :
    SameLinks state (state.setPriority thread priority) := { SameLinks.refl state with
  priorityLe := le_update_priority lower }

/-- The loop ends, also when the owners wait for each other in a cycle, and settles the
invariant. -/
theorem inheritLoop_settles {fuel : Nat} (walk : Fin threads) (state : State threads)
    (propagating : Propagating config state cur priority walk)
    (enough : (below state priority).card < fuel) :
    ∃ final, Mutex.inheritLoop priority fuel walk state = .ok final ∧
      Settled config final cur ∧ SameLinks state final ∧ final.priority cur = priority := by
  induction fuel generalizing walk state with
  | zero => contradiction
  | succ fuel inductionHypothesis =>
    rw [Mutex.inheritLoop]
    split
    · rename_i lower
      split
      · rename_i free
        refine ⟨_, rfl, propagating.setPriority_settled lower free,
          setPriority_sameLinks state priority lower, ?_⟩
        show update state.priority walk priority cur = priority
        by_cases same : cur = walk
        · rw [same, update_self]
        · rw [update_of_ne same]
          exact propagating.curPriority
      · rename_i id waits
        obtain ⟨next, owns, _⟩ := propagating.ownedByOther walk id waits
        have stepped := requeue_propagating propagating waits lower owns
        have fewer := below_update_card_lt state priority walk lower
          (Mutex.requeue state id walk priority) rfl
        obtain ⟨final, ended, settled, same, kept⟩ := inductionHypothesis next _ stepped (by omega)
        refine ⟨final, ?_, settled, (requeue_sameLinks state waits lower).trans same, kept⟩
        simp only [requeue_owner, owns]
        exact ended
    · rename_i reached
      exact ⟨state, rfl, propagating.settled reached, .refl state, propagating.curPriority⟩

/-! ### Waiting for a mutex -/

/-- Marking the current thread as waiting starts the propagation at the owner. -/
theorem Coherent.setMutexWaiting_propagating (coherent : Coherent config state)
    (free : state.mutexWaiting cur = none)
    (owns : (state.mutex id).owner = some owner) (other : owner ≠ cur) :
    Propagating config (state.setMutexWaiting cur (some id)) cur (state.priority cur) owner := {
  coherent with
  ownedByOther thread target waits := by
    replace waits : update state.mutexWaiting cur (some id) thread = some target := waits
    by_cases same : thread = cur
    · subst same
      rw [update_self, Option.some_inj] at waits
      exact ⟨owner, waits ▸ owns, other⟩
    · rw [update_of_ne same] at waits
      exact coherent.ownedByOther thread target waits
  queued target := by
    refine (coherent.queued target).congr (fun thread => ?_) fun _ _ => rfl
    show update state.mutexWaiting cur (some id) thread = some target ∧ thread ≠ cur ↔ _
    by_cases same : thread = cur
    · subst same
      simp [free]
    · simp [same]
  curPriority := rfl
  inherits holder waiter target waits holds := by
    replace waits : update state.mutexWaiting cur (some id) waiter = some target := waits
    by_cases same : waiter = cur
    · subst same
      rw [update_self, Option.some_inj] at waits
      subst waits
      exact Or.inr ⟨Option.some_inj.mp (holds.symm.trans owns), le_rfl⟩
    · rw [update_of_ne same] at waits
      exact Or.inl (coherent.inherits holder waiter target waits holds)
  attained thread := by
    refine Or.inl ?_
    rcases coherent.attained thread with saved | ⟨waiter, target, waits, holds, equal⟩
    · exact Or.inl saved
    · exact Or.inr ⟨waiter, target, (update_of_ne (ne_of_waiting free waits) _ _).trans waits,
        holds, equal⟩
  boosted := ⟨cur, id, update_self _ _ _, owns, rfl⟩ }

/-- Queuing the current thread completes the invariant. -/
theorem Settled.enqueue_coherent (settled : Settled config state cur)
    (waits : state.mutexWaiting cur = some id) :
    Coherent config (Mutex.PKenqueue state id cur) := by
  have owner := PKenqueue_owner state id cur
  have absent (other : Nat) (level : Int) : cur ∉ (state.mutex other).waitQueue level :=
    fun listed => (((settled.queued other).mem_iff level cur).mp listed).1.2 rfl
  refine
    { settled with
      lockedIff := fun thread other => ?_
      ownedByOther := fun thread other waiting => ?_
      stamped := state.stamp_enqueuedAt_lt settled.stamped
      ordered := fun other => ?_
      queued := fun other => ?_
      inherits := fun holder waiter other waiting holds => ?_
      attained := fun thread => ?_ }
  · rw [owner]
    exact settled.lockedIff thread other
  · rw [owner]
    exact settled.ownedByOther thread other waiting
  · have restamped (target : Nat) : Ordered (state.mutex target).waitQueue
        (update state.enqueuedAt cur state.clock) := by
      refine (settled.ordered target).congr fun level thread listed => ?_
      exact update_of_ne (fun same : thread = cur => absent target level (same ▸ listed)) _ _
    show Ordered (update state.mutex id _ other).waitQueue
      (update state.enqueuedAt cur state.clock)
    refine forall_update ?_ (fun other _ => ?_)
    · refine (restamped id).push _ cur fun thread listed => ?_
      rw [update_of_ne (fun same : thread = cur => absent id _ (same ▸ listed)), update_self]
      exact settled.stamped thread
    · exact restamped other
  · show Keyed (update state.mutex id _ other).waitQueue _ state.priority
    refine forall_update ?_ (fun other same => ?_)
    · refine ((settled.queued id).push cur (fun member => member.2 rfl)).congr (fun thread => ?_)
        fun _ _ => rfl
      show state.mutexWaiting thread = some id ↔ _
      by_cases isCur : thread = cur
      · subst isCur
        simp [waits]
      · simp [isCur]
    · refine (settled.queued other).congr (fun thread => ?_) fun _ _ => rfl
      refine ⟨fun waiting => ⟨waiting, fun isCur => same ?_⟩, fun member => member.1⟩
      have waitsOther : state.mutexWaiting cur = some other := isCur ▸ waiting
      exact Option.some_inj.mp (waitsOther.symm.trans waits)
  · rw [owner] at holds
    exact settled.inherits holder waiter other waiting holds
  · rcases settled.attained thread with saved | ⟨waiter, other, waiting, holds, equal⟩
    · exact Or.inl saved
    · exact Or.inr ⟨waiter, other, waiting, by rw [owner]; exact holds, equal⟩

/-- The part of `lock` that waits never fails: it boosts the owners, queues the current
thread and ends waiting. -/
theorem waitForOwner_spec (coherent : Coherent config state)
    (free : state.mutexWaiting cur = none) (owns : (state.mutex id).owner = some owner)
    (other : owner ≠ cur) : ∃ boosted, SameLinks (state.setMutexWaiting cur (some id)) boosted ∧
      Mutex.waitForOwner state id cur =
        .ok ((Mutex.PKenqueue boosted id cur).call (.restartKernelAndWait cur), false) ∧
      Coherent config ((Mutex.PKenqueue boosted id cur).call (.restartKernelAndWait cur)) := by
  have propagating := coherent.setMutexWaiting_propagating free owns other
  have few : (below (state.setMutexWaiting cur (some id)) (state.priority cur)).card <
      threads + 1 := by
    have bound := Finset.card_le_univ
      (below (state.setMutexWaiting cur (some id)) (state.priority cur))
    rw [Fintype.card_fin] at bound
    omega
  obtain ⟨boosted, ended, settled, same, _⟩ := inheritLoop_settles _ _ propagating few
  have waits : boosted.mutexWaiting cur = some id := by
    rw [same.mutexWaiting]
    exact update_self _ _ _
  have ownsAfter : ((Mutex.PKenqueue boosted id cur).mutex id).owner = some owner :=
    (PKenqueue_owner boosted id cur id).trans ((same.owner id).trans owns)
  refine ⟨boosted, same, ?_, (settled.enqueue_coherent waits).withCalls _⟩
  have towards : Mutex.inheritPriorityTowardsMutexOwner (state.setMutexWaiting cur (some id)) id
      (state.priority cur) = .ok boosted := by
    unfold Mutex.inheritPriorityTowardsMutexOwner
    rw [show ((state.setMutexWaiting cur (some id)).mutex id).owner = some owner from owns]
    exact ended
  have notCur : ((Mutex.PKenqueue boosted id cur).mutex id).owner ≠ some cur := by
    rw [ownsAfter]
    exact fun same => other (Option.some_inj.mp same)
  unfold Mutex.waitForOwner
  rw [if_neg (by simp [free]), towards]
  simp only [Mutex.awaitOwnership, if_neg notCur]

end Miosix.Sync
