/-
This file proves what happens when a priority goes down again: releasing a mutex and
`Thread::setPriority`.

Both recompute the priority of the current thread as a maximum over the mutexes it still
owns (`Greatest`). A release also hands the mutex to the first thread of its wait queue.
The threads left in that queue need no recomputation, since the new owner came first
because its priority is the highest.
-/

import Miosix.Sync.Inheritance

namespace Miosix.Sync

open Function LevelQueue List

variable {threads : Nat}

/-! ### The recomputed priority -/

/-- `result` is the greatest of `base` and of the priorities of the threads that wait on one
of the mutexes. -/
structure Greatest (state : State threads) (ids : List Nat) (base result : Int) : Prop where
  baseLe : base ≤ result
  waiterLe : ∀ waiter, ∀ id ∈ ids, state.mutexWaiting waiter = some id →
    state.priority waiter ≤ result
  attained : result = base ∨ ∃ waiter, ∃ id ∈ ids, state.mutexWaiting waiter = some id ∧
    state.priority waiter = result

variable {config : Config} {state : State threads} {id : Nat} {base result : Int}
  {owner : Fin threads} {cur : Fin threads} {thread : Fin threads} {other : Nat} {priority : Int}
  {requests : List (SchedulerCall threads)}

theorem inheritFrom_greatest (coherent : Coherent config state) (base : Int) (id : Nat) :
    Greatest state [id] base (Mutex.inheritFrom config state base id) := by
  have queued := coherent.queued id
  have valid (other : Fin threads) (_ : state.mutexWaiting other = some id) :=
    coherent.priorityValid other
  unfold Mutex.inheritFrom
  split
  · rename_i none
    refine ⟨le_rfl, fun waiter target listed waits => ?_, Or.inl rfl⟩
    rw [mem_singleton.mp listed] at waits
    exact absurd waits (queued.not_member_of_front_eq_none none valid waiter)
  · rename_i first found
    obtain ⟨waits, greatest⟩ := queued.front_greatest found valid
    have bounded (value : Int) (above : state.priority first ≤ value) (waiter : Fin threads)
        (target : Nat) (listed : target ∈ [id])
        (waiting : state.mutexWaiting waiter = some target) :
        state.priority waiter ≤ value := by
      rw [mem_singleton.mp listed] at waiting
      exact (greatest waiter waiting).trans above
    split
    · exact ⟨by omega, bounded _ le_rfl, Or.inr ⟨first, id, mem_singleton_self id, waits, rfl⟩⟩
    · exact ⟨le_rfl, bounded _ (by omega), Or.inl rfl⟩

theorem Greatest.append {first second : List Nat} {middle : Int}
    (before : Greatest state first base middle) (after : Greatest state second middle result) :
    Greatest state (first ++ second) base result where
  baseLe := before.baseLe.trans after.baseLe
  waiterLe waiter id listed waits := by
    rcases mem_append.mp listed with inFirst | inSecond
    · exact (before.waiterLe waiter id inFirst waits).trans after.baseLe
    · exact after.waiterLe waiter id inSecond waits
  attained := by
    rcases after.attained with same | ⟨waiter, id, listed, waits, equal⟩
    · rcases before.attained with start | ⟨waiter, id, listed, waits, equal⟩
      · exact Or.inl (same.trans start)
      · exact Or.inr ⟨waiter, id, mem_append_left _ listed, waits, equal.trans same.symm⟩
    · exact Or.inr ⟨waiter, id, mem_append_right _ listed, waits, equal⟩

/-- The walk over the locked list computes the maximum. -/
theorem foldl_inheritFrom_greatest (coherent : Coherent config state) (ids : List Nat)
    (base : Int) : Greatest state ids base (ids.foldl (Mutex.inheritFrom config state) base) := by
  induction ids generalizing base with
  | nil =>
    exact ⟨le_rfl, nofun, Or.inl rfl⟩
  | cons id ids inductionHypothesis =>
    exact (inheritFrom_greatest coherent base id).append (inductionHypothesis _)

/-- The maximum lies in the range of valid priorities. -/
theorem Greatest.valid (coherent : Coherent config state) {ids : List Nat}
    (greatest : Greatest state ids base result) (low : 0 ≤ base)
    (high : base < config.numPriorities) : 0 ≤ result ∧ result < config.numPriorities := by
  rcases greatest.attained with same | ⟨waiter, id, _, _, equal⟩
  · rw [same]
    exact ⟨low, high⟩
  · rw [← equal]
    exact coherent.priorityValid waiter

/-! ### Releasing a mutex -/

theorem removeFromLockedList_of_mem
    (listed : id ∈ state.mutexLocked thread) : Mutex.removeFromLockedList state id thread =
      .ok (state.setMutexLocked thread ((state.mutexLocked thread).erase id)) := by
  unfold Mutex.removeFromLockedList
  split
  · rename_i empty
    rw [empty] at listed
    contradiction
  · rename_i first rest split
    rw [split] at listed ⊢
    by_cases same : first = id
    · subst same
      rw [if_pos rfl, erase_cons_head]
    · have inRest : id ∈ rest := by
        rcases mem_cons.mp listed with equal | later
        · exact absurd equal.symm same
        · exact later
      rw [if_neg same, if_pos inRest, erase_cons_tail (by simpa using same)]

/-- The state after `deInheritPriority`: the mutex is off the owner's list, and the owner has
the recomputed priority. -/
def lowered (state : State threads) (id : Nat) (owner : Fin threads) (priority : Int)
    (requests : List (SchedulerCall threads)) : State threads :=
  { state with
    mutexLocked := update state.mutexLocked owner ((state.mutexLocked owner).erase id)
    priority := update state.priority owner priority
    calls := state.calls ++ requests }

/-- `deInheritPriority` lowers the owner to the maximum over the mutexes it keeps, and tells
the scheduler only when that is a change. -/
theorem deInheritPriority_spec (coherent : Coherent config state)
    (owns : (state.mutex id).owner = some owner) : ∃ priority requests,
      Mutex.deInheritPriority config state id owner =
          .ok (lowered state id owner priority requests) ∧
        Greatest state ((state.mutexLocked owner).erase id) (state.savedPriority owner) priority ∧
        ((requests = [] ∧ priority = state.priority owner) ∨
          (requests = [.setPriority owner priority] ∧ priority ≠ state.priority owner)) := by
  have listed : id ∈ state.mutexLocked owner := (coherent.lockedIff owner id).mpr owns
  have greatest := foldl_inheritFrom_greatest coherent ((state.mutexLocked owner).erase id)
    (state.savedPriority owner)
  generalize computed : ((state.mutexLocked owner).erase id).foldl
    (Mutex.inheritFrom config state) (state.savedPriority owner) = priority at greatest
  have chosen : (if (state.setMutexLocked owner
          ((state.mutexLocked owner).erase id)).mutexLocked owner = [] then
        state.savedPriority owner
      else Mutex.inheritPriorityFromLockedList config
        (state.setMutexLocked owner ((state.mutexLocked owner).erase id)) owner
        (state.savedPriority owner)) = priority := by
    have kept : (state.setMutexLocked owner
        ((state.mutexLocked owner).erase id)).mutexLocked owner =
        (state.mutexLocked owner).erase id := update_self _ _ _
    rw [kept]
    split
    · rename_i empty
      rw [empty] at computed
      exact computed
    · unfold Mutex.inheritPriorityFromLockedList
      rw [kept]
      exact computed
  unfold Mutex.deInheritPriority
  rw [removeFromLockedList_of_mem listed]
  by_cases same : priority = state.priority owner
  · refine ⟨priority, [], ?_, greatest, Or.inl ⟨rfl, same⟩⟩
    simp only [lowered, append_nil]
    rw [if_neg (by rw [not_not]; exact chosen.trans same), same, update_eq_self]
    rfl
  · refine ⟨priority, [.setPriority owner priority], ?_, greatest, Or.inr ⟨rfl, same⟩⟩
    show (if _ ≠ state.priority owner then _ else _) = _
    rw [if_pos (by rw [ne_eq]; exact fun equal => same (chosen.symm.trans equal))]
    exact congrArg (fun value => Except.ok (((state.setMutexLocked owner
      ((state.mutexLocked owner).erase id)).setPriority owner value))) chosen

section

variable (coherent : Coherent config state)
include coherent

section

variable (greatest : Greatest state ((state.mutexLocked owner).erase id) (state.savedPriority owner)
  priority)
include greatest

theorem lowered_priorityValid (thread : Fin threads) :
    0 ≤ update state.priority owner priority thread ∧
      update state.priority owner priority thread < config.numPriorities := by
  refine forall_update ?_ (fun thread _ => ?_)
  · exact greatest.valid coherent (coherent.savedValid owner).1 (coherent.savedValid owner).2
  · exact coherent.priorityValid thread

theorem lowered_savedLe (thread : Fin threads) :
    state.savedPriority thread ≤ update state.priority owner priority thread := by
  exact forall_update greatest.baseLe (fun thread _ => coherent.savedLe thread)

/-- A mutex other than the released one is still inherited from. -/
theorem lowered_inherits (free : state.mutexWaiting owner = none)
    {holder waiter : Fin threads} (different : other ≠ id)
    (waits : state.mutexWaiting waiter = some other)
    (holds : (state.mutex other).owner = some holder) :
    update state.priority owner priority waiter ≤ update state.priority owner priority holder := by
  rw [update_of_ne (ne_of_waiting free waits)]
  by_cases isOwner : holder = owner
  · subst isOwner
    rw [update_self]
    refine greatest.waiterLe waiter other ?_ waits
    exact (mem_erase_of_ne different).mpr ((coherent.lockedIff holder other).mpr holds)
  · rw [update_of_ne isOwner]
    exact coherent.inherits holder waiter other waits holds

/-- A thread's priority is still attained, through a mutex other than the released one. -/
theorem lowered_attained
    (free : state.mutexWaiting owner = none) (owns : (state.mutex id).owner = some owner) :
    update state.priority owner priority thread = state.savedPriority thread ∨
      ∃ waiter other, other ≠ id ∧ state.mutexWaiting waiter = some other ∧
        (state.mutex other).owner = some thread ∧
        update state.priority owner priority waiter =
          update state.priority owner priority thread := by
  refine forall_update ?_ (fun thread isOwner => ?_)
  · rcases greatest.attained with same | ⟨waiter, other, listed, waits, equal⟩
    · exact Or.inl same
    · obtain ⟨different, kept⟩ := ((coherent.lockedNodup owner).mem_erase_iff).mp listed
      refine Or.inr ⟨waiter, other, different, waits, (coherent.lockedIff owner other).mp kept, ?_⟩
      rw [update_of_ne (ne_of_waiting free waits)]
      exact equal
  · rcases coherent.attained thread with same | ⟨waiter, other, waits, holds, equal⟩
    · exact Or.inl same
    · refine Or.inr ⟨waiter, other, fun same => isOwner ?_, waits, holds, ?_⟩
      · rw [same, owns, Option.some_inj] at holds
        exact holds.symm
      · rw [update_of_ne (ne_of_waiting free waits)]
        exact equal

end

theorem lowered_locked (owns : (state.mutex id).owner = some owner) :
    other ∈ update state.mutexLocked owner ((state.mutexLocked owner).erase id) thread ↔
      other ≠ id ∧ (state.mutex other).owner = some thread := by
  refine forall_update ?_ (fun thread isOwner => ?_)
  · rw [(coherent.lockedNodup owner).mem_erase_iff, coherent.lockedIff]
  · rw [coherent.lockedIff]
    refine ⟨fun holds => ⟨fun same => isOwner ?_, holds⟩, fun both => both.2⟩
    rw [same, owns, Option.some_inj] at holds
    exact holds.symm

theorem lowered_lockedNodup (thread : Fin threads) :
    (update state.mutexLocked owner ((state.mutexLocked owner).erase id) thread).Nodup := by
  exact forall_update ((coherent.lockedNodup owner).erase id)
    (fun thread _ => coherent.lockedNodup thread)

end

/-- The state after a mutex is handed to the next owner. -/
def handedOver (config : Config) (state : State threads) (id : Nat) (next : Fin threads) :
    State threads :=
  Mutex.addToLockedList ((((state.setMutex id { state.mutex id with
    owner := some next
    waitQueue := dequeue (state.mutex id).waitQueue config.numPriorities }).call
    (.wakeup next)).setMutexWaiting next none)) id next

/-- The state after a release: the mutex goes to the first thread of its wait queue, or to
nobody. -/
def afterRelease (config : Config) (state : State threads) (id : Nat) (owner : Fin threads)
    (priority : Int) (requests : List (SchedulerCall threads)) : State threads :=
  match front (state.mutex id).waitQueue config.numPriorities with
  | none => (lowered state id owner priority requests).setMutex id
      { state.mutex id with owner := none }
  | some next => handedOver config (lowered state id owner priority requests) id next

theorem chooseNextOwner_lowered (coherent : Coherent config state) :
    Mutex.chooseNextOwner config (lowered state id owner priority requests) id =
      .ok (afterRelease config state id owner priority requests) := by
  unfold Mutex.chooseNextOwner afterRelease
  show (match front (state.mutex id).waitQueue config.numPriorities with
    | none => _
    | some next => _) = _
  cases first : front (state.mutex id).waitQueue config.numPriorities with
  | none => rfl
  | some next =>
    obtain ⟨waits, -⟩ := (coherent.queued id).front_greatest first
      fun other _ => coherent.priorityValid other
    show (if state.mutexWaiting next ≠ some id then _ else _) = _
    rw [if_neg (not_not.mpr waits)]
    rfl

theorem afterRelease_waiting_iff :
    (afterRelease config state id owner priority requests).mutexWaiting thread = some other ↔
      state.mutexWaiting thread = some other ∧
        front (state.mutex id).waitQueue config.numPriorities ≠ some thread := by
  unfold afterRelease
  cases front (state.mutex id).waitQueue config.numPriorities with
  | none => exact (and_iff_left (Option.some_ne_none thread).symm).symm
  | some next =>
    show update state.mutexWaiting next none thread = some other ↔ _
    by_cases same : thread = next
    · subst same
      simp
    · simp [same, Ne.symm same]

theorem afterRelease_mutex : (afterRelease config state id owner priority requests).mutex =
    update state.mutex id { state.mutex id with
      owner := front (state.mutex id).waitQueue config.numPriorities
      waitQueue := dequeue (state.mutex id).waitQueue config.numPriorities } := by
  unfold afterRelease
  cases first : front (state.mutex id).waitQueue config.numPriorities with
  | none =>
    rw [dequeue_eq_self first]
    rfl
  | some next => rfl

/-- The owner after a release is the first thread of the wait queue. -/
theorem afterRelease_owner : ((afterRelease config state id owner priority requests).mutex
      other).owner = if other = id then front (state.mutex id).waitQueue config.numPriorities
      else (state.mutex other).owner := by
  rw [afterRelease_mutex]
  refine forall_update ?_ (fun other same => ?_)
  · rw [if_pos rfl]
  · rw [if_neg same]

theorem afterRelease_frame :
    (afterRelease config state id owner priority requests).savedPriority = state.savedPriority ∧
      (afterRelease config state id owner priority requests).fastMutex = state.fastMutex ∧
      (afterRelease config state id owner priority requests).condition = state.condition ∧
      (afterRelease config state id owner priority requests).clock = state.clock ∧
      (afterRelease config state id owner priority requests).enqueuedAt = state.enqueuedAt := by
  unfold afterRelease
  split <;> exact ⟨rfl, rfl, rfl, rfl, rfl⟩

section

variable (coherent : Coherent config state) (owns : (state.mutex id).owner = some owner)
include coherent owns

theorem afterRelease_lockedIff :
    other ∈ (afterRelease config state id owner priority requests).mutexLocked thread ↔
      ((afterRelease config state id owner priority requests).mutex other).owner = some thread := by
  rw [afterRelease_owner]
  unfold afterRelease
  cases front (state.mutex id).waitQueue config.numPriorities with
  | none =>
    refine (lowered_locked coherent owns).trans ?_
    by_cases same : other = id <;> simp [same]
  | some next =>
    show other ∈ update (update state.mutexLocked owner _) next _ thread ↔ _
    refine forall_update ?_ (fun thread different => ?_)
    · refine mem_cons.trans ((or_congr Iff.rfl (lowered_locked coherent owns)).trans ?_)
      by_cases same : other = id <;> simp [same]
    · rw [lowered_locked coherent owns]
      by_cases same : other = id <;> simp [same, different.symm]

theorem afterRelease_lockedNodup :
    ((afterRelease config state id owner priority requests).mutexLocked thread).Nodup := by
  unfold afterRelease
  cases front (state.mutex id).waitQueue config.numPriorities with
  | none => exact lowered_lockedNodup coherent thread
  | some next =>
    show (update (update state.mutexLocked owner _) next _ thread).Nodup
    refine forall_update ?_ (fun thread _ => lowered_lockedNodup coherent thread)
    rw [nodup_cons]
    exact ⟨fun listed => ((lowered_locked coherent owns).mp listed).1 rfl,
      lowered_lockedNodup coherent next⟩

/-- A release keeps the invariant. -/
theorem afterRelease_coherent (free : state.mutexWaiting owner = none)
    (greatest : Greatest state ((state.mutexLocked owner).erase id) (state.savedPriority owner)
      priority) : Coherent config (afterRelease config state id owner priority requests) := by
  obtain ⟨savedPriority, -, -, clock, enqueuedAt⟩ :=
    @afterRelease_frame _ config state id owner priority requests
  have priorities : (afterRelease config state id owner priority requests).priority =
      update state.priority owner priority := by
    unfold afterRelease
    split <;> rfl
  have valid (other : Fin threads) (_ : state.mutexWaiting other = some id) :=
    coherent.priorityValid other
  have waitsFirst {thread : Fin threads} (first : front (state.mutex id).waitQueue
      config.numPriorities = some thread) : state.mutexWaiting thread = some id :=
    ((coherent.queued id).front_greatest first valid).1
  have elsewhere {thread : Fin threads} {other : Nat} (different : other ≠ id)
      (waits : state.mutexWaiting thread = some other) :
      front (state.mutex id).waitQueue config.numPriorities ≠ some thread := fun first =>
    different (Option.some_inj.mp (waits.symm.trans (waitsFirst first)))
  refine
    { priorityValid := fun thread => ?_
      savedValid := fun thread => ?_
      savedLe := fun thread => ?_
      lockedIff := fun thread other => afterRelease_lockedIff coherent owns
      lockedNodup := fun thread => afterRelease_lockedNodup coherent owns
      ownedByOther := fun thread other waits => ?_
      stamped := fun thread => ?_
      ordered := fun other => ?_
      queued := fun other => ?_
      inherits := fun holder waiter other waits holds => ?_
      attained := fun thread => ?_ }
  · rw [priorities]
    exact lowered_priorityValid coherent greatest thread
  · rw [savedPriority]
    exact coherent.savedValid thread
  · rw [savedPriority, priorities]
    exact lowered_savedLe coherent greatest thread
  · obtain ⟨before, notFirst⟩ := afterRelease_waiting_iff.mp waits
    rw [afterRelease_owner]
    by_cases same : other = id
    · subst same
      rw [if_pos rfl]
      cases first : front (state.mutex other).waitQueue config.numPriorities with
      | none =>
        exact absurd before ((coherent.queued other).not_member_of_front_eq_none first valid thread)
      | some next => exact ⟨next, rfl, fun same => notFirst (same ▸ first)⟩
    · rw [if_neg same]
      exact coherent.ownedByOther thread other before
  · rw [clock, enqueuedAt]
    exact coherent.stamped thread
  · rw [afterRelease_mutex, enqueuedAt]
    exact forall_update (coherent.ordered id).dequeue (fun other _ => coherent.ordered other)
  · have keyed : Keyed ((afterRelease config state id owner priority requests).mutex
        other).waitQueue (fun thread => state.mutexWaiting thread = some other ∧
          front (state.mutex id).waitQueue config.numPriorities ≠ some thread) state.priority := by
      rw [afterRelease_mutex]
      refine forall_update ((coherent.queued id).dequeue _) (fun other different => ?_)
      exact (coherent.queued other).congr
        (fun thread => and_iff_left_of_imp (elsewhere different)) fun _ _ => rfl
    rw [priorities]
    exact keyed.congr (fun thread => afterRelease_waiting_iff) fun thread member =>
      update_of_ne (ne_of_waiting free member.1) _ _
  · obtain ⟨before, -⟩ := afterRelease_waiting_iff.mp waits
    rw [afterRelease_owner] at holds
    rw [priorities]
    by_cases same : other = id
    · subst same
      rw [if_pos rfl] at holds
      rw [update_of_ne (ne_of_waiting free before),
        update_of_ne (ne_of_waiting free (waitsFirst holds))]
      exact ((coherent.queued other).front_greatest holds valid).2 waiter before
    · rw [if_neg same] at holds
      exact lowered_inherits coherent greatest free same before holds
  · unfold Attained
    rw [priorities, savedPriority]
    refine (lowered_attained coherent greatest free owns).imp_right ?_
    rintro ⟨waiter, other, different, waits, holds, equal⟩
    refine ⟨waiter, other, afterRelease_waiting_iff.mpr ⟨waits, elsewhere different waits⟩, ?_,
      equal⟩
    rw [afterRelease_owner, if_neg different]
    exact holds

end

/-- A release by the owner succeeds and keeps the invariant. -/
theorem release_spec (coherent : Coherent config state)
    (free : state.mutexWaiting owner = none) (owns : (state.mutex id).owner = some owner) :
    ∃ priority requests,
      Mutex.release config state id = .ok (afterRelease config state id owner priority requests) ∧
        Greatest state ((state.mutexLocked owner).erase id) (state.savedPriority owner) priority ∧
        ((requests = [] ∧ priority = state.priority owner) ∨
          (requests = [.setPriority owner priority] ∧ priority ≠ state.priority owner)) ∧
        Coherent config (afterRelease config state id owner priority requests) := by
  obtain ⟨priority, requests, computed, greatest, asked⟩ := deInheritPriority_spec coherent owns
  refine ⟨priority, requests, ?_, greatest, asked,
    afterRelease_coherent coherent owns free greatest⟩
  unfold Mutex.release
  simp only [owns, computed]
  exact chooseNextOwner_lowered coherent

theorem afterRelease_recursiveDepth :
    ((afterRelease config state id owner priority requests).mutex other).recursiveDepth =
      (state.mutex other).recursiveDepth := by
  unfold afterRelease
  cases front (state.mutex id).waitQueue config.numPriorities with
  | none | some => exact part_update (by rfl) other

/-! ### Acquiring a free mutex, and depths -/

section

variable (coherent : Coherent config state)
include coherent

/-- The invariant reads only the owner and the wait queue of a mutex. -/
theorem Coherent.setMutex (id : Nat) (data : MutexData threads)
    (owner : data.owner = (state.mutex id).owner)
    (waitQueue : data.waitQueue = (state.mutex id).waitQueue) :
    Coherent config (state.setMutex id data) :=
  coherent.frame ⟨rfl, rfl, rfl, rfl, part_update owner, part_update waitQueue⟩ coherent.stamped
    fun _ _ => rfl

/-- A thread takes a mutex nobody owns. -/
theorem Coherent.acquire
    (unowned : (state.mutex id).owner = none) (cur : Fin threads) (data : MutexData threads)
    (owner : data.owner = some cur) (waitQueue : data.waitQueue = (state.mutex id).waitQueue) :
    Coherent config (Mutex.addToLockedList (state.setMutex id data) id cur) := by
  have unwaited (thread : Fin threads) : state.mutexWaiting thread ≠ some id := fun waits => by
    obtain ⟨holder, owned, -⟩ := coherent.ownedByOther thread id waits
    rw [unowned] at owned
    cases owned
  have elsewhere {thread : Fin threads} {other : Nat}
      (waits : state.mutexWaiting thread = some other) :
      update state.mutex id data other = state.mutex other :=
    update_of_ne (fun same : other = id => unwaited thread (same ▸ waits)) _ _
  have unlisted (thread : Fin threads) : id ∉ state.mutexLocked thread := fun listed => by
    rw [coherent.lockedIff, unowned] at listed
    cases listed
  have sameQueue : ∀ other, (update state.mutex id data other).waitQueue =
      (state.mutex other).waitQueue := part_update waitQueue
  refine
    { coherent with
      lockedIff := fun thread other => ?_
      lockedNodup := fun thread => ?_
      ownedByOther := fun thread other waits => ?_
      ordered := fun other => ?_
      queued := fun other => ?_
      inherits := fun holder waiter other waits holds => ?_
      attained := fun thread => ?_ }
  · show other ∈ update state.mutexLocked cur (id :: state.mutexLocked cur) thread ↔
      (update state.mutex id data other).owner = some thread
    by_cases sameMutex : other = id
    · subst sameMutex
      rw [update_self, owner]
      by_cases same : thread = cur
      · subst same
        simp
      · rw [update_of_ne same, Option.some_inj]
        exact ⟨fun listed => absurd listed (unlisted thread), fun equal => absurd equal.symm same⟩
    · rw [update_of_ne sameMutex, ← coherent.lockedIff]
      by_cases same : thread = cur
      · subst same
        simp [sameMutex]
      · rw [update_of_ne same]
  · show (update state.mutexLocked cur (id :: state.mutexLocked cur) thread).Nodup
    refine forall_update ?_ (fun thread _ => ?_)
    · rw [nodup_cons]
      exact ⟨unlisted cur, coherent.lockedNodup cur⟩
    · exact coherent.lockedNodup thread
  · show ∃ holder, (update state.mutex id data other).owner = some holder ∧ _
    rw [elsewhere waits]
    exact coherent.ownedByOther thread other waits
  · show Ordered (update state.mutex id data other).waitQueue _
    rw [sameQueue]
    exact coherent.ordered other
  · show Keyed (update state.mutex id data other).waitQueue _ _
    rw [sameQueue]
    exact coherent.queued other
  · replace holds : (update state.mutex id data other).owner = some holder := holds
    rw [elsewhere waits] at holds
    exact coherent.inherits holder waiter other waits holds
  · rcases coherent.attained thread with same | ⟨waiter, other, waits, holds, equal⟩
    · exact Or.inl same
    · refine Or.inr ⟨waiter, other, waits, ?_, equal⟩
      show (update state.mutex id data other).owner = some thread
      rw [elsewhere waits]
      exact holds

/-! ### `Thread::setPriority` -/

/-- Giving a thread that waits on no mutex a new saved priority, and the maximum over the
mutexes it owns as its priority. -/
theorem Coherent.reprioritize (free : state.mutexWaiting cur = none) {saved : Int} (low : 0 ≤ saved)
    (high : saved < config.numPriorities)
    (greatest : Greatest state (state.mutexLocked cur) saved priority)
    (requests : List (SchedulerCall threads)) : Coherent config { state with
      savedPriority := update state.savedPriority cur saved
      priority := update state.priority cur priority
      calls := state.calls ++ requests } := by
  have others {waiter : Fin threads} {other : Nat}
      (waits : state.mutexWaiting waiter = some other) :
      update state.priority cur priority waiter = state.priority waiter := by
    exact update_of_ne (ne_of_waiting free waits) _ _
  refine
    { coherent with
      priorityValid := fun thread => ?_
      savedValid := fun thread => ?_
      savedLe := fun thread => ?_
      queued := fun other => (coherent.queued other).congr (fun _ => Iff.rfl) fun _ => others
      inherits := fun holder waiter other waits holds => ?_
      attained := fun thread => ?_ }
  · show 0 ≤ update state.priority cur priority thread ∧
      update state.priority cur priority thread < config.numPriorities
    exact forall_update (greatest.valid coherent low high)
      (fun thread _ => coherent.priorityValid thread)
  · show 0 ≤ update state.savedPriority cur saved thread ∧
      update state.savedPriority cur saved thread < config.numPriorities
    exact forall_update (⟨low, high⟩) (fun thread _ => coherent.savedValid thread)
  · show update state.savedPriority cur saved thread ≤ update state.priority cur priority thread
    by_cases same : thread = cur
    · subst same
      rw [update_self, update_self]
      exact greatest.baseLe
    · rw [update_of_ne same, update_of_ne same]
      exact coherent.savedLe thread
  · show update state.priority cur priority waiter ≤ update state.priority cur priority holder
    rw [others waits]
    by_cases same : holder = cur
    · subst same
      rw [update_self]
      exact greatest.waiterLe waiter other ((coherent.lockedIff holder other).mpr holds) waits
    · rw [update_of_ne same]
      exact coherent.inherits holder waiter other waits holds
  · show update state.priority cur priority thread = update state.savedPriority cur saved thread ∨
      ∃ waiter other, state.mutexWaiting waiter = some other ∧
        (state.mutex other).owner = some thread ∧
        update state.priority cur priority waiter = update state.priority cur priority thread
    by_cases same : thread = cur
    · subst same
      rw [update_self, update_self]
      rcases greatest.attained with equal | ⟨waiter, other, listed, waits, equal⟩
      · exact Or.inl equal
      · exact Or.inr ⟨waiter, other, waits, (coherent.lockedIff thread other).mp listed,
          (others waits).trans equal⟩
    · rw [update_of_ne same, update_of_ne same]
      rcases coherent.attained thread with equal | ⟨waiter, other, waits, holds, equal⟩
      · exact Or.inl equal
      · exact Or.inr ⟨waiter, other, waits, holds, (others waits).trans equal⟩

/-- `Thread::setPriority` changes the two priorities of the current thread, and asks the
scheduler only for a change of the actual one. -/
theorem setPriority_spec
    (free : state.mutexWaiting cur = none) {wanted : Int} : ∃ saved priority requests,
      setPriority config state cur wanted = { state with
          savedPriority := update state.savedPriority cur saved
          priority := update state.priority cur priority
          calls := state.calls ++ requests } ∧
        ((requests = [] ∧ priority = state.priority cur) ∨
          requests = [.setOwnPriority cur priority (decide (priority < state.priority cur))]) ∧
        Coherent config (setPriority config state cur wanted) := by
  have unchanged : state = { state with
      savedPriority := update state.savedPriority cur (state.savedPriority cur)
      priority := update state.priority cur (state.priority cur)
      calls := state.calls ++ [] } := by
    rw [update_eq_self, update_eq_self, append_nil]
  unfold setPriority
  split
  · exact ⟨_, _, _, unchanged, Or.inl ⟨rfl, rfl⟩, coherent⟩
  · rename_i rejected
    have valid : 0 ≤ wanted ∧ wanted < config.numPriorities := by
      simpa [validate] using rejected
    split
    · rename_i owning
      split
      · exact ⟨_, _, _, unchanged, Or.inl ⟨rfl, rfl⟩, coherent⟩
      · have greatest := foldl_inheritFrom_greatest coherent (state.mutexLocked cur) wanted
        generalize computed : (state.mutexLocked cur).foldl (Mutex.inheritFrom config state)
          wanted = priority at greatest
        have applied : Mutex.inheritPriorityFromLockedList config { state with
            savedPriority := update state.savedPriority cur wanted } cur wanted =
            priority := computed
        dsimp only
        rw [applied]
        unfold applyPriority
        by_cases same : priority = state.priority cur
        · rw [if_pos same]
          have result : { state with
              savedPriority := update state.savedPriority cur wanted } = { state with
              savedPriority := update state.savedPriority cur wanted
              priority := update state.priority cur priority
              calls := state.calls ++ [] } := by
            rw [same, update_eq_self, append_nil]
          refine ⟨wanted, priority, [], result, Or.inl ⟨rfl, same⟩, ?_⟩
          rw [result]
          exact coherent.reprioritize free valid.1 valid.2 greatest []
        · rw [if_neg same, if_neg owning]
          exact ⟨wanted, priority, _, rfl, Or.inr rfl,
            coherent.reprioritize free valid.1 valid.2 greatest _⟩
    · rename_i empty
      rw [not_not] at empty
      have greatest : Greatest state (state.mutexLocked cur) wanted wanted := by
        rw [empty]
        exact ⟨le_rfl, nofun, Or.inl rfl⟩
      unfold applyPriority
      by_cases same : wanted = state.priority cur
      · rw [if_pos same]
        exact ⟨_, _, _, unchanged, Or.inl ⟨rfl, rfl⟩, coherent⟩
      · rw [if_neg same, if_pos empty]
        exact ⟨wanted, wanted, _, rfl, Or.inr rfl,
          coherent.reprioritize free valid.1 valid.2 greatest _⟩

end

end Miosix.Sync
