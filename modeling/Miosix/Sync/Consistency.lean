/-
This file proves the invariant of the machine of `Machine.lean`.

The program counters and the data of the primitives agree (`Consistent`): a thread blocked
on a mutex either owns it already or stands in its wait queue, and a thread that stands in
the queue of a condition variable waits on it. The sections preserve this, and none of them
ends in a fault other than the one reported for a thread that locks again a mutex it owns.

Each lemma of the middle sections is about one move of the current thread: to acquire, to
block, to release, to enter or leave a condition variable. The sections are sequences of
such moves.
-/

import Miosix.Sync.Release
import Miosix.Sync.Machine

namespace Miosix.Sync

open Function LevelQueue

variable {threads : Nat} {target : Lockable} {depth id : Nat} {timed : Bool} {thread : Fin threads}
  {next : Pc}

/-! ### The invariant -/

/-- The mutex whose wait loop the thread is in. -/
def Pc.blockedOn : Pc → Option Lockable
  | .lock target => some target
  | .lockToDepth target _ _ => some target
  | _ => none

section

variable (config : Config) (state : State threads) (pc : Fin threads → Pc)

/-- The wait queues of the mutexes without priority inheritance. -/
structure FastMutexes : Prop where
  queued : ∀ id, Keyed (state.fastMutex id).waitQueue
    (fun thread => (pc thread).blockedOn = some (.fastMutex id) ∧
      (state.fastMutex id).owner ≠ some thread) state.savedPriority
  owned : ∀ thread id, (pc thread).blockedOn = some (.fastMutex id) →
    (state.fastMutex id).owner ≠ none
  ordered : ∀ id, Ordered (state.fastMutex id).waitQueue state.enqueuedAt

/-- The wait queues of the condition variables. -/
structure Conditions : Prop where
  queued : ∀ id, Keyed (state.condition id)
    (fun thread => thread ∈ state.condition id (state.savedPriority thread)) state.savedPriority
  waiting : ∀ thread id, thread ∈ state.condition id (state.savedPriority thread) →
    ∃ target depth timed, pc thread = .waiting id target depth timed
  ordered : ∀ id, Ordered (state.condition id) state.enqueuedAt

/-- The data of the primitives and the program counters agree. -/
structure Consistent : Prop where
  coherent : Coherent config state
  waits : ∀ thread id, state.mutexWaiting thread = some id ↔
    (pc thread).blockedOn = some (.mutex id) ∧ (state.mutex id).owner ≠ some thread
  fastMutexes : FastMutexes state pc
  conditions : Conditions state pc
  released : ∀ thread condition target depth timed,
    pc thread = .waiting condition target depth timed →
      (state.lockable target).owner ≠ some thread

end

section Frame

variable {config : Config} {before after : State threads} {pc later : Fin threads → Pc}
  {counter : Pc} {cur : Fin threads} {state : State threads}

theorem Pc.ne_outside (blocked : counter.blockedOn = some target) : counter ≠ .outside := by
  rintro rfl
  cases blocked

theorem Pc.not_waiting {other : Lockable} {condition : Nat}
    (blocked : counter.blockedOn = some target) :
    counter ≠ .waiting condition other depth timed := by
  rintro rfl
  cases blocked

theorem ne_of_outside (outside : pc cur = .outside) (inside : pc thread ≠ .outside) :
    thread ≠ cur :=
  fun same => inside (same ▸ outside)

theorem State.not_owner (notOwner : (before.lockable target).owner ≠ some thread)
    (mutex : ∀ id, (after.mutex id).owner = (before.mutex id).owner)
    (fastMutex : ∀ id, (after.fastMutex id).owner = (before.fastMutex id).owner) :
    (after.lockable target).owner ≠ some thread := by
  cases target with
  | mutex id => exact (mutex id).trans_ne notOwner
  | fastMutex id => exact (fastMutex id).trans_ne notOwner

/-- Only the mutexes, the saved priorities and the stamps of the threads in the queues
matter. -/
theorem FastMutexes.congr (fastMutexes : FastMutexes before pc)
    (fastMutex : after.fastMutex = before.fastMutex)
    (blockedOn : ∀ thread id, (later thread).blockedOn = some (.fastMutex id) ↔
      (pc thread).blockedOn = some (.fastMutex id))
    (savedPriority : ∀ thread id, (pc thread).blockedOn = some (.fastMutex id) →
      after.savedPriority thread = before.savedPriority thread)
    (enqueuedAt : ∀ thread id, (pc thread).blockedOn = some (.fastMutex id) →
      after.enqueuedAt thread = before.enqueuedAt thread) : FastMutexes after later := by
  refine ⟨fun id => ?_, fun thread id blocked => ?_, fun id => ?_⟩
  · rw [fastMutex]
    refine (fastMutexes.queued id).congr (fun thread => ?_) fun thread member => ?_
    · rw [blockedOn]
    · exact savedPriority thread id member.1
  · rw [fastMutex]
    exact fastMutexes.owned thread id ((blockedOn thread id).mp blocked)
  · rw [fastMutex]
    refine (fastMutexes.ordered id).congr fun level thread listed => ?_
    exact enqueuedAt thread id (((fastMutexes.queued id).mem_iff level thread).mp listed).1.1

theorem Conditions.congr (conditions : Conditions before pc)
    (condition : after.condition = before.condition)
    (waiting : ∀ thread id target depth timed, pc thread = .waiting id target depth timed →
      later thread = pc thread ∧ after.savedPriority thread = before.savedPriority thread ∧
        after.enqueuedAt thread = before.enqueuedAt thread) : Conditions after later := by
  have listedAt {thread : Fin threads} {id : Nat} {level : Int}
      (listed : thread ∈ before.condition id level) :
      level = before.savedPriority thread ∧ later thread = pc thread ∧
        after.savedPriority thread = before.savedPriority thread ∧
        after.enqueuedAt thread = before.enqueuedAt thread := by
    obtain ⟨member, same⟩ := ((conditions.queued id).mem_iff level thread).mp listed
    obtain ⟨target, depth, timed, isWaiting⟩ := conditions.waiting thread id member
    exact ⟨same.symm, waiting thread id target depth timed isWaiting⟩
  have member (thread : Fin threads) (id : Nat) :
      thread ∈ after.condition id (after.savedPriority thread) ↔
        thread ∈ before.condition id (before.savedPriority thread) := by
    rw [condition]
    refine ⟨fun listed => ?_, fun listed => ?_⟩
    · rw [← (listedAt listed).1]
      exact listed
    · rw [(listedAt listed).2.2.1]
      exact listed
  refine ⟨fun id => ?_, fun thread id listed => ?_, fun id => ?_⟩
  · have keyed := (conditions.queued id).congr (fun thread => member thread id)
      fun thread listed => (listedAt listed).2.2.1
    rw [condition] at keyed ⊢
    exact keyed
  · obtain ⟨target, depth, timed, isWaiting⟩ :=
      conditions.waiting thread id ((member thread id).mp listed)
    refine ⟨target, depth, timed, ?_⟩
    rw [(waiting thread id target depth timed isWaiting).1]
    exact isWaiting
  · rw [condition]
    exact (conditions.ordered id).congr fun level thread listed => (listedAt listed).2.2.2

section

variable (consistent : Consistent config state pc)
include consistent

theorem Consistent.withCalls (calls : List (SchedulerCall threads)) :
    Consistent config { state with calls := calls } pc := { consistent with
  coherent := consistent.coherent.withCalls calls
  fastMutexes := { consistent.fastMutexes with }
  conditions := { consistent.conditions with }
  released thread condition target depth timed waiting :=
    State.not_owner (consistent.released thread condition target depth timed waiting)
      (fun _ => rfl) fun _ => rfl }

theorem Consistent.mutexWaiting_eq_none
    (notBlocked : ∀ id, (pc thread).blockedOn ≠ some (.mutex id)) :
    state.mutexWaiting thread = none := by
  cases waits : state.mutexWaiting thread with
  | none => rfl
  | some id => exact absurd ((consistent.waits thread id).mp waits).1 (notBlocked id)

theorem Consistent.mutexWaiting_outside
    (outside : pc thread = .outside) : state.mutexWaiting thread = none :=
  consistent.mutexWaiting_eq_none fun id => by simp [outside, Pc.blockedOn]

theorem Consistent.mutex_unwaited (unowned : (state.mutex id).owner = none) :
    (pc thread).blockedOn ≠ some (.mutex id) := fun blocked => by
  have waiting := (consistent.waits thread id).mpr ⟨blocked, by simp [unowned]⟩
  obtain ⟨owner, owns, -⟩ := consistent.coherent.ownedByOther thread id waiting
  rw [unowned] at owns
  cases owns

end

theorem blockedOn_update_of_notBlocked
    (before : (pc cur).blockedOn = none) (after : next.blockedOn = none)
    (thread : Fin threads) (target : Lockable) :
    (update pc cur next thread).blockedOn = some target ↔ (pc thread).blockedOn = some target := by
  refine forall_update ?_ (fun thread _ => ?_)
  · rw [before, after]
  · rfl

end Frame

/-! ### Moves on a `Mutex` -/

section Moves

variable {config : Config} {state : State threads} {pc : Fin threads → Pc} {cur : Fin threads}
  {after : State threads} {calls : List (SchedulerCall threads)} {priority : Int}

section

variable (consistent : Consistent config state pc) {data : MutexData threads}
include consistent

theorem Consistent.acquireMutex
    (outside : pc cur = .outside) (unowned : (state.mutex id).owner = none)
    (owner : data.owner = some cur) (waitQueue : data.waitQueue = (state.mutex id).waitQueue) :
    Consistent config (Mutex.addToLockedList (state.setMutex id data) id cur) pc where
  coherent := consistent.coherent.acquire unowned cur data owner waitQueue
  waits thread other := by
    refine (consistent.waits thread other).trans (and_congr_right fun blocked => ?_)
    have different : other ≠ id := fun same => consistent.mutex_unwaited unowned (same ▸ blocked)
    show _ ↔ (update state.mutex id data other).owner ≠ some thread
    rw [update_of_ne different]
  fastMutexes := consistent.fastMutexes.congr rfl (fun _ _ => Iff.rfl) (fun _ _ _ => rfl)
    fun _ _ _ => rfl
  conditions := consistent.conditions.congr rfl fun _ _ _ _ _ _ => ⟨rfl, rfl, rfl⟩
  released thread condition target depth timed waiting := by
    have before := consistent.released thread condition target depth timed waiting
    cases target with
    | mutex other =>
      show (update state.mutex id data other).owner ≠ some thread
      by_cases same : other = id
      · subst same
        rw [update_self, owner]
        rintro ⟨⟩
        cases outside.symm.trans waiting
      · rw [update_of_ne same]
        exact before
    | fastMutex other => exact before

theorem Consistent.setMutex (id : Nat)
    (data : MutexData threads) (owner : data.owner = (state.mutex id).owner)
    (waitQueue : data.waitQueue = (state.mutex id).waitQueue) :
    Consistent config (state.setMutex id data) pc := by
  have sameOwner : ∀ other, (update state.mutex id data other).owner = (state.mutex other).owner :=
    part_update owner
  refine
    { coherent := consistent.coherent.setMutex id data owner waitQueue
      waits := fun thread other => ?_
      fastMutexes := consistent.fastMutexes.congr rfl (fun _ _ => Iff.rfl) (fun _ _ _ => rfl)
        fun _ _ _ => rfl
      conditions := consistent.conditions.congr rfl fun _ _ _ _ _ _ => ⟨rfl, rfl, rfl⟩
      released := fun thread condition target depth timed waiting => ?_ }
  · show _ ↔ _ ∧ (update state.mutex id data other).owner ≠ some thread
    rw [sameOwner]
    exact consistent.waits thread other
  · exact State.not_owner (consistent.released thread condition target depth timed waiting)
      sameOwner fun _ => rfl

/-- The current thread boosts the owners of the mutex and enters its wait queue. -/
theorem Consistent.blockMutex
    (outside : pc cur = .outside) (notOwner : (state.mutex id).owner ≠ some cur)
    {boosted : State threads} (same : SameLinks (state.setMutexWaiting cur (some id)) boosted)
    (coherent : Coherent config { Mutex.PKenqueue boosted id cur with calls := calls })
    (blocks : next.blockedOn = some (.mutex id)) :
    Consistent config { Mutex.PKenqueue boosted id cur with calls := calls }
      (update pc cur next) := by
  have owner (other : Nat) : ((Mutex.PKenqueue boosted id cur).mutex other).owner =
      (state.mutex other).owner := (PKenqueue_owner boosted id cur other).trans (same.owner other)
  have enqueuedAt {thread : Fin threads} (different : thread ≠ cur)
      (free : state.mutexWaiting thread = none) :
      (Mutex.PKenqueue boosted id cur).enqueuedAt thread = state.enqueuedAt thread := by
    refine (update_of_ne different _ _).trans (same.enqueuedAt thread ?_)
    exact (update_of_ne different _ _).trans free
  refine
    { coherent := coherent
      waits := fun thread other => ?_
      fastMutexes := consistent.fastMutexes.congr same.fastMutex (fun thread other => ?_)
        (fun thread other blocked => ?_) fun thread other blocked => ?_
      conditions := consistent.conditions.congr same.condition
        fun thread other target depth timed waiting => ?_
      released := fun thread condition target depth timed waiting => ?_ }
  · show boosted.mutexWaiting thread = some other ↔
      _ ∧ ((Mutex.PKenqueue boosted id cur).mutex other).owner ≠ some thread
    rw [same.mutexWaiting, owner]
    show update state.mutexWaiting cur (some id) thread = some other ↔ _
    by_cases isCur : thread = cur
    · subst isCur
      rw [update_self, update_self, blocks]
      simp only [Option.some_inj, Lockable.mutex.injEq]
      exact ⟨fun equal => ⟨equal, equal ▸ notOwner⟩, fun both => both.1⟩
    · rw [update_of_ne isCur, update_of_ne isCur]
      exact consistent.waits thread other
  · refine forall_update ?_ (fun thread _ => ?_)
    · rw [blocks, outside]
      simp [Pc.blockedOn]
    · rfl
  · exact congrFun same.savedPriority thread
  · refine enqueuedAt (ne_of_outside outside (Pc.ne_outside blocked))
      (consistent.mutexWaiting_eq_none fun other => ?_)
    rw [blocked]
    simp
  · have different : thread ≠ cur := ne_of_outside outside (by simp [waiting])
    refine ⟨update_of_ne different _ _, congrFun same.savedPriority thread,
      enqueuedAt different (consistent.mutexWaiting_eq_none fun other => ?_)⟩
    rw [waiting]
    simp [Pc.blockedOn]
  · have different : thread ≠ cur := fun isCur => by
      rw [isCur, update_self] at waiting
      exact Pc.not_waiting blocks waiting
    rw [update_of_ne different] at waiting
    exact State.not_owner (consistent.released thread condition target depth timed waiting)
      owner fun other => congrArg MutexData.owner (congrFun same.fastMutex other)

/-- The current thread releases a mutex, which goes to the first thread of its queue. -/
theorem Consistent.releaseMutex
    (outside : pc cur = .outside) (owns : (state.mutex id).owner = some cur)
    {requests : List (SchedulerCall threads)}
    (coherent : Coherent config (afterRelease config state id cur priority requests)) :
    Consistent config (afterRelease config state id cur priority requests) pc := by
  obtain ⟨savedPriority, fastMutex, condition, -, enqueuedAt⟩ := afterRelease_frame
  have valid := fun (other : Fin threads) (_ : state.mutexWaiting other = some id) =>
    consistent.coherent.priorityValid other
  refine
    { coherent := coherent
      waits := fun thread other => ?_
      fastMutexes := consistent.fastMutexes.congr fastMutex (fun _ _ => Iff.rfl)
        (fun thread _ _ => congrFun savedPriority thread)
        fun thread _ _ => congrFun enqueuedAt thread
      conditions := consistent.conditions.congr condition fun thread _ _ _ _ _ =>
        ⟨rfl, congrFun savedPriority thread, congrFun enqueuedAt thread⟩
      released := fun thread condition target depth timed waiting => ?_ }
  · have notCur (blocked : (pc thread).blockedOn = some (.mutex other)) : cur ≠ thread :=
      (ne_of_outside outside (Pc.ne_outside blocked)).symm
    rw [afterRelease_waiting_iff, afterRelease_owner, consistent.waits, and_assoc]
    refine and_congr_right fun blocked => ?_
    by_cases sameMutex : other = id
    · subst sameMutex
      rw [if_pos rfl, owns, ne_eq, Option.some_inj]
      exact and_iff_right (notCur blocked)
    · rw [if_neg sameMutex]
      refine and_iff_left fun first => sameMutex ?_
      obtain ⟨waits, -⟩ := (consistent.coherent.queued id).front_greatest first valid
      have same := blocked.symm.trans ((consistent.waits thread id).mp waits).1
      simpa using same
  · have before := consistent.released thread condition target depth timed waiting
    cases target with
    | fastMutex other =>
      show ((afterRelease config state id cur priority requests).fastMutex other).owner ≠
        some thread
      rw [fastMutex]
      exact before
    | mutex other =>
      show ((afterRelease config state id cur priority requests).mutex other).owner ≠ some thread
      rw [afterRelease_owner]
      by_cases sameMutex : other = id
      · subst sameMutex
        rw [if_pos rfl]
        intro first
        obtain ⟨waits, -⟩ := (consistent.coherent.queued other).front_greatest first valid
        exact Pc.not_waiting ((consistent.waits thread other).mp waits).1 waiting
      · rw [if_neg sameMutex]
        exact before

/-! ### Moves on a `FastMutex` -/

/-- A change of one mutex without inheritance, and of the stamps and program counters of
threads in none of the other queues. -/
theorem Consistent.moveFastMutex {later : Fin threads → Pc}
    (fastMutex : after.fastMutex = update state.fastMutex id data)
    (same : SameInheritance state after) (condition : after.condition = state.condition)
    (stamped : ∀ thread, after.enqueuedAt thread < after.clock)
    (untouched : ∀ thread, pc thread ≠ .outside →
      later thread = pc thread ∧ after.enqueuedAt thread = state.enqueuedAt thread)
    (entered : ∀ thread, pc thread = .outside → later thread = .outside ∨
      (later thread).blockedOn = some (.fastMutex id))
    (queued : Keyed data.waitQueue (fun thread =>
      (later thread).blockedOn = some (.fastMutex id) ∧ data.owner ≠ some thread)
      state.savedPriority)
    (owned : ∀ thread, (later thread).blockedOn = some (.fastMutex id) → data.owner ≠ none)
    (ordered : Ordered data.waitQueue after.enqueuedAt)
    (notWaiting : ∀ thread condition depth timed,
      pc thread = .waiting condition (.fastMutex id) depth timed → data.owner ≠ some thread) :
    Consistent config after later := by
  have blocked (thread : Fin threads) (target : Lockable) (different : target ≠ .fastMutex id) :
      (later thread).blockedOn = some target ↔ (pc thread).blockedOn = some target := by
    by_cases outside : pc thread = .outside
    · rw [outside]
      rcases entered thread outside with stays | enters
      · rw [stays]
      · rw [enters]
        simp [Pc.blockedOn, different.symm]
    · rw [(untouched thread outside).1]
  refine
    { coherent := consistent.coherent.frame same stamped fun thread waits => ?_
      waits := fun thread other => ?_
      fastMutexes := ⟨fun other => ?_, fun thread other isBlocked => ?_, fun other => ?_⟩
      conditions := consistent.conditions.congr condition
        fun thread other target depth timed waiting => ?_
      released := fun thread condition target depth timed waiting => ?_ }
  · refine (untouched thread fun outside => waits ?_).2
    exact consistent.mutexWaiting_outside outside
  · rw [same.mutexWaiting, same.owner, blocked thread (.mutex other) (by simp)]
    exact consistent.waits thread other
  · rw [same.savedPriority, fastMutex]
    refine forall_update queued (fun other different => ?_)
    refine (consistent.fastMutexes.queued other).congr (fun thread => ?_) fun _ _ => rfl
    rw [blocked thread (.fastMutex other) (by simpa using different)]
  · rw [fastMutex]
    revert isBlocked
    refine forall_update (owned thread) (fun other different isBlocked => ?_)
    exact consistent.fastMutexes.owned thread other
      ((blocked thread (.fastMutex other) (by simpa using different)).mp isBlocked)
  · rw [fastMutex]
    refine forall_update ordered (fun other _ => ?_)
    refine (consistent.fastMutexes.ordered other).congr fun level thread listed => ?_
    have member := ((consistent.fastMutexes.queued other).mem_iff level thread).mp listed
    exact (untouched thread (Pc.ne_outside member.1.1)).2
  · obtain ⟨samePc, sameStamp⟩ := untouched thread (by simp [waiting])
    exact ⟨samePc, congrFun same.savedPriority thread, sameStamp⟩
  · have waitingBefore : pc thread = .waiting condition target depth timed := by
      by_cases outside : pc thread = .outside
      · rcases entered thread outside with stays | enters
        · cases stays.symm.trans waiting
        · exact absurd waiting (Pc.not_waiting enters)
      · rw [← (untouched thread outside).1]
        exact waiting
    have before := consistent.released thread condition target depth timed waitingBefore
    cases target with
    | mutex other => exact (same.owner other).trans_ne before
    | fastMutex other =>
      show (after.fastMutex other).owner ≠ some thread
      rw [fastMutex]
      by_cases changed : other = id
      · subst changed
        rw [update_self]
        exact notWaiting thread condition depth timed waitingBefore
      · rw [update_of_ne changed]
        exact before

theorem Consistent.acquireFastMutex
    (outside : pc cur = .outside) (unowned : (state.fastMutex id).owner = none)
    (owner : data.owner = some cur) (waitQueue : data.waitQueue = (state.fastMutex id).waitQueue) :
    Consistent config (state.setFastMutex id data) pc := by
  have unwaited (thread : Fin threads) : (pc thread).blockedOn ≠ some (.fastMutex id) :=
    fun blocked => consistent.fastMutexes.owned thread id blocked unowned
  refine consistent.moveFastMutex rfl ⟨rfl, rfl, rfl, rfl, fun _ => rfl, fun _ => rfl⟩ rfl
    consistent.coherent.stamped (fun _ _ => ⟨rfl, rfl⟩) (fun _ => Or.inl) ?_
    (fun thread blocked => absurd blocked (unwaited thread)) ?_
    fun thread condition depth timed waiting => ?_
  · rw [waitQueue]
    refine (consistent.fastMutexes.queued id).congr (fun thread => ?_) fun _ _ => rfl
    exact and_congr_right fun blocked => absurd blocked (unwaited thread)
  · rw [waitQueue]
    exact consistent.fastMutexes.ordered id
  · rw [owner]
    rintro ⟨⟩
    cases outside.symm.trans waiting

theorem Consistent.setFastMutex (id : Nat)
    (data : MutexData threads) (owner : data.owner = (state.fastMutex id).owner)
    (waitQueue : data.waitQueue = (state.fastMutex id).waitQueue) :
    Consistent config (state.setFastMutex id data) pc := by
  refine consistent.moveFastMutex rfl ⟨rfl, rfl, rfl, rfl, fun _ => rfl, fun _ => rfl⟩ rfl
    consistent.coherent.stamped (fun _ _ => ⟨rfl, rfl⟩) (fun _ => Or.inl) ?_
    (fun thread blocked => ?_) ?_ fun thread condition depth timed waiting => ?_
  · rw [waitQueue, owner]
    exact consistent.fastMutexes.queued id
  · rw [owner]
    exact consistent.fastMutexes.owned thread id blocked
  · rw [waitQueue]
    exact consistent.fastMutexes.ordered id
  · rw [owner]
    exact consistent.released thread condition (.fastMutex id) depth timed waiting

/-- The current thread enters the wait queue of a mutex without inheritance. -/
theorem Consistent.blockFastMutex (outside : pc cur = .outside) {owner : Fin threads}
    (owns : (state.fastMutex id).owner = some owner) (other : owner ≠ cur)
    (blocks : next.blockedOn = some (.fastMutex id)) :
    Consistent config { FastMutex.PKenqueue state id cur with calls := calls }
      (update pc cur next) := by
  have notCur {thread : Fin threads} : pc thread ≠ .outside → thread ≠ cur := ne_of_outside outside
  refine consistent.moveFastMutex rfl ⟨rfl, rfl, rfl, rfl, fun _ => rfl, fun _ => rfl⟩ rfl
    (state.stamp_enqueuedAt_lt consistent.coherent.stamped)
    (fun thread inside => ⟨update_of_ne (notCur inside) _ _, update_of_ne (notCur inside) _ _⟩)
    (fun thread isOutside => ?_) ?_ (fun thread _ => ?_) ?_
    (fun thread condition depth timed waiting =>
      consistent.released thread condition (.fastMutex id) depth timed waiting)
  · by_cases same : thread = cur
    · subst same
      rw [update_self]
      exact Or.inr blocks
    · rw [update_of_ne same]
      exact Or.inl isOutside
  · have fresh : ¬ ((pc cur).blockedOn = some (.fastMutex id) ∧
        (state.fastMutex id).owner ≠ some cur) := by
      simp [outside, Pc.blockedOn]
    refine ((consistent.fastMutexes.queued id).push cur fresh).congr (fun thread => ?_)
      fun _ _ => rfl
    by_cases same : thread = cur
    · subst same
      simp [blocks, owns, other]
    · simp [same]
  · simp [owns]
  · have older (thread : Fin threads) (level : Int)
        (listed : thread ∈ (state.fastMutex id).waitQueue level) :
        update state.enqueuedAt cur state.clock thread = state.enqueuedAt thread := by
      have member := ((consistent.fastMutexes.queued id).mem_iff level thread).mp listed
      exact update_of_ne (notCur (Pc.ne_outside member.1.1)) _ _
    refine ((consistent.fastMutexes.ordered id).congr fun level thread listed =>
      older thread level listed).push (state.savedPriority cur) cur fun thread listed => ?_
    rw [older thread _ listed, update_self]
    exact consistent.coherent.stamped thread

end

theorem wakeOne_eq : FastMutex.wakeOne config state id =
      { state.setFastMutex id { state.fastMutex id with
          owner := front (state.fastMutex id).waitQueue config.numPriorities
          waitQueue := dequeue (state.fastMutex id).waitQueue config.numPriorities } with
        calls := state.calls ++
          ((front (state.fastMutex id).waitQueue config.numPriorities).map
            SchedulerCall.wakeup).toList } := by
  unfold FastMutex.wakeOne
  cases first : front (state.fastMutex id).waitQueue config.numPriorities with
  | some next => rfl
  | none =>
    have empty : dequeue (state.fastMutex id).waitQueue config.numPriorities =
        (state.fastMutex id).waitQueue := dequeue_eq_self first
    rw [empty]
    simp only [Option.map_none, Option.toList_none, List.append_nil]
    rfl

section

variable (consistent : Consistent config state pc) {queue : Int → List (Fin threads)}
include consistent

/-- The current thread releases a mutex without inheritance. -/
theorem Consistent.wakeOne
    (outside : pc cur = .outside) (owns : (state.fastMutex id).owner = some cur) :
    Consistent config (FastMutex.wakeOne config state id) pc := by
  have keyed := consistent.fastMutexes.queued id
  have member (thread : Fin threads) (blocked : (pc thread).blockedOn = some (.fastMutex id)) :
      (pc thread).blockedOn = some (.fastMutex id) ∧ (state.fastMutex id).owner ≠ some thread := by
    refine ⟨blocked, ?_⟩
    rw [owns]
    rintro ⟨⟩
    exact Pc.ne_outside blocked outside
  have valid (thread : Fin threads) (_ : (pc thread).blockedOn = some (.fastMutex id) ∧
      (state.fastMutex id).owner ≠ some thread) := consistent.coherent.savedValid thread
  rw [wakeOne_eq]
  refine consistent.moveFastMutex
    rfl ⟨rfl, rfl, rfl, rfl, fun _ => rfl, fun _ => rfl⟩ rfl consistent.coherent.stamped
    (fun _ _ => ⟨rfl, rfl⟩) (fun _ => Or.inl) ?_ (fun thread blocked none => ?_) ?_
    fun thread condition depth timed waiting first => ?_
  · refine (keyed.dequeue _).congr (fun thread => ?_) fun _ _ => rfl
    exact ⟨fun both => ⟨member thread both.1, both.2⟩, fun both => ⟨both.1.1, both.2⟩⟩
  · exact keyed.not_member_of_front_eq_none none valid thread (member thread blocked)
  · exact (consistent.fastMutexes.ordered id).dequeue
  · exact Pc.not_waiting (keyed.front_greatest first valid).1.1 waiting

/-! ### Moves on a condition variable -/

/-- A change of one condition variable, and of the stamp and program counter of a thread
that is blocked on no mutex. -/
theorem Consistent.moveCondition (condition : after.condition = update state.condition id queue)
    (same : SameInheritance state after) (fastMutex : after.fastMutex = state.fastMutex)
    (stamped : ∀ thread, after.enqueuedAt thread < after.clock)
    (untouched : ∀ thread, thread ≠ cur → after.enqueuedAt thread = state.enqueuedAt thread)
    (blockedBefore : (pc cur).blockedOn = none) (blockedAfter : next.blockedOn = none)
    (elsewhere : ∀ other, other ≠ id →
      cur ∉ state.condition other (state.savedPriority cur)) (queued : Keyed queue
      (fun thread => thread ∈ queue (state.savedPriority thread)) state.savedPriority)
    (waiting : ∀ thread, thread ∈ queue (state.savedPriority thread) →
      ∃ target depth timed, update pc cur next thread = .waiting id target depth timed)
    (ordered : Ordered queue after.enqueuedAt)
    (notOwner : ∀ other target depth timed, next = .waiting other target depth timed →
      (state.lockable target).owner ≠ some cur) : Consistent config after (update pc cur next) := by
  have blocked := blockedOn_update_of_notBlocked blockedBefore blockedAfter
  have notBlocked {thread : Fin threads} {target : Lockable}
      (isBlocked : (pc thread).blockedOn = some target) : thread ≠ cur := fun same => by
    rw [same, blockedBefore] at isBlocked
    cases isBlocked
  refine
    { coherent := consistent.coherent.frame same stamped fun thread waits => ?_
      waits := fun thread other => ?_
      fastMutexes := consistent.fastMutexes.congr fastMutex
        (fun thread other => blocked thread (.fastMutex other))
        (fun thread _ _ => congrFun same.savedPriority thread)
        fun thread _ isBlocked => untouched thread (notBlocked isBlocked)
      conditions := ⟨fun other => ?_, fun thread other listed => ?_, fun other => ?_⟩
      released := fun thread other target depth timed isWaiting => ?_ }
  · obtain ⟨other, waitsOn⟩ := Option.ne_none_iff_exists'.mp waits
    exact untouched thread (notBlocked ((consistent.waits thread other).mp waitsOn).1)
  · rw [same.mutexWaiting, same.owner, blocked thread (.mutex other)]
    exact consistent.waits thread other
  · rw [same.savedPriority, condition]
    exact forall_update queued (fun other _ => consistent.conditions.queued other)
  · rw [same.savedPriority, condition] at listed
    revert listed
    refine forall_update (waiting thread) (fun other different listed => ?_)
    have notCur : thread ≠ cur := fun isCur => elsewhere other different (isCur ▸ listed)
    rw [update_of_ne notCur]
    exact consistent.conditions.waiting thread other listed
  · rw [condition]
    refine forall_update ordered (fun other different => ?_)
    refine (consistent.conditions.ordered other).congr fun level thread listed => ?_
    obtain ⟨member, -⟩ := ((consistent.conditions.queued other).mem_iff level thread).mp listed
    exact untouched thread fun isCur => elsewhere other different (isCur ▸ member)
  · have unowned : (state.lockable target).owner ≠ some thread := by
      by_cases isCur : thread = cur
      · subst isCur
        rw [update_self] at isWaiting
        exact notOwner other target depth timed isWaiting
      · rw [update_of_ne isCur] at isWaiting
        exact consistent.released thread other target depth timed isWaiting
    exact State.not_owner unowned same.owner fun id => by rw [fastMutex]

theorem Consistent.not_mem_condition
    (notWaiting : ∀ target depth timed, pc thread ≠ .waiting id target depth timed) :
    thread ∉ state.condition id (state.savedPriority thread) := fun listed => by
  obtain ⟨target, depth, timed, waiting⟩ := consistent.conditions.waiting thread id listed
  exact notWaiting target depth timed waiting

theorem Consistent.enterCondition (outside : pc cur = .outside)
    (notOwner : (state.lockable target).owner ≠ some cur) :
    Consistent config { ConditionVariable.PKenqueue state id cur with calls := calls }
      (update pc cur (.waiting id target depth timed)) := by
  have absent (other : Nat) : cur ∉ state.condition other (state.savedPriority cur) :=
    consistent.not_mem_condition fun _ _ _ => by simp [outside]
  have stays {thread : Fin threads} (different : thread ≠ cur) :
      (ConditionVariable.PKenqueue state id cur).enqueuedAt thread = state.enqueuedAt thread :=
    update_of_ne different _ _
  have older (thread : Fin threads) (level : Int) (listed : thread ∈ state.condition id level) :
      (ConditionVariable.PKenqueue state id cur).enqueuedAt thread = state.enqueuedAt thread :=
    stays fun isCur => by
      obtain ⟨member, -⟩ := ((consistent.conditions.queued id).mem_iff level thread).mp listed
      exact absent id (isCur ▸ member)
  refine consistent.moveCondition
    rfl ⟨rfl, rfl, rfl, rfl, fun _ => rfl, fun _ => rfl⟩ rfl
    (state.stamp_enqueuedAt_lt consistent.coherent.stamped) (fun thread => stays)
    (by rw [outside]; rfl) rfl (fun other _ => absent other)
    ((consistent.conditions.queued id).push cur (absent id)).self (fun thread listed => ?_) ?_ ?_
  · by_cases isCur : thread = cur
    · subst isCur
      exact ⟨target, depth, timed, update_self _ _ _⟩
    · rw [update_of_ne isCur]
      rcases (mem_push_iff _).mp listed with before | ⟨-, isCur'⟩
      · exact consistent.conditions.waiting thread id before
      · contradiction
  · refine ((consistent.conditions.ordered id).congr fun level thread listed =>
      older thread level listed).push (state.savedPriority cur) cur fun thread listed => ?_
    show (ConditionVariable.PKenqueue state id cur).enqueuedAt thread <
      update state.enqueuedAt cur state.clock cur
    rw [older thread _ listed, update_self]
    exact consistent.coherent.stamped thread
  · rintro other _ _ _ ⟨⟩
    exact notOwner

theorem Consistent.leaveCondition (waiting : pc cur = .waiting id target depth timed) :
    Consistent config (ConditionVariable.PKremove state id cur) (update pc cur .outside) := by
  refine consistent.moveCondition
    rfl ⟨rfl, rfl, rfl, rfl, fun _ => rfl, fun _ => rfl⟩ rfl consistent.coherent.stamped
    (fun _ _ => rfl) (by rw [waiting]; rfl) rfl (fun other different => ?_)
    ((consistent.conditions.queued id).remove cur).self (fun thread listed => ?_)
    ((consistent.conditions.ordered id).remove _ cur) (fun _ _ _ _ => by simp)
  · refine consistent.not_mem_condition fun _ _ _ isOther => different ?_
    rw [waiting, Pc.waiting.injEq] at isOther
    exact isOther.1.symm
  · obtain ⟨⟨member, notCur⟩, -⟩ :=
      (((consistent.conditions.queued id).remove cur).mem_iff _ thread).mp listed
    rw [update_of_ne notCur]
    exact consistent.conditions.waiting thread id member

/-- A condition variable loses some of its waiters. -/
theorem Consistent.shrinkCondition (outside : pc cur = .outside) {member : Fin threads → Prop}
    (queued : Keyed queue member state.savedPriority) (subset : ∀ thread, member thread →
      thread ∈ state.condition id (state.savedPriority thread))
    (ordered : Ordered queue state.enqueuedAt) :
    Consistent config { state.setCondition id queue with calls := calls } pc := by
  have moved : Consistent config { state.setCondition id queue with calls := calls }
      (update pc cur .outside) := by
    refine consistent.moveCondition rfl ⟨rfl, rfl, rfl, rfl, fun _ => rfl, fun _ => rfl⟩ rfl
      consistent.coherent.stamped (fun _ _ => rfl) (by rw [outside]; rfl) rfl (fun other _ => ?_)
      queued.self (fun thread listed => ?_) ordered (fun _ _ _ _ => by simp)
    · exact consistent.not_mem_condition fun _ _ _ => by simp [outside]
    · rw [← outside, update_eq_self]
      exact consistent.conditions.waiting thread id
        (subset thread ((queued.mem_iff _ thread).mp listed).1)
  rwa [← outside, update_eq_self] at moved

theorem Consistent.signal (outside : pc cur = .outside)
    (id : Nat) : Consistent config (ConditionVariable.signal config state id) pc := by
  unfold ConditionVariable.signal
  cases first : front (state.condition id) config.numPriorities with
  | none => exact consistent
  | some woken =>
    exact consistent.shrinkCondition outside ((consistent.conditions.queued id).dequeue _)
      (fun _ both => both.1) (consistent.conditions.ordered id).dequeue

/-- `broadcast` leaves no waiter behind. -/
theorem Consistent.broadcast_condition : (ConditionVariable.broadcast config state id).condition =
      update state.condition id fun _ => [] := by
  refine congrArg (update state.condition id) (funext fun level => ?_)
  split
  · rfl
  · rename_i outOfRange
    refine List.eq_nil_iff_forall_not_mem.mpr fun thread listed => outOfRange ?_
    rw [← (((consistent.conditions.queued id).mem_iff level thread).mp listed).2]
    exact consistent.coherent.savedValid thread

section

variable (outside : pc cur = .outside)
include outside

theorem Consistent.broadcast (id : Nat) :
    Consistent config (ConditionVariable.broadcast config state id) pc := by
  have emptied : ConditionVariable.broadcast config state id =
      { state.setCondition id (fun _ => []) with
        calls := (ConditionVariable.broadcast config state id).calls } := by
    show { ConditionVariable.broadcast config state id with
      condition := (ConditionVariable.broadcast config state id).condition } = _
    rw [consistent.broadcast_condition]
    rfl
  rw [emptied]
  exact consistent.shrinkCondition outside (Keyed.empty (fun _ => not_false) _)
    (fun _ nobody => nobody.elim) (Ordered.empty _)

/-! ### Moves of the current thread alone -/

/-- The priorities of a thread in no call. -/
theorem Consistent.reprioritize {saved : Int} (coherent : Coherent config { state with
      savedPriority := update state.savedPriority cur saved
      priority := update state.priority cur priority
      calls := calls }) : Consistent config { state with
      savedPriority := update state.savedPriority cur saved
      priority := update state.priority cur priority
      calls := calls } pc := by
  exact
    { consistent with
      coherent := coherent
      fastMutexes := consistent.fastMutexes.congr rfl (fun _ _ => Iff.rfl) (fun thread id blocked =>
          update_of_ne (ne_of_outside outside (Pc.ne_outside blocked)) _ _)
        fun _ _ _ => rfl
      conditions := consistent.conditions.congr rfl fun thread id target depth timed waiting =>
        ⟨rfl, update_of_ne (ne_of_outside outside (by simp [waiting])) _ _, rfl⟩
      released := fun thread condition target depth timed waiting =>
        State.not_owner (consistent.released thread condition target depth timed waiting)
          (fun _ => rfl) fun _ => rfl }

theorem Consistent.setPriority (wanted : Int) :
    Consistent config (setPriority config state cur wanted) pc := by
  obtain ⟨saved, priority, requests, changed, -, coherent⟩ :=
    setPriority_spec consistent.coherent (consistent.mutexWaiting_outside outside)
  rw [changed] at coherent ⊢
  exact consistent.reprioritize outside coherent

/-- A new thread, which has locked nothing. -/
theorem Consistent.addThread (unlocked : state.mutexLocked cur = [])
    (valid : 0 ≤ priority ∧ priority < config.numPriorities) : Consistent config { state with
      savedPriority := update state.savedPriority cur priority
      priority := update state.priority cur priority } pc := by
  have greatest : Greatest state (state.mutexLocked cur) priority priority := by
    rw [unlocked]
    exact ⟨le_rfl, by simp, .inl rfl⟩
  have coherent := consistent.coherent.reprioritize (consistent.mutexWaiting_outside outside)
    valid.1 valid.2 greatest []
  exact consistent.reprioritize outside (coherent.withCalls state.calls)

end

/-- A thread that was given the mutex it waits for leaves the wait loop. -/
theorem Consistent.unblock
    (blocked : (pc cur).blockedOn = some target) (owns : (state.lockable target).owner = some cur) :
    Consistent config state (update pc cur .outside) := by
  have stays (thread : Fin threads) (other : Lockable)
      (notOwner : (state.lockable other).owner ≠ some thread) :
      (update pc cur .outside thread).blockedOn = some other ↔
        (pc thread).blockedOn = some other := by
    by_cases isCur : thread = cur
    · subst isCur
      rw [update_self, blocked, Option.some_inj]
      exact ⟨nofun, fun same => absurd (same ▸ owns) notOwner⟩
    · rw [update_of_ne isCur]
  have before {thread : Fin threads} {other : Lockable}
      (blocks : (update pc cur .outside thread).blockedOn = some other) :
      (pc thread).blockedOn = some other := by
    by_cases isCur : thread = cur
    · subst isCur
      rw [update_self] at blocks
      cases blocks
    · rwa [update_of_ne isCur] at blocks
  refine
    { consistent with
      waits := fun thread id => (consistent.waits thread id).trans
        (and_congr_left fun notOwner => (stays thread (.mutex id) notOwner).symm)
      fastMutexes := ⟨fun id => ?_, fun thread id blocks => ?_, consistent.fastMutexes.ordered⟩
      conditions := consistent.conditions.congr rfl fun thread id other depth timed waiting =>
        ⟨update_of_ne (fun isCur => ?_) _ _, rfl, rfl⟩
      released := fun thread condition other depth timed waiting => ?_ }
  · refine (consistent.fastMutexes.queued id).congr (fun thread => ?_) fun _ _ => rfl
    exact and_congr_left fun notOwner => stays thread (.fastMutex id) notOwner
  · exact consistent.fastMutexes.owned thread id (before blocks)
  · exact Pc.not_waiting blocked (isCur ▸ waiting)
  · by_cases isCur : thread = cur
    · subst isCur
      rw [update_self] at waiting
      cases waiting
    · rw [update_of_ne isCur] at waiting
      exact consistent.released thread condition other depth timed waiting

end

end Moves

end Miosix.Sync
