/-
This file proves what a wait on a condition variable returns, and whom a signal removes.

A wait ends in three different sections: a signal or broadcast takes the waiter out of the
queue, the timer takes its token out of the sleeping list, and the waiter itself finds out
when it runs again. The record `Watch` notes the first two for the last wait of every
thread. What the waiter returns depends on the second alone, so a waiter that both was
removed and ran out of time reports a timeout; the statements below are about waits in
which at most one of the two happens before the waiter runs again.
-/

import Miosix.Sync.Reachable

namespace Miosix.Sync

open Transition Function LevelQueue
open SleepingList (contains)

variable {threads : Nat} {target : Lockable} {call : Call} {outcome : Outcome} {timed : Bool}
  {condition : Nat} {state : State threads} {pc : Fin threads → Pc}

/-! ### The record of a wait -/

/-- The last wait of each thread: whether a signal or broadcast removed it from the queue, and,
once the timer has taken its token, whether it was still queued then. -/
structure Watch (threads : Nat) where
  removed : Fin threads → Bool
  expired : Fin threads → Option Bool

def Watch.empty : Watch threads where
  removed := fun _ => false
  expired := fun _ => none

/-- The thread stands in the queue of the condition variable it waits on. -/
def Machine.queued (machine : Machine threads) (thread : Fin threads) : Bool :=
  match machine.pc thread with
  | .waiting condition _ _ _ =>
      (machine.sync.condition condition (machine.sync.savedPriority thread)).contains thread
  | _ => false

def Watch.note (watch : Watch threads) (before : Machine threads) (label : Label threads)
    (after : Machine threads) : Watch threads :=
  match label with
  | .call thread (.wait _ _) | .call thread (.timedWait _ _ _) =>
      { removed := update watch.removed thread false
        expired := update watch.expired thread none }
  | .call _ (.signal _) | .call _ (.broadcast _) =>
      { watch with
        removed := fun thread => watch.removed thread ||
          (before.queued thread && !after.queued thread) }
  | .timer _ =>
      { watch with
        expired := fun thread =>
          if contains before.sleepingList thread &&
              !contains after.sleepingList thread then
            some (before.queued thread)
          else watch.expired thread }
  | _ => watch

/-! ### Who stays in a queue -/

section Queues

variable {config : Config} {state after : State threads} {pc : Fin threads → Pc}
  {cur thread : Fin threads} {id other : Nat}

theorem Frame.mem_condition (frame : Frame state after) (thread : Fin threads) (id : Nat) :
    thread ∈ after.condition id (after.savedPriority thread) ↔
      thread ∈ state.condition id (state.savedPriority thread) := by
  rw [frame.condition, frame.savedPriority]

theorem Acquires.frame {taken again : Int} {got : Bool}
    (acquires : Acquires config state pc cur target taken again (.ok (after, got))) :
    Frame state after := by
  cases acquires with
  | took _ _ _ _ frame | relocked _ _ _ _ _ frame | blocked _ _ _ _ _ _ frame => exact frame

theorem mem_PKenqueue_iff (different : thread ≠ cur) :
    thread ∈ (ConditionVariable.PKenqueue state id cur).condition other
        (state.savedPriority thread) ↔
      thread ∈ state.condition other (state.savedPriority thread) := by
  show thread ∈ update state.condition id _ other (state.savedPriority thread) ↔ _
  refine forall_update ?_ (fun other _ => ?_)
  · rw [mem_push_iff]
    exact or_iff_left fun both => different both.2
  · rfl

theorem mem_PKenqueue_self :
    cur ∈ (ConditionVariable.PKenqueue state id cur).condition id (state.savedPriority cur) := by
  show cur ∈ update state.condition id _ id (state.savedPriority cur)
  rw [update_self, mem_push_iff]
  exact Or.inr ⟨rfl, rfl⟩

theorem mem_PKremove_iff (consistent : Consistent config state pc)
    (different : thread ≠ cur) :
    thread ∈ (ConditionVariable.PKremove state id cur).condition other
        (state.savedPriority thread) ↔
      thread ∈ state.condition other (state.savedPriority thread) := by
  show thread ∈ update state.condition id _ other (state.savedPriority thread) ↔ _
  by_cases same : other = id
  · subst same
    rw [update_self, mem_remove_iff _ ((consistent.conditions.queued other).nodup _)]
    exact and_iff_left fun both => different both.2
  · rw [update_of_ne same]

/-- The call removes threads from condition variables. -/
def Call.notifies : Call → Bool
  | .signal _ | .broadcast _ => true
  | _ => false

/-- Only `signal` and `broadcast` take other threads out of a queue. -/
theorem Enters.mem_condition (consistent : Consistent config state pc) (outside : pc cur = .outside)
    (enters : Enters config state pc cur call after outcome) (silent : call.notifies = false)
    {thread : Fin threads} (different : thread ≠ cur) (id : Nat) :
    thread ∈ after.condition id (after.savedPriority thread) ↔
      thread ∈ state.condition id (state.savedPriority thread) := by
  cases enters with
  | lock _ _ acquires | lockBlocked _ _ acquires | tryLock _ _ acquires =>
    exact acquires.frame.mem_condition thread id
  | tryLockFailed => exact Iff.rfl
  | unlockLevel _ _ _ _ _ _ frame _ => exact frame.mem_condition thread id
  | unlock _ _ _ _ releases => exact releases.frame.mem_condition thread id
  | wait _ condition target timed between waits owns releases =>
    exact (mem_PKenqueue_iff different).trans (releases.frame.mem_condition thread id)
  | signal | broadcast => cases silent
  | setPriority priority =>
    obtain ⟨saved, actual, requests, changed, -, -⟩ :=
      setPriority_spec consistent.coherent (consistent.mutexWaiting_outside outside)
    rw [changed]
    show thread ∈ state.condition id (update state.savedPriority cur saved thread) ↔ _
    rw [update_of_ne different]

theorem Resumes.mem_condition (consistent : Consistent config state pc) {removed : Bool}
    (resumes : Resumes config state pc cur removed after outcome)
    {thread : Fin threads} (different : thread ≠ cur) (id : Nat) :
    thread ∈ after.condition id (after.savedPriority thread) ↔
      thread ∈ state.condition id (state.savedPriority thread) := by
  cases resumes with
  | locked | lockBlocked | lockToDepthBlocked => exact Iff.rfl
  | took _ _ _ _ _ _ _ _ _ frame | blocked _ _ _ _ _ _ _ _ _ frame =>
    exact (frame.mem_condition thread id).trans (mem_PKremove_iff consistent different)
  | lockedToDepth target depth =>
    rw [setDepth_eq]
    exact setLockable_frame.mem_condition thread id

end Queues

/-! ### The record tells what a wait returns -/

/-- What the record says of one thread. -/
structure Watched (pc : Pc) (answer : Option Answer) (token queued removed : Bool)
    (expired : Option Bool) : Prop where
  queuedThen : ∀ wasQueued, expired = some wasQueued → removed = false → wasQueued = true
  tokenIff : ∀ condition target depth, pc = .waiting condition target depth true →
    (token = true ↔ expired = none)
  stillQueued : ∀ condition target depth timed, pc = .waiting condition target depth timed →
    removed = false → queued = true
  relocking : ∀ target depth result, pc = .lockToDepth target depth (some result) →
    (result = .timeout ↔ expired ≠ none)
  answered : ∀ result, answer = some (.timed result) → (result = .timeout ↔ expired ≠ none)
  idle : answer ≠ none → pc = .outside

/-- The record is true of every thread. -/
def Watch.Accurate (watch : Watch threads) (machine : Machine threads) : Prop :=
  ∀ thread, Watched (machine.pc thread) (machine.answer thread)
    (contains machine.sleepingList thread) (machine.queued thread)
    (watch.removed thread) (watch.expired thread)

section Threads

variable {pc : Pc} {answer : Option Answer} {token queued removed : Bool}
  {expired : Option Bool}

/-- A signal or broadcast may take the thread out of the queue. -/
theorem Watched.notify (watched : Watched pc answer token queued removed expired)
    {queuedAfter : Bool} :
    Watched pc answer token queuedAfter (removed || (queued && !queuedAfter)) expired := by
  refine { watched with
    queuedThen := fun wasQueued isExpired notRemoved => ?_
    stillQueued := fun condition target depth timed waiting notRemoved => ?_ }
  · rw [Bool.or_eq_false_iff] at notRemoved
    exact watched.queuedThen wasQueued isExpired notRemoved.1
  · rw [Bool.or_eq_false_iff] at notRemoved
    have queuedBefore := watched.stillQueued condition target depth timed waiting notRemoved.1
    rw [queuedBefore, Bool.true_and, Bool.not_eq_false'] at notRemoved
    exact notRemoved.2

/-- The timer may take the token of the thread, but only while it waits. -/
theorem Watched.expire (watched : Watched pc answer token queued removed expired)
    {tokenAfter : Bool} (fewer : tokenAfter = true → token = true)
    (asleep : token = true → ∃ condition target depth, pc = .waiting condition target depth true) :
    Watched pc answer tokenAfter queued removed
      (if token && !tokenAfter then some queued else expired) := by
  have awake (notWaiting : ∀ condition target depth timed,
      pc ≠ .waiting condition target depth timed) :
      (if token && !tokenAfter then some queued else expired) = expired := by
    rw [if_neg]
    rw [Bool.and_eq_true]
    rintro ⟨present, -⟩
    obtain ⟨condition, target, depth, waiting⟩ := asleep present
    exact notWaiting condition target depth true waiting
  refine ⟨fun wasQueued isExpired notRemoved => ?_, fun condition target depth waiting => ?_,
    watched.stillQueued, fun target depth result counter => ?_, fun result isAnswer => ?_,
    watched.idle⟩
  · split at isExpired
    · rename_i taken
      rw [Bool.and_eq_true] at taken
      obtain ⟨condition, target, depth, waiting⟩ := asleep taken.1
      rw [← Option.some_inj.mp isExpired]
      exact watched.stillQueued condition target depth true waiting notRemoved
    · exact watched.queuedThen wasQueued isExpired notRemoved
  · have before := watched.tokenIff condition target depth waiting
    cases tokenAfter with
    | true =>
      rw [if_neg (by simp)]
      exact ⟨fun _ => before.mp (fewer rfl), fun _ => rfl⟩
    | false =>
      cases token with
      | true => simp
      | false => exact before
  · rw [awake (by simp [counter])]
    exact watched.relocking target depth result counter
  · have outside := watched.idle (by simp [isAnswer])
    rw [awake (by simp [outside])]
    exact watched.answered result isAnswer

theorem Outcome.pc_of_answer (answered : outcome.answer ≠ none) : outcome.pc = .outside := by
  cases outcome with
  | returns answer => rfl
  | blocks pc => contradiction

/-- The section is no part of a wait. -/
def Outcome.plain : Outcome → Bool
  | .returns (.timed _) => false
  | .blocks (.waiting _ _ _ _) => false
  | .blocks (.lockToDepth _ _ (some _)) => false
  | _ => true

/-- A section that is no part of a wait leaves the record of the last wait alone. -/
theorem Watched.other (watched : Watched pc answer token queued removed expired)
    (plain : outcome.plain = true) (tokenAfter queuedAfter : Bool) :
    Watched outcome.pc outcome.answer tokenAfter queuedAfter removed expired := by
  refine ⟨watched.queuedThen, fun _ _ _ counter => ?_, fun _ _ _ _ counter => ?_,
    fun _ _ _ counter => ?_, fun _ counter => ?_, Outcome.pc_of_answer⟩
  all_goals
    cases outcome <;> cases counter
    cases plain

theorem waitResult_eq_some {present : Bool} {result : TimedWaitResult}
    (isResult : waitResult timed present = some result) :
    timed = true ∧ (result = .timeout ↔ present = false) := by
  unfold waitResult at isResult
  cases timed with
  | false => cases isResult
  | true =>
    rw [if_pos rfl, Option.some_inj] at isResult
    subst isResult
    cases present <;> simp

theorem Answer.ofResult_eq_timed {result : Option TimedWaitResult} {value : TimedWaitResult}
    (isAnswer : some (Answer.ofResult result) = some (.timed value)) : result = some value := by
  cases result with
  | none => cases isAnswer
  | some result =>
    rw [Answer.ofResult, Option.some_inj, Answer.timed.injEq] at isAnswer
    rw [isAnswer]

/-- A waiter that runs again finds out from its token how the wait ended. -/
theorem Watched.leave (watched : Watched pc answer token queued removed expired) {depth : Nat}
    (waiting : pc = .waiting condition target depth timed)
    (ends : outcome = .returns (.ofResult (waitResult timed token)) ∨
      outcome = .blocks (.lockToDepth target depth (waitResult timed token)))
    (tokenAfter queuedAfter : Bool) :
    Watched outcome.pc outcome.answer tokenAfter queuedAfter removed expired := by
  have told {result : TimedWaitResult} (isResult : waitResult timed token = some result) :
      result = .timeout ↔ expired ≠ none := by
    obtain ⟨rfl, timeout⟩ := waitResult_eq_some isResult
    rw [timeout, ← Bool.not_eq_true, watched.tokenIff condition target depth waiting]
  refine ⟨watched.queuedThen, fun _ _ _ isWaiting => ?_, fun _ _ _ _ isWaiting => ?_,
    fun _ _ result counter => ?_, fun result isAnswer => ?_, Outcome.pc_of_answer⟩
  · rcases ends with rfl | rfl <;> cases isWaiting
  · rcases ends with rfl | rfl <;> cases isWaiting
  · rcases ends with rfl | rfl
    · cases counter
    · rw [Outcome.pc, Pc.lockToDepth.injEq] at counter
      exact told counter.2.2
  · rcases ends with rfl | rfl
    · exact told (Answer.ofResult_eq_timed isAnswer)
    · cases isAnswer

end Threads

/-! ### The record along a run -/

section Runs

variable {config : Config} {machine after : Machine threads} {label : Label threads}
  {watch : Watch threads} {other cur thread : Fin threads} {sync : State threads}
  {priority : Fin threads → Fin config.numPriorities} {recursive : Lockable → Bool}

theorem Machine.queued_congr (pc : after.pc thread = machine.pc thread)
    (member : ∀ id, thread ∈ after.sync.condition id (after.sync.savedPriority thread) ↔
      thread ∈ machine.sync.condition id (machine.sync.savedPriority thread)) :
    after.queued thread = machine.queued thread := by
  unfold Machine.queued
  rw [pc]
  split
  · rw [Bool.eq_iff_iff, List.contains_iff_mem, List.contains_iff_mem]
    exact member _
  · rfl

theorem contains_sleepAfter_of_ne {tokens : List (SleepToken threads)}
    (different : other ≠ thread) :
    contains (sleepAfter tokens thread call) other = contains tokens other := by
  cases call with
  | timedWait condition target absTime =>
    rw [Bool.eq_iff_iff]
    exact (SleepingList.contains_enqueue tokens).trans (or_iff_right different)
  | _ => rfl

/-- A call that removes nobody leaves the record of the other threads alone. -/
theorem Watch.note_call_of_ne (different : other ≠ thread)
    (silent : call.notifies = false) :
    (watch.note machine (.call thread call) after).removed other = watch.removed other ∧
      (watch.note machine (.call thread call) after).expired other = watch.expired other := by
  cases call with
  | wait | timedWait => exact ⟨update_of_ne different _ _, update_of_ne different _ _⟩
  | signal | broadcast => cases silent
  | _ => exact ⟨rfl, rfl⟩

/-- A wait starts a new record of the waiting thread. -/
theorem Watch.note_wait (watch : Watch threads) (machine after : Machine threads)
    (waits : call.waits = some (condition, target, timed)) :
    (watch.note machine (.call thread call) after).removed thread = false ∧
      (watch.note machine (.call thread call) after).expired thread = none := by
  cases call <;> cases waits <;> exact ⟨update_self _ _ _, update_self _ _ _⟩

theorem Enters.plain (enters : Enters config state pc cur call sync outcome)
    (noWait : call.waits = none) : outcome.plain = true := by
  cases enters with
  | wait _ _ _ _ _ waits => rw [noWait] at waits; cases waits
  | _ => rfl

/-- The first section of a call keeps the record of the calling thread. -/
theorem Enters.watched
    (enters : Enters config machine.sync.clearCalls machine.pc cur call sync outcome)
    (accurate : watch.Accurate machine)
    (pc : after.pc cur = outcome.pc) (answer : after.answer cur = outcome.answer)
    (sleepingList : after.sleepingList = sleepAfter machine.sleepingList cur call)
    (state : after.sync = sync) :
    Watched (after.pc cur) (after.answer cur) (contains after.sleepingList cur)
      (after.queued cur) ((watch.note machine (.call cur call) after).removed cur)
      ((watch.note machine (.call cur call) after).expired cur) := by
  have before := accurate cur
  rw [answer]
  cases waits : call.waits with
  | none =>
    have plain := enters.plain waits
    rw [pc]
    cases call with
    | wait | timedWait => cases waits
    | signal | broadcast => exact before.notify.other plain _ _
    | _ => exact before.other plain _ _
  | some triple =>
    obtain ⟨condition, target, timed⟩ := triple
    obtain ⟨notRemoved, notExpired⟩ := watch.note_wait machine after waits
    rw [notRemoved, notExpired]
    cases enters with
    | wait _ _ _ _ between waitsOn owns releases =>
      obtain ⟨rfl, rfl, rfl⟩ : condition = _ ∧ target = _ ∧ timed = _ := by
        simpa [waits] using waitsOn
      have queued : after.queued cur = true := by
        unfold Machine.queued
        rw [pc, state]
        exact List.contains_iff_mem.mpr mem_PKenqueue_self
      have asleep : timed = true →
          contains (sleepAfter machine.sleepingList cur call) cur = true := by
        rintro rfl
        cases call <;> cases waits
        exact (SleepingList.contains_enqueue _).mpr (Or.inl rfl)
      rw [pc, queued, sleepingList]
      refine ⟨nofun, fun _ _ _ waiting => ?_, fun _ _ _ _ _ _ => rfl, nofun, nofun, absurd rfl⟩
      rw [Outcome.pc, Pc.waiting.injEq] at waiting
      exact ⟨fun _ => rfl, fun _ => asleep waiting.2.2.2⟩
    | _ => cases waits

/-- The section of a thread that runs again keeps its record. -/
theorem Resumes.watched (resumes : Resumes config machine.sync.clearCalls machine.pc cur
      (contains machine.sleepingList cur) sync outcome)
    (accurate : watch.Accurate machine) (tokenAfter queuedAfter : Bool) :
    Watched outcome.pc outcome.answer tokenAfter queuedAfter (watch.removed cur)
      (watch.expired cur) := by
  have before := accurate cur
  cases resumes with
  | locked | lockBlocked => exact before.other rfl _ _
  | took _ _ _ _ _ counter => exact before.leave counter (Or.inl rfl) _ _
  | blocked _ _ _ _ _ counter => exact before.leave counter (Or.inr rfl) _ _
  | lockedToDepth target depth result counter =>
    refine ⟨before.queuedThen, nofun, nofun, nofun, fun value isAnswer => ?_, Outcome.pc_of_answer⟩
    exact before.relocking target depth value
      (counter.trans (congrArg _ (Answer.ofResult_eq_timed isAnswer)))
  | lockToDepthBlocked target depth result counter =>
    refine ⟨before.queuedThen, nofun, nofun, fun _ _ value waiting => ?_,
      nofun, Outcome.pc_of_answer⟩
    exact before.relocking _ _ value (counter.trans waiting)

/-- One step keeps the record true. -/
theorem Steps.accurate (sound : machine.Sound config) (steps : Steps config machine label after)
    (accurate : watch.Accurate machine) : (watch.note machine label after).Accurate after := by
  have consistent := sound.consistent.clearCalls
  intro other
  have before := accurate other
  cases steps with
  | call thread call sync outcome outside enters =>
    by_cases same : other = thread
    · subst same
      exact enters.watched accurate (update_self _ _ _) (update_self _ _ _) rfl rfl
    · have pc : update machine.pc thread outcome.pc other = machine.pc other :=
        update_of_ne same _ _
      show Watched (update machine.pc thread outcome.pc other)
        (update machine.answer thread outcome.answer other)
        (contains (sleepAfter machine.sleepingList thread call) other) _ _ _
      rw [pc, update_of_ne same, contains_sleepAfter_of_ne same]
      cases silent : call.notifies with
      | true =>
        cases call <;> cases silent <;> exact before.notify
      | false =>
        rw [(Watch.note_call_of_ne same silent).1, (Watch.note_call_of_ne same silent).2,
          Machine.queued_congr pc (enters.mem_condition consistent outside silent same)]
        exact before
  | resume thread sync outcome inside resumes =>
    by_cases same : other = thread
    · subst same
      show Watched (update machine.pc other outcome.pc other)
        (update machine.answer other outcome.answer other) _ _ _ _
      rw [update_self, update_self]
      exact resumes.watched accurate _ _
    · have pc : update machine.pc thread outcome.pc other = machine.pc other :=
        update_of_ne same _ _
      show Watched (update machine.pc thread outcome.pc other)
        (update machine.answer thread outcome.answer other)
        (contains (SleepingList.remove machine.sleepingList thread) other) _ _ _
      rw [pc, update_of_ne same, SleepingList.contains_remove_of_ne same,
        Machine.queued_congr pc (resumes.mem_condition consistent same)]
      exact before
  | timer now =>
    refine before.expire (fun present => ?_) (sound.asleep other)
    exact SleepingList.contains_of_sublist TimeQueue.pending_sublist present

theorem initial_accurate : Watch.empty.Accurate (Machine.initial config priority recursive) :=
  fun _ => ⟨nofun, nofun, nofun, nofun, nofun, fun _ => rfl⟩

theorem reachable_accurate {labels : List (Label threads)}
    {observed : Machine threads × Watch threads}
    (run : Run (observing (exec config) Watch.note) unrestricted
      (Machine.initial config priority recursive, Watch.empty) labels observed) :
    observed.1.Sound config ∧ observed.2.Accurate observed.1 := by
  refine run.observed (fun machine watch => machine.Sound config ∧ watch.Accurate machine)
    (fun _ _ _ _ holds _ stepped => ?_) ⟨Machine.initial_sound priority recursive, initial_accurate⟩
  have steps := exec_steps holds.1 stepped
  exact ⟨steps.sound holds.1, steps.accurate holds.1 holds.2⟩

end Runs

/-! ### The contract of a condition variable -/

/-- The waiter that is due by saved priority is removed and woken. -/
def Signals (before after : State threads) (id : Nat) : Prop :=
  ∃ woken, Foremost (before.condition id) before.savedPriority before.enqueuedAt woken ∧
    (∀ level other, other ∈ after.condition id level ↔
      other ∈ before.condition id level ∧ woken ≠ some other) ∧
    after.calls = (woken.map .wakeup).toList

/-- All waiters are removed and woken. -/
def Broadcasts (before after : State threads) (id : Nat) : Prop :=
  ∀ level, after.condition id level = [] ∧
    ∀ other ∈ before.condition id level, .wakeup other ∈ after.calls

/-- What the condition variables are to provide. A waiter that was removed, and whose deadline did
not pass before it ran again, does not time out; one that was not removed times out only if its
deadline passed while it was queued. -/
structure ConditionContract (config : Config) (machine : Machine threads)
    (watch : Watch threads) : Prop where
  signal : ∀ thread id after, exec config machine (.call thread (.signal id)) = some after →
    Signals machine.sync after.sync id
  broadcast : ∀ thread id after, exec config machine (.call thread (.broadcast id)) = some after →
    Broadcasts machine.sync after.sync id
  removed : ∀ thread value, machine.answer thread = some (.timed value) →
    watch.removed thread = true → watch.expired thread = none → value = .noTimeout
  timeout : ∀ thread, machine.answer thread = some (.timed .timeout) →
    watch.removed thread = false → watch.expired thread = some true

section Contract

variable {config : Config} {machine after : Machine threads} {id : Nat} {thread : Fin threads}

theorem signal_removes (consistent : Consistent config state pc) :
    (∀ level other, other ∈ (ConditionVariable.signal config state id).condition id level ↔
        other ∈ state.condition id level ∧
          front (state.condition id) config.numPriorities ≠ some other) ∧
      (ConditionVariable.signal config state id).calls = state.calls ++
        ((front (state.condition id) config.numPriorities).map .wakeup).toList := by
  have keyed := consistent.conditions.queued id
  unfold ConditionVariable.signal
  cases first : front (state.condition id) config.numPriorities with
  | none => exact ⟨fun _ _ => (and_iff_left (by simp)).symm, (List.append_nil _).symm⟩
  | some woken =>
    refine ⟨fun level other => ?_, rfl⟩
    show other ∈ update state.condition id _ id level ↔ _
    rw [update_self, keyed.dequeue_eq first, keyed.mem_iff level other]
    refine ((keyed.remove woken).mem_iff level other).trans ?_
    rw [ne_eq, ne_eq, Option.some_inj]
    exact ⟨fun both => ⟨⟨both.1.1, both.2⟩, fun same => both.1.2 same.symm⟩,
      fun both => ⟨⟨both.1.1, fun same => both.2 same.symm⟩, both.1.2⟩⟩

theorem Steps.signal (sound : machine.Sound config)
    (steps : Steps config machine (.call thread (.signal id)) after) :
    Signals machine.sync after.sync id := by
  have consistent := sound.consistent.clearCalls
  cases steps with
  | call _ _ sync outcome outside enters =>
    cases enters with
    | wait _ _ _ _ _ waits => cases waits
    | signal =>
      obtain ⟨members, calls⟩ := signal_removes consistent
      refine ⟨_, ?_, members, calls⟩
      exact (consistent.conditions.queued id).front_foremost (consistent.conditions.ordered id)
        fun other _ => consistent.coherent.savedValid other

theorem Steps.broadcast (sound : machine.Sound config)
    (steps : Steps config machine (.call thread (.broadcast id)) after) :
    Broadcasts machine.sync after.sync id := by
  intro level
  have consistent := sound.consistent.clearCalls
  cases steps with
  | call _ _ sync outcome outside enters =>
    cases enters with
    | wait _ _ _ _ _ waits => cases waits
    | broadcast =>
      constructor
      · rw [consistent.broadcast_condition, update_self]
      · intro other listed
        have valid := consistent.coherent.savedValid other
        rw [(((consistent.conditions.queued id).mem_iff level other).mp listed).2] at valid
        exact List.mem_append_right _ (List.mem_map_of_mem ((mem_listing_iff _ _ _).mpr
          ⟨level, valid.1, valid.2, listed⟩))

/-- In every reachable state the condition variables keep their contract. -/
theorem condition_contract (config : Config)
    (priority : Fin threads → Fin config.numPriorities) (recursive : Lockable → Bool)
    (labels : List (Label threads)) (machine : Machine threads) (watch : Watch threads)
    (run : Run (observing (exec config) Watch.note) unrestricted
      (Machine.initial config priority recursive, Watch.empty) labels (machine, watch)) :
    ConditionContract config machine watch := by
  obtain ⟨sound, accurate⟩ := reachable_accurate run
  refine ⟨fun _ _ _ stepped => (exec_steps sound stepped).signal sound,
    fun _ _ _ stepped => (exec_steps sound stepped).broadcast sound,
    fun thread value answered _ inTime => ?_, fun thread answered notRemoved => ?_⟩
  · cases value with
    | noTimeout => rfl
    | timeout => exact absurd inTime (((accurate thread).answered _ answered).mp rfl)
  · obtain ⟨wasQueued, expired⟩ :=
      Option.ne_none_iff_exists'.mp (((accurate thread).answered _ answered).mp rfl)
    rw [expired, (accurate thread).queuedThen wasQueued expired notRemoved]

/-- A timed wait that is signalled, and one that is not. -/
def signalAndTimeout (waiter signaller : Fin threads) : List (Label threads) :=
  [.call waiter (.lock (.mutex 0)), .call waiter (.timedWait 0 (.mutex 0) 200000),
    .call signaller (.signal 0), .resume waiter, .call waiter (.timedWait 0 (.mutex 0) 300000),
    .timer 300000, .resume waiter]

theorem condition_contract_signalAndTimeout : ∃ (machine : Machine 2) (watch : Watch 2),
      Run (observing (exec defaultConfig) Watch.note) unrestricted
        (Machine.initial defaultConfig (Fin.castLE (by decide)) fun _ => false, Watch.empty)
        (signalAndTimeout 0 1) (machine, watch) ∧
      machine.answer 0 = some (.timed .timeout) ∧
      ConditionContract defaultConfig machine watch :=
  exists_observed (fun machine _ => machine.answer 0 = some (.timed .timeout)) (by decide)
    fun _ _ run late => ⟨run, late, condition_contract _ _ _ _ _ _ run⟩

/-- A thread waits on a condition variable and is then boosted by a third one, which waits for
one of its mutexes. A second one waits on the condition variable as well. -/
def boostedCondition (first second third : Fin threads) : List (Label threads) :=
  [.call first (.lock (.mutex 0)), .call first (.lock (.fastMutex 0)),
    .call first (.wait 0 (.fastMutex 0)), .call second (.lock (.fastMutex 0)),
    .call second (.wait 0 (.fastMutex 0)), .call third (.lock (.mutex 0))]

/-- A thread waits with a deadline, is signalled before the deadline, and does not get to run
until the deadline has passed. -/
def lateWaiter (waiter signaller : Fin threads) : List (Label threads) :=
  [.call waiter (.lock (.mutex 0)), .call waiter (.timedWait 0 (.mutex 0) 200000),
    .call signaller (.signal 0), .timer 300000, .resume waiter]

/-- A signal passes over a boosted waiter, and a waiter that a signal removed can time out. -/
theorem signal_ignores_boost_and_deadline : (∃ machine, Run (exec defaultConfig) unrestricted
        (Machine.initial defaultConfig (fun thread : Fin 4 => (thread + 1 : Fin 4)) fun _ => false)
        (boostedCondition 0 1 2) machine ∧
      machine.queued 0 = true ∧ machine.queued 1 = true ∧
      machine.sync.priority 1 < machine.sync.priority 0 ∧
      ∃ after, exec defaultConfig machine (.call 3 (.signal 0)) = some after ∧
        after.queued 0 = true ∧ after.queued 1 = false) ∧
    ∃ (machine : Machine 2) (watch : Watch 2),
      Run (observing (exec defaultConfig) Watch.note) unrestricted
        (Machine.initial defaultConfig (Fin.castLE (by decide)) fun _ => false, Watch.empty)
        (lateWaiter 0 1) (machine, watch) ∧
      watch.removed 0 = true ∧ machine.answer 0 = some (.timed .timeout) := by
  constructor
  · refine exists_run (fun machine => machine.queued 0 = true ∧ machine.queued 1 = true ∧
      machine.sync.priority 1 < machine.sync.priority 0 ∧
      ∃ after ∈ exec defaultConfig machine (.call 3 (.signal 0)),
        after.queued 0 = true ∧ after.queued 1 = false) (by decide)
      fun _ run passed => ⟨run, passed⟩
  · exact exists_observed (fun machine watch => watch.removed 0 = true ∧
      machine.answer 0 = some (.timed .timeout)) (by decide) fun _ _ run passed => ⟨run, passed⟩

end Contract

end Miosix.Sync
