/-
This file says what a section of the synchronization primitives asks of the scheduler.

The requests of a section are carried out one by one, each under the global lock, while
other cores go on. What matters for them is that no request leaves a thread waiting for a core
that somebody else should give up (`Careful`): a thread that is boosted is followed by the
caller going to wait, and a caller that drops to a lower priority is followed at once by the
wakeup of a thread that outranks it.
-/

import Miosix.Sync.Sections

namespace Miosix.Sync

open Function LevelQueue List

variable {threads : Nat} {config : Config} {pc : Fin threads → Pc} {cur : Fin threads}

/-! ### Requests -/

/-- The priorities once a request is carried out. -/
def SchedulerCall.reprice (priority : Fin threads → Int) : SchedulerCall threads → Fin threads → Int
  | .setPriority thread value => update priority thread value
  | .setOwnPriority thread value _ => update priority thread value
  | .wakeup _ => priority
  | .restartKernelAndWait _ => priority

def repriced (priority : Fin threads → Int) (requests : List (SchedulerCall threads)) :
    Fin threads → Int :=
  requests.foldl SchedulerCall.reprice priority

/-- The requests of a section add up to what it does to the priorities. -/
structure Asked (before : State threads) (requests : List (SchedulerCall threads))
    (after : State threads) : Prop where
  calls : after.calls = before.calls ++ requests
  priority : after.priority = repriced before.priority requests

variable {before after state : State threads} {requests : List (SchedulerCall threads)}
  {real blocked : Fin threads → Prop} {priority other : Fin threads → Int} {thread : Fin threads}
  {got : Bool} {id : Nat} {target : Lockable} {outcome : Outcome} {first : State threads}
  {woken : List (Fin threads)} {value : Int}

theorem Asked.nothing (calls : after.calls = before.calls)
    (priority : after.priority = before.priority) : Asked before [] after :=
  ⟨calls.trans (append_nil _).symm, priority⟩

theorem Asked.append {second third : State threads} {more : List (SchedulerCall threads)}
    (one : Asked first requests second) (two : Asked second more third)
    : Asked first (requests ++ more) third where
  calls := by rw [two.calls, one.calls, append_assoc]
  priority := by rw [two.priority, one.priority, repriced, repriced, repriced, foldl_append]

/-- What a request needs of those that follow it. -/
def Prudent (config : Config) (blocked : Fin threads → Prop) (cur : Fin threads)
    (priority : Fin threads → Int) (rest : List (SchedulerCall threads)) :
    SchedulerCall threads → Prop
  | .setPriority thread value => (0 ≤ value ∧ value < config.numPriorities) ∧
      (.restartKernelAndWait cur ∈ rest ∨ (thread = cur ∧ (value < priority cur →
        ∃ next, next ≠ cur ∧ blocked next ∧ rest.head? = some (.wakeup next) ∧
          value < priority next)))
  | .setOwnPriority thread value pendingWakeup =>
      (0 ≤ value ∧ value < config.numPriorities) ∧ thread = cur ∧
        pendingWakeup = decide (value < priority cur)
  | .wakeup _ => True
  | .restartKernelAndWait thread => thread = cur ∧ rest = []

/-- Every request is followed by what it needs. -/
def Careful (config : Config) (blocked : Fin threads → Prop) (cur : Fin threads) :
    (Fin threads → Int) → List (SchedulerCall threads) → Prop
  | _, [] => True
  | priority, request :: rest => Prudent config blocked cur priority rest request ∧
      Careful config blocked cur (request.reprice priority) rest

/-- A request that is harmless before the caller goes to wait. -/
def Mild (config : Config) : SchedulerCall threads → Prop
  | .setPriority _ value => 0 ≤ value ∧ value < config.numPriorities
  | .wakeup _ => True
  | .setOwnPriority _ _ _ => False
  | .restartKernelAndWait _ => False

theorem SchedulerCall.reprice_congr (request : SchedulerCall threads)
    (same : ∀ thread, real thread → other thread = priority thread) (thread : Fin threads)
    (known : real thread) : request.reprice other thread = request.reprice priority thread := by
  cases request with
  | setPriority changed value | setOwnPriority changed value _ =>
    show update other changed value thread = update priority changed value thread
    by_cases here : thread = changed
    · rw [here, update_self, update_self]
    · rw [update_of_ne here, update_of_ne here, same thread known]
  | wakeup _ | restartKernelAndWait _ => exact same thread known

/-- Only the priorities of the caller and of blocked threads matter. -/
theorem Careful.transfer (careful : Careful config blocked cur priority requests)
    (sub : ∀ thread, blocked thread → real thread) (realCur : real cur)
    (same : ∀ thread, real thread → other thread = priority thread) :
    Careful config real cur other requests := by
  induction requests generalizing priority other with
  | nil => trivial
  | cons request requests inductionHypothesis =>
    refine ⟨?_, inductionHypothesis careful.2 fun thread known => ?_⟩
    · have first := careful.1
      cases request with
      | setPriority thread value =>
        refine ⟨first.1, first.2.imp id fun ⟨isCur, lowers⟩ => ⟨isCur, fun lower => ?_⟩⟩
        obtain ⟨next, different, inside, head, outranks⟩ := lowers (same cur realCur ▸ lower)
        exact ⟨next, different, sub next inside, head,
          (same next (sub next inside)).symm ▸ outranks⟩
      | setOwnPriority thread value pendingWakeup =>
        exact ⟨first.1, first.2.1, by rw [first.2.2, same cur realCur]⟩
      | wakeup thread => trivial
      | restartKernelAndWait thread => exact first
    · exact request.reprice_congr same thread known

theorem careful_of_mild (priority : Fin threads → Int)
    (mild : ∀ request ∈ requests, Mild config request) :
    Careful config blocked cur priority (requests ++ [.restartKernelAndWait cur]) := by
  induction requests generalizing priority with
  | nil => exact ⟨⟨rfl, rfl⟩, trivial⟩
  | cons request requests inductionHypothesis =>
    refine ⟨?_, inductionHypothesis _ fun other listed => mild other (mem_cons_of_mem _ listed)⟩
    have first := mild request mem_cons_self
    cases request with
    | setPriority thread value => exact ⟨first, .inl (by simp)⟩
    | setOwnPriority | restartKernelAndWait => contradiction
    | wakeup thread => trivial

theorem careful_wakeups : Careful config blocked cur priority (woken.map .wakeup) := by
  induction woken with
  | nil => trivial
  | cons thread woken inductionHypothesis => exact ⟨trivial, inductionHypothesis⟩

theorem repriced_wakeups : repriced priority (woken.map .wakeup) = priority := by
  induction woken with
  | nil => rfl
  | cons thread woken inductionHypothesis => exact inductionHypothesis

theorem repriced_congr (same : ∀ thread, real thread → other thread = priority thread)
    (known : real thread) : repriced other requests thread = repriced priority requests thread := by
  induction requests generalizing priority other with
  | nil => exact same thread known
  | cons request requests inductionHypothesis =>
    exact inductionHypothesis (request.reprice_congr same)

theorem SchedulerCall.reprice_fresh {request : SchedulerCall threads}
    (different : request.target ≠ thread) (priority : Fin threads → Int) :
    request.reprice (update priority thread value) =
      update (request.reprice priority) thread value := by
  cases request with
  | setPriority _ _ | setOwnPriority _ _ _ => exact update_comm (Ne.symm different) _ _ _
  | wakeup _ | restartKernelAndWait _ => rfl

/-- The priority of a thread that no request is about. -/
theorem repriced_fresh (unused : ∀ request ∈ requests, request.target ≠ thread)
    (priority : Fin threads → Int) : repriced (update priority thread value) requests =
      update (repriced priority requests) thread value := by
  induction requests generalizing priority with
  | nil => rfl
  | cons request requests inductionHypothesis =>
    show repriced (request.reprice _) requests = _
    rw [SchedulerCall.reprice_fresh (unused request mem_cons_self)]
    exact inductionHypothesis (fun other listed => unused other (mem_cons_of_mem _ listed)) _

theorem Careful.fresh (careful : Careful config blocked cur priority requests)
    (unused : ∀ request ∈ requests, request.target ≠ thread) (notCur : cur ≠ thread) (value : Int) :
    Careful config blocked cur (update priority thread value) requests := by
  induction requests generalizing priority with
  | nil => trivial
  | cons request requests inductionHypothesis =>
    have later : ∀ other ∈ requests, other.target ≠ thread :=
      fun other listed => unused other (mem_cons_of_mem _ listed)
    refine ⟨?_, ?_⟩
    · have first := careful.1
      cases request with
      | setPriority changed newValue =>
        refine ⟨first.1, first.2.imp id fun ⟨isCur, lowers⟩ => ⟨isCur, fun lower => ?_⟩⟩
        rw [update_of_ne notCur] at lower
        obtain ⟨next, different, inside, head, outranks⟩ := lowers lower
        have apart : next ≠ thread := later _ (mem_of_mem_head? head)
        exact ⟨next, different, inside, head, by rwa [update_of_ne apart]⟩
      | setOwnPriority changed newValue pendingWakeup =>
        exact ⟨first.1, first.2.1, by rw [first.2.2, update_of_ne notCur]⟩
      | wakeup _ => trivial
      | restartKernelAndWait _ => exact first
    · rw [SchedulerCall.reprice_fresh (unused request mem_cons_self)]
      exact inductionHypothesis careful.2 later

/-! ### Acquiring -/

theorem inheritLoop_asked {priority : Int} (fuel : Nat) (walk : Fin threads)
    (state final : State threads)
    (result : Mutex.inheritLoop priority fuel walk state = .ok final) :
    ∃ requests, Asked state requests final ∧
      ∀ request ∈ requests, ∃ thread, request = .setPriority thread priority := by
  induction fuel generalizing walk state with
  | zero => cases result
  | succ fuel inductionHypothesis =>
    rw [Mutex.inheritLoop] at result
    split at result
    · split at result
      · cases result
        exact ⟨[.setPriority walk priority], ⟨rfl, rfl⟩, by simp⟩
      · rename_i id waits
        dsimp only at result
        split at result
        · cases result
        · rename_i owner owned
          obtain ⟨requests, asked, boosts⟩ := inductionHypothesis owner _ result
          have moved : Asked state [.setPriority walk priority]
            (Mutex.requeue state id walk priority) := ⟨rfl, rfl⟩
          exact ⟨_, moved.append asked, by simpa using boosts⟩
    · cases result
      exact ⟨[], .nothing rfl rfl, by simp⟩

/-- A section that takes a mutex asks for nothing, and one that waits for it ends in the wait. -/
def Acquired (config : Config) (cur : Fin threads) (before after : State threads) : Bool → Prop
  | true => Asked before [] after
  | false => ∃ requests, (∀ request ∈ requests, Mild config request) ∧
      Asked before (requests ++ [.restartKernelAndWait cur]) after

theorem Acquired.congr (acquired : Acquired config cur before after got)
    (calls : before.calls = first.calls) (priority : before.priority = first.priority) :
    Acquired config cur first after got := by
  have same {requests : List (SchedulerCall threads)} (asked : Asked before requests after) :
      Asked first requests after :=
    ⟨asked.calls.trans (by rw [calls]), asked.priority.trans (by rw [priority])⟩
  cases got with
  | true => exact same acquired
  | false =>
    obtain ⟨requests, mild, asked⟩ := acquired
    exact ⟨requests, mild, same asked⟩

theorem waitForOwner_acquired (consistent : Consistent config state pc)
    (outside : pc cur = .outside) {holder : Fin threads}
    (owned : (state.mutex id).owner = some holder) (other : holder ≠ cur)
    (result : Mutex.waitForOwner state id cur = .ok (after, got)) :
    Acquired config cur state after got := by
  obtain ⟨boosted, -, waits, -⟩ := waitForOwner_spec consistent.coherent
    (consistent.mutexWaiting_outside outside) owned other
  obtain ⟨-, rfl⟩ := Prod.mk.inj (Except.ok.inj (waits.symm.trans result))
  unfold Mutex.waitForOwner at result
  split at result
  · cases result
  · split at result
    · cases result
    · rename_i mid inherited
      unfold Mutex.inheritPriorityTowardsMutexOwner at inherited
      split at inherited
      · cases inherited
      · obtain ⟨requests, asked, boosts⟩ := inheritLoop_asked _ _ _ _ inherited
        refine ⟨requests, fun request listed => ?_, ?_⟩
        · obtain ⟨thread, rfl⟩ := boosts request listed
          exact consistent.coherent.priorityValid cur
        · have ends := Except.ok.inj result
          unfold Mutex.awaitOwnership at ends
          split at ends
          · exact absurd (Prod.mk.inj ends).2 (by simp)
          · cases ends
            have before : Asked state requests (Mutex.PKenqueue mid id cur) :=
              { asked with }
            exact before.append ⟨rfl, rfl⟩

theorem awaitOwnership_acquired (result : state.awaitOwnership target cur = (after, got)) :
    Acquired config cur state after got := by
  have ends (owns : Prop) [Decidable owns]
      (answer : (if owns then (state, true) else (state.call (.restartKernelAndWait cur), false)) =
        (after, got)) : Acquired config cur state after got := by
    split at answer
    · cases answer
      exact .nothing rfl rfl
    · cases answer
      exact ⟨[], by simp, rfl, rfl⟩
  cases target with
  | mutex | fastMutex => exact ends _ result

/-- Going to wait for a `FastMutex`, which boosts nobody. -/
theorem enqueue_acquired
    (result : FastMutex.awaitOwnership (FastMutex.PKenqueue state id cur) id cur = (after, got)) :
    Acquired config cur state after got := by
  have ends : Acquired config cur (FastMutex.PKenqueue state id cur) after got :=
    awaitOwnership_acquired
      (show State.awaitOwnership _ (.fastMutex id) cur = (after, got) from result)
  exact ends.congr rfl rfl

theorem take_asked {depth : Int} : Asked state [] (state.take target cur depth) := by
  cases target with
  | mutex | fastMutex => exact .nothing rfl rfl

theorem setLockable_asked (target : Lockable)
    (data : MutexData threads) : Asked state [] (state.setLockable target data) := by
  cases target with
  | mutex | fastMutex => exact .nothing rfl rfl

theorem attempt_acquired (consistent : Consistent config state pc) (outside : pc cur = .outside)
    {taken again : Int} (result : state.attempt target cur taken again = .ok (after, got)) :
    Acquired config cur state after got := by
  unfold State.attempt at result
  split at result
  · cases result
    exact take_asked
  · rename_i owner owned
    split at result
    · split at result
      · cases result
        exact setLockable_asked target _
      · cases result
    · rename_i other
      cases target with
      | mutex id => exact waitForOwner_acquired consistent outside owned other result
      | fastMutex id => exact enqueue_acquired (Except.ok.inj result)

theorem tryLock_asked : Asked state [] (state.tryLock target cur).1 := by
  rw [tryLock_eq]
  split
  · exact take_asked
  · split
    · exact setLockable_asked target _
    · exact .nothing rfl rfl

/-! ### Releasing -/

/-- A section that releases a mutex, or only wakes threads. -/
def Released (config : Config) (pc : Fin threads → Pc) (cur : Fin threads)
    (before after : State threads) : Prop :=
  ∃ requests, Careful config (fun thread => pc thread ≠ .outside) cur before.priority requests ∧
    (∀ request ∈ requests, Mild config request) ∧ Asked before requests after

/-- A thread that drops to a lower priority had it from the thread that is woken: what it gets
from its other mutexes it keeps. -/
theorem heir_outranks (coherent : Coherent config state) {priority : Int}
    (greatest : Greatest state ((state.mutexLocked cur).erase id)
      (state.savedPriority cur) priority)
    (lower : priority < state.priority cur) :
    ∃ next, front (state.mutex id).waitQueue config.numPriorities = some next ∧
      priority < state.priority next := by
  have bounded : ∀ other, state.mutexWaiting other = some id → 0 ≤ state.priority other ∧
      state.priority other < config.numPriorities := fun other _ => coherent.priorityValid other
  obtain ⟨waiter, waits, same⟩ : ∃ waiter, state.mutexWaiting waiter = some id ∧
      state.priority waiter = state.priority cur := by
    rcases coherent.attained cur with saved | ⟨waiter, other, waits, owned, same⟩
    · exact absurd greatest.baseLe (by omega)
    · refine ⟨waiter, ?_, same⟩
      by_cases released : other = id
      · exact released ▸ waits
      · have kept : other ∈ (state.mutexLocked cur).erase id :=
          (mem_erase_of_ne released).mpr ((coherent.lockedIff cur other).mpr owned)
        exact absurd (greatest.waiterLe waiter other kept waits) (by omega)
  cases first : front (state.mutex id).waitQueue config.numPriorities with
  | none =>
    exact absurd waits ((coherent.queued id).not_member_of_front_eq_none first bounded waiter)
  | some next =>
    obtain ⟨-, highest⟩ := (coherent.queued id).front_greatest first bounded
    exact ⟨next, rfl, by have := highest waiter waits; omega⟩

theorem release_released (consistent : Consistent config state pc) (outside : pc cur = .outside)
    (owns : (state.mutex id).owner = some cur)
    (result : Mutex.release config state id = .ok after) : Released config pc cur state after := by
  obtain ⟨priority, requests, released, greatest, asked, -⟩ := release_spec consistent.coherent
    (consistent.mutexWaiting_outside outside) owns
  obtain rfl := Except.ok.inj (released.symm.trans result)
  have valid := greatest.valid consistent.coherent (consistent.coherent.savedValid cur).1
    (consistent.coherent.savedValid cur).2
  have lowers : Asked state requests (lowered state id cur priority requests) := by
    refine ⟨rfl, ?_⟩
    rcases asked with ⟨rfl, rfl⟩ | ⟨rfl, -⟩
    · exact update_eq_self cur state.priority
    · rfl
  have mild : ∀ request ∈ requests, Mild config request := by
    rcases asked with ⟨rfl, -⟩ | ⟨rfl, -⟩
    · simp
    · simpa [Mild] using valid
  unfold afterRelease
  cases first : front (state.mutex id).waitQueue config.numPriorities with
  | none =>
    refine ⟨requests, ?_, mild, lowers.calls, lowers.priority⟩
    rcases asked with ⟨rfl, -⟩ | ⟨rfl, -⟩
    · trivial
    · refine ⟨⟨valid, .inr ⟨rfl, fun lower => ?_⟩⟩, trivial⟩
      obtain ⟨next, found, -⟩ := heir_outranks consistent.coherent greatest lower
      rw [first] at found
      cases found
  | some next =>
    have blocked := consistent.heir_blocked
      (show state.heir config (.mutex id) = some next from first)
    have inside : pc next ≠ .outside := Pc.ne_outside blocked.1
    have handed : Asked (lowered state id cur priority requests) [.wakeup next]
      (handedOver config (lowered state id cur priority requests) id next) := ⟨rfl, rfl⟩
    refine ⟨requests ++ [.wakeup next], ?_, ?_, lowers.append handed⟩
    · rcases asked with ⟨rfl, -⟩ | ⟨rfl, -⟩
      · exact ⟨trivial, trivial⟩
      · refine ⟨⟨valid, .inr ⟨rfl, fun lower => ?_⟩⟩, trivial, trivial⟩
        obtain ⟨heir, found, outranks⟩ := heir_outranks consistent.coherent greatest lower
        obtain rfl := Option.some_inj.mp (first.symm.trans found)
        exact ⟨next, ne_of_outside outside inside, inside, rfl, outranks⟩
    · intro request listed
      rcases mem_append.mp listed with early | last
      · exact mild request early
      · rw [mem_singleton.mp last]
        trivial

theorem wakeOne_released : Released config pc cur state (FastMutex.wakeOne config state id) := by
  unfold FastMutex.wakeOne
  split
  · exact ⟨[], trivial, by simp, .nothing rfl rfl⟩
  · rename_i next first
    exact ⟨[.wakeup next], ⟨trivial, trivial⟩, by simp [Mild], rfl, rfl⟩

/-- Setting a field of a mutex asks for nothing more. -/
theorem Released.setLockable (released : Released config pc cur before after)
    (target : Lockable) (data : MutexData threads) :
    Released config pc cur before (after.setLockable target data) := by
  obtain ⟨requests, careful, mild, asked⟩ := released
  have more := asked.append (setLockable_asked target data)
  rw [append_nil] at more
  exact ⟨requests, careful, mild, more⟩

section

variable (consistent : Consistent config state pc)
include consistent

section

variable (outside : pc cur = .outside) (owns : state.owner target = some cur)

include outside owns

theorem release_target_released
    (result : state.release config target = .ok after) : Released config pc cur state after := by
  cases target with
  | mutex id => exact release_released consistent outside owns result
  | fastMutex id => exact Except.ok.inj result ▸ wakeOne_released

theorem unlock_released (result : state.unlock config target cur = .ok after) :
    Released config pc cur state after := by
  have level : Released config pc cur state state := ⟨[], trivial, by simp, .nothing rfl rfl⟩
  rw [unlock_eq owns] at result
  split at result
  · exact Except.ok.inj result ▸ level.setLockable target _
  · exact release_target_released consistent outside owns result

theorem PKunlockAllDepthLevels_released {depth : Nat}
    (result : state.PKunlockAllDepthLevels config target cur = .ok (after, depth)) :
    Released config pc cur state after := by
  obtain ⟨between, ended, -⟩ := release_releases consistent outside owns
  have released := release_target_released consistent outside owns ended
  rw [PKunlockAllDepthLevels_eq owns ended] at result
  split at result
  · cases result
    exact released
  · cases result
    exact released.setLockable target _

end

end

/-! ### The sections -/

/-- What a section asks of the scheduler. -/
def Asks (config : Config) (pc : Fin threads → Pc) (cur : Fin threads)
    (before after : State threads) : Prop :=
  ∃ requests, Asked before requests after ∧
    Careful config (fun thread => pc thread ≠ .outside) cur before.priority requests

theorem Acquired.asks (acquired : Acquired config cur before after got) :
    Asks config pc cur before after := by
  cases got with
  | true => exact ⟨[], acquired, trivial⟩
  | false =>
    obtain ⟨requests, mild, asked⟩ := acquired
    exact ⟨_, asked, careful_of_mild _ mild⟩

theorem Released.asks (released : Released config pc cur before after) :
    Asks config pc cur before after := by
  obtain ⟨requests, careful, -, asked⟩ := released
  exact ⟨requests, asked, careful⟩

section

variable (consistent : Consistent config state pc)

include consistent

theorem beginWait_asks (outside : pc cur = .outside)
    {condition : Nat} {timed : Bool} (allowed : (decide (config.extraChecks ≠ .none) ||
      decide ((state.lockable target).owner = some cur)) = true)
    (result : beginWait config state cur condition target timed = .ok (after, outcome)) :
    Asks config pc cur state after := by
  unfold beginWait at result
  split at result
  · cases result
  · rename_i between depth unlocked
    have owns : state.owner target = some cur := by
      by_contra notOwner
      rw [PKunlockAllDepthLevels_refused (checks_of_permitted allowed notOwner) notOwner]
        at unlocked
      cases unlocked
    obtain ⟨requests, -, mild, asked⟩ :=
      PKunlockAllDepthLevels_released consistent outside owns unlocked
    cases result
    have waits : Asked between [.restartKernelAndWait cur]
      ((ConditionVariable.PKenqueue between condition cur).call (.restartKernelAndWait cur)) :=
        ⟨rfl, rfl⟩
    exact ⟨_, asked.append waits, careful_of_mild _ mild⟩

theorem setPriority_asks (outside : pc cur = .outside)
    {wanted : Int} : Asks config pc cur state (setPriority config state cur wanted) := by
  obtain ⟨saved, priority, requests, result, asked, coherent⟩ := setPriority_spec
    consistent.coherent (consistent.mutexWaiting_outside outside)
  have valid := coherent.priorityValid cur
  simp only [result, update_self] at valid
  rw [result]
  rcases asked with ⟨rfl, rfl⟩ | rfl
  · exact ⟨[], .nothing (append_nil _) (update_eq_self cur state.priority), trivial⟩
  · exact ⟨_, ⟨rfl, rfl⟩, ⟨valid, rfl, rfl⟩, trivial⟩

theorem enter_asks (outside : pc cur = .outside)
    {call : Call} (allowed : permitted config state cur call = true)
    (result : enter config state cur call = .ok (after, outcome)) :
    Asks config pc cur state after := by
  cases call with
  | lock target =>
    simp only [enter, lock_eq] at result
    split at result
    · cases result
    all_goals
      rename_i locked
      cases result
      exact (attempt_acquired consistent outside locked).asks
  | tryLock target =>
    cases result
    exact ⟨[], tryLock_asked, trivial⟩
  | unlock target =>
    simp only [enter] at result
    split at result
    · cases result
    · rename_i unlocked
      have owns : state.owner target = some cur := by
        by_contra notOwner
        rw [unlock_refused (checks_of_permitted allowed notOwner) notOwner] at unlocked
        cases unlocked
      cases result
      exact (unlock_released consistent outside owns unlocked).asks
  | wait | timedWait => exact beginWait_asks consistent outside allowed result
  | signal condition =>
    cases result
    unfold ConditionVariable.signal
    split
    · exact ⟨[], .nothing rfl rfl, trivial⟩
    · exact ⟨_, ⟨rfl, rfl⟩, trivial, trivial⟩
  | broadcast condition =>
    cases result
    exact ⟨_, ⟨rfl, repriced_wakeups.symm⟩, careful_wakeups⟩
  | setPriority priority =>
    cases result
    exact setPriority_asks consistent outside

theorem resume_asks {removed : Bool}
    (result : resume state cur (pc cur) removed = .ok (after, outcome)) :
    Asks config pc cur state after := by
  cases counter : pc cur with
  | outside =>
    rw [counter] at result
    cases result
  | lock target =>
    rw [counter] at result
    simp only [resume] at result
    split at result
    all_goals
      rename_i awaited
      cases result
      exact (awaitOwnership_acquired awaited).asks
  | waiting condition target depth timed =>
    rw [counter] at result
    simp only [resume, PKlockToDepth_eq] at result
    have left := consistent.leaveCondition counter
    split at result
    · cases result
    all_goals
      rename_i locked
      cases result
      have acquired : Acquired config cur state _ _ :=
        (attempt_acquired left (update_self cur .outside pc) locked).congr rfl rfl
      exact acquired.asks
  | lockToDepth target depth answer =>
    rw [counter] at result
    simp only [resume] at result
    split at result
    · rename_i awaited
      cases result
      obtain ⟨requests, asked, careful⟩ := (awaitOwnership_acquired awaited).asks
      cases target <;> exact ⟨requests, { asked with }, careful⟩
    · rename_i awaited
      cases result
      exact (awaitOwnership_acquired awaited).asks

end

end Miosix.Sync
