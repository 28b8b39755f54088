/-
This file proves that mutexes exclude, and how they are handed over.

What a thread knows of a mutex is how many of its calls to `lock` it has not yet undone.
The ledger keeps that count for every thread and mutex, from the answers of the calls alone,
together with the depth a thread had when it began to wait on a condition variable. The
invariant `Agrees` says that the ledger and the code's own fields tell the same story: a
thread that counts a lock is the owner, and the recursive depth is one less than the count.
-/

import Miosix.Sync.Reachable

namespace Miosix.Sync

open Transition Function LevelQueue Option State

variable {threads : Nat}

/-! ### The ledger -/

/-- What the threads know from the answers of their calls. While a thread waits on a condition
variable, `kept` is the count it gave up, and `depth` the depth the mutex had. -/
structure Ledger (threads : Nat) where
  held : Fin threads → Lockable → Nat
  kept : Fin threads → Nat
  depth : Fin threads → Int

def Ledger.empty : Ledger threads where
  held := fun _ _ => 0
  kept := fun _ => 0
  depth := fun _ => 0

section

variable (ledger : Ledger threads) (thread : Fin threads) {count : Nat}

def Ledger.setHeld (target : Lockable) (count : Nat) : Ledger threads :=
  { ledger with
    held := update ledger.held thread
      (update (ledger.held thread) target count) }

theorem Ledger.setHeld_self {target : Lockable}
    : (ledger.setHeld thread target count).held thread target = count := by
  show update ledger.held thread _ thread target = count
  rw [update_self, update_self]

theorem Ledger.setHeld_of_ne {thread other : Fin threads} {target otherTarget : Lockable}
    (different : other ≠ thread ∨ otherTarget ≠ target) :
    (ledger.setHeld thread target count).held other otherTarget =
      ledger.held other otherTarget := by
  show update ledger.held thread _ other otherTarget = _
  by_cases same : other = thread
  · subst same
    rw [update_self, update_of_ne (different.resolve_left fun other => other rfl)]
  · rw [update_of_ne same]

/-- The mutex and the depth that the wait under way will lock again. -/
def Pc.restores : Pc → Option (Lockable × Nat)
  | .waiting _ target depth _ => some (target, depth)
  | .lockToDepth target depth _ => some (target, depth)
  | _ => none

/-- The ledger after the first section of a call. -/
def Ledger.enter (before : State threads) (thread : Fin threads)
    (call : Call) (answer : Option Answer) : Ledger threads :=
  match call with
  | .lock target =>
      if answer = some .done then
        ledger.setHeld thread target (ledger.held thread target + 1)
      else ledger
  | .tryLock target =>
      if answer = some (.tried true) then
        ledger.setHeld thread target (ledger.held thread target + 1)
      else ledger
  | .unlock target => ledger.setHeld thread target (ledger.held thread target - 1)
  | .wait _ target | .timedWait _ target _ =>
      { ledger.setHeld thread target 0 with
        kept := update ledger.kept thread (ledger.held thread target)
        depth := update ledger.depth thread (before.depth target) }
  | _ => ledger

/-- The ledger after a blocked thread has run again. -/
def Ledger.resume (pc : Pc) (answer : Option Answer) : Ledger threads :=
  if answer = none then ledger
  else
    match pc.restores, pc.blockedOn with
    | some (target, _), _ => ledger.setHeld thread target (ledger.kept thread)
    | none, some target => ledger.setHeld thread target (ledger.held thread target + 1)
    | none, none => ledger

end

def Ledger.note (ledger : Ledger threads) (before : Machine threads) (label : Label threads)
    (after : Machine threads) : Ledger threads :=
  match label with
  | .call thread call => ledger.enter before.sync thread call (after.answer thread)
  | .resume thread => ledger.resume thread (before.pc thread) (after.answer thread)
  | .timer _ => ledger

/-! ### The ledger agrees with the code -/

/-- The depth a mutex of the given kind has, when a wait saved `depth`. -/
def restored (recursive : Bool) (depth : Nat) : Int := if recursive then depth else -1

/-- The ledger and the fields of the mutexes agree. -/
structure Agrees (recursive : Lockable → Bool) (owner : Lockable → Option (Fin threads))
    (depth : Lockable → Int) (pc : Fin threads → Pc) (ledger : Ledger threads) : Prop where
  kind : ∀ target, if recursive target then 0 ≤ depth target else depth target = -1
  holds : ∀ thread target, 0 < ledger.held thread target →
    owner target = some thread ∧ (pc thread).blockedOn ≠ some target ∧
      (ledger.held thread target : Int) = max (depth target) 0 + 1
  owned : ∀ thread target, owner target = some thread →
    (pc thread).blockedOn = some target ∨ 0 < ledger.held thread target
  shallow : ∀ target, (∀ thread, ledger.held thread target = 0) → depth target ≤ 0
  saved : ∀ thread target level, (pc thread).restores = some (target, level) →
    ledger.depth thread = restored (recursive target) level ∧
      (ledger.kept thread : Int) = max (restored (recursive target) level) 0 + 1

/-- The count of the current thread changes for one mutex, and with it what its program counter
saves. -/
structure Recounts (recursive : Lockable → Bool) (ledger newLedger : Ledger threads)
    (cur : Fin threads) (target : Lockable) (count : Nat) (next : Pc) : Prop where
  held : newLedger.held = (ledger.setHeld cur target count).held
  others : ∀ thread, thread ≠ cur →
    newLedger.depth thread = ledger.depth thread ∧ newLedger.kept thread = ledger.kept thread
  unblocked : next.blockedOn = none
  saved : ∀ other level, next.restores = some (other, level) →
    newLedger.depth cur = restored (recursive other) level ∧
      (newLedger.kept cur : Int) = max (restored (recursive other) level) 0 + 1

section Agreement

variable {recursive : Lockable → Bool} {owner : Lockable → Option (Fin threads)}
  {depth : Lockable → Int} {pc : Fin threads → Pc} {ledger : Ledger threads}
  {cur : Fin threads} {target : Lockable} {count : Nat}

theorem not_blocked (outside : pc cur = .outside) (other : Lockable) :
    (pc cur).blockedOn ≠ some other := by
  rw [outside]
  exact nofun

section

variable (agrees : Agrees recursive owner depth pc ledger)

include agrees

/-- Only the owner counts a lock. -/
theorem Agrees.alone (owns : owner target = some cur) (thread : Fin threads)
    (isOther : thread ≠ cur) : ledger.held thread target = 0 := by
  by_contra positive
  have also := (agrees.holds thread target (Nat.pos_of_ne_zero positive)).1
  exact isOther (some_inj.mp (also.symm.trans owns))

theorem Agrees.held_of_owner
    (owns : owner target = some cur) (notBlocked : (pc cur).blockedOn ≠ some target) :
    (ledger.held cur target : Int) = max (depth target) 0 + 1 :=
  (agrees.holds cur target ((agrees.owned cur target owns).resolve_left notBlocked)).2.2

/-- Nobody counts a lock on a mutex that is free or is being handed over. -/
theorem Agrees.unheld
    (idle : ∀ thread, owner target = some thread → (pc thread).blockedOn = some target)
    (thread : Fin threads) : ledger.held thread target = 0 := by
  by_contra positive
  obtain ⟨owns, notBlocked, -⟩ := agrees.holds thread target (Nat.pos_of_ne_zero positive)
  exact notBlocked (idle thread owns)

/-- Only the program counter of one thread changes. -/
theorem Agrees.setPc {next : Pc}
    (notOwner : ∀ other, next.blockedOn = some other → owner other ≠ some cur)
    (notBlocked : (pc cur).blockedOn = none)
    (restores : ∀ pair, next.restores = some pair → (pc cur).restores = some pair) :
    Agrees recursive owner depth (update pc cur next) ledger := by
  refine ⟨agrees.kind, fun thread other positive => ?_, fun thread other owns => ?_,
    agrees.shallow, fun thread other level isSaved => ?_⟩
  · obtain ⟨owns, unblocked, count⟩ := agrees.holds thread other positive
    refine ⟨owns, ?_, count⟩
    by_cases isCur : thread = cur
    · subst isCur
      rw [update_self]
      exact fun blocks => notOwner other blocks owns
    · rw [update_of_ne isCur]
      exact unblocked
  · rcases agrees.owned thread other owns with blocked | positive
    · by_cases isCur : thread = cur
      · subst isCur
        rw [notBlocked] at blocked
        cases blocked
      · rw [update_of_ne isCur]
        exact Or.inl blocked
    · exact Or.inr positive
  · by_cases isCur : thread = cur
    · subst isCur
      rw [update_self] at isSaved
      exact agrees.saved thread other level (restores _ isSaved)
    · rw [update_of_ne isCur] at isSaved
      exact agrees.saved thread other level isSaved

/-- One mutex that only the current thread may count a lock on changes, with the count and the
program counter of that thread. -/
theorem Agrees.move (alone : ∀ thread, thread ≠ cur → ledger.held thread target = 0)
    (blockedBefore : ∀ other, (pc cur).blockedOn = some other → other = target)
    {newOwner : Option (Fin threads)} {newDepth : Int} {next : Pc} {newLedger : Ledger threads}
    (recounts : Recounts recursive ledger newLedger cur target count next)
    (kind : if recursive target then 0 ≤ newDepth else newDepth = -1)
    (holds : 0 < count → newOwner = some cur ∧ (count : Int) = max newDepth 0 + 1)
    (owned : ∀ thread, newOwner = some thread →
      (thread ≠ cur ∧ (pc thread).blockedOn = some target) ∨ (thread = cur ∧ 0 < count))
    (shallow : count = 0 → newDepth ≤ 0) :
    Agrees recursive (update owner target newOwner)
      (update depth target newDepth) (update pc cur next) newLedger := by
  have heldCur : newLedger.held cur target = count := by
    rw [recounts.held]
    exact ledger.setHeld_self cur
  have heldElse {thread : Fin threads} {other : Lockable}
      (different : thread ≠ cur ∨ other ≠ target) :
      newLedger.held thread other = ledger.held thread other := by
    rw [recounts.held]
    exact ledger.setHeld_of_ne different
  refine ⟨fun other => ?_, fun thread other positive => ?_, fun thread other owns => ?_,
    fun other nobody => ?_, fun thread other level isSaved => ?_⟩
  · exact forall_update kind (fun other _ => agrees.kind other)
  · by_cases isCur : thread = cur
    · subst isCur
      rw [update_self, recounts.unblocked]
      by_cases same : other = target
      · subst same
        rw [heldCur] at positive ⊢
        rw [update_self, update_self]
        exact ⟨(holds positive).1, by simp, (holds positive).2⟩
      · rw [heldElse (Or.inr same)] at positive ⊢
        rw [update_of_ne same, update_of_ne same]
        obtain ⟨owns, -, countEq⟩ := agrees.holds thread other positive
        exact ⟨owns, by simp, countEq⟩
    · rw [heldElse (Or.inl isCur)] at positive ⊢
      have different : other ≠ target := fun same => by
        rw [same, alone thread isCur] at positive
        contradiction
      rw [update_of_ne isCur, update_of_ne different, update_of_ne different]
      exact agrees.holds thread other positive
  · by_cases same : other = target
    · subst same
      rw [update_self] at owns
      rcases owned thread owns with ⟨isOther, blocked⟩ | ⟨rfl, positive⟩
      · rw [update_of_ne isOther]
        exact Or.inl blocked
      · rw [heldCur]
        exact Or.inr positive
    · rw [update_of_ne same] at owns
      rw [heldElse (Or.inr same)]
      rcases agrees.owned thread other owns with blocked | positive
      · by_cases isCur : thread = cur
        · subst isCur
          exact absurd (blockedBefore other blocked) same
        · rw [update_of_ne isCur]
          exact Or.inl blocked
      · exact Or.inr positive
  · by_cases same : other = target
    · subst same
      rw [update_self]
      exact shallow (heldCur ▸ nobody cur)
    · rw [update_of_ne same]
      refine agrees.shallow other fun thread => ?_
      rw [← heldElse (Or.inr same)]
      exact nobody thread
  · by_cases isCur : thread = cur
    · subst isCur
      rw [update_self] at isSaved
      exact recounts.saved other level isSaved
    · rw [update_of_ne isCur] at isSaved
      rw [(recounts.others thread isCur).1, (recounts.others thread isCur).2]
      exact agrees.saved thread other level isSaved

theorem Agrees.depthAfter_eq {level : Nat} :
    depthAfter (depth target) level = restored (recursive target) level := by
  have kind := agrees.kind target
  unfold depthAfter restored
  by_cases isRecursive : recursive target = true
  · rw [if_pos isRecursive] at kind ⊢
    rw [if_pos kind]
  · rw [if_neg isRecursive] at kind ⊢
    rw [kind, if_neg (by decide)]

end

theorem restored_kind {isRecursive : Bool} {level : Nat} :
    if isRecursive then 0 ≤ restored isRecursive level else restored isRecursive level = -1 := by
  cases isRecursive with
  | true => exact Int.natCast_nonneg level
  | false => rfl

section

variable (agrees : Agrees recursive owner depth pc ledger)
  (blockedBefore : ∀ other, (pc cur).blockedOn = some other → other = target)

include agrees blockedBefore

/-- The current thread owns a mutex that no other thread counts a lock on. -/
theorem Agrees.obtain (alone : ∀ thread, thread ≠ cur → ledger.held thread target = 0)
    {newDepth : Int} (kind : if recursive target then 0 ≤ newDepth else newDepth = -1)
    (countEq : (count : Int) = max newDepth 0 + 1) :
    Agrees recursive (update owner target (some cur))
      (update depth target newDepth) (update pc cur .outside)
      (ledger.setHeld cur target count) := by
  have positive : 0 < count := by omega
  refine agrees.move alone blockedBefore ⟨rfl, fun _ _ => ⟨rfl, rfl⟩, rfl, nofun⟩ kind
    (fun _ => ⟨rfl, countEq⟩) (fun thread same => ?_) fun none => absurd none positive.ne'
  exact Or.inr ⟨(some_inj.mp same).symm, positive⟩

theorem Agrees.obtain_first
    (idle : ∀ thread, owner target = some thread → (pc thread).blockedOn = some target) :
    Agrees recursive (update owner target (some cur)) depth
      (update pc cur .outside)
      (ledger.setHeld cur target (ledger.held cur target + 1)) := by
  have shallow := agrees.shallow target (agrees.unheld idle)
  have count : ((ledger.held cur target + 1 : Nat) : Int) = max (depth target) 0 + 1 := by
    rw [agrees.unheld idle cur]
    omega
  have obtained := agrees.obtain blockedBefore (fun thread _ => agrees.unheld idle thread)
    (agrees.kind target) count
  rwa [update_eq_self] at obtained

end

end Agreement

/-! ### One section -/

section Sections

variable {config : Config} {recursive : Lockable → Bool} {state after : State threads}
  {pc : Fin threads → Pc} {ledger : Ledger threads} {cur : Fin threads} {outcome : Outcome}
  {target : Lockable}

theorem blockedOn_of_outside (outside : pc cur = .outside) (other : Lockable)
    (blocked : (pc cur).blockedOn = some other) : other = target :=
  absurd blocked (not_blocked outside other)

theorem Acquires.agrees (acquires : Acquires config state pc cur target (state.depth target)
      (state.depth target + 1) (.ok (after, true))) (outside : pc cur = .outside)
    (agrees : Agrees recursive state.owner state.depth pc ledger) :
    Agrees recursive after.owner after.depth (update pc cur .outside)
      (ledger.setHeld cur target (ledger.held cur target + 1)) := by
  cases acquires with
  | took _ unowned owner depth _ _ =>
    rw [owner, depth, update_eq_self]
    exact agrees.obtain_first (blockedOn_of_outside outside)
      fun thread owns => nomatch unowned.symm.trans owns
  | relocked _ owns deep owner depth _ _ =>
    have count := agrees.held_of_owner owns (not_blocked outside target)
    have isRecursive : recursive target = true := by
      by_contra notRecursive
      have kind := agrees.kind target
      rw [if_neg notRecursive] at kind
      omega
    rw [owner, depth, ← update_eq_self target state.owner, owns]
    refine agrees.obtain (blockedOn_of_outside outside) (agrees.alone owns) ?_ (by push_cast; omega)
    rw [if_pos isRecursive]
    omega

theorem Agrees.unchanged (agrees : Agrees recursive state.owner state.depth pc ledger)
    (outside : pc cur = .outside) (owner : after.owner = state.owner)
    (depth : after.depth = state.depth) :
    Agrees recursive after.owner after.depth (update pc cur .outside) ledger := by
  rw [owner, depth, update_outside outside]
  exact agrees

theorem Agrees.release (consistent : Consistent config state pc)
    (agrees : Agrees recursive state.owner state.depth pc ledger) (outside : pc cur = .outside)
    (owns : state.owner target = some cur) {newDepth : Int} {next : Pc}
    {newLedger : Ledger threads}
    (recounts : Recounts recursive ledger newLedger cur target 0 next)
    (kind : if recursive target then 0 ≤ newDepth else newDepth = -1) (shallow : newDepth ≤ 0) :
    Agrees recursive (update state.owner target (state.heir config target))
      (update state.depth target newDepth) (update pc cur next) newLedger := by
  refine agrees.move (agrees.alone owns) (blockedOn_of_outside outside) recounts kind
    (fun positive => absurd positive (lt_irrefl 0)) (fun thread heir => Or.inl ?_) fun _ => shallow
  obtain ⟨blocked, notOwner⟩ := consistent.heir_blocked heir
  exact ⟨fun same => notOwner (same ▸ owns), blocked⟩

theorem signal_owner {id : Nat} : (ConditionVariable.signal config state id).owner = state.owner ∧
      (ConditionVariable.signal config state id).depth = state.depth := by
  unfold ConditionVariable.signal
  split
  · exact ⟨rfl, rfl⟩
  · exact ⟨owner_congr rfl rfl, depth_congr rfl rfl⟩

theorem setPriority_owner {priority : Int} :
    (Sync.setPriority config state cur priority).owner = state.owner ∧
      (Sync.setPriority config state cur priority).depth = state.depth := by
  have mutexes : (Sync.setPriority config state cur priority).mutex = state.mutex ∧
      (Sync.setPriority config state cur priority).fastMutex = state.fastMutex := by
    unfold Sync.setPriority applyPriority
    dsimp only
    split_ifs <;> exact ⟨rfl, rfl⟩
  exact ⟨owner_congr mutexes.1 mutexes.2, depth_congr mutexes.1 mutexes.2⟩

/-- The first section of a call keeps the ledger true. -/
theorem Enters.agrees (consistent : Consistent config state pc) (outside : pc cur = .outside)
    {call : Call} (enters : Enters config state pc cur call after outcome)
    (agrees : Agrees recursive state.owner state.depth pc ledger) :
    Agrees recursive after.owner after.depth (update pc cur outcome.pc)
      (ledger.enter state cur call outcome.answer) := by
  cases enters with
  | lock _ _ acquires | tryLock _ _ acquires => exact acquires.agrees outside agrees
  | lockBlocked target _ acquires =>
    cases acquires with
    | blocked _ holder owned other owner depth _ _ =>
      rw [owner, depth]
      refine agrees.setPc (fun target blocks => ?_) (by rw [outside]; rfl) nofun
      obtain rfl := some_inj.mp blocks
      rw [owned, ne_eq, some_inj]
      exact other
  | tryLockFailed target => exact agrees.unchanged outside rfl rfl
  | unlockLevel target _ owns deep owner depth _ _ =>
    have count := agrees.held_of_owner owns (not_blocked outside target)
    have kind := agrees.kind target
    rw [owner, depth, ← update_eq_self target state.owner, owns]
    refine agrees.obtain (blockedOn_of_outside outside) (agrees.alone owns) ?_ (by omega)
    split at kind
    · rw [if_pos (by assumption)]
      omega
    · omega
  | unlock target _ owns shallow releases =>
    have count := agrees.held_of_owner owns (not_blocked outside target)
    have last : ledger.held cur target - 1 = 0 := by omega
    rw [releases.owner, releases.depth, ← update_eq_self target state.depth]
    exact agrees.release consistent outside owns
      ⟨congrArg (fun count => (ledger.setHeld cur target count).held) last,
        fun _ _ => ⟨rfl, rfl⟩, rfl, nofun⟩ (agrees.kind target) shallow
  | wait _ condition target timed between waits owns releases =>
    have count := agrees.held_of_owner owns (not_blocked outside target)
    have kind := agrees.kind target
    have entered : ledger.enter state cur call (Outcome.blocks
        (.waiting condition target (state.depth target).toNat timed)).answer =
        { ledger.setHeld cur target 0 with
          kept := update ledger.kept cur (ledger.held cur target)
          depth := update ledger.depth cur (state.depth target) } := by
      cases call <;> cases waits <;> rfl
    rw [entered, owner_call, depth_call, owner_PKenqueue,
      depth_PKenqueue, releases.owner, releases.depth]
    refine agrees.release consistent outside owns ⟨rfl,
      fun thread isOther => ⟨update_of_ne isOther _ _, update_of_ne isOther _ _⟩, rfl, ?_⟩ ?_
      (min_le_right _ _)
    · rintro _ _ ⟨⟩
      show update ledger.depth cur (state.depth target) cur = _ ∧
        ((update ledger.kept cur (ledger.held cur target) cur : Nat) : Int) = _
      rw [update_self, update_self, count]
      unfold restored
      split at kind
      · rw [if_pos (by assumption), Int.toNat_of_nonneg kind]
        exact ⟨rfl, rfl⟩
      · rw [if_neg (by assumption), kind]
        exact ⟨rfl, rfl⟩
    · split at kind
      · rw [if_pos (by assumption), min_eq_right kind]
      · rw [if_neg (by assumption), kind]
        rfl
  | signal condition =>
    exact agrees.unchanged outside signal_owner.1 signal_owner.2
  | broadcast condition =>
    exact agrees.unchanged outside (owner_congr rfl rfl) (depth_congr rfl rfl)
  | setPriority priority =>
    exact agrees.unchanged outside setPriority_owner.1 setPriority_owner.2

/-- A blocked thread that runs again keeps the ledger true. -/
theorem Resumes.agrees {removed : Bool}
    (resumes : Resumes config state pc cur removed after outcome)
    (agrees : Agrees recursive state.owner state.depth pc ledger) :
    Agrees recursive after.owner after.depth (update pc cur outcome.pc)
      (ledger.resume cur (pc cur) outcome.answer) := by
  cases resumes with
  | locked target counter owns =>
    have blocked : (pc cur).blockedOn = some target := by rw [counter]; rfl
    have noted : ledger.resume cur (pc cur) (some .done) =
        ledger.setHeld cur target (ledger.held cur target + 1) := by
      rw [counter]
      rfl
    show Agrees _ _ _ _ (ledger.resume cur (pc cur) (some .done))
    rw [noted, ← update_eq_self target state.owner, owns]
    exact agrees.obtain_first
      (fun other isBlocked => some_inj.mp (isBlocked.symm.trans blocked))
      fun thread isOwner => some_inj.mp (owns.symm.trans isOwner) ▸ blocked
  | lockBlocked _ counter | lockToDepthBlocked _ _ _ counter =>
    rw [Outcome.pc, ← counter, update_eq_self]
    exact agrees
  | took condition target depth timed _ counter unowned owner depthAfter frame kept =>
    obtain ⟨_, count⟩ := agrees.saved cur target depth (by rw [counter]; rfl)
    rw [show ledger.resume cur (pc cur) _ = ledger.setHeld cur target (ledger.kept cur) by
      rw [counter]; rfl, owner, depthAfter, agrees.depthAfter_eq]
    refine agrees.obtain (fun other blocked => ?_) (fun thread _ => agrees.unheld
      (fun thread owns => nomatch unowned.symm.trans owns) thread) restored_kind count
    rw [counter] at blocked
    cases blocked
  | blocked condition target depth timed _ counter notOwner owner sameDepth frame kept =>
    rw [owner, sameDepth]
    refine agrees.setPc (fun other blocks => ?_) (by rw [counter]; rfl) fun pair saved => ?_
    · exact some_inj.mp blocks ▸ notOwner
    · rw [counter]
      exact saved
  | lockedToDepth target depth result counter owns =>
    have blocked : (pc cur).blockedOn = some target := by rw [counter]; rfl
    obtain ⟨_, count⟩ := agrees.saved cur target depth (by rw [counter]; rfl)
    rw [show ledger.resume cur (pc cur) _ = ledger.setHeld cur target (ledger.kept cur) by
      rw [counter]; rfl, setDepth_eq, state.owner_setLockable, state.depth_setLockable,
      agrees.depthAfter_eq]
    show Agrees _ (update state.owner target (state.owner target)) _ _ _
    rw [owns]
    exact agrees.obtain
      (fun other isBlocked => some_inj.mp (isBlocked.symm.trans blocked))
      (agrees.alone owns) restored_kind count

end Sections

/-! ### The order of the wait queues -/

section

variable (state : State threads) (target : Lockable) (thread : Fin threads)

/-- The priority that orders the waiters of a mutex: the actual one where the mutex hands it
on to its owner, and otherwise the saved one. -/
def State.urgency : Int :=
  match target with
  | .mutex _ => state.priority thread
  | .fastMutex _ => state.savedPriority thread

/-- The thread stands in the wait queue of the mutex. -/
def State.Queued : Prop :=
  thread ∈ (state.lockable target).waitQueue (state.urgency target thread)

/-- The waiter that is due. -/
def State.FirstInLine : Option (Fin threads) → Prop :=
  Foremost (state.lockable target).waitQueue (state.urgency target) state.enqueuedAt

end

section Queues

variable {config : Config} {state : State threads} {pc : Fin threads → Pc} {target : Lockable}

section

variable (consistent : Consistent config state pc)

include consistent

theorem Consistent.keyed :
    Keyed (state.lockable target).waitQueue (state.Queued target) (state.urgency target) := by
  cases target with
  | mutex id => exact (consistent.coherent.queued id).self
  | fastMutex id => exact (consistent.fastMutexes.queued id).self

theorem Consistent.ordered (target : Lockable) :
    Ordered (state.lockable target).waitQueue state.enqueuedAt := by
  cases target with
  | mutex id => exact consistent.coherent.ordered id
  | fastMutex id => exact consistent.fastMutexes.ordered id

theorem Consistent.urgencyValid (target : Lockable) (thread : Fin threads) :
    0 ≤ state.urgency target thread ∧ state.urgency target thread < config.numPriorities := by
  cases target with
  | mutex id => exact consistent.coherent.priorityValid thread
  | fastMutex id => exact consistent.coherent.savedValid thread

/-- The front of a wait queue is the waiter that is due. -/
theorem Consistent.heir_firstInLine
    (target : Lockable) : state.FirstInLine target (state.heir config target) :=
  consistent.keyed.front_foremost (consistent.ordered target)
    fun thread _ => consistent.urgencyValid target thread

end

end Queues

/-! ### The contract of a mutex -/

/-- The call releases the mutex: `unlock` at the outermost level, or a wait. -/
def Call.Releases (state : State threads) (target : Lockable) (call : Call) : Prop :=
  (call = .unlock target ∧ state.depth target ≤ 0) ∨
    ∃ condition timed, call.waits = some (condition, target, timed)

section Contract

variable {config : Config} {recursive : Lockable → Bool} {machine after : Machine threads}
  {ledger : Ledger threads} {label : Label threads}
  {priority : Fin threads → Fin config.numPriorities}

theorem Ledger.enter_clearCalls {state : State threads} {thread : Fin threads} {call : Call}
    {answer : Option Answer} :
    ledger.enter state.clearCalls thread call answer = ledger.enter state thread call answer := by
  cases call <;> simp only [Ledger.enter, depth_clearCalls]

/-- One step keeps the ledger true. -/
theorem Steps.agrees (sound : machine.Sound config) (steps : Steps config machine label after)
    (agrees : Agrees recursive machine.sync.owner machine.sync.depth machine.pc ledger) :
    Agrees recursive after.sync.owner after.sync.depth after.pc
      (ledger.note machine label after) := by
  have consistent := sound.consistent.clearCalls
  have cleared := agrees
  cases steps with
  | call thread call sync outcome outside enters =>
    show Agrees _ _ _ _ (ledger.enter machine.sync thread call
      (update machine.answer thread outcome.answer thread))
    rw [update_self, ← Ledger.enter_clearCalls]
    exact enters.agrees consistent outside cleared
  | resume thread sync outcome inside resumes =>
    show Agrees _ _ _ _ (ledger.resume thread (machine.pc thread)
      (update machine.answer thread outcome.answer thread))
    rw [update_self]
    exact resumes.agrees cleared
  | timer now => exact agrees

theorem Steps.restored
    (agrees : Agrees recursive machine.sync.owner machine.sync.depth machine.pc ledger)
    {thread : Fin threads} (steps : Steps config machine (.resume thread) after)
    {target : Lockable} {level : Nat}
    (restores : (machine.pc thread).restores = some (target, level))
    (returned : after.pc thread = .outside) :
    after.sync.owner target = some thread ∧ after.sync.depth target = ledger.depth thread := by
  obtain ⟨saved, -⟩ := agrees.saved thread target level restores
  rw [saved, ← agrees.depthAfter_eq]
  cases steps with
  | resume _ sync outcome inside resumes =>
    replace returned : update machine.pc thread outcome.pc thread = .outside := returned
    rw [update_self] at returned
    cases resumes with
    | locked _ counter => rw [counter] at restores; cases restores
    | lockBlocked | blocked | lockToDepthBlocked => cases returned
    | took condition _ _ timed _ counter unowned owner depth frame kept =>
      rw [counter] at restores
      obtain ⟨rfl, rfl⟩ := Prod.mk.injEq .. ▸ some_inj.mp restores
      rw [owner, depth, update_self, update_self, depth_clearCalls]
      exact ⟨rfl, rfl⟩
    | lockedToDepth _ _ result counter owns =>
      rw [counter] at restores
      obtain ⟨rfl, rfl⟩ := Prod.mk.injEq .. ▸ some_inj.mp restores
      rw [setDepth_eq, owner_setLockable, depth_setLockable, update_self,
        update_self, depth_clearCalls]
      exact ⟨owns, rfl⟩

theorem Steps.handedOver (sound : machine.Sound config) {thread : Fin threads} {call : Call}
    (steps : Steps config machine (.call thread call) after) {target : Lockable}
    (releases : call.Releases machine.sync target) :
    machine.sync.FirstInLine target (after.sync.owner target) := by
  have heir : machine.sync.clearCalls.heir config target = machine.sync.heir config target := by
    cases target <;> rfl
  have due := sound.consistent.heir_firstInLine target
  cases steps with
  | call _ _ sync outcome outside enters =>
    rcases releases with ⟨rfl, shallow⟩ | ⟨condition, timed, waits⟩
    · cases enters with
      | unlockLevel _ _ owns deep =>
        exact absurd deep (not_lt.mpr shallow)
      | unlock _ _ owns _ released =>
        rw [released.owner, update_self, heir]
        exact due
      | wait _ _ _ _ _ none => cases none
    · cases enters with
      | wait _ _ _ _ between waitsOn owns released =>
        rw [waits, some_inj] at waitsOn
        obtain ⟨rfl, rfl, rfl⟩ : condition = _ ∧ target = _ ∧ timed = _ := by
          simpa [Prod.mk.injEq] using waitsOn
        rw [owner_call, owner_PKenqueue, released.owner, update_self, heir]
        exact due
      | _ => cases waits

end Contract

end Miosix.Sync
