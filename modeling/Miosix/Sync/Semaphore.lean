/-
This file embeds `Semaphore` of `kernel/sync.cpp` and proves that signals are conserved.

A semaphore is protected by the global lock, so each step below is one section with that
lock held: a signal, the start of a wait, the timer interrupt, or a blocked thread that runs
again. A thread that has to wait appends a token to a queue, and a signal takes the first
token out and clears its thread pointer (`flagged`), by which the waiter knows that it got
the signal.

A timed wait decides its result from the sleeping list, before it looks at that pointer. So
a waiter that a signal has popped, and whose deadline passes before it runs again, reports a
timeout and the signal is lost. Signals are conserved in the runs where this does not happen
and the counter does not wrap around (`InTime`).
-/

import Miosix.Lib.Transition
import Miosix.Thread.Sleep

namespace Miosix.Semaphore

open Transition Function
open SleepingList (contains)

variable {threads : Nat}

/-! ### The semaphore -/

/-- Where a thread is blocked, with the deadline its loop passes on. -/
inductive Pc where
  | outside
  | wait
  | timedWait (absTime : Int)
  deriving DecidableEq, Repr

def Pc.timed : Pc → Bool
  | .timedWait _ => true
  | _ => false

/-- What a call returns. -/
inductive Answer where
  | done
  | tried (positive : Bool)
  | timed (result : TimedWaitResult)
  deriving DecidableEq, Repr

/-- The counter and the queue of a semaphore, the thread pointers of the tokens, the sleeping
list, and for every thread where it is blocked and what its last call returned. -/
structure State (threads : Nat) where
  count : UInt32
  fifo : List (Fin threads)
  flagged : Fin threads → Bool
  sleepingList : List (SleepToken threads)
  pc : Fin threads → Pc
  answer : Fin threads → Option Answer

section

variable (state : State threads)

/-- `IRQsignal`. The wakeup it ends with lets the thread run again, which it may do here at
any moment. -/
def IRQsignal : State threads :=
  match state.fifo with
  | [] => { state with count := state.count + 1 }
  | first :: rest =>
      { state with
        fifo := rest
        flagged := update state.flagged first false }

/-- `IRQtryWait`. -/
def IRQtryWait : State threads × Bool :=
  if 0 < state.count then ({ state with count := state.count - 1 }, true) else (state, false)

section

variable (thread : Fin threads) (absTime : Int)

def State.returns (answer : Answer) : State threads :=
  { state with
    pc := update state.pc thread .outside
    answer := update state.answer thread (some answer) }

def State.blocks (pc : Pc) : State threads :=
  { state with
    pc := update state.pc thread pc
    answer := update state.answer thread none }

/-- The token of a thread, appended to the queue. -/
def State.enqueue : State threads :=
  { state with
    fifo := state.fifo ++ [thread]
    flagged := update state.flagged thread true }

/-- `Thread::IRQglobalIrqUnlockAndTimedWait` up to where the thread waits. -/
def State.sleep : State threads :=
  { state with sleepingList := SleepingList.enqueue state.sleepingList thread absTime }

def wait (state : State threads) (thread : Fin threads) : State threads :=
  if 0 < state.count then
    { state with count := state.count - 1 }.returns thread .done
  else (state.enqueue thread).blocks thread .wait

def timedWait (state : State threads) (thread : Fin threads) (absTime : Int) : State threads :=
  if 0 < state.count then
    { state with count := state.count - 1 }.returns thread (.timed .noTimeout)
  else ((state.enqueue thread).sleep thread absTime).blocks thread (.timedWait absTime)

/-- The loop of `wait`, when the thread runs again. -/
def resumeWait : State threads :=
  if state.flagged thread then state else state.returns thread .done

/-- The loop of `timedWait`, when the thread runs again. -/
def resumeTimedWait : State threads :=
  let awake := { state with sleepingList := SleepingList.remove state.sleepingList thread }
  if contains state.sleepingList thread = false then
    { awake with fifo := state.fifo.erase thread }.returns thread (.timed .timeout)
  else if state.flagged thread then awake.sleep thread absTime
  else awake.returns thread (.timed .noTimeout)

end

/-! ### The machine -/

inductive Label (threads : Nat) where
  | signal
  | tryWait (thread : Fin threads)
  | wait (thread : Fin threads)
  | timedWait (thread : Fin threads) (absTime : Int)
  | timer (now : Int)
  | resume (thread : Fin threads)
  deriving DecidableEq, Repr

def exec : Label threads → Option (State threads)
  | .signal => some (IRQsignal state)
  | .tryWait thread =>
      if state.pc thread = .outside then
        some ((IRQtryWait state).1.returns thread (.tried (IRQtryWait state).2))
      else none
  | .wait thread => if state.pc thread = .outside then some (wait state thread) else none
  | .timedWait thread absTime =>
      if state.pc thread = .outside then some (timedWait state thread absTime) else none
  | .timer now =>
      some { state with sleepingList := SleepingList.wakeThreads state.sleepingList now }
  | .resume thread =>
      match state.pc thread with
      | .outside => none
      | .wait => some (resumeWait state thread)
      | .timedWait absTime => some (resumeTimedWait state thread absTime)

def initial (count : UInt32) : State threads where
  count := count
  fifo := []
  flagged := fun _ => false
  sleepingList := []
  pc := fun _ => .outside
  answer := fun _ => none

/-- The signals given so far and the waits that returned success. -/
structure Tally where
  signals : Nat
  successes : Nat

/-- The answer reports that the wait got its signal. -/
def Answer.success : Option Answer → Bool
  | some .done | some (.tried true) | some (.timed .noTimeout) => true
  | _ => false

def Tally.note (tally : Tally) (_ : State threads) (label : Label threads)
    (after : State threads) : Tally :=
  match label with
  | .signal => { tally with signals := tally.signals + 1 }
  | .timer _ => tally
  | .tryWait thread | .wait thread | .timedWait thread _ | .resume thread =>
      { tally with
        successes := tally.successes + (Answer.success (after.answer thread)).toNat }

/-- The waiters that a signal has popped and that have not run since. -/
def State.popped : Finset (Fin threads) :=
  Finset.univ.filter fun thread => state.pc thread ≠ .outside ∧ state.flagged thread = false

/-- No signal meets a full counter or a waiter whose deadline has passed, and no deadline passes
for a waiter that was popped and has not run since. -/
def InTime : Label threads → Prop
  | .signal => (state.fifo = [] → state.count.toNat + 1 < 2 ^ 32) ∧
      ∀ thread ∈ state.fifo.head?, (state.pc thread).timed = true →
        contains state.sleepingList thread = true
  | .timer now => ∀ thread ∈ state.popped, thread ∉ SleepingList.woken state.sleepingList now
  | _ => True

instance (label : Label threads) : Decidable (InTime state label) :=
  match label with
  | .signal => inferInstanceAs (Decidable (_ ∧ _))
  | .timer now => inferInstanceAs (Decidable (∀ thread ∈ state.popped,
      thread ∉ SleepingList.woken state.sleepingList now))
  | .tryWait _ | .wait _ | .timedWait _ _ | .resume _ => inferInstanceAs (Decidable True)

end

/-! ### The queue and the sleeping list -/

/-- The queue holds the waiters that no signal has popped, and only timed waits sleep. -/
structure Sound (state : State threads) : Prop where
  nodup : state.fifo.Nodup
  queued : ∀ thread, thread ∈ state.fifo ↔
    state.pc thread ≠ .outside ∧ state.flagged thread = true
  tokens : SleepingList.Sound state.sleepingList
  asleep : ∀ thread, contains state.sleepingList thread = true →
    ∃ absTime, state.pc thread = .timedWait absTime
  waiting : ∀ thread, state.pc thread ≠ .outside → state.answer thread = none

theorem initial_sound (count : UInt32) : Sound (initial count : State threads) where
  nodup := List.nodup_nil
  queued := by simp [initial]
  tokens := .empty
  asleep := by simp [initial, contains]
  waiting := by simp [initial]

variable {state : State threads} {thread : Fin threads} {absTime : Int} {count : UInt32}
  {tally : Tally} {pc : Pc} {tokens : List (SleepToken threads)} {next : State threads}
  {first : Fin threads} {rest : List (Fin threads)} {answer : Answer}

section

variable (sound : Sound state)

include sound

theorem Sound.awake (outside : state.pc thread = .outside) :
    contains state.sleepingList thread = false := by
  rw [← Bool.not_eq_true]
  intro present
  obtain ⟨absTime, waits⟩ := sound.asleep thread present
  rw [outside] at waits
  cases waits

theorem Sound.setCount (count : UInt32) : Sound { state with count := count } :=
  { sound with }

theorem Sound.pop (listed : state.fifo = first :: rest) : Sound { state with
      fifo := rest
      flagged := update state.flagged first false } := by
  have nodup := sound.nodup
  rw [listed, List.nodup_cons] at nodup
  refine { sound with nodup := nodup.2, queued := fun thread => ?_ }
  by_cases same : thread = first
  · subst same
    simp [nodup.1]
  · simpa [listed, same] using sound.queued thread

/-- A call returns, and takes its token out of the queue if it is still there. -/
theorem Sound.leave
    (awake : contains state.sleepingList thread = false) (answer : Answer) :
    Sound ({ state with fifo := state.fifo.erase thread }.returns thread answer) := { sound with
  nodup := sound.nodup.erase thread
  queued := by
    intro other
    by_cases same : other = thread
    · subst same
      simp [State.returns, sound.nodup.not_mem_erase]
    · simpa [State.returns, same, List.mem_erase_of_ne same] using sound.queued other
  asleep := by
    intro other present
    have different : other ≠ thread := by
      rintro rfl
      exact Bool.false_ne_true (awake.symm.trans present)
    simpa [State.returns, different] using sound.asleep other present
  waiting := by
    intro other inside
    have different : other ≠ thread := by
      rintro rfl
      simp [State.returns] at inside
    simpa [State.returns, different] using sound.waiting other (by
      simpa [State.returns, different] using inside) }

theorem Sound.returns (left : thread ∉ state.fifo)
    (awake : contains state.sleepingList thread = false) (answer : Answer) :
    Sound (state.returns thread answer) := by
  have leave := sound.leave awake answer
  rwa [List.erase_of_not_mem left] at leave

theorem Sound.notMem_fifo
    (absent : state.pc thread = .outside ∨ state.flagged thread = false) : thread ∉ state.fifo := by
  rw [sound.queued]
  rintro ⟨inside, flagged⟩
  rcases absent with outside | cleared
  · exact inside outside
  · exact Bool.false_ne_true (cleared.symm.trans flagged)

theorem Sound.block (outside : state.pc thread = .outside) (inside : pc ≠ .outside) :
    Sound ((state.enqueue thread).blocks thread pc) := { sound with
  nodup := sound.nodup.append (List.nodup_singleton thread) (by
    simpa using sound.notMem_fifo (.inl outside))
  queued := by
    intro other
    by_cases same : other = thread
    · subst same
      simp [State.enqueue, State.blocks, inside]
    · simpa [State.enqueue, State.blocks, same] using sound.queued other
  asleep := by
    intro other present
    have different : other ≠ thread := by
      rintro rfl
      exact Bool.false_ne_true ((sound.awake outside).symm.trans present)
    simpa [State.enqueue, State.blocks, different] using sound.asleep other present
  waiting := by
    intro other waits
    by_cases same : other = thread
    · subst same
      simp [State.blocks]
    · simpa [State.enqueue, State.blocks, same] using sound.waiting other (by
        simpa [State.enqueue, State.blocks, same] using waits) }

theorem Sound.sleep (awake : contains state.sleepingList thread = false)
    (timed : state.pc thread = .timedWait absTime) : Sound (state.sleep thread absTime) := {
  sound with
  tokens := sound.tokens.enqueue awake absTime
  asleep := by
    intro other present
    rcases (SleepingList.contains_enqueue _).mp present with rfl | present
    · exact ⟨absTime, timed⟩
    · exact sound.asleep other present }

/-- Tokens may be taken out of the sleeping list. -/
theorem Sound.shrink
    (sublist : tokens.Sublist state.sleepingList) : Sound { state with sleepingList := tokens } :=
  { sound with
    tokens := sound.tokens.sublist sublist
    asleep := fun thread present =>
      sound.asleep thread (SleepingList.contains_of_sublist sublist present) }

end

/-! ### The popped waiters -/

theorem mem_popped :
    thread ∈ state.popped ↔ state.pc thread ≠ .outside ∧ state.flagged thread = false := by
  simp [State.popped]

theorem popped_returns : (state.returns thread answer).popped = state.popped.erase thread := by
  ext other
  rw [Finset.mem_erase, mem_popped, mem_popped]
  by_cases same : other = thread
  · simp [State.returns, same]
  · simp [State.returns, same]

theorem popped_block (outside : state.pc thread = .outside) :
    ((state.enqueue thread).blocks thread pc).popped = state.popped := by
  ext other
  rw [mem_popped, mem_popped]
  by_cases same : other = thread
  · simp [State.enqueue, State.blocks, same, outside]
  · simp [State.enqueue, State.blocks, same]

theorem Sound.popped_pop (sound : Sound state) (listed : state.fifo = first :: rest) : ({ state with
      fifo := rest
      flagged := update state.flagged first false } : State threads).popped =
      insert first state.popped := by
  have waits := (sound.queued first).mp (by simp [listed])
  ext other
  rw [Finset.mem_insert, mem_popped, mem_popped]
  by_cases same : other = first
  · simp [same, waits.1]
  · simp [same]

/-! ### Conservation -/

/-- The tokens of the popped timed waits are still there, and no signal is lost. -/
structure Conserved (count : UInt32) (state : State threads) (tally : Tally) : Prop where
  sound : Sound state
  kept : ∀ thread ∈ state.popped, (state.pc thread).timed = true →
    contains state.sleepingList thread = true
  balance : count.toNat + tally.signals =
    state.count.toNat + tally.successes + state.popped.card

section

variable (conserved : Conserved count state tally)
include conserved

theorem Conserved.signal (inTime : InTime state .signal) :
    Conserved count (IRQsignal state) { tally with signals := tally.signals + 1 } := by
  obtain ⟨sound, kept, balance⟩ := conserved
  cases listed : state.fifo with
  | nil =>
    have signalled : IRQsignal state = { state with count := state.count + 1 } := by
      simp only [IRQsignal, listed]
    rw [signalled]
    refine ⟨sound.setCount _, kept, ?_⟩
    have room := inTime.1 listed
    have counted : (state.count + 1).toNat = state.count.toNat + 1 := by
      exact Nat.mod_eq_of_lt room
    show _ = (state.count + 1).toNat + tally.successes + state.popped.card
    dsimp only
    omega
  | cons first rest =>
    simp only [IRQsignal, listed]
    have flagged := ((sound.queued first).mp (by simp [listed])).2
    have fresh : first ∉ state.popped := by simp [mem_popped, flagged]
    refine ⟨sound.pop listed, ?_, ?_⟩
    · intro thread member timed
      rw [sound.popped_pop listed, Finset.mem_insert] at member
      rcases member with rfl | member
      · exact inTime.2 thread (by simp [listed]) timed
      · exact kept thread member timed
    · rw [sound.popped_pop listed, Finset.card_insert_of_notMem fresh]
      dsimp only
      omega

/-- A call that finds the counter positive. -/
theorem Conserved.take
    (outside : state.pc thread = .outside) (positive : 0 < state.count) (answer : Answer) :
    Conserved count ({ state with count := state.count - 1 }.returns thread answer)
      { tally with successes := tally.successes + 1 } := by
  obtain ⟨sound, kept, balance⟩ := conserved
  have absent : thread ∉ state.popped := by simp [mem_popped, outside]
  have popped : ({ state with count := state.count - 1 }.returns thread answer).popped =
      state.popped :=
    popped_returns.trans (Finset.erase_eq_of_notMem absent)
  refine ⟨(sound.setCount (state.count - 1)).returns (sound.notMem_fifo (.inl outside))
    (sound.awake outside) answer, ?_, ?_⟩
  · intro other member timed
    rw [popped] at member
    have different : other ≠ thread := by
      rintro rfl
      exact absent member
    exact kept other member (by simpa [State.returns, different] using timed)
  · rw [popped]
    have enough : 1 ≤ state.count.toNat := UInt32.lt_iff_toNat_lt.mp positive
    have counted : (state.count - 1).toNat = state.count.toNat - 1 :=
      UInt32.toNat_sub_of_le _ _ (UInt32.le_iff_toNat_le.mpr enough)
    show _ = (state.count - 1).toNat + _ + _
    dsimp only
    omega

/-- A step that changes neither the counter nor the popped waiters. -/
theorem Conserved.frame {after : State threads}
    (sound : Sound after) (sameCount : after.count = state.count)
    (samePopped : after.popped = state.popped)
    (samePc : ∀ thread ∈ state.popped, after.pc thread = state.pc thread)
    (tokens : ∀ thread ∈ state.popped, contains state.sleepingList thread = true →
        contains after.sleepingList thread = true) : Conserved count after tally := by
  refine ⟨sound, fun thread member timed => ?_, ?_⟩
  · rw [samePopped] at member
    rw [samePc thread member] at timed
    exact tokens thread member (conserved.kept thread member timed)
  · rw [sameCount, samePopped]
    exact conserved.balance

end

section

variable (conserved : Conserved count state tally)

include conserved

theorem Conserved.block (outside : state.pc thread = .outside) (inside : pc ≠ .outside) :
    Conserved count ((state.enqueue thread).blocks thread pc) tally := by
  refine conserved.frame (conserved.sound.block outside inside) rfl (popped_block outside)
    ?_ fun _ _ present => present
  intro other member
  have different : other ≠ thread := by
    rintro rfl
    exact (mem_popped.mp member).1 outside
  simp [State.enqueue, State.blocks, different]

theorem Conserved.sleep (awake : contains state.sleepingList thread = false)
    (timed : state.pc thread = .timedWait absTime) :
    Conserved count (state.sleep thread absTime) tally :=
  conserved.frame (conserved.sound.sleep awake timed) rfl rfl (fun _ _ => rfl)
    fun _ _ present => (SleepingList.contains_enqueue _).mpr (.inr present)

theorem Conserved.timer {now : Int} (inTime : InTime state (.timer now)) :
    Conserved count { state with
      sleepingList := SleepingList.wakeThreads state.sleepingList now } tally :=
  conserved.frame (conserved.sound.shrink TimeQueue.pending_sublist) rfl rfl
    (fun _ _ => rfl) fun thread member present =>
      SleepingList.contains_wakeThreads_of_notMem present (inTime thread member)

/-- A popped waiter runs again, is awake, and returns. -/
theorem Conserved.succeed (member : thread ∈ state.popped)
    (sublist : tokens.Sublist state.sleepingList)
    (awake : contains tokens thread = false) (others : ∀ other, other ≠ thread →
      contains tokens other = contains state.sleepingList other) :
    Conserved count ({ state with sleepingList := tokens }.returns thread answer)
      { tally with successes := tally.successes + 1 } := by
  obtain ⟨sound, kept, balance⟩ := conserved
  have popped : ({ state with sleepingList := tokens }.returns thread answer).popped =
      state.popped.erase thread := popped_returns
  refine ⟨(sound.shrink sublist).returns (sound.notMem_fifo (.inr (mem_popped.mp member).2))
    awake answer, ?_, ?_⟩
  · intro other remains timed
    rw [popped, Finset.mem_erase] at remains
    refine (others other remains.1).trans (kept other remains.2 ?_)
    simpa [State.returns, remains.1] using timed
  · have nonempty := Finset.card_pos.mpr ⟨thread, member⟩
    rw [popped, Finset.card_erase_of_mem member]
    show _ = state.count.toNat + _ + _
    dsimp only
    omega

theorem Conserved.timeout (absent : thread ∉ state.popped)
    (awake : contains state.sleepingList thread = false) (answer : Answer) :
    Conserved count ({ state with fifo := state.fifo.erase thread }.returns thread answer)
      tally := by
  refine conserved.frame (conserved.sound.leave awake answer) rfl
    (popped_returns.trans (Finset.erase_eq_of_notMem absent)) ?_
    fun _ _ present => present
  intro other member
  have different : other ≠ thread := by
    rintro rfl
    exact absent member
  simp [State.returns, different]

theorem Conserved.resumeWait (waits : state.pc thread = .wait) :
    Conserved count (resumeWait state thread) (tally.note state (.resume thread)
      (resumeWait state thread)) := by
  have inside : state.pc thread ≠ .outside := by simp [waits]
  unfold Semaphore.resumeWait
  split
  · simpa [Tally.note, conserved.sound.waiting thread inside, Answer.success] using conserved
  · rename_i cleared
    have awake : contains state.sleepingList thread = false := by
      rw [← Bool.not_eq_true]
      intro present
      obtain ⟨absTime, timed⟩ := conserved.sound.asleep thread present
      rw [waits] at timed
      cases timed
    simpa [Tally.note, State.returns, Answer.success] using conserved.succeed
      (mem_popped.mpr ⟨inside, by simpa using cleared⟩) (List.Sublist.refl _) awake
      (fun _ _ => rfl)

/-- A timed wait that runs again and finds its token gone was not popped. -/
theorem Conserved.notMem_popped (timed : state.pc thread = .timedWait absTime)
    (awake : contains state.sleepingList thread = false) : thread ∉ state.popped := by
  intro member
  have present := conserved.kept thread member (by simp [timed, Pc.timed])
  exact Bool.false_ne_true (awake.symm.trans present)

theorem Conserved.wake (absent : thread ∉ state.popped) : Conserved count { state with
      sleepingList := SleepingList.remove state.sleepingList thread } tally := by
  refine conserved.frame (conserved.sound.shrink List.eraseP_sublist) rfl rfl (fun _ _ => rfl) ?_
  intro other member present
  have different : other ≠ thread := by
    rintro rfl
    exact absent member
  exact (SleepingList.contains_remove_of_ne different).trans present

theorem Conserved.resumeTimedWait (timed : state.pc thread = .timedWait absTime) :
    Conserved count (resumeTimedWait state thread absTime) (tally.note state (.resume thread)
      (resumeTimedWait state thread absTime)) := by
  have inside : state.pc thread ≠ .outside := by simp [timed]
  have removed := conserved.sound.tokens.contains_remove_self thread
  simp only [Semaphore.resumeTimedWait]
  split
  · rename_i awake
    have absent := conserved.notMem_popped timed awake
    simpa [Tally.note, State.returns, Answer.success] using
      (conserved.wake absent).timeout absent removed (.timed .timeout)
  · split
    · rename_i flagged
      have absent : thread ∉ state.popped := by simp [mem_popped, flagged]
      simpa [Tally.note, State.sleep, conserved.sound.waiting thread inside, Answer.success]
        using (conserved.wake absent).sleep removed timed
    · rename_i cleared
      have sublist : (SleepingList.remove state.sleepingList thread).Sublist
        state.sleepingList := List.eraseP_sublist
      simpa [Tally.note, State.returns, Answer.success] using conserved.succeed
        (mem_popped.mpr ⟨inside, by simpa using cleared⟩) sublist removed
        (fun _ => SleepingList.contains_remove_of_ne)

section

variable (outside : state.pc thread = .outside)
include outside

theorem Conserved.wait : Conserved count (wait state thread)
      (tally.note state (.wait thread) (wait state thread)) := by
  unfold Semaphore.wait
  split
  · rename_i positive
    simpa [Tally.note, State.returns, Answer.success] using conserved.take outside positive .done
  · have blocked := conserved.block outside (show Pc.wait ≠ .outside by simp)
    simpa [Tally.note, State.blocks, Answer.success] using blocked

theorem Conserved.timedWait (absTime : Int) : Conserved count (timedWait state thread absTime)
      (tally.note state (.timedWait thread absTime) (timedWait state thread absTime)) := by
  unfold Semaphore.timedWait
  split
  · rename_i positive
    simpa [Tally.note, State.returns, Answer.success] using
      conserved.take outside positive (.timed .noTimeout)
  · have blocked := conserved.block outside (show Pc.timedWait absTime ≠ .outside by simp)
    have timed : ((state.enqueue thread).blocks thread (.timedWait absTime)).pc thread =
        .timedWait absTime := by simp [State.blocks]
    simpa [Tally.note, State.blocks, State.enqueue, State.sleep, Answer.success] using
      blocked.sleep (conserved.sound.awake outside) timed

theorem Conserved.tryWait :
    Conserved count ((IRQtryWait state).1.returns thread (.tried (IRQtryWait state).2))
      (tally.note state (.tryWait thread)
        ((IRQtryWait state).1.returns thread (.tried (IRQtryWait state).2))) := by
  by_cases positive : 0 < state.count
  · simpa [IRQtryWait, positive, Tally.note, State.returns, Answer.success] using
      conserved.take outside positive (.tried true)
  · have absent : thread ∉ state.popped := by simp [mem_popped, outside]
    have refused := conserved.timeout absent (conserved.sound.awake outside) (.tried false)
    rw [List.erase_of_not_mem (conserved.sound.notMem_fifo (.inl outside))] at refused
    simpa [IRQtryWait, positive, Tally.note, State.returns, Answer.success] using refused

end

end

theorem exec_resume (stepped : exec state (.resume thread) = some next) :
    (state.pc thread = .wait ∧ next = resumeWait state thread) ∨
      ∃ absTime, state.pc thread = .timedWait absTime ∧
        next = resumeTimedWait state thread absTime := by
  unfold exec at stepped
  cases waits : state.pc thread with
  | outside => simp [waits] at stepped
  | wait => exact .inl ⟨rfl, by simpa [waits, eq_comm] using stepped⟩
  | timedWait absTime => exact .inr ⟨absTime, rfl, by simpa [waits, eq_comm] using stepped⟩

theorem Conserved.step (conserved : Conserved count state tally)
    {label : Label threads} (inTime : InTime state label) (stepped : exec state label = some next) :
    Conserved count next (tally.note state label next) := by
  cases label with
  | signal =>
    obtain rfl := Option.some_inj.mp stepped
    exact conserved.signal inTime
  | tryWait thread =>
    obtain ⟨outside, rfl⟩ := of_guard stepped
    exact conserved.tryWait outside
  | wait thread =>
    obtain ⟨outside, rfl⟩ := of_guard stepped
    exact conserved.wait outside
  | timedWait thread absTime =>
    obtain ⟨outside, rfl⟩ := of_guard stepped
    exact conserved.timedWait outside absTime
  | timer now =>
    obtain rfl := Option.some_inj.mp stepped
    exact conserved.timer inTime
  | resume thread =>
    rcases exec_resume stepped with ⟨waits, rfl⟩ | ⟨absTime, timed, rfl⟩
    · exact conserved.resumeWait waits
    · exact conserved.resumeTimedWait timed

/-! ### Signals are conserved -/

/-- No signal is lost or made up, and a wait that times out was not popped by a signal. -/
structure SignalsConserved (count : UInt32) (state : State threads) (tally : Tally) : Prop where
  balance : count.toNat + tally.signals =
    state.count.toNat + tally.successes + state.popped.card
  timeout : ∀ thread next, exec state (.resume thread) = some next →
    next.answer thread = some (.timed .timeout) → thread ∉ state.popped

theorem Conserved.signalsConserved (conserved : Conserved count state tally) :
    SignalsConserved count state tally := by
  refine ⟨conserved.balance, fun thread next stepped answer member => ?_⟩
  have cleared := (mem_popped.mp member).2
  rcases exec_resume stepped with ⟨-, rfl⟩ | ⟨absTime, timed, rfl⟩
  · simp [Semaphore.resumeWait, cleared, State.returns] at answer
  · have present := conserved.kept thread member (by simp [timed, Pc.timed])
    simp [Semaphore.resumeTimedWait, present, cleared, State.returns] at answer

/-- The counter starts at `count`; in every run whose steps are in time, the signals given are
those in the counter, those that a wait has returned with, and those on their way to a popped
waiter. -/
theorem signals_conserved (count : UInt32) (labels : List (Label threads))
    (state : State threads) (tally : Tally)
    (run : Run (observing exec Tally.note) (fun observed => InTime observed.1)
      (initial count, ⟨0, 0⟩) labels (state, tally)) :
    SignalsConserved count state tally := by
  exact Conserved.signalsConserved (run.observed (Conserved count)
    (fun _ _ _ _ conserved inTime stepped => conserved.step inTime stepped)
    ⟨initial_sound count, by simp [mem_popped, initial], by simp [initial, State.popped]⟩)

/-- Thread 0 waits with a deadline and thread 1 without. A signal pops thread 0, which runs
again before its deadline; thread 1 is still in the queue when the deadline passes. -/
theorem signals_conserved_deadlineAfterResume : ∃ (state : State 2) (tally : Tally),
    Run (observing exec Tally.note) (fun observed => InTime observed.1) (initial 0, ⟨0, 0⟩)
      [.timedWait 0 200000, .wait 1, .signal, .resume 0, .timer 200000] (state, tally) ∧
    SignalsConserved 0 state tally :=
  exists_observed (fun _ _ => True) (by decide)
    fun state tally run _ => ⟨run, signals_conserved 0 _ state tally run⟩

/-- Thread 0 waits with a deadline, a signal pops it, and the deadline passes before it runs
again: it returns a timeout, the counter is zero and nobody waits, so the signal is lost. -/
theorem timeout_loses_signal : ∃ (state : State 1) (tally : Tally),
    Run (observing exec Tally.note) unrestricted (initial 0, ⟨0, 0⟩)
      [.timedWait 0 200000, .signal, .timer 200000, .resume 0] (state, tally) ∧
    (tally.signals = 1 ∧ tally.successes = 0 ∧ state.count = 0 ∧ state.popped = ∅ ∧
      state.answer 0 = some (.timed .timeout)) ∧
    ¬ SignalsConserved 0 state tally := by
  refine exists_observed (fun state tally => tally.signals = 1 ∧ tally.successes = 0 ∧
    state.count = 0 ∧ state.popped = ∅ ∧ state.answer 0 = some (.timed .timeout)) (by decide)
    fun state tally run lost => ⟨run, lost, fun conserved => ?_⟩
  obtain ⟨signals, successes, count, popped, -⟩ := lost
  have balance := conserved.balance
  simp [signals, successes, count, popped] at balance

end Miosix.Semaphore
