/-
This file embeds the guards of one-time initialisation, the `__cxa_guard` functions of
`kercalls/libstdcpp_integration.cpp` and `pthread_once` of `kernel/pthread.cpp`.

A guard is one word: a flag in its two low bits, and in the others the address of the waiting
list, whose items are aligned. An item is on the stack of the thread that waits, so there is one
for each thread, and other threads unlink it and clear its thread pointer. The functions run with
the pause kernel lock held: each is one step up to where its thread waits. A waiting thread may be
woken at any time, also by nobody.

An abort wakes only one of the waiting threads, and a thread that arrives later may overtake it.
What keeps the others from waiting at a free guard is that a woken thread tries again.
-/

import Miosix.Lib.Transition
import Miosix.Lib.Update

namespace Miosix.Guard

open Transition Function List

variable {threads : Nat}

/-! ### The guard -/

inductive Pc where
  | outside
  | waiting
  | initialising
  deriving DecidableEq, Repr

/-- The flag and the waiting list of the guard, for every item whether its thread pointer is set,
and for every thread whether it may run and where it is. A call of `__cxa_guard_acquire` that
returns 0 leaves its thread outside, and one that returns 1 leaves it in the initialiser. -/
structure State (threads : Nat) where
  flag : Nat
  list : List (Fin threads)
  t : Fin threads → Bool
  awake : Fin threads → Bool
  pc : Fin threads → Pc

section

variable (state : State threads)

section

variable (thread : Fin threads)

def State.moves (pc : Pc) : State threads :=
  { state with pc := update state.pc thread pc }

/-- One round of the loop of `__cxa_guard_acquire`, up to where the thread waits. -/
def cxa_guard_acquire : State threads :=
  if state.flag = 1 then state.moves thread .outside
  else if state.flag = 0 then { state with flag := 2 }.moves thread .initialising
  else
    { state with
      list := thread :: state.list
      t := update state.t thread true
      awake := update state.awake thread false }.moves thread .waiting

/-- The rest of that loop, when a waiting thread runs again. -/
def resume : State threads :=
  if state.t thread then { state with awake := update state.awake thread false }
  else cxa_guard_acquire state thread

/-- `PKwakeup` through the thread pointer of an item, which is then cleared. -/
def State.wake (item : Fin threads) : Option (State threads) :=
  if state.t item then
    some { state with
      awake := update state.awake item true
      t := update state.t item false }
  else none

def cxa_guard_release : Option (State threads) :=
  (state.list.foldlM State.wake state).map fun woken => { woken with
    flag := 1
    list := [] }

def cxa_guard_abort : Option (State threads) :=
  match state.list with
  | [] => some { state with flag := 0 }
  | head :: rest => (state.wake head).map fun woken => { woken with
      flag := 0
      list := rest }

/-- `pthread_once` up to the call of its function. The word `init_executed` is the guard. -/
def pthread_once : State threads :=
  if state.flag = 1 ∧ state.list = [] then state.moves thread .outside
  else cxa_guard_acquire state thread

end

/-- The initialiser of a thread ends with `finish`, or throws with `abort`. -/
inductive Label (threads : Nat) where
  | acquire (thread : Fin threads)
  | once (thread : Fin threads)
  | finish (thread : Fin threads)
  | abort (thread : Fin threads)
  | wakeup (thread : Fin threads)
  | resume (thread : Fin threads)
  deriving DecidableEq, Repr

def exec : Label threads → Option (State threads)
  | .acquire thread =>
      if state.pc thread = .outside then some (cxa_guard_acquire state thread) else none
  | .once thread =>
      if state.pc thread = .outside then some (pthread_once state thread) else none
  | .finish thread =>
      if state.pc thread = .initialising then
        (cxa_guard_release state).map fun after => after.moves thread .outside
      else none
  | .abort thread =>
      if state.pc thread = .initialising then
        (cxa_guard_abort state).map fun after => after.moves thread .outside
      else none
  | .wakeup thread => some { state with awake := update state.awake thread true }
  | .resume thread =>
      if state.pc thread = .waiting ∧ state.awake thread = true then some (resume state thread)
      else none

def initial : State threads where
  flag := 0
  list := []
  t := fun _ => false
  awake := fun _ => true
  pc := fun _ => .outside

/-- How many initialisers have completed. -/
def completions (count : Nat) (_ : State threads) : Label threads → State threads → Nat
  | .finish _, _ => count + 1
  | _, _ => count

/-- What one-time initialisation is to provide. -/
structure Contract (count : Nat) : Prop where
  exclusive : ∀ first second, state.pc first = .initialising →
    state.pc second = .initialising → first = second
  held : state.flag = 2 → ∃ thread, state.pc thread = .initialising
  ends : ∀ thread, state.pc thread = .initialising →
    (exec state (.finish thread)).isSome ∧ (exec state (.abort thread)).isSome
  atMostOnce : count ≤ 1
  completed : count = 1 → ∀ thread, (cxa_guard_acquire state thread).pc thread = .outside ∧
    (pthread_once state thread).pc thread = .outside
  released : count = 1 → ∀ thread, state.pc thread = .waiting →
    state.awake thread = true ∧ (resume state thread).pc thread = .outside
  aborted : state.flag = 0 → ∀ waiter, state.pc waiter = .waiting →
    ∃ thread, state.pc thread = .waiting ∧ state.awake thread = true ∧
      (resume state thread).pc thread = .initialising

/-! ### The invariant -/

/-- The threads that wait and were not woken are in the list, and the thread that runs the
initialiser has the guard. -/
structure Sound (count : Nat) : Prop where
  nodup : state.list.Nodup
  listed : ∀ thread, thread ∈ state.list ↔ state.pc thread = .waiting ∧ state.t thread = true
  woken : ∀ thread, state.pc thread = .waiting → state.t thread = false →
    state.awake thread = true
  counted : count = if state.flag = 1 then 1 else 0
  released : state.flag = 1 → state.list = []
  aborted : state.flag = 0 → state.list ≠ [] →
    ∃ thread, state.pc thread = .waiting ∧ state.t thread = false
  taken : ∀ thread, state.pc thread = .initialising → state.flag = 2 ∧
    ∀ other, state.pc other = .initialising → other = thread
  held : state.flag = 2 → ∃ thread, state.pc thread = .initialising

end

variable {state : State threads} {thread : Fin threads} {count : Nat}

/-- The state once all threads of a list are woken. -/
def State.woken (state : State threads) (woken : List (Fin threads)) : State threads :=
  { state with
    awake := fun thread => woken.contains thread || state.awake thread
    t := fun thread => !woken.contains thread && state.t thread }

theorem foldlM_wake {woken : List (Fin threads)} (nodup : woken.Nodup)
    (set : ∀ thread ∈ woken, state.t thread = true) :
    woken.foldlM State.wake state = some (state.woken woken) := by
  induction woken generalizing state with
  | nil => simp [State.woken]
  | cons first rest inductionHypothesis =>
    obtain ⟨notRest, nodup⟩ := nodup_cons.mp nodup
    rw [foldlM_cons, State.wake, if_pos (set first mem_cons_self)]
    refine (inductionHypothesis nodup fun thread listed => ?_).trans ?_
    · have different : thread ≠ first := fun same => notRest (same ▸ listed)
      exact (update_of_ne different _ _).trans (set thread (mem_cons_of_mem _ listed))
    · unfold State.woken
      congr 2
      all_goals
        funext other
        by_cases same : other = first <;> simp [same]

theorem pthread_once_eq : pthread_once state thread = cxa_guard_acquire state thread := by
  unfold pthread_once
  split
  · rename_i done
    rw [cxa_guard_acquire, if_pos done.1]
  · rfl

theorem update_pc_iff {pc target : Pc} (different : pc ≠ target) {other : Fin threads} :
    update state.pc thread pc other = target ↔ other ≠ thread ∧ state.pc other = target := by
  by_cases same : other = thread
  · simp [same, different]
  · simp [same]

section

variable (sound : Sound state count)

include sound

/-- The thread that runs the initialiser leaves it, some waiting threads are woken, and the others
stay in the list. -/
theorem Sound.leave (runs : state.pc thread = .initialising) {woken rest : List (Fin threads)}
    (split : state.list = woken ++ rest) {flag : Nat} (notTaken : flag ≠ 2)
    (kept : rest ≠ [] → flag = 0 ∧ woken ≠ []) :
    Sound ({ state.woken woken with
      flag := flag
      list := rest }.moves thread .outside) (if flag = 1 then 1 else 0) := by
  have nodup := nodup_append.mp (split ▸ sound.nodup)
  have listed (other : Fin threads) := split ▸ sound.listed other
  have waits (other : Fin threads) : update state.pc thread .outside other = .waiting ↔
      state.pc other = .waiting := by
    rw [update_pc_iff (by simp), and_iff_right_of_imp]
    rintro waits rfl
    cases runs.symm.trans waits
  refine ⟨nodup.2.1, fun other => ?_, fun other now cleared => ?_, rfl, fun done => ?_,
    fun free nonempty => ?_, fun other now => ?_, fun two => absurd two notTaken⟩
  · show other ∈ rest ↔ update state.pc thread .outside other = .waiting ∧
      (!woken.contains other && state.t other) = true
    rw [waits]
    by_cases early : other ∈ woken
    · have late : other ∉ rest := fun later => nodup.2.2 other early other later rfl
      simp [early, late]
    · simpa [early] using listed other
  · replace cleared : (!woken.contains other && state.t other) = false := cleared
    show (woken.contains other || state.awake other) = true
    by_cases early : other ∈ woken
    · simp [early]
    · rw [sound.woken other ((waits other).mp now) (by simpa [early] using cleared), Bool.or_true]
  · by_contra nonempty
    exact absurd (done.symm.trans (kept nonempty).1) (by decide)
  · obtain ⟨other, early⟩ := exists_mem_of_ne_nil _ (kept nonempty).2
    refine ⟨other, (waits other).mpr ((listed other).mp (mem_append_left _ early)).1, ?_⟩
    simp [State.moves, State.woken, early]
  · obtain ⟨different, ran⟩ := (update_pc_iff (by simp)).mp now
    exact absurd ((sound.taken thread runs).2 other ran) different

theorem Sound.release_eq :
    cxa_guard_release state = some { state.woken state.list with flag := 1, list := [] } := by
  rw [cxa_guard_release, foldlM_wake sound.nodup fun other listed =>
    ((sound.listed other).mp listed).2]
  rfl

theorem Sound.abort_eq : cxa_guard_abort state = some { state.woken (state.list.take 1) with
    flag := 0
    list := state.list.drop 1 } := by
  unfold cxa_guard_abort
  split
  · rename_i empty
    simp [empty, State.woken]
  · rename_i head rest listed
    have set := ((sound.listed head).mp (by simp [listed])).2
    have woken := foldlM_wake (nodup_singleton head) (by simpa using set)
    simp only [foldlM_cons, foldlM_nil, bind_pure] at woken
    rw [woken, listed]
    rfl

/-- A thread that tries takes the guard or returns. -/
theorem Sound.moves (absent : thread ∉ state.list) (notTaken : state.flag ≠ 2) {flag : Nat}
    {pc : Pc} (notWaiting : pc ≠ .waiting) (notFree : flag ≠ 0)
    (counted : count = if flag = 1 then 1 else 0) (released : flag = 1 → state.list = [])
    (starts : pc = .initialising ↔ flag = 2) :
    Sound ({ state with flag := flag }.moves thread pc) count := by
  refine { sound with
    listed := fun other => ?_
    woken := fun other now => sound.woken other ((update_pc_iff notWaiting).mp now).2
    counted := counted
    released := released
    aborted := fun free => absurd free notFree
    held := fun two => ⟨thread, (update_self _ _ _).trans (starts.mpr two)⟩
    taken := fun other now => ?_ }
  · show other ∈ state.list ↔ update state.pc thread pc other = .waiting ∧ state.t other = true
    rw [update_pc_iff notWaiting, and_assoc, ← sound.listed, and_iff_right_of_imp]
    exact fun listed same => absent (same ▸ listed)
  · have only (other : Fin threads) (now : update state.pc thread pc other = .initialising) :
        other = thread := by
      by_contra different
      rw [update_of_ne different] at now
      exact notTaken (sound.taken other now).1
    obtain rfl := only other now
    exact ⟨starts.mp (by simpa [State.moves] using now), only⟩

theorem Sound.push (absent : thread ∉ state.list) (idle : state.pc thread ≠ .initialising)
    (notDone : state.flag ≠ 1) (notFree : state.flag ≠ 0) : Sound ({ state with
      list := thread :: state.list
      t := update state.t thread true
      awake := update state.awake thread false }.moves thread .waiting) count := by
  refine ⟨nodup_cons.mpr ⟨absent, sound.nodup⟩, fun other => ?_, fun other now cleared => ?_,
    sound.counted, fun done => absurd done notDone, fun free => absurd free notFree,
    fun other now => ?_, fun two => ?_⟩
  · show other ∈ thread :: state.list ↔ update state.pc thread .waiting other = .waiting ∧
      update state.t thread true other = true
    by_cases same : other = thread
    · simp [same]
    · simpa [same] using sound.listed other
  · have different : other ≠ thread := by
      rintro rfl
      simp [State.moves] at cleared
    simp only [State.moves, update_of_ne different] at now cleared ⊢
    exact sound.woken other now cleared
  · obtain ⟨-, ran⟩ := (update_pc_iff (by simp)).mp now
    refine ⟨(sound.taken other ran).1, fun another alsoNow => ?_⟩
    exact (sound.taken other ran).2 another ((update_pc_iff (by simp)).mp alsoNow).2
  · obtain ⟨other, runs⟩ := sound.held two
    exact ⟨other, (update_pc_iff (by simp)).mpr ⟨fun same => idle (same ▸ runs), runs⟩⟩

theorem Sound.acquire (idle : state.pc thread = .outside ∨
      state.pc thread = .waiting ∧ state.t thread = false) :
    Sound (cxa_guard_acquire state thread) count := by
  have absent : thread ∉ state.list := by
    rw [sound.listed]
    rintro ⟨waits, set⟩
    rcases idle with outside | ⟨-, cleared⟩
    · cases outside.symm.trans waits
    · cases cleared.symm.trans set
  have counted := sound.counted
  unfold cxa_guard_acquire
  split
  · rename_i done
    have same : { state with flag := state.flag } = state := rfl
    exact same ▸ sound.moves absent (by omega) (by simp) (by omega) counted sound.released
      (by simp [done])
  · rename_i notDone
    split
    · rename_i free
      rw [if_neg notDone] at counted
      exact sound.moves absent (by omega) (by simp) (by decide) counted nofun (by simp)
    · rename_i notFree
      refine sound.push absent (fun runs => ?_) notDone notFree
      rcases idle with outside | ⟨waits, -⟩
      · cases outside.symm.trans runs
      · cases waits.symm.trans runs

theorem Sound.setAwake {value : Bool} (kept : value = true ∨ state.t thread = true) :
    Sound { state with awake := update state.awake thread value } count := by
  refine { sound with woken := fun other waits cleared => ?_ }
  show update state.awake thread value other = true
  by_cases same : other = thread
  · subst same
    rw [update_self]
    exact kept.resolve_right (by simp [show state.t other = false from cleared])
  · rw [update_of_ne same]
    exact sound.woken other waits cleared

theorem Sound.step {label : Label threads} {next : State threads}
    (stepped : exec state label = some next) :
    Sound next (completions count state label next) := by
  cases label with
  | acquire thread =>
    obtain ⟨outside, rfl⟩ := of_guard stepped
    exact sound.acquire (.inl outside)
  | once thread =>
    obtain ⟨outside, rfl⟩ := of_guard stepped
    exact pthread_once_eq ▸ sound.acquire (.inl outside)
  | finish thread =>
    obtain ⟨runs, moved⟩ := Option.ite_none_right_eq_some.mp stepped
    rw [sound.release_eq] at moved
    cases moved
    have counted := sound.counted
    rw [(sound.taken thread runs).1] at counted
    subst counted
    exact sound.leave runs (append_nil _).symm (by decide) fun nonempty => absurd rfl nonempty
  | abort thread =>
    obtain ⟨runs, moved⟩ := Option.ite_none_right_eq_some.mp stepped
    rw [sound.abort_eq] at moved
    cases moved
    have counted := sound.counted
    rw [(sound.taken thread runs).1] at counted
    subst counted
    refine sound.leave runs (take_append_drop 1 _).symm (by decide) fun nonempty =>
      ⟨rfl, fun empty => nonempty ?_⟩
    rw [(take_eq_nil_iff.mp empty).resolve_left (by decide), drop_nil]
  | wakeup thread =>
    cases stepped
    exact sound.setAwake (.inl rfl)
  | resume thread =>
    obtain ⟨⟨waits, -⟩, rfl⟩ := of_guard stepped
    unfold resume
    split
    · rename_i set
      exact sound.setAwake (.inr set)
    · rename_i cleared
      exact sound.acquire (.inr ⟨waits, Bool.eq_false_iff.mpr cleared⟩)

/-! ### One-time initialisation -/

theorem Sound.contract : Contract state count := by
  have done (once : count = 1) : state.flag = 1 := by
    by_contra notDone
    have counted := sound.counted
    rw [if_neg notDone] at counted
    omega
  have returns (once : count = 1) (thread : Fin threads) :
      (cxa_guard_acquire state thread).pc thread = .outside := by
    rw [cxa_guard_acquire, if_pos (done once)]
    exact update_self _ _ _
  refine ⟨fun first second runs alsoRuns => (sound.taken second alsoRuns).2 first runs,
    sound.held, fun thread runs => ?_, ?_, fun once thread => ?_, fun once thread waits => ?_,
    fun free waiter waits => ?_⟩
  · simp [exec, runs, sound.release_eq, sound.abort_eq]
  · rw [sound.counted]
    split <;> omega
  · exact ⟨returns once thread, pthread_once_eq ▸ returns once thread⟩
  · have cleared : state.t thread = false := by
      rw [← Bool.not_eq_true]
      intro set
      have listed := (sound.listed thread).mpr ⟨waits, set⟩
      rw [sound.released (done once)] at listed
      cases listed
    refine ⟨sound.woken thread waits cleared, ?_⟩
    rw [resume, cleared]
    exact returns once thread
  · obtain ⟨thread, waiting, cleared⟩ : ∃ thread, state.pc thread = .waiting ∧
        state.t thread = false := by
      cases set : state.t waiter with
      | false => exact ⟨waiter, waits, set⟩
      | true =>
        exact sound.aborted free (ne_nil_of_mem ((sound.listed waiter).mpr ⟨waits, set⟩))
    refine ⟨thread, waiting, sound.woken thread waiting cleared, ?_⟩
    rw [resume, cleared, if_neg (by simp), cxa_guard_acquire, if_neg (by omega), if_pos free]
    exact update_self _ _ _

end

/-- Whatever the threads do and whenever they run again, the initialiser runs in one thread at a
time and completes at most once, later calls return, and nobody is left waiting at a guard that is
released or free. -/
theorem initialises_once (labels : List (Label threads)) (state : State threads) (count : Nat)
    (run : Run (observing exec completions) unrestricted (initial, 0) labels (state, count)) :
    Contract state count := by
  refine Sound.contract (run.observed Sound ?_ ?_)
  · exact fun _ _ _ _ sound _ stepped => sound.step stepped
  · exact ⟨List.nodup_nil, by simp [initial], by simp [initial], rfl, fun _ => rfl,
      fun _ => absurd rfl, by simp [initial], nofun⟩

/-- Thread 0 throws while the others wait, and thread 2 overtakes the one that is woken. -/
theorem initialises_once_overtaken : ∃ (state : State 4) (count : Nat),
    Run (observing exec completions) unrestricted (initial, 0)
      [.acquire 0, .once 1, .acquire 2, .abort 0, .acquire 3, .resume 2, .finish 3, .resume 1]
      (state, count) ∧
    count = 1 ∧ state.pc 2 = .waiting ∧ Contract state count :=
  exists_observed (fun state count => count = 1 ∧ state.pc 2 = .waiting) (by decide)
    fun state count run ⟨once, waits⟩ => ⟨run, once, waits, initialises_once _ state count run⟩

end Miosix.Guard
