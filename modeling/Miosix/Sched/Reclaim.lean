/-
This file is about the reclaiming of dead threads, `removeDeadThreads` of the priority and the
EDF scheduler.

A call takes threads from the end of the list of the threads that are not ready as long as the
last one is deleted, that is terminated and joined or detached. Its lock covers one look at the
list, and the memory of a thread is given back without it. So a call is a series of steps, and
other threads, interrupts and other calls go on in between.

The loop stops at the first thread that is not deleted. A scheduler run puts every terminated
thread at the end of the list, though, also one that nobody has joined yet, and such a thread
hides the deleted ones before it.
-/

import Miosix.Sched.Slots

namespace Miosix.Reclaim

open Transition Function Option

variable {threads cores callers : Nat}

/-! ### The scheduler -/

/-- A scheduler, as `basic_scheduler` sees it: its state and its steps. The condition `steady` is
what the lists of the scheduler depend on. -/
structure BasicScheduler (threads cores : Nat) where
  State : Type
  exec : State → Cores.Label threads cores → Option State
  initial : State
  toCores : State → Cores threads cores
  withCores : State → Cores threads cores → State
  queued : State → Fin threads → Prop
  steady : State → Cores.Label threads cores → Bool

/-! ### The machine -/

/-- Where a caller of `removeDeadThreads` is. -/
inductive Phase (threads : Nat) where
  | outside
  | looking
  | freeing (thread : Fin threads)
  deriving DecidableEq, Repr

variable {scheduler : BasicScheduler threads cores}

/-- The kernel with its calls of `removeDeadThreads`. Threads that were made are told apart from
those that were not, and `freed` counts how often the memory of a thread was given back. -/
structure Machine (scheduler : BasicScheduler threads cores) (callers : Nat) where
  state : scheduler.State
  created : Fin threads → Bool
  freed : Fin threads → Nat
  phase : Fin callers → Phase threads

section

variable (machine : Machine scheduler callers)

def Machine.kernel : Cores threads cores :=
  scheduler.toCores machine.state

inductive Label (threads cores callers : Nat) where
  | step (label : Cores.Label threads cores)
  | removeDeadThreads (caller : Fin callers)
  | look (caller : Fin callers)
  | free (caller : Fin callers)

/-- The threads made so far after a step that may have made one. -/
def create (created : Fin threads → Bool) : Option (Fin threads) → Fin threads → Bool
  | some thread => update created thread true
  | none => created

def Machine.setPhase (caller : Fin callers) (phase : Phase threads) : Machine scheduler callers :=
  { machine with phase := update machine.phase caller phase }

/-- A thread is made once. The part of an iteration under the lock is `look`: it ends the call, or
takes a thread out of the list, whose memory is given back by `free`. -/
def exec (machine : Machine scheduler callers) :
    Label threads cores callers → Option (Machine scheduler callers)
  | .step label =>
      if label.removes = false ∧
          (∀ thread, label.added = some thread → machine.created thread = false) then
        (scheduler.exec machine.state label).map fun next => { machine with
          state := next
          created := create machine.created label.added }
      else none
  | .removeDeadThreads caller =>
      if machine.phase caller = .outside then some (machine.setPhase caller .looking) else none
  | .look caller =>
      if machine.phase caller = .looking then
        match machine.kernel.notReady.getLast?, machine.kernel.removeDeadThread with
        | some thread, some next =>
            some { machine.setPhase caller (.freeing thread) with
              state := scheduler.withCores machine.state next }
        | _, _ => some (machine.setPhase caller .outside)
      else none
  | .free caller =>
      match machine.phase caller with
      | .freeing thread =>
          some { machine.setPhase caller .looking with
            freed := update machine.freed thread (machine.freed thread + 1) }
      | _ => none

def Machine.initial (scheduler : BasicScheduler threads cores) (callers : Nat) :
    Machine scheduler callers where
  state := scheduler.initial
  created := fun _ => false
  freed := fun _ => 0
  phase := fun _ => .outside

/-! ### What a call is for -/

/-- A thread whose memory is still in use and that is terminated and joined or detached. -/
def Machine.Deleted (thread : Fin threads) : Prop :=
  machine.created thread = true ∧ machine.freed thread = 0 ∧
    (machine.kernel.flags thread).isDeleted = true
  deriving Decidable

/-- The record of the threads that were deleted before each call. -/
abbrev Record (threads callers : Nat) := Fin callers → Fin threads → Bool

def note (record : Record threads callers) (machine : Machine scheduler callers) :
    Label threads cores callers → Machine scheduler callers → Record threads callers
  | .removeDeadThreads caller, _ =>
      update record caller fun thread => decide (machine.Deleted thread)
  | _, _ => record

/-- A thread is in a list of the scheduler, or runs. -/
def Machine.Registered (thread : Fin threads) : Prop :=
  thread ∈ machine.kernel.notReady ∨ scheduler.queued machine.state thread ∨
    ∃ core, machine.kernel.running core = thread

/-- A thread was removed from the scheduler and freed once. -/
def Machine.Gone (thread : Fin threads) : Prop :=
  ¬ machine.Registered thread ∧ machine.freed thread = 1

/-- What holds when a call returns, for the threads that were deleted before it: they are gone. Any
other thread is still there, unless it was deleted in the meantime. -/
structure Reclaimed (dead : Fin threads → Bool) (machine : Machine scheduler callers) : Prop where
  gone : ∀ thread, dead thread = true → machine.Gone thread
  others : ∀ thread, machine.created thread = true → dead thread = false →
    (machine.Registered thread ∧ machine.freed thread = 0) ∨
      ((machine.kernel.flags thread).isDeleted = true ∧ machine.Gone thread)

/-! ### The condition -/

section

variable (state : Cores threads cores) (core : Fin cores)

/-- No deleted thread is hidden by one behind it. -/
def Sorted : Prop :=
  state.notReady.Pairwise fun front back =>
    (state.flags front).isDeleted = true → (state.flags back).isDeleted = true
  deriving Decidable

/-- A scheduler run on the core would put a thread that is terminated but not deleted behind
deleted ones. -/
def Hides : Prop :=
  (state.flags (state.running core)).isZombie = true ∧
    (state.flags (state.running core)).isDeleted = false ∧
    ∃ thread ∈ state.notReady, (state.flags thread).isDeleted = true
  deriving Decidable

end

/-- A call begins with the deleted threads at the end of the list, and no scheduler run hides one
of them while a call is under way. A call returns while no deleted thread is on a core yet and
no other call is about to free a thread. -/
def Safe : Label threads cores callers → Prop
  | .step label => scheduler.steady machine.state label = true ∧
      ((∃ caller, machine.phase caller ≠ .outside) →
        ∀ core, label.runs = some core → ¬ Hides machine.kernel core)
  | .removeDeadThreads _ => Sorted machine.kernel
  | .look _ => machine.kernel.removeDeadThread = none →
      (∀ core, (machine.kernel.flags (machine.kernel.running core)).isDeleted = false) ∧
        ∀ caller thread, machine.phase caller ≠ .freeing thread
  | .free _ => True

instance (label : Label threads cores callers) : Decidable (Safe machine label) :=
  match label with
  | .step _ => inferInstanceAs (Decidable (_ ∧ _))
  | .removeDeadThreads _ => inferInstanceAs (Decidable (Sorted _))
  | .look _ =>
      match left : machine.kernel.removeDeadThread with
      | none => decidable_of_iff
          ((∀ core, (machine.kernel.flags (machine.kernel.running core)).isDeleted = false) ∧
            ∀ caller thread, machine.phase caller ≠ .freeing thread) (by simp [Safe, left])
      | some _ => .isTrue (by simp [Safe, left])
  | .free _ => inferInstanceAs (Decidable True)

end

/-! ### What a step does to the list -/

section

variable (added : Option (Fin threads)) (ran : Option (Fin cores))
  (before after : Cores threads cores)

/-- How a step changes the list of the threads that are not ready: at most a woken thread is taken
out, a thread that is not deleted comes to the front, or a scheduler run puts a terminated
thread at the end. -/
inductive Refiled : Prop where
  | kept (shorter : after.notReady.Sublist before.notReady)
  | front (thread : Fin threads) (listed : after.notReady = thread :: before.notReady)
      (undeleted : (after.flags thread).isDeleted = false)
  | back (core : Fin cores) (here : ran = some core)
      (listed : after.notReady = before.notReady ++ [before.running core])
      (zombie : (before.flags (before.running core)).isZombie = true)
      (flags : after.flags = before.flags)

/-- What a step of a scheduler does to the threads. -/
structure Moves : Prop where
  allocated : ∀ thread, after.allocated thread = true ↔
    before.allocated thread = true ∨ added = some thread
  idle : after.idle = before.idle
  newcomer : ∀ thread, added = some thread → ∀ core, before.idle core ≠ thread
  deleted : ∀ thread, added ≠ some thread → (before.flags thread).isDeleted = true →
    (after.flags thread).isDeleted = true
  refiled : Refiled ran before after

end

variable {ran : Option (Fin cores)} {before after state : Cores threads cores}
  {thread : Fin threads} {flags : ThreadFlags} {added : Option (Fin threads)}
  {created : Fin threads → Bool} {caller : Fin callers} {phase : Phase threads}
  {requeued : Cores threads cores} {core : Fin cores} {dead : Fin threads → Bool}

theorem Moves.of_flags (allocated : after.allocated = before.allocated)
    (idle : after.idle = before.idle) (deleted : ∀ thread, (before.flags thread).isDeleted = true →
      (after.flags thread).isDeleted = true) (shorter : after.notReady.Sublist before.notReady)
    : Moves none ran before after where
  allocated := fun thread => by simp [allocated]
  idle := idle
  newcomer := nofun
  deleted := fun thread _ => deleted thread
  refiled := .kept shorter

theorem Moves.of_create (affinity : Fin cores → Bool) (waiting : Bool)
    (notIdle : ∀ core, before.idle core ≠ thread)
    (made : after = before.create thread affinity waiting ∨
      after = { before.create thread affinity waiting with
        notReady := thread :: before.notReady }) : Moves (some thread) none before after := by
  have flags : after.flags = (before.create thread affinity waiting).flags := by
    rcases made with rfl | rfl <;> rfl
  have allocated : after.allocated = (before.create thread affinity waiting).allocated := by
    rcases made with rfl | rfl <;> rfl
  refine ⟨fun other => ?_, ?_, fun other same => ?_, fun other different deleted => ?_, ?_⟩
  · rw [allocated]
    by_cases same : other = thread
    · simp [Cores.create, same]
    · simp [Cores.create, same, Ne.symm same]
  · rcases made with rfl | rfl <;> rfl
  · exact some_inj.mp same ▸ notIdle
  · rw [flags]
    have elsewhere : other ≠ thread := fun same => different (by rw [same])
    simpa [Cores.create, elsewhere] using deleted
  · rcases made with rfl | rfl
    · exact .kept (List.Sublist.refl _)
    · exact .front thread rfl (by simp [Cores.create, ThreadFlags.isDeleted, ThreadFlags.clear])

section

variable (deleted : flags.isDeleted = true)

include deleted

theorem isDeleted_set (blocking : Blocking) :
    (flags.set blocking).isDeleted = true := by
  cases blocking <;> simp_all [ThreadFlags.set, ThreadFlags.isDeleted]

theorem isDeleted_unset (unblocking : Unblocking) :
    (flags.unset unblocking).isDeleted = true := by
  cases unblocking <;> simp_all [ThreadFlags.unset, ThreadFlags.isDeleted]

theorem isDeleted_detached :
    ThreadFlags.isDeleted { flags with detached := true } = true := by
  simp_all [ThreadFlags.isDeleted]

end

theorem isDeleted_update {flags : Fin threads → ThreadFlags} {changed : ThreadFlags}
    (kept : (flags thread).isDeleted = true → changed.isDeleted = true) (other : Fin threads)
    (deleted : (flags other).isDeleted = true) :
    (update flags thread changed other).isDeleted = true := by
  by_cases same : other = thread
  · subst same
    rw [update_self]
    exact kept deleted
  · rwa [update_of_ne same]

/-- A part of a scheduler run that only selects. -/
structure Unmoved (before after : Cores threads cores) : Prop where
  allocated : after.allocated = before.allocated
  idle : after.idle = before.idle
  flags : after.flags = before.flags
  notReady : after.notReady = before.notReady

theorem Unmoved.moves (same : Unmoved before after) (ran : Option (Fin cores)) :
    Moves none ran before after :=
  .of_flags same.allocated same.idle (fun _ deleted => by rwa [same.flags])
    (same.notReady ▸ List.Sublist.refl _)

/-- The thread of a core is put where `requeue` of either scheduler puts it. -/
def Requeued (core : Fin cores) (before after : Cores threads cores) : Prop :=
  after = before ∨
    ((before.flags (before.running core)).isZombie = true ∧
      after = { before with notReady := before.notReady ++ [before.running core] }) ∨
    ((before.flags (before.running core)).isZombie = false ∧
      after = { before with notReady := before.running core :: before.notReady })

theorem Moves.of_requeue (moved : Requeued core before requeued) (same : Unmoved requeued after) :
    Moves none (some core) before after := by
  rcases moved with rfl | ⟨zombie, rfl⟩ | ⟨alive, rfl⟩
  · exact same.moves (some core)
  · exact ⟨fun thread => by simp [same.allocated], same.idle, nofun,
      fun thread _ deleted => by rwa [same.flags], .back core rfl same.notReady zombie same.flags⟩
  · refine ⟨fun thread => by simp [same.allocated], same.idle, nofun,
      fun thread _ deleted => by rwa [same.flags], .front _ same.notReady ?_⟩
    unfold ThreadFlags.isZombie at alive
    simp [ThreadFlags.isDeleted, same.flags, alive]

/-- A step reads nothing but the flags, the lists and the running threads. -/
theorem Moves.frame {started : Cores threads cores} (moves : Moves added ran started after)
    (same : Unmoved before started) (running : started.running = before.running) :
    Moves added ran before after := by
  obtain ⟨allocated, idle, newcomer, deleted, refiled⟩ := moves
  rw [same.allocated] at allocated
  rw [same.idle] at idle newcomer
  rw [same.flags] at deleted
  refine ⟨allocated, idle, newcomer, deleted, ?_⟩
  cases refiled with
  | kept shorter => exact .kept (same.notReady ▸ shorter)
  | front thread listed undeleted => exact .front thread (same.notReady ▸ listed) undeleted
  | back core here listed zombie flags =>
    rw [same.notReady, running] at listed
    rw [same.flags, running] at zombie
    exact .back core here listed zombie (flags.trans same.flags)

/-- A scheduler run that is put off until the kernel is restarted, or that takes place. -/
theorem Moves.of_run
    {requested : Fin cores → Bool} (moved : Requeued core { state with requested := requested }
      requeued) (same : Unmoved requeued after) : Moves none (some core) state after :=
  (Moves.of_requeue moved same).frame ⟨rfl, rfl, rfl, rfl⟩ rfl

theorem Moves.of_exec {label : Cores.Label threads cores} (keeps : label.removes = false)
    (stepped : before.exec label = some after) : Moves none none before after := by
  cases label with
  | add | setPriority | unblock | runScheduler => cases stepped
  | removeDeadThread => cases keeps
  | block core blocking =>
    obtain ⟨-, rfl⟩ := of_guard stepped
    exact .of_flags rfl rfl (isDeleted_update fun deleted => isDeleted_set deleted blocking)
      (List.Sublist.refl _)
  | detach thread =>
    obtain ⟨-, rfl⟩ := of_guard stepped
    exact .of_flags rfl rfl (isDeleted_update isDeleted_detached) (List.Sublist.refl _)
  | pauseKernel core =>
    obtain ⟨-, rfl⟩ := of_guard stepped
    exact .of_flags rfl rfl (fun _ => id) (List.Sublist.refl _)
  | restartKernel core =>
    obtain ⟨-, rfl⟩ := of_guard stepped
    unfold Cores.restartKernel
    split <;> exact .of_flags rfl rfl (fun _ => id) (List.Sublist.refl _)

/-! ### The threads in the books of the machine -/

def Machine.freeing (machine : Machine scheduler callers) (thread : Fin threads) : Bool :=
  decide (∃ caller, machine.phase caller = .freeing thread)

/-- Every thread that was made exists for the scheduler, is being freed or was freed, and only one
of these, once. It is deleted in the last two cases. -/
structure Books (machine : Machine scheduler callers) : Prop where
  account : ∀ thread, (machine.kernel.allocated thread).toNat + (machine.freeing thread).toNat +
    machine.freed thread = (machine.created thread).toNat
  deleted : ∀ thread, machine.created thread = true → machine.kernel.allocated thread = false →
    (machine.kernel.flags thread).isDeleted = true
  once : ∀ caller other thread, machine.phase caller = .freeing thread →
    machine.phase other = .freeing thread → caller = other
  notIdle : ∀ thread, machine.created thread = true →
    ∀ core, machine.kernel.idle core ≠ thread

/-- The threads that were deleted before a call are still deleted, and none of those still in the
list has a thread behind it that is not. -/
structure Pending (state : Cores threads cores) (created dead : Fin threads → Bool) : Prop where
  known : ∀ thread, dead thread = true →
    created thread = true ∧ (state.flags thread).isDeleted = true
  order : state.notReady.Pairwise fun front back =>
    dead front = true → (state.flags back).isDeleted = true

theorem create_eq_true_iff :
    create created added thread = true ↔ created thread = true ∨ added = some thread := by
  cases added with
  | none => simp [create]
  | some other =>
    by_cases same : thread = other
    · simp [create, same]
    · simp [create, same, Ne.symm same]

theorem Pending.moves (pending : Pending before created dead) (moves : Moves added ran before after)
    (fresh : ∀ thread, added = some thread → created thread = false)
    (listed : ∀ thread ∈ before.notReady, created thread = true)
    (shown : ∀ core, ran = some core → ¬ Hides before core) :
    Pending after (create created added) dead := by
  have lasting : ∀ thread, created thread = true → (before.flags thread).isDeleted = true →
      (after.flags thread).isDeleted = true := by
    intro thread made
    refine moves.deleted thread fun new => ?_
    rw [fresh thread new] at made
    cases made
  have known : ∀ thread, dead thread = true → (after.flags thread).isDeleted = true := by
    intro thread doomed
    obtain ⟨made, deleted⟩ := pending.known thread doomed
    exact lasting thread made deleted
  have order : before.notReady.Pairwise fun front back =>
      dead front = true → (after.flags back).isDeleted = true := by
    refine pending.order.imp_of_mem fun _ member behind doomed => ?_
    exact lasting _ (listed _ member) (behind doomed)
  refine ⟨fun thread doomed => ⟨create_eq_true_iff.mpr (.inl (pending.known thread doomed).1),
    known thread doomed⟩, ?_⟩
  cases moves.refiled with
  | kept shorter => exact order.sublist shorter
  | front thread listed undeleted =>
    rw [listed, List.pairwise_cons]
    refine ⟨fun other _ doomed => ?_, order⟩
    rw [known thread doomed] at undeleted
    cases undeleted
  | back core here filed zombie flags =>
    rw [filed, List.pairwise_append]
    refine ⟨order, List.pairwise_singleton _ _, fun front member last same doomed => ?_⟩
    rw [List.mem_singleton.mp same, flags]
    by_contra undeleted
    exact shown core here ⟨zombie, by simpa using undeleted, front, member,
      (pending.known front doomed).2⟩

/-! ### The steps of the machine -/

/-- What the lists of a scheduler have to do for this: an invariant that its steps keep, under
which they move the threads as above. -/
structure Lawful (scheduler : BasicScheduler threads cores) (Sound : scheduler.State → Prop) :
    Prop where
  initial : Sound scheduler.initial
  unallocated : ∀ thread, (scheduler.toCores scheduler.initial).allocated thread = false
  slots : ∀ state, Sound state → (scheduler.toCores state).Sound (scheduler.queued state)
  step : ∀ state label next, Sound state → label.removes = false →
    scheduler.steady state label = true → scheduler.exec state label = some next →
    Sound next ∧ Moves label.added label.runs (scheduler.toCores state) (scheduler.toCores next)
  removed : ∀ state next, Sound state →
    (scheduler.toCores state).removeDeadThread = some next →
    Sound (scheduler.withCores state next) ∧
      scheduler.toCores (scheduler.withCores state next) = next

/-- The state is sound, the books are right, and the calls under way are on their way. -/
structure Good (Sound : scheduler.State → Prop) (machine : Machine scheduler callers)
    (record : Record threads callers) : Prop where
  sound : Sound machine.state
  books : Books machine
  pending : ∀ caller, machine.phase caller ≠ .outside →
    Pending machine.kernel machine.created (record caller)

variable {Sound : scheduler.State → Prop} {machine next : Machine scheduler callers}
  {record : Record threads callers}

section

variable (books : Books machine)
include books

theorem Books.made (allocated : machine.kernel.allocated thread = true) :
    machine.created thread = true := by
  have account := books.account thread
  cases made : machine.created thread with
  | true => rfl
  | false => simp [allocated, made] at account

theorem Books.present (allocated : machine.kernel.allocated thread = true) :
    machine.freeing thread = false ∧ machine.freed thread = 0 := by
  have account := books.account thread
  rw [allocated, books.made allocated, Bool.toNat_true, Nat.add_assoc, Nat.add_eq_left,
    Nat.add_eq_zero_iff, Bool.toNat_eq_zero] at account
  exact account

theorem Books.unmade (unmade : machine.created thread = false)
    : machine.kernel.allocated thread = false ∧
      machine.freeing thread = false ∧ machine.freed thread = 0 := by
  have account := books.account thread
  rw [unmade] at account
  simpa [and_assoc] using account

theorem Books.moves {state : scheduler.State}
    (moves : Moves added ran machine.kernel (scheduler.toCores state))
    (fresh : ∀ thread, added = some thread → machine.created thread = false) :
    Books { machine with state := state, created := create machine.created added } := { books with
  account := by
    intro thread
    show ((scheduler.toCores state).allocated thread).toNat + (machine.freeing thread).toNat +
      machine.freed thread = (create machine.created added thread).toNat
    by_cases new : added = some thread
    · obtain ⟨-, unowned, unfreed⟩ := books.unmade (fresh thread new)
      rw [(moves.allocated thread).mpr (.inr new), create_eq_true_iff.mpr (.inr new), unowned,
        unfreed]
      rfl
    · have allocated : (scheduler.toCores state).allocated thread =
          machine.kernel.allocated thread := by
        rw [Bool.eq_iff_iff, moves.allocated thread]
        exact or_iff_left new
      have created : create machine.created added thread = machine.created thread := by
        rw [Bool.eq_iff_iff, create_eq_true_iff]
        exact or_iff_left new
      rw [allocated, created]
      exact books.account thread
  deleted := by
    intro thread made absent
    have gone : ¬ (machine.kernel.allocated thread = true ∨ added = some thread) := by
      rw [← moves.allocated thread]
      exact Bool.not_eq_true _ ▸ absent
    rw [not_or] at gone
    exact moves.deleted thread gone.2 (books.deleted thread
      ((create_eq_true_iff.mp made).resolve_right gone.2) (by simpa using gone.1))
  notIdle := by
    intro thread made
    show ∀ core, (scheduler.toCores state).idle core ≠ thread
    rw [moves.idle]
    exact (create_eq_true_iff.mp made).elim (books.notIdle thread) (moves.newcomer thread) }

end

theorem phase_setPhase_iff {other : Fin callers} {wanted : Phase threads} :
    (machine.setPhase caller phase).phase other = wanted ↔
      (other = caller ∧ phase = wanted) ∨ (other ≠ caller ∧ machine.phase other = wanted) := by
  by_cases same : other = caller
  · simp [Machine.setPhase, same]
  · simp [Machine.setPhase, same]

theorem freeing_setPhase (before : machine.phase caller ≠ .freeing thread) :
    (machine.setPhase caller phase).freeing thread =
      (decide (phase = .freeing thread) || machine.freeing thread) := by
  rw [Bool.eq_iff_iff, Bool.or_eq_true]
  simp only [Machine.freeing, decide_eq_true_eq, phase_setPhase_iff]
  constructor
  · rintro ⟨other, ⟨-, here⟩ | ⟨-, there⟩⟩
    · exact .inl here
    · exact .inr ⟨other, there⟩
  · rintro (here | ⟨other, there⟩)
    · exact ⟨caller, .inl ⟨rfl, here⟩⟩
    · exact ⟨other, .inr ⟨by rintro rfl; exact before there, there⟩⟩

section

variable (books : Books machine)
include books

/-- A caller goes to a phase in which it frees a thread that no other caller frees, or none. -/
theorem Books.once_setPhase
    (unowned : ∀ thread, phase = .freeing thread → machine.freeing thread = false)
    (one other : Fin callers) (thread : Fin threads)
    (first : (machine.setPhase caller phase).phase one = .freeing thread)
    (second : (machine.setPhase caller phase).phase other = .freeing thread) : one = other := by
  have alone : phase = .freeing thread → ∀ caller, machine.phase caller ≠ .freeing thread := by
    intro here caller there
    have owned := unowned thread here
    exact absurd ⟨caller, there⟩ (of_decide_eq_false owned)
  rcases phase_setPhase_iff.mp first with ⟨rfl, here⟩ | ⟨-, there⟩
  · rcases phase_setPhase_iff.mp second with ⟨rfl, -⟩ | ⟨-, there⟩
    · rfl
    · exact absurd there (alone here other)
  · rcases phase_setPhase_iff.mp second with ⟨rfl, here⟩ | ⟨-, also⟩
    · exact absurd there (alone here one)
    · exact books.once one other thread there also

/-- A caller that frees no thread goes to a phase in which it frees none. -/
theorem Books.setPhase (before : ∀ thread, machine.phase caller ≠ .freeing thread)
    (after : ∀ thread, phase ≠ .freeing thread) : Books (machine.setPhase caller phase) := {
  books with
  account := by
    intro thread
    rw [freeing_setPhase (before thread), decide_eq_false (after thread), Bool.false_or]
    exact books.account thread
  once := books.once_setPhase fun thread here => absurd here (after thread) }

/-- A deleted thread is taken out of the list, and its caller is to free it. -/
theorem Books.take {state : scheduler.State}
    (looking : machine.phase caller = .looking) (present : machine.kernel.allocated thread = true)
    (deleted : (machine.kernel.flags thread).isDeleted = true)
    (taken : scheduler.toCores state = { machine.kernel with
      notReady := machine.kernel.notReady.dropLast
      allocated := update machine.kernel.allocated thread false }) :
    Books { machine.setPhase caller (.freeing thread) with state := state } where
  account := by
    intro other
    show ((scheduler.toCores state).allocated other).toNat +
      ((machine.setPhase caller (.freeing thread)).freeing other).toNat + machine.freed other =
        (machine.created other).toNat
    rw [freeing_setPhase (by simp [looking]), taken]
    by_cases same : other = thread
    · subst same
      obtain ⟨-, unfreed⟩ := books.present present
      simp [unfreed, books.made present]
    · simpa [same, Ne.symm same] using books.account other
  deleted := by
    intro other made absent
    show ((scheduler.toCores state).flags other).isDeleted = true
    have gone : (scheduler.toCores state).allocated other = false := absent
    rw [taken] at gone ⊢
    by_cases same : other = thread
    · rw [same]
      exact deleted
    · exact books.deleted other made (by simpa [same] using gone)
  once := by
    refine books.once_setPhase fun other here => ?_
    obtain ⟨⟩ := here
    exact (books.present present).1
  notIdle := by
    show ∀ other, machine.created other = true → ∀ core, (scheduler.toCores state).idle core ≠ other
    rw [taken]
    exact books.notIdle

/-- The memory of a thread is given back. -/
theorem Books.free (freeing : machine.phase caller = .freeing thread) :
    Books { machine.setPhase caller .looking with
      freed := update machine.freed thread (machine.freed thread + 1) } := { books with
  account := by
    intro other
    show (machine.kernel.allocated other).toNat +
      ((machine.setPhase caller .looking).freeing other).toNat +
        update machine.freed thread (machine.freed thread + 1) other =
      (machine.created other).toNat
    by_cases same : other = thread
    · subst same
      have owned : machine.freeing other = true := decide_eq_true ⟨caller, freeing⟩
      have left : (machine.setPhase caller .looking).freeing other = false := by
        refine decide_eq_false ?_
        rintro ⟨also, there⟩
        rcases phase_setPhase_iff.mp there with ⟨-, here⟩ | ⟨different, there⟩
        · cases here
        · exact different (books.once also caller other there freeing)
      have account := books.account other
      rw [owned] at account
      rw [left, update_self, ← account, Bool.toNat_true, Bool.toNat_false]
      omega
    · rw [update_of_ne same, freeing_setPhase (by simp [freeing, Ne.symm same])]
      exact books.account other
  once := books.once_setPhase nofun }

end

/-- A look either takes the last thread out of the list, which is deleted, or ends the call. -/
theorem look_eq_some (stepped : exec machine (.look caller) = some next) :
    machine.phase caller = .looking ∧
      ((∃ thread left, machine.kernel.notReady.getLast? = some thread ∧
          machine.kernel.removeDeadThread = some left ∧
          next = { machine.setPhase caller (.freeing thread) with
            state := scheduler.withCores machine.state left }) ∨
        (machine.kernel.removeDeadThread = none ∧ next = machine.setPhase caller .outside)) := by
  obtain ⟨looking, stepped⟩ := ite_none_right_eq_some.mp stepped
  refine ⟨looking, ?_⟩
  cases last : machine.kernel.notReady.getLast? with
  | none =>
    have ended : machine.kernel.removeDeadThread = none := by
      simp only [Cores.removeDeadThread, last]
    rw [last, ended] at stepped
    exact .inr ⟨ended, (some_inj.mp stepped).symm⟩
  | some thread =>
    cases taken : machine.kernel.removeDeadThread with
    | none =>
      rw [last, taken] at stepped
      exact .inr ⟨rfl, (some_inj.mp stepped).symm⟩
    | some left =>
      rw [last, taken] at stepped
      exact .inl ⟨thread, left, rfl, rfl, (some_inj.mp stepped).symm⟩

theorem removeDeadThread_of_getLast {left : Cores threads cores}
    (last : state.notReady.getLast? = some thread) (taken : state.removeDeadThread = some left) :
    (state.flags thread).isDeleted = true ∧ left = { state with
      notReady := state.notReady.dropLast
      allocated := update state.allocated thread false } := by
  simp only [Cores.removeDeadThread, last] at taken
  obtain ⟨deleted, same⟩ := ite_none_right_eq_some.mp taken
  exact ⟨deleted, (some_inj.mp same).symm⟩

section

variable (lawful : Lawful scheduler Sound)

include lawful

theorem Good.listed (good : Good Sound machine record)
    (listed : thread ∈ machine.kernel.notReady) : machine.kernel.allocated thread = true :=
  (((lawful.slots machine.state good.sound).mem_notReady_iff).mp listed).1.1

theorem Good.step (good : Good Sound machine record)
    {label : Label threads cores callers} (safe : Safe machine label)
    (stepped : exec machine label = some next) :
    Good Sound next (note record machine label next) := by
  cases label with
  | step label =>
    obtain ⟨⟨keeps, fresh⟩, stepped⟩ := ite_none_right_eq_some.mp stepped
    obtain ⟨state, moved, rfl⟩ := map_eq_some_iff.mp stepped
    obtain ⟨sound, moves⟩ := lawful.step _ _ _ good.sound keeps safe.1 moved
    refine ⟨sound, good.books.moves moves fresh, fun caller busy => ?_⟩
    exact (good.pending caller busy).moves moves fresh
      (fun thread listed => good.books.made (good.listed lawful listed)) (safe.2 ⟨caller, busy⟩)
  | removeDeadThreads caller =>
    obtain ⟨outside, rfl⟩ := of_guard stepped
    refine ⟨good.sound, good.books.setPhase (by simp [outside]) (by simp), fun other busy => ?_⟩
    by_cases same : other = caller
    · subst same
      simp only [note, update_self]
      refine ⟨fun thread doomed => ?_, safe.imp fun behind doomed => behind ?_⟩
      · exact ⟨(of_decide_eq_true doomed).1, (of_decide_eq_true doomed).2.2⟩
      · exact (of_decide_eq_true doomed).2.2
    · simp only [note, update_of_ne same]
      simp only [Machine.setPhase, update_of_ne same] at busy
      exact good.pending other busy
  | look caller =>
    obtain ⟨looking, ⟨thread, left, last, taken, rfl⟩ | ⟨-, rfl⟩⟩ := look_eq_some stepped
    · obtain ⟨sound, same⟩ := lawful.removed _ _ good.sound taken
      obtain ⟨deleted, rfl⟩ := removeDeadThread_of_getLast last taken
      have present := good.listed lawful (List.mem_of_getLast? last)
      refine ⟨sound, good.books.take looking present deleted same, fun other busy => ?_⟩
      have pending : Pending machine.kernel machine.created (record other) := by
        refine good.pending other fun outside => busy ?_
        exact phase_setPhase_iff.mpr (.inr ⟨by rintro rfl; simp [looking] at outside, outside⟩)
      show Pending (scheduler.toCores _) machine.created (record other)
      rw [same]
      exact ⟨pending.known, pending.order.sublist (List.dropLast_sublist _)⟩
    · refine ⟨good.sound, good.books.setPhase (by simp [looking]) (by simp), fun other busy => ?_⟩
      refine good.pending other fun outside => busy ?_
      by_cases same : other = caller
      · exact phase_setPhase_iff.mpr (.inl ⟨same, rfl⟩)
      · exact phase_setPhase_iff.mpr (.inr ⟨same, outside⟩)
  | free caller =>
    simp only [exec] at stepped
    split at stepped
    · rename_i thread freeing
      obtain rfl := some_inj.mp stepped
      refine ⟨good.sound, good.books.free freeing, fun other busy => ?_⟩
      refine good.pending other fun outside => busy ?_
      exact phase_setPhase_iff.mpr (.inr ⟨by rintro rfl; simp [freeing] at outside, outside⟩)
    · cases stepped

theorem initial_good :
    Good Sound (Machine.initial scheduler callers) record where
  sound := lawful.initial
  books := by
    refine ⟨fun thread => ?_, by simp [Machine.initial], by simp [Machine.initial],
      by simp [Machine.initial]⟩
    have absent := lawful.unallocated thread
    simp [Machine.initial, Machine.kernel, Machine.freeing, absent]
  pending := fun caller => absurd rfl

end

/-! ### A call that returns -/

/-- None of the threads deleted before a call is in the list when the call finds nothing to take
out of it. -/
theorem Pending.unlisted (pending : Pending state created dead)
    (ended : state.removeDeadThread = none) (doomed : dead thread = true) :
    thread ∉ state.notReady := by
  intro listed
  obtain ⟨last, found⟩ : ∃ last, state.notReady.getLast? = some last :=
    ⟨_, List.getLast?_eq_some_getLast (List.ne_nil_of_mem listed)⟩
  have undeleted : (state.flags last).isDeleted = false := by
    unfold Cores.removeDeadThread at ended
    rw [found] at ended
    simpa using ended
  have order := pending.order
  rw [← List.dropLast_append_getLast? last found] at order listed
  have deleted : (state.flags last).isDeleted = true := by
    rcases List.mem_append.mp listed with front | back
    · exact (List.pairwise_append.mp order).2.2 thread front last (List.mem_singleton_self last)
        doomed
    · rw [← List.mem_singleton.mp back]
      exact (pending.known thread doomed).2
  rw [undeleted] at deleted
  cases deleted

section

variable (lawful : Lawful scheduler Sound) (good : Good Sound machine record)

include lawful good

/-- A thread that does not exist for the scheduler any more is in no list and on no core. -/
theorem Good.unregistered
    (made : machine.created thread = true) (absent : machine.kernel.allocated thread = false) :
    ¬ machine.Registered thread := by
  have slots := lawful.slots machine.state good.sound
  have dead : ¬ machine.kernel.Live thread := Cores.not_live_of_unallocated absent
  rintro (listed | queued | ⟨core, runs⟩)
  · exact dead (slots.mem_notReady_iff.mp listed).1
  · exact dead ((slots.queued_iff thread).mp queued).1
  · have off := Cores.off_iff.mp (slots.off_of_not_live dead (good.books.notIdle thread made))
    exact off core runs

/-- A thread that exists for the scheduler is in a list or on a core. -/
theorem Good.registered
    (present : machine.kernel.allocated thread = true) : machine.Registered thread := by
  have slots := lawful.slots machine.state good.sound
  have live : machine.kernel.Live thread :=
    ⟨present, good.books.notIdle thread (good.books.made present)⟩
  by_cases runs : ∃ core, machine.kernel.running core = thread
  · exact .inr (.inr runs)
  rw [not_exists] at runs
  cases ready : (machine.kernel.flags thread).isReady with
  | true => exact .inr (.inl ((slots.queued_iff thread).mpr ⟨live, ready, runs⟩))
  | false => exact .inl (slots.mem_notReady_iff.mpr ⟨live, ready, runs⟩)

end

theorem isReady_of_isDeleted (deleted : flags.isDeleted = true) : flags.isReady = false :=
  ThreadFlags.not_ready_of_zombie (Bool.and_eq_true_iff.mp deleted).1

theorem Good.reclaimed (lawful : Lawful scheduler Sound) (good : Good Sound machine record)
    (safe : Safe machine (.look caller)) (stepped : exec machine (.look caller) = some next)
    (returned : next.phase caller = .outside) : Reclaimed (record caller) next := by
  have after := good.step lawful safe stepped
  obtain ⟨looking, ⟨thread, left, -, -, rfl⟩ | ⟨ended, rfl⟩⟩ := look_eq_some stepped
  · simp [Machine.setPhase] at returned
  obtain ⟨vacated, unowned⟩ := safe ended
  have pending := good.pending caller (by simp [looking])
  have gone : ∀ thread, machine.created thread = true → machine.kernel.allocated thread = false →
        (machine.setPhase caller .outside).Gone thread := by
    intro thread made absent
    refine ⟨after.unregistered lawful made absent, ?_⟩
    have account := good.books.account thread
    have idle : machine.freeing thread = false :=
      decide_eq_false fun ⟨other, freeing⟩ => unowned other thread freeing
    rw [absent, idle, made, Bool.toNat_false, Nat.zero_add] at account
    exact account
  constructor
  · intro thread doomed
    obtain ⟨made, deleted⟩ := pending.known thread doomed
    refine gone thread made ?_
    rw [← Bool.not_eq_true]
    intro present
    rcases good.registered lawful present with listed | queued | ⟨core, rfl⟩
    · exact pending.unlisted ended doomed listed
    · have slots := lawful.slots machine.state good.sound
      have ready : (machine.kernel.flags thread).isReady = true :=
        ((slots.queued_iff thread).mp queued).2.1
      rw [isReady_of_isDeleted deleted] at ready
      cases ready
    · rw [vacated core] at deleted
      cases deleted
  · intro thread made _
    cases present : machine.kernel.allocated thread with
    | true =>
      exact .inl ⟨after.registered lawful present, (good.books.present present).2⟩
    | false => exact .inr ⟨good.books.deleted thread made present, gone thread made present⟩

end Miosix.Reclaim
