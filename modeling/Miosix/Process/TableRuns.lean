/-
This file proves what holds of the process table in every state that is reached by any interleaving
of the calls: who has a pid, where the parent of a process has it, and how often a terminated child
is returned and deleted. There is no way back from a list that has an entry too many or too few
because memory ran out, and a new process can be deleted before its pid is read. In the runs in
which no step does this, the table is right.
-/

import Miosix.Lib.Transition
import Miosix.Process.TableCreation
import Miosix.Process.TableTermination

namespace Miosix.ProcessTable

open Transition

variable {threads : Nat} {state : State threads} {self proc : Object} {thread : Fin threads}
  {activity : Activity} {next : State threads}

/-! ### Runs -/

theorem resume_eq (resumed : state.resume self thread activity = some next) :
    activity = .waitingForAny true ∧ next = state.conclude self thread none (state.anyChild self) ∨
      ∃ joined, activity = .waitingFor joined true ∧
        next = (state.leave joined).conclude self thread (some joined)
          ((state.leave joined).oneChild joined false) := by
  cases activity with
  | outside | creating | announcing => nomatch resumed
  | waitingForAny woken =>
    cases woken with
    | false => nomatch resumed
    | true =>
      cases resumed
      exact .inl ⟨rfl, rfl⟩
  | waitingFor joined woken =>
    cases woken with
    | false => nomatch resumed
    | true =>
      cases resumed
      exact .inr ⟨joined, rfl, rfl⟩

theorem creation_eq {next : Object → State threads} {last : State threads}
    (created : State.creation next activity = some last) :
    ∃ proc, activity = .creating proc ∧ last = next proc := by
  cases activity with
  | outside | announcing | waitingForAny | waitingFor => nomatch created
  | creating proc =>
    cases created
    exact ⟨proc, rfl, rfl⟩

theorem announced_eq (stepped : exec state (.announced self thread) = some next) :
    ∃ proc, state.activity self thread = .announcing proc ∧
      next = state.announce self thread proc := by
  cases known : state.activity self thread <;> simp only [exec, known] at stepped <;> cases stepped
  exact ⟨_, rfl, rfl⟩

section

variable (state : State threads)

/-- What a thread that goes on collects has been announced. -/
def State.ResumeAnnounced (self : Object) : Activity → Prop
  | .waitingForAny true => state.Announced self (state.anyChild self)
  | .waitingFor joined true => state.Announced self ((state.leave joined).oneChild joined false)
  | _ => True

/-- There is memory for an entry in the table, and in the list of zombies, and a child is collected
only when its pid has been read. -/
def Orderly : Label threads → Prop
  | .insertionFails _ _ => False
  | .waitpid self _ pid nohang => state.Announced self (state.request self pid nohang).2
  | .resume self thread => state.ResumeAnnounced self (state.activity self thread)
  | .exit proc memory => memory = true ∨ 0 < state.waitCount proc
  | _ => True

instance State.decidableAnnounced (self : Object) (answer : Answer) :
    Decidable (state.Announced self answer) := by
  cases answer <;> unfold State.Announced <;> infer_instance

instance decidableOrderly (label : Label threads) : Decidable (Orderly state label) := by
  unfold Orderly State.ResumeAnnounced
  split <;> try infer_instance
  split <;> infer_instance

end

/-- One section of the calls. -/
theorem Consistent.step {label : Label threads} (consistent : Consistent state)
    (orderly : Orderly state label) (stepped : exec state label = some next) :
    Consistent next := by
  cases label with
  | insertionFails => exact orderly.elim
  | announced self thread =>
    obtain ⟨proc, announces, rfl⟩ := announced_eq stepped
    exact consistent.announce announces
  | create self thread =>
    obtain ⟨⟨running, outside⟩, created⟩ := Option.ite_none_right_eq_some.mp stepped
    obtain ⟨found, result, rfl⟩ := Option.map_eq_some_iff.mp created
    obtain ⟨positive, free⟩ := getNewPid_spec result
    exact consistent.insert running positive free outside
  | created self thread =>
    obtain ⟨proc, creates, rfl⟩ := creation_eq stepped
    exact consistent.start creates
  | creationFails self thread =>
    obtain ⟨proc, creates, rfl⟩ := creation_eq stepped
    exact consistent.abandon creates
  | waitpid self thread pid nohang =>
    obtain ⟨⟨running, outside⟩, rfl⟩ := of_guard stepped
    refine consistent.conclude running (fun object => ?_)
      (sensible_request consistent running orderly)
    rw [outside]
    rfl
  | resume self thread =>
    have announced : state.ResumeAnnounced self (state.activity self thread) := orderly
    rcases resume_eq stepped with ⟨waits, rfl⟩ | ⟨joined, waits, rfl⟩ <;> rw [waits] at announced
    · have running : state.Running self := consistent.calls.fits_of waits
      refine consistent.conclude running (fun object => ?_)
        (sensible_anyChild consistent.tree running announced)
      rw [waits]
      rfl
    · exact consistent.leave waits announced
  | exit proc memory =>
    obtain ⟨⟨running, user, outside⟩, rfl⟩ := of_guard stepped
    exact consistent.exit ⟨running, user, outside⟩ orderly

theorem consistent_of_run {labels : List (Label threads)}
    (run : Run exec Orderly (State.initial threads) labels state) : Consistent state :=
  run.invariant Consistent (fun _ _ _ => Consistent.step) initial_consistent

/-! ### The account of a process -/

/-- Where the parent of a process has it. -/
inductive Place where
  | childs
  | zombies
  | collected
  deriving DecidableEq, Repr

/-- A process that is collected has terminated, and all the threads that wait for it were woken.
There is at least one, and their number is the reference count. -/
def State.At (state : State threads) (parent object : Object) : Place → Prop
  | .childs => object ∈ state.childs parent
  | .zombies => object ∈ state.zombies parent
  | .collected => state.zombie object = true ∧ (state.waiters parent object).Nonempty ∧
      state.waitCount object = (state.waiters parent object).card ∧
      ∀ thread ∈ state.waiters parent object,
        state.activity parent thread = .waitingFor object true

theorem Consistent.place (consistent : Consistent state) {parent object : Object}
    (running : state.Running parent) (child : state.IsChild object parent) :
    ∃! place, state.At parent object place := by
  have tree := consistent.tree
  have counted := consistent.calls.counted object parent child running.1
  have listed := tree.mem_childs parent object running.1
  have dead := tree.mem_zombies parent object running.1 id
  by_cases alive : state.zombie object = false
  · refine ⟨.childs, listed.mpr ⟨child, alive⟩, fun place found => ?_⟩
    cases place with
    | childs => rfl
    | zombies => exact absurd ((dead.mp found).2.1.symm.trans alive) (by decide)
    | collected => exact absurd (found.1.symm.trans alive) (by decide)
  · rw [Bool.not_eq_false] at alive
    by_cases unreferenced : state.waitCount object = 0
    · refine ⟨.zombies, dead.mpr ⟨child, alive, unreferenced⟩, fun place found => ?_⟩
      cases place with
      | childs => exact absurd (alive.symm.trans (listed.mp found).2) (by decide)
      | zombies => rfl
      | collected =>
        have referenced := Finset.card_pos.mpr found.2.1
        omega
    · refine ⟨.collected, ⟨alive, Finset.card_pos.mp (by omega), counted, fun thread member => ?_⟩,
        fun place found => ?_⟩
      · obtain ⟨woken, waits⟩ := waitsFor_iff.mp (Finset.mem_filter.mp member).2
        rw [waits, ← ((consistent.calls.fits_of waits).2.2.1 child.allocated).2, alive]
      · cases place with
        | childs => exact absurd (alive.symm.trans (listed.mp found).2) (by decide)
        | zombies => exact absurd (dead.mp found).2.2 unreferenced
        | collected => rfl

/-- What is known of the processes. -/
structure Accounted (state : State threads) : Prop where
  table_iff : ∀ pid object,
    state.processes pid = some object ↔ state.allocated object = true ∧ state.pid object = pid
  pid_positive : ∀ object, state.allocated object = true → object ≠ kernel → 0 < state.pid object
  pid_unique : ∀ first second, state.allocated first = true → state.allocated second = true →
    state.pid first = state.pid second → first = second
  placed : ∀ object, state.allocated object = true → object ≠ kernel →
    ∃ parent, state.processes (state.ppid object) = some parent ∧
      (∃! place, state.At parent object place) ∧
      ∀ owner, state.allocated owner = true →
        object ∈ state.childs owner ∨ object ∈ state.zombies owner → owner = parent
  once : ∀ parent, state.allocated parent = true →
    (state.childs parent).Nodup ∧ (state.zombies parent).Nodup
  waiting : ∀ object, state.allocated object = true →
    state.returned object = 0 ∧ state.freed object = 0
  collected : ∀ object, object < state.objects → state.allocated object = false →
    state.freed object = 1 ∧ (state.zombie object = true → state.returned object = 1)
  faultless : state.fault = false

/-- In every state that an orderly run reaches, pids are positive and unique, the parent of a
process is in the table and has it in exactly one place, and a process that is not there any more
was deleted once, and returned by one call if it had terminated. -/
theorem process_table_is_accounted {labels : List (Label threads)}
    (run : Run exec Orderly (State.initial threads) labels state) : Accounted state := by
  have consistent := consistent_of_run run
  have tree := consistent.tree
  refine ⟨tree.table, tree.positive, fun _ _ => tree.pid_injective, fun object allocated user => ?_,
    fun parent allocated => ⟨tree.childs_nodup parent allocated,
      tree.zombies_nodup parent allocated⟩,
    fun object allocated => (consistent.ledger.allocated object allocated).symm,
    fun object born absent => ?_, consistent.ledger.faultless⟩
  · obtain ⟨parent, running, same⟩ := tree.parents object allocated user
    have child : state.IsChild object parent := ⟨allocated, user, same.symm⟩
    refine ⟨parent, (tree.table _ parent).mpr ⟨running.1, same⟩, consistent.place running child,
      fun owner ownerAllocated listed => ?_⟩
    have other : state.IsChild object owner :=
      listed.elim (fun alive => ((tree.mem_childs owner object ownerAllocated).mp alive).1)
        (tree.isChild_of_zombies owner object ownerAllocated)
    exact tree.parent_unique ownerAllocated running.1 other child
  · obtain ⟨freed, returned⟩ := consistent.ledger.deleted object born absent
    exact ⟨freed, fun dead => returned.trans (if_pos dead)⟩

/-- Two threads of the kernel wait for the same child. It has a child of its own, and terminates. -/
theorem process_table_is_accounted_two_waiters : ∃ state : State 2,
      Run exec Orderly (State.initial 2)
        [.create kernel 0, .created kernel 0, .create 1 0, .created 1 0, .announced kernel 0,
          .announced 1 0, .waitpid kernel 0 1 false, .waitpid kernel 1 1 false, .exit 1 true,
          .resume kernel 1] state ∧ Accounted state ∧ state.waitCount 1 = 1 ∧ state.ppid 2 = 0 :=
  exists_run (fun last => last.waitCount 1 = 1 ∧ last.ppid 2 = 0) (by decide +kernel)
    fun _ run found => ⟨run, process_table_is_accounted run, found⟩

/-- There is no memory for the entry of a new process: the deleted process stays in the list of its
parent, is accessed when the parent ends, and becomes a child of the kernel. There is none for the
entry of a process that ends: it is in no list. And a process that ends at once is collected before
its pid is read. -/
theorem process_table_is_not_accounted :
    (∃ state : State 1, Run exec unrestricted (State.initial 1)
        [.create kernel 0, .created kernel 0, .announced kernel 0, .insertionFails 1 0,
          .exit 1 true] state ∧
      2 ∈ state.childs kernel ∧ state.allocated 2 = false ∧ state.fault = true) ∧
    (∃ state : State 1, Run exec unrestricted (State.initial 1)
        [.create kernel 0, .created kernel 0, .exit 1 false] state ∧
      state.zombie 1 = true ∧ state.childs kernel = [] ∧ state.zombies kernel = [] ∧
      state.waitCount 1 = 0 ∧ state.processes 1 = some 1) ∧
    ∃ state : State 2, Run exec unrestricted (State.initial 2)
        [.create kernel 0, .created kernel 0, .exit 1 true, .waitpid kernel 1 (-1) false,
          .announced kernel 0] state ∧ state.returned 1 = 1 ∧ state.fault = true :=
  ⟨exists_run _ (by decide +kernel) fun _ run found => ⟨run, found⟩,
    exists_run _ (by decide +kernel) fun _ run found => ⟨run, found⟩,
    exists_run _ (by decide +kernel) fun _ run found => ⟨run, found⟩⟩

end Miosix.ProcessTable
