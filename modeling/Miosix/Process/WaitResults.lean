/-
This file compares what `waitpid` answers with the children of the caller. A child matches a call
that asks for any child or for its pid. It can be returned to the call until it has terminated and
other threads collect it, and as long as it lives it counts also if others wait for it, because who
gets it is decided when it terminates.

There are two ways to get a wrong answer. A call for any child that may not block returns zero
before it looks for living children, whereas the call for a certain child looks for it first. And
when the thread of a new process can not be created, the process is taken away from its parent
without a broadcast, so that a thread that started to wait for it sleeps on without a child to wait
for. So does a thread whose process has a deleted one in its list. In the orderly runs in which no
step does this, all answers are right.
-/

import Miosix.Process.TableRuns

namespace Miosix.ProcessTable

open Transition Function

variable {threads : Nat} {state : State threads} {self proc : Object} {thread : Fin threads}
  {pid : Int} {nohang : Bool} {joined : Object}

/-! ### Right answers -/

section

variable (state : State threads)

section

variable (self : Object) (pid : Int)

/-- A child that a call asks for. -/
def State.Matches (child : Object) : Prop :=
  state.IsChild child self ∧ (pid ≤ 0 ∨ state.pid child = pid)

/-- A child that a call asks for, and that is not collected by other threads. -/
def State.Returnable (child : Object) : Prop :=
  state.Matches self pid child ∧ (state.zombie child = false ∨ state.waitCount child = 0)

/-- The answer of a section of `waitpid` fits the children of the caller. -/
structure RightAnswer (nohang : Bool) (answer : Answer) : Prop where
  no_child_iff : answer = .returns (-ECHILD) ↔ ∀ child, ¬ state.Returnable self pid child
  living_of_zero : answer = .returns 0 →
    nohang = true ∧ ∃ child, state.Matches self pid child ∧ state.zombie child = false
  living_of_blocks : answer = .blocks →
    nohang = false ∧ ∃ child, state.Matches self pid child ∧ state.zombie child = false
  returnable_of_collects : ∀ child, answer = .collects child →
    state.Returnable self pid child ∧ state.zombie child = true

end

/-- The calls that are made, and the threads that go on, get right answers, and a thread that sleeps
has a child to wait for. -/
structure RightAnswers (careful : State threads → Label threads → Prop)
    (state : State threads) : Prop where
  called : ∀ self thread pid nohang, state.MayCall self thread →
    careful state (.waitpid self thread pid nohang) →
      RightAnswer state self pid nohang (state.request self pid nohang).2
  resumed_any : ∀ self thread, state.activity self thread = .waitingForAny true →
    RightAnswer state self (-1) false (state.anyChild self)
  resumed_one : ∀ self thread joined, state.activity self thread = .waitingFor joined true →
    RightAnswer (state.leave joined) self (state.pid joined) false
      ((state.leave joined).oneChild joined false)
  asleep_any : ∀ self thread, state.activity self thread = .waitingForAny false →
    ∃ child, state.IsChild child self ∧ state.zombie child = false
  asleep_one : ∀ self thread joined, state.activity self thread = .waitingFor joined false →
    state.IsChild joined self ∧ state.zombie joined = false

/-! ### The condition -/

/-- A thread that waits for a child, or for any child when there is no other one. -/
def Activity.needs (childs : List Object) (proc : Object) : Activity → Prop
  | .waitingForAny woken => woken = false ∧ ∀ child ∈ childs, child = proc
  | .waitingFor joined _ => joined = proc
  | _ => False

instance Activity.decidableNeeds (childs : List Object) (proc : Object) (activity : Activity) :
    Decidable (activity.needs childs proc) := by
  cases activity <;> unfold Activity.needs <;> infer_instance

/-- No other thread of the process needs the child whose creation is under way. -/
def State.Unneeded (self : Object) : Activity → Prop
  | .creating proc => ∀ other, ¬ (state.activity self other).needs (state.childs self) proc
  | _ => True

instance State.decidableUnneeded (self : Object) (activity : Activity) :
    Decidable (state.Unneeded self activity) := by
  cases activity <;> unfold State.Unneeded <;> infer_instance

/-- A call for any child that may not block is made when there is a child that can be returned, and
a creation fails when no other thread needs the child. -/
def Considerate : Label threads → Prop
  | .waitpid self _ pid nohang =>
      pid ≤ 0 ∧ nohang = true → state.childs self ≠ [] ∨ state.zombies self ≠ []
  | .creationFails self thread => state.Unneeded self (state.activity self thread)
  | _ => True

instance decidableConsiderate : (label : Label threads) → Decidable (Considerate state label)
  | .waitpid .. => inferInstanceAs (Decidable (_ → _))
  | .creationFails .. => State.decidableUnneeded ..
  | .create .. | .insertionFails .. | .created .. | .announced .. | .resume .. | .exit .. =>
      isTrue trivial

/-- The steps after which the answers of `waitpid` are right. -/
def Careful (label : Label threads) : Prop := Orderly state label ∧ Considerate state label
  deriving Decidable

end

/-! ### Single answers -/

section

variable {pid : Int} {nohang : Bool} {child : Object}

theorem RightAnswer.no_child (absent : ∀ child, ¬ state.Returnable self pid child) :
    RightAnswer state self pid nohang (.returns (-ECHILD)) where
  no_child_iff := iff_of_true rfl absent
  living_of_zero same := absurd (Answer.returns.inj same) (by decide)
  living_of_blocks same := nomatch same
  returnable_of_collects _ same := nomatch same

section

variable (found : state.Matches self pid child) (alive : state.zombie child = false)

include found alive

theorem RightAnswer.zero : RightAnswer state self pid true (.returns 0) where
  no_child_iff := iff_of_false (fun same => absurd (Answer.returns.inj same) (by decide))
    fun absent => absent child ⟨found, .inl alive⟩
  living_of_zero _ := ⟨rfl, child, found, alive⟩
  living_of_blocks same := nomatch same
  returnable_of_collects _ same := nomatch same

theorem RightAnswer.blocks : RightAnswer state self pid false .blocks where
  no_child_iff := iff_of_false nofun fun absent => absent child ⟨found, .inl alive⟩
  living_of_zero same := nomatch same
  living_of_blocks _ := ⟨rfl, child, found, alive⟩
  returnable_of_collects _ same := nomatch same

end

theorem RightAnswer.collects (returnable : state.Returnable self pid child)
    (dead : state.zombie child = true) :
    RightAnswer state self pid nohang (.collects child) where
  no_child_iff := iff_of_false nofun fun absent => absent child returnable
  living_of_zero same := nomatch same
  living_of_blocks same := nomatch same
  returnable_of_collects _ same := Answer.collects.inj same ▸ ⟨returnable, dead⟩

theorem rightAnswer_anyChild (tree : Tree (fun _ => False) state)
    (running : state.Running self) (generic : pid ≤ 0)
    (hangs : nohang = true → state.zombies self ≠ []) :
    RightAnswer state self pid nohang (state.anyChild self) := by
  unfold State.anyChild
  cases zombies : state.zombies self with
  | cons joined more =>
    obtain ⟨isChild, dead, unreferenced⟩ := (tree.mem_zombies self joined running.1 id).mp
      (zombies ▸ List.mem_cons_self)
    exact .collects ⟨⟨isChild, .inl generic⟩, .inr unreferenced⟩ dead
  | nil =>
    by_cases childless : state.childs self = []
    · rw [if_pos childless]
      refine .no_child ?_
      rintro child ⟨⟨isChild, -⟩, state_of⟩
      cases dead : state.zombie child with
      | false =>
        have listed := (tree.mem_childs self child running.1).mpr ⟨isChild, dead⟩
        rw [childless] at listed
        nomatch listed
      | true =>
        have unreferenced := state_of.resolve_left (by rw [dead]; decide)
        have listed := (tree.mem_zombies self child running.1 id).mpr ⟨isChild, dead, unreferenced⟩
        rw [zombies] at listed
        nomatch listed
    · rw [if_neg childless]
      obtain ⟨child, listed⟩ := List.exists_mem_of_ne_nil _ childless
      obtain ⟨isChild, alive⟩ := (tree.mem_childs self child running.1).mp listed
      obtain rfl : nohang = false := Bool.eq_false_iff.mpr fun given => hangs given zombies
      exact .blocks ⟨isChild, .inl generic⟩ alive

theorem rightAnswer_oneChild (found : state.Matches self pid child)
    (unique : ∀ other, state.Matches self pid other → other = child)
    (counted : 0 ≤ state.waitCount child) :
    RightAnswer state self pid nohang (state.oneChild child nohang) := by
  unfold State.oneChild
  by_cases alive : state.zombie child = false
  · rw [if_pos alive]
    cases nohang with
    | true =>
      exact .zero found alive
    | false =>
      exact .blocks found alive
  · rw [if_neg alive]
    rw [Bool.not_eq_false] at alive
    by_cases referenced : 0 < state.waitCount child
    · rw [if_pos referenced]
      refine .no_child ?_
      rintro other ⟨isMatch, state_of⟩
      obtain rfl := unique other isMatch
      rcases state_of with living | unreferenced
      · exact absurd (alive.symm.trans living) (by decide)
      · omega
    · rw [if_neg referenced]
      exact .collects ⟨found, .inr (by omega)⟩ alive

end

/-! ### Threads that sleep -/

/-- What is known beyond the consistency of the table: no process is its own parent, and every
thread that sleeps has a child to wait for. -/
structure Watched (state : State threads) : Prop where
  apart : ∀ object, ¬ state.IsChild object object
  any : ∀ self thread, state.activity self thread = .waitingForAny false → state.childs self ≠ []
  one : ∀ self thread joined, state.activity self thread = .waitingFor joined false →
    state.allocated joined = true

theorem rightAnswer_request (consistent : Consistent state)
    (watched : Watched state) (running : state.Running self)
    (careful : pid ≤ 0 ∧ nohang = true → state.childs self ≠ [] ∨ state.zombies self ≠ []) :
    RightAnswer state self pid nohang (state.request self pid nohang).2 := by
  have tree := consistent.tree
  unfold State.request
  by_cases generic : pid ≤ 0
  · rw [if_pos generic]
    by_cases early : state.zombies self = [] ∧ nohang = true
    · rw [if_pos early]
      have living := (careful ⟨generic, early.2⟩).resolve_right (not_not.mpr early.1)
      obtain ⟨child, listed⟩ := List.exists_mem_of_ne_nil _ living
      obtain ⟨isChild, alive⟩ := (tree.mem_childs self child running.1).mp listed
      rw [early.2]
      exact .zero ⟨isChild, .inl generic⟩ alive
    · rw [if_neg early]
      exact rightAnswer_anyChild tree running generic fun given empty => early ⟨empty, given⟩
  · rw [if_neg generic]
    have certain {child : Object} (isMatch : state.Matches self pid child) :
        state.IsChild child self ∧ state.processes pid = some child :=
      ⟨isMatch.1, (tree.table pid child).mpr ⟨isMatch.1.allocated, isMatch.2.resolve_left generic⟩⟩
    cases entry : state.processes pid with
    | none =>
      refine .no_child fun child ⟨isMatch, _⟩ => ?_
      have found := (certain isMatch).2
      rw [entry] at found
      nomatch found
    | some joined =>
      have unique (child : Object) (isMatch : state.Matches self pid child) : child = joined :=
        Option.some.inj ((certain isMatch).2.symm.trans entry)
      obtain ⟨allocated, pid_eq⟩ := (tree.table pid joined).mp entry
      dsimp only
      by_cases foreign : state.ppid joined ≠ state.pid self ∨ pid = state.pid self
      · rw [if_pos foreign]
        refine .no_child fun child ⟨isMatch, _⟩ => ?_
        obtain rfl := unique child isMatch
        rcases foreign with other | own
        · exact other isMatch.1.ppid_eq
        · obtain rfl := tree.pid_injective allocated running.1 (pid_eq.trans own)
          exact watched.apart child isMatch.1
      · rw [if_neg foreign]
        obtain ⟨mine, -⟩ := not_or.mp foreign
        have child : state.IsChild joined self := by
          refine ⟨allocated, ?_, not_not.mp mine⟩
          rintro rfl
          rw [tree.kernel_pid] at pid_eq
          omega
        exact rightAnswer_oneChild ⟨child, .inr pid_eq⟩ unique
          (consistent.calls.waitCount_nonneg running child)

theorem initial_watched : Watched (State.initial threads) where
  apart _ child := child.user (beq_iff_eq.mp child.allocated)
  any _ _ impossible := nomatch impossible
  one _ _ _ impossible := nomatch impossible

/-- A thread gets another activity, in which it may sleep if there is a child to wait for. -/
theorem Watched.setActivity {activity : Activity} (watched : Watched state)
    (any : activity = .waitingForAny false → state.childs self ≠ [])
    (one : ∀ joined, activity = .waitingFor joined false → state.allocated joined = true) :
    Watched (state.setActivity self thread activity) := by
  refine ⟨watched.apart, ?_, ?_⟩
  · exact forall_setActivity (P := fun object _ found => found = .waitingForAny false →
      state.childs object ≠ []) any watched.any
  · exact forall_setActivity (P := fun _ _ found => ∀ joined, found = .waitingFor joined false →
      state.allocated joined = true) one watched.one

theorem Watched.outside (watched : Watched state) :
    Watched (state.setActivity self thread .outside) :=
  watched.setActivity nofun nofun

theorem Watched.insert {counter : Int} (watched : Watched state) (consistent : Consistent state)
    (running : state.Running self) (free : state.processes pid = none) :
    Watched (state.insert self thread pid counter) := by
  have inserted : Watched (state.inserted self pid counter) := by
    refine ⟨fun object own => ?_, fun object other sleeps => ?_,
      fun object other joined sleeps => ?_⟩
    · rcases inserted_allocated.mp own.allocated with rfl | present
      · exact inserted_childless consistent running free own
      · rcases (inserted_isChild consistent running present).mp own with ⟨rfl, -⟩ | before
        · exact ne_objects consistent present rfl
        · exact watched.apart object before
    · have runs : state.Running object := consistent.calls.fits_of sleeps
      obtain ⟨child, listed⟩ := List.exists_mem_of_ne_nil _ (watched.any object other sleeps)
      exact List.ne_nil_of_mem ((inserted_mem_childs consistent running runs.1).mpr (.inr listed))
    · exact inserted_allocated.mpr (.inr (watched.one object other joined sleeps))
  exact inserted.setActivity nofun nofun

theorem Watched.abandon (watched : Watched state) (consistent : Consistent state)
    (creates : state.activity self thread = .creating proc)
    (unneeded : state.Unneeded self (state.activity self thread)) :
    Watched (state.abandon self thread proc) := by
  obtain ⟨running, child, -⟩ := consistent.calls.fits_of creates
  rw [creates] at unneeded
  refine ⟨fun object own => ?_, fun object other sleeps => ?_, fun object other joined sleeps => ?_⟩
  · exact watched.apart object ⟨(update_false_iff.mp own.allocated).2, own.2⟩
  · have asleep := activity_of_outside sleeps nofun
    by_cases parent : object = self
    · subst parent
      have free := unneeded other
      rw [asleep] at free
      obtain ⟨elder, listed, different⟩ : ∃ elder ∈ state.childs object, elder ≠ proc := by
        by_contra none
        push Not at none
        exact free ⟨rfl, none⟩
      have kept : elder ∈ (state.abandon object thread proc).childs object := by
        show elder ∈ update state.childs object _ object
        rw [update_self]
        exact List.mem_filter.mpr ⟨listed, decide_eq_true different⟩
      exact List.ne_nil_of_mem kept
    · have kept : (state.abandon self thread proc).childs object = state.childs object :=
        update_of_ne parent _ _
      rw [kept]
      exact watched.any object other asleep
  · have asleep := activity_of_outside sleeps nofun
    have known := watched.one object other joined asleep
    refine update_false_iff.mpr ⟨?_, known⟩
    rintro rfl
    have fits := consistent.calls.fits_of asleep
    obtain rfl : object = self :=
      consistent.tree.parent_unique fits.1.1 running.1 (fits.2.2.1 known).1 child
    have free := unneeded other
    rw [asleep] at free
    exact free rfl

/-- A thread that waits for a child which has terminated is awake. -/
theorem not_asleep {object : Object} {other : Fin threads}
    (fits : state.Fits object (state.activity object other))
    (allocated : state.allocated joined = true) (dead : state.zombie joined = true) :
    state.activity object other ≠ .waitingFor joined false := by
  intro sleeps
  rw [sleeps] at fits
  exact absurd (dead.symm.trans (fits.2.2.1 allocated).2) (by decide)

theorem Watched.conclude {target : Option Object} {answer : Answer} (watched : Watched state)
    (fits : ∀ object other, state.Fits object (state.activity object other))
    (sensible : Sensible state self target answer)
    (living : target = none → answer = .blocks → state.childs self ≠ []) :
    Watched (state.conclude self thread target answer) := by
  cases answer with
  | returns result => exact watched.outside
  | collects joined =>
    have collected : Watched (state.collect self joined) := by
      refine ⟨fun object child => ?_, watched.any, fun object other waited sleeps => ?_⟩
      · exact watched.apart object ⟨(update_false_iff.mp child.allocated).2, child.2⟩
      · refine update_false_iff.mpr ⟨?_, watched.one object other waited sleeps⟩
        rintro rfl
        exact not_asleep (fits object other) sensible.child.allocated sensible.dead sleeps
    have after := @Watched.outside _ _ self thread collected
    exact { after with }
  | blocks =>
    cases target with
    | none =>
      exact watched.setActivity (fun _ => living rfl rfl) nofun
    | some joined =>
      have counted : Watched (state.recount joined (state.waitCount joined + 1)) :=
        { watched with }
      refine counted.setActivity nofun ?_
      rintro _ ⟨⟩
      exact (sensible joined rfl).1.allocated

theorem anyChild_blocks (blocked : state.anyChild self = .blocks) : state.childs self ≠ [] := by
  intro childless
  unfold State.anyChild at blocked
  rw [childless] at blocked
  cases zombies : state.zombies self <;> rw [zombies] at blocked <;> nomatch blocked

theorem request_blocks (generic : (state.request self pid nohang).1 = none)
    (blocked : (state.request self pid nohang).2 = .blocks) : state.childs self ≠ [] := by
  unfold State.request at generic blocked
  split at blocked
  · split at blocked
    · nomatch blocked
    · exact anyChild_blocks blocked
  · rename_i certain
    rw [if_neg certain] at generic
    cases entry : state.processes pid with
    | none =>
      rw [entry] at blocked
      nomatch blocked
    | some joined =>
      rw [entry] at blocked generic
      dsimp only at blocked generic
      split at blocked
      · nomatch blocked
      · rename_i own
        rw [if_neg own] at generic
        nomatch generic

theorem Watched.exit {memory : Bool} (watched : Watched state) (consistent : Consistent state)
    (ending : Ending state proc) (room : memory = true ∨ 0 < state.waitCount proc) :
    Watched (state.exit proc memory) := by
  obtain ⟨parent, running, same⟩ :=
    (ending.orphan_tree consistent).parents proc ending.running.1 ending.user
  rw [exit_eq room (((ending.orphan_tree consistent).table _ parent).mpr ⟨running.1, same⟩)]
  refine ⟨fun object own => ?_, fun object thread sleeps => ?_,
    fun object thread joined sleeps => ?_⟩
  · have orphaned : (state.orphan proc).IsChild object object := own
    rcases (ending.orphan_isChild consistent own.allocated).mp orphaned with
      ⟨child, top⟩ | ⟨child, -⟩
    · exact child.user top
    · exact watched.apart object child
  · have woken : (state.activity object thread).wake proc (0 < state.waitCount proc) =
        .waitingForAny false := sleeps
    cases known : state.activity object thread <;> rw [known] at woken <;> nomatch woken
  · have woken : (state.activity object thread).wake proc (0 < state.waitCount proc) =
        .waitingFor joined false := sleeps
    cases known : state.activity object thread with
    | waitingFor other before =>
      rw [known] at woken
      obtain ⟨rfl, asleep⟩ := Activity.waitingFor.inj woken
      rw [(Bool.or_eq_false_iff.mp asleep).1] at known
      exact watched.one object thread other known
    | outside | creating | announcing | waitingForAny => rw [known] at woken; nomatch woken

theorem leave_nonneg (referenced : 0 < state.waitCount joined) :
    0 ≤ (state.leave joined).waitCount joined := by
  have left : (state.leave joined).waitCount joined = state.waitCount joined - 1 :=
    update_self _ _ _
  omega

theorem Watched.step {label : Label threads} {next : State threads} (watched : Watched state)
    (consistent : Consistent state) (careful : Careful state label)
    (stepped : exec state label = some next) : Watched next := by
  obtain ⟨orderly, considerate⟩ := careful
  cases label with
  | insertionFails => exact orderly.elim
  | announced self thread =>
    obtain ⟨proc, -, rfl⟩ := announced_eq stepped
    have after := @Watched.outside _ _ self thread watched
    exact { after with }
  | create self thread =>
    obtain ⟨⟨running, -⟩, created⟩ := Option.ite_none_right_eq_some.mp stepped
    obtain ⟨found, result, rfl⟩ := Option.map_eq_some_iff.mp created
    exact watched.insert consistent running (getNewPid_spec result).2
  | created self thread =>
    obtain ⟨proc, -, rfl⟩ := creation_eq stepped
    have after :=
      @Watched.setActivity _ _ self thread (.announcing proc) watched (by simp) (by simp)
    exact { after with }
  | creationFails self thread =>
    obtain ⟨proc, creates, rfl⟩ := creation_eq stepped
    exact watched.abandon consistent creates considerate
  | waitpid self thread pid nohang =>
    obtain ⟨⟨running, -⟩, rfl⟩ := of_guard stepped
    exact watched.conclude consistent.calls.fits (sensible_request consistent running orderly)
      request_blocks
  | resume self thread =>
    have announced : state.ResumeAnnounced self (state.activity self thread) := orderly
    rcases resume_eq stepped with ⟨waits, rfl⟩ | ⟨joined, waits, rfl⟩ <;> rw [waits] at announced
    · refine watched.conclude consistent.calls.fits
        (sensible_anyChild consistent.tree ?_ announced) fun _ => anyChild_blocks
      exact consistent.calls.fits_of waits
    · obtain ⟨running, child, -, referenced⟩ := consistent.reference waits
      have left : Watched (state.leave joined) := { watched with }
      exact left.conclude consistent.calls.fits
        (@sensible_oneChild _ (state.leave joined) self joined running child
          (leave_nonneg referenced) _ announced)
        (by simp)
  | exit proc memory =>
    obtain ⟨⟨running, user, outside⟩, rfl⟩ := of_guard stepped
    exact watched.exit consistent ⟨running, user, outside⟩ orderly

/-! ### Runs -/

section

variable {labels : List (Label threads)}
  (run : Run exec Careful (State.initial threads) labels state)

include run

theorem watched_of_run : Consistent state ∧ Watched state :=
  run.invariant (fun reached => Consistent reached ∧ Watched reached)
    (fun _ _ _ holds careful stepped =>
      ⟨holds.1.step careful.1 stepped, holds.2.step holds.1 careful stepped⟩)
    ⟨initial_consistent, initial_watched⟩

/-- In every run whose steps are careful, the answers are right in every state that is reached. -/
theorem waitpid_answers_are_right : RightAnswers Careful state := by
  obtain ⟨consistent, watched⟩ := watched_of_run run
  have tree := consistent.tree
  refine ⟨fun self thread pid nohang may careful => ?_, fun self thread waits => ?_,
    fun self thread joined waits => ?_, fun self thread sleeps => ?_,
    fun self thread joined sleeps => ?_⟩
  · exact rightAnswer_request consistent watched may.1 careful.2
  · have running : state.Running self := consistent.calls.fits_of waits
    exact rightAnswer_anyChild tree running (by decide) nofun
  · obtain ⟨running, child, dead, referenced⟩ := consistent.reference waits
    have positive := tree.positive joined child.allocated child.user
    refine @rightAnswer_oneChild _ (state.leave joined) self (state.pid joined) false joined
      ⟨child, .inr rfl⟩ (fun other isMatch => ?_) (leave_nonneg referenced)
    exact tree.pid_injective isMatch.1.allocated child.allocated
      (isMatch.2.resolve_left (not_le.mpr positive))
  · have running : state.Running self := consistent.calls.fits_of sleeps
    obtain ⟨child, listed⟩ := List.exists_mem_of_ne_nil _ (watched.any self thread sleeps)
    exact ⟨child, (tree.mem_childs self child running.1).mp listed⟩
  · exact (consistent.calls.fits_of sleeps).2.2.1 (watched.one self thread joined sleeps)

end

/-- One thread waits for a certain child and one for any child. The creation of another child fails
meanwhile. -/
theorem waitpid_answers_are_right_two_waiters : ∃ state : State 3,
      Run exec Careful (State.initial 3)
        [.create kernel 0, .created kernel 0, .announced kernel 0, .create kernel 2,
          .waitpid kernel 0 1 false, .waitpid kernel 1 (-1) false, .creationFails kernel 2,
          .waitpid kernel 2 0 true, .exit 1 true] state ∧
      RightAnswers Careful state ∧ state.activity kernel 1 = .waitingForAny true ∧
        state.anyChild kernel = .returns (-ECHILD) :=
  exists_run (fun last => last.activity kernel 1 = .waitingForAny true ∧
      last.anyChild kernel = .returns (-ECHILD)) (by decide +kernel)
    fun _ run found => ⟨run, waitpid_answers_are_right run, found⟩

/-- Without children, a call for any child that may not block returns zero. When there is no memory
for the entry of the only child in the table, a call for any child blocks. And when the creation of
the only child fails later, the threads that wait for it and for any child sleep on. -/
theorem waitpid_answers_are_wrong :
    ((State.initial 1).request kernel (-1) true = (none, .returns 0) ∧
      ∀ child, ¬ (State.initial 1).IsChild child kernel) ∧
    (((State.initial 1).insertFails kernel 2).request kernel (-1) false = (none, .blocks) ∧
      ∀ child, ¬ ((State.initial 1).insertFails kernel 2).IsChild child kernel) ∧
    ∃ state : State 3, Run exec Orderly (State.initial 3)
        [.create kernel 0, .waitpid kernel 1 1 false, .waitpid kernel 2 (-1) false,
          .creationFails kernel 0] state ∧
      state.activity kernel 1 = .waitingFor 1 false ∧
      state.activity kernel 2 = .waitingForAny false ∧
      state.processes 1 = none ∧ ∀ child, ¬ state.IsChild child kernel := by
  refine ⟨⟨by decide, fun child isChild => isChild.user (beq_iff_eq.mp isChild.allocated)⟩,
    ⟨by decide, fun child isChild => isChild.user (beq_iff_eq.mp isChild.allocated)⟩, ?_⟩
  refine exists_run (fun last => last.activity kernel 1 = .waitingFor 1 false ∧
    last.activity kernel 2 = .waitingForAny false ∧ last.processes 1 = none ∧
    last.objects = 2 ∧ last.allocated 1 = false) (by decide +kernel)
    fun last run ⟨one, any, free, objects, deleted⟩ =>
      ⟨run, one, any, free, fun child isChild => ?_⟩
  have early := (consistent_of_run run).tree.allocated_lt child isChild.allocated
  rw [objects] at early
  have first : child = 1 :=
    Nat.le_antisymm (Nat.lt_succ_iff.mp early) (Nat.one_le_iff_ne_zero.mpr isChild.user)
  rw [first] at isChild
  exact absurd (isChild.allocated.symm.trans deleted) (by decide)

end Miosix.ProcessTable
