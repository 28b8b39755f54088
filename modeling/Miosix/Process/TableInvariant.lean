/-
This file states when the process table is consistent, and shows that `waitpid` keeps it so. The
tree of processes, the threads inside the calls and the deletions are three groups of facts. A child
that has terminated is in the list of zombies exactly when its reference count is zero, and the
reference count is the number of the threads that wait for it, so that the thread that takes the
last reference is the only one to collect it.
-/

import Miosix.Lib.Update
import Miosix.Process.Table

namespace Miosix.ProcessTable

open Function Finset

variable {threads : Nat} {state : State threads} {self proc : Object} {thread : Fin threads}

/-! ### The invariant -/

/-- A process and its parent. -/
def State.IsChild (state : State threads) (object parent : Object) : Prop :=
  state.allocated object = true ∧ object ≠ kernel ∧ state.ppid object = state.pid parent

variable {object parent joined : Object} {except : Object → Prop} {activity : Activity}
  {other : Fin threads} {gone : Object} {woken : Bool} {lists : Object → List Object}
  {owner : Object} {count : Int}

section

variable (child : state.IsChild object parent)
include child

theorem State.IsChild.allocated : state.allocated object = true := child.1

theorem State.IsChild.user : object ≠ kernel := child.2.1

theorem State.IsChild.ppid_eq : state.ppid object = state.pid parent := child.2.2

end

section

variable (except : Object → Prop) (state : State threads)

/-- The tree of processes. A process is in the table under its pid, its parent runs, and it is in
one of the lists of its parent unless it is collected by threads that wait for it. The lists of
zombies may be wrong for an object that is about to be collected. -/
structure Tree : Prop where
  kernel_runs : state.Running kernel
  kernel_pid : state.pid kernel = 0
  allocated_lt : ∀ object, state.allocated object = true → object < state.objects
  table : ∀ pid object,
    state.processes pid = some object ↔ state.allocated object = true ∧ state.pid object = pid
  positive : ∀ object, state.allocated object = true → object ≠ kernel → 0 < state.pid object
  parents : ∀ object, state.allocated object = true → object ≠ kernel →
    ∃ parent, state.Running parent ∧ state.pid parent = state.ppid object
  childs_nodup : ∀ parent, state.allocated parent = true → (state.childs parent).Nodup
  zombies_nodup : ∀ parent, state.allocated parent = true → (state.zombies parent).Nodup
  mem_childs : ∀ parent object, state.allocated parent = true →
    (object ∈ state.childs parent ↔
      state.IsChild object parent ∧ state.zombie object = false)
  mem_zombies : ∀ parent object, state.allocated parent = true → ¬ except object →
    (object ∈ state.zombies parent ↔
      state.IsChild object parent ∧ state.zombie object = true ∧ state.waitCount object = 0)
  isChild_of_zombies : ∀ parent object, state.allocated parent = true →
    object ∈ state.zombies parent → state.IsChild object parent

/-- A thread that waits for an object. -/
def Activity.waitsFor (object : Object) : Activity → Bool
  | .waitingFor joined _ => joined == object
  | _ => false

/-- The process that a thread is creating, until its pid is read. -/
def Activity.creates : Activity → Option Object
  | .creating proc | .announcing proc => some proc
  | _ => none

/-- The threads of a process that wait for an object. -/
def State.waiters (parent object : Object) : Finset (Fin threads) :=
  Finset.univ.filter fun thread => (state.activity parent thread).waitsFor object = true

/-- What the activity of a thread requires of the processes. A child that is waited for is one of
the process of the thread, unless its creation failed, and the thread is woken when the child has
terminated. -/
def State.Fits (self : Object) : Activity → Prop
  | .outside => True
  | .creating proc => state.Running self ∧ state.IsChild proc self ∧
      state.started proc = false ∧ state.zombie proc = false
  | .announcing proc => state.Running self ∧ state.IsChild proc self
  | .waitingForAny _ => state.Running self
  | .waitingFor joined woken => state.Running self ∧ joined < state.objects ∧
      (state.allocated joined = true → state.IsChild joined self ∧ state.zombie joined = woken) ∧
      (woken = true → state.allocated joined = true)

/-- What an activity requires stays true when the process of the thread goes on running and the
child that the activity is about stays as it is. -/
theorem State.Fits.transfer {state after : State threads} {self : Object} {activity : Activity}
    (fits : state.Fits self activity) (running : state.Running self → after.Running self)
    (born : state.objects ≤ after.objects)
    (kept : ∀ object, activity ≠ .outside → state.allocated self = true →
      state.IsChild object self → after.allocated object = true →
        after.IsChild object self ∧ after.zombie object = state.zombie object)
    (old : ∀ object, object < state.objects → after.allocated object = true →
      state.allocated object = true)
    (created : ∀ object, activity = .creating object → state.allocated object = true →
      after.allocated object = true ∧ after.started object = state.started object)
    (awaited : ∀ object, activity = .waitingFor object true ∨ activity = .announcing object →
      state.allocated object = true → after.allocated object = true) :
    after.Fits self activity := by
  cases activity with
  | outside => trivial
  | creating proc =>
    obtain ⟨runs, child, unstarted, alive⟩ := fits
    obtain ⟨present, started⟩ := created proc rfl child.allocated
    obtain ⟨still, zombie⟩ := kept proc nofun runs.1 child present
    exact ⟨running runs, still, started.trans unstarted, zombie.trans alive⟩
  | announcing proc =>
    obtain ⟨runs, child⟩ := fits
    exact ⟨running runs,
      (kept proc nofun runs.1 child (awaited proc (.inr rfl) child.allocated)).1⟩
  | waitingForAny woken => exact running fits
  | waitingFor joined woken =>
    obtain ⟨runs, early, state_of, woken_of⟩ := fits
    refine ⟨running runs, early.trans_le born, fun present => ?_, fun wakes => ?_⟩
    · obtain ⟨child, dead⟩ := state_of (old joined early present)
      obtain ⟨still, zombie⟩ := kept joined nofun runs.1 child present
      exact ⟨still, zombie.trans dead⟩
    · subst wakes
      exact awaited joined (.inl rfl) (woken_of rfl)

/-- The threads inside the calls. The reference count of a child is the number of those that wait
for it, and no two of them create the same child. -/
structure Calls : Prop where
  fits : ∀ self thread, state.Fits self (state.activity self thread)
  counted : ∀ object parent, state.IsChild object parent → state.allocated parent = true →
    state.waitCount object = (state.waiters parent object).card
  creating_unique : ∀ self thread other proc, (state.activity self thread).creates = some proc →
    (state.activity self other).creates = some proc → thread = other

/-- An object is deleted once, and returned if it had terminated. -/
structure Ledger : Prop where
  allocated : ∀ object, state.allocated object = true →
    state.freed object = 0 ∧ state.returned object = 0
  unborn : ∀ object, state.objects ≤ object → state.freed object = 0 ∧ state.returned object = 0
  deleted : ∀ object, object < state.objects → state.allocated object = false →
    state.freed object = 1 ∧ state.returned object = if state.zombie object then 1 else 0
  faultless : state.fault = false

structure Consistent : Prop where
  tree : Tree (fun _ => False) state
  calls : Calls state
  ledger : Ledger state

end

theorem Tree.pid_injective (tree : Tree except state) {first second : Object}
    (firstAllocated : state.allocated first = true)
    (secondAllocated : state.allocated second = true) (same : state.pid first = state.pid second) :
    first = second :=
  Option.some.inj (((tree.table _ first).mpr ⟨firstAllocated, same⟩).symm.trans
    ((tree.table _ second).mpr ⟨secondAllocated, rfl⟩))

theorem Tree.parent_unique (tree : Tree except state) (parentAllocated :
      state.allocated parent = true) (ownerAllocated : state.allocated owner = true)
    (child : state.IsChild object parent) (other : state.IsChild object owner) : parent = owner :=
  tree.pid_injective parentAllocated ownerAllocated (child.ppid_eq.symm.trans other.ppid_eq)

theorem Tree.weaken (tree : Tree (fun _ => False) state) : Tree except state :=
  { tree with mem_zombies := fun parent object allocated _ =>
      tree.mem_zombies parent object allocated id }

/-! ### The initial state -/

theorem initial_consistent : Consistent (State.initial threads) where
  tree := {
    kernel_runs := ⟨rfl, rfl, rfl⟩
    kernel_pid := rfl
    allocated_lt := fun object allocated => by
      rw [show object = kernel from beq_iff_eq.mp allocated]
      exact Nat.one_pos
    table := fun pid object => by
      simp only [State.initial]
      split
      · rename_i zero
        rw [Option.some.injEq, beq_iff_eq]
        exact ⟨fun same => ⟨same.symm, zero.symm⟩, fun both => both.1.symm⟩
      · rename_i other
        exact iff_of_false nofun fun both => other both.2.symm
    positive := fun object allocated user => absurd (beq_iff_eq.mp allocated) user
    parents := fun object allocated user => absurd (beq_iff_eq.mp allocated) user
    childs_nodup := fun _ _ => List.nodup_nil
    zombies_nodup := fun _ _ => List.nodup_nil
    mem_childs := fun parent object _ => iff_of_false List.not_mem_nil fun both =>
      both.1.user (beq_iff_eq.mp both.1.allocated)
    mem_zombies := fun parent object _ _ => iff_of_false List.not_mem_nil fun both =>
      both.1.user (beq_iff_eq.mp both.1.allocated)
    isChild_of_zombies := nofun }
  calls := {
    fits := fun _ _ => trivial
    counted := fun object parent child _ => absurd (beq_iff_eq.mp child.allocated) child.user
    creating_unique := nofun }
  ledger := {
    allocated := fun _ _ => ⟨rfl, rfl⟩
    unborn := fun _ _ => ⟨rfl, rfl⟩
    deleted := fun object early absent => by
      have first : object = kernel := Nat.lt_one_iff.mp early
      rw [first] at absent
      nomatch absent
    faultless := rfl }

/-! ### Threads -/

theorem waitsFor_iff :
    activity.waitsFor object = true ↔ ∃ woken, activity = .waitingFor object woken := by
  constructor
  · intro waits
    cases activity with
    | waitingFor joined woken =>
      obtain rfl : joined = object := beq_iff_eq.mp waits
      exact ⟨woken, rfl⟩
    | outside | creating | announcing | waitingForAny => nomatch waits
  · rintro ⟨woken, rfl⟩
    exact beq_self_eq_true object

/-- If nobody waits for a child, there are no references. -/
theorem waiters_eq_empty
    (unawaited : ∀ thread woken, state.activity parent thread ≠ .waitingFor object woken) :
    state.waiters parent object = ∅ := by
  refine filter_eq_empty_iff.mpr fun thread _ waits => ?_
  obtain ⟨woken, known⟩ := waitsFor_iff.mp waits
  exact unawaited thread woken known

theorem activity_self : (state.setActivity self thread activity).activity self thread = activity :=
  if_pos ⟨rfl, rfl⟩

theorem activity_other (different : ¬ (object = self ∧ other = thread)) :
    (state.setActivity self thread activity).activity object other =
      state.activity object other :=
  if_neg different

/-- What holds of the new activity of one thread, and of the activities that there are. -/
theorem forall_setActivity {P : Object → Fin threads → Activity → Prop}
    (here : P self thread activity)
    (elsewhere : ∀ object other, P object other (state.activity object other)) (object : Object)
    (other : Fin threads) :
    P object other ((state.setActivity self thread activity).activity object other) := by
  by_cases same : object = self ∧ other = thread
  · obtain ⟨rfl, rfl⟩ := same
    rw [activity_self]
    exact here
  · rw [activity_other same]
    exact elsewhere object other

theorem activity_of_outside
    (known : (state.setActivity self thread .outside).activity object other = activity)
    (busy : activity ≠ .outside) : state.activity object other = activity :=
  forall_setActivity (P := fun object other found =>
    found = activity → state.activity object other = activity)
    (fun same => absurd same.symm busy) (fun _ _ => id) object other known

theorem Tree.setActivity (tree : Tree except state) (activity : Activity) :
    Tree except (state.setActivity self thread activity) :=
  { tree with }

theorem Ledger.setActivity (ledger : Ledger state) (activity : Activity) :
    Ledger (state.setActivity self thread activity) :=
  { ledger with }

theorem waiters_setActivity
    (same : activity.waitsFor object = (state.activity self thread).waitsFor object) :
    (state.setActivity self thread activity).waiters parent object =
      state.waiters parent object := by
  refine filter_congr fun other _ => ?_
  by_cases here : parent = self ∧ other = thread
  · obtain ⟨rfl, rfl⟩ := here
    rw [activity_self, same]
  · rw [activity_other here]

section

variable (calls : Calls state)

include calls

theorem Calls.fits_of (known : state.activity self thread = activity) : state.Fits self activity :=
  known ▸ calls.fits self thread

theorem Calls.child_of_creates (creates : (state.activity self thread).creates = some proc) :
    state.Running self ∧ state.IsChild proc self := by
  have fits := calls.fits self thread
  cases known : state.activity self thread <;> rw [known] at creates fits <;> cases creates
  · exact ⟨fits.1, fits.2.1⟩
  · exact fits

/-- A child that a thread waits for has a reference. -/
theorem Calls.waitCount_pos (waits : state.activity self thread = .waitingFor joined woken)
    (allocated : state.allocated joined = true) : 0 < state.waitCount joined := by
  obtain ⟨running, -, known, -⟩ := calls.fits_of waits
  rw [calls.counted joined self (known allocated).1 running.1, Nat.cast_pos, card_pos]
  exact ⟨thread, mem_filter.mpr ⟨mem_univ thread, waitsFor_iff.mpr ⟨woken, waits⟩⟩⟩

theorem Calls.fits_setActivity (fits : state.Fits self activity)
    (object : Object) (other : Fin threads) :
    state.Fits object ((state.setActivity self thread activity).activity object other) :=
  forall_setActivity (P := fun object _ found => state.Fits object found) fits calls.fits object
    other

theorem Calls.creating_setActivity
    (creates : ∀ proc other, activity.creates = some proc → other ≠ thread →
      (state.activity self other).creates ≠ some proc) (object : Object)
    {first second : Fin threads} (proc : Object) (firstCreates :
      ((state.setActivity self thread activity).activity object first).creates = some proc)
    (secondCreates :
      ((state.setActivity self thread activity).activity object second).creates = some proc) :
    first = second := by
  by_cases firstHere : object = self ∧ first = thread
  · obtain ⟨rfl, rfl⟩ := firstHere
    rw [activity_self] at firstCreates
    by_cases secondHere : second = first
    · exact secondHere.symm
    · rw [activity_other fun both => secondHere both.2] at secondCreates
      exact absurd secondCreates (creates proc second firstCreates secondHere)
  · rw [activity_other firstHere] at firstCreates
    by_cases secondHere : object = self ∧ second = thread
    · obtain ⟨rfl, rfl⟩ := secondHere
      rw [activity_self] at secondCreates
      exact absurd firstCreates (creates proc first secondCreates fun same => firstHere ⟨rfl, same⟩)
    · rw [activity_other secondHere] at secondCreates
      exact calls.creating_unique object first second proc firstCreates secondCreates

/-- A thread that waits for the same child before and after, or for none, changes nothing for the
others. -/
theorem Calls.setActivity
    (same : ∀ object, activity.waitsFor object = (state.activity self thread).waitsFor object)
    (fits : state.Fits self activity)
    (creates : ∀ proc other, activity.creates = some proc → other ≠ thread →
      (state.activity self other).creates ≠ some proc) :
    Calls (state.setActivity self thread activity) := by
  refine ⟨calls.fits_setActivity fits, fun object parent child allocated => ?_,
    calls.creating_setActivity creates⟩
  rw [waiters_setActivity (same object)]
  exact calls.counted object parent child allocated

end

/-! ### Deletion -/

/-- An object is deleted, and removed from the table and from the lists. -/
structure Removes (before after : State threads) (gone : Object) : Prop where
  allocated_iff : ∀ object, after.allocated object = true ↔
    object ≠ gone ∧ before.allocated object = true
  pid_eq : after.pid = before.pid
  ppid_eq : after.ppid = before.ppid
  zombie_eq : after.zombie = before.zombie
  waitCount_eq : after.waitCount = before.waitCount
  started_eq : after.started = before.started
  objects_eq : after.objects = before.objects
  activity_eq : after.activity = before.activity
  processes_eq : after.processes = update before.processes (before.pid gone) none
  mem_childs : ∀ parent object, before.allocated parent = true →
    (object ∈ after.childs parent ↔ object ∈ before.childs parent ∧ object ≠ gone)
  mem_zombies : ∀ parent object, before.allocated parent = true →
    (object ∈ after.zombies parent ↔ object ∈ before.zombies parent ∧ object ≠ gone)
  childs_sublist : ∀ parent, (after.childs parent).Sublist (before.childs parent)
  zombies_sublist : ∀ parent, (after.zombies parent).Sublist (before.zombies parent)

section

variable {after : State threads} {gone : Object} (removes : Removes state after gone)

include removes

theorem Removes.isChild_iff {object parent : Object} :
    after.IsChild object parent ↔ object ≠ gone ∧ state.IsChild object parent := by
  unfold State.IsChild
  rw [removes.allocated_iff, removes.ppid_eq, removes.pid_eq, and_assoc]

theorem Removes.running {object : Object} (idle : ¬ state.Running gone)
    (running : state.Running object) : after.Running object := by
  refine ⟨(removes.allocated_iff object).mpr ⟨?_, running.1⟩, ?_, ?_⟩
  · rintro rfl
    exact idle running
  · rw [removes.started_eq]
    exact running.2.1
  · rw [removes.zombie_eq]
    exact running.2.2

theorem Tree.without (tree : Tree (· = gone) state) (allocated : state.allocated gone = true)
    (user : gone ≠ kernel) (idle : ¬ state.Running gone) : Tree (fun _ => False) after := by
  have present {object : Object} (known : after.allocated object = true) :
      state.allocated object = true := ((removes.allocated_iff object).mp known).2
  refine ⟨removes.running idle tree.kernel_runs, ?_, fun object known => ?_,
    fun pid object => ?_, fun object known => ?_, fun object known user => ?_,
    fun parent known => ?_, fun parent known => ?_, fun parent object known => ?_,
    fun parent object known _ => ?_, fun parent object known listed => ?_⟩
  · rw [removes.pid_eq]
    exact tree.kernel_pid
  · rw [removes.objects_eq]
    exact tree.allocated_lt object (present known)
  · rw [removes.allocated_iff, removes.pid_eq, removes.processes_eq]
    by_cases here : pid = state.pid gone
    · subst here
      rw [update_self]
      refine iff_of_false nofun ?_
      rintro ⟨⟨different, known⟩, same⟩
      exact different (tree.pid_injective known allocated same)
    · rw [update_of_ne here, tree.table]
      refine ⟨fun both => ⟨⟨?_, both.1⟩, both.2⟩, fun both => ⟨both.1.2, both.2⟩⟩
      rintro rfl
      exact here both.2.symm
  · rw [removes.pid_eq]
    exact tree.positive object (present known)
  · obtain ⟨parent, running, same⟩ := tree.parents object (present known) user
    refine ⟨parent, removes.running idle running, ?_⟩
    rw [removes.pid_eq, removes.ppid_eq]
    exact same
  · exact (tree.childs_nodup parent (present known)).sublist (removes.childs_sublist parent)
  · exact (tree.zombies_nodup parent (present known)).sublist (removes.zombies_sublist parent)
  · rw [removes.mem_childs parent object (present known), removes.isChild_iff, removes.zombie_eq,
      tree.mem_childs parent object (present known)]
    exact and_comm.trans and_assoc.symm
  · rw [removes.mem_zombies parent object (present known), removes.isChild_iff,
      removes.zombie_eq, removes.waitCount_eq]
    by_cases same : object = gone
    · exact iff_of_false (fun both => both.2 same) fun both => both.1.1 same
    · rw [tree.mem_zombies parent object (present known) same]
      exact and_comm.trans and_assoc.symm
  · obtain ⟨before, different⟩ := (removes.mem_zombies parent object (present known)).mp listed
    exact removes.isChild_iff.mpr
      ⟨different, tree.isChild_of_zombies parent object (present known) before⟩

theorem Calls.without (calls : Calls state) (idle : ¬ state.Running gone)
    (uncreated : ∀ object thread, state.activity object thread ≠ .creating gone)
    (unawaited : ∀ object thread, state.activity object thread ≠ .waitingFor gone true)
    (announced : ∀ object thread, state.activity object thread ≠ .announcing gone) :
    Calls after := by
  refine ⟨fun object thread => ?_, fun object parent child known => ?_, ?_⟩
  · rw [removes.activity_eq]
    refine (calls.fits object thread).transfer (removes.running idle) removes.objects_eq.ge
      (fun object _ _ child present => ?_)
      (fun object _ present => ((removes.allocated_iff object).mp present).2)
      (fun proc creates known => ⟨(removes.allocated_iff proc).mpr ⟨?_, known⟩, ?_⟩)
      (fun joined waits known => (removes.allocated_iff joined).mpr ⟨?_, known⟩)
    · rw [removes.isChild_iff, removes.zombie_eq]
      exact ⟨⟨((removes.allocated_iff object).mp present).1, child⟩, rfl⟩
    · rintro rfl
      exact uncreated object thread creates
    · rw [removes.started_eq]
    · rintro rfl
      exact waits.elim (unawaited object thread) (announced object thread)
  · rw [removes.waitCount_eq, State.waiters, removes.activity_eq]
    exact calls.counted object parent (removes.isChild_iff.mp child).2
      ((removes.allocated_iff parent).mp known).2
  · rw [removes.activity_eq]
    exact calls.creating_unique

theorem Ledger.without {count : Nat} (ledger : Ledger state) {except : Object → Prop}
    (tree : Tree except state) (allocated : state.allocated gone = true)
    (freed_eq : after.freed = update state.freed gone (state.freed gone + 1))
    (returned_eq : after.returned = update state.returned gone (state.returned gone + count))
    (count_eq : count = if state.zombie gone then 1 else 0) (faultless : after.fault = false) :
    Ledger after := by
  have early := tree.allocated_lt gone allocated
  obtain ⟨unfreed, unreturned⟩ := ledger.allocated gone allocated
  refine ⟨fun object known => ?_, fun object late => ?_, fun object born absent => ?_, faultless⟩
  · obtain ⟨different, present⟩ := (removes.allocated_iff object).mp known
    rw [freed_eq, returned_eq, update_of_ne different, update_of_ne different]
    exact ledger.allocated object present
  · rw [removes.objects_eq] at late
    have different : object ≠ gone := by
      rintro rfl
      exact absurd early (not_lt.mpr late)
    rw [freed_eq, returned_eq, update_of_ne different, update_of_ne different]
    exact ledger.unborn object late
  · rw [removes.objects_eq] at born
    rw [freed_eq, returned_eq, removes.zombie_eq]
    by_cases same : object = gone
    · subst same
      rw [update_self, update_self, unfreed, unreturned, Nat.zero_add]
      exact ⟨rfl, (Nat.zero_add _).trans count_eq⟩
    · rw [update_of_ne same, update_of_ne same]
      refine ledger.deleted object born ?_
      rw [← Bool.not_eq_true] at absent ⊢
      exact fun present => absent ((removes.allocated_iff object).mpr ⟨same, present⟩)

end

theorem update_false_iff {allocated : Object → Bool} : update allocated gone false object = true ↔
      object ≠ gone ∧ allocated object = true := by
  exact forall_update (iff_of_false Bool.false_ne_true fun both => both.1 rfl)
    (fun object same => ⟨fun known => ⟨same, known⟩, fun both => both.2⟩)

/-- A list of an object's parent is filtered, and the object is in no other list. -/
theorem mem_update_filter (elsewhere : parent ≠ owner → gone ∉ lists parent) :
    object ∈ update lists owner ((lists owner).filter (· ≠ gone)) parent ↔
      object ∈ lists parent ∧ object ≠ gone := by
  by_cases here : parent = owner
  · subst here
    rw [update_self, List.mem_filter, decide_eq_true_iff]
  · rw [update_of_ne here]
    refine ⟨fun listed => ⟨listed, ?_⟩, fun both => both.1⟩
    rintro rfl
    exact elsewhere here listed

theorem update_filter_sublist (parent : Object) :
    (update lists owner ((lists owner).filter (· ≠ gone)) parent).Sublist (lists parent) := by
  by_cases here : parent = owner
  · subst here
    rw [update_self]
    exact List.filter_sublist
  · rw [update_of_ne here]

/-- What is known of a child that is collected. -/
structure Collectable (state : State threads) (parent joined : Object) : Prop where
  parent_allocated : state.allocated parent = true
  child : state.IsChild joined parent
  dead : state.zombie joined = true
  waitCount_eq : state.waitCount joined = 0
  announced : ∀ thread, state.activity parent thread ≠ .announcing joined

theorem Collectable.removes (tree : Tree (· = joined) state)
    (collectable : Collectable state self joined) :
    Removes state (state.collect self joined) joined where
  allocated_iff _ := update_false_iff
  pid_eq := rfl
  ppid_eq := rfl
  zombie_eq := rfl
  waitCount_eq := rfl
  started_eq := rfl
  objects_eq := rfl
  activity_eq := rfl
  processes_eq := rfl
  mem_childs parent object allocated := by
    refine ⟨fun listed => ⟨listed, ?_⟩, fun both => both.1⟩
    rintro rfl
    exact absurd (collectable.dead.symm.trans
      ((tree.mem_childs parent object allocated).mp listed).2) (by decide)
  mem_zombies parent object allocated := by
    refine mem_update_filter fun elsewhere listed => elsewhere ?_
    exact tree.parent_unique allocated collectable.parent_allocated
      (tree.isChild_of_zombies parent joined allocated listed) collectable.child
  childs_sublist _ := List.Sublist.refl _
  zombies_sublist parent := update_filter_sublist parent

theorem Collectable.not_waiting (calls : Calls state)
    (collectable : Collectable state self joined) (object : Object) (thread : Fin threads) :
    state.activity object thread ≠ .waitingFor joined woken := fun waits =>
  (calls.waitCount_pos waits collectable.child.allocated).ne' collectable.waitCount_eq

theorem Consistent.of_collect (tree : Tree (· = joined) state) (calls : Calls state)
    (ledger : Ledger state) (collectable : Collectable state self joined) :
    Consistent (state.collect self joined) := by
  have removes := collectable.removes tree
  have idle : ¬ state.Running joined := fun running =>
    absurd (collectable.dead.symm.trans running.2.2) (by decide)
  refine ⟨tree.without removes collectable.child.allocated collectable.child.user idle,
    calls.without removes idle (fun object thread creates => ?_)
      (collectable.not_waiting calls) (fun object thread announces => ?_), ?_⟩
  · exact absurd (collectable.dead.symm.trans (calls.fits_of creates).2.2.2) (by decide)
  · obtain ⟨running, child⟩ := calls.fits_of announces
    obtain rfl := tree.parent_unique running.1 collectable.parent_allocated child collectable.child
    exact collectable.announced thread announces
  · refine ledger.without removes tree collectable.child.allocated rfl rfl
      (if_pos collectable.dead).symm ?_
    show (state.fault || !state.allocated joined) = false
    rw [ledger.faultless, collectable.child.allocated]
    rfl

/-! ### Reference counts -/

/-- The state with another reference count. -/
def State.recount (state : State threads) (joined : Object) (count : Int) : State threads :=
  { state with waitCount := update state.waitCount joined count }

theorem recount_self : (state.recount joined count).waitCount joined = count := update_self _ _ _

theorem recount_other (different : object ≠ joined) :
    (state.recount joined count).waitCount object = state.waitCount object :=
  update_of_ne different _ _

theorem Tree.recount {joined : Object} (tree : Tree (fun _ => False) state) (count : Int) :
    Tree (· = joined) (state.recount joined count) := by
  refine { tree with mem_zombies := fun parent object allocated different => ?_ }
  rw [recount_other different]
  exact tree.mem_zombies parent object allocated id

/-- A child that is alive, or has a reference, is not in a list of zombies. -/
theorem Tree.recount_referenced (tree : Tree (fun _ => False) state)
    (before : state.zombie joined = false ∨ state.waitCount joined ≠ 0)
    (after : state.zombie joined = false ∨ count ≠ 0) :
    Tree (fun _ => False) (state.recount joined count) := by
  refine { tree.recount count with mem_zombies := fun parent object allocated _ => ?_ }
  by_cases same : object = joined
  · subst same
    rw [recount_self]
    have unlisted {count : Int} (apart : state.zombie object = false ∨ count ≠ 0) :
        ¬ (state.IsChild object parent ∧ state.zombie object = true ∧ count = 0) := by
      rintro ⟨-, dead, unreferenced⟩
      rcases apart with alive | referenced
      · exact absurd (dead.symm.trans alive) (by decide)
      · exact referenced unreferenced
    exact (tree.mem_zombies parent object allocated id).trans
      (iff_of_false (unlisted before) (unlisted after))
  · rw [recount_other same]
    exact tree.mem_zombies parent object allocated id

theorem Ledger.recount (ledger : Ledger state) (joined : Object) (count : Int) :
    Ledger (state.recount joined count) :=
  { ledger with }

/-- The references are counted when a thread of the parent starts or stops to wait for a child. -/
theorem Calls.recount {except : Object → Prop} {joined : Object} {activity : Activity}
    (calls : Calls state) (tree : Tree except state) {count : Int}
    (running : state.Running self) (child : state.IsChild joined self)
    (others : ∀ object, object ≠ joined →
      activity.waitsFor object = (state.activity self thread).waitsFor object)
    (fits : state.Fits self activity) (notCreating : activity.creates = none)
    (counts : count = ((state.setActivity self thread activity).waiters self joined).card) :
    Calls ((state.recount joined count).setActivity self thread activity) := by
  refine ⟨calls.fits_setActivity fits, fun object parent other allocated => ?_,
    calls.creating_setActivity fun _ _ creates => nomatch notCreating.symm.trans creates⟩
  by_cases same : object = joined
  · subst same
    obtain rfl : parent = self := tree.parent_unique allocated running.1 other child
    exact recount_self.trans counts
  · refine (recount_other same).trans ?_
    refine (calls.counted object parent other allocated).trans ?_
    exact congrArg (fun found : Finset (Fin threads) => (found.card : Int))
      (waiters_setActivity (others object same)).symm

theorem mem_waiters_setActivity :
    other ∈ (state.setActivity self thread activity).waiters self joined ↔
      if other = thread then activity.waitsFor joined = true
      else other ∈ state.waiters self joined := by
  rw [State.waiters, State.waiters, mem_filter, mem_filter,
    and_iff_right (mem_univ other), and_iff_right (mem_univ other)]
  split
  · rename_i here
    rw [here, activity_self]
  · rename_i elsewhere
    rw [activity_other fun both => elsewhere both.2]

theorem card_waiters_enter (before : (state.activity self thread).waitsFor joined = false) :
    ((state.setActivity self thread (.waitingFor joined woken)).waiters self joined).card =
      (state.waiters self joined).card + 1 := by
  have inserted : (state.setActivity self thread (.waitingFor joined woken)).waiters self joined =
      insert thread (state.waiters self joined) := by
    ext other
    rw [mem_insert, mem_waiters_setActivity]
    split
    · rename_i here
      exact iff_of_true (beq_self_eq_true joined) (.inl here)
    · rename_i elsewhere
      rw [or_iff_right elsewhere]
  rw [inserted, card_insert_of_notMem]
  intro member
  exact absurd ((mem_filter.mp member).2.symm.trans before) (by decide)

theorem card_waiters_leave (before : (state.activity self thread).waitsFor joined = true) :
    ((state.setActivity self thread .outside).waiters self joined).card + 1 =
      (state.waiters self joined).card := by
  have erased : (state.setActivity self thread .outside).waiters self joined =
      (state.waiters self joined).erase thread := by
    ext other
    rw [mem_erase, mem_waiters_setActivity]
    split
    · rename_i here
      exact iff_of_false nofun fun both => both.1 here
    · rename_i elsewhere
      rw [and_iff_right elsewhere]
  rw [erased]
  exact card_erase_add_one (mem_filter.mpr ⟨mem_univ thread, before⟩)

/-! ### The sections of waitpid -/

/-- What is known of an answer. -/
def Sensible (state : State threads) (self : Object) (target : Option Object) : Answer → Prop
  | .returns _ => True
  | .collects joined => Collectable state self joined
  | .blocks => ∀ joined, target = some joined →
      state.IsChild joined self ∧ state.zombie joined = false

/-- Nobody has yet to read the pid of the child that is collected. -/
def State.Announced (state : State threads) (self : Object) : Answer → Prop
  | .collects joined => ∀ thread, state.activity self thread ≠ .announcing joined
  | _ => True

theorem sensible_anyChild (tree : Tree (fun _ => False) state) (running : state.Running self)
    (announced : state.Announced self (state.anyChild self)) :
    Sensible state self none (state.anyChild self) := by
  unfold State.anyChild at announced ⊢
  cases zombies : state.zombies self with
  | cons joined more =>
    rw [zombies] at announced
    obtain ⟨child, dead, unreferenced⟩ := (tree.mem_zombies self joined running.1 id).mp
      (zombies ▸ List.mem_cons_self)
    exact ⟨running.1, child, dead, unreferenced, announced⟩
  | nil =>
    dsimp only
    split
    · trivial
    · exact nofun

theorem sensible_oneChild {joined : Object} (running : state.Running self)
    (child : state.IsChild joined self) (counted : 0 ≤ state.waitCount joined) {nohang : Bool}
    (announced : state.Announced self (state.oneChild joined nohang)) :
    Sensible state self (some joined) (state.oneChild joined nohang) := by
  unfold State.oneChild at announced ⊢
  split
  · rename_i alive
    split
    · trivial
    · rintro other same
      cases same
      exact ⟨child, alive⟩
  · rename_i dead
    split
    · trivial
    · rename_i unreferenced
      rw [if_neg dead, if_neg unreferenced] at announced
      exact ⟨running.1, child, Bool.not_eq_false _ ▸ dead, by omega, announced⟩

theorem Calls.waitCount_nonneg (calls : Calls state) (running : state.Running self)
    (child : state.IsChild joined self) : 0 ≤ state.waitCount joined := by
  rw [calls.counted joined self child running.1]
  exact Int.natCast_nonneg _

theorem sensible_request (consistent : Consistent state) (running : state.Running self) {pid : Int}
    {nohang : Bool} (announced : state.Announced self (state.request self pid nohang).2) :
    Sensible state self (state.request self pid nohang).1 (state.request self pid nohang).2 := by
  unfold State.request at announced ⊢
  split
  · rename_i generic
    rw [if_pos generic] at announced
    dsimp only at announced ⊢
    split
    · trivial
    · rename_i hangs
      rw [if_neg hangs] at announced
      exact sensible_anyChild consistent.tree running announced
  · rename_i certain
    rw [if_neg certain] at announced
    cases found : state.processes pid with
    | none => trivial
    | some joined =>
      rw [found] at announced
      dsimp only at announced ⊢
      split
      · trivial
      · rename_i own
        rw [if_neg own] at announced
        obtain ⟨mine, other⟩ := not_or.mp own
        obtain ⟨allocated, pid_eq⟩ := (consistent.tree.table pid joined).mp found
        have child : state.IsChild joined self := by
          refine ⟨allocated, ?_, not_not.mp mine⟩
          rintro rfl
          rw [consistent.tree.kernel_pid] at pid_eq
          omega
        exact sensible_oneChild running child (consistent.calls.waitCount_nonneg running child)
          announced

theorem Consistent.outside (consistent : Consistent state)
    (quiet : ∀ object, (state.activity self thread).waitsFor object = false) :
    Consistent (state.setActivity self thread .outside) :=
  ⟨consistent.tree.setActivity _,
    consistent.calls.setActivity (fun object => (quiet object).symm) trivial nofun,
    consistent.ledger.setActivity _⟩

theorem announced_outside (announced : ∀ other, state.activity self other ≠ .announcing joined)
    (other : Fin threads) :
    (state.setActivity self thread .outside).activity self other ≠ .announcing joined :=
  fun announces => announced other (activity_of_outside announces nofun)

theorem conclude_collects {target : Option Object} (unreferenced : state.waitCount joined = 0) :
    state.conclude self thread target (.collects joined) =
      (state.setActivity self thread .outside).collect self joined := by
  have checked : ((state.collect self joined).fault || (target == none &&
      state.waitCount joined != 0)) = (state.collect self joined).fault := by
    rw [unreferenced, bne_self_eq_false, Bool.and_false, Bool.or_false]
  unfold State.conclude
  dsimp only
  rw [checked]
  rfl

theorem Consistent.conclude {target : Option Object} {answer : Answer}
    (consistent : Consistent state) (running : state.Running self)
    (quiet : ∀ object, (state.activity self thread).waitsFor object = false)
    (sensible : Sensible state self target answer) :
    Consistent (state.conclude self thread target answer) := by
  cases answer with
  | returns result => exact consistent.outside quiet
  | collects joined =>
    have left := consistent.outside quiet
    rw [conclude_collects sensible.waitCount_eq]
    exact .of_collect left.tree.weaken left.calls left.ledger
      { sensible with announced := announced_outside sensible.announced }
  | blocks =>
    cases target with
    | none =>
      exact ⟨consistent.tree.setActivity _,
        consistent.calls.setActivity (fun object => (quiet object).symm) running nofun,
        consistent.ledger.setActivity _⟩
    | some joined =>
      obtain ⟨child, alive⟩ := sensible joined rfl
      have others (object : Object) (different : object ≠ joined) :
          (Activity.waitingFor joined false).waitsFor object =
            (state.activity self thread).waitsFor object := by
        rw [quiet object]
        exact beq_eq_false_iff_ne.mpr (Ne.symm different)
      refine ⟨(consistent.tree.recount_referenced (.inl alive) (.inl alive)).setActivity _,
        consistent.calls.recount consistent.tree running child others ?_ ?_ ?_,
        (consistent.ledger.recount joined _).setActivity _⟩
      · exact ⟨running, consistent.tree.allocated_lt joined child.allocated,
          fun _ => ⟨child, alive⟩, nofun⟩
      · rfl
      · rw [card_waiters_enter (quiet joined), consistent.calls.counted joined self child running.1]
        rfl

section

variable (consistent : Consistent state)
  (waits : state.activity self thread = .waitingFor joined true)

include consistent waits

/-- What is known when a thread goes on after its wait for a child. -/
theorem Consistent.reference :
    state.Running self ∧ state.IsChild joined self ∧ state.zombie joined = true ∧
      0 < state.waitCount joined := by
  obtain ⟨running, -, known, allocated⟩ := consistent.calls.fits_of waits
  obtain ⟨child, dead⟩ := known (allocated rfl)
  exact ⟨running, child, dead, consistent.calls.waitCount_pos waits child.allocated⟩

/-- A thread that was woken goes on after its wait for a child. The last one collects it. -/
theorem Consistent.leave
    (announced : state.Announced self ((state.leave joined).oneChild joined false)) :
    Consistent ((state.leave joined).conclude self thread (some joined)
      ((state.leave joined).oneChild joined false)) := by
  obtain ⟨running, child, dead, referenced⟩ := consistent.reference waits
  have count := card_waiters_leave (waitsFor_iff.mpr ⟨true, waits⟩)
  have counted := consistent.calls.counted joined self child running.1
  obtain ⟨less, fewer⟩ : ∃ less, less = state.waitCount joined - 1 := ⟨_, rfl⟩
  have left : state.leave joined = state.recount joined less := by
    unfold State.leave State.recount
    rw [child.allocated, decide_eq_false (by omega), Bool.or_false, Bool.not_true, Bool.or_false,
      fewer]
  have calls : Calls ((state.recount joined less).setActivity self thread .outside) := by
    refine consistent.calls.recount consistent.tree running child ?_ trivial ?_ (by omega)
    · intro object different
      rw [waits]
      exact (beq_eq_false_iff_ne.mpr (Ne.symm different)).symm
    · rfl
  have ledger := consistent.ledger.recount joined less
  have dead_eq : (state.recount joined less).zombie joined = true := dead
  rw [left, State.oneChild, dead_eq, if_neg (by decide), recount_self] at announced ⊢
  split
  · exact ⟨(consistent.tree.recount_referenced (.inr (by omega)) (.inr (by omega))).setActivity _,
      calls, ledger.setActivity _⟩
  · rename_i last
    rw [if_neg last] at announced
    have unreferenced : (state.recount joined less).waitCount joined = 0 :=
      recount_self.trans (by omega)
    rw [conclude_collects unreferenced]
    exact .of_collect ((consistent.tree.recount less).setActivity _) calls (ledger.setActivity _)
      ⟨running.1, child, dead, unreferenced, announced_outside announced⟩

end

end Miosix.ProcessTable
