/-
This file shows that the end of a process keeps the process table consistent. First its children
are moved to the kernel, which gives a consistent tree in which the process has no children. Then it
leaves the list of living children of its parent, and either its waiters are woken or it goes to the
list of zombies.
-/

import Miosix.Process.TableInvariant

namespace Miosix.ProcessTable

open Function

variable {threads : Nat} {state : State threads} {self proc : Object} {thread : Fin threads}
  {object parent owner : Object} {activity : Activity}

/-! ### Termination -/

/-- A process that may end. -/
structure Ending (state : State threads) (proc : Object) : Prop where
  running : state.Running proc
  user : proc ≠ kernel
  outside : ∀ thread, state.activity proc thread = .outside

theorem Ending.elsewhere {thread : Fin threads}
    (ending : Ending state proc) (known : state.activity object thread = activity)
    (busy : activity ≠ .outside) : object ≠ proc := by
  rintro rfl
  exact busy (known.symm.trans (ending.outside thread))

section

variable (consistent : Consistent state) (ending : Ending state proc) {lists : Object → List Object}

include consistent ending

theorem Ending.waitCount_eq (child : state.IsChild object proc) : state.waitCount object = 0 := by
  rw [consistent.calls.counted object proc child ending.running.1, Nat.cast_eq_zero,
    Finset.card_eq_zero]
  refine waiters_eq_empty fun thread woken waits => ?_
  rw [ending.outside thread] at waits
  nomatch waits

/-- Every child is in one of the lists. -/
theorem Ending.isChild_iff :
    state.IsChild object proc ↔ object ∈ state.childs proc ∨ object ∈ state.zombies proc := by
  have tree := consistent.tree
  rw [tree.mem_childs proc object ending.running.1, tree.mem_zombies proc object
    ending.running.1 id]
  constructor
  · intro child
    have unreferenced := ending.waitCount_eq consistent child
    cases dead : state.zombie object with
    | false => exact .inl ⟨child, rfl⟩
    | true => exact .inr ⟨child, rfl, unreferenced⟩
  · rintro (both | both)
    · exact both.1
    · exact both.1

theorem Ending.orphan_isChild (allocated : state.allocated parent = true) :
    (state.orphan proc).IsChild object parent ↔ state.IsChild object proc ∧ parent = kernel ∨
        state.IsChild object parent ∧ parent ≠ proc := by
  have tree := consistent.tree
  by_cases mine : state.IsChild object proc
  · have ppid : (state.orphan proc).ppid object = 0 :=
      if_pos ((ending.isChild_iff consistent).mp mine)
    constructor
    · rintro ⟨-, -, same⟩
      refine .inl ⟨mine, tree.pid_injective allocated tree.kernel_runs.1 ?_⟩
      exact same.symm.trans (ppid.trans tree.kernel_pid.symm)
    · rintro (⟨-, rfl⟩ | ⟨other, different⟩)
      · exact ⟨mine.allocated, mine.user, ppid.trans tree.kernel_pid.symm⟩
      · exact absurd (tree.parent_unique allocated ending.running.1 other mine) different
  · have ppid : (state.orphan proc).ppid object = state.ppid object :=
      if_neg fun listed => mine ((ending.isChild_iff consistent).mpr listed)
    constructor
    · rintro ⟨present, user, same⟩
      have child : state.IsChild object parent := ⟨present, user, ppid.symm.trans same⟩
      refine .inr ⟨child, ?_⟩
      rintro rfl
      exact mine child
    · rintro (⟨child, -⟩ | ⟨child, -⟩)
      · contradiction
      · exact ⟨child.allocated, child.user, ppid.trans child.ppid_eq⟩

omit consistent in
/-- The lists of the process are put in front of those of the kernel. -/
theorem Ending.mem_spliced : object ∈ update
        (update lists kernel (lists proc ++ lists kernel)) proc [] parent ↔
      object ∈ lists proc ∧ parent = kernel ∨ object ∈ lists parent ∧ parent ≠ proc := by
  refine forall_update ?_ (fun parent own => ?_)
  · refine iff_of_false List.not_mem_nil ?_
    rintro (⟨-, top⟩ | ⟨-, different⟩)
    · exact ending.user top
    · exact different rfl
  · by_cases top : parent = kernel
    · subst top
      rw [update_self, List.mem_append]
      exact or_congr (and_iff_left rfl).symm (and_iff_left own).symm
    · rw [update_of_ne top]
      constructor
      · exact fun listed => .inr ⟨listed, own⟩
      · rintro (⟨-, impossible⟩ | ⟨listed, -⟩)
        · contradiction
        · exact listed

omit consistent in
theorem Ending.nodup_spliced (nodup : ∀ owner, state.allocated owner = true → (lists owner).Nodup)
    (disjoint : List.Disjoint (lists proc) (lists kernel))
    (kernelAllocated : state.allocated kernel = true) (allocated : state.allocated parent = true) :
    (update (update lists kernel (lists proc ++ lists kernel)) proc [] parent).Nodup := by
  by_cases own : parent = proc
  · subst own
    rw [update_self]
    exact List.nodup_nil
  · rw [update_of_ne own]
    by_cases top : parent = kernel
    · subst top
      exact (nodup proc ending.running.1).append (nodup kernel kernelAllocated) disjoint
    · rw [update_of_ne top]
      exact nodup parent allocated

theorem Ending.not_both (mine : state.IsChild object proc) :
    ¬ state.IsChild object kernel := fun other =>
  ending.user (consistent.tree.parent_unique ending.running.1 consistent.tree.kernel_runs.1 mine
    other)

theorem Ending.orphan_tree : Tree (fun _ => False) (state.orphan proc) := by
  have tree := consistent.tree
  have kernelAllocated := tree.kernel_runs.1
  refine ⟨tree.kernel_runs, tree.kernel_pid, tree.allocated_lt, tree.table, tree.positive,
    fun object allocated user => ?_, fun parent allocated => ?_, fun parent allocated => ?_,
    fun parent object allocated => ?_, fun parent object allocated _ => ?_,
    fun parent object allocated listed => ?_⟩
  · obtain ⟨parent, running, same⟩ := tree.parents object allocated user
    by_cases own : parent = proc
    · subst own
      refine ⟨kernel, tree.kernel_runs, ?_⟩
      exact (((ending.orphan_isChild consistent kernelAllocated).mpr
        (.inl ⟨⟨allocated, user, same.symm⟩, rfl⟩)).ppid_eq).symm
    · refine ⟨parent, running, ?_⟩
      exact (((ending.orphan_isChild consistent running.1).mpr
        (.inr ⟨⟨allocated, user, same.symm⟩, own⟩)).ppid_eq).symm
  · refine ending.nodup_spliced tree.childs_nodup (fun object mine other => ?_) kernelAllocated
      allocated
    exact ending.not_both consistent ((tree.mem_childs proc object ending.running.1).mp mine).1
      ((tree.mem_childs kernel object kernelAllocated).mp other).1
  · refine ending.nodup_spliced tree.zombies_nodup (fun object mine other => ?_) kernelAllocated
      allocated
    exact ending.not_both consistent (tree.isChild_of_zombies proc object ending.running.1 mine)
      (tree.isChild_of_zombies kernel object kernelAllocated other)
  · rw [ending.orphan_isChild consistent allocated]
    refine ending.mem_spliced.trans ?_
    rw [tree.mem_childs proc object ending.running.1, tree.mem_childs parent object allocated]
    rw [or_and_right, and_right_comm, @and_right_comm (state.IsChild object parent)]
    rfl
  · rw [ending.orphan_isChild consistent allocated]
    refine ending.mem_spliced.trans ?_
    rw [tree.mem_zombies proc object ending.running.1 id,
      tree.mem_zombies parent object allocated id]
    rw [or_and_right, and_right_comm, @and_right_comm (state.IsChild object parent)]
    rfl
  · rw [ending.orphan_isChild consistent allocated]
    refine (ending.mem_spliced.mp listed).imp ?_ ?_
    · exact fun both => ⟨tree.isChild_of_zombies proc object ending.running.1 both.1, both.2⟩
    · exact fun both => ⟨tree.isChild_of_zombies parent object allocated both.1, both.2⟩

theorem Ending.orphan_childless (object : Object) : ¬ (state.orphan proc).IsChild object proc := by
  rw [ending.orphan_isChild consistent ending.running.1]
  rintro (⟨-, top⟩ | ⟨-, different⟩)
  · exact ending.user top
  · exact different rfl

theorem Ending.orphan_calls : Calls (state.orphan proc) := by
  have calls := consistent.calls
  refine ⟨fun object thread => ?_, fun object parent child allocated => ?_, calls.creating_unique⟩
  · refine (calls.fits object thread).transfer id le_rfl
      (fun _ busy parent isChild _ => ⟨?_, rfl⟩) (fun _ _ => id)
      (fun _ _ known => ⟨known, rfl⟩) (fun _ _ => id)
    exact (ending.orphan_isChild consistent parent).mpr
      (.inr ⟨isChild, ending.elsewhere rfl busy⟩)
  · rcases (ending.orphan_isChild consistent allocated).mp child with ⟨mine, rfl⟩ | ⟨other, -⟩
    · have unawaited : state.waiters kernel object = ∅ := by
        refine waiters_eq_empty fun thread woken waits => ?_
        exact ending.not_both consistent mine ((calls.fits_of waits).2.2.1 mine.allocated).1
      show state.waitCount object = (state.waiters kernel object).card
      rw [ending.waitCount_eq consistent mine, unawaited]
      rfl
    · exact calls.counted object parent other allocated

end

/-- The state when the process has terminated. -/
def State.dead (state : State threads) (proc : Object) : State threads :=
  { state with zombie := update state.zombie proc true }

theorem wake_waitsFor {waited : Bool} :
    (activity.wake proc waited).waitsFor object = activity.waitsFor object := by
  cases activity <;> rfl

theorem wake_creates {waited : Bool} : (activity.wake proc waited).creates = activity.creates := by
  cases activity <;> rfl

theorem mem_terminate_zombies : object ∈ (state.terminate parent proc).zombies owner ↔
      object ∈ state.zombies owner ∨
        object = proc ∧ owner = parent ∧ ¬ 0 < state.waitCount proc := by
  unfold State.terminate
  dsimp only
  by_cases waited : 0 < state.waitCount proc
  · rw [if_pos waited]
    exact ⟨.inl, fun either => either.resolve_right fun all => all.2.2 waited⟩
  · rw [if_neg waited]
    refine forall_update ?_ (fun owner here => ?_)
    · rw [List.mem_append, List.mem_singleton]
      exact or_congr_right ⟨fun same => ⟨same, rfl, waited⟩, fun all => all.1⟩
    · exact ⟨.inl, fun either => either.resolve_right fun all => here all.2.1⟩

section

variable {parent : Object} (tree : Tree (fun _ => False) state)
  (calls : Calls state) (ending : Ending state proc)
  (childless : ∀ object, ¬ state.IsChild object proc) (child : state.IsChild proc parent)
  (running : state.Running parent)

theorem running_dead (different : object ≠ proc) (runs : state.Running object) :
    ((state.dead proc).terminate parent proc).Running object :=
  ⟨runs.1, runs.2.1, (update_of_ne different _ _).trans runs.2.2⟩

include tree ending child running in
theorem Ending.zombies_nodup (allocated : state.allocated owner = true) :
    (((state.dead proc).terminate parent proc).zombies owner).Nodup := by
  have absent : proc ∉ state.zombies parent := fun listed =>
    absurd (((tree.mem_zombies parent proc running.1 id).mp listed).2.1.symm.trans
      ending.running.2.2) (by decide)
  show (if 0 < state.waitCount proc then state.zombies
    else update state.zombies parent (state.zombies parent ++ [proc]) :
      Object → List Object) owner |>.Nodup
  split
  · exact tree.zombies_nodup owner allocated
  · by_cases here : owner = parent
    · subst here
      rw [update_self, List.nodup_append_comm, List.singleton_append, List.nodup_cons]
      exact ⟨absent, tree.zombies_nodup owner allocated⟩
    · rw [update_of_ne here]
      exact tree.zombies_nodup owner allocated

include tree ending childless child running in
theorem Ending.terminate_tree (counted : 0 ≤ state.waitCount proc) :
    Tree (fun _ => False) ((state.dead proc).terminate parent proc) := by
  have dead : ((state.dead proc).terminate parent proc).zombie proc = true :=
    update_self _ _ _
  have alive {object : Object} (different : object ≠ proc) :
      ((state.dead proc).terminate parent proc).zombie object = state.zombie object :=
    update_of_ne different _ _
  refine ⟨running_dead ending.user.symm tree.kernel_runs, tree.kernel_pid, tree.allocated_lt,
    tree.table, tree.positive, fun object allocated user => ?_, fun owner allocated => ?_,
    fun owner => ending.zombies_nodup tree child running,
    fun owner object allocated => ?_, fun owner object allocated _ => ?_,
    fun owner object allocated listed => ?_⟩
  · obtain ⟨owner, runs, same⟩ := tree.parents object allocated user
    refine ⟨owner, running_dead ?_ runs, same⟩
    rintro rfl
    exact childless object ⟨allocated, user, same.symm⟩
  · exact (tree.childs_nodup owner allocated).sublist (update_filter_sublist owner)
  · have filtered : object ∈ ((state.dead proc).terminate parent proc).childs owner ↔
        object ∈ state.childs owner ∧ object ≠ proc :=
      mem_update_filter fun elsewhere listed => elsewhere (tree.parent_unique allocated running.1
        ((tree.mem_childs owner proc allocated).mp listed).1 child)
    rw [filtered]
    by_cases same : object = proc
    · subst same
      rw [dead]
      exact iff_of_false (fun both => both.2 rfl) fun both => nomatch both.2
    · rw [alive same, and_iff_left same]
      exact tree.mem_childs owner object allocated
  · rw [mem_terminate_zombies]
    by_cases same : object = proc
    · subst same
      rw [dead]
      constructor
      · rintro (listed | ⟨-, rfl, unreferenced⟩)
        · exact absurd (((tree.mem_zombies owner object allocated id).mp listed).2.1.symm.trans
            ending.running.2.2) (by decide)
        · exact ⟨child, rfl, le_antisymm (not_lt.mp unreferenced) counted⟩
      · rintro ⟨other, -, unreferenced⟩
        refine .inr ⟨rfl, tree.parent_unique allocated running.1 other child, ?_⟩
        exact not_lt.mpr (le_of_eq unreferenced)
    · rw [alive same, or_iff_left fun all => same all.1]
      exact tree.mem_zombies owner object allocated id
  · rcases mem_terminate_zombies.mp listed with before | ⟨rfl, rfl, -⟩
    · exact tree.isChild_of_zombies owner object allocated before
    · exact child

include calls ending in
theorem Ending.terminate_calls (waited : ∀ object thread woken,
      state.activity object thread = .waitingFor proc woken → 0 < state.waitCount proc) :
    Calls ((state.dead proc).terminate parent proc) := by
  refine ⟨fun object thread => ?_, fun object owner other allocated => ?_,
    fun object first second created firstCreates secondCreates =>
      calls.creating_unique object first second created (wake_creates.symm.trans firstCreates)
        (wake_creates.symm.trans secondCreates)⟩
  · have fits := calls.fits object thread
    show State.Fits _ object ((state.activity object thread).wake proc (0 < state.waitCount proc))
    cases known : state.activity object thread with
    | outside => trivial
    | creating created =>
      have different := ending.elsewhere known nofun
      rw [known] at fits
      obtain ⟨runs, isChild, unstarted, alive⟩ := fits
      refine ⟨running_dead different runs, isChild, unstarted, ?_⟩
      refine (update_of_ne ?_ _ _).trans alive
      rintro rfl
      exact absurd (ending.running.2.1.symm.trans unstarted) (by decide)
    | announcing created =>
      rw [known] at fits
      exact ⟨running_dead (ending.elsewhere known nofun) fits.1, fits.2⟩
    | waitingForAny woken =>
      rw [known] at fits
      exact running_dead (ending.elsewhere known nofun) fits
    | waitingFor joined woken =>
      have different := ending.elsewhere known nofun
      rw [known] at fits
      obtain ⟨runs, early, state_of, woken_of⟩ := fits
      by_cases same : joined = proc
      · subst same
        have wakes :
            (woken || (joined == joined && decide (0 < state.waitCount joined))) = true := by
          rw [decide_eq_true (waited object thread woken known), beq_self_eq_true, Bool.and_self,
            Bool.or_true]
        refine ⟨running_dead different runs, early, fun allocated => ⟨(state_of allocated).1, ?_⟩,
          fun _ => ending.running.1⟩
        exact (update_self _ _ _).trans wakes.symm
      · have unchanged :
            (woken || (joined == proc && decide (0 < state.waitCount proc))) = woken := by
          rw [beq_eq_false_iff_ne.mpr same, Bool.false_and, Bool.or_false]
        refine ⟨running_dead different runs, early, fun allocated => ⟨(state_of allocated).1, ?_⟩,
          fun wakes => woken_of (unchanged.symm.trans wakes)⟩
        exact (update_of_ne same _ _).trans ((state_of allocated).2.trans unchanged.symm)
  · refine (calls.counted object owner other allocated).trans ?_
    refine congrArg (fun found : Finset (Fin threads) => (found.card : Int)) ?_
    refine Finset.filter_congr fun thread _ => ?_
    show _ ↔
      ((state.activity owner thread).wake proc (0 < state.waitCount proc)).waitsFor object = true
    rw [wake_waitsFor]

end

theorem exit_eq {memory : Bool} (room : memory = true ∨ 0 < state.waitCount proc)
    (found : (state.orphan proc).processes ((state.orphan proc).ppid proc) = some parent) :
    state.exit proc memory = ((state.orphan proc).dead proc).terminate parent proc := by
  have same : ((state.dead proc).orphan proc).processes
      (((state.dead proc).orphan proc).ppid proc) = some parent := found
  unfold State.dead at same
  simp only [State.exit, same]
  exact if_pos room

theorem Ending.orphan_faultless (consistent : Consistent state) (ending : Ending state proc) :
    (state.orphan proc).fault = false := by
  have present : (state.childs proc ++ state.zombies proc).all state.allocated = true :=
    List.all_eq_true.mpr fun object listed =>
      ((ending.isChild_iff consistent).mpr (List.mem_append.mp listed)).allocated
  show (state.fault || !_) = false
  rw [consistent.ledger.faultless, present]
  rfl

theorem Consistent.exit {memory : Bool} (consistent : Consistent state) (ending : Ending state proc)
    (room : memory = true ∨ 0 < state.waitCount proc) : Consistent (state.exit proc memory) := by
  have tree := ending.orphan_tree consistent
  have calls := ending.orphan_calls consistent
  have still : Ending (state.orphan proc) proc := { ending with }
  obtain ⟨parent, running, same⟩ := tree.parents proc ending.running.1 ending.user
  have child : (state.orphan proc).IsChild proc parent := ⟨ending.running.1, ending.user, same.symm⟩
  have found : (state.orphan proc).processes ((state.orphan proc).ppid proc) = some parent :=
    (tree.table _ parent).mpr ⟨running.1, same⟩
  rw [exit_eq room found]
  refine ⟨still.terminate_tree tree (ending.orphan_childless consistent) child running
      (calls.waitCount_nonneg running child),
    still.terminate_calls calls fun _ _ _ waits => calls.waitCount_pos waits ending.running.1, ?_⟩
  have ledger := consistent.ledger
  refine { ledger with
    deleted := fun object born absent => ?_
    faultless := ending.orphan_faultless consistent }
  have different : object ≠ proc := by
    rintro rfl
    exact absurd (ending.running.1.symm.trans absent) (by decide)
  have kept : (((state.orphan proc).dead proc).terminate parent proc).zombie object =
      state.zombie object := update_of_ne different _ _
  rw [kept]
  exact ledger.deleted object born absent

end Miosix.ProcessTable
