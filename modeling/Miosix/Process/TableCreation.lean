/-
This file shows that `create` keeps the process table consistent. The new object is in no list and
has no waiters before it is inserted, and when its thread could not be created it is still alive,
so that it is only in the list of living children of its parent.
-/

import Miosix.Process.TableInvariant

namespace Miosix.ProcessTable

open Function

variable {threads : Nat} {state : State threads} {self proc : Object} {thread : Fin threads}
  {object : Object}

/-! ### New processes -/

theorem getNewPid_spec {processes : Int → Option Object} {fuel : Nat} {counter : Int}
    {found : Int × Int} (result : getNewPid processes fuel counter = some found) :
    0 < found.1 ∧ processes found.1 = none := by
  induction fuel generalizing counter with
  | zero => nomatch result
  | succ fuel inductionHypothesis =>
    rw [getNewPid] at result
    split at result
    · exact inductionHypothesis result
    · rename_i free
      cases result
      refine ⟨?_, free⟩
      split <;> omega

section

variable {pid counter : Int} (consistent : Consistent state) (running : state.Running self)
  (positive : 0 < pid) (free : state.processes pid = none) {parent : Object}

/-- What `insert` does to the processes, apart from the activity of the thread. -/
def State.inserted (state : State threads) (parent : Object) (pid pidCounter : Int) :
    State threads :=
  { state with
    allocated := update state.allocated state.objects true
    pid := update state.pid state.objects pid
    ppid := update state.ppid state.objects (state.pid parent)
    childs := update
      (update state.childs state.objects []) parent
      (state.childs parent ++ [state.objects])
    zombies := update state.zombies state.objects []
    zombie := update state.zombie state.objects false
    waitCount := update state.waitCount state.objects 0
    started := update state.started state.objects false
    processes := update state.processes pid (some state.objects)
    pidCounter := pidCounter
    objects := state.objects + 1 }

include consistent in
theorem ne_objects (allocated : state.allocated object = true) : object ≠ state.objects :=
  Nat.ne_of_lt (consistent.tree.allocated_lt object allocated)

/-- The fields of an object that are not changed. -/
structure Unchanged (before after : State threads) (object : Object) : Prop where
  pid_eq : after.pid object = before.pid object
  ppid_eq : after.ppid object = before.ppid object
  zombie_eq : after.zombie object = before.zombie object
  waitCount_eq : after.waitCount object = before.waitCount object
  started_eq : after.started object = before.started object
  zombies_eq : after.zombies object = before.zombies object

include consistent in
theorem inserted_unchanged (allocated : state.allocated object = true) :
    Unchanged state (state.inserted self pid counter) object := by
  have old := ne_objects consistent allocated
  exact ⟨update_of_ne old _ _, update_of_ne old _ _,
    update_of_ne old _ _, update_of_ne old _ _, update_of_ne old _ _,
    update_of_ne old _ _⟩

theorem inserted_allocated : (state.inserted self pid counter).allocated object = true ↔
      object = state.objects ∨ state.allocated object = true := by
  by_cases new : object = state.objects
  · subst new
    exact iff_of_true (update_self _ _ _) (.inl rfl)
  · have unchanged : (state.inserted self pid counter).allocated object = state.allocated object :=
      update_of_ne new _ _
    rw [unchanged, or_iff_right new]

include consistent free in
theorem pid_ne (allocated : state.allocated object = true) : state.pid object ≠ pid := by
  intro same
  have listed := (consistent.tree.table pid object).mpr ⟨allocated, same⟩
  rw [free] at listed
  nomatch listed

include consistent free in
theorem ppid_ne (allocated : state.allocated object = true)
    (user : object ≠ kernel) : state.ppid object ≠ pid := by
  obtain ⟨parent, running, same⟩ := consistent.tree.parents object allocated user
  exact same ▸ pid_ne consistent free running.1

include consistent in
theorem inserted_running (running : state.Running object) :
    (state.inserted self pid counter).Running object := by
  have old : Unchanged state (state.inserted self pid counter) object :=
    inserted_unchanged consistent running.1
  exact ⟨inserted_allocated.mpr (.inr running.1), old.started_eq.trans running.2.1,
    old.zombie_eq.trans running.2.2⟩

include consistent running in
theorem inserted_isChild (allocated : state.allocated parent = true) :
    (state.inserted self pid counter).IsChild object parent ↔
      object = state.objects ∧ parent = self ∨ state.IsChild object parent := by
  have parentOld := ne_objects consistent allocated
  have parentPid : (state.inserted self pid counter).pid parent = state.pid parent :=
    update_of_ne parentOld _ _
  unfold State.IsChild
  rw [inserted_allocated, parentPid]
  by_cases new : object = state.objects
  · subst new
    have ppid : (state.inserted self pid counter).ppid state.objects = state.pid self :=
      update_self _ _ _
    rw [ppid]
    constructor
    · rintro ⟨-, -, same⟩
      exact .inl ⟨rfl, (consistent.tree.pid_injective running.1 allocated same).symm⟩
    · rintro (⟨-, rfl⟩ | ⟨present, -⟩)
      · exact ⟨.inl rfl, (ne_objects consistent consistent.tree.kernel_runs.1).symm, rfl⟩
      · exact absurd rfl (ne_objects consistent present)
  · have ppid : (state.inserted self pid counter).ppid object = state.ppid object :=
      update_of_ne new _ _
    rw [ppid, or_iff_right new, or_iff_right fun both => new both.1]

include consistent running free in
/-- The new process has no children. -/
theorem inserted_childless : ¬ (state.inserted self pid counter).IsChild object state.objects := by
  have own : (state.inserted self pid counter).pid state.objects = pid := update_self _ _ _
  rintro ⟨allocated, user, same⟩
  rw [own] at same
  by_cases new : object = state.objects
  · subst new
    exact pid_ne consistent free running.1 ((update_self _ _ _).symm.trans same)
  · have present := (inserted_allocated.mp allocated).resolve_left new
    exact ppid_ne consistent free present user ((update_of_ne new _ _).symm.trans same)

theorem inserted_childs_self : (state.inserted parent pid counter).childs parent =
    state.childs parent ++ [state.objects] := update_self _ _ _

include consistent in
theorem inserted_childs_of_ne (allocated : state.allocated parent = true) (here : parent ≠ self) :
    (state.inserted self pid counter).childs parent = state.childs parent :=
  (update_of_ne here _ _).trans (update_of_ne (ne_objects consistent allocated) _ _)

include consistent running in
theorem inserted_mem_childs (allocated : state.allocated parent = true) :
    object ∈ (state.inserted self pid counter).childs parent ↔
      object = state.objects ∧ parent = self ∨ object ∈ state.childs parent := by
  by_cases here : parent = self
  · subst here
    rw [inserted_childs_self, List.mem_append, List.mem_singleton, or_comm, and_iff_left rfl]
  · rw [inserted_childs_of_ne consistent allocated here, or_iff_right fun both => here both.2]

include consistent running in
theorem inserted_childs_new : (state.inserted self pid counter).childs state.objects = [] :=
  (update_of_ne (ne_objects consistent running.1).symm _ _).trans (update_self _ _ _)

include consistent running positive free in
theorem Tree.inserted : Tree (fun _ => False) (state.inserted self pid counter) := by
  have tree := consistent.tree
  have newZombie : (state.inserted self pid counter).zombie state.objects = false :=
    update_self _ _ _
  have newZombies : (state.inserted self pid counter).zombies state.objects = [] :=
    update_self _ _ _
  have old {object : Object} (allocated : state.allocated object = true) :
      Unchanged state (state.inserted self pid counter) object :=
    inserted_unchanged consistent allocated
  have newPid : (state.inserted self pid counter).pid state.objects = pid := update_self _ _ _
  have newPpid : (state.inserted self pid counter).ppid state.objects = state.pid self :=
    update_self _ _ _
  refine ⟨inserted_running consistent tree.kernel_runs, (old tree.kernel_runs.1).pid_eq.trans
    tree.kernel_pid, fun object allocated => ?_, fun other object => ?_,
    fun object allocated user => ?_, fun object allocated user => ?_, fun parent allocated => ?_,
    fun parent allocated => ?_, fun parent object allocated => ?_,
    fun parent object allocated _ => ?_, fun parent object allocated listed => ?_⟩
  · rcases inserted_allocated.mp allocated with rfl | present
    · exact Nat.lt_succ_self _
    · exact Nat.lt_succ_of_lt (tree.allocated_lt object present)
  · rw [inserted_allocated]
    by_cases here : other = pid
    · subst here
      have found : (state.inserted self other counter).processes other = some state.objects :=
        update_self _ _ _
      rw [found, Option.some.injEq]
      constructor
      · rintro rfl
        exact ⟨.inl rfl, newPid⟩
      · rintro ⟨rfl | present, same⟩
        · rfl
        · rw [(old present).pid_eq] at same
          exact absurd same (pid_ne consistent free present)
    · have unchanged : (state.inserted self pid counter).processes other =
          state.processes other := update_of_ne here _ _
      rw [unchanged, tree.table]
      constructor
      · rintro ⟨present, same⟩
        exact ⟨.inr present, (old present).pid_eq.trans same⟩
      · rintro ⟨rfl | present, same⟩
        · exact absurd (newPid.symm.trans same) (Ne.symm here)
        · exact ⟨present, (old present).pid_eq.symm.trans same⟩
  · rcases inserted_allocated.mp allocated with rfl | present
    · rw [newPid]
      exact positive
    · rw [(old present).pid_eq]
      exact tree.positive object present user
  · rcases inserted_allocated.mp allocated with rfl | present
    · exact ⟨self, inserted_running consistent running, (old running.1).pid_eq.trans newPpid.symm⟩
    · obtain ⟨parent, runs, same⟩ := tree.parents object present user
      refine ⟨parent, inserted_running consistent runs, ?_⟩
      rw [(old runs.1).pid_eq, same]
      exact (old present).ppid_eq.symm
  · rcases inserted_allocated.mp allocated with rfl | present
    · rw [inserted_childs_new consistent running]
      exact List.nodup_nil
    · by_cases here : parent = self
      · subst here
        rw [inserted_childs_self, List.nodup_append_comm, List.singleton_append, List.nodup_cons]
        refine ⟨fun listed => ?_, tree.childs_nodup parent present⟩
        exact ne_objects consistent ((tree.mem_childs parent _ present).mp listed).1.allocated rfl
      · rw [inserted_childs_of_ne consistent present here]
        exact tree.childs_nodup parent present
  · rcases inserted_allocated.mp allocated with rfl | present
    · rw [newZombies]
      exact List.nodup_nil
    · rw [(old present).zombies_eq]
      exact tree.zombies_nodup parent present
  · rcases inserted_allocated.mp allocated with rfl | present
    · rw [inserted_childs_new consistent running]
      exact iff_of_false List.not_mem_nil fun both =>
        inserted_childless consistent running free both.1
    · rw [inserted_mem_childs consistent running present,
        inserted_isChild consistent running present, tree.mem_childs parent object present]
      constructor
      · rintro (⟨rfl, rfl⟩ | ⟨child, alive⟩)
        · exact ⟨.inl ⟨rfl, rfl⟩, newZombie⟩
        · exact ⟨.inr child, (old child.allocated).zombie_eq.trans alive⟩
      · rintro ⟨⟨rfl, rfl⟩ | child, alive⟩
        · exact .inl ⟨rfl, rfl⟩
        · exact .inr ⟨child, (old child.allocated).zombie_eq.symm.trans alive⟩
  · rcases inserted_allocated.mp allocated with rfl | present
    · rw [newZombies]
      exact iff_of_false List.not_mem_nil fun both =>
        inserted_childless consistent running free both.1
    · rw [(old present).zombies_eq, inserted_isChild consistent running present,
        tree.mem_zombies parent object present id]
      constructor
      · rintro ⟨child, dead, unreferenced⟩
        exact ⟨.inr child, (old child.allocated).zombie_eq.trans dead,
          (old child.allocated).waitCount_eq.trans unreferenced⟩
      · rintro ⟨⟨rfl, rfl⟩ | child, dead, unreferenced⟩
        · exact absurd (newZombie.symm.trans dead) (by decide)
        · exact ⟨child, (old child.allocated).zombie_eq.symm.trans dead,
            (old child.allocated).waitCount_eq.symm.trans unreferenced⟩
  · rcases inserted_allocated.mp allocated with rfl | present
    · rw [newZombies] at listed
      nomatch listed
    · rw [(old present).zombies_eq] at listed
      exact (inserted_isChild consistent running present).mpr
        (.inr (tree.isChild_of_zombies parent object present listed))

include consistent running free in
theorem Calls.inserted : Calls (state.inserted self pid counter) := by
  have calls := consistent.calls
  have old {object : Object} (allocated : state.allocated object = true) :
      Unchanged state (state.inserted self pid counter) object :=
    inserted_unchanged consistent allocated
  refine ⟨fun object thread => ?_, fun object parent child allocated => ?_, calls.creating_unique⟩
  · exact (calls.fits object thread).transfer (inserted_running consistent) (Nat.le_succ _)
      (fun _ _ parent child _ => ⟨(inserted_isChild consistent running parent).mpr (.inr child),
        (old child.allocated).zombie_eq⟩)
      (fun _ early present => (inserted_allocated.mp present).resolve_left (Nat.ne_of_lt early))
      (fun _ _ known => ⟨inserted_allocated.mpr (.inr known), (old known).started_eq⟩)
      (fun _ _ known => inserted_allocated.mpr (.inr known))
  · rcases inserted_allocated.mp allocated with rfl | present
    · exact absurd child (inserted_childless consistent running free)
    · rcases (inserted_isChild consistent running present).mp child with ⟨rfl, rfl⟩ | known
      · have none : state.waiters parent state.objects = ∅ := by
          refine waiters_eq_empty fun thread woken waits => ?_
          exact absurd (calls.fits_of waits).2.1 (lt_irrefl _)
        have same : (state.inserted parent pid counter).waiters parent state.objects = ∅ := none
        rw [same]
        exact update_self _ _ _
      · exact (old known.allocated).waitCount_eq.trans (calls.counted object parent known present)

include consistent in
theorem Ledger.inserted : Ledger (state.inserted self pid counter) := by
  have ledger := consistent.ledger
  refine ⟨fun object allocated => ?_, fun object late => ?_, fun object early absent => ?_,
    ledger.faultless⟩
  · rcases inserted_allocated.mp allocated with rfl | present
    · exact ledger.unborn state.objects le_rfl
    · exact ledger.allocated object present
  · exact ledger.unborn object (Nat.le_of_succ_le late)
  · have old : object ≠ state.objects := by
      rintro rfl
      have present : (state.inserted self pid counter).allocated state.objects = true :=
        update_self _ _ _
      exact absurd (present.symm.trans absent) (by decide)
    have zombie : (state.inserted self pid counter).zombie object = state.zombie object :=
      update_of_ne old _ _
    have allocated : (state.inserted self pid counter).allocated object =
        state.allocated object := update_of_ne old _ _
    rw [zombie]
    exact ledger.deleted object (lt_of_le_of_ne (Nat.le_of_lt_succ early) old)
      (allocated.symm.trans absent)

include consistent running positive free in
theorem Consistent.insert (outside : state.activity self thread = .outside) :
    Consistent (state.insert self thread pid counter) := by
  have tree : Tree (fun _ => False) (state.inserted self pid counter) :=
    Tree.inserted consistent running positive free
  have calls : Calls (state.inserted self pid counter) := Calls.inserted consistent running free
  have ledger : Ledger (state.inserted self pid counter) := Ledger.inserted consistent
  refine ⟨tree.setActivity _, calls.setActivity (fun object => ?_) ?_ ?_, ledger.setActivity _⟩
  · show false = Activity.waitsFor object (state.activity self thread)
    rw [outside]
    rfl
  · exact ⟨inserted_running consistent running,
      (inserted_isChild consistent running running.1).mpr (.inl ⟨rfl, rfl⟩),
      update_self _ _ _, update_self _ _ _⟩
  · rintro proc other same - creates
    cases same
    exact ne_objects consistent (consistent.calls.child_of_creates creates).2.allocated rfl

end

/-! ### The end of a creation -/

/-- Only one thread creates a process. -/
theorem Consistent.creates_unique {other : Fin threads} (consistent : Consistent state)
    (creates : (state.activity self thread).creates = some proc)
    (also : (state.activity object other).creates = some proc) :
    object = self ∧ other = thread := by
  obtain ⟨running, child⟩ := consistent.calls.child_of_creates creates
  obtain ⟨otherRunning, otherChild⟩ := consistent.calls.child_of_creates also
  obtain rfl := consistent.tree.parent_unique otherRunning.1 running.1 otherChild child
  exact ⟨rfl, consistent.calls.creating_unique object other thread proc also creates⟩

theorem running_of_started (running : state.Running object) :
    State.Running { state with started := update state.started proc true } object := by
  refine ⟨running.1, ?_, running.2.2⟩
  by_cases same : object = proc
  · subst same
    exact update_self _ _ _
  · exact (update_of_ne same _ _).trans running.2.1

section

variable (consistent : Consistent state) (creates : state.activity self thread = .creating proc)

include consistent creates

theorem Consistent.start : Consistent (state.start self thread proc) := by
  have known : (state.activity self thread).creates = some proc := by rw [creates]; rfl
  obtain ⟨running, child⟩ := consistent.calls.child_of_creates known
  have tree := consistent.tree
  have calls := consistent.calls
  refine ⟨?_, ⟨fun object other => ?_, fun object parent other allocated => ?_,
    calls.creating_setActivity ?_⟩, { consistent.ledger with }⟩
  · refine { tree with
      kernel_runs := running_of_started tree.kernel_runs
      parents := fun object allocated user => ?_ }
    obtain ⟨parent, running, same⟩ := tree.parents object allocated user
    exact ⟨parent, running_of_started running, same⟩
  · by_cases here : object = self ∧ other = thread
    · obtain ⟨rfl, rfl⟩ := here
      rw [State.start, activity_self]
      exact ⟨running_of_started running, child⟩
    · rw [State.start, activity_other here]
      refine (calls.fits object other).transfer running_of_started le_rfl
        (fun _ _ _ child _ => ⟨child, rfl⟩) (fun _ _ => id)
        (fun created creating allocated => ⟨allocated, update_of_ne ?_ _ _⟩) (fun _ _ => id)
      rintro rfl
      exact here (consistent.creates_unique known (by rw [creating]; rfl))
  · have same : (state.start self thread proc).waiters parent object =
        state.waiters parent object := waiters_setActivity (by rw [creates]; rfl)
    rw [same]
    exact calls.counted object parent other allocated
  · rintro _ other ⟨⟩ different also
    exact different (consistent.creates_unique known also).2

theorem Consistent.abandon : Consistent (state.abandon self thread proc) := by
  have left : Consistent (state.setActivity self thread .outside) :=
    consistent.outside fun object => by rw [creates]; rfl
  have known : (state.activity self thread).creates = some proc := by rw [creates]; rfl
  have uncreated {object : Object} {other : Fin threads} {activity : Activity}
      (found : (state.setActivity self thread .outside).activity object other = activity)
      (also : activity.creates = some proc) : False := by
    have before := activity_of_outside found (by rintro rfl; nomatch also)
    obtain ⟨rfl, rfl⟩ := consistent.creates_unique known (by rw [before]; exact also)
    rw [activity_self] at found
    subst found
    nomatch also
  obtain ⟨running, child, unstarted, alive⟩ := consistent.calls.fits_of creates
  have tree := consistent.tree
  have removes : Removes (state.setActivity self thread .outside)
      (state.abandon self thread proc) proc := by
    refine ⟨fun _ => update_false_iff, rfl, rfl, rfl, rfl, rfl, rfl, rfl, rfl,
      fun parent object allocated => mem_update_filter fun elsewhere listed => elsewhere ?_,
      fun parent object allocated => ?_, update_filter_sublist,
      fun _ => List.Sublist.refl _⟩
    · exact tree.parent_unique allocated running.1
        ((tree.mem_childs parent proc allocated).mp listed).1 child
    · refine ⟨fun listed => ⟨listed, ?_⟩, fun both => both.1⟩
      rintro rfl
      exact absurd (((tree.mem_zombies parent object allocated id).mp listed).2.1.symm.trans alive)
        (by decide)
  have idle : ¬ (state.setActivity self thread .outside).Running proc := fun runs =>
    absurd (runs.2.1.symm.trans unstarted) (by decide)
  refine ⟨left.tree.weaken.without removes child.allocated child.user idle,
    left.calls.without removes idle (fun _ _ found => uncreated found rfl)
      (fun object other waits => ?_) (fun _ _ found => uncreated found rfl), ?_⟩
  · have woken := ((left.calls.fits_of waits).2.2.1 child.allocated).2
    exact absurd (woken.symm.trans alive) (by decide)
  · have unreturned : (state.abandon self thread proc).returned =
        update state.returned proc (state.returned proc + 0) :=
      (update_eq_self proc state.returned).symm
    refine left.ledger.without removes left.tree child.allocated rfl unreturned (if_neg ?_).symm ?_
    · rw [show (state.setActivity self thread .outside).zombie proc = false from alive]
      exact Bool.false_ne_true
    · show (state.fault || !state.allocated proc) = false
      rw [consistent.ledger.faultless, child.allocated]
      rfl

end

theorem Consistent.announce (consistent : Consistent state)
    (announces : state.activity self thread = .announcing proc) :
    Consistent (state.announce self thread proc) := by
  have left : Consistent (state.setActivity self thread .outside) :=
    consistent.outside fun object => by rw [announces]; rfl
  have ledger := left.ledger
  refine ⟨{ left.tree with }, { left.calls with }, { ledger with faultless := ?_ }⟩
  show (state.fault || !state.allocated proc) = false
  rw [consistent.ledger.faultless, (consistent.calls.fits_of announces).2.allocated]
  rfl

end Miosix.ProcessTable
