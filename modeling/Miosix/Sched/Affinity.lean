/-
This file is about the scheduler run of the priority scheduler when threads have an affinity,
and about the other core on which such a run requests another one.

The code looks for a core in two places: among the threads it passes over on the way to the
thread it selects, and then among the threads left. It takes a thread for a core when the
priority of the thread is not below the one running there, and it drops what it found on the
way when it selects a thread. The first part gives a form of the run in which both passes go
over one list; the second part says from the state before the run exactly when the request is
the right one.
-/

import Miosix.Sched.PriorityQueues

namespace Miosix.PriorityScheduler

open Function LevelQueue List

variable {threads cores : Nat} {config : Config}

/-! ### The least priority -/

section

variable (runningPrio : Fin cores → Int) (visited : List (Fin cores)) (first : Fin cores)

theorem foldl_least_le : runningPrio (visited.foldl
      (fun best core => if runningPrio core < runningPrio best then core else best) first) ≤
        runningPrio first ∧
      ∀ core ∈ visited, runningPrio (visited.foldl
        (fun best core => if runningPrio core < runningPrio best then core else best) first) ≤
          runningPrio core := by
  induction visited generalizing first with
  | nil => exact ⟨le_rfl, by simp⟩
  | cons next visited inductionHypothesis =>
    simp only [foldl_cons]
    split
    · rename_i less
      obtain ⟨best, others⟩ := inductionHypothesis next
      exact ⟨best.trans less.le, by simpa [best] using others⟩
    · rename_i more
      obtain ⟨best, others⟩ := inductionHypothesis first
      exact ⟨best, by simpa [best.trans (not_lt.mp more)] using others⟩

theorem coreRunningMinPriorityThread_le (first core : Fin cores) :
    runningPrio (coreRunningMinPriorityThread runningPrio first) ≤ runningPrio core :=
  (foldl_least_le runningPrio _ first).2 core (mem_finRange core)

theorem least_lt_iff {priority : Int} :
    runningPrio (coreRunningMinPriorityThread runningPrio first) < priority ↔
      ∃ core, runningPrio core < priority :=
  ⟨fun less => ⟨_, less⟩, fun ⟨core, less⟩ =>
    (coreRunningMinPriorityThread_le runningPrio first core).trans_lt less⟩

end

/-! ### The two passes -/

/-- The threads that wait for a core, in the order in which the scheduler looks at them. -/
def State.line (config : Config) (state : State threads cores) : List (Fin threads) :=
  listing state.ready config.numPriorities

/-- The test of the scheduler: the thread may run on the other core, and its priority is not
below the one recorded there. -/
def Contends (config : Config) (state : State threads cores) (core : Fin cores)
    (thread : Fin threads) (other : Fin cores) : Prop :=
  state.affinity thread other = true ∧
    state.runningPrio config core other ≤ state.priority thread
  deriving Decidable

section

variable (state : State threads cores) (core : Fin cores) (thread : Fin threads) (other : Fin cores)

/-- The thread would be right to run in the place of the one that runs on the other core. -/
def Outranks : Prop :=
  state.affinity thread other = true ∧
    state.priority (state.running other) < state.priority thread
  deriving Decidable

/-- The first thread of a list that contends for a core, and the first core it contends for. -/
def FirstContender (config : Config) (state : State threads cores) (core : Fin cores)
    (line : List (Fin threads)) (thread : Fin threads) (other : Fin cores) : Prop :=
  line.find? (fun thread => decide (∃ other, Contends config state core thread other)) =
      some thread ∧
    Contends config state core thread other ∧
      ∀ earlier < other, ¬ Contends config state core thread earlier
  deriving Decidable

end

/-- The first thread that contends for a core, if any, outranks the one that runs there. -/
def FirstOutranks (config : Config) (state : State threads cores) (core : Fin cores)
    (line : List (Fin threads)) : Prop :=
  ∀ thread other, FirstContender config state core line thread other →
    other ≠ core ∧ Outranks state thread other
  deriving Decidable

/-- The first core a thread contends for. -/
def State.offer (config : Config) (state : State threads cores) (core : Fin cores)
    (thread : Fin threads) : Option (Fin cores) :=
  preemptible state (state.runningPrio config core) (state.priority thread) thread

variable {state : State threads cores} {core other : Fin cores} {thread next : Fin threads}
  {line : List (Fin threads)} {pending : Fin cores → Bool} {deserved : Fin cores → Prop}

theorem offer_eq_some_iff : state.offer config core thread = some other ↔
      Contends config state core thread other ∧
        ∀ earlier < other, ¬ Contends config state core thread earlier := by
  unfold State.offer preemptible
  rw [← Fin.find?_eq_find?_finRange, Fin.find?_eq_some_iff]
  simp [Contends]

theorem offer_eq_none_iff : state.offer config core thread = none ↔
      ¬ ∃ other, Contends config state core thread other := by
  unfold State.offer preemptible
  simp [Contends]

theorem findSome_offer_eq_some_iff : line.findSome? (state.offer config core) = some other ↔
      ∃ thread, FirstContender config state core line thread other := by
  simp only [FirstContender, List.findSome?_eq_some_iff, List.find?_eq_some_iff_append,
    offer_eq_some_iff, offer_eq_none_iff]
  constructor
  · rintro ⟨ahead, thread, behind, split, contends, passed⟩
    exact ⟨thread, ⟨by simpa using ⟨other, contends.1⟩, ahead, behind, split, by
      simpa using passed⟩, contends⟩
  · rintro ⟨thread, ⟨-, ahead, behind, split, passed⟩, contends⟩
    exact ⟨ahead, thread, behind, split, contends, by simpa using passed⟩

section

variable (config : Config) (state : State threads cores) (core : Fin cores)

/-- The first thread in line that may run on the core. -/
def State.first : Option (Fin threads) :=
  (state.line config).find? fun thread => state.affinity thread core

/-- The threads that are passed over on the way to it. -/
def State.passedOver : List (Fin threads) :=
  (state.line config).takeWhile fun thread => !state.affinity thread core

/-- The threads above the least of the recorded priorities. -/
def State.aboveLeast (line : List (Fin threads)) : List (Fin threads) :=
  line.filter fun thread =>
    decide (∃ other, state.runningPrio config core other < state.priority thread)

/-- The state once a thread is selected, before another core is invoked. -/
def State.select : State threads cores :=
  match state.first config core with
  | some next =>
      { state with
        ready := remove state.ready (state.priority next) next
        toCores := state.setRunning core next }
  | none => { state with toCores := state.setRunning core (state.idle core) }

/-- The core that is invoked. -/
def State.target : Option (Fin cores) :=
  match state.first config core with
  | some next =>
      if (state.passedOver config core).findSome? (state.offer config core) = none then
        (state.aboveLeast config core ((state.line config).erase next)).findSome?
          (state.offer config core)
      else none
  | none => (state.line config).findSome? (state.offer config core)

end

theorem Arranged.offers (arranged : Arranged state) (core : Fin cores)
    : ∀ level, ∀ thread ∈ state.ready level,
      preemptible state (state.runningPrio config core) level thread =
        state.offer config core thread := by
  intro level thread listed
  rw [State.offer, ((arranged.mem_iff level thread).mp listed).2]

/-- The line is split at the selected thread. -/
theorem first_of_split {ahead behind : List (Fin threads)}
    (split : state.line config = ahead ++ next :: behind)
    (allowed : state.affinity next core = true)
    (passed : ∀ thread ∈ ahead, state.affinity thread core = false) :
    state.first config core = some next ∧ state.passedOver config core = ahead ∧
      (state.line config).erase next = ahead ++ behind := by
  have notAhead : next ∉ ahead := by
    intro listed
    rw [passed next listed] at allowed
    cases allowed
  refine ⟨?_, ?_, ?_⟩
  · exact List.find?_eq_some_iff_append.mpr ⟨allowed, ahead, behind, split, by simpa using passed⟩
  · unfold State.passedOver
    rw [split, takeWhile_append_of_pos (by simpa using passed),
      takeWhile_cons_of_neg (by simp [allowed]), append_nil]
  · rw [split, erase_append_right _ notAhead, erase_cons_head]

/-- The second pass continues where the first one has stopped. Nobody who was passed over offers
a core, so it may as well go over everybody left. -/
theorem Arranged.searchLevels_eq (arranged : Arranged state) {level : Nat}
    {skipped rest : List (Fin threads)} (above : List (Fin threads))
    (listed : state.ready level = skipped ++ next :: rest)
    (silent : ∀ thread ∈ above, state.offer config core thread = none) (first : Fin cores) :
    Scan.searchLevels (preemptible state (state.runningPrio config core))
        (update state.ready level (skipped ++ rest))
        (state.runningPrio config core
          (coreRunningMinPriorityThread (state.runningPrio config core) first)) level =
      (state.aboveLeast config core
        (above ++ (skipped ++ rest) ++ listing state.ready level)).findSome?
          (state.offer config core) := by
  have kept : ∀ other, ∀ thread ∈ update state.ready level (skipped ++ rest) other,
      thread ∈ state.ready other := by
    intro other thread
    refine forall_update ?_ (fun other _ => ?_)
    · rw [listed]
      simp only [mem_append, mem_cons]
      tauto
    · exact id
  rw [Scan.searchLevels_eq (state.offer config core)
    (fun other thread member => arranged.offers core other thread (kept other thread member))
    (fun other thread member => ((arranged.mem_iff other thread).mp (kept other thread member)).2),
    listing, update_self, listing_update_of_le le_rfl]
  have quiet : (state.aboveLeast config core above).findSome? (state.offer config core) = none :=
    List.findSome?_eq_none_iff.mpr fun thread member => silent thread (mem_of_mem_filter member)
  simp only [State.aboveLeast, ← least_lt_iff _ first] at quiet ⊢
  simp only [append_assoc, filter_append, List.findSome?_append, quiet, Option.none_or]

theorem Arranged.dequeueWithAffinity_eq (arranged : Arranged state)
    : state.dequeueWithAffinity config core =
      (state.select config core).invoke (state.target config core) := by
  rcases Scan.scanLevels_cases (fun thread => state.affinity thread core)
      (state.offer config core) (arranged.offers core) config.numPriorities none with
    ⟨nobody, result⟩ | ⟨level, above, skipped, next, rest, split, listed, allowed, passed, result⟩
  · have first : state.first config core = none :=
      List.find?_eq_none.mpr fun thread member => by simp [nobody thread member]
    simp only [State.dequeueWithAffinity, State.select, State.target, first, result, Option.none_or]
    rfl
  · have split : state.line config =
        (above ++ skipped) ++ next :: (rest ++ listing state.ready level) := by
      simpa [State.line] using split
    obtain ⟨first, ahead, left⟩ := first_of_split split allowed passed
    have atLevel := ((arranged.mem_iff level next).mp (by simp [listed])).2
    have apart : next ∉ skipped := by
      intro member
      have refused := passed next (by simp [member])
      rw [allowed] at refused
      cases refused
    have removed : remove state.ready (state.priority next) next =
        update state.ready level (skipped ++ rest) := by
      rw [remove, atLevel, listed, erase_append_right _ apart, erase_cons_head]
    simp only [State.dequeueWithAffinity, State.select, State.target, first, ahead, result,
      Option.none_or, removed, left]
    split
    · rename_i silent
      have quiet := List.findSome?_eq_none_iff.mp silent
      rw [arranged.searchLevels_eq above listed fun thread member => quiet thread
        (by simp [member])]
      simp only [append_assoc]
    · rfl

/-! ### The state after the run -/

section

variable (config : Config) (state : State threads cores)

/-- A thread that awaits a core outranks the one that runs on this core. -/
def Outranked (other : Fin cores) : Prop :=
  ∃ thread, state.AwaitsCore thread ∧ Outranks state thread other
  deriving Decidable

/-- The threads in line that are not selected. -/
def State.left (core : Fin cores) :
    List (Fin threads) :=
  match state.first config core with
  | some next => (state.line config).erase next
  | none => state.line config

/-- A thread that is left would be right to run on another core. -/
def Deserved (core other : Fin cores) : Prop :=
  other ≠ core ∧ ∃ thread ∈ state.left config core, Outranks state thread other
  deriving Decidable

end

section

variable (vacated : Vacated config state core)
include vacated

theorem Vacated.mem_line_iff : thread ∈ state.line config ↔ state.Queued thread :=
  Keyed.mem_listing vacated.arranged vacated.bounds

theorem Vacated.select : Sound config (state.select config core) := by
  unfold State.select
  split
  · rename_i next first
    exact vacated.run (vacated.mem_line_iff.mp (mem_of_find?_eq_some first))
  · exact vacated.runIdle

theorem Vacated.queued_select :
    (state.select config core).Queued thread ↔ thread ∈ state.left config core := by
  unfold State.select State.left
  split
  · rename_i next first
    have nodup := Keyed.listing_nodup vacated.arranged config.numPriorities
    refine ((vacated.arranged.take next { state with
      ready := remove state.ready (state.priority next) next
      toCores := state.setRunning core next } rfl rfl).2 thread).trans ?_
    rw [State.line, nodup.mem_erase_iff, and_comm]
    exact and_congr_right fun _ => vacated.mem_line_iff.symm
  · exact vacated.mem_line_iff.symm

end

theorem select_affinity : (state.select config core).affinity = state.affinity := by
  unfold State.select
  split <;> rfl

theorem select_priority : (state.select config core).priority = state.priority := by
  unfold State.select
  split <;> rfl

theorem select_running_of_ne (different : other ≠ core) :
    (state.select config core).running other = state.running other := by
  unfold State.select
  split <;> exact Cores.setRunning_of_ne different

/-- Nobody who is left and may run on the own core outranks the selected thread. -/
theorem Vacated.not_outranks_select (vacated : Vacated config state core)
    (left : thread ∈ state.left config core) :
    ¬ Outranks (state.select config core) thread core := by
  unfold Outranks
  rw [select_affinity, select_priority]
  rintro ⟨allowed, less⟩
  unfold State.left at left
  cases first : state.first config core with
  | none =>
    simp only [first] at left
    exact absurd allowed (by simpa using List.find?_eq_none.mp first thread left)
  | some next =>
    simp only [first] at left
    obtain ⟨picked, ahead, behind, split, passed⟩ := List.find?_eq_some_iff_append.mp first
    rw [(first_of_split split picked (by simpa using passed)).2.2] at left
    have runs : (state.select config core).running core = next := by
      simp only [State.select, first]
      exact Cores.setRunning_self ..
    rw [runs] at less
    rcases mem_append.mp left with earlier | later
    · exact absurd allowed (by simpa using passed thread earlier)
    · have descending := Keyed.listing_descending vacated.arranged config.numPriorities
      rw [show listing state.ready config.numPriorities = _ from split] at descending
      have ordered := (pairwise_cons.mp (pairwise_append.mp descending).2.1).1
      exact absurd (ordered thread later) (not_le.mpr less)

theorem Vacated.outranked_select (vacated : Vacated config state core) :
    Outranked (state.select config core) other ↔ Deserved config state core other := by
  have awaits : ∀ thread, (state.select config core).AwaitsCore thread ↔
      thread ∈ state.left config core := fun thread =>
    (vacated.select.cores.queued_iff thread).symm.trans vacated.queued_select
  simp only [Outranked, Deserved, awaits]
  by_cases here : other = core
  · subst here
    simpa using fun thread => vacated.not_outranks_select
  · simp only [Outranks, select_affinity, select_priority, select_running_of_ne here, ne_eq,
      here, not_false_eq_true, true_and]

/-! ### The request -/

/-- The request of a run is right: if a thread that awaits a core outranks a running one, a run
is requested on such a core, and the run requests no other. -/
def RequestRight (pending : Fin cores → Bool) (core : Fin cores) (target : Option (Fin cores))
    (deserved : Fin cores → Prop) : Prop :=
  ((∃ other, deserved other) →
      ∃ other, ((other ≠ core ∧ pending other = true) ∨ target = some other) ∧ deserved other) ∧
    ∀ other, target = some other → other ≠ core ∧ deserved other

theorem requestRight_none_iff : RequestRight pending core none deserved ↔
      ((∃ other, deserved other) →
        ∃ other, other ≠ core ∧ pending other = true ∧ deserved other) := by
  simp [RequestRight, and_assoc]

theorem requestRight_some_iff : RequestRight pending core (some other) deserved ↔
      other ≠ core ∧ deserved other := by
  constructor
  · exact fun right => right.2 other rfl
  · refine fun fits => ⟨fun _ => ⟨other, .inr rfl, fits.2⟩, ?_⟩
    rintro _ ⟨⟩
    exact fits

theorem FirstContender.unique {first second : Fin cores} {rival : Fin threads}
    (one : FirstContender config state core line thread first)
    (two : FirstContender config state core line rival second) :
    thread = rival ∧ first = second := by
  obtain rfl := Option.some_inj.mp (one.1.symm.trans two.1)
  refine ⟨rfl, ?_⟩
  rcases lt_trichotomy first second with less | same | more
  · exact absurd one.2.1 (two.2.2 first less)
  · exact same
  · exact absurd two.2.1 (one.2.2 second more)

theorem Outranks.contends (outranks : Outranks state thread other) (different : other ≠ core) :
    Contends config state core thread other := by
  refine ⟨outranks.1, ?_⟩
  rw [State.runningPrio, update_of_ne different]
  exact outranks.2.le

/-- A list that is looked through for a core: it is a part of the threads left, in descending
order, and has all those that outrank a running thread. -/
structure Searched (config : Config) (state : State threads cores) (core : Fin cores)
    (line : List (Fin threads)) : Prop where
  left : ∀ thread ∈ line, thread ∈ state.left config core
  descending : line.Pairwise fun first second => state.priority second ≤ state.priority first
  covers : ∀ thread ∈ state.left config core, ∀ other, other ≠ core →
    Outranks state thread other → thread ∈ line

section

variable (searched : Searched config state core line)
include searched

/-- A run on the core found is deserved just if the first contender itself outranks the thread
that runs there: those before it do not contend, and those after it have no higher priority. -/
theorem Searched.deserved_iff
    (found : FirstContender config state core line thread other) (different : other ≠ core) :
    Deserved config state core other ↔ Outranks state thread other := by
  obtain ⟨contends, ahead, behind, split, passed⟩ := List.find?_eq_some_iff_append.mp found.1
  constructor
  · rintro ⟨-, rival, left, outranks⟩
    have listed := searched.covers rival left other different outranks
    rw [split, mem_append, mem_cons] at listed
    rcases listed with earlier | rfl | later
    · have silent := passed rival earlier
      simp only [Bool.not_eq_true', decide_eq_false_iff_not] at silent
      exact absurd ⟨other, outranks.contends different⟩ silent
    · exact outranks
    · have descending := searched.descending
      rw [split] at descending
      have ordered := (pairwise_cons.mp (pairwise_append.mp descending).2.1).1
      exact ⟨found.2.1.1, outranks.2.trans_le (ordered rival later)⟩
  · intro outranks
    exact ⟨different, thread, searched.left thread (mem_of_find?_eq_some found.1), outranks⟩

/-- If nobody contends, nobody outranks. -/
theorem Searched.not_deserved (nobody : line.findSome? (state.offer config core) = none) :
    ¬ Deserved config state core other := by
  rintro ⟨different, thread, left, outranks⟩
  have silent := List.findSome?_eq_none_iff.mp nobody thread
    (searched.covers thread left other different outranks)
  exact offer_eq_none_iff.mp silent ⟨other, outranks.contends different⟩

theorem Searched.requestRight_iff :
    RequestRight pending core (line.findSome? (state.offer config core))
        (Deserved config state core) ↔ FirstOutranks config state core line := by
  cases target : line.findSome? (state.offer config core) with
  | none =>
    rw [requestRight_none_iff]
    refine ⟨fun _ thread other found => ?_, fun _ ⟨other, deserved⟩ => ?_⟩
    · rw [findSome_offer_eq_some_iff.mpr ⟨thread, found⟩] at target
      cases target
    · exact absurd deserved (searched.not_deserved target)
  | some other =>
    obtain ⟨thread, found⟩ := findSome_offer_eq_some_iff.mp target
    rw [requestRight_some_iff]
    constructor
    · rintro ⟨different, deserved⟩ rival second rivalFound
      obtain ⟨rfl, rfl⟩ := found.unique rivalFound
      exact ⟨different, (searched.deserved_iff found different).mp deserved⟩
    · intro strict
      obtain ⟨different, outranks⟩ := strict thread other found
      exact ⟨different, (searched.deserved_iff found different).mpr outranks⟩

end

theorem Vacated.searched_line (vacated : Vacated config state core)
    (nobody : state.first config core = none) :
    Searched config state core (state.line config) where
  left := by
    intro thread listed
    simpa only [State.left, nobody] using listed
  descending := Keyed.listing_descending vacated.arranged config.numPriorities
  covers := by
    intro thread left _ _ _
    simpa only [State.left, nobody] using left

theorem Vacated.searched_aboveLeast (vacated : Vacated config state core)
    (first : state.first config core = some next) :
    Searched config state core (state.aboveLeast config core ((state.line config).erase next)) where
  left := by
    intro thread listed
    simpa only [State.left, first] using mem_of_mem_filter listed
  descending := (Keyed.listing_descending vacated.arranged config.numPriorities).sublist
    (filter_sublist.trans erase_sublist)
  covers := by
    intro thread left other different outranks
    simp only [State.left, first] at left
    refine mem_filter.mpr ⟨left, decide_eq_true ⟨other, ?_⟩⟩
    rw [State.runningPrio, update_of_ne different]
    exact outranks.2

/-- What has to hold once the previous thread is back in line. If no thread is selected, or nobody
who is passed over contends for a core, the first contender has to outrank the thread that runs
on the core it contends for. Otherwise no run is requested, so none may be missing. -/
def Decided (config : Config) (state : State threads cores) (core : Fin cores) : Prop :=
  (state.first config core = none → FirstOutranks config state core (state.line config)) ∧
  ∀ next, state.first config core = some next →
    ((∃ thread ∈ state.passedOver config core, ∃ other,
        Contends config state core thread other) →
      (∃ other, Deserved config state core other) →
        ∃ other, other ≠ core ∧ state.requested other = true ∧ Deserved config state core other) ∧
    ((¬ ∃ thread ∈ state.passedOver config core, ∃ other,
        Contends config state core thread other) →
      FirstOutranks config state core
        (state.aboveLeast config core ((state.line config).erase next)))
  deriving Decidable

theorem Vacated.requestRight_target_iff (vacated : Vacated config state core) :
    RequestRight state.requested core (state.target config core) (Deserved config state core) ↔
      Decided config state core := by
  unfold Decided State.target
  cases first : state.first config core with
  | none => simpa using (vacated.searched_line first).requestRight_iff
  | some next =>
    have silent : (state.passedOver config core).findSome? (state.offer config core) = none ↔
        ¬ ∃ thread ∈ state.passedOver config core, ∃ other,
          Contends config state core thread other := by
      simp [List.findSome?_eq_none_iff, offer_eq_none_iff]
    simp only [silent, ite_not, reduceCtorEq, false_implies, true_and, Option.some_inj, forall_eq']
    split
    · rename_i contended
      simpa [contended] using requestRight_none_iff
    · rename_i quiet
      simpa only [quiet, not_false_eq_true, false_implies, true_implies, true_and] using
        (vacated.searched_aboveLeast first).requestRight_iff

/-! ### The run -/

/-- After a run on a core: if a thread that awaits a core outranks the one running on a core it
may run on, then a run is requested on such a core; and the run requests another one only on a
core other than its own where this is so. -/
def ReschedulesRight (config : Config) (state : State threads cores) (core : Fin cores) : Prop :=
  let after := IRQrunScheduler config .smpWithAffinity state core
  let requests := (IRQrunScheduler config .smpWithAffinity
    { state with requested := fun _ => false } core).requested
  ((∃ other, Outranked after other) →
      ∃ other, after.requested other = true ∧ Outranked after other) ∧
    ∀ other, requests other = true → other ≠ core ∧ Outranked after other
  deriving Decidable

section

variable (state : State threads cores) {requested : Fin cores → Bool}

theorem requeue_withRequested :
    ({ state with requested := requested } : State threads cores).requeue core =
      { state.requeue core with requested := requested } := by
  simp only [State.requeue]
  split_ifs <;> rfl

theorem select_withRequested :
    ({ state with requested := requested } : State threads cores).select config core =
      { state.select config core with requested := requested } := by
  have same : ({ state with requested := requested } : State threads cores).first config core =
    state.first config core := rfl
  simp only [State.select, same]
  split <;> rfl

theorem outranked_invoke {found : Option (Fin cores)}
    : Outranked (state.invoke found) other ↔ Outranked state other := by
  cases found <;> exact Iff.rfl

theorem requested_invoke (found : Option (Fin cores))
    : (state.invoke found).requested other = true ↔
      state.requested other = true ∨ found = some other := by
  cases found with
  | none => simp [State.invoke]
  | some core =>
    by_cases same : other = core
    · simp [State.invoke, State.request, Cores.request, same]
    · simp [State.invoke, State.request, Cores.request, same, Ne.symm same]

end

section

variable (sound : Sound config state)
include sound

theorem Sound.runScheduler_eq
    (unpaused : state.holdingCore ≠ some core) (requested : Fin cores → Bool) :
    IRQrunScheduler config .smpWithAffinity { state with requested := requested } core =
      ({ (state.requeue core).select config core with
        requested := update requested core false } : State threads cores).invoke
          ((state.requeue core).target config core) := by
  have vacated := sound.requeue core
  simp only [IRQrunScheduler, if_neg unpaused, requeue_withRequested]
  rw [(vacated.arranged.withCores _).dequeueWithAffinity_eq, select_withRequested]
  rfl

theorem Sound.reschedulesRight_iff (unpaused : state.holdingCore ≠ some core) :
    ReschedulesRight config state core ↔
      RequestRight state.requested core ((state.requeue core).target config core)
        (Deserved config (state.requeue core) core) := by
  have vacated := sound.requeue core
  have run := sound.runScheduler_eq unpaused
  have outranked : ∀ other, Outranked (IRQrunScheduler config .smpWithAffinity state core) other ↔
        Deserved config (state.requeue core) core other := by
    intro other
    rw [show IRQrunScheduler config .smpWithAffinity state core = _ from run state.requested,
      outranked_invoke]
    exact vacated.outranked_select
  have requested : ∀ other,
      (IRQrunScheduler config .smpWithAffinity state core).requested other = true ↔
        (other ≠ core ∧ state.requested other = true) ∨
          (state.requeue core).target config core = some other := by
    intro other
    rw [show IRQrunScheduler config .smpWithAffinity state core = _ from run state.requested,
      requested_invoke]
    refine or_congr_left ?_
    by_cases same : other = core <;> simp [same]
  have requests : ∀ other, (IRQrunScheduler config .smpWithAffinity
      { state with requested := fun _ => false } core).requested other = true ↔
        (state.requeue core).target config core = some other := by
    intro other
    rw [run, requested_invoke]
    by_cases same : other = core <;> simp [same]
  simp only [ReschedulesRight, RequestRight, outranked, requested, requests]

theorem Sound.runScheduler (support : CoreSupport) (core : Fin cores) :
    Sound config (IRQrunScheduler config support state core) := by
  have started : Sound config { state with
      requested := update state.requested core false } := sound.withRequests
  simp only [IRQrunScheduler]
  split
  · exact started.withRequests
  · have vacated := started.requeue core
    cases support with
    | single => exact vacated.dequeue
    | smp => exact vacated.dequeue.reschedule _ core
    | smpWithAffinity =>
      rw [vacated.arranged.dequeueWithAffinity_eq]
      exact vacated.select.invoke _

theorem Sound.step {extraChecks : ExtraChecks} {support : CoreSupport}
    {next : State threads cores} {label : Cores.Label threads cores}
    (stepped : exec config extraChecks support state label = some next) : Sound config next := by
  cases label with
  | add thread priority affinity waiting =>
    obtain ⟨⟨unallocated, notIdle, valued⟩, rfl⟩ := of_guard stepped
    exact sound.add unallocated notIdle valued affinity waiting
  | setPriority thread newPriority =>
    obtain ⟨⟨live, valued, -⟩, rfl⟩ := of_guard stepped
    exact sound.setPriority live valued
  | unblock thread unblocking =>
    obtain ⟨live, rfl⟩ := of_guard stepped
    exact sound.unblock live unblocking
  | runScheduler core =>
    obtain ⟨⟩ := stepped
    exact sound.runScheduler support core
  | block | detach | pauseKernel | restartKernel | removeDeadThread =>
    obtain ⟨shared, taken, rfl⟩ := Option.map_eq_some_iff.mp stepped
    exact sound.stepCores _ taken

end

/-- A run with the kernel paused on the core is put off until the kernel is restarted. Any other
run reschedules right just if, with the previous thread back in line, the request is decided by
a thread that outranks the running one. -/
theorem reschedules_right_iff (config : Config) (state : State threads cores) (core : Fin cores)
    (sound : Sound config state) :
    (state.holdingCore = some core →
      IRQrunScheduler config .smpWithAffinity state core = { state with
        requested := update state.requested core false
        pendingWakeup := true }) ∧
    (state.holdingCore ≠ some core →
      (ReschedulesRight config state core ↔ Decided config (state.requeue core) core)) := by
  refine ⟨fun paused => by simp only [IRQrunScheduler, if_pos paused], fun unpaused => ?_⟩
  have same : (state.requeue core).requested = state.requested := by
    rw [show state.requeue core = _ from requeue_withRequested state]
  rw [sound.reschedulesRight_iff unpaused, ← same]
  exact (sound.requeue core).requestRight_target_iff

/-- Three cores: thread 3 runs on core 2, thread 5 on core 1 and thread 6 on core 0, with the
priorities 3, 0 and 1. Threads 0, 1 and 2 are the idle ones. -/
def threeCores : State 8 3 :=
  let run := IRQrunScheduler defaultConfig .smpWithAffinity
  let idle := State.initial fun core : Fin 3 => (⟨core, by omega⟩ : Fin 8)
  let high := run (idle.addNew 3 3 (fun core => core = 2) false) 2
  let low := run (high.addNew 5 0 (fun core => core = 1) false) 1
  run (low.addNew 6 1 (fun core => core ≠ 2) false) 0

theorem threeCores_sound : Sound defaultConfig threeCores := by
  unfold threeCores
  refine Sound.runScheduler (Sound.add ?_ (by decide) (by decide) (by decide) _ _) _ _
  refine Sound.runScheduler (Sound.add ?_ (by decide) (by decide) (by decide) _ _) _ _
  refine Sound.runScheduler (Sound.add ?_ (by decide) (by decide) (by decide) _ _) _ _
  exact initial_sound _

/-- Thread 7, of priority 2, preempts thread 6, which in turn outranks thread 5 on core 1. -/
theorem preempted_thread_moves_on :
    ReschedulesRight defaultConfig (threeCores.addNew 7 2 (fun core => core = 0) false) 0 :=
  ((reschedules_right_iff defaultConfig _ 0 (threeCores_sound.add (by decide) (by decide)
    (by decide) (fun core => core = 0) false)).2 (by decide)).mpr (by decide)

/-- The same, while thread 4 waits for core 2 behind thread 3, of the same priority. It is passed
over and taken for a reason to run the scheduler on core 2. That run is not requested, and
neither is the one on core 1 for thread 6. -/
theorem request_is_dropped : ∃ state : State 8 3, Sound defaultConfig state ∧
    state.holdingCore = none ∧ (∀ core, state.requested core = false) ∧
      (∀ core, (IRQrunScheduler defaultConfig .smpWithAffinity state 0).requested core = false) ∧
        ¬ ReschedulesRight defaultConfig state 0 := by
  refine ⟨(threeCores.addNew 4 3 (fun core => core = 2) false).addNew 7 2 (fun core => core = 0)
    false, Sound.add (Sound.add threeCores_sound ?_ ?_ ?_ _ _) ?_ ?_ ?_ _ _, ?_⟩
  all_goals decide

end Miosix.PriorityScheduler
