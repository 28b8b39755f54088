/-
This file embeds `intrusive_ref_ptr` of `intrusive.h`. A pointer that is not alive is one that
refers to nothing. A pointer may be a member of an object, and it is destroyed when the object is
deleted. The functions of the library that take or return pointers by value are sequences of the
operations below: `atomic_store` copies its argument, exchanges it and destroys the copy and the
result, and a cast constructs a pointer from a raw one.

An assignment deletes the old object before it looks at the right-hand side. So it goes wrong if
only the old object keeps the new one, or if the right-hand side is inside of it.
-/

import Miosix.Lib.Transition

namespace Miosix.IntrusiveRefPtr

open Function Transition Finset

/-- What a pointer is assigned: what a raw pointer refers to, or what another pointer does. -/
inductive Source (pointers : Nat) where
  | raw (held : Option Nat)
  | pointer (other : Fin pointers)

/-- The pointers that are `dying` have yet to be destroyed, and then the `pending` assignment is
finished. A fault is an access to a member of a deleted object. -/
structure State (pointers : Nat) where
  object : Fin pointers → Option Nat
  referenceCount : Nat → Int
  /-- The objects that a pointer has referred to. -/
  managed : Nat → Bool
  deletions : Nat → Nat
  dying : List (Fin pointers)
  pending : Option (Fin pointers × Source pointers)
  fault : Bool

variable {pointers : Nat}

/-- Nothing refers to an object. -/
def initial : State pointers :=
  ⟨fun _ => none, fun _ => 0, fun _ => false, fun _ => 0, [], none, false⟩

inductive Label (pointers : Nat) where
  | construct (pointer : Fin pointers) (held : Option Nat)
  | copy (pointer other : Fin pointers)
  | assign (pointer other : Fin pointers)
  | assignRaw (pointer : Fin pointers) (held : Option Nat)
  | swap (pointer other : Fin pointers)
  | reset (pointer : Fin pointers)
  | load (result pointer : Fin pointers)
  | exchange (result pointer other : Fin pointers)
  | destruct (pointer : Fin pointers)
  /-- An operation that has deleted an object goes on. -/
  | proceed

/-- The pointers that an operation is about. -/
def Label.named : Label pointers → List (Fin pointers)
  | .construct pointer _ | .assignRaw pointer _ | .reset pointer | .destruct pointer => [pointer]
  | .copy pointer other | .assign pointer other | .swap pointer other | .load pointer other =>
      [pointer, other]
  | .exchange result pointer other => [result, pointer, other]
  | .proceed => []

/-- The pointer of a right-hand side. -/
def Source.named : Source pointers → List (Fin pointers)
  | .raw _ => []
  | .pointer other => [other]

def Source.value (state : State pointers) : Source pointers → Option Nat
  | .raw held => held
  | .pointer other => state.object other

section

variable (home : Fin pointers → Option Nat) (state : State pointers)

/-- The object that the pointer is a member of, if it is one, has not been deleted. -/
def intact (pointer : Fin pointers) : Bool := (home pointer).all (state.deletions · = 0)

section

variable (pointer : Fin pointers)

/-- The pointer is set, and `incrementRefCount` is called. -/
def adopt (held : Option Nat) : State pointers := { state with
  object := update state.object pointer held
  referenceCount := fun object =>
    state.referenceCount object + if held = some object then 1 else 0
  managed := fun object => state.managed object || held == some object }

/-- The object is deleted if `decrementRefCount` says so, and the pointers that are its members are
then destroyed. The old value of the pointer, which is overwritten later, counts no more. -/
def release : State pointers := { state with
  object := update state.object pointer none
  referenceCount := fun object =>
    state.referenceCount object - if state.object pointer = some object then 1 else 0
  deletions := fun object => state.deletions object +
    if state.object pointer = some object ∧ state.referenceCount object = 1 then 1 else 0
  dying := ((state.object pointer).toList.filter (state.referenceCount · = 1)).flatMap
    (fun object => (List.finRange pointers).filter (home · = some object)) ++ state.dying }

/-- The begin of an assignment. -/
def replace (source : Source pointers) : State pointers :=
  { release home state pointer with pending := some (pointer, source) }

/-- The end of an assignment. The right-hand side is read only now. -/
def store (source : Source pointers) : State pointers :=
  { adopt state pointer (source.value state) with
    pending := none
    fault := state.fault || !(pointer :: source.named).all (intact home state) }

end

/-- An operation. A raw pointer is given only to an object that exists. -/
def operate : Label pointers → Option (State pointers)
  | .construct pointer held =>
      if state.object pointer = none ∧ held.all (state.deletions · = 0) then
        some (adopt state pointer held)
      else none
  | .copy pointer other | .load pointer other =>
      if state.object pointer = none then some (adopt state pointer (state.object other)) else none
  | .assign pointer other => some <|
      if state.object pointer = state.object other then state
      else replace home state pointer (.pointer other)
  | .assignRaw pointer held =>
      if held.all (state.deletions · = 0) then some (replace home state pointer (.raw held))
      else none
  | .swap pointer other => some { state with
      object := update (update state.object pointer (state.object other)) other
        (state.object pointer) }
  | .reset pointer | .destruct pointer => some (replace home state pointer (.raw none))
  | .exchange result pointer other =>
      if state.object result = none ∧ result ≠ pointer then
        let stored := adopt state pointer (state.object other)
        some { stored with object := update stored.object result (state.object pointer) }
      else none
  | .proceed => none

/-- A step: the destructor of a member of a deleted object, the end of an assignment, or else the
next operation, on pointers that exist. -/
def exec (label : Label pointers) : Option (State pointers) :=
  match label, state.dying, state.pending with
  | .proceed, member :: rest, _ => some (release home { state with dying := rest } member)
  | .proceed, [], some (pointer, source) => some (store home state pointer source)
  | label, [], none =>
      if label.named.all (intact home state) then operate home state label else none
  | _, _, _ => none

/-- The number of pointers that refer to an object. -/
def references (held : Fin pointers → Option Nat) (object : Nat) : Nat :=
  (Finset.univ.filter fun pointer => held pointer = some object).card

/-- The count is the number of pointers, and the object is deleted when it gets back to zero. -/
def Right (object : Nat) : Prop :=
  state.referenceCount object = references state.object object ∧
  (references state.object object ≠ 0 → state.managed object = true) ∧
  state.deletions object =
    if state.managed object = true ∧ references state.object object = 0 then 1 else 0

/-- Another pointer, which is no member of an object, refers to the object. -/
def Rooted (pointer : Fin pointers) (object : Nat) : Prop :=
  ∃ root, root ≠ pointer ∧ home root = none ∧ state.object root = some object

/-- The objects that the pointer and the right-hand side are members of are kept by another pointer,
and so is one that is assigned by a raw pointer, unless no pointer has referred to it yet. -/
def Kept (pointer : Fin pointers) (source : Source pointers) : Prop :=
  (∀ needed ∈ pointer :: source.named, ∀ object, home needed = some object →
    Rooted home state pointer object) ∧
  ∀ object, source = .raw (some object) →
    state.managed object = false ∧ state.deletions object = 0 ∨ Rooted home state pointer object

/-- What an assignment needs when it has deleted the old object is kept. -/
def Allowed : Label pointers → Prop
  | .assign pointer other =>
      state.object pointer ≠ state.object other → Kept home state pointer (.pointer other)
  | .assignRaw pointer held => Kept home state pointer (.raw held)
  | .reset pointer | .destruct pointer => Kept home state pointer (.raw none)
  | _ => True

end

/-! ### Counting -/

variable {home : Fin pointers → Option Nat} {state next : State pointers}
  {pointer : Fin pointers} {held : Option Nat} {object : Nat}

theorem references_update (old : Fin pointers → Option Nat) (object : Nat) :
    references (update old pointer held) object + (if old pointer = some object then 1 else 0) =
      references old object + if held = some object then 1 else 0 := by
  have elsewhere : ∑ other ∈ Finset.univ.erase pointer,
      (if update old pointer held other = some object then 1 else 0) =
        ∑ other ∈ Finset.univ.erase pointer, if old other = some object then 1 else 0 :=
    sum_congr rfl fun other listed => by
      rw [update_of_ne (ne_of_mem_erase listed)]
  simp only [references, card_filter]
  rw [← add_sum_erase _ _ (mem_univ pointer), update_self, elsewhere,
    ← add_sum_erase Finset.univ (fun other => if old other = some object then 1 else 0)
      (mem_univ pointer)]
  omega

theorem references_ne_zero (refers : state.object pointer = some object) :
    references state.object object ≠ 0 :=
  card_ne_zero_of_mem (mem_filter.mpr ⟨mem_univ pointer, refers⟩)

section

variable (right : ∀ object, Right state object)
include right

theorem usable_of_right (refers : state.object pointer = some object) :
    state.deletions object = 0 := by
  rw [(right object).2.2, if_neg fun both => references_ne_zero refers both.2]

theorem adopted_right (empty : state.object pointer = none)
    (usable : ∀ object, held = some object → state.deletions object = 0) (object : Nat) :
    Right (adopt state pointer held) object := by
  obtain ⟨counted, managed, deleted⟩ := right object
  have here := @references_update _ pointer held state.object object
  have fresh := usable object
  rw [empty] at here
  simp only [Right, adopt]
  split_ifs at here ⊢ <;> grind

theorem released_right (object : Nat) : Right (release home state pointer) object := by
  obtain ⟨counted, managed, deleted⟩ := right object
  have referred := @references_ne_zero _ state pointer object
  have here := @references_update _ pointer none state.object object
  simp only [Right, release]
  split_ifs at here ⊢ <;> grind

theorem swapped_right (other : Fin pointers) (object : Nat) : Right { state with
    object := update (update state.object pointer (state.object other)) other
      (state.object pointer) } object := by
  have same : references (update (update state.object pointer (state.object other))
      other (state.object pointer)) object = references state.object object := by
    have first := @references_update _ pointer (state.object other) state.object object
    have second := @references_update _ other (state.object pointer)
      (update state.object pointer (state.object other)) object
    by_cases equal : other = pointer
    · subst equal
      simp
    · rw [update_of_ne equal] at second
      omega
  unfold Right
  rw [same]
  exact right object

/-- What a pointer outside of the objects refers to does not die with a member of one. -/
theorem Kept.release {other : Fin pointers} {source : Source pointers}
    (member : other = pointer ∨ home other ≠ none) (kept : Kept home state pointer source) :
    Kept home (release home state other) pointer source := by
  have stays {object : Nat} (rooted : Rooted home state pointer object) :
      Rooted home (IntrusiveRefPtr.release home state other) pointer object := by
    obtain ⟨root, apart, outside, refers⟩ := rooted
    refine ⟨root, apart, outside, (update_of_ne ?_ _ _).trans refers⟩
    rintro rfl
    exact member.elim apart (absurd outside)
  refine ⟨fun needed listed object place => stays (kept.1 needed listed object place),
    fun object raw => (kept.2 object raw).imp (fun ⟨fresh, usable⟩ => ⟨fresh, ?_⟩) stays⟩
  have elsewhere : state.object other ≠ some object := fun refers => by
    simp [(right object).2.1 (references_ne_zero refers)] at fresh
  simp [IntrusiveRefPtr.release, elsewhere, usable]

end

/-! ### Operations -/

/-- The counts are right, only members of objects are dying, and what a pending assignment needs is
kept. -/
structure Sound (home : Fin pointers → Option Nat) (state : State pointers) : Prop where
  right : ∀ object, Right state object
  faultless : state.fault = false
  members : ∀ member ∈ state.dying, home member ≠ none
  ready : ∀ pointer source, state.pending = some (pointer, source) →
    state.object pointer = none ∧ Kept home state pointer source

theorem home_ne_none_of_release (members : ∀ member ∈ state.dying, home member ≠ none) :
    ∀ member ∈ (release home state pointer).dying, home member ≠ none := by
  intro member listed
  rcases List.mem_append.mp listed with new | old
  · obtain ⟨object, -, listed⟩ := List.mem_flatMap.mp new
    rw [of_decide_eq_true (List.mem_filter.mp listed).2]
    exact Option.some_ne_none object
  · exact members member old

section

variable {source : Source pointers} (sound : Sound home state)
include sound

theorem Sound.destroyed {member : Fin pointers} {rest : List (Fin pointers)}
    (dying : state.dying = member :: rest) :
    Sound home (release home { state with dying := rest } member) := by
  obtain ⟨right, faultless, members, ready⟩ := sound
  rw [dying] at members
  obtain ⟨here, others⟩ := List.forall_mem_cons.mp members
  have before : ∀ object, Right { state with dying := rest } object := right
  refine ⟨released_right before, faultless, home_ne_none_of_release others, ?_⟩
  intro pointer source waiting
  obtain ⟨empty, kept⟩ := ready pointer source waiting
  refine ⟨?_, Kept.release before (.inr here) kept⟩
  by_cases equal : pointer = member
  · subst equal
    exact update_self ..
  · exact (update_of_ne equal _ _).trans empty

theorem Sound.replaced (kept : Kept home state pointer source) :
    Sound home (replace home state pointer source) := by
  refine ⟨@released_right _ home _ _ sound.right, sound.faultless,
    home_ne_none_of_release sound.members, ?_⟩
  rintro _ _ ⟨⟩
  exact ⟨update_self .., Kept.release sound.right (.inl rfl) kept⟩

theorem Sound.stored (waiting : state.pending = some (pointer, source)) :
    Sound home (store home state pointer source) := by
  obtain ⟨right, faultless, members, ready⟩ := sound
  obtain ⟨empty, kept, raw⟩ := ready pointer source waiting
  have usable : ∀ object, source.value state = some object → state.deletions object = 0 := by
    intro object value
    cases source with
    | raw held =>
      obtain rfl : held = some object := value
      rcases raw object rfl with ⟨-, usable⟩ | ⟨root, -, -, refers⟩
      · exact usable
      · exact usable_of_right right refers
    | pointer other => exact usable_of_right right value
  refine ⟨@adopted_right _ _ _ _ right empty usable, ?_, members, nofun⟩
  have all : (pointer :: source.named).all (intact home state) = true := by
    refine List.all_eq_true.mpr fun needed listed => ?_
    cases place : home needed with
    | none => simp [intact, place]
    | some object =>
      obtain ⟨root, -, -, refers⟩ := kept needed listed object place
      simp [intact, place, usable_of_right right refers]
  simp only [store, faultless, all]
  rfl

theorem Sound.operate {label : Label pointers} (finished : state.pending = none)
    (allowed : Allowed home state label) (stepped : operate home state label = some next) :
    Sound home next := by
  have right := sound.right
  have idle {pair : Fin pointers × Source pointers} {Goal : Prop}
      (waiting : state.pending = some pair) : Goal := by
    rw [finished] at waiting
    cases waiting
  cases label with
  | construct pointer held =>
    obtain ⟨⟨empty, usable⟩, rfl⟩ := of_guard stepped
    exact ⟨adopted_right right empty fun object raw => by simpa [raw] using usable,
      sound.faultless, sound.members, fun _ _ => idle⟩
  | copy pointer other | load pointer other =>
    obtain ⟨empty, rfl⟩ := of_guard stepped
    exact ⟨adopted_right right empty fun _ => usable_of_right right, sound.faultless,
      sound.members, fun _ _ => idle⟩
  | assign pointer other =>
    cases stepped
    split
    · exact sound
    · exact sound.replaced (allowed ‹_›)
  | assignRaw pointer held =>
    obtain ⟨-, rfl⟩ := of_guard stepped
    exact sound.replaced allowed
  | swap pointer other =>
    cases stepped
    exact ⟨swapped_right right other, sound.faultless, sound.members, fun _ _ => idle⟩
  | reset pointer | destruct pointer =>
    cases stepped
    exact sound.replaced allowed
  | exchange result pointer other =>
    obtain ⟨⟨empty, apart⟩, rfl⟩ := of_guard stepped
    have loaded := @adopted_right _ state result _ right empty
      fun _ => @usable_of_right _ _ other _ right
    have swapped := @swapped_right _ _ result loaded pointer
    refine ⟨?_, sound.faultless, sound.members, fun _ _ => idle⟩
    simpa [adopt, update_of_ne apart.symm, update_comm apart] using swapped
  | proceed => cases stepped

theorem Sound.step {label : Label pointers} (allowed : Allowed home state label)
    (stepped : exec home state label = some next) : Sound home next := by
  unfold exec at stepped
  split at stepped
  · cases stepped
    exact sound.destroyed ‹_›
  · cases stepped
    exact sound.stored ‹_›
  · exact sound.operate ‹_› allowed (Option.ite_none_right_eq_some.mp stepped).2
  · cases stepped

end

/-- In every run in which what an assignment needs is kept by other pointers, the counts and the
deletions are right, and no member of a deleted object is accessed. -/
theorem counts_are_right (home : Fin pointers → Option Nat) (labels : List (Label pointers))
    (state : State pointers) (run : Run (exec home) (Allowed home) initial labels state) :
    (∀ object, Right state object) ∧ state.fault = false := by
  have sound : Sound home state := run.invariant (Sound home)
    (fun _ _ _ sound allowed => sound.step allowed)
    ⟨fun object => by simp [Right, initial, references], rfl, nofun, nofun⟩
  exact ⟨sound.right, sound.faultless⟩

/-- A pointer to a list of two elements is assigned a pointer to the second one. -/
def advance (list member second : Fin pointers) : List (Label pointers) :=
  [.construct list (some 7), .construct member (some 8), .copy second member, .assign list second,
    .proceed, .proceed]

/-- The first element is deleted, and its member with it. -/
theorem counts_are_right_advanced : ∃ state, Run (exec ![none, some 7, none])
    (Allowed ![none, some 7, none]) initial (advance 0 1 2) state ∧ state.deletions 7 = 1 ∧
    ∀ object, Right state object := by
  obtain ⟨state, run, deleted⟩ : ∃ state, Run (exec ![none, some 7, none])
      (Allowed ![none, some 7, none]) initial (advance 0 1 2) state ∧ state.deletions 7 = 1 := by
    refine ⟨_, .cons trivial rfl (.cons trivial rfl (.cons trivial rfl (.cons
      (fun _ => ⟨?_, nofun⟩) rfl (.cons trivial rfl (.cons trivial rfl (.nil _)))))), rfl⟩
    simp [Source.named]
  exact ⟨state, run, deleted, (counts_are_right _ _ state run).1⟩

/-- The only pointer to an object is assigned this object: it is deleted, and still referred to. And
the pointer to a list is assigned the member that refers to the second element: this one is deleted
too, and the member is read after that. -/
theorem assigned_object_is_deleted : (∃ state : State 1,
    Run (exec fun _ => none) unrestricted initial
      [.construct 0 (some 7), .assignRaw 0 (some 7), .proceed] state ∧
      state.object 0 = some 7 ∧ state.deletions 7 = 1 ∧ ¬ Right state 7) ∧
    ∃ state : State 2, Run (exec ![none, some 7]) unrestricted initial
      [.construct 0 (some 7), .construct 1 (some 8), .assign 0 1, .proceed, .proceed] state ∧
      state.deletions 8 = 1 ∧ state.fault = true := by
  refine ⟨exists_run (fun state => state.object 0 = some 7 ∧ state.deletions 7 = 1) (by decide)
    fun state run ⟨refers, deleted⟩ => ⟨run, refers, deleted, fun right => ?_⟩, exists_run _
      (by decide) fun state run shown => ⟨run, shown⟩⟩
  have kept := right.2.2
  rw [deleted, if_neg fun both => references_ne_zero refers both.2] at kept
  cases kept

end Miosix.IntrusiveRefPtr
