/-
This file embeds what the processes of `kernel/process.cpp` do with their images: a process is
created, executes another program and is deleted, and any of this may end with an exception.
Along the way it books which client of the pool owns which block.

The image of a process is right if the process owns the block of its image and no other one. A
load gives the previous image back before it asks for the new one, and it asks once for each size
entry of the program. So there should be one such entry, and a process that has an image already
should not be refused the new one: it would keep the pointer to a block that it does not own any
more.
-/

import Miosix.Lib.Update
import Miosix.Process.Image

namespace Miosix.Images

open Transition Function Logged
open ElfProgram (ProcessConfig ElfFile ProcessImage Access Ram Thrown Loaded LoadFailure Scan Tag
  SegmentType)
open ProcessPool (Area Pool Block Failure)

/-! ### Processes -/

/-- `Process::load`: the arguments have to fit in the image too. -/
def load (config : ProcessConfig) (area : Area) (file : ElfFile) (argsSize : Nat)
    (object : ProcessImage) (pool : Pool) (ram : Ram) : Logged Access (Except Thrown Loaded) := do
  match ← ElfProgram.load config area file object pool ram with
  | .error thrown => return .error thrown
  | .ok loaded =>
      if loaded.object.size < (loaded.object.dataBssSize + config.watermarkLen +
          loaded.object.mainStackSize + argsSize) % 2 ^ 32 then
        return .error ⟨.argsOverflow, loaded.object, loaded.pool⟩
      return .ok loaded

/-- The failures that are C++ exceptions. After the others there is no next state. -/
def isException : LoadFailure → Bool
  | .pool .badAlloc | .argsOverflow => true
  | .pool .outOfBitmap | .pool .bitCeil | .pool .unexpected | .nullPointer => false

structure Process where
  image : ProcessImage
  running : Bool

/-- The pool after an operation, and the process if it still exists. -/
abbrev Outcome := Option (Pool × Option Process)

/-- The destructor. -/
def destroy (area : Area) (object : ProcessImage) (pool : Pool) : Logged Access Outcome := do
  match ← ElfProgram.releaseImage area object pool with
  | .error _ => return none
  | .ok released => return some (released, none)

section

variable (config : ProcessConfig) (area : Area)

section

variable (file : ElfFile) (argsSize : Nat) (threadCreated : Bool) (object : ProcessImage)
  (pool : Pool)

/-- `Process::create`. An exception of the constructor destroys the image, and so does a thread that
cannot be created. -/
def create (ram : Ram) :
    Logged Access Outcome := do
  match ← load config area file argsSize object pool ram with
  | .error thrown =>
      if isException thrown.failure then destroy area thrown.object thrown.pool else return none
  | .ok loaded =>
      if threadCreated then return some (loaded.pool, some ⟨loaded.object, true⟩)
      else destroy area loaded.object loaded.pool

/-- The case `EXECVE` of `Process::handleSvc`. An exception ends the process, which then waits to be
deleted. -/
def execve (ram : Ram) : Logged Access Outcome := do
  match ← load config area file argsSize object pool ram with
  | .error thrown =>
      if isException thrown.failure then return some (thrown.pool, some ⟨thrown.object, false⟩)
      else return none
  | .ok loaded => return some (loaded.pool, some ⟨loaded.object, true⟩)

end

/-! ### The machine -/

/-- The clients of the pool: the image of a process, and the cache of programs. -/
inductive Client where
  | image (process : Nat)
  | programCache
  deriving DecidableEq, Repr

/-- Who owns the blocks, by address. -/
abbrev Owners := Nat → Option Client

/-- A block is owned by the client that obtains it, until this client gives it back. -/
def book (client : Client) (owners : Owners) : Access → Option Owners
  | .obtain block => some (update owners block.address (some client))
  | .giveBack address =>
      if owners address = some client then some (update owners address none) else none
  | .file _ | .write _ _ | .relocate _ => some owners

/-- The processes, the pool with the blocks of `ProgramCache`, and the books. -/
structure Machine where
  pool : Pool
  processes : Nat → Option Process
  programs : List Nat
  owners : Owners

def Machine.initial : Machine :=
  ⟨⟨fun _ => false, fun _ => none⟩, fun _ => none, [], fun _ => none⟩

/-- A new process has an image with two fields that are not initialised. A program is copied to the
pool when it is used first and given back when it is not used any more. -/
inductive Label where
  | create (process : Nat) (file : ElfFile) (argsSize : Nat) (threadCreated : Bool)
      (mainStackSize dataBssSize : Nat) (ram : Ram)
  | execve (process : Nat) (file : ElfFile) (argsSize : Nat) (ram : Ram)
  | delete (process : Nat)
  | loadProgram (size : Nat)
  | unloadProgram (address : Nat)

section

variable (machine : Machine)

/-- What a process does. Only accepted programs are loaded. -/
def operation : Label → Option (Nat × Logged Access Outcome)
  | .create process file argsSize threadCreated mainStackSize dataBssSize ram =>
      if machine.processes process = none ∧
          (ElfProgram.validateHeader config file).value = true then
        some (process, create config area file argsSize threadCreated
          ⟨0, 0, mainStackSize, dataBssSize⟩ machine.pool ram)
      else none
  | .execve process file argsSize ram =>
      match machine.processes process with
      | none => none
      | some ⟨image, running⟩ =>
          if running = true ∧ (ElfProgram.validateHeader config file).value = true then
            some (process, execve config area file argsSize image machine.pool ram)
          else none
  | .delete process =>
      match machine.processes process with
      | none => none
      | some ⟨image, _⟩ => some (process, destroy area image machine.pool)
  | .loadProgram _ | .unloadProgram _ => none

/-- A process performs an operation, which is booked. -/
def perform (label : Label) : Option Machine :=
  match operation config area machine label with
  | none => none
  | some (process, performed) =>
      match performed.value, performed.events.foldlM (book (.image process)) machine.owners with
      | some (pool, remains), some owners => some { machine with
          pool := pool
          processes := update machine.processes process remains
          owners := owners }
      | _, _ => none

def exec : Label → Option Machine
  | .loadProgram size =>
      match ProcessPool.allocate area machine.pool size with
      | .ok (block, pool) => some { machine with
          pool := pool
          programs := block.address :: machine.programs
          owners := update machine.owners block.address (some .programCache) }
      | .error .badAlloc => some machine
      | .error _ => none
  | .unloadProgram address =>
      if address ∈ machine.programs then
        match ProcessPool.deallocate area machine.pool address with
        | .ok pool => some { machine with
            pool := pool
            programs := machine.programs.erase address
            owners := update machine.owners address none }
        | .error _ => none
      else none
  | label => perform config area machine label

/-! ### Right operations -/

/-- The blocks a process owns: the block of its image, or none. -/
def OwnsImage (process : Nat) (owners : Owners) : Option Process → Prop
  | none => ∀ address, owners address ≠ some (.image process)
  | some ⟨object, _⟩ => ∀ address, owners address = some (.image process) ↔
      address = object.image ∧ object.image ≠ 0

/-- A process gives only blocks back that it owns, and after an operation it owns the block of its
image and no other one. -/
def Right (label : Label) : Prop :=
  ∀ process performed, operation config area machine label = some (process, performed) →
    Logged.Booked (book (.image process)) performed machine.owners fun outcome owners =>
      ∀ pool remains, outcome = some (pool, remains) → OwnsImage process owners remains

/-! ### The condition -/

/-- The sizes that a dynamic entry asks for. -/
def entryRequests (file : ElfFile) (dyn i : Nat) : List Nat :=
  if Tag.of (file.word (dyn + 8 * i)) = .mxRamsize then [file.word (dyn + 8 * i + 4)] else []

/-- The sizes that a program header asks for. -/
def segmentRequests (file : ElfFile) (i : Nat) : List Nat :=
  let phdr := file.word 28 + ElfProgram.phdrSize * i
  if SegmentType.of (file.word phdr) = .dynamic then
    (List.range' 0 (file.word (phdr + 20) / 8)).flatMap (entryRequests file (file.word (phdr + 4)))
  else []

/-- The sizes that a program asks for. -/
def requests (file : ElfFile) : List Nat :=
  (List.range' 0 (file.half 44)).flatMap (segmentRequests file)

/-- The pool has a place for a request. -/
def Room (pool : Pool) (request : Nat) : Prop :=
  request ≤ 2 ^ 31 ∧ ProcessPool.roundUp request ≤ area.size ∧
    ∃ i < area.blocks + 1, ProcessPool.Place area (ProcessPool.roundUp request) i ∧
      ProcessPool.Vacant area pool (ProcessPool.roundUp request) i

/-- A program asks for one block at most. A process that has an image asks for one, and once the
image is given back the pool has a place for it. -/
@[mk_iff]
structure Asks (file : ElfFile) (object : ProcessImage) (pool : Pool) : Prop where
  single : (requests file).length ≤ 1
  room : object.image ≠ 0 → (requests file).length = 1 ∧ ∀ request ∈ requests file, ∀ released,
    ProcessPool.deallocate area pool object.image = .ok released → Room area released request

/-- What is asked for when a program is loaded. -/
def Sole : Label → Prop
  | .create _ file _ _ _ _ _ => (requests file).length ≤ 1
  | .execve process file _ _ =>
      match machine.processes process with
      | none => True
      | some ⟨object, _⟩ => Asks area file object machine.pool
  | .delete _ | .loadProgram _ | .unloadProgram _ => True

instance (pool : Pool) (request : Nat) : Decidable (Room area pool request) :=
  inferInstanceAs (Decidable (_ ∧ _))

instance {file : ElfFile} {object : ProcessImage} {pool : Pool} :
    Decidable (Asks area file object pool) := decidable_of_iff' _ (asks_iff _ _ _ _)

instance : (label : Label) → Decidable (Sole area machine label)
  | .create _ _ _ _ _ _ _ => inferInstanceAs (Decidable (_ ≤ _))
  | .execve process file _ _ =>
      match found : machine.processes process with
      | none => .isTrue (by simp [Sole, found])
      | some ⟨object, _⟩ =>
          decidable_of_iff (Asks area file object machine.pool) (by simp [Sole, found])
  | .delete _ | .loadProgram _ | .unloadProgram _ => inferInstanceAs (Decidable True)

end

end

/-! ### What a load obtains -/

variable {config : ProcessConfig} {area : Area} {file : ElfFile} {client : Client}

/-- What a load changes for the other clients of the pool: the pool, the pointer to the image, and
the books. -/
structure Holding where
  pool : Pool
  image : Nat
  owners : Owners

/-- A request. -/
def Holding.take (area : Area) (client : Client) (holding : Holding) (request : Nat) :
    Except (LoadFailure × Holding) Holding :=
  match ProcessPool.allocate area holding.pool request with
  | .ok (block, pool) =>
      .ok ⟨pool, block.address, update holding.owners block.address (some client)⟩
  | .error failure => .error (.pool failure, holding)

def scanned (scan : Scan) (owners : Owners) : Holding := ⟨scan.pool, scan.object.image, owners⟩

def thrown (thrown : Thrown) (owners : Owners) : LoadFailure × Holding :=
  (thrown.failure, ⟨thrown.pool, thrown.object.image, owners⟩)

variable {owners before : Owners} {ram : Ram} {object : ProcessImage} {pool : Pool}
  {address argsSize process : Nat} {holding : Holding} {machine : Machine} {label : Label}
  {offset request : Nat} {Result : Type} {rest : Nat → Logged Access Result}
  {outcome : Result → Owners → Prop} {scan : Scan} {first second : Owners} {next : Machine}
  {remains : Option Process}

theorem booked_loadWord
    (booked : Booked (book client) (rest (file.word offset)) owners outcome) :
    Booked (book client) (ElfProgram.loadWord file offset >>= rest) owners outcome :=
  booked

theorem booked_loadHalf
    (booked : Booked (book client) (rest (file.half offset)) owners outcome) :
    Booked (book client) (ElfProgram.loadHalf file offset >>= rest) owners outcome :=
  booked

theorem loadEntry_booked {dyn i : Nat} :
    Booked (book client) (ElfProgram.loadEntry area file dyn i scan) owners
      fun outcome next => (entryRequests file dyn i).foldlM (Holding.take area client)
        (scanned scan owners) = Logged.seen scanned thrown outcome next := by
  unfold ElfProgram.loadEntry entryRequests
  refine booked_loadWord ?_
  cases Tag.of (file.word (dyn + 8 * i)) with
  | rel | relsz | mxStacksize => exact booked_loadWord (booked_pure rfl)
  | relent | mxAbi | rela | relasz | relaent | other => exact booked_pure rfl
  | mxRamsize =>
    refine booked_loadWord ?_
    rw [if_pos rfl, List.foldlM_cons]
    unfold Holding.take
    cases served : ProcessPool.allocate area scan.pool (file.word (dyn + 8 * i + 4)) with
    | error failure =>
      refine booked_pure ?_
      simp only [scanned, served]
      rfl
    | ok outcome =>
      obtain ⟨block, pool⟩ := outcome
      refine booked_singleton rfl ?_
      simp only [scanned, served]
      rfl

theorem loadSegment_booked {i : Nat} {scan : Scan} {owners : Owners} :
    Booked (book client) (ElfProgram.loadSegment area file (file.word 28) i scan) owners
      fun outcome next => (segmentRequests file i).foldlM (Holding.take area client)
        (scanned scan owners) = Logged.seen scanned thrown outcome next := by
  unfold ElfProgram.loadSegment segmentRequests
  refine booked_loadWord ?_
  simp only
  cases SegmentType.of (file.word (file.word 28 + ElfProgram.phdrSize * i)) with
  | load =>
    refine booked_loadWord ?_
    split <;> exact booked_pure rfl
  | dynamic =>
    refine booked_loadWord (booked_loadWord ?_)
    rw [if_pos rfl, foldlM_flatMap]
    exact booked_iterate _ _ _ (fun index state books => loadEntry_booked) _ _ _ _
  | other => exact booked_pure rfl

/-- What an image that is made or refused has obtained. -/
def Obtained (area : Area) (client : Client) (file : ElfFile) (holding : Holding) :
    Except Thrown Loaded → Owners → Prop
  | .ok loaded, owners => (requests file).foldlM (Holding.take area client) holding =
      .ok ⟨loaded.pool, loaded.object.image, owners⟩
  | .error exit, owners => (requests file).foldlM (Holding.take area client) holding =
      .error (thrown exit owners) ∨ isException exit.failure = false ∨
      (requests file).foldlM (Holding.take area client) holding =
        .ok ⟨exit.pool, exit.object.image, owners⟩

theorem relocations_booked {rel image count : Nat} : Booked (book client)
      (iterate (ElfProgram.relocate file rel image) 0 count ram) owners
      fun outcome next => next = owners ∧ ∃ moved, outcome = .ok moved := by
  have step : ∀ index ram owners, Booked (book client)
      (ElfProgram.relocate file rel image index ram) owners fun outcome next =>
        (pure owners : Except Unit Owners) =
          Logged.seen (fun _ books => books) (fun _ _ => ()) outcome next := by
    intro index ram owners
    refine booked_loadWord (booked_loadWord ?_)
    cases ElfProgram.RelocType.of (file.word (rel + 8 * index + 4)) with
    | relative => exact booked_singleton rfl rfl
    | none | other => exact booked_pure rfl
  refine (booked_iterate (fun reached _ => pure reached) _ _ step 0 count ram
    owners).mono fun next acted => ?_
  rw [List.foldlM_pure, List.foldl_fixed] at acted
  cases ended : (iterate (ElfProgram.relocate file rel image) 0 count ram).value with
  | error exit =>
    rw [ended] at acted
    cases acted
  | ok moved =>
    rw [ended] at acted
    exact ⟨(Except.ok.inj acted).symm, moved, rfl⟩

theorem fillImage_booked {data : Nat} :
    Booked (book client) (ElfProgram.fillImage config file scan data ram) owners
      fun outcome next => next = owners ∧ ∃ loaded, outcome = .ok loaded ∧
        loaded.pool = scan.pool ∧ loaded.object.image = scan.object.image := by
  refine booked_loadWord (booked_loadWord ?_)
  refine @Booked.bind _ _ _ _ _ _ _ _ (fun _ reached => reached = owners) _
    ⟨owners, rfl, rfl⟩ fun reached same => ?_
  obtain rfl := same
  refine booked_loadWord ?_
  unfold ElfProgram.applyRelocations
  split
  · refine Booked.bind relocations_booked fun next done => ?_
    obtain ⟨rfl, moved, ended⟩ := done
    rw [ended]
    exact booked_pure ⟨rfl, _, rfl, rfl, rfl⟩
  · exact booked_pure ⟨rfl, _, rfl, rfl, rfl⟩

theorem makeImage_booked :
    Booked (book client) (ElfProgram.makeImage config area file object pool ram) owners
      (Obtained area client file ⟨pool, object.image, owners⟩) := by
  have segments := booked_iterate
    (fun holding i => (segmentRequests file i).foldlM (Holding.take area client) holding)
    scanned thrown (fun index state => @loadSegment_booked area file client index state)
    0 (file.half 44) (.initial object pool) owners
  refine booked_loadWord (booked_loadHalf (Booked.bind segments fun next acted => ?_))
  rw [← foldlM_flatMap] at acted
  cases ended : (iterate (ElfProgram.loadSegment area file (file.word 28)) 0 (file.half 44)
    (.initial object pool)).value with
  | error exit =>
    rw [ended] at acted
    exact booked_pure (.inl acted)
  | ok scan =>
    rw [ended] at acted
    simp only
    cases scan.dataSegment with
    | none => exact booked_pure (.inr (.inl rfl))
    | some data =>
      refine fillImage_booked.mono fun last done => ?_
      obtain ⟨rfl, loaded, succeeded, samePool, sameImage⟩ := done
      rw [succeeded]
      show (requests file).foldlM (Holding.take area client) _ =
        Except.ok (Holding.mk loaded.pool loaded.object.image last)
      rw [samePool, sameImage]
      exact acted

/-! ### The books of the pool -/

/-- The blocks in use are those that have an owner. -/
structure Ledger (area : Area) (pool : Pool) (owners : Owners) : Prop where
  good : ProcessPool.Good area pool
  owned : ∀ address, owners address = none ↔ pool.allocatedBlocks address = none

/-- A client owns the block at an address and no other one, and none if the address is null. -/
def Owns (client : Client) (owners : Owners) (image : Nat) : Prop :=
  ∀ address, owners address = some client ↔ address = image ∧ image ≠ 0

/-- The other clients own what they owned before. -/
def SameOthers (client : Client) (before owners : Owners) : Prop :=
  ∀ other ≠ client, ∀ address, owners address = some other ↔ before address = some other

/-- The books are right, a client owns the block of its image, and the others keep theirs. -/
structure Kept (area : Area) (client : Client) (before : Owners) (holding : Holding) : Prop where
  ledger : Ledger area holding.pool holding.owners
  owns : Owns client holding.owners holding.image
  others : SameOthers client before holding.owners

theorem Ledger.obtained {pool next : Pool} {owners : Owners} {request : Nat} {block : Block}
    (ledger : Ledger area pool owners)
    (served : ProcessPool.allocate area pool request = .ok (block, next)) :
    owners block.address = none ∧ area.base ≤ block.address ∧
      Ledger area next (update owners block.address (some client)) := by
  obtain ⟨good, new, above, changed⟩ := ledger.good.allocated served
  refine ⟨(ledger.owned _).mpr new, above, good, fun address => ?_⟩
  rw [changed]
  by_cases same : address = block.address
  · subst same
    simp
  · rw [update_of_ne same, update_of_ne same]
    exact ledger.owned address

theorem Ledger.giveBack (ledger : Ledger area pool owners) (owned : owners address ≠ none) :
    ∃ released, ProcessPool.deallocate area pool address = .ok released ∧
      Ledger area released (update owners address none) := by
  obtain ⟨released, freed, good⟩ :=
    ledger.good.release fun absent => owned ((ledger.owned address).mpr absent)
  refine ⟨released, freed, good, fun other => ?_⟩
  rw [ProcessPool.allocatedBlocks_of_deallocate freed]
  by_cases same : other = address
  · subst same
    simp
  · rw [update_of_ne same, update_of_ne same]
    exact ledger.owned other

theorem owns_null_iff : Owns client owners 0 ↔ ∀ address, owners address ≠ some client := by
  unfold Owns
  simp

theorem owns_of_obtained (unowned : ∀ other, owners other ≠ some client) (notNull : address ≠ 0) :
    Owns client (update owners address (some client)) address := by
  intro other
  by_cases same : other = address
  · subst same
    simp [notNull]
  · simp [unowned other, same]

theorem unowned_of_givenBack (owns : Owns client owners address) (other : Nat) :
    update owners address none other ≠ some client := by
  by_cases same : other = address
  · subst same
    simp
  · rw [update_of_ne same]
    exact fun held => same ((owns other).mp held).1

theorem SameOthers.refl (owners : Owners) : SameOthers client owners owners := fun _ _ _ => Iff.rfl

theorem SameOthers.trans {third : Owners} (one : SameOthers client first second)
    (two : SameOthers client second third) : SameOthers client first third :=
  fun other differs address => (two other differs address).trans (one other differs address)

theorem sameOthers_update {entry : Option Client}
    (before : owners address = none ∨ owners address = some client)
    (after : entry = none ∨ entry = some client) :
    SameOthers client owners (update owners address entry) := by
  intro other differs place
  refine forall_update ?_ (fun place _ => ?_)
  · constructor
    · intro held
      rcases after with rfl | rfl
      · cases held
      · exact absurd (Option.some.inj held).symm differs
    · intro held
      rcases before with free | mine
      · rw [free] at held
        cases held
      · rw [mine] at held
        exact absurd (Option.some.inj held).symm differs
  · rfl

/-! ### One step -/

/-- An image that a client owns is given back, and the client owns nothing then. -/
theorem releaseImage_booked (ledger : Ledger area pool owners)
    (owns : Owns client owners object.image) :
    Booked (book client) (ElfProgram.releaseImage area object pool) owners
      fun outcome next => ∃ released, outcome = .ok released ∧ Ledger area released next ∧
        (∀ address, next address ≠ some client) ∧ SameOthers client owners next ∧
        (object.image ≠ 0 → ProcessPool.deallocate area pool object.image = .ok released) := by
  unfold ElfProgram.releaseImage
  by_cases null : object.image = 0
  · rw [if_pos null]
    rw [null, owns_null_iff] at owns
    exact booked_pure ⟨pool, rfl, ledger, owns, .refl owners, absurd null⟩
  · rw [if_neg null]
    have mine := (owns object.image).mpr ⟨rfl, null⟩
    obtain ⟨released, freed, after⟩ := ledger.giveBack (by rw [mine]; simp)
    refine booked_singleton (if_pos mine) ⟨released, freed, after,
      unowned_of_givenBack owns, sameOthers_update (.inr mine) (.inl rfl), fun _ => freed⟩

theorem take_of_room {holding : Holding} {request : Nat} (room : Room area holding.pool request) :
    ∃ next, holding.take area client request = .ok next := by
  obtain ⟨small, fits, i, -, place, vacant⟩ := room
  obtain ⟨block, next, served⟩ := ProcessPool.exists_allocate_of_vacant (by omega) (by omega)
    place vacant
  unfold Holding.take
  rw [served]
  exact ⟨_, rfl⟩

theorem take_kept {next : Holding} (placed : 0 < area.base)
    (ledger : Ledger area holding.pool holding.owners)
    (unowned : ∀ address, holding.owners address ≠ some client)
    (taken : holding.take area client request = .ok next) :
    Kept area client holding.owners next := by
  unfold Holding.take at taken
  split at taken
  · rename_i block pool served
    cases taken
    obtain ⟨free, above, after⟩ := @Ledger.obtained area client _ _ _ _ _ ledger served
    exact ⟨after, owns_of_obtained unowned (by omega), sameOthers_update (.inl free) (.inr rfl)⟩
  · cases taken

theorem eq_of_take_error {after : Holding} {failure : LoadFailure}
    (refused : holding.take area client request = .error (failure, after)) : after = holding := by
  unfold Holding.take at refused
  split at refused
  · cases refused
  · exact (Prod.mk.inj (Except.error.inj refused)).2.symm

/-- After the requests of a program that asks for one block at most. -/
theorem requests_kept {holding : Holding} (placed : 0 < area.base)
    (ledger : Ledger area holding.pool holding.owners)
    (unowned : ∀ address, holding.owners address ≠ some client)
    (single : (requests file).length ≤ 1)
    (room : holding.image ≠ 0 → (requests file).length = 1 ∧
      ∀ request ∈ requests file, Room area holding.pool request) :
    (∀ next, (requests file).foldlM (Holding.take area client) holding = .ok next →
      Kept area client holding.owners next) ∧
    ∀ failure next, (requests file).foldlM (Holding.take area client) holding =
      .error (failure, next) → Kept area client holding.owners next := by
  have empty : holding.image = 0 → Kept area client holding.owners holding := by
    intro null
    refine ⟨ledger, ?_, .refl _⟩
    rw [null, owns_null_iff]
    exact unowned
  match listed : requests file, single with
  | [], _ =>
    rw [listed] at room
    have null : holding.image = 0 := by
      by_contra present
      exact absurd (room present).1 (by simp)
    refine ⟨fun next done => ?_, nofun⟩
    cases done
    exact empty null
  | [request], _ =>
    rw [listed] at room
    have only : [request].foldlM (Holding.take area client) holding =
        holding.take area client request := by
      exact bind_pure _
    rw [only]
    refine ⟨fun next => take_kept placed ledger unowned, fun failure next refused => ?_⟩
    obtain rfl := eq_of_take_error refused
    refine empty ?_
    by_contra present
    obtain ⟨taken, served⟩ := @take_of_room area client _ _ ((room present).2 request (.head _))
    rw [refused] at served
    cases served

/-- The image is kept by a load that returns, and by one that ends with an exception. -/
def Keeps (area : Area) (client : Client) (before : Owners) : Except Thrown Loaded → Owners → Prop
  | .ok loaded, owners => Kept area client before ⟨loaded.pool, loaded.object.image, owners⟩
  | .error exit, owners => isException exit.failure = true →
      Kept area client before ⟨exit.pool, exit.object.image, owners⟩

theorem Kept.since (kept : Kept area client second holding)
    (others : SameOthers client first second) : Kept area client first holding :=
  { kept with others := others.trans kept.others }

/-- After an operation of a process that leaves a state. -/
def Settled (area : Area) (process : Nat) (before : Owners) (outcome : Outcome) (owners : Owners) :
    Prop :=
  ∀ pool remains, outcome = some (pool, remains) → Ledger area pool owners ∧
    OwnsImage process owners remains ∧ SameOthers (.image process) before owners

theorem Kept.settled {running : Bool}
    (kept : Kept area (.image process) before ⟨pool, object.image, owners⟩) :
    Settled area process before (some (pool, some ⟨object, running⟩)) owners := by
  intro next remains same
  cases same
  exact ⟨kept.ledger, kept.owns, kept.others⟩

theorem settled_none : Settled area process before none owners := nofun

theorem destroy_booked (kept : Kept area (.image process) before ⟨pool, object.image, owners⟩) :
    Booked (book (.image process)) (destroy area object pool) owners
      (Settled area process before) := by
  refine Booked.bind (releaseImage_booked kept.ledger kept.owns) fun next ended => ?_
  obtain ⟨released, ended, after, unowned, others, -⟩ := ended
  rw [ended]
  refine booked_pure fun pool remains same => ?_
  cases same
  exact ⟨after, unowned, kept.others.trans others⟩

section

variable (placed : 0 < area.base) (ledger : Ledger area pool owners)
  (owns : Owns (.image process) owners object.image) (asks : Asks area file object pool)

include placed ledger owns asks

theorem loadImage_booked :
    Booked (book (.image process)) (ElfProgram.load config area file object pool ram) owners
      (Keeps area (.image process) owners) := by
  refine Booked.bind (releaseImage_booked ledger owns) fun next ended => ?_
  obtain ⟨released, ended, after, unowned, others, freed⟩ := ended
  rw [ended]
  have kept := @requests_kept area file (.image process)
    ⟨released, object.image, next⟩ placed after unowned
    asks.single fun present => ⟨(asks.room present).1, fun request listed =>
        (asks.room present).2 request listed released (freed present)⟩
  refine makeImage_booked.mono fun last obtained => ?_
  cases outcome : (ElfProgram.makeImage config area file object released ram).value with
  | ok loaded =>
    rw [outcome] at obtained
    exact (kept.1 _ obtained).since others
  | error exit =>
    rw [outcome] at obtained
    intro exception
    rcases obtained with refused | other | done
    · exact (kept.2 _ _ refused).since others
    · rw [exception] at other
      cases other
    · exact (kept.1 _ done).since others

theorem load_booked :
    Booked (book (.image process)) (load config area file argsSize object pool ram) owners
      (Keeps area (.image process) owners) := by
  refine Booked.bind (loadImage_booked placed ledger owns asks) fun next kept => ?_
  cases outcome : (ElfProgram.load config area file object pool ram).value with
  | error exit =>
    rw [outcome] at kept
    exact booked_pure kept
  | ok loaded =>
    rw [outcome] at kept
    simp only
    split
    · exact booked_pure fun _ => kept
    · exact booked_pure kept

theorem create_booked {threadCreated : Bool} :
    Booked (book (.image process))
      (create config area file argsSize threadCreated object pool ram) owners
      (Settled area process owners) := by
  refine Booked.bind (load_booked placed ledger owns asks) fun next kept => ?_
  cases outcome : (load config area file argsSize object pool ram).value with
  | error exit =>
    rw [outcome] at kept
    simp only
    split
    · rename_i exception
      exact destroy_booked (kept exception)
    · exact booked_pure settled_none
  | ok loaded =>
    rw [outcome] at kept
    simp only
    split
    · exact booked_pure kept.settled
    · exact destroy_booked kept

theorem execve_booked :
    Booked (book (.image process)) (execve config area file argsSize object pool ram) owners
      (Settled area process owners) := by
  refine Booked.bind (load_booked placed ledger owns asks) fun next kept => ?_
  cases outcome : (load config area file argsSize object pool ram).value with
  | error exit =>
    rw [outcome] at kept
    simp only
    split
    · rename_i exception
      exact booked_pure (kept exception).settled
    · exact booked_pure settled_none
  | ok loaded =>
    rw [outcome] at kept
    exact booked_pure kept.settled

end

/-! ### Whole runs -/

/-- The books are right for the pool, every process and the cache of programs. -/
structure Good (area : Area) (machine : Machine) : Prop where
  ledger : Ledger area machine.pool machine.owners
  processes : ∀ process, OwnsImage process machine.owners (machine.processes process)
  programs : ∀ address, address ∈ machine.programs ↔
    machine.owners address = some .programCache
  distinct : machine.programs.Nodup

theorem good_initial : Good area .initial where
  ledger := ⟨⟨nofun, nofun⟩, fun _ => iff_of_true rfl rfl⟩
  processes := nofun
  programs := fun _ => iff_of_false (by simp [Machine.initial]) (by simp [Machine.initial])
  distinct := List.nodup_nil

/-- Every operation of a process that meets the condition is booked. -/
theorem Good.operation_booked {performed : Logged Access Outcome} (good : Good area machine)
    (placed : 0 < area.base) (sole : Sole area machine label)
    (performs : operation config area machine label = some (process, performed)) :
    Booked (book (.image process)) performed machine.owners
      (Settled area process machine.owners) := by
  cases label with
  | create who file argsSize threadCreated mainStackSize dataBssSize ram =>
    obtain ⟨⟨absent, -⟩, same⟩ := Option.ite_none_right_eq_some.mp performs
    obtain ⟨rfl, rfl⟩ := Prod.mk.inj (Option.some.inj same)
    have owns := good.processes who
    rw [absent] at owns
    exact create_booked placed good.ledger (owns_null_iff.mpr owns) ⟨sole, absurd rfl⟩
  | execve who file argsSize ram =>
    have owns := good.processes who
    unfold operation at performs
    unfold Sole at sole
    cases found : machine.processes who with
    | none =>
      simp only [found] at performs
      cases performs
    | some existing =>
      obtain ⟨object, running⟩ := existing
      simp only [found] at performs sole
      rw [found] at owns
      obtain ⟨-, same⟩ := Option.ite_none_right_eq_some.mp performs
      cases same
      exact execve_booked placed good.ledger owns sole
  | delete who =>
    have owns := good.processes who
    unfold operation at performs
    cases found : machine.processes who with
    | none =>
      simp only [found] at performs
      cases performs
    | some existing =>
      obtain ⟨object, running⟩ := existing
      simp only [found] at performs
      rw [found] at owns
      cases performs
      exact destroy_booked ⟨good.ledger, owns, .refl _⟩
  | loadProgram | unloadProgram => cases performs

theorem OwnsImage.of_sameOthers {after : Owners}
    (owns : OwnsImage process before remains) (others : SameOthers client before after)
    (differs : .image process ≠ client) : OwnsImage process after remains := by
  cases remains with
  | none => exact fun address held => owns address ((others _ differs address).mp held)
  | some existing => exact fun address => (others _ differs address).trans (owns address)

section

variable (good : Good area machine)
include good

/-- A process has ended an operation. -/
theorem Good.renewed (settled : Settled area process machine.owners (some (pool, remains)) owners) :
    Good area { machine with
      pool := pool
      processes := update machine.processes process remains
      owners := owners } := by
  obtain ⟨ledger, owns, others⟩ := settled pool remains rfl
  refine ⟨ledger, fun other => ?_, fun address => ?_, good.distinct⟩
  · by_cases same : other = process
    · subst same
      simp only [update_self]
      exact owns
    · simp only [update_of_ne same]
      exact (good.processes other).of_sameOthers others (by simp [same])
  · exact (good.programs address).trans (others _ (by simp) address).symm

theorem Good.loadProgram {size : Nat} {block : Block}
    (served : ProcessPool.allocate area machine.pool size = .ok (block, pool)) :
    Good area { machine with
      pool := pool
      programs := block.address :: machine.programs
      owners := update machine.owners block.address (some .programCache) } := by
  obtain ⟨free, -, ledger⟩ := @Ledger.obtained area .programCache _ _ _ _ _ good.ledger served
  refine ⟨ledger, fun process => ?_, fun address => ?_, ?_⟩
  · exact (good.processes process).of_sameOthers
      (sameOthers_update (.inl free) (.inr rfl)) (by simp)
  · by_cases same : address = block.address
    · subst same
      simp
    · simp [same, good.programs address]
  · refine List.nodup_cons.mpr ⟨fun listed => ?_, good.distinct⟩
    rw [good.programs, free] at listed
    cases listed

theorem Good.unloadProgram (listed : address ∈ machine.programs)
    (freed : ProcessPool.deallocate area machine.pool address = .ok pool) : Good area { machine with
      pool := pool
      programs := machine.programs.erase address
      owners := update machine.owners address none } := by
  have mine := (good.programs address).mp listed
  obtain ⟨released, other, ledger⟩ := good.ledger.giveBack (by rw [mine]; simp)
  obtain rfl := Except.ok.inj (other.symm.trans freed)
  refine ⟨ledger, fun process => ?_, fun place => ?_, good.distinct.erase address⟩
  · exact (good.processes process).of_sameOthers
      (sameOthers_update (.inr mine) (.inl rfl)) (by simp)
  · simp only [good.distinct.mem_erase_iff]
    by_cases same : place = address
    · subst same
      simp
    · simp [same, good.programs place]

section

variable (placed : 0 < area.base) (sole : Sole area machine label)

include placed sole

theorem Good.perform (stepped : perform config area machine label = some next) :
    Good area next := by
  unfold Images.perform at stepped
  cases performs : operation config area machine label with
  | none =>
    rw [performs] at stepped
    cases stepped
  | some operated =>
    obtain ⟨process, performed⟩ := operated
    obtain ⟨owners, noted, settled⟩ := good.operation_booked placed sole performs
    simp only [performs, noted] at stepped
    cases ended : performed.value with
    | none =>
      rw [ended] at stepped
      cases stepped
    | some outcome =>
      obtain ⟨pool, remains⟩ := outcome
      rw [ended] at stepped settled
      cases stepped
      exact good.renewed settled

/-- The books stay right as long as the steps meet the condition. -/
theorem Good.step (stepped : exec config area machine label = some next) :
    Good area next := by
  cases label with
  | create | execve | delete => exact good.perform placed sole stepped
  | loadProgram size =>
    simp only [exec] at stepped
    split at stepped
    · rename_i block pool served
      cases stepped
      exact good.loadProgram served
    · exact Option.some.inj stepped ▸ good
    · cases stepped
  | unloadProgram address =>
    obtain ⟨listed, stepped⟩ := Option.ite_none_right_eq_some.mp stepped
    split at stepped
    · rename_i pool freed
      cases stepped
      exact good.unloadProgram listed freed
    · cases stepped

end

end

/-- In every run whose loads meet the condition, a process gives back only blocks that it owns, and
what it owns is the block of its image, until the image is destroyed and it owns none. -/
theorem blocks_are_given_back_once (config : ProcessConfig) (area : Area) (placed : 0 < area.base)
    (labels : List Label) (machine : Machine)
    (run : Run (exec config area) (Sole area) .initial labels machine) (label : Label)
    (sole : Sole area machine label) : Right config area machine label := by
  have good : Good area machine := run.invariant (Good area)
    (fun before step after held allowed => held.step placed allowed) good_initial
  intro process performed performs
  refine (good.operation_booked placed sole performs).mono fun next settled pool remains same => ?_
  exact (settled pool remains same).2.1

/-- A program that asks for an image of a given size. -/
def programWords (ramSize : Nat) : List Nat :=
  ElfProgram.headerWords 148 3 ++ ElfProgram.phdrWords 1 148 4 4 5 4 ++
    ElfProgram.phdrWords 1 152 8 8 6 4 ++ ElfProgram.phdrWords 2 160 24 24 6 4 ++ [0, 0, 0] ++
    [0x736f694d, 0x01007869, 0x10000000, ramSize, 0x10000001, 1024]

/-- A process is created and executes a larger program. -/
theorem blocks_are_given_back_once_larger : ∃ (config : ProcessConfig) (area : Area)
    (labels : List Label) (machine : Machine), 0 < area.base ∧
      Run (exec config area) (Sole area) .initial labels machine ∧
      machine.owners 0x20000000 = some (.image 0) ∧ Right config area machine (.delete 0) :=
  ⟨.sample,
    ⟨0x20000000, 32 * 1024, by decide, by decide, by decide⟩,
    [.create 0 (.ofWords 0x08010000 (programWords 2048) 0 (by decide)) 64 true 0 0 fun _ => 0,
      .execve 0 (.ofWords 0x08020000 (programWords 4096) 0 (by decide)) 64 fun _ => 0],
    exists_run (fun machine => machine.owners 0x20000000 = some (.image 0)) (by decide +kernel)
      fun machine run owned => ⟨by decide, run, owned,
        blocks_are_given_back_once _ _ (by decide) _ machine run _ trivial⟩⟩

theorem not_right_of_unbooked (unbooked : ((operation config area machine label).any fun operated =>
      (operated.2.events.foldlM (book (.image operated.1)) machine.owners).isNone) = true) :
    ¬ Right config area machine label := by
  obtain ⟨⟨process, performed⟩, performs, absent⟩ := (Option.any_eq_true _ _).mp unbooked
  intro right
  obtain ⟨owners, noted, -⟩ := right process performed performs
  simp only [noted] at absent
  cases absent

/-- A process executes a program that needs more than the pool has. The image it had is given back,
and given back again when the process is deleted. -/
theorem refused_image_is_given_back_twice : ∃ (config : ProcessConfig) (area : Area)
    (labels : List Label) (machine : Machine), 0 < area.base ∧
      Run (exec config area) unrestricted .initial labels machine ∧
      ¬ Right config area machine (.delete 0) :=
  ⟨.sample,
    ⟨0x20000000, 32 * 1024, by decide, by decide, by decide⟩,
    [.create 0 (.ofWords 0x08010000 (programWords 2048) 0 (by decide)) 64 true 0 0 fun _ => 0,
      .execve 0 (.ofWords 0x08020000 (programWords 65536) 0 (by decide)) 64 fun _ => 0],
    exists_run _ (by decide +kernel)
      fun _ run unbooked => ⟨by decide, run, not_right_of_unbooked unbooked⟩⟩

end Miosix.Images
