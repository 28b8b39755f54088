/-
This file embeds `ProcessPool` of `kernel/process_pool.cpp`, the allocator of the memory of
processes, and proves what its blocks are like.

The pool is a row of blocks of one kilobyte with a bitmap that says which ones are in use. A
request is rounded up to a power of two, and the loop of `allocate` looks at every place for a
block of this size, from the first aligned one. The bitmap is an array of words, so an access
behind its last word is a failure of its own here.

The end of the loop is one block too far, and the last place may begin inside the pool and end
behind it. The bitmap, on the other hand, has no bits for the blocks behind the last multiple of
32, and the constructor clears bytes for them. The blocks are right as long as none of this
comes to bear.
-/

import Miosix.Lib.Transition

namespace Miosix.ProcessPool

open Transition Function Option

/-! ### The pool -/

/-- The size of a block. -/
def blockSize : Nat := 1024

/-- Where the pool is: `poolBase` and `poolSize`. The end of the pool is an address too, so no sum
of the code leaves 32 bits. -/
structure Area where
  base : Nat
  size : Nat
  base_aligned : base % blockSize = 0
  size_aligned : size % blockSize = 0
  fits : base + size < 2 ^ 32

section

variable (area : Area)

/-- The number of blocks, `poolSize/blockSize`. -/
def Area.blocks : Nat := area.size / blockSize

/-- The bytes of the bitmap that the constructor clears. -/
def Area.numBytes : Nat := area.size / blockSize / 8

/-- The words of the bitmap. -/
def Area.words : Nat := area.numBytes / 4

def Area.bits : Nat := 32 * area.words

structure Pool where
  bitmap : Nat → Bool
  allocatedBlocks : Nat → Option Nat

/-- Why an operation does not return: the exception, an access behind the bitmap, the rounding of
a size that has no power of two above it in 32 bits, or the call of `errorHandler`. -/
inductive Failure where
  | badAlloc
  | outOfBitmap
  | bitCeil
  | unexpected
  deriving DecidableEq, Repr

def failure {Value : Type} : Except Failure Value → Option Failure
  | .ok _ => none
  | .error reason => some reason

theorem failure_eq_some_iff {Value : Type} {outcome : Except Failure Value} {reason : Failure} :
    failure outcome = some reason ↔ outcome = .error reason := by
  cases outcome with
  | ok | error => simp [failure]

/-- The constructor. -/
def construct : Except Failure Pool :=
  if area.numBytes ≤ 4 * area.words then .ok ⟨fun _ => false, fun _ => none⟩
  else .error .outOfBitmap

def testBit (bitmap : Nat → Bool) (bit : Nat) : Except Failure Bool :=
  if bit / 32 < area.words then .ok (bitmap bit) else .error .outOfBitmap

/-- `setBit` and `clearBit`. -/
def writeBit (value : Bool) (bitmap : Nat → Bool) (bit : Nat) : Except Failure (Nat → Bool) :=
  if bit / 32 < area.words then .ok (update bitmap bit value) else .error .outOfBitmap

def setBit : (Nat → Bool) → Nat → Except Failure (Nat → Bool) := writeBit area true

def clearBit : (Nat → Bool) → Nat → Except Failure (Nat → Bool) :=
  writeBit area false

/-- The loop that looks for a bit that is set. -/
def notEmpty (area : Area) (bitmap : Nat → Bool) : List Nat → Except Failure Bool
  | [] => .ok false
  | bit :: rest => do
      if ← testBit area bitmap bit then return true
      notEmpty area bitmap rest

/-- `std::bit_ceil`. -/
def bitCeil (size : Nat) : Nat := if size ≤ 1 then 1 else 2 ^ (Nat.log2 (size - 1) + 1)

/-- The size of the block for a request. -/
def roundUp (request : Nat) : Nat := bitCeil (max request blockSize)

def Area.startBit (size : Nat) : Nat :=
  (if area.base % size = 0 then 0 else size - area.base % size) / blockSize

structure Block where
  address : Nat
  size : Nat
  deriving DecidableEq, Repr

/-- The loop over the places for a block. The fuel is an upper bound for their number. -/
def search (area : Area) (pool : Pool) (size : Nat) : Nat → Nat → Except Failure (Block × Pool)
  | 0, _ => .error .badAlloc
  | fuel + 1, i =>
      if i ≤ area.blocks then do
        let bits := List.range' i (size / blockSize)
        if ← notEmpty area pool.bitmap bits then
          search area pool size fuel (i + size / blockSize)
        else
          let bitmap ← bits.foldlM (setBit area) pool.bitmap
          let result := area.base + i * blockSize
          return (⟨result, size⟩,
            ⟨bitmap, update pool.allocatedBlocks result (some size)⟩)
      else .error .badAlloc

def allocate (pool : Pool) (request : Nat) : Except Failure (Block × Pool) :=
  if 2 ^ 31 < request then .error .bitCeil
  else
    let size := roundUp request
    if area.size < size then .error .badAlloc
    else search area pool size (area.blocks + 1) (area.startBit size)

/-- The outcome of `allocate` if the map has no memory for the new entry. The exception leaves the
bits set. -/
def allocateFails (pool : Pool) (request : Nat) : Except Failure Pool :=
  (allocate area pool request).map fun (_, next) =>
    { next with allocatedBlocks := pool.allocatedBlocks }

def deallocate (pool : Pool) (address : Nat) : Except Failure Pool :=
  match pool.allocatedBlocks address with
  | none => .error .unexpected
  | some size => do
      let firstBit := (address - area.base) / blockSize
      let bitmap ← (List.range' firstBit (size / blockSize)).foldlM (clearBit area) pool.bitmap
      return ⟨bitmap, update pool.allocatedBlocks address none⟩

/-! ### The machine -/

inductive Label where
  | construct
  | allocate (request : Nat)
  | allocateFails (request : Nat)
  | deallocate (address : Nat)

/-- An operation that fails without an exception ends the run. Only blocks that were returned are
given back. -/
def exec : Option Pool → Label → Option (Option Pool)
  | none, .construct =>
      match construct area with
      | .ok pool => some (some pool)
      | .error _ => none
  | some pool, .allocate request =>
      match allocate area pool request with
      | .ok (_, next) => some (some next)
      | .error .badAlloc => some (some pool)
      | .error _ => none
  | some pool, .allocateFails request =>
      match allocateFails area pool request with
      | .ok next => some (some next)
      | .error _ => none
  | some pool, .deallocate address =>
      if pool.allocatedBlocks address = none then none
      else
        match deallocate area pool address with
        | .ok next => some (some next)
        | .error _ => none
  | _, _ => none

/-! ### What the operations are for -/

def Area.Contains (block : Block) : Prop :=
  area.base ≤ block.address ∧ block.address + block.size ≤ area.base + area.size

def Disjoint (one other : Block) : Prop :=
  one.address + one.size ≤ other.address ∨ other.address + other.size ≤ one.address

def Pool.Live (pool : Pool) (block : Block) : Prop :=
  pool.allocatedBlocks block.address = some block.size

/-- A block inside the pool, of a size that is a power of two and enough for the request, aligned
to its size and apart from the blocks in use. -/
structure BlockRight (pool : Pool) (request : Nat) (block : Block) : Prop where
  inside : area.Contains block
  powerOfTwo : ∃ exponent, block.size = 2 ^ exponent
  enough : request ≤ block.size
  aligned : block.size ∣ block.address
  disjoint : ∀ other, pool.Live other → Disjoint block other

/-- An operation accesses the bitmap only where it is, and what it returns is right. -/
def Right : Option Pool → Label → Prop
  | none, .construct => ∃ pool, construct area = .ok pool
  | some pool, .allocate request =>
      (∃ block next, allocate area pool request = .ok (block, next) ∧
        BlockRight area pool request block) ∨
      allocate area pool request = .error .badAlloc
  | some pool, .allocateFails request =>
      (∃ next, allocateFails area pool request = .ok next) ∨
        allocateFails area pool request = .error .badAlloc
  | some pool, .deallocate address =>
      pool.allocatedBlocks address ≠ none → ∃ next, deallocate area pool address = .ok next
  | _, _ => True

/-! ### The condition -/

section

variable (pool : Pool) (size i : Nat)

/-- A place the loop looks at. -/
def Place : Prop :=
  area.startBit size ≤ i ∧ i ≤ area.blocks ∧ (i - area.startBit size) % (size / blockSize) = 0

instance : Decidable (Place area size i) :=
  inferInstanceAs (Decidable (_ ∧ _))

/-- All the blocks of a place are in the bitmap and not in use. -/
def Vacant : Prop :=
  i + size / blockSize ≤ area.bits ∧
    ∀ j < size / blockSize, pool.bitmap (i + j) = false

instance : Decidable (Vacant area pool size i) :=
  inferInstanceAs (Decidable (_ ∧ _))

/-- A block of a place is in use. -/
def Taken : Prop :=
  ∃ j < size / blockSize, i + j < area.bits ∧ pool.bitmap (i + j) = true

instance : Decidable (Taken area pool size i) :=
  inferInstanceAs (Decidable (∃ _, _))

end

/-- The bitmap has whole words for the bytes that are cleared. A request has a power of two above
it, and it is too large for the pool, or a place in the bitmap is vacant, or a block of every
place the loop looks at is in use. -/
def Allowed : Option Pool → Label → Prop
  | none, .construct => area.numBytes % 4 = 0
  | some pool, .allocate request | some pool, .allocateFails request => request ≤ 2 ^ 31 ∧
      (area.size < roundUp request ∨
        (∃ i < area.blocks + 1, Place area (roundUp request) i ∧
          Vacant area pool (roundUp request) i) ∨
        ∀ i < area.blocks + 1, Place area (roundUp request) i →
          Taken area pool (roundUp request) i)
  | _, _ => True

instance (pool : Option Pool) (label : Label) : Decidable (Allowed area pool label) :=
  match pool, label with
  | none, .construct => inferInstanceAs (Decidable (_ = _))
  | some _, .allocate _ | some _, .allocateFails _ => inferInstanceAs (Decidable (_ ∧ _))
  | none, .allocate _ | none, .allocateFails _ | none, .deallocate _ | some _, .construct
  | some _, .deallocate _ => inferInstanceAs (Decidable True)

end

/-! ### The loops over the bits -/

variable {area : Area} {pool : Pool} {size : Nat}

theorem lt_words_iff {bit : Nat} : bit / 32 < area.words ↔ bit < area.bits := by
  rw [Nat.div_lt_iff_lt_mul (by decide), Nat.mul_comm]
  exact Iff.rfl

variable {bitmap : Nat → Bool} {bit i count fuel request first address : Nat} {value : Bool}
  {block : Block} {next : Pool} {one other : Block} {otherFirst otherCount : Nat}
  {state : Option Pool} {label : Label}

theorem testBit_of_lt (inside : bit < area.bits) : testBit area bitmap bit = .ok (bitmap bit) :=
  if_pos (lt_words_iff.mpr inside)

theorem testBit_of_le (outside : area.bits ≤ bit) : testBit area bitmap bit = .error .outOfBitmap :=
  if_neg fun inside => absurd (lt_words_iff.mp inside) (by omega)

/-- A bit that is set is found: the bits before it are in the bitmap too. -/
theorem notEmpty_of_set {j : Nat} (listed : j < count) (inside : i + j < area.bits)
    (set : bitmap (i + j) = true) : notEmpty area bitmap (List.range' i count) = .ok true := by
  induction count generalizing i j with
  | zero => omega
  | succ count inductionHypothesis =>
    rw [List.range'_succ, notEmpty, testBit_of_lt (by omega)]
    cases first : bitmap i with
    | true => rfl
    | false =>
      cases j with
      | zero =>
        rw [Nat.add_zero, first] at set
        cases set
      | succ j =>
        rw [Nat.add_succ, ← Nat.succ_add] at inside set
        exact inductionHypothesis (by omega) inside set

theorem notEmpty_of_clear (inside : i + count ≤ area.bits)
    (clear : ∀ j < count, bitmap (i + j) = false) :
    notEmpty area bitmap (List.range' i count) = .ok false := by
  induction count generalizing i with
  | zero => rfl
  | succ count inductionHypothesis =>
    have first : bitmap i = false := clear 0 (by omega)
    rw [List.range'_succ, notEmpty, testBit_of_lt (by omega), first]
    refine inductionHypothesis (by omega) fun j listed => ?_
    rw [Nat.succ_add_eq_add_succ]
    exact clear (j + 1) (by omega)

/-- The loop leaves the bitmap if it ends behind it and finds no bit before. -/
theorem notEmpty_of_outside (positive : 0 < count) (outside : area.bits < i + count)
    (clear : ∀ j < count, i + j < area.bits → bitmap (i + j) = false) :
    notEmpty area bitmap (List.range' i count) = .error .outOfBitmap := by
  induction count generalizing i with
  | zero => omega
  | succ count inductionHypothesis =>
    rw [List.range'_succ, notEmpty]
    by_cases inside : i < area.bits
    · have first : bitmap i = false := clear 0 (by omega) inside
      rw [testBit_of_lt inside, first]
      refine inductionHypothesis (by omega) (by omega) fun j listed here => ?_
      rw [Nat.succ_add_eq_add_succ] at here ⊢
      exact clear (j + 1) (by omega) here
    · rw [testBit_of_le (by omega)]
      rfl

/-- The bitmap after a loop of `setBit` or `clearBit`. -/
def fill (value : Bool) (bitmap : Nat → Bool) (i count bit : Nat) : Bool :=
  if i ≤ bit ∧ bit < i + count then value else bitmap bit

theorem foldlM_writeBit (inside : i + count ≤ area.bits) :
    (List.range' i count).foldlM (writeBit area value) bitmap =
      .ok (fill value bitmap i count) := by
  induction count generalizing i bitmap with
  | zero =>
    refine congrArg Except.ok (funext fun bit => ?_)
    exact (if_neg (by omega)).symm
  | succ count inductionHypothesis =>
    have here : writeBit area value bitmap i = .ok (update bitmap i value) :=
      if_pos (lt_words_iff.mpr (by omega))
    rw [List.range'_succ, List.foldlM_cons, here]
    refine (inductionHypothesis (by omega)).trans (congrArg Except.ok (funext fun bit => ?_))
    by_cases same : bit = i
    · rw [fill, fill, if_neg (by omega), if_pos (by omega), same, update_self]
    · rw [fill, fill, update_of_ne same]
      exact if_congr (by omega) rfl rfl

/-! ### The loop over the places -/

theorem taken_or_vacant (inside : i + size / blockSize ≤ area.bits) :
    Taken area pool size i ∨ Vacant area pool size i := by
  by_cases clear : ∀ j < size / blockSize, pool.bitmap (i + j) = false
  · exact .inr ⟨inside, clear⟩
  · push Not at clear
    obtain ⟨j, listed, set⟩ := clear
    exact .inl ⟨j, listed, by omega, by simpa using set⟩

theorem not_taken_of_vacant (vacant : Vacant area pool size i) : ¬ Taken area pool size i := by
  rintro ⟨j, listed, -, set⟩
  rw [vacant.2 j listed] at set
  cases set

/-- The pool after a block was allocated at a place. -/
def Pool.take (area : Area) (pool : Pool) (size i : Nat) : Pool :=
  ⟨fill true pool.bitmap i (size / blockSize),
    update pool.allocatedBlocks (area.base + i * blockSize) (some size)⟩

theorem search_of_taken (reached : i ≤ area.blocks) (taken : Taken area pool size i)
    : search area pool size (fuel + 1) i = search area pool size fuel (i + size / blockSize) := by
  obtain ⟨j, listed, inside, set⟩ := taken
  simp only [search, if_pos reached, notEmpty_of_set listed inside set]
  rfl

theorem search_of_vacant (reached : i ≤ area.blocks) (vacant : Vacant area pool size i)
    : search area pool size (fuel + 1) i =
      .ok (⟨area.base + i * blockSize, size⟩, pool.take area size i) := by
  simp only [search, if_pos reached, notEmpty_of_clear vacant.1 vacant.2]
  show (List.range' i (size / blockSize)).foldlM (writeBit area true) pool.bitmap >>= _ = _
  rw [foldlM_writeBit vacant.1]
  rfl

section

variable (positive : 0 < size / blockSize)

include positive

theorem search_of_outside (reached : i ≤ area.blocks)
    (outside : area.bits < i + size / blockSize) (free : ¬ Taken area pool size i) :
    search area pool size (fuel + 1) i = .error .outOfBitmap := by
  have clear : ∀ j < size / blockSize, i + j < area.bits → pool.bitmap (i + j) = false := by
    intro j listed bounded
    by_contra set
    exact free ⟨j, listed, bounded, by simpa using set⟩
  simp only [search, if_pos reached, notEmpty_of_outside positive outside clear]
  rfl

/-- How the loop over the places ends, from a place on: at the first place no block of which is in
use, with a block if it is vacant and behind the bitmap if not, or with an exception if there is
none. -/
theorem search_cases (i : Nat)
    (enough : area.blocks < i + fuel * (size / blockSize)) :
    (∃ k, i + k * (size / blockSize) ≤ area.blocks ∧
      (∀ before < k, Taken area pool size (i + before * (size / blockSize))) ∧
      (Vacant area pool size (i + k * (size / blockSize)) ∧ search area pool size fuel i =
          .ok (⟨area.base + (i + k * (size / blockSize)) * blockSize, size⟩,
            pool.take area size (i + k * (size / blockSize))) ∨
        ¬ Taken area pool size (i + k * (size / blockSize)) ∧
          area.bits < i + (k + 1) * (size / blockSize) ∧
          search area pool size fuel i = .error .outOfBitmap)) ∨
    ((∀ k, i + k * (size / blockSize) ≤ area.blocks →
        Taken area pool size (i + k * (size / blockSize))) ∧
      search area pool size fuel i = .error .badAlloc) := by
  induction fuel generalizing i with
  | zero =>
    refine .inr ⟨fun k reached => ?_, rfl⟩
    have := Nat.zero_le (k * (size / blockSize))
    omega
  | succ fuel inductionHypothesis =>
    have shift : ∀ k, i + size / blockSize + k * (size / blockSize) =
        i + (k + 1) * (size / blockSize) := by
      intro k
      rw [Nat.succ_mul]
      omega
    have here : i + 0 * (size / blockSize) = i := by omega
    by_cases reached : i ≤ area.blocks
    · by_cases taken : Taken area pool size i
      · rw [search_of_taken reached taken]
        have rest := inductionHypothesis (i + size / blockSize) (by rw [shift]; exact enough)
        simp only [shift] at rest
        rcases rest with ⟨k, within, passed, ended⟩ | ⟨all, failed⟩
        · refine .inl ⟨k + 1, within, fun before sooner => ?_, ended⟩
          cases before with
          | zero => rwa [here]
          | succ before => exact passed before (by omega)
        · refine .inr ⟨fun k within => ?_, failed⟩
          cases k with
          | zero => rwa [here]
          | succ k => exact all k within
      · refine .inl ⟨0, by rwa [here], nofun, ?_⟩
        rw [here]
        by_cases inside : i + size / blockSize ≤ area.bits
        · have vacant := (taken_or_vacant inside).resolve_left taken
          exact .inl ⟨vacant, search_of_vacant reached vacant⟩
        · exact .inr ⟨taken, by omega, search_of_outside positive reached (by omega) taken⟩
    · refine .inr ⟨fun k within => ?_, if_neg reached⟩
      exact absurd ((Nat.le_add_right i _).trans within) reached

theorem enough_fuel :
    area.blocks < area.startBit size + (area.blocks + 1) * (size / blockSize) := by
  have := Nat.le_mul_of_pos_right (area.blocks + 1) positive
  omega

end

/-! ### Sizes and places -/

theorem bitCeil_eq_two_pow (size : Nat) : ∃ exponent, bitCeil size = 2 ^ exponent := by
  unfold bitCeil
  split
  · exact ⟨0, rfl⟩
  · exact ⟨_, rfl⟩

theorem le_bitCeil (size : Nat) : size ≤ bitCeil size := by
  unfold bitCeil
  split
  · assumption
  · have := @Nat.lt_log2_self (size - 1)
    omega

theorem two_pow_dvd_of_le {small large : Nat} (ordered : 2 ^ small ≤ 2 ^ large) :
    2 ^ small ∣ 2 ^ large :=
  pow_dvd_pow 2 ((Nat.pow_le_pow_iff_right (by decide)).mp ordered)

/-- The rounded size is a power of two, enough for the request and a whole number of blocks. -/
theorem roundUp_spec (request : Nat) : (∃ exponent, roundUp request = 2 ^ exponent) ∧
    request ≤ roundUp request ∧ blockSize ∣ roundUp request ∧ 0 < roundUp request / blockSize := by
  obtain ⟨exponent, power⟩ := bitCeil_eq_two_pow (max request blockSize)
  have bound := le_bitCeil (max request blockSize)
  have least : blockSize ≤ roundUp request := (le_max_right _ _).trans bound
  refine ⟨⟨exponent, power⟩, (le_max_left _ _).trans bound, ?_, Nat.div_pos least (by decide)⟩
  rw [show roundUp request = 2 ^ exponent from power] at least ⊢
  exact @two_pow_dvd_of_le 10 exponent least

theorem place_iff : Place area size i ↔
    i ≤ area.blocks ∧ ∃ k, i = area.startBit size + k * (size / blockSize) := by
  constructor
  · rintro ⟨start, within, divides⟩
    obtain ⟨k, steps⟩ := Nat.dvd_of_mod_eq_zero divides
    refine ⟨within, k, ?_⟩
    rw [Nat.mul_comm] at steps
    omega
  · rintro ⟨within, k, rfl⟩
    refine ⟨Nat.le_add_right _ _, within, ?_⟩
    rw [Nat.add_sub_cancel_left, Nat.mul_mod_left]

/-- The outcomes of a request: the first place no block of which is in use decides. -/
inductive Served (area : Area) (pool : Pool) (request : Nat) :
    Except Failure (Block × Pool) → Prop where
  | rounding (large : 2 ^ 31 < request) : Served area pool request (.error .bitCeil)
  | excessive (small : request ≤ 2 ^ 31) (large : area.size < roundUp request) :
      Served area pool request (.error .badAlloc)
  | vacant {i : Nat} (small : request ≤ 2 ^ 31) (place : Place area (roundUp request) i)
      (vacant : Vacant area pool (roundUp request) i)
      (passed : ∀ j < i, Place area (roundUp request) j → Taken area pool (roundUp request) j) :
      Served area pool request (.ok (⟨area.base + i * blockSize, roundUp request⟩,
        pool.take area (roundUp request) i))
  | taken (small : request ≤ 2 ^ 31)
      (all : ∀ i, Place area (roundUp request) i → Taken area pool (roundUp request) i) :
      Served area pool request (.error .badAlloc)
  | outside {i : Nat} (fits : roundUp request ≤ area.size) (place : Place area (roundUp request) i)
      (passed : ∀ j < i, Place area (roundUp request) j → Taken area pool (roundUp request) j)
      (free : ¬ Taken area pool (roundUp request) i)
      (behind : area.bits < i + roundUp request / blockSize) :
      Served area pool request (.error .outOfBitmap)

theorem allocate_served (area : Area) (pool : Pool) (request : Nat) :
    Served area pool request (allocate area pool request) := by
  obtain ⟨-, -, -, positive⟩ := roundUp_spec request
  unfold allocate
  by_cases large : 2 ^ 31 < request
  · rw [if_pos large]
    exact .rounding large
  rw [if_neg large]
  by_cases excessive : area.size < roundUp request
  · simp only [if_pos excessive]
    exact .excessive (not_lt.mp large) excessive
  simp only [if_neg excessive]
  rcases search_cases positive _ (enough_fuel positive) with
    ⟨k, within, passed, ended⟩ | ⟨all, failed⟩
  · have place := place_iff.mpr ⟨within, k, rfl⟩
    have sooner : ∀ j < area.startBit (roundUp request) + k * (roundUp request / blockSize),
        Place area (roundUp request) j → Taken area pool (roundUp request) j := by
      intro j before place
      obtain ⟨-, other, rfl⟩ := place_iff.mp place
      exact passed other (Nat.lt_of_mul_lt_mul_right (Nat.lt_of_add_lt_add_left before))
    rcases ended with ⟨vacant, found⟩ | ⟨free, outside, failed⟩
    · rw [found]
      exact .vacant (not_lt.mp large) place vacant sooner
    · rw [failed]
      rw [Nat.succ_mul, ← Nat.add_assoc] at outside
      exact .outside (not_lt.mp excessive) place sooner free outside
  · rw [failed]
    refine .taken (not_lt.mp large) fun i place => ?_
    obtain ⟨within, k, rfl⟩ := place_iff.mp place
    exact all k within

/-- A block that is returned has the rounded size, and its place was vacant. -/
theorem exists_vacant_of_allocate (returned : allocate area pool request = .ok (block, next)) :
    ∃ i, Place area (roundUp request) i ∧ Vacant area pool (roundUp request) i ∧
      block = ⟨area.base + i * blockSize, roundUp request⟩ ∧
      next = pool.take area (roundUp request) i := by
  have served := allocate_served area pool request
  rw [returned] at served
  cases served with
  | vacant small place vacant passed => exact ⟨_, place, vacant, rfl, rfl⟩

/-- A vacant place is enough for a request. -/
theorem exists_allocate_of_vacant (small : ¬ 2 ^ 31 < request)
    (fits : ¬ area.size < roundUp request) (place : Place area (roundUp request) i)
    (vacant : Vacant area pool (roundUp request) i) :
    ∃ block next, allocate area pool request = .ok (block, next) := by
  have served := allocate_served area pool request
  generalize allocate area pool request = outcome at served ⊢
  cases served with
  | rounding | excessive => contradiction
  | vacant => exact ⟨_, _, rfl⟩
  | taken _ all => exact absurd (all i place) (not_taken_of_vacant vacant)
  | outside _ _ passed _ behind =>
    have inside := vacant.1
    exact absurd (passed i (by omega) place) (not_taken_of_vacant vacant)

/-- A request that meets the condition has a block or an exception for an outcome. -/
theorem allowed_allocate_iff : Allowed area (some pool) (.allocate request) ↔
    (∃ block next, allocate area pool request = .ok (block, next)) ∨
      allocate area pool request = .error .badAlloc := by
  have served := allocate_served area pool request
  generalize allocate area pool request = outcome at served ⊢
  cases served with
  | rounding large => exact iff_of_false (fun allowed => not_lt.mpr allowed.1 large) (by simp)
  | excessive small large => exact iff_of_true ⟨small, .inl large⟩ (.inr rfl)
  | vacant small place vacant _ =>
    exact iff_of_true ⟨small, .inr (.inl ⟨_, Nat.lt_succ_of_le place.2.1, place, vacant⟩)⟩
      (.inl ⟨_, _, rfl⟩)
  | taken small all => exact iff_of_true ⟨small, .inr (.inr fun i _ => all i)⟩ (.inr rfl)
  | outside fits place passed free behind =>
    refine iff_of_false ?_ (by simp)
    rintro ⟨-, large | ⟨i, -, other, vacant⟩ | all⟩
    · exact not_lt.mpr fits large
    · have inside := vacant.1
      exact not_taken_of_vacant vacant (passed i (by omega) other)
    · exact free (all _ (Nat.lt_succ_of_le place.2.1) place)

theorem dvd_startBit (whole : blockSize ∣ size) (positive : 0 < size) :
    size ∣ area.base + area.startBit size * blockSize := by
  have base : blockSize ∣ area.base := Nat.dvd_of_mod_eq_zero area.base_aligned
  have rest : blockSize ∣ area.base % size := (Nat.dvd_mod_iff whole).mpr base
  unfold Area.startBit
  split
  · rename_i aligned
    exact Nat.dvd_of_mod_eq_zero aligned
  · rw [Nat.div_mul_cancel (Nat.dvd_sub whole rest)]
    have split := Nat.div_add_mod area.base size
    have below := Nat.mod_lt area.base positive
    refine ⟨area.base / size + 1, ?_⟩
    rw [Nat.mul_add, Nat.mul_one]
    omega

/-- The blocks at the places are aligned to their size. -/
theorem dvd_of_place (whole : blockSize ∣ size) (positive : 0 < size) (place : Place area size i) :
    size ∣ area.base + i * blockSize := by
  obtain ⟨-, k, rfl⟩ := place_iff.mp place
  rw [Nat.add_mul, Nat.mul_assoc, Nat.div_mul_cancel whole, ← Nat.add_assoc]
  exact Nat.dvd_add (dvd_startBit whole positive) (Nat.dvd_mul_left size k)

/-! ### The invariant -/

/-- The bits of a block in the bitmap. -/
structure Spans (area : Area) (block : Block) (first count : Nat) : Prop where
  address : block.address = area.base + first * blockSize
  size : block.size = count * blockSize
  positive : 0 < count
  inside : first + count ≤ area.bits

/-- The bits of the blocks in use are set, and no two blocks share one. -/
structure Good (area : Area) (pool : Pool) : Prop where
  spans : ∀ block, pool.Live block → ∃ first count, Spans area block first count ∧
    ∀ bit, first ≤ bit → bit < first + count → pool.bitmap bit = true
  disjoint : ∀ one other, pool.Live one → pool.Live other → one.address ≠ other.address →
    Disjoint one other

theorem bits_le_blocks : area.bits ≤ area.blocks := by
  unfold Area.bits Area.words Area.numBytes Area.blocks
  omega

theorem Spans.contains (spans : Spans area block first count) : area.Contains block := by
  have whole := Nat.div_mul_cancel (Nat.dvd_of_mod_eq_zero area.size_aligned)
  have bound : (first + count) * blockSize ≤ area.blocks * blockSize :=
    Nat.mul_le_mul_right _ (spans.inside.trans bits_le_blocks)
  rw [Area.blocks, whole, Nat.add_mul] at bound
  unfold Area.Contains
  rw [spans.address, spans.size]
  omega

theorem Spans.disjoint_iff (spans : Spans area one first count)
    (otherSpans : Spans area other otherFirst otherCount) :
    Disjoint one other ↔ first + count ≤ otherFirst ∨ otherFirst + otherCount ≤ first := by
  unfold Disjoint
  rw [spans.address, spans.size, otherSpans.address, otherSpans.size, Nat.add_assoc, Nat.add_assoc,
    ← Nat.add_mul, ← Nat.add_mul, Nat.add_le_add_iff_left, Nat.add_le_add_iff_left,
    Nat.mul_le_mul_right_iff (by decide), Nat.mul_le_mul_right_iff (by decide)]

/-- Blocks with no common bit are disjoint. -/
theorem Spans.disjoint
    (spans : Spans area one first count) (otherSpans : Spans area other otherFirst otherCount)
    (apart : ∀ bit, first ≤ bit → bit < first + count → otherFirst ≤ bit →
      ¬ bit < otherFirst + otherCount) : Disjoint one other := by
  have positive := spans.positive
  have otherPositive := otherSpans.positive
  rw [spans.disjoint_iff otherSpans]
  by_contra overlap
  exact apart (max first otherFirst) (by omega) (by omega) (by omega) (by omega)

theorem live_update_iff {entry : Option Nat} :
    Pool.Live ⟨bitmap, update pool.allocatedBlocks address entry⟩ block ↔
      (block.address = address ∧ entry = some block.size) ∨
        (block.address ≠ address ∧ pool.Live block) := by
  unfold Pool.Live
  by_cases same : block.address = address
  · simp [same]
  · simp [same]

theorem live_take_iff : (pool.take area size i).Live block ↔
    block = ⟨area.base + i * blockSize, size⟩ ∨
      (block.address ≠ area.base + i * blockSize ∧ pool.Live block) := by
  refine live_update_iff.trans (or_congr_left ?_)
  rw [Block.mk.injEq, some_inj]
  exact and_congr_right fun _ => eq_comm

theorem fill_of_mem (first : i ≤ bit) (last : bit < i + count) :
    fill value bitmap i count bit = value :=
  if_pos ⟨first, last⟩

theorem fill_of_notMem (outside : ¬ (i ≤ bit ∧ bit < i + count)) :
    fill value bitmap i count bit = bitmap bit :=
  if_neg outside

/-- A block at a vacant place has no bit in common with a block in use. -/
theorem Good.disjoint_of_vacant (good : Good area pool)
    (spans : Spans area block i (size / blockSize)) (vacant : Vacant area pool size i)
    (other : Block) (live : pool.Live other) : Disjoint block other := by
  obtain ⟨first, count, otherSpans, set⟩ := good.spans other live
  refine spans.disjoint otherSpans fun bit lower upper otherLower otherUpper => ?_
  have clear := vacant.2 (bit - i) (by omega)
  rw [Nat.add_sub_cancel' lower, set bit otherLower otherUpper] at clear
  cases clear

theorem spans_of_vacant (whole : blockSize ∣ size) (positive : 0 < size / blockSize)
    (vacant : Vacant area pool size i) :
    Spans area ⟨area.base + i * blockSize, size⟩ i (size / blockSize) where
  address := rfl
  size := (Nat.div_mul_cancel whole).symm
  positive := positive
  inside := vacant.1

theorem Good.take (good : Good area pool) (whole : blockSize ∣ size)
    (positive : 0 < size / blockSize) (vacant : Vacant area pool size i) :
    Good area (pool.take area size i) := by
  have spans := spans_of_vacant whole positive vacant
  have apart := good.disjoint_of_vacant spans vacant
  have kept : ∀ bit, pool.bitmap bit = true → (pool.take area size i).bitmap bit = true := by
    intro bit set
    by_cases mine : i ≤ bit ∧ bit < i + size / blockSize
    · exact fill_of_mem mine.1 mine.2
    · exact (fill_of_notMem mine).trans set
  constructor
  · intro block live
    rcases live_take_iff.mp live with rfl | ⟨-, existing⟩
    · exact ⟨i, size / blockSize, spans, fun bit => fill_of_mem⟩
    · obtain ⟨first, count, otherSpans, set⟩ := good.spans block existing
      exact ⟨first, count, otherSpans, fun bit lower upper => kept bit (set bit lower upper)⟩
  · intro one other live otherLive different
    rcases live_take_iff.mp live with rfl | ⟨-, existing⟩
    · rcases live_take_iff.mp otherLive with rfl | ⟨-, otherExisting⟩
      · contradiction
      · exact apart other otherExisting
    · rcases live_take_iff.mp otherLive with rfl | ⟨-, otherExisting⟩
      · exact (apart one existing).symm
      · exact good.disjoint one other existing otherExisting different

/-- Disjoint blocks have no bit in common. -/
theorem Spans.apart
    (spans : Spans area one first count) (otherSpans : Spans area other otherFirst otherCount)
    (disjoint : Disjoint one other) (lower : first ≤ bit) (upper : bit < first + count) :
    ¬ (otherFirst ≤ bit ∧ bit < otherFirst + otherCount) := by
  rw [spans.disjoint_iff otherSpans] at disjoint
  omega

/-- A block that was returned is given back: its bits are cleared, and no others. -/
theorem Good.deallocate_eq (good : Good area pool)
    (live : pool.allocatedBlocks address = some size) :
    ∃ first count, Spans area ⟨address, size⟩ first count ∧ deallocate area pool address =
      .ok ⟨fill false pool.bitmap first count, update pool.allocatedBlocks address none⟩ := by
  obtain ⟨first, count, spans, -⟩ := good.spans ⟨address, size⟩ live
  have firstBit : (address - area.base) / blockSize = first := by
    rw [show address = _ from spans.address, Nat.add_sub_cancel_left,
      Nat.mul_div_cancel _ (by decide)]
  have bits : size / blockSize = count := by
    rw [show size = _ from spans.size, Nat.mul_div_cancel _ (by decide)]
  refine ⟨first, count, spans, ?_⟩
  unfold deallocate
  rw [live]
  simp only [firstBit, bits]
  show (List.range' first count).foldlM (writeBit area false) pool.bitmap >>= _ = _
  rw [foldlM_writeBit spans.inside]
  rfl

theorem Good.release (good : Good area pool) (returned : pool.allocatedBlocks address ≠ none) :
    ∃ next, deallocate area pool address = .ok next ∧ Good area next := by
  obtain ⟨size, live⟩ := ne_none_iff_exists'.mp returned
  obtain ⟨first, count, spans, released⟩ := good.deallocate_eq live
  refine ⟨_, released, fun block existing => ?_, fun one other existing otherExisting => ?_⟩
  · rcases live_update_iff.mp existing with ⟨-, absent⟩ | ⟨different, existing⟩
    · cases absent
    obtain ⟨otherFirst, otherCount, otherSpans, set⟩ := good.spans block existing
    refine ⟨otherFirst, otherCount, otherSpans, fun bit lower upper => ?_⟩
    have disjoint := good.disjoint block ⟨address, size⟩ existing live different
    exact (fill_of_notMem (otherSpans.apart spans disjoint lower upper)).trans (set bit lower upper)
  · rcases live_update_iff.mp existing with ⟨-, absent⟩ | ⟨-, existing⟩
    · cases absent
    rcases live_update_iff.mp otherExisting with ⟨-, absent⟩ | ⟨-, otherExisting⟩
    · cases absent
    exact good.disjoint one other existing otherExisting

theorem allocatedBlocks_of_deallocate (released : deallocate area pool address = .ok next) :
    next.allocatedBlocks = update pool.allocatedBlocks address none := by
  unfold deallocate at released
  cases found : pool.allocatedBlocks address with
  | none =>
    rw [found] at released
    cases released
  | some size =>
    simp only [found] at released
    cases cleared : (List.range' ((address - area.base) / blockSize) (size / blockSize)).foldlM
      (clearBit area) pool.bitmap with
    | error failure =>
      rw [cleared] at released
      cases released
    | ok bitmap =>
      rw [cleared] at released
      cases released
      rfl

/-- A block that is returned is new. -/
theorem Good.allocated (good : Good area pool)
    (served : allocate area pool request = .ok (block, next)) :
    Good area next ∧ pool.allocatedBlocks block.address = none ∧ area.base ≤ block.address ∧
      next.allocatedBlocks = update pool.allocatedBlocks block.address (some block.size) := by
  obtain ⟨-, -, whole, positive⟩ := roundUp_spec request
  obtain ⟨i, -, vacant, rfl, rfl⟩ := exists_vacant_of_allocate served
  refine ⟨good.take whole positive vacant, ?_, Nat.le_add_right _ _, rfl⟩
  have spans := spans_of_vacant whole positive vacant
  rw [eq_none_iff_forall_ne_some]
  intro size live
  have apart := good.disjoint_of_vacant spans vacant ⟨_, size⟩ live
  obtain ⟨first, count, otherSpans, -⟩ := good.spans ⟨_, size⟩ live
  have same : i = first := Nat.eq_of_mul_eq_mul_right (by decide)
    (Nat.add_left_cancel (spans.address.symm.trans otherSpans.address))
  have nonempty := otherSpans.positive
  exact spans.apart otherSpans apart le_rfl (by omega) ⟨by omega, by omega⟩

/-- Bits that stay set do not belong to a block. -/
theorem Good.allocateFails (good : Good area pool)
    (failed : allocateFails area pool request = .ok next) : Good area next := by
  unfold ProcessPool.allocateFails at failed
  cases served : allocate area pool request with
  | error reason =>
    rw [served] at failed
    cases failed
  | ok answer =>
    obtain ⟨block, taken⟩ := answer
    rw [served] at failed
    cases failed
    obtain ⟨after, new, -, changed⟩ := good.allocated served
    refine ⟨fun other live => after.spans other ?_, good.disjoint⟩
    have different : other.address ≠ block.address := by
      intro same
      unfold Pool.Live at live
      rw [same] at live
      cases new.symm.trans live
    unfold Pool.Live
    rw [changed, update_of_ne different]
    exact live

/-! ### The blocks of the pool -/

theorem Good.blockRight (good : Good area pool)
    (returned : allocate area pool request = .ok (block, next)) :
    BlockRight area pool request block := by
  obtain ⟨power, enough, whole, positive⟩ := roundUp_spec request
  obtain ⟨i, place, vacant, rfl, -⟩ := exists_vacant_of_allocate returned
  have spans := spans_of_vacant whole positive vacant
  exact ⟨spans.contains, power, enough, dvd_of_place whole (Nat.pos_of_div_pos positive) place,
    good.disjoint_of_vacant spans vacant⟩

theorem eq_of_construct_eq_ok (constructed : construct area = .ok pool) :
    pool = ⟨fun _ => false, fun _ => none⟩ := by
  unfold construct at constructed
  split at constructed
  · exact (Except.ok.inj constructed).symm
  · cases constructed

theorem right_iff_allowed_construct :
    Right area none .construct ↔ Allowed area none .construct := by
  have whole : area.numBytes ≤ 4 * area.words ↔ area.numBytes % 4 = 0 := by
    unfold Area.words
    omega
  refine Iff.trans ?_ whole
  constructor
  · rintro ⟨pool, constructed⟩
    by_contra short
    rw [construct, if_neg short] at constructed
    cases constructed
  · intro covered
    exact ⟨_, if_pos covered⟩

theorem Good.right_iff_allowed (good : ∀ pool ∈ state, Good area pool) :
    Right area state label ↔ Allowed area state label := by
  cases state with
  | none =>
    cases label with
    | construct => exact right_iff_allowed_construct
    | allocate | allocateFails | deallocate => exact Iff.rfl
  | some pool =>
    have good := good pool rfl
    cases label with
    | construct => exact Iff.rfl
    | allocate request =>
      rw [allowed_allocate_iff]
      exact or_congr_left ⟨fun ⟨block, next, returned, _⟩ => ⟨block, next, returned⟩,
        fun ⟨block, next, returned⟩ => ⟨block, next, returned, good.blockRight returned⟩⟩
    | allocateFails request =>
      refine Iff.trans ?_ allowed_allocate_iff.symm
      simp only [Right, ProcessPool.allocateFails]
      cases allocate area pool request with
      | ok answer => exact iff_of_true (.inl ⟨_, rfl⟩) (.inl ⟨answer.1, answer.2, rfl⟩)
      | error => simp [Except.map]
    | deallocate address =>
      refine iff_of_true (fun returned => ?_) trivial
      obtain ⟨next, released, -⟩ := good.release returned
      exact ⟨next, released⟩

/-- The rule for a run: what holds of the empty pool and is kept by the operations that succeed
holds of the pool. -/
theorem exec_preserves {holds : Pool → Prop} (empty : holds ⟨fun _ => false, fun _ => none⟩)
    (allocated : ∀ pool request block next, holds pool →
      allocate area pool request = .ok (block, next) → holds next)
    (failed : ∀ pool request next, label = .allocateFails request → holds pool →
      allocateFails area pool request = .ok next → holds next)
    (released : ∀ pool address, holds pool → pool.allocatedBlocks address ≠ none →
      ∃ next, deallocate area pool address = .ok next ∧ holds next)
    {next : Option Pool} (kept : ∀ pool ∈ state, holds pool)
    (stepped : exec area state label = some next) : ∀ pool ∈ next, holds pool := by
  cases state with
  | none =>
    cases label with
    | construct =>
      cases constructed : construct area with
      | ok pool =>
        simp only [exec, constructed, some_inj] at stepped
        rintro _ rfl
        rw [← some_inj.mp stepped, eq_of_construct_eq_ok constructed]
        exact empty
      | error reason => simp [exec, constructed] at stepped
    | allocate | allocateFails | deallocate => cases stepped
  | some pool =>
    cases label with
    | construct => cases stepped
    | allocate request =>
      have served := allocate_served area pool request
      have allocated := allocated pool request
      simp only [exec] at stepped
      generalize allocate area pool request = outcome at served stepped allocated
      cases served with
      | rounding | outside => cases stepped
      | excessive | taken => exact some_inj.mp stepped ▸ kept
      | vacant => exact some_inj.mp stepped ▸ fun _ same =>
          some_inj.mp same ▸ allocated _ _ (kept pool rfl) rfl
    | allocateFails request =>
      cases outcome : allocateFails area pool request with
      | error reason => simp [exec, outcome] at stepped
      | ok after =>
        simp only [exec, outcome, some_inj] at stepped
        exact stepped ▸ fun _ same => some_inj.mp same ▸ failed _ _ _ rfl (kept pool rfl) outcome
    | deallocate address =>
      obtain ⟨returned, stepped⟩ := ite_none_left_eq_some.mp stepped
      obtain ⟨after, done, kept⟩ := released pool address (kept pool rfl) returned
      rw [done] at stepped
      exact some_inj.mp stepped ▸ fun _ same => some_inj.mp same ▸ kept

theorem Good.step {next : Option Pool} (good : ∀ pool ∈ state, Good area pool)
    (stepped : exec area state label = some next) : ∀ pool ∈ next, Good area pool :=
  exec_preserves ⟨nofun, nofun⟩ (fun _ _ _ _ good returned => (good.allocated returned).1)
    (fun _ _ _ _ good => good.allocateFails) (fun _ _ good => good.release) good stepped

/-- In every run whose steps meet the condition, an operation accesses the bitmap only where it is
and returns a block that is right, if it returns one, just if it meets the condition too. -/
theorem operations_are_right (area : Area) (labels : List Label) (state : Option Pool)
    (run : Run (exec area) (Allowed area) none labels state) (label : Label) :
    Right area state label ↔ Allowed area state label := by
  have good : ∀ pool ∈ state, Good area pool :=
    run.invariant (fun state => ∀ pool ∈ state, Good area pool)
      (fun _ _ _ good _ => Good.step good) nofun
  exact Good.right_iff_allowed good

/-- A pool that begins between two multiples of the size of the block that is asked for next. -/
theorem operations_are_right_reused : ∃ (area : Area) (state : Option Pool),
    (area.base = 0x20000400 ∧ area.size = 32 * 1024) ∧ Run (exec area) (Allowed area) none
        [.construct, .allocate 1500, .allocate 1024, .deallocate 0x20000800] state ∧
      Right area state (.allocate 4000) :=
  ⟨⟨0x20000400, 32 * 1024, rfl, rfl, by decide⟩,
    exists_run (fun state => Allowed _ state (.allocate 4000)) (by decide)
      fun state run allowed => ⟨⟨rfl, rfl⟩, run,
        (operations_are_right _ _ state run _).mpr allowed⟩⟩

/-- A pool of 32 blocks that are all in use: a request looks at the bit behind the last one, which
is behind the bitmap. -/
theorem full_pool_leaves_bitmap : ∃ (area : Area) (state : Option Pool),
    (area.base = 0x20000000 ∧ area.size = 32 * 1024) ∧
      Run (exec area) unrestricted none [.construct, .allocate (32 * 1024)] state ∧
      (∃ pool, state = some pool ∧ allocate area pool 1 = .error .outOfBitmap) ∧
      ¬ Right area state (.allocate 1) := by
  refine ⟨⟨0x20000000, 32 * 1024, rfl, rfl, by decide⟩, exists_run (fun state => ∃ pool ∈ state,
    failure (allocate ⟨0x20000000, 32 * 1024, rfl, rfl, by decide⟩ pool 1) = some .outOfBitmap)
    (by decide) fun state run ⟨pool, used, passed⟩ =>
      have failed := failure_eq_some_iff.mp passed
      ⟨⟨rfl, rfl⟩, run, ⟨pool, used, failed⟩, ?_⟩⟩
  rw [used]
  rintro (⟨block, next, returned, -⟩ | thrown)
  · rw [failed] at returned
    cases returned
  · rw [failed] at thrown
    cases thrown

end Miosix.ProcessPool
