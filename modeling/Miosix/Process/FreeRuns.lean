/-
This file proves when the process pool serves every request it has room for.

The bitmap and the map of the blocks describe each other: a bit is set just if a block in use
covers it. So the places at which the loop of `allocate` finds a bit that is set are those without
a free run, an aligned free run inside the pool is at one of the places, and what is given back
leaves no trace. The loop fails where it looks behind the bitmap.
-/

import Miosix.Process.Pool

namespace Miosix.ProcessPool

open Transition Function

/-! ### Free runs -/

section

variable (area : Area) (pool : Pool) (block : Block)

/-- A run of blocks inside the pool that is aligned to its size and of which none is in use. -/
structure FreeRun : Prop where
  inside : area.Contains block
  aligned : block.size ∣ block.address
  unused : ∀ other, pool.Live other → Disjoint block other

/-- The bit is the one of a kilobyte of the block. -/
def Block.Covers (bit : Nat) : Prop :=
  block.address ≤ area.base + bit * blockSize ∧
    area.base + bit * blockSize < block.address + block.size
  deriving Decidable

end

def Pool.empty : Pool := ⟨fun _ => false, fun _ => none⟩

/-- The lowest free run is returned, and giving it back undoes this, or there is none and the
exception is thrown. None that is found is refused. A block that is given back takes its own bits
with it, and the last one leaves the empty pool. -/
def Complete (area : Area) : Option Pool → Label → Prop
  | none, .construct => construct area = .ok .empty
  | some pool, .allocate request =>
      (∃ block next, allocate area pool request = .ok (block, next) ∧
        block.size = roundUp request ∧ FreeRun area pool block ∧
        (∀ other, other.size = roundUp request → FreeRun area pool other →
          block.address ≤ other.address) ∧
        deallocate area next block.address = .ok pool) ∨
      allocate area pool request = .error .badAlloc ∧
        ∀ block, block.size = roundUp request → ¬ FreeRun area pool block
  | some pool, .deallocate address => ∀ size, pool.allocatedBlocks address = some size →
      ∃ next, deallocate area pool address = .ok next ∧
        next.allocatedBlocks = update pool.allocatedBlocks address none ∧
        (∀ bit, next.bitmap bit =
          if Block.Covers area ⟨address, size⟩ bit then false else pool.bitmap bit) ∧
        (next.allocatedBlocks = (fun _ => none) → next = .empty)
  | _, .allocateFails _ => False
  | _, _ => True

/-- The map has memory for a new entry. -/
def Label.inserts : Label → Bool
  | .allocateFails _ => false
  | _ => true

/-- The condition for the safety of the pool, with memory for the map. -/
def Inserting (area : Area) (state : Option Pool) (label : Label) : Prop :=
  Allowed area state label ∧ label.inserts = true
  deriving Decidable

/-! ### The bitmap is exact -/

/-- Every bit that is set is one of a block in use. -/
structure Exact (area : Area) (pool : Pool) : Prop extends Good area pool where
  covered : ∀ bit, pool.bitmap bit = true → ∃ block, pool.Live block ∧ block.Covers area bit

variable {area : Area} {pool next : Pool} {block : Block} {request size i bit : Nat}
  {first count address : Nat}

theorem Spans.covers_iff (spans : Spans area block first count) :
    block.Covers area bit ↔ first ≤ bit ∧ bit < first + count := by
  unfold Block.Covers
  rw [spans.address, spans.size]
  unfold blockSize
  omega

theorem Exact.eq_empty (exact : Exact area pool)
    (unused : pool.allocatedBlocks = fun _ => none) : pool = .empty := by
  obtain ⟨bitmap, allocatedBlocks⟩ := pool
  obtain rfl : allocatedBlocks = fun _ => none := unused
  refine congrArg (Pool.mk · _) (funext fun bit => Bool.eq_false_of_not_eq_true fun set => ?_)
  obtain ⟨block, live, -⟩ := exact.covered bit set
  cases live

theorem Exact.allocated (exact : Exact area pool)
    (returned : allocate area pool request = .ok (block, next)) : Exact area next := by
  obtain ⟨good, new, -⟩ := exact.toGood.allocated returned
  obtain ⟨-, -, whole, positive⟩ := roundUp_spec request
  obtain ⟨i, -, vacant, rfl, rfl⟩ := exists_vacant_of_allocate returned
  refine ⟨good, fun bit set => ?_⟩
  by_cases mine : i ≤ bit ∧ bit < i + roundUp request / blockSize
  · exact ⟨_, live_take_iff.mpr (.inl rfl),
      (spans_of_vacant whole positive vacant).covers_iff.mpr mine⟩
  · obtain ⟨block, live, covers⟩ := exact.covered bit ((fill_of_notMem mine).symm.trans set)
    refine ⟨block, live_take_iff.mpr (.inr ⟨fun same => ?_, live⟩), covers⟩
    unfold Pool.Live at live
    rw [same, new] at live
    cases live

theorem Exact.release (exact : Exact area pool) (returned : pool.allocatedBlocks address ≠ none) :
    ∃ next, deallocate area pool address = .ok next ∧ Exact area next := by
  obtain ⟨size, known⟩ := Option.ne_none_iff_exists'.mp returned
  obtain ⟨after, done, good⟩ := exact.toGood.release returned
  obtain ⟨first, count, spans, released⟩ := exact.toGood.deallocate_eq known
  obtain rfl := Except.ok.inj (done.symm.trans released)
  refine ⟨_, released, good, fun bit set => ?_⟩
  by_cases mine : first ≤ bit ∧ bit < first + count
  · cases (fill_of_mem mine.1 mine.2).symm.trans set
  · obtain ⟨block, live, covers⟩ := exact.covered bit ((fill_of_notMem mine).symm.trans set)
    refine ⟨block, live_update_iff.mpr (.inr ⟨fun same => mine ?_, live⟩), covers⟩
    obtain ⟨_, blockSize⟩ := block
    obtain rfl : _ = address := same
    obtain rfl := Option.some.inj (known.symm.trans live)
    exact spans.covers_iff.mp covers

/-! ### Places and free runs -/

/-- An aligned run of blocks inside the pool is at a place the loop looks at. -/
theorem place_of_dvd (whole : blockSize ∣ size) (positive : 0 < size)
    (aligned : size ∣ area.base + i * blockSize) (within : i ≤ area.blocks) :
    Place area size i := by
  have start := @dvd_startBit area size whole positive
  have near : area.startBit size * blockSize < size := by
    unfold Area.startBit
    have below := Nat.mod_lt area.base positive
    split
    · rwa [Nat.zero_div, Nat.zero_mul]
    · exact (Nat.div_mul_le_self _ _).trans_lt (by omega)
  have first : area.startBit size ≤ i := by
    by_contra early
    have scaled := Nat.mul_lt_mul_of_pos_right (not_le.mp early) (show 0 < blockSize by decide)
    have apart := Nat.le_of_dvd (by omega) (Nat.dvd_sub start aligned)
    omega
  refine ⟨first, within, Nat.mod_eq_zero_of_dvd ?_⟩
  have scaled := Nat.mul_le_mul_right blockSize first
  have steps := Nat.dvd_sub aligned start
  rw [Nat.add_sub_add_left, ← Nat.sub_mul] at steps
  refine Nat.dvd_of_mul_dvd_mul_right (show 0 < blockSize by decide) ?_
  rwa [Nat.div_mul_cancel whole]

theorem FreeRun.exists_place (free : FreeRun area pool block) (whole : blockSize ∣ block.size)
    (positive : 0 < block.size) :
    ∃ i, Place area block.size i ∧ block.address = area.base + i * blockSize := by
  obtain ⟨lower, upper⟩ := free.inside
  have rest : blockSize ∣ block.address - area.base :=
    Nat.dvd_sub (whole.trans free.aligned) (Nat.dvd_of_mod_eq_zero area.base_aligned)
  have address : block.address =
      area.base + (block.address - area.base) / blockSize * blockSize := by
    rw [Nat.div_mul_cancel rest]
    omega
  refine ⟨_, place_of_dvd whole positive (address ▸ free.aligned) ?_, address⟩
  exact Nat.div_le_div_right (by omega)

/-- A place with a bit that is set has no free run. -/
theorem Exact.not_freeRun (exact : Exact area pool) (whole : blockSize ∣ size)
    (taken : Taken area pool size i) : ¬ FreeRun area pool ⟨area.base + i * blockSize, size⟩ := by
  intro free
  obtain ⟨j, listed, -, set⟩ := taken
  obtain ⟨block, live, lower, upper⟩ := exact.covered _ set
  have apart := free.unused block live
  obtain ⟨count, rfl⟩ := whole
  rw [Nat.mul_div_cancel_left _ (by decide)] at listed
  unfold Disjoint at apart
  unfold blockSize at *
  dsimp only at apart
  omega

/-- Giving back what was just allocated leaves the pool as it was. -/
theorem Exact.undone (exact : Exact area pool)
    (returned : allocate area pool request = .ok (block, next)) :
    deallocate area next block.address = .ok pool := by
  obtain ⟨good, new, -, changed⟩ := exact.toGood.allocated returned
  obtain ⟨-, -, whole, positive⟩ := roundUp_spec request
  have live : next.allocatedBlocks block.address = some block.size := by
    rw [changed, update_self]
  obtain ⟨first, count, spans, released⟩ := good.deallocate_eq live
  obtain ⟨i, -, vacant, rfl, rfl⟩ := exists_vacant_of_allocate returned
  have same (bit : Nat) : (first ≤ bit ∧ bit < first + count) ↔
      i ≤ bit ∧ bit < i + roundUp request / blockSize :=
    spans.covers_iff.symm.trans (spans_of_vacant whole positive vacant).covers_iff
  rw [released]
  refine congrArg Except.ok (congrArg₂ Pool.mk (funext fun bit => ?_) ?_)
  · by_cases mine : i ≤ bit ∧ bit < i + roundUp request / blockSize
    · have clear := vacant.2 (bit - i) (by omega)
      rw [Nat.add_sub_cancel' mine.1] at clear
      rw [fill, if_pos ((same bit).mpr mine), clear]
    · rw [fill, if_neg (mt (same bit).mp mine)]
      exact fill_of_notMem mine
  · show update (update pool.allocatedBlocks _ _) _ none = _
    rw [update_idem, ← new, update_eq_self]

/-! ### The result -/

theorem Exact.complete_allocate (exact : Exact area pool)
    (fine : (∃ block next, allocate area pool request = .ok (block, next)) ∨
      allocate area pool request = .error .badAlloc) :
    Complete area (some pool) (.allocate request) := by
  obtain ⟨-, -, whole, positive⟩ := roundUp_spec request
  have at_place {block : Block} (size : block.size = roundUp request)
      (free : FreeRun area pool block) : ∃ i, Place area (roundUp request) i ∧
        block.address = area.base + i * blockSize ∧
        ¬ Taken area pool (roundUp request) i := by
    obtain ⟨address, _⟩ := block
    obtain rfl : _ = roundUp request := size
    obtain ⟨i, place, rfl⟩ := free.exists_place whole (Nat.pos_of_div_pos positive)
    exact ⟨i, place, rfl, fun taken => exact.not_freeRun whole taken free⟩
  have undone := fun block next => @Exact.undone area pool next block request exact
  have served := allocate_served area pool request
  simp only [Complete]
  generalize allocate area pool request = outcome at served fine undone ⊢
  cases served with
  | rounding | outside => simp at fine
  | excessive small large =>
    refine .inr ⟨rfl, fun block size free => ?_⟩
    obtain ⟨lower, upper⟩ := free.inside
    omega
  | taken small all =>
    refine .inr ⟨rfl, fun block size free => ?_⟩
    obtain ⟨i, place, -, unused⟩ := at_place size free
    exact unused (all i place)
  | vacant small place vacant passed =>
    have spans := spans_of_vacant whole positive vacant
    refine .inl ⟨_, _, rfl, rfl, ⟨spans.contains,
      dvd_of_place whole (Nat.pos_of_div_pos positive) place,
      exact.toGood.disjoint_of_vacant spans vacant⟩, fun other size free => ?_, undone _ _ rfl⟩
    obtain ⟨i, otherPlace, address, unused⟩ := at_place size free
    by_contra sooner
    refine unused (passed i ?_ otherPlace)
    simp only [address, blockSize] at sooner
    omega

theorem Exact.complete_deallocate (exact : Exact area pool) :
    Complete area (some pool) (.deallocate address) := by
  intro size live
  obtain ⟨after, done, kept⟩ := exact.release (by rw [live]; exact Option.some_ne_none _)
  obtain ⟨first, count, spans, released⟩ := exact.toGood.deallocate_eq live
  obtain rfl := Except.ok.inj (done.symm.trans released)
  exact ⟨_, released, rfl, fun bit => if_congr spans.covers_iff.symm rfl rfl, kept.eq_empty⟩

/-- In every run whose steps meet the condition, a request below 2GB gets the lowest free run, or an
exception if there is none, and what is given back is as if it had not been allocated, just if the
operation meets the condition too. -/
theorem pool_is_complete (area : Area) (labels : List Label) (state : Option Pool)
    (run : Run (exec area) (Inserting area) none labels state) (label : Label)
    (small : ∀ request, label = .allocate request → request < 2 ^ 31) :
    Complete area state label ↔ Inserting area state label := by
  have exact : ∀ pool ∈ state, Exact area pool :=
    run.invariant (fun state => ∀ pool ∈ state, Exact area pool)
      (fun _ _ _ exact inserting stepped => exec_preserves ⟨⟨nofun, nofun⟩, nofun⟩
        (fun _ _ _ _ exact => exact.allocated)
        (fun _ _ _ fails => by simp [fails, Inserting, Label.inserts] at inserting)
        (fun _ _ exact => exact.release) exact stepped) nofun
  cases state with
  | none =>
    cases label with
    | construct =>
      refine Iff.trans ?_ (right_iff_allowed_construct.trans (and_iff_left rfl).symm)
      refine ⟨fun constructed => ⟨_, constructed⟩, fun ⟨pool, constructed⟩ => ?_⟩
      rw [eq_of_construct_eq_ok constructed] at constructed
      exact constructed
    | allocate | deallocate => exact iff_of_true trivial ⟨trivial, rfl⟩
    | allocateFails request => exact iff_of_false id fun inserting => nomatch inserting.2
  | some pool =>
    have exact := exact pool rfl
    cases label with
    | construct => exact iff_of_true trivial ⟨trivial, rfl⟩
    | allocateFails request => exact iff_of_false id fun inserting => nomatch inserting.2
    | allocate request =>
      refine Iff.trans ⟨?_, exact.complete_allocate⟩
        (allowed_allocate_iff.symm.trans (and_iff_left rfl).symm)
      rintro (⟨block, next, returned, -⟩ | ⟨thrown, -⟩)
      · exact .inl ⟨block, next, returned⟩
      · exact .inr thrown
    | deallocate address => exact iff_of_true exact.complete_deallocate ⟨trivial, rfl⟩

/-- A pool with a gap of one kilobyte, in front of which the request of 1500 bytes does not fit. -/
theorem pool_is_complete_with_gap : ∃ (area : Area) (state : Option Pool),
    (area.base = 0x20000400 ∧ area.size = 32 * 1024) ∧ Run (exec area) (Inserting area) none
        [.construct, .allocate 1, .allocate 1, .deallocate 0x20000400] state ∧
      Complete area state (.allocate 1500) := by
  refine ⟨⟨0x20000400, 32 * 1024, rfl, rfl, by decide⟩,
    exists_run (fun state => Inserting _ state (.allocate 1500)) (by decide)
      fun state run allowed => ⟨⟨rfl, rfl⟩, run,
        (pool_is_complete _ _ state run _ fun request same => ?_).mpr allowed⟩⟩
  cases same
  decide

/-- In a pool of 33 blocks the last one is free when the others are in use, but it has no bit. -/
theorem last_block_is_not_found : ∃ (area : Area) (state : Option Pool),
    (area.base = 0x20000000 ∧ area.size = 33 * 1024) ∧
      Run (exec area) unrestricted none [.construct, .allocate (32 * 1024)] state ∧
      ¬ Complete area state (.allocate 1) := by
  refine ⟨⟨0x20000000, 33 * 1024, rfl, rfl, by decide⟩, exists_run (fun state => ∃ pool ∈ state,
    failure (allocate ⟨0x20000000, 33 * 1024, rfl, rfl, by decide⟩ pool 1) = some .outOfBitmap)
    (by decide) fun state run ⟨pool, used, passed⟩ => ⟨⟨rfl, rfl⟩, run, ?_⟩⟩
  have failed := failure_eq_some_iff.mp passed
  rw [used]
  rintro (⟨block, next, returned, -⟩ | ⟨thrown, -⟩)
  · cases failed.symm.trans returned
  · cases failed.symm.trans thrown

end Miosix.ProcessPool
