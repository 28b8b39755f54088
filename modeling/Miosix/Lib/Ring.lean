/-
This file is about ring buffers: an array of slots, the positions of the next slot to write and of
the next slot to read, and the number of slots in use. They hold a list.
-/

import Mathlib.Tactic

namespace Miosix

open Function

/-- A ring buffer. Only the first slots of the buffer are used. -/
structure Ring (α : Type) where
  buffer : Nat → α
  put : Nat
  get : Nat
  count : Nat

namespace Ring

variable {α : Type} {size : Nat} {ring : Ring α} {value : α} {values : List α}

/-- The position behind one, which wraps around at the end. -/
def next (size position : Nat) : Nat := if size ≤ position + 1 then 0 else position + 1

section

variable (size : Nat) (ring : Ring α)

/-- The value is written to the next slot. -/
def push (value : α) : Ring α :=
  ⟨update ring.buffer ring.put value, next size ring.put, ring.get, ring.count + 1⟩

/-- The value that is read next. -/
def front : α := ring.buffer ring.get

/-- The next slot is read. -/
def pop : Ring α :=
  { ring with get := next size ring.get, count := ring.count - 1 }

/-- What the slots in use hold, from the next one to read on. -/
structure Holds (values : List α) : Prop where
  count : ring.count = values.length
  fits : values.length ≤ size
  get : 0 < size → ring.get < size
  put : ring.put = (ring.get + ring.count) % size
  slots : ∀ k (below : k < values.length), values[k] = ring.buffer ((ring.get + k) % size)

end

theorem next_eq {position : Nat} (below : position < size) :
    next size position = (position + 1) % size := by
  unfold next
  split
  · rw [show position + 1 = size by omega, Nat.mod_self]
  · rw [Nat.mod_eq_of_lt (by omega)]

theorem Holds.empty {buffer : Nat → α} : Holds size ⟨buffer, 0, 0, 0⟩ [] :=
  ⟨rfl, Nat.zero_le _, id, (Nat.zero_mod _).symm, nofun⟩

theorem Holds.push (holds : Holds size ring values) (room : ring.count < size) :
    Holds size (ring.push size value) (values ++ [value]) := by
  obtain ⟨count, fits, get, put, slots⟩ := holds
  have positive := Nat.zero_lt_of_lt room
  have apart {k : Nat} (below : k < ring.count) : (ring.get + k) % size ≠ ring.put := by
    intro same
    have equal : k ≡ ring.count [MOD size] := Nat.ModEq.add_left_cancel' _ (same.trans put)
    exact below.ne (equal.eq_of_lt_of_lt (below.trans room) room)
  refine ⟨?_, ?_, get, ?_, fun k below => ?_⟩
  · grind [Ring.push]
  · grind
  · rw [Ring.push, next_eq (put ▸ Nat.mod_lt _ positive), put, Nat.mod_add_mod, Nat.add_assoc]
  · by_cases last : k < values.length
    · rw [List.getElem_append_left last, slots k last]
      exact (update_of_ne (apart (count ▸ last)) _ _).symm
    · obtain rfl : k = values.length := by grind
      rw [List.getElem_concat_length rfl, ← count, Ring.push, ← put]
      exact (update_self ring.put value ring.buffer).symm

theorem Holds.pop (holds : Holds size ring (value :: values)) :
    ring.front = value ∧ Holds size (ring.pop size) values := by
  obtain ⟨count, fits, get, put, slots⟩ := holds
  have positive : 0 < size := Nat.zero_lt_of_lt fits
  have wraps := next_eq (get positive)
  refine ⟨?_, ?_, Nat.le_of_succ_le fits, fun _ => ?_, ?_, fun k below => ?_⟩
  · have first := slots 0 (Nat.succ_pos _)
    rw [Nat.add_zero, Nat.mod_eq_of_lt (get positive)] at first
    exact first.symm
  · rw [Ring.pop, count, List.length_cons, Nat.add_sub_cancel]
  · rw [Ring.pop, wraps]
    exact Nat.mod_lt _ positive
  · rw [Ring.pop, put, count, wraps, Nat.mod_add_mod, List.length_cons, Nat.add_sub_cancel]
    ring_nf
  · rw [Ring.pop, wraps, Nat.mod_add_mod, Nat.add_right_comm, Nat.add_assoc]
    exact slots (k + 1) (Nat.succ_lt_succ below)

end Ring

end Miosix
