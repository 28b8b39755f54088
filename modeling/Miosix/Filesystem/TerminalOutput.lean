/-
This file embeds `TerminalDevice::write` of `filesystem/console/console_device.cpp`. The data goes
to the device in blocks, with a carriage return in front of every newline. A device may accept
fewer bytes than it is offered.

The number of bytes that a block was accepted with is compared with zero only. So the rest of a
block that is accepted in part is lost, and a block that is refused after others have been accepted
makes the call return zero.
-/

import Mathlib.Tactic

namespace Miosix.TerminalOutput

open List

/-- The blocks that were offered to the device, with its answers. -/
abbrev Log := List (List UInt8 × Int)

/-- A device answers with the number of bytes it has accepted or with an error, which may depend on
everything before. -/
structure Device where
  writeBlock : Log → List UInt8 → Int
  bounded : ∀ log block, writeBlock log block ≤ block.length

variable (device : Device)

/-- A block is offered. The call is over if the answer is not positive. -/
def Device.offer (log : Log) (block : List UInt8) : Except (Int × Log) Log :=
  let answer := device.writeBlock log block
  if answer ≤ 0 then .error (answer, log ++ [(block, answer)]) else .ok (log ++ [(block, answer)])

/-- The bytes since `start`, if there are any. -/
def Device.offerChunk (log : Log) (start : List UInt8) : Except (Int × Log) Log :=
  if start = [] then .ok log else device.offer log start

/-- The loop of `write`. The bytes since `start` have not been offered yet. -/
def writeLines (start : List UInt8) (log : Log) : List UInt8 → Except (Int × Log) Log
  | [] => device.offerChunk log start
  | byte :: buffer =>
      if byte ≠ 0x0a then writeLines (start ++ [byte]) log buffer
      else do
        let log ← device.offerChunk log start
        let log ← device.offer log [0x0d, 0x0a]
        writeLines [] log buffer

/-- `TerminalDevice::write`: the result, and what the device was offered. -/
def write (binary : Bool) (data : List UInt8) : Int × Log :=
  if binary then (device.writeBlock [] data, [(data, device.writeBlock [] data)])
  else
    match writeLines device [] [] data with
    | .ok log => (data.length, log)
    | .error result => result

/-! ### What should be written -/

/-- The bytes the device has accepted. -/
def accepted (log : Log) : List UInt8 :=
  log.flatMap fun entry => entry.1.take entry.2.toNat

/-- Every newline becomes a carriage return and a newline. -/
def translate (data : List UInt8) : List UInt8 :=
  data.flatMap fun byte => if byte = 0x0a then [0x0d, 0x0a] else [byte]

/-- If a number of bytes is returned, their translation has been accepted. -/
def Exact (data : List UInt8) (result : Int × Log) : Prop :=
  ∀ count : Nat, result.1 = count → accepted result.2 = translate (data.take count)

/-- The bytes since the last newline are a block, if there are any. -/
def chunk (start : List UInt8) : List (List UInt8) := if start = [] then [] else [start]

/-- The blocks of the data: the lines, and what every newline becomes. -/
def blocks (start : List UInt8) : List UInt8 → List (List UInt8)
  | [] => chunk start
  | byte :: data =>
      if byte ≠ 0x0a then blocks (start ++ [byte]) data
      else chunk start ++ [0x0d, 0x0a] :: blocks [] data

/-- The device accepts one block after the other as a whole, up to an error, unless it refuses the
first one. -/
def Whole : Log → List (List UInt8) → Prop
  | _, [] => True
  | log, block :: rest =>
      device.writeBlock log block < 0 ∨ device.writeBlock log block = 0 ∧ log = [] ∨
        device.writeBlock log block = block.length ∧
          Whole (log ++ [(block, (block.length : Int))]) rest

variable {device} {log : Log} {block start data : List UInt8} {offers : List (List UInt8)}

/-! ### The blocks of a call -/

theorem offerChunk_eq : device.offerChunk log start = (chunk start).foldlM device.offer log := by
  unfold Device.offerChunk chunk
  split
  · rfl
  · rw [foldlM_cons]
    exact (bind_pure _).symm

theorem writeLines_eq :
    writeLines device start log data = (blocks start data).foldlM device.offer log := by
  induction data generalizing start log with
  | nil => exact offerChunk_eq
  | cons byte data inductionHypothesis =>
    rw [writeLines, blocks]
    split
    · exact inductionHypothesis
    · rw [foldlM_append, offerChunk_eq]
      exact bind_congr fun between => bind_congr fun after => inductionHypothesis

theorem flatten_chunk : (chunk start).flatten = start := by
  unfold chunk
  split
  · rename_i empty
    exact empty.symm
  · exact flatten_singleton

theorem flatten_blocks : (blocks start data).flatten = start ++ translate data := by
  induction data generalizing start with
  | nil => exact flatten_chunk.trans (append_nil start).symm
  | cons byte data inductionHypothesis =>
    have split : translate (byte :: data) = (if byte = 0x0a then [0x0d, 0x0a] else [byte]) ++
      translate data := flatMap_cons
    rw [blocks, split]
    by_cases newline : byte = 0x0a
    · rw [if_neg (not_not.mpr newline), if_pos newline, flatten_append, flatten_chunk, flatten_cons,
        inductionHypothesis, List.nil_append]
    · rw [if_pos newline, if_neg newline, inductionHypothesis, append_assoc]

theorem ne_nil_of_mem_blocks (listed : block ∈ blocks start data) : block ≠ [] := by
  have some : ∀ {start block : List UInt8}, block ∈ chunk start → block ≠ [] := by
    intro start block listed
    unfold chunk at listed
    split at listed
    · cases listed
    · rwa [mem_singleton.mp listed]
  induction data generalizing start with
  | nil => exact some listed
  | cons byte data inductionHypothesis =>
    rw [blocks] at listed
    split at listed
    · exact inductionHypothesis listed
    · rcases mem_append.mp listed with before | behind
      · exact some before
      · rcases mem_cons.mp behind with rfl | later
        · exact cons_ne_nil _ _
        · exact inductionHypothesis later

/-! ### Accepted bytes -/

theorem accepted_concat {answer : Int} :
    accepted (log ++ [(block, answer)]) = accepted log ++ block.take answer.toNat := by
  unfold accepted
  rw [flatMap_append, flatMap_singleton]

theorem accepted_whole :
    accepted (log ++ [(block, (block.length : Int))]) = accepted log ++ block := by
  rw [accepted_concat, Int.toNat_natCast, take_length]

/-- What is accepted of the text is all of it, or nothing if the call returns zero. -/
def Faithful (text : List UInt8) : Except (Int × Log) Log → Prop
  | .ok log => accepted log = text
  | .error (answer, log) => answer = 0 → accepted log = []

/-- No more is accepted than is offered, and what has been accepted stays so. -/
def Bounded (before : Log) (text : List UInt8) : Except (Int × Log) Log → Prop
  | .ok log => (accepted log).length ≤ (accepted before).length + text.length
  | .error (answer, log) => answer ≤ 0 ∧ (accepted log = [] → accepted before = [])

theorem foldlM_offer_cons : (block :: offers).foldlM device.offer log =
    if device.writeBlock log block ≤ 0 then
      .error (device.writeBlock log block, log ++ [(block, device.writeBlock log block)])
    else offers.foldlM device.offer (log ++ [(block, device.writeBlock log block)]) := by
  rw [foldlM_cons, Device.offer]
  split <;> rfl

theorem bounded_offers : Bounded log offers.flatten (offers.foldlM device.offer log) := by
  induction offers generalizing log with
  | nil => exact le_rfl
  | cons block rest inductionHypothesis =>
    rw [foldlM_offer_cons]
    split
    · rename_i refused
      refine ⟨refused, fun empty => ?_⟩
      rw [accepted_concat] at empty
      exact (append_eq_nil_iff.mp empty).1
    · have later := @inductionHypothesis (log ++ [(block, device.writeBlock log block)])
      cases outcome : rest.foldlM device.offer (log ++ [(block, device.writeBlock log block)]) with
      | ok final =>
        rw [outcome] at later
        simp only [Bounded, accepted_concat, flatten_cons, length_append, length_take] at later ⊢
        omega
      | error answered =>
        rw [outcome, Bounded, accepted_concat] at later
        exact ⟨later.1, fun empty => (append_eq_nil_iff.mp (later.2 empty)).1⟩

section

variable (some : ∀ block ∈ offers, block ≠ [])
include some

theorem faithful_of_whole (whole : Whole device log offers) :
    Faithful (accepted log ++ offers.flatten) (offers.foldlM device.offer log) := by
  induction offers generalizing log with
  | nil => exact (append_nil _).symm
  | cons block rest inductionHypothesis =>
    obtain ⟨here, others⟩ := forall_mem_cons.mp some
    have positive := length_pos_iff.mpr here
    rw [foldlM_offer_cons]
    rcases whole with failed | ⟨refused, rfl⟩ | ⟨full, later⟩
    · rw [if_pos failed.le]
      exact fun zero => absurd zero failed.ne
    · rw [if_pos refused.le, refused]
      exact fun _ => rfl
    · rw [if_neg (by omega), full, flatten_cons, ← append_assoc, ← accepted_whole]
      exact inductionHypothesis others later

theorem whole_of_faithful (kept : accepted log = [] → log = [])
    (faithful : Faithful (accepted log ++ offers.flatten) (offers.foldlM device.offer log))
    (returns : ∀ answer final, offers.foldlM device.offer log = .error (answer, final) →
      0 ≤ answer) : Whole device log offers := by
  induction offers generalizing log with
  | nil => trivial
  | cons block rest inductionHypothesis =>
    obtain ⟨here, others⟩ := forall_mem_cons.mp some
    have positive := length_pos_iff.mpr here
    have most := device.bounded log block
    rw [foldlM_offer_cons] at faithful returns
    split at faithful
    · rename_i refused
      rw [if_pos refused] at returns
      have zero := le_antisymm refused (returns _ _ rfl)
      have nothing := faithful zero
      rw [accepted_concat] at nothing
      exact .inr (.inl ⟨zero, kept (append_eq_nil_iff.mp nothing).1⟩)
    · rename_i taken
      rw [if_neg taken] at returns
      have later := @bounded_offers device (log ++ [(block, device.writeBlock log block)]) rest
      have found : accepted (log ++ [(block, device.writeBlock log block)]) ≠ [] := by
        intro empty
        rw [accepted_concat] at empty
        have short := congrArg length (append_eq_nil_iff.mp empty).2
        rw [length_take, length_nil] at short
        omega
      have full : device.writeBlock log block = block.length := by
        cases outcome : rest.foldlM device.offer
          (log ++ [(block, device.writeBlock log block)]) with
        | ok final =>
          rw [outcome] at later faithful
          have all := congrArg length faithful
          simp only [Bounded, accepted_concat, flatten_cons, length_append, length_take]
            at later all
          omega
        | error answered =>
          rw [outcome] at later faithful
          have zero := le_antisymm later.1 (returns _ _ outcome)
          exact absurd (later.2 (faithful zero)) found
      rw [full] at faithful returns found
      rw [flatten_cons, ← append_assoc, ← accepted_whole] at faithful
      exact .inr (.inr ⟨full, inductionHypothesis others (fun empty => absurd empty found) faithful
        returns⟩)

end

/-- In text mode the translation of as many bytes as are returned has been accepted if the device
accepts the blocks of the data as a whole, up to an error, or refuses the first one. A call that
returns no error is right only then. -/
theorem text_is_translated (device : Device) (data : List UInt8) :
    (Whole device [] (blocks [] data) → Exact data (write device false data)) ∧
    (0 ≤ (write device false data).1 → Exact data (write device false data) →
      Whole device [] (blocks [] data)) := by
  have some : ∀ block ∈ blocks [] data, block ≠ [] := fun block => ne_nil_of_mem_blocks
  have text : accepted [] ++ (blocks [] data).flatten = translate data := flatten_blocks
  have bounded := @bounded_offers device [] (blocks [] data)
  have result : write device false data = match (blocks [] data).foldlM device.offer [] with
      | .ok log => (data.length, log)
      | .error result => result := by
    rw [write, if_neg Bool.false_ne_true, writeLines_eq]
  have exact_iff : Exact data (write device false data) ↔
      Faithful (translate data) ((blocks [] data).foldlM device.offer []) := by
    rw [result]
    cases outcome : (blocks [] data).foldlM device.offer [] with
    | ok log =>
      refine ⟨fun exact => ?_, fun faithful count same => ?_⟩
      · have all := exact data.length rfl
        rwa [take_length] at all
      · rw [← Int.natCast_inj.mp same, take_length]
        exact faithful
    | error answered =>
      rw [outcome] at bounded
      refine ⟨fun exact zero => exact 0 zero, fun faithful count same => ?_⟩
      have zero : count = 0 := by
        have := bounded.1
        have : answered.1 = count := same
        omega
      subst zero
      exact faithful same
  rw [exact_iff, ← text]
  refine ⟨faithful_of_whole some, fun returned faithful => ?_⟩
  refine whole_of_faithful some (fun _ => rfl) faithful fun answer final outcome => ?_
  rwa [result, outcome] at returned

/-- A device that accepts everything. -/
theorem text_is_translated_by_sink : ∃ device : Device,
    Exact [0x61, 0x0a, 0x62] (write device false [0x61, 0x0a, 0x62]) ∧
      accepted (write device false [0x61, 0x0a, 0x62]).2 = [0x61, 0x0d, 0x0a, 0x62] :=
  ⟨⟨fun _ block => block.length, fun _ _ => le_rfl⟩, (text_is_translated _ _).1
    (.inr (.inr ⟨rfl, .inr (.inr ⟨rfl, .inr (.inr ⟨rfl, trivial⟩)⟩)⟩)), rfl⟩

/-- A device that accepts one byte at a time. The call returns two, and one byte has been
accepted. -/
theorem short_write_loses_bytes : ∃ device : Device, (write device false [0x61, 0x62]).1 = 2 ∧
      accepted (write device false [0x61, 0x62]).2 = [0x61] ∧
      ¬ Exact [0x61, 0x62] (write device false [0x61, 0x62]) := by
  refine ⟨⟨fun _ block => min 1 block.length, fun _ _ => min_le_right _ _⟩, rfl, rfl,
    fun exact => ?_⟩
  exact absurd (exact 2 rfl) (by decide)

end Miosix.TerminalOutput
