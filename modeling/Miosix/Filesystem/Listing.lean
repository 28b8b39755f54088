/-
This file says when a listing of a directory is complete. A reader makes calls with buffers of any
sizes from the documented minimum on, and reads records until the terminating one or until a call
returns nothing. The filesystems keep different things between the calls, but all of them add
entries to the buffer as long as they fit, so that what is left to be listed is always the end of
one list of names. If every call gives the next names of this list, or fails, all listings are
complete.
-/

import Miosix.Filesystem.Dirents

namespace Miosix.Directories

open Filesystem List

/-! ### What a reader sees -/

variable {len room : Nat} {buffer : Buffer} {expected : List Path}

section Reader

variable {State : Type} {left : State → List Path → Prop} {directory : State} {todo : List Path}
  {record : Dirent} {lens : List Nat} {more : List (Except Int Buffer)}
  {getdents : State → Nat → Except Int Buffer × State}

/-- The answers to a sequence of calls. -/
def replies (getdents : State → Nat → Except Int Buffer × State) (directory : State) :
    List Nat → List (Except Int Buffer)
  | [] => []
  | len :: more => (getdents directory len).1 :: replies getdents (getdents directory len).2 more

/-- The records up to the terminating one, and whether the listing has ended. -/
def readRecords : List (Except Int Buffer) → List Dirent × Bool
  | [] => ([], false)
  | .error _ :: _ => ([], false)
  | .ok buffer :: more =>
      if buffer.used = 0 then ([], true)
      else if buffer.records.any fun record => record.d_reclen = 0#16 then
        (buffer.records.takeWhile fun record => record.d_reclen ≠ 0#16, true)
      else (buffer.records ++ (readRecords more).1, (readRecords more).2)

/-- The next record is found behind the name. -/
def Intact (record : Dirent) : Prop := record.d_reclen.toNat = recordLength record.d_name

/-- No name is seen too often, and all names are seen when the listing ends, which it does. -/
structure Listed (expected : List Path) (calls : Nat) (seen : List Dirent × Bool) : Prop where
  intact : ∀ record ∈ seen.1, Intact record
  once : (seen.1.map Dirent.d_name).Subperm expected
  whole : seen.2 = true → (seen.1.map Dirent.d_name).Perm expected
  ends : expected.length < calls → seen.2 = true

/-- Nothing is written past a buffer, and the names are listed or there is an error. -/
structure Complete (expected : List Path) (lens : List Nat)
    (answers : List (Except Int Buffer)) : Prop where
  bounded : List.Forall₂ (fun len answer => ∀ buffer, answer = .ok buffer → buffer.used ≤ len)
    lens answers
  listed : (∃ result, result < 0 ∧ .error result ∈ answers) ∨
    Listed expected lens.length (readRecords answers)

/-- The record for a name fits in a buffer of this size, and its size in 16 bits. -/
def Fits (room : Nat) (name : Path) : Prop :=
  recordLength name ≤ room ∧ recordLength name < 2 ^ 16

section

variable (getdents : State → Nat → Except Int Buffer × State) (opened : State)
  (expected : List Path)

/-- The listing is complete for all sequences of buffers with so much room. -/
def Lists (room : Nat) : Prop :=
  ∀ lens, (∀ len ∈ lens, room ≤ len) → Complete expected lens (replies getdents opened lens)

/-- What a call does with the names that are left. It gives some of them, or it ends. -/
inductive Delivered (buffer : Buffer) (given : List Dirent) (rest : List Path) : Prop where
  | some : buffer.records = given → given ≠ [] → 0 < buffer.used → Delivered buffer given rest
  | last : rest = [] → buffer.records = given ++ [terminatingEntry] → 0 < buffer.used →
      Delivered buffer given rest
  | nothing : rest = [] → given = [] → buffer.used = 0 → Delivered buffer given rest

/-- A call fails or gives the names that are next. -/
def CallDelivers
    (left : State → List Path → Prop) (directory : State) (todo : List Path) (len : Nat) : Prop :=
  (∃ result, result < 0 ∧ (getdents directory len).1 = .error result) ∨
  ∃ buffer given rest, (getdents directory len).1 = .ok buffer ∧
    todo = given.map Dirent.d_name ++ rest ∧ (∀ record ∈ given, Intact record) ∧
    left (getdents directory len).2 rest ∧ Delivered buffer given rest

/-- This is what all calls with so much room do. -/
def Delivers (left : State → List Path → Prop) (room : Nat) : Prop :=
  ∀ directory todo len, room ≤ len → left directory todo →
    CallDelivers getdents left directory todo len

end

theorem CallDelivers.mono {other : State → List Path → Prop}
    (call : CallDelivers getdents left directory todo len)
    (weaker : ∀ directory todo, left directory todo → other directory todo) :
    CallDelivers getdents other directory todo len := by
  refine call.imp_right ?_
  rintro ⟨buffer, given, rest, answer, split, intact, after, delivered⟩
  exact ⟨buffer, given, rest, answer, split, intact, weaker _ _ after, delivered⟩

theorem Intact.reclen_ne_zero (intact : Intact record) : record.d_reclen ≠ 0#16 := by
  intro zero
  unfold Intact recordLength direntHeaderSizeNoPadding at intact
  rw [zero] at intact
  change 0 = _ at intact
  omega

theorem readRecords_some (intact : ∀ record ∈ buffer.records, Intact record)
    (written : 0 < buffer.used) : readRecords (.ok buffer :: more) =
      (buffer.records ++ (readRecords more).1, (readRecords more).2) := by
  have unended : (buffer.records.any fun record => record.d_reclen = 0#16) = false := by
    rw [any_eq_false]
    intro record listed zero
    exact (intact record listed).reclen_ne_zero (of_decide_eq_true zero)
  rw [readRecords, if_neg (Nat.ne_of_gt written), unended, if_neg Bool.false_ne_true]

theorem readRecords_last {given : List Dirent} (intact : ∀ record ∈ given, Intact record)
    (records : buffer.records = given ++ [terminatingEntry]) (written : 0 < buffer.used)
    : readRecords (.ok buffer :: more) = (given, true) := by
  have ended : (buffer.records.any fun record => record.d_reclen = 0#16) = true := by
    rw [any_eq_true, records]
    exact ⟨terminatingEntry, mem_append_right _ mem_cons_self, rfl⟩
  have before : buffer.records.takeWhile (fun record => record.d_reclen ≠ 0#16) = given := by
    rw [records, takeWhile_append_of_pos fun record listed =>
      decide_eq_true (intact record listed).reclen_ne_zero]
    exact append_nil given
  rw [readRecords, if_neg (Nat.ne_of_gt written), ended, if_pos rfl, before]

/-- What is seen is the beginning of the names that are left, and all of them at the end. -/
theorem Delivers.seen (delivers : Delivers getdents left room) (enough : ∀ len ∈ lens, room ≤ len)
    (rest : left directory todo) :
    (∃ result, result < 0 ∧ .error result ∈ replies getdents directory lens) ∨
    ∃ later, todo = (readRecords (replies getdents directory lens)).1.map Dirent.d_name ++ later ∧
      (∀ record ∈ (readRecords (replies getdents directory lens)).1, Intact record) ∧
      ((readRecords (replies getdents directory lens)).2 = true → later = []) ∧
      (todo.length < lens.length → (readRecords (replies getdents directory lens)).2 = true) := by
  induction lens generalizing directory todo with
  | nil =>
    exact .inr ⟨todo, rfl, nofun, nofun, nofun⟩
  | cons len more inductionHypothesis =>
    rcases delivers directory todo len (enough len mem_cons_self) rest with
      ⟨result, negative, failed⟩ | ⟨buffer, given, others, answer, split, intact, after, delivered⟩
    · exact .inl ⟨result, negative, mem_cons.mpr (.inl failed.symm)⟩
    · have unfolded : replies getdents directory (len :: more) =
          .ok buffer :: replies getdents (getdents directory len).2 more := by
        rw [replies, answer]
      rw [unfolded]
      rcases inductionHypothesis (fun other listed => enough other (mem_cons_of_mem _ listed))
        after with ⟨result, negative, listed⟩ | ⟨later, same, laterIntact, whole, ends⟩
      · exact .inl ⟨result, negative, mem_cons_of_mem _ listed⟩
      · refine .inr ?_
        cases delivered with
        | some records nonempty written =>
          rw [readRecords_some (records ▸ intact) written, records]
          refine ⟨later, ?_, ?_, whole, fun fewer => ends ?_⟩
          · rw [split, same, map_append, append_assoc]
          · intro record listed
            rcases mem_append.mp listed with here | there
            · exact intact record here
            · exact laterIntact record there
          · have positive := length_pos_of_ne_nil nonempty
            rw [split, length_append, length_map, length_cons] at fewer
            omega
        | last finished records written =>
          rw [readRecords_last intact records written]
          exact ⟨[], by rw [split, finished], intact, fun _ => rfl, fun _ => rfl⟩
        | nothing finished empty unwritten =>
          have stopped : readRecords
              (.ok buffer :: replies getdents (getdents directory len).2 more) = ([], true) := by
            rw [readRecords, if_pos unwritten]
          rw [stopped]
          refine ⟨[], ?_, nofun, fun _ => rfl, fun _ => rfl⟩
          rw [split, finished, empty]

theorem replies_bounded (bounded : ∀ directory len buffer, (getdents directory len).1 = .ok buffer →
      buffer.used ≤ len) (directory : State) (lens : List Nat) :
    List.Forall₂ (fun len answer => ∀ buffer, answer = .ok buffer → buffer.used ≤ len) lens
      (replies getdents directory lens) := by
  induction lens generalizing directory with
  | nil => exact .nil
  | cons len more inductionHypothesis =>
    exact .cons (bounded directory len) (inductionHypothesis _)

theorem Delivers.lists (delivers : Delivers getdents left room)
    (bounded : ∀ directory len buffer, (getdents directory len).1 = .ok buffer →
      buffer.used ≤ len) {opened : State}
    (start : left opened expected) : Lists getdents opened expected room := by
  intro lens enough
  refine ⟨replies_bounded bounded opened lens, ?_⟩
  refine (delivers.seen enough start).imp_right ?_
  rintro ⟨later, same, intact, whole, ends⟩
  refine ⟨intact, ?_, fun ended => ?_, ends⟩
  · rw [same]
    exact (sublist_append_left _ _).subperm
  · rw [whole ended, append_nil] at same
    rw [same]

/-! ### Calls that do not fail -/

theorem replies_ok {sound : State → Prop}
    (answers : ∀ directory len, room ≤ len → sound directory →
      (∃ buffer, (getdents directory len).1 = .ok buffer) ∧ sound (getdents directory len).2)
    (enough : ∀ len ∈ lens, room ≤ len) (start : sound directory) :
    ¬ ∃ result, result < 0 ∧ .error result ∈ replies getdents directory lens := by
  induction lens generalizing directory with
  | nil => exact fun ⟨_, _, listed⟩ => absurd listed not_mem_nil
  | cons len more inductionHypothesis =>
    obtain ⟨⟨buffer, answer⟩, after⟩ := answers directory len (enough len mem_cons_self) start
    rintro ⟨result, negative, listed⟩
    rcases mem_cons.mp listed with here | later
    · rw [answer] at here
      nomatch here
    · exact inductionHypothesis (fun other listed => enough other (mem_cons_of_mem _ listed))
        after ⟨result, negative, later⟩

theorem exists_buffer_of_mem {answers : List (Except Int Buffer)}
    (seen : record ∈ (readRecords answers).1) :
    ∃ buffer, .ok buffer ∈ answers ∧ record ∈ buffer.records := by
  induction answers with
  | nil => contradiction
  | cons answer more inductionHypothesis =>
    cases answer with
    | error result => contradiction
    | ok buffer =>
      unfold readRecords at seen
      split at seen
      · contradiction
      · split at seen
        · exact ⟨buffer, mem_cons_self, (List.takeWhile_prefix _).subset seen⟩
        · rcases mem_append.mp seen with here | there
          · exact ⟨buffer, mem_cons_self, here⟩
          · obtain ⟨other, listed, inside⟩ := inductionHypothesis there
            exact ⟨other, mem_cons_of_mem _ listed, inside⟩

theorem exists_call_of_mem {answer : Except Int Buffer}
    (listed : answer ∈ replies getdents directory lens) :
    ∃ other len, len ∈ lens ∧ (getdents other len).1 = answer := by
  induction lens generalizing directory with
  | nil => contradiction
  | cons len more inductionHypothesis =>
    rcases mem_cons.mp listed with here | later
    · exact ⟨directory, len, mem_cons_self, here.symm⟩
    · obtain ⟨other, size, inside, same⟩ := inductionHypothesis later
      exact ⟨other, size, mem_cons_of_mem _ inside, same⟩

end Reader

/-! ### Buffers -/

/-- The buffer does not exceed its size, and it has the records in it. -/
structure Fitted (len : Nat) (buffer : Buffer) : Prop where
  used_le : buffer.used ≤ len
  length_le : ∀ record ∈ buffer.records, recordLength record.d_name ≤ buffer.used

theorem fitted_empty : Fitted len .empty := ⟨Nat.zero_le len, nofun⟩

theorem fitted_append {extent : Nat} {records : List Dirent}
    (fitted : Fitted len buffer) (room : buffer.used + extent ≤ len)
    (within : ∀ record ∈ records, recordLength record.d_name ≤ extent) :
    Fitted len ⟨buffer.records ++ records, buffer.used + extent⟩ := by
  refine ⟨room, fun record listed => ?_⟩
  rcases mem_append.mp listed with before | new
  · exact (fitted.length_le record before).trans (Nat.le_add_right _ _)
  · exact (within record new).trans (Nat.le_add_left _ _)

variable {entry : Entry}

theorem addEntry_eq_some {after : Buffer} (added : addEntry len buffer entry = some after) :
    buffer.used + recordLength entry.name ≤ len ∧
      after = ⟨buffer.records ++ [entry.record], buffer.used + recordLength entry.name⟩ := by
  unfold addEntry at added
  split at added
  · contradiction
  · rename_i room
    cases added
    exact ⟨not_lt.mp room, rfl⟩

theorem fitted_addEntry {after : Buffer}
    (fitted : Fitted len buffer) (added : addEntry len buffer entry = some after) :
    Fitted len after := by
  obtain ⟨room, rfl⟩ := addEntry_eq_some added
  refine fitted_append fitted room fun record listed => ?_
  rw [mem_singleton.mp listed]
  exact le_rfl

theorem fitted_addEntries (fitted : Fitted len buffer)
    (entries : List Entry) : Fitted len (addEntries len buffer entries).1 := by
  induction entries generalizing buffer with
  | nil => exact fitted
  | cons entry more inductionHypothesis =>
    unfold addEntries
    cases added : addEntry len buffer entry with
    | none => exact fitted
    | some after => exact inductionHypothesis (fitted_addEntry fitted added)

theorem fitted_default (enough : ¬ len < minimumBufferSize)
    {thisIno upIno : BitVec 32} : Fitted len (addDefaultEntries .empty thisIno upIno) := by
  refine fitted_append fitted_empty ?_ fun record listed => ?_
  · unfold minimumBufferSize at enough
    change 0 + 2 * direntHeaderSize ≤ len
    omega
  · rcases mem_cons.mp listed with rfl | other
    · exact (by decide : recordLength [.dot] ≤ 2 * direntHeaderSize)
    · rw [mem_singleton.mp other]
      exact (by decide : recordLength [.dot, .dot] ≤ 2 * direntHeaderSize)

theorem fitted_terminated (fitted : Fitted len buffer) : Fitted len (terminated len buffer) := by
  unfold terminated addTerminatingEntry
  split
  · exact fitted
  · rename_i room
    refine fitted_append fitted (not_lt.mp room) fun record listed => ?_
    rw [mem_singleton.mp listed]
    exact (by decide : recordLength terminatingEntry.d_name ≤ direntHeaderSize)

/-- If the calls do not fail, a complete listing has only names that fit. -/
theorem Lists.fits {State : Type} {getdents : State → Nat → Except Int Buffer × State}
    {opened : State} {sound : State → Prop} (lists : Lists getdents opened expected room)
    (fitted : ∀ directory len buffer, (getdents directory len).1 = .ok buffer → Fitted len buffer)
    (answers : ∀ directory len, room ≤ len → sound directory →
      (∃ buffer, (getdents directory len).1 = .ok buffer) ∧ sound (getdents directory len).2)
    (start : sound opened) : ∀ name ∈ expected, Fits room name := by
  intro name wanted
  have enough : ∀ len ∈ List.replicate (expected.length + 1) room, room ≤ len := fun len listed =>
    (eq_of_mem_replicate listed).ge
  have listed := (lists _ enough).listed.resolve_left (replies_ok answers enough start)
  have calls : expected.length < (List.replicate (expected.length + 1) room).length := by
    rw [length_replicate]
    exact Nat.lt_succ_self _
  have whole := listed.whole (listed.ends calls)
  obtain ⟨record, seen, rfl⟩ := mem_map.mp (whole.mem_iff.mpr wanted)
  obtain ⟨buffer, answered, inside⟩ := exists_buffer_of_mem seen
  obtain ⟨directory, len, called, answer⟩ := exists_call_of_mem answered
  have fits := fitted directory len buffer answer
  rw [eq_of_mem_replicate called] at fits
  refine ⟨(fits.length_le record inside).trans fits.used_le, ?_⟩
  rw [← listed.intact record seen]
  exact record.d_reclen.isLt

/-- A record of which the size can be stored. -/
theorem intact_record (short : recordLength entry.name < 2 ^ 16) : Intact entry.record := by
  unfold Intact Entry.record
  rw [BitVec.toNat_ofNat, Nat.mod_eq_of_lt short]

/-- The entries that are added are the first ones, and the next one does not fit. -/
theorem addEntries_spec (buffer : Buffer) (entries : List Entry) :
    ∃ added, entries = added ++ (addEntries len buffer entries).2 ∧
      (addEntries len buffer entries).1.records = buffer.records ++ added.map Entry.record ∧
      buffer.used ≤ (addEntries len buffer entries).1.used ∧
      (added ≠ [] → 0 < (addEntries len buffer entries).1.used) ∧
      (added = [] → (addEntries len buffer entries).1 = buffer ∧
        ∀ entry more, entries = entry :: more → len < buffer.used + recordLength entry.name) := by
  induction entries generalizing buffer with
  | nil =>
    exact ⟨[], rfl, (append_nil _).symm, le_rfl, absurd rfl, fun _ => ⟨rfl, nofun⟩⟩
  | cons entry more inductionHypothesis =>
    unfold addEntries
    cases added : addEntry len buffer entry with
    | none =>
      refine ⟨[], rfl, (append_nil _).symm, le_rfl, absurd rfl,
        fun _ => ⟨rfl, fun other others same => ?_⟩⟩
      rw [← (List.cons.inj same).1]
      unfold addEntry at added
      by_contra room
      rw [if_neg room] at added
      exact Option.some_ne_none _ added
    | some after =>
      obtain ⟨others, split, records, further, -, -⟩ := inductionHypothesis after
      obtain ⟨-, rfl⟩ := addEntry_eq_some added
      have positive : 0 < recordLength entry.name := by
        unfold recordLength direntHeaderSizeNoPadding
        omega
      dsimp only at further ⊢
      refine ⟨entry :: others, ?_, ?_, ?_, fun _ => ?_, fun empty => ?_⟩
      · rw [cons_append, ← split]
      · rw [records, append_assoc]
        rfl
      · omega
      · omega
      · contradiction

/-- The end of a listing. -/
theorem delivered_terminated (written : buffer.records ≠ [] → 0 < buffer.used)
    (room : buffer.records = [] → buffer.used + direntHeaderSize ≤ len) :
    Delivered (terminated len buffer) buffer.records [] := by
  unfold terminated addTerminatingEntry
  split
  · rename_i full
    have nonempty : buffer.records ≠ [] := fun empty => not_lt.mpr (room empty) full
    exact .some rfl nonempty (written nonempty)
  · exact .last rfl rfl (Nat.add_pos_right _ (by decide))

section

variable (first : Bool) (thisIno upIno : BitVec 32)

/-- The names of the records that are added first. -/
def heads : List Path :=
  if first then [[.dot], [.dot, .dot]] else []

/-- The buffer with which a call starts. -/
def startBuffer : Buffer :=
  if first then addDefaultEntries .empty thisIno upIno else .empty

theorem startBuffer_spec :
    (startBuffer first thisIno upIno).records.map Dirent.d_name = heads first ∧
      (∀ record ∈ (startBuffer first thisIno upIno).records, Intact record) ∧
      ((startBuffer first thisIno upIno).records ≠ [] →
        0 < (startBuffer first thisIno upIno).used) ∧
      (startBuffer first thisIno upIno).used ≤ 2 * direntHeaderSize ∧
      ((startBuffer first thisIno upIno).records = [] →
        (startBuffer first thisIno upIno).used = 0) := by
  cases first with
  | false =>
    exact ⟨rfl, nofun, absurd rfl, Nat.zero_le _, fun _ => rfl⟩
  | true =>
    refine ⟨rfl, fun record listed => ?_, fun _ => (by decide : 0 < 0 + 2 * direntHeaderSize),
      (by decide : 0 + 2 * direntHeaderSize ≤ 2 * direntHeaderSize),
      fun empty => absurd empty (cons_ne_nil _ _)⟩
    rcases mem_cons.mp listed with rfl | other
    · exact (by decide : (BitVec.ofNat 16 direntHeaderSize).toNat = recordLength [.dot])
    · rw [mem_singleton.mp other]
      exact (by decide : (BitVec.ofNat 16 direntHeaderSize).toNat = recordLength [.dot, .dot])

end

/-- A call that adds entries and ends the listing when none is left. -/
theorem delivered_entries {len : Nat} (enough : minimumBufferSize ≤ len) (first : Bool)
    (thisIno upIno : BitVec 32) {pending left : List Entry} {after : Buffer}
    (short : ∀ entry ∈ pending, recordLength entry.name < 2 ^ 16)
    (fits : first = false → ∀ entry more, pending = entry :: more → recordLength entry.name ≤ len)
    (loop : addEntries len (startBuffer first thisIno upIno) pending = (after, left)) :
    ∃ given, heads first ++ pending.map Entry.name =
        given.map Dirent.d_name ++ left.map Entry.name ∧
      (∀ record ∈ given, Intact record) ∧
      (left = [] → Delivered (terminated len after) given []) ∧
      (left ≠ [] → ∀ rest, Delivered after given rest) := by
  obtain ⟨added, split, records, further, positive, none⟩ :=
    addEntries_spec (startBuffer first thisIno upIno) pending
  obtain ⟨names, intact, written, -, unwritten⟩ := startBuffer_spec first thisIno upIno
  rw [loop] at split records further positive none
  dsimp only at split records further positive none
  have startOf (empty : after.records = []) : added = [] ∧
      (startBuffer first thisIno upIno).records = [] := by
    rw [records] at empty
    obtain ⟨start, rest⟩ := append_eq_nil_iff.mp empty
    exact ⟨map_eq_nil_iff.mp rest, start⟩
  have grown (nonempty : after.records ≠ []) : 0 < after.used := by
    by_cases new : added = []
    · rw [new, map_nil, append_nil] at records
      exact (written (records ▸ nonempty)).trans_le further
    · exact positive new
  refine ⟨after.records, ?_, fun record listed => ?_, fun done => ?_, fun more rest => ?_⟩
  · have same : (added.map Entry.record).map Dirent.d_name = added.map Entry.name := map_map
    rw [records, map_append, names, same, append_assoc, ← map_append, ← split]
  · rw [records] at listed
    rcases mem_append.mp listed with start | new
    · exact intact record start
    · obtain ⟨entry, here, rfl⟩ := mem_map.mp new
      refine intact_record (short entry ?_)
      rw [split]
      exact mem_append_left _ here
  · refine delivered_terminated grown fun empty => ?_
    obtain ⟨new, start⟩ := startOf empty
    rw [(none new).1, unwritten start]
    unfold minimumBufferSize at enough
    omega
  · have nonempty : after.records ≠ [] := by
      intro empty
      obtain ⟨new, start⟩ := startOf empty
      obtain ⟨entry, others, rfl⟩ := exists_cons_of_ne_nil more
      rw [new, nil_append] at split
      have full := (none new).2 entry others split
      rw [unwritten start, Nat.zero_add] at full
      cases first with
      | false => exact not_lt.mpr (fits rfl entry others split) full
      | true => contradiction
    exact .some rfl nonempty (grown nonempty)

end Miosix.Directories
