/-
This file settles when the listings of `LittleFS` are complete, and states the result for the four
filesystems. The library remembers its position, and an entry that did not fit is kept for the next
call, which fails if it does not fit again. So no entry is lost. But the library gives `.` and `..`
for the root directory as well, although the code adds them itself.
-/

import Miosix.Filesystem.MapListing
import Miosix.Filesystem.RomListing

namespace Miosix.Directories

open Filesystem List

/-! ### Reads of the library -/

namespace LittleFs

open Miosix.LittleFs

variable {content : Content} {level : Level} {parentFsMountpointInode : BitVec 32}
  {fault : Nat → Int} {front pending : List LfsInfo} {len fuel room : Nat}
  {directory : LittleFSDirectory} {buffer : Buffer}

def names (content : Content) : List Path := heads true ++ content.children.map LfsInfo.name

theorem map_name_toEntry (level : Level) (children : List LfsInfo) :
    (children.map (toEntry level)).map Entry.name = children.map LfsInfo.name :=
  map_map

theorem short_infos : ∀ info ∈ infos content, recordLength info.name < 2 ^ 16 := by
  intro info listed
  rcases mem_cons.mp listed with rfl | later
  · exact (by decide : recordLength [.dot] < 2 ^ 16)
  · rcases mem_cons.mp later with rfl | child
    · exact (by decide : recordLength [.dot, .dot] < 2 ^ 16)
    · have few := content.short info child
      unfold LFS_NAME_MAX at few
      unfold recordLength direntHeaderSizeNoPadding
      omega

/-- A read that does not fail gives the next entry, or the end. -/
theorem lfs_dir_read_cases (content : Content) (fault : Nat → Int) (directory : LittleFSDirectory)
    (split : infos content = front ++ pending) (place : directory.pos = front.length) :
    (lfs_dir_read content fault directory).1 < 0 ∨
    (pending = [] ∧ (lfs_dir_read content fault directory).1 = 0 ∧
      (lfs_dir_read content fault directory).2.pos = front.length ∧
      (lfs_dir_read content fault directory).2.directoryTraversalUnfinished =
        directory.directoryTraversalUnfinished) ∨
    ∃ info more, pending = info :: more ∧ (lfs_dir_read content fault directory).1 = 1 ∧
      (lfs_dir_read content fault directory).2.pos = front.length + 1 ∧
      (lfs_dir_read content fault directory).2.dirInfo = info ∧
      (lfs_dir_read content fault directory).2.directoryTraversalUnfinished =
        directory.directoryTraversalUnfinished := by
  unfold lfs_dir_read
  by_cases failed : fault directory.reads < 0
  · rw [if_pos failed]
    exact .inl failed
  · rw [if_neg failed, split, place]
    cases pending with
    | nil =>
      rw [append_nil, List.getElem?_eq_none le_rfl]
      exact .inr (.inl ⟨rfl, rfl, rfl, rfl⟩)
    | cons info more =>
      rw [List.getElem?_append_right le_rfl, Nat.sub_self]
      exact .inr (.inr ⟨info, more, rfl, rfl, rfl, rfl, rfl⟩)

/-- The state behind a call: at the end, or with an entry that did not fit. -/
def After (content : Content) (front : List LfsInfo) (left : List LfsInfo)
    (directory : LittleFSDirectory) : Prop :=
  (left = [] ∧ directory.pos = (infos content).length ∧
    directory.directoryTraversalUnfinished = false) ∨
  ∃ info more, left = info :: more ∧ directory.pos = front.length + 1 ∧
    directory.dirInfo = info ∧ directory.directoryTraversalUnfinished = true

/-- The loop adds entries from the position of the library on, unless a read fails. -/
theorem listFrom_cases (split : infos content = front ++ pending)
    (place : directory.pos = front.length)
    (fresh : directory.directoryTraversalUnfinished = false) (enough : pending.length < fuel)
    (buffer : Buffer) : (∃ result, result < 0 ∧
      (listFrom content level fault len fuel directory buffer).1 = .error result) ∨
    ∃ added left after, pending = added ++ left ∧
      addEntries len buffer (pending.map (toEntry level)) = (after, left.map (toEntry level)) ∧
      (listFrom content level fault len fuel directory buffer).1 =
        .ok (if left = [] then terminated len after else after) ∧
      After content (front ++ added) left
        (listFrom content level fault len fuel directory buffer).2 := by
  induction pending generalizing front directory buffer fuel with
  | nil =>
    obtain ⟨fuel, rfl⟩ := Nat.exists_eq_succ_of_ne_zero (Nat.ne_of_gt enough)
    rw [listFrom]
    rcases lfs_dir_read_cases content fault directory split place with
      failed | ⟨-, ended, after, kept⟩ | ⟨_, _, impossible, -⟩
    · refine .inl ⟨_, lfsErrorToPosix_neg failed, ?_⟩
      rw [if_neg (not_lt.mpr failed.le), if_pos failed]
    · rw [ended, if_neg (lt_irrefl 0), if_neg (lt_irrefl 0)]
      refine .inr ⟨[], [], buffer, rfl, rfl, rfl, .inl ⟨rfl, ?_, kept.trans fresh⟩⟩
      rw [after, split, append_nil]
    · contradiction
  | cons info more inductionHypothesis =>
    obtain ⟨fuel, rfl⟩ := Nat.exists_eq_succ_of_ne_zero (Nat.ne_of_gt (Nat.zero_lt_of_lt enough))
    rw [listFrom]
    rcases lfs_dir_read_cases content fault directory split place with
      failed | ⟨impossible, -⟩ | ⟨first, others, same, read, after, told, kept⟩
    · refine .inl ⟨_, lfsErrorToPosix_neg failed, ?_⟩
      rw [if_neg (not_lt.mpr failed.le), if_pos failed]
    · contradiction
    · cases same
      dsimp only
      rw [read, if_pos zero_lt_one, told, map_cons, addEntries]
      cases new : addEntry len buffer (toEntry level info) with
      | none =>
        refine .inr ⟨[], info :: more, buffer, rfl, rfl, rfl, .inr ⟨info, more, rfl, ?_, rfl, rfl⟩⟩
        rw [append_nil]
        exact after
      | some extended =>
        have further : (front ++ [info]).length = front.length + 1 := length_append
        rcases inductionHypothesis (split.trans (append_cons front info more))
          (after.trans further.symm) (kept.trans fresh) (Nat.lt_of_succ_lt_succ enough)
          extended with failed | ⟨added, left, last, parts, loop, answer, behind⟩
        · exact .inl failed
        · refine .inr ⟨info :: added, left, last, congrArg (info :: ·) parts, loop, answer, ?_⟩
          rw [append_assoc] at behind
          exact behind

/-- The names that are left in an open directory. -/
inductive Left (content : Content) : LittleFSDirectory → List Path → Prop where
  | start {directory : LittleFSDirectory} : directory.pos = 0 →
      directory.directoryTraversalUnfinished = false → Left content directory (names content)
  | behind {directory : LittleFSDirectory} {front left : List LfsInfo} :
      infos content = front ++ left → After content front left directory →
        Left content directory (left.map LfsInfo.name)

/-- A call whose loop has the effect of adding entries to an empty buffer. -/
theorem delivers_of_listFrom {directory moved : LittleFSDirectory} {len fuel : Nat}
    (large : minimumBufferSize ≤ len) {front pending whole : List LfsInfo} {buffer : Buffer}
    (split : infos content = front ++ pending) (place : moved.pos = front.length)
    (fresh : moved.directoryTraversalUnfinished = false) (enough : pending.length < fuel)
    (inside : ∀ info ∈ whole, info ∈ infos content)
    (fits : ∀ info more, whole = info :: more → recordLength info.name ≤ len)
    (same : addEntries len .empty (whole.map (toEntry level)) =
      addEntries len buffer (pending.map (toEntry level)))
    (call : getdents content level parentFsMountpointInode fault directory len =
      listFrom content level fault len fuel moved buffer) :
    CallDelivers (getdents content level parentFsMountpointInode fault) (Left content) directory
      (whole.map LfsInfo.name) len := by
  unfold CallDelivers
  rw [call]
  refine (listFrom_cases split place fresh enough buffer).imp_right ?_
  rintro ⟨added, left, last, parts, loop, answer, after⟩
  rw [← same] at loop
  have short : ∀ entry ∈ whole.map (toEntry level), recordLength entry.name < 2 ^ 16 := by
    rw [forall_mem_map]
    exact fun info listed => short_infos info (inside info listed)
  have first : false = false → ∀ entry more, whole.map (toEntry level) = entry :: more →
      recordLength entry.name ≤ len := by
    intro _ entry more head
    obtain ⟨info, others, rfl, rfl, -⟩ := map_eq_cons_iff.mp head
    exact fits info others rfl
  obtain ⟨given, listed, intact, ends, some⟩ :=
    @delivered_entries len large false 0#32 0#32 _ _ _ short first loop
  rw [map_name_toEntry, map_name_toEntry] at listed
  rw [parts, ← append_assoc] at split
  refine ⟨_, given, left.map LfsInfo.name, answer, listed, intact, .behind split after, ?_⟩
  by_cases done : left = []
  · rw [if_pos done, done]
    exact ends (by rw [done]; rfl)
  · rw [if_neg done]
    exact some (fun empty => done (map_eq_nil_iff.mp empty)) _

theorem getdents_delivers (enough : minimumBufferSize ≤ room) (inner : level ≠ .rootDirectory) :
    Delivers (getdents content level parentFsMountpointInode fault) (Left content) room := by
  intro directory todo len within left
  have large := enough.trans within
  have outer {condition : Prop} : ¬ (condition ∧ level = .rootDirectory) := fun both => inner both.2
  have call (fresh : directory.directoryTraversalUnfinished = false) :
      getdents content level parentFsMountpointInode fault directory len =
        listFrom content level fault len ((infos content).length + 1) directory .empty := by
    unfold getdents
    rw [if_neg (not_lt.mpr large), if_neg outer, fresh, if_neg Bool.false_ne_true]
  cases left with
  | start place fresh =>
    refine @delivers_of_listFrom _ _ _ _ directory directory len _ large [] (infos content)
      (infos content) _ rfl place fresh (Nat.lt_succ_self _) (fun _ listed => listed) ?_ rfl
      (call fresh)
    intro info more head
    rw [← (List.cons.inj head).1]
    exact (by decide : recordLength [.dot] ≤ minimumBufferSize).trans large
  | behind split after =>
    rename_i front others
    rcases after with ⟨rfl, place, fresh⟩ | ⟨info, more, rfl, place, told, unfinished⟩
    · refine @delivers_of_listFrom _ _ _ _ directory directory len _ large (infos content) [] [] _
        (append_nil _).symm place fresh (Nat.succ_pos _)
        nofun
        nofun rfl (call fresh)
    · cases added : addEntry len .empty (toEntry level info) with
      | none =>
        refine .inl ⟨-EINVAL, by decide, ?_⟩
        unfold getdents
        rw [if_neg (not_lt.mpr large), if_neg outer, unfinished, if_pos rfl]
        dsimp only
        rw [told, added]
      | some buffer =>
        have loop : getdents content level parentFsMountpointInode fault directory len =
            listFrom content level fault len ((infos content).length + 1)
              { directory with directoryTraversalUnfinished := false } buffer := by
          unfold getdents
          rw [if_neg (not_lt.mpr large), if_neg outer, unfinished, if_pos rfl]
          dsimp only
          rw [told, added]
        have whole := split.trans (append_cons front info more)
        have further : (front ++ [info]).length = front.length + 1 := length_append
        have fuel : more.length < (infos content).length + 1 := by
          rw [whole, length_append]
          omega
        refine @delivers_of_listFrom _ _ _ _ directory
          { directory with directoryTraversalUnfinished := false } len _ large (front ++ [info])
          more (info :: more) buffer whole (place.trans further.symm) rfl fuel
          (fun other listed => split ▸ mem_append_right _ listed) ?_ ?_ loop
        · intro other others head
          rw [← (List.cons.inj head).1]
          exact (Nat.zero_add _).symm.le.trans (addEntry_eq_some added).1
        · rw [map_cons, addEntries, added]

theorem listFrom_fitted {after : Buffer} (fitted : Fitted len buffer)
    (answer : (listFrom content level fault len fuel directory buffer).1 = .ok after) :
    Fitted len after := by
  induction fuel generalizing directory buffer with
  | zero =>
    cases answer
    exact fitted
  | succ fuel inductionHypothesis =>
    unfold listFrom at answer
    dsimp only at answer
    split at answer
    · split at answer
      · cases answer
        exact fitted
      · rename_i added
        exact inductionHypothesis (fitted_addEntry fitted added) answer
    · split at answer
      · nomatch answer
      · cases answer
        exact fitted_terminated fitted

theorem getdents_fitted
    (answer : (getdents content level parentFsMountpointInode fault directory len).1 =
      .ok buffer) : Fitted len buffer := by
  unfold getdents at answer
  split at answer
  · nomatch answer
  · rename_i enough
    have start : Fitted len (if directory.directoryTraversalUnfinished = false ∧
        level = .rootDirectory then addDefaultEntries .empty 1#32 parentFsMountpointInode
        else .empty) := by
      split
      · exact fitted_default enough
      · exact fitted_empty
    dsimp only at answer
    split at answer
    · split at answer
      · nomatch answer
      · rename_i added
        exact listFrom_fitted (fitted_addEntry start added) answer
    · exact listFrom_fitted start answer

theorem terminated_extends : buffer.records <+: (terminated len buffer).records ∧
      buffer.used ≤ (terminated len buffer).used := by
  unfold terminated addTerminatingEntry
  split
  · exact ⟨prefix_rfl, le_rfl⟩
  · exact ⟨prefix_append _ _, Nat.le_add_right _ _⟩

/-- Without faults the loop answers with what is in the buffer, and more. -/
theorem listFrom_extends (sane : ∀ count, ¬ fault count < 0) (len fuel : Nat)
    (directory : LittleFSDirectory) (buffer : Buffer) :
    ∃ after, (listFrom content level fault len fuel directory buffer).1 = .ok after ∧
      buffer.records <+: after.records ∧ buffer.used ≤ after.used := by
  induction fuel generalizing directory buffer with
  | zero => exact ⟨buffer, rfl, prefix_rfl, le_rfl⟩
  | succ fuel inductionHypothesis =>
    have read : ¬ (lfs_dir_read content fault directory).1 < 0 := by
      unfold lfs_dir_read
      rw [if_neg (sane directory.reads)]
      split
      · exact (by decide : ¬ (1 : Int) < 0)
      · exact lt_irrefl 0
    rw [listFrom]
    split
    · split
      · exact ⟨buffer, rfl, prefix_rfl, le_rfl⟩
      · rename_i extended added
        obtain ⟨after, answer, records, used⟩ :=
          inductionHypothesis (lfs_dir_read content fault directory).2 extended
        obtain ⟨-, rfl⟩ := addEntry_eq_some added
        exact ⟨after, answer, (prefix_append _ _).trans records,
          (Nat.le_add_right _ _).trans used⟩
    · exact ⟨_, rfl, terminated_extends⟩

/-- Intact records at the beginning of an answer are seen. -/
theorem prefix_readRecords {given : List Dirent}
    (intact : ∀ record ∈ given, Intact record) (front : given <+: buffer.records)
    (written : 0 < buffer.used) : given <+: (readRecords [.ok buffer]).1 := by
  obtain ⟨more, same⟩ := front
  rw [readRecords, if_neg (Nat.ne_of_gt written)]
  split
  · rw [← same, takeWhile_append_of_pos fun record listed =>
      decide_eq_true (intact record listed).reclen_ne_zero]
    exact prefix_append _ _
  · rw [← same, append_assoc]
    exact prefix_append _ _

/-- In the root directory `.` is listed twice. -/
theorem not_lists_root (enough : minimumBufferSize ≤ room) :
    ¬ Lists (getdents content .rootDirectory parentFsMountpointInode fun _ => 0) opened
      (names content) room := by
  intro lists
  have single : ∀ len ∈ [room], room ≤ len := fun len listed => (mem_singleton.mp listed).ge
  have fits : ¬ room < 2 * direntHeaderSize + recordLength [.dot] :=
    not_lt.mpr ((by decide : 2 * direntHeaderSize + recordLength [.dot] ≤
      minimumBufferSize).trans enough)
  let start := startBuffer true 1#32 parentFsMountpointInode
  let third := toEntry .rootDirectory ⟨false, content.ownBlock, [.dot]⟩
  let seen := start.records ++ [third.record]
  obtain ⟨after, loop, records, used⟩ := @listFrom_extends content .rootDirectory (fun _ => 0)
    (fun _ => lt_irrefl 0) room (infos content).length
    ⟨1, 1, false, ⟨false, content.ownBlock, [.dot]⟩⟩ ⟨seen, start.used + recordLength [.dot]⟩
  have read : lfs_dir_read content (fun _ => 0) opened =
      (1, ⟨1, 1, false, ⟨false, content.ownBlock, [.dot]⟩⟩) := rfl
  have added : addEntry room start (toEntry .rootDirectory ⟨false, content.ownBlock, [.dot]⟩) =
      some ⟨seen, start.used + recordLength [.dot]⟩ := if_neg fits
  have answer : (getdents content .rootDirectory parentFsMountpointInode (fun _ => 0) opened
      room).1 = .ok after := by
    unfold getdents
    rw [if_neg (not_lt.mpr enough)]
    change (listFrom content .rootDirectory (fun _ => 0) room ((infos content).length + 1) opened
      start).1 = _
    rw [listFrom, read]
    rw [if_pos zero_lt_one, added]
    exact loop
  have intact : ∀ record ∈ seen, Intact record := by
    intro record listed
    rcases mem_append.mp listed with default | new
    · exact (startBuffer_spec true 1#32 parentFsMountpointInode).2.1 record default
    · rw [mem_singleton.mp new]
      exact intact_record (by decide : recordLength [.dot] < 2 ^ 16)
  have complete := lists _ single
  have written : 0 < after.used :=
    Nat.lt_of_lt_of_le (by decide : 0 < 0 + 2 * direntHeaderSize + recordLength [.dot]) used
  have replied : replies (getdents content .rootDirectory parentFsMountpointInode fun _ => 0)
      opened [room] = [.ok after] := by
    rw [replies, answer]
    rfl
  rw [replied] at complete
  have listed := complete.listed.resolve_left (by
    rintro ⟨_, _, failed⟩
    cases mem_singleton.mp failed)
  have twice := ((prefix_readRecords intact records written).sublist.map Dirent.d_name).count_le
    [Letter.dot]
  have once := listed.once.count_le [Letter.dot]
  have absent : [Letter.dot] ∉ content.children.map LfsInfo.name := by
    intro inside
    obtain ⟨child, here, same⟩ := mem_map.mp inside
    exact (content.named child here).1 same
  have expected : (names content).count [Letter.dot] = 1 := by
    unfold names
    rw [count_append, count_eq_zero_of_not_mem absent]
    rfl
  have given : (seen.map Dirent.d_name).count [Letter.dot] = 2 := rfl
  omega

theorem lists_iff (content : Content) (level : Level) (parentFsMountpointInode : BitVec 32)
    (enough : minimumBufferSize ≤ room) :
    (∀ fault, Lists (getdents content level parentFsMountpointInode fault) opened (names content)
        room) ↔ level ≠ .rootDirectory := by
  constructor
  · rintro lists rfl
    exact not_lists_root enough (lists fun _ => 0)
  · intro inner fault
    exact (getdents_delivers enough inner).lists
      (fun _ _ _ answer => (getdents_fitted answer).used_le) (.start rfl rfl)

end LittleFs

/-! ### The result -/

/-- For every lower bound of the sizes of the buffers that is at least the documented minimum, the
listings of a directory are complete for all sequences of such buffers if and only if: in
`MountpointFs`, `DevFs` and `RomFs` every record fits in a buffer of this size, and its size in 16
bits; in `MountpointFs` no name is empty; and in `LittleFS` it is not the root directory. -/
theorem listing_complete_iff {room : Nat} (enough : minimumBufferSize ≤ room) :
    (∀ content currentInode parentInode root,
      Lists (MountpointFs.getdents content currentInode parentInode)
          (MountpointFs.opened content root) (MountpointFs.names content root) room ↔
        (root = true → ∀ dir ∈ content.dirs, dir.1 ≠ [] ∧ Fits room dir.1)) ∧
    (∀ content currentInode parentInode,
      Lists (DevFs.getdents content currentInode parentInode) (DevFs.opened content)
          (DevFs.names content) room ↔
        ∀ file ∈ content.files, Fits room file.1) ∧
    (∀ content parentInode,
      Lists (RomFs.getdents content parentInode) 0 (RomFs.names content) room ↔
        ∀ child ∈ content.children, Fits room child.name) ∧
    ∀ content level parentInode,
      (∀ fault, Lists (LittleFs.getdents content level parentInode fault) LittleFs.opened
          (LittleFs.names content) room) ↔ level ≠ .rootDirectory :=
  ⟨fun content currentInode parentInode root =>
      MountpointFs.lists_iff content currentInode parentInode root enough,
    fun content currentInode parentInode => DevFs.lists_iff content currentInode parentInode enough,
    fun content parentInode => RomFs.lists_iff content parentInode enough,
    fun content level parentInode => LittleFs.lists_iff content level parentInode enough⟩

/-- A directory of `MountpointFs` whose name has a given length. -/
def oneDirectory (length : Nat) : MountpointFs.Content where
  dirs := [(List.replicate length (.other 1), 2#32)]
  nodup := List.nodup_singleton _
  emptyFirst listed := congrArg some (List.mem_singleton.mp listed).symm

/-- A root directory of `LittleFS` without entries. -/
def emptyVolume : LittleFs.Content where
  ownBlock := 0#32
  parentBlock := 0#32
  children := []
  short _ listed := absurd listed List.not_mem_nil
  named _ listed := absurd listed List.not_mem_nil

/-- A name of 52 letters fits in the smallest buffer. -/
theorem listing_complete_short_name : Lists (MountpointFs.getdents (oneDirectory 52) 1#32 1#32)
      (MountpointFs.opened (oneDirectory 52) true) (MountpointFs.names (oneDirectory 52) true)
      minimumBufferSize := by
  refine ((listing_complete_iff le_rfl).1 (oneDirectory 52) 1#32 1#32 true).mpr
    fun _ dir listed => ?_
  rw [List.mem_singleton.mp listed]
  exact ⟨List.cons_ne_nil _ _,
    (by decide : recordLength (List.replicate 52 (.other 1)) ≤ minimumBufferSize), by decide⟩

/-- A name of 53 letters is not listed with buffers of the smallest size, and the listing ends
without an error. In the root directory of `LittleFS`, `.` and `..` are listed twice. -/
theorem listings_cut_and_repeated :
    readRecords (replies (MountpointFs.getdents (oneDirectory 53) 1#32 1#32)
        (MountpointFs.opened (oneDirectory 53) true) [minimumBufferSize, minimumBufferSize]) =
      ((startBuffer true 1#32 1#32).records, true) ∧
    (readRecords (replies (LittleFs.getdents emptyVolume .rootDirectory 1#32 fun _ => 0)
        LittleFs.opened [280])).1.map Dirent.d_name =
      [[.dot], [.dot, .dot], [.dot], [.dot, .dot]] := by
  decide

end Miosix.Directories
