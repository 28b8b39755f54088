/-
This file settles when the listings of `RomFs` are complete. The entries are at consecutive
positions of the image, and the position of the first entry that is not listed is remembered. An
entry that does not fit in a whole buffer looks like the end of the listing.
-/

import Miosix.Filesystem.Listing

namespace Miosix.Directories

open Filesystem List

/-! ### Positions in the image -/

namespace RomFs

variable {content : Content} {parentFsMountpointInode : BitVec 32} {len index room : Nat}
  {buffer : Buffer}

def names (content : Content) : List Path :=
  heads true ++ content.children.map RomFsDirectoryEntry.name

section

variable (index : Nat) (children : List RomFsDirectoryEntry)

theorem map_name_toEntry :
    (children.map toEntry).map Entry.name = children.map RomFsDirectoryEntry.name :=
  map_map

theorem lt_nextIndex {name : Path} : index < nextIndex index name := by
  unfold nextIndex romFsStructAlignment sizeofDirectoryEntry
  omega

theorem le_endIndex :
    index ≤ endIndex index children := by
  induction children generalizing index with
  | nil => exact le_rfl
  | cons entry more inductionHypothesis =>
    exact (lt_nextIndex index).le.trans (inductionHypothesis _)

theorem endIndex_append (front more : List RomFsDirectoryEntry) :
    endIndex index (front ++ more) = endIndex (endIndex index front) more := by
  induction front generalizing index with
  | nil => rfl
  | cons entry others inductionHypothesis => exact inductionHypothesis _

theorem entryAt_endIndex (front more : List RomFsDirectoryEntry)
    (entry : RomFsDirectoryEntry) :
    entryAt index (front ++ entry :: more) (endIndex index front) = some entry := by
  induction front generalizing index with
  | nil => exact if_pos rfl
  | cons first others inductionHypothesis =>
    have beyond : endIndex index (first :: others) ≠ index :=
      Nat.ne_of_gt ((lt_nextIndex index).trans_le (le_endIndex _ others))
    rw [cons_append, entryAt, if_neg beyond]
    exact inductionHypothesis _

end

theorem endIndex_lt {front more : List RomFsDirectoryEntry} {entry : RomFsDirectoryEntry}
    (split : content.children = front ++ entry :: more) :
    endIndex (content.inode + sizeofFirstEntry) front < content.inode + content.size := by
  obtain ⟨init, last, same⟩ := (eq_nil_or_concat' (entry :: more)).resolve_left
    (cons_ne_nil _ _)
  rw [same, ← append_assoc] at split
  have below := content.above _ last split
  rw [endIndex_append] at below
  exact (le_endIndex _ init).trans_lt below

/-- The loop adds entries from a position on, and ends when none is left. -/
theorem listFrom_eq {len fuel : Nat} {front pending : List RomFsDirectoryEntry}
    (split : content.children = front ++ pending) (enough : pending.length < fuel)
    (buffer : Buffer) :
    ∃ added left, pending = added ++ left ∧ addEntries len buffer (pending.map toEntry) =
        ((addEntries len buffer (pending.map toEntry)).1, left.map toEntry) ∧
      listFrom content len fuel (endIndex (content.inode + sizeofFirstEntry) front) buffer =
        (.ok (if left = [] then terminated len (addEntries len buffer (pending.map toEntry)).1
          else (addEntries len buffer (pending.map toEntry)).1),
        endIndex (content.inode + sizeofFirstEntry) (front ++ added)) := by
  induction pending generalizing front buffer fuel with
  | nil =>
    obtain ⟨fuel, rfl⟩ := Nat.exists_eq_succ_of_ne_zero (Nat.ne_of_gt enough)
    have stop : ¬ endIndex (content.inode + sizeofFirstEntry) front <
        content.inode + content.size := by
      rw [append_nil] at split
      rw [← split]
      exact not_lt.mpr content.within
    refine ⟨[], [], rfl, rfl, ?_⟩
    rw [listFrom, if_neg stop, if_pos rfl, append_nil]
    rfl
  | cons entry more inductionHypothesis =>
    obtain ⟨fuel, rfl⟩ := Nat.exists_eq_succ_of_ne_zero (Nat.ne_of_gt (Nat.zero_lt_of_lt enough))
    have found := entryAt_endIndex (content.inode + sizeofFirstEntry) front more entry
    rw [← split] at found
    have next : nextIndex (endIndex (content.inode + sizeofFirstEntry) front) entry.name =
        endIndex (content.inode + sizeofFirstEntry) (front ++ [entry]) :=
      (endIndex_append _ front [entry]).symm
    rw [listFrom, if_pos (endIndex_lt split), found]
    dsimp only
    rw [map_cons, addEntries]
    cases new : addEntry len buffer (toEntry entry) with
    | none =>
      refine ⟨[], entry :: more, rfl, rfl, ?_⟩
      rw [if_neg (cons_ne_nil _ _), append_nil]
    | some after =>
      obtain ⟨added, left, parts, same, loop⟩ := inductionHypothesis
        (split.trans (append_cons front entry more)) (Nat.lt_of_succ_lt_succ enough) after
      refine ⟨entry :: added, left, congrArg (entry :: ·) parts, same, ?_⟩
      dsimp only
      rw [next, loop, append_assoc]
      rfl

/-- The names that are left behind a position. -/
inductive Left (content : Content) : Nat → List Path → Prop where
  | start : Left content 0 (names content)
  | behind {front pending : List RomFsDirectoryEntry} :
      content.children = front ++ pending →
        Left content (endIndex (content.inode + sizeofFirstEntry) front)
          (pending.map RomFsDirectoryEntry.name)

/-- A call in terms of the names that are left. -/
theorem getdents_eq {index len : Nat} {todo : List Path} (enough : minimumBufferSize ≤ len)
    (left : Left content index todo) :
    ∃ first upIno front pending, content.children = front ++ pending ∧
      todo = heads first ++ pending.map RomFsDirectoryEntry.name ∧
      getdents content parentFsMountpointInode index len =
        listFrom content len (content.children.length + 1)
          (endIndex (content.inode + sizeofFirstEntry) front)
          (startBuffer first (BitVec.ofNat 32 content.inode) upIno) := by
  unfold getdents
  rw [if_neg (not_lt.mpr enough)]
  cases left with
  | start =>
    exact ⟨true, _, [], content.children, rfl, rfl, rfl⟩
  | behind split =>
    rename_i front pending
    have positive : endIndex (content.inode + sizeofFirstEntry) front ≠ 0 := by
      have below := le_endIndex (content.inode + sizeofFirstEntry) front
      unfold sizeofFirstEntry at below ⊢
      omega
    rw [if_neg positive]
    exact ⟨false, 0#32, front, pending, split, rfl, rfl⟩

theorem listFrom_fitted {fuel : Nat} {after : Buffer} (fitted : Fitted len buffer)
    (answer : (listFrom content len fuel index buffer).1 = .ok after) : Fitted len after := by
  induction fuel generalizing index buffer with
  | zero =>
    cases answer
    exact fitted
  | succ fuel inductionHypothesis =>
    unfold listFrom at answer
    split at answer
    · split at answer
      · nomatch answer
      · split at answer
        · cases answer
          exact fitted
        · rename_i added
          exact inductionHypothesis (fitted_addEntry fitted added) answer
    · cases answer
      exact fitted_terminated fitted

theorem getdents_fitted
    (answer : (getdents content parentFsMountpointInode index len).1 = .ok buffer) :
    Fitted len buffer := by
  unfold getdents at answer
  split at answer
  · nomatch answer
  · rename_i enough
    split at answer
    · exact listFrom_fitted (fitted_default enough) answer
    · exact listFrom_fitted fitted_empty answer

theorem getdents_answers (enough : minimumBufferSize ≤ len)
    (sound : ∃ todo, Left content index todo) :
    (∃ buffer, (getdents content parentFsMountpointInode index len).1 = .ok buffer) ∧
      ∃ todo, Left content (getdents content parentFsMountpointInode index len).2 todo := by
  obtain ⟨todo, left⟩ := sound
  obtain ⟨first, upIno, front, pending, split, -, call⟩ := getdents_eq enough left
  have fuel : pending.length < content.children.length + 1 := by
    rw [split, length_append]
    omega
  obtain ⟨added, others, parts, -, loop⟩ := @listFrom_eq content len _ front pending split fuel
    (startBuffer first (BitVec.ofNat 32 content.inode) upIno)
  rw [parts, ← append_assoc] at split
  rw [call, loop]
  exact ⟨⟨_, rfl⟩, _, .behind split⟩

theorem getdents_delivers (enough : minimumBufferSize ≤ room)
    (short : ∀ child ∈ content.children, Fits room child.name) :
    Delivers (getdents content parentFsMountpointInode) (Left content) room := by
  intro index todo len within left
  obtain ⟨first, upIno, front, pending, split, rfl, call⟩ :=
    @getdents_eq content parentFsMountpointInode _ _ _ (enough.trans within) left
  have fuel : pending.length < content.children.length + 1 := by
    rw [split, length_append]
    omega
  have fits : ∀ entry ∈ pending.map toEntry, Fits room entry.name := by
    rw [forall_mem_map]
    exact fun child listed => short child (split ▸ mem_append_right _ listed)
  obtain ⟨added, others, parts, same, loop⟩ := @listFrom_eq content len _ front pending split fuel
    (startBuffer first (BitVec.ofNat 32 content.inode) upIno)
  obtain ⟨given, listed, intact, last, some⟩ := delivered_entries (enough.trans within) first
    (BitVec.ofNat 32 content.inode) upIno (fun entry inside => (fits entry inside).2)
    (fun _ entry more here => ((fits entry (here ▸ mem_cons_self)).1.trans within)) same
  rw [map_name_toEntry, map_name_toEntry] at listed
  rw [parts, ← append_assoc] at split
  unfold CallDelivers
  rw [call, loop]
  refine .inr ⟨_, given, others.map RomFsDirectoryEntry.name, rfl, listed, intact, .behind split,
    ?_⟩
  by_cases done : others = []
  · rw [if_pos done, done]
    exact last (by rw [done]; rfl)
  · rw [if_neg done]
    exact some (fun empty => done (map_eq_nil_iff.mp empty)) _

theorem lists_iff (content : Content) (parentFsMountpointInode : BitVec 32)
    (enough : minimumBufferSize ≤ room) :
    Lists (getdents content parentFsMountpointInode) 0 (names content) room ↔
      ∀ child ∈ content.children, Fits room child.name := by
  constructor
  · intro lists child listed
    refine lists.fits (fun _ _ _ => getdents_fitted)
      (fun _ _ within => getdents_answers (enough.trans within))
      ⟨names content, .start⟩ child.name (mem_append_right _ (mem_map_of_mem listed))
  · intro short
    exact (getdents_delivers enough short).lists
      (fun _ _ _ answer => (getdents_fitted answer).used_le) .start

end RomFs

end Miosix.Directories
