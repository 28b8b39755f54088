/-
This file settles when the listings of `MountpointFs` and `DevFs` are complete, which keep their
entries in a map and remember the name of the first entry that is not listed. An entry that does not
fit in a whole buffer looks like the end of the listing, and an empty name is also the mark for a
directory without entries, so that it hides all others.
-/

import Miosix.Filesystem.Listing

namespace Miosix.Directories

open Filesystem List

/-! ### A map of entries -/

variable {room : Nat}

section Map

variable {entries : List Entry} {currentInode parentInode : BitVec 32} {directory : MapDirectory}

/-- The names that are left in an open directory. -/
inductive MapLeft (entries : List Entry) : MapDirectory → List Path → Prop where
  | done (item : Path) : MapLeft entries ⟨item, false, true⟩ []
  | bare (first : Bool) : MapLeft entries ⟨[], first, false⟩ (heads first)
  | here (first : Bool) {front more : List Entry} {entry : Entry} :
      entries = front ++ entry :: more →
        MapLeft entries ⟨entry.name, first, false⟩ (heads first ++ (entry :: more).map Entry.name)

theorem dropWhile_here {front more : List Entry} {entry : Entry}
    (nodup : (entries.map Entry.name).Nodup) (split : entries = front ++ entry :: more) :
    (entries.dropWhile fun other => other.name ≠ entry.name) = entry :: more := by
  subst split
  rw [map_append, map_cons] at nodup
  have absent := (nodup_middle.mp nodup).notMem
  have before : ∀ other ∈ front, decide (other.name ≠ entry.name) = true := by
    intro other listed
    refine decide_eq_true fun same => absent (mem_append_left _ ?_)
    rw [← same]
    exact mem_map_of_mem listed
  have here : ¬ decide (entry.name ≠ entry.name) = true := fun other => of_decide_eq_true other rfl
  rw [dropWhile_append_of_pos before]
  exact dropWhile_cons_of_neg here

theorem listMap_fitted {len : Nat} {buffer : Buffer}
    (answer : (listMap entries currentInode parentInode directory len).1 = .ok buffer) :
    Fitted len buffer := by
  have start (enough : ¬ len < minimumBufferSize) :
      Fitted len (startBuffer directory.first currentInode parentInode) := by
    unfold startBuffer
    split
    · exact fitted_default enough
    · exact fitted_empty
  unfold listMap at answer
  split at answer
  · nomatch answer
  · rename_i enough
    split at answer
    · cases answer
      exact fitted_empty
    · dsimp only at answer
      split at answer
      · cases answer
        exact fitted_terminated (start enough)
      · split at answer
        · nomatch answer
        · rename_i found others _
          have loop := fitted_addEntries (start enough) (found :: others)
          split at answer
          · rename_i after same
            cases answer
            have fitted : Fitted len after := by
              have first := congrArg Prod.fst same
              dsimp only at first
              rw [← first]
              exact loop
            exact fitted_terminated fitted
          · rename_i after next _ same
            cases answer
            have first := congrArg Prod.fst same
            dsimp only at first
            rw [← first]
            exact loop

/-- The listing of a directory without entries, and the calls after the end. -/
theorem listMap_bare (entries : List Entry) (currentInode parentInode : BitVec 32)
    (enough : minimumBufferSize ≤ room) :
    Delivers (listMap entries currentInode parentInode) (MapLeft []) room := by
  intro directory todo len within left
  unfold CallDelivers listMap
  rw [if_neg (not_lt.mpr (enough.trans within))]
  right
  cases left with
  | done item =>
    exact ⟨.empty, [], [], rfl, rfl, nofun, .done item, .nothing rfl rfl rfl⟩
  | bare first =>
    obtain ⟨given, names, intact, last, -⟩ := @delivered_entries len (enough.trans within) first
      currentInode parentInode [] [] _ nofun
      nofun rfl
    refine ⟨_, given, [], rfl, ?_, intact, .done [], last rfl⟩
    rw [map_nil, append_nil] at names
    exact names
  | here first split => exact absurd split (append_ne_nil_of_right_ne_nil _
      (cons_ne_nil _ _)).symm

theorem MapLeft.of_nil {todo : List Path}
    (left : MapLeft [] directory todo) : MapLeft entries directory todo := by
  cases left with
  | done item => exact .done item
  | bare first => exact .bare first
  | here first split => exact absurd split (append_ne_nil_of_right_ne_nil _
      (cons_ne_nil _ _)).symm

theorem listMap_delivers (enough : minimumBufferSize ≤ room)
    (nodup : (entries.map Entry.name).Nodup) (named : ∀ entry ∈ entries, entry.name ≠ [])
    (short : ∀ entry ∈ entries, Fits room entry.name) :
    Delivers (listMap entries currentInode parentInode) (MapLeft entries) room := by
  intro directory todo len within left
  have bare := listMap_bare entries currentInode parentInode enough directory todo len within
  cases left with
  | done item => exact (bare (.done item)).mono fun _ _ left => left.of_nil
  | bare first => exact (bare (.bare first)).mono fun _ _ left => left.of_nil
  | here first split =>
    rename_i front more entry
    have listed : ∀ other ∈ entry :: more, other ∈ entries := fun other here =>
      split ▸ mem_append_right _ here
    unfold CallDelivers listMap
    right
    rw [if_neg (not_lt.mpr (enough.trans within)), if_neg Bool.false_ne_true,
      if_neg (named entry (listed entry mem_cons_self))]
    rw [dropWhile_here nodup split]
    dsimp only
    have fits : first = false → ∀ other others, entry :: more = other :: others →
        recordLength other.name ≤ len := by
      intro _ other others same
      rw [← (List.cons.inj same).1]
      exact (short entry (listed entry mem_cons_self)).1.trans within
    cases loop : addEntries len (startBuffer first currentInode parentInode) (entry :: more) with
    | mk after left =>
      obtain ⟨given, names, intact, last, some⟩ := delivered_entries (enough.trans within) first
        currentInode parentInode (fun other here => (short other (listed other here)).2) fits loop
      unfold startBuffer at loop
      rw [loop, names]
      cases left with
      | nil => exact ⟨_, given, [], rfl, rfl, intact, .done _, last rfl⟩
      | cons next others =>
        refine ⟨after, given, _, rfl, rfl, intact, ?_, some (cons_ne_nil _ _) _⟩
        obtain ⟨added, parts, -⟩ := addEntries_spec
          (if first = true then addDefaultEntries .empty currentInode parentInode else .empty)
          (entry :: more)
        rw [loop] at parts
        rw [parts, ← append_assoc] at split
        exact .here false split

/-- A directory that is kept in a map never answers with an error. -/
theorem listMap_found {directory : MapDirectory} {len : Nat} (enough : minimumBufferSize ≤ len)
    (found : directory.currentItem = [] ∨ directory.currentItem ∈ entries.map Entry.name) :
    (∃ buffer, (listMap entries currentInode parentInode directory len).1 = .ok buffer) ∧
      ((listMap entries currentInode parentInode directory len).2.currentItem = [] ∨
        (listMap entries currentInode parentInode directory len).2.currentItem ∈
          entries.map Entry.name) := by
  unfold listMap
  rw [if_neg (not_lt.mpr enough)]
  split
  · exact ⟨⟨_, rfl⟩, found⟩
  · dsimp only
    split
    · exact ⟨⟨_, rfl⟩, found⟩
    · rename_i named
      obtain ⟨entry, listed, same⟩ := mem_map.mp (found.resolve_left named)
      split
      · rename_i nowhere
        have whole := @takeWhile_append_dropWhile _
          (fun other : Entry => decide (other.name ≠ directory.currentItem)) entries
        rw [nowhere, append_nil] at whole
        have away := all_eq_true.mp all_takeWhile entry (whole.symm ▸ listed)
        exact absurd same (of_decide_eq_true away)
      · rename_i head tail place
        have sub : ∀ other ∈ head :: tail, other ∈ entries := fun other here =>
          (dropWhile_suffix _).subset (place ▸ here)
        split
        · exact ⟨⟨_, rfl⟩, found⟩
        · rename_i after next others loop
          refine ⟨⟨_, rfl⟩, .inr (mem_map_of_mem (sub next ?_))⟩
          obtain ⟨added, parts, -⟩ := addEntries_spec (if directory.first = true then
              addDefaultEntries .empty currentInode parentInode else .empty) (head :: tail)
          rw [loop] at parts
          rw [parts]
          exact mem_append_right _ mem_cons_self

theorem openMap_left :
    MapLeft entries (openMap entries) (heads true ++ entries.map Entry.name) := by
  cases entries with
  | nil => exact .bare true
  | cons entry more => exact @MapLeft.here _ true [] more entry rfl

theorem openMap_found : (openMap entries).currentItem = [] ∨
    (openMap entries).currentItem ∈ entries.map Entry.name := by
  cases entries with
  | nil => exact .inl rfl
  | cons entry more => exact .inr mem_cons_self

theorem openMap_lists_iff (enough : minimumBufferSize ≤ room)
    (nodup : (entries.map Entry.name).Nodup) (named : ∀ entry ∈ entries, entry.name ≠ []) :
    Lists (listMap entries currentInode parentInode) (openMap entries)
        (heads true ++ entries.map Entry.name) room ↔
      ∀ entry ∈ entries, Fits room entry.name := by
  constructor
  · intro lists entry listed
    refine lists.fits (fun _ _ _ => listMap_fitted)
      (fun _ _ within => listMap_found (enough.trans within)) openMap_found
      entry.name (mem_append_right _ (mem_map_of_mem listed))
  · intro short
    exact (listMap_delivers enough nodup named short).lists
      (fun _ _ _ answer => (listMap_fitted answer).used_le) openMap_left

end Map

/-! ### The two filesystems -/

namespace MountpointFs

variable {content : Content} {currentInode parentInode : BitVec 32}

/-- The names of a directory. -/
def names (content : Content) (root : Bool) : List Path :=
  heads true ++ if root then content.dirs.map Prod.fst else []

theorem map_name_entries : (entries content).map Entry.name = content.dirs.map Prod.fst :=
  map_map

/-- An empty name hides all entries. -/
theorem not_lists_of_empty (enough : minimumBufferSize ≤ room)
    (empty : [] ∈ content.dirs.map Prod.fst) :
    ¬ Lists (getdents content currentInode parentInode) (opened content true)
      (names content true) room := by
  intro lists
  have start : opened content true = ⟨[], true, false⟩ := by
    have head := content.emptyFirst empty
    rw [← map_name_entries, List.head?_map] at head
    unfold opened openMap
    rw [head]
    rfl
  have sizes : ∀ len ∈ List.replicate 3 room, room ≤ len := fun len listed =>
    (eq_of_mem_replicate listed).ge
  have fine := replies_ok (fun directory len within found =>
    @listMap_found (entries content) currentInode parentInode directory len
      (enough.trans within) found) sizes (.inl rfl : (⟨[], true, false⟩ :
        MapDirectory).currentItem = [] ∨ _)
  have complete := lists _ sizes
  rw [start] at complete
  obtain ⟨later, same, -, -, ends⟩ := ((listMap_bare (entries content) currentInode parentInode
    enough).seen sizes (.bare true)).resolve_left fine
  have calls : (heads true).length < (List.replicate 3 room).length := by
    rw [length_replicate]
    decide
  have whole := ((complete.listed.resolve_left fine).whole (ends calls)).length_eq
  have shorter := congrArg List.length same
  have positive := length_pos_of_mem empty
  have expected : (names content true).length = 2 + (content.dirs.map Prod.fst).length :=
    length_append
  rw [length_append] at shorter
  change 2 = _ at shorter
  change (List.map Dirent.d_name (readRecords (replies (listMap (entries content) currentInode
    parentInode) _ _)).1).length = _ at whole
  omega

theorem lists_iff (content : Content) (currentInode parentInode : BitVec 32) (root : Bool)
    (enough : minimumBufferSize ≤ room) :
    Lists (getdents content currentInode parentInode) (opened content root) (names content root)
        room ↔
      (root = true → ∀ dir ∈ content.dirs, dir.1 ≠ [] ∧ Fits room dir.1) := by
  cases root with
  | false =>
    refine ⟨nofun, fun _ => ?_⟩
    exact (listMap_bare (entries content) currentInode parentInode enough).lists
      (fun _ _ _ answer => (listMap_fitted answer).used_le) (.bare true)
  | true =>
    have expected : names content true = heads true ++ (entries content).map Entry.name := by
      rw [map_name_entries]
      rfl
    have nodup : ((entries content).map Entry.name).Nodup := by
      rw [map_name_entries]
      exact content.nodup
    have converted (condition : Path → Prop) : (∀ entry ∈ entries content, condition entry.name) ↔
          ∀ dir ∈ content.dirs, condition dir.1 := forall_mem_map
    constructor
    · intro lists _
      have named : ∀ dir ∈ content.dirs, dir.1 ≠ [] := by
        intro dir listed empty
        refine not_lists_of_empty enough ?_ lists
        rw [← empty]
        exact mem_map_of_mem listed
      rw [expected] at lists
      have short := (openMap_lists_iff enough nodup ((converted (· ≠ [])).mpr named)).mp lists
      exact fun dir listed => ⟨named dir listed, (converted (Fits room)).mp short dir listed⟩
    · intro fine
      have both := fine rfl
      rw [expected]
      exact (openMap_lists_iff enough nodup
        ((converted (· ≠ [])).mpr fun dir listed => (both dir listed).1)).mpr
          ((converted (Fits room)).mpr fun dir listed => (both dir listed).2)

end MountpointFs

namespace DevFs

def names (content : Content) : List Path := heads true ++ content.files.map Prod.fst

theorem lists_iff (content : Content) (currentInode parentInode : BitVec 32)
    (enough : minimumBufferSize ≤ room) :
    Lists (getdents content currentInode parentInode) (opened content) (names content) room ↔
      ∀ file ∈ content.files, Fits room file.1 := by
  have same : (entries content).map Entry.name = content.files.map Prod.fst := map_map
  have converted (condition : Path → Prop) : (∀ entry ∈ entries content, condition entry.name) ↔
        ∀ file ∈ content.files, condition file.1 := forall_mem_map
  have nodup : ((entries content).map Entry.name).Nodup := by
    rw [same]
    exact content.nodup
  unfold names
  rw [← same, ← converted (Fits room)]
  exact openMap_lists_iff enough nodup ((converted (· ≠ [])).mpr content.named)

end DevFs

end Miosix.Directories
