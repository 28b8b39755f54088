/-
This file relates the validation of a program to its loading.

Validation and loading go through the same tables. What validation has accepted is collected
first, header by header, and the loop of the loader is then run along with it: both keep the
same values of the dynamic entries. The accesses of the loader follow from these values.

A program that is accepted may still have no dynamic segment, so that no image is allocated, or
tables that end behind the file, or an entry point right behind its code.
-/

import Miosix.Process.Image

namespace Miosix.ElfProgram

open Logged

open ProcessPool (Area Pool Block)

/-! ### Safe loading -/

section

variable (file : ElfFile)

section

variable (phdr : Nat)

/-- A program header of the data segment. -/
@[mk_iff]
structure Writable : Prop where
  load : SegmentType.of (file.word phdr) = .load
  writable : file.word (phdr + 24) &&& PF_W ≠ 0
  notExecutable : file.word (phdr + 24) &&& PF_X = 0

/-- A program header of the code segment. -/
@[mk_iff]
structure Executable : Prop where
  load : SegmentType.of (file.word phdr) = .load
  executable : file.word (phdr + 24) &&& PF_X ≠ 0

/-- Reads are inside the file, writes inside the block that was allocated last, and relocations
change words of the data segment in this block. -/
def Permitted (loaded : Loaded) : Access → Prop
  | .file read => Inside file read
  | .write address length => ∃ block, loaded.block = some block ∧
      block.address ≤ address ∧ address + length ≤ block.address + block.size
  | .relocate address => ∃ block, loaded.block = some block ∧
      loaded.object.dataBssSize ≤ block.size ∧ block.address ≤ address ∧
      address + 4 ≤ block.address + loaded.object.dataBssSize ∧ (address - block.address) % 4 = 0
  | .obtain _ | .giveBack _ => True

/-- The accesses are permitted, and the entry point is inside the code segment. -/
structure LoadSafe (config : ProcessConfig) (area : Area) (file : ElfFile)
    (object : ProcessImage) (pool : Pool) (ram : Ram) (loaded : Loaded) : Prop where
  accesses : (load config area file object pool ram).All (Permitted file loaded)
  code : ∃ i < file.half 44, Executable file (file.phdr i)
  entry : ∀ i < file.half 44, Executable file (file.phdr i) →
    file.word (file.phdr i + 4) ≤ file.word 24 ∧
      file.word 24 < file.word (file.phdr i + 4) + file.word (file.phdr i + 16)

/-- The bytes of a dynamic entry that the loader uses. -/
def Tag.loadSpan : Tag → Nat
  | .rel | .relsz | .mxRamsize | .mxStacksize => 8
  | _ => 4

/-- The dynamic entries are inside the file as far as they are used. -/
def EntriesInside : Prop :=
  ∀ k < file.word (phdr + 20) / 8,
    file.word (phdr + 4) + 8 * k + (file.tag phdr k).loadSpan ≤ file.size

/-- The values of the dynamic entries of a program header. -/
def dynamicInfo : Except Unit DynamicInfo :=
  (Logged.iterate (dynamicEntry file (file.word (phdr + 4))) 0 (file.word (phdr + 20) / 8)
    DynamicInfo.initial).value

/-- There is a dynamic segment, its entries are inside the file as far as they are used, the data
segment and the relocations end inside the file, and the entry point is before the end of the
code segment. -/
@[mk_iff]
structure Loadable : Prop where
  dynamic : ∃ i < file.half 44, Dynamic file (file.phdr i)
  entries : ∀ i < file.half 44, Dynamic file (file.phdr i) → EntriesInside file (file.phdr i)
  data : ∀ i < file.half 44, Writable file (file.phdr i) →
    file.word (file.phdr i + 4) + file.word (file.phdr i + 16) ≤ file.size
  relocations : ∀ i < file.half 44, Dynamic file (file.phdr i) → ∀ info,
    dynamicInfo file (file.phdr i) = .ok info → info.hasRelocs = true →
      info.dtRel + info.dtRelsz ≤ file.size
  entry : ∀ i < file.half 44, Executable file (file.phdr i) →
    file.word 24 < file.word (file.phdr i + 4) + file.word (file.phdr i + 16)

instance : Decidable (EntriesInside file phdr) :=
  inferInstanceAs (Decidable (∀ k < _, _))

instance : Decidable (Writable file phdr) :=
  decidable_of_iff' _ (writable_iff file phdr)

instance : Decidable (Executable file phdr) :=
  decidable_of_iff' _ (executable_iff file phdr)

end

instance : Decidable (Loadable file) := decidable_of_iff' _ (loadable_iff file)

end

variable {config : ProcessConfig} {area : Area} {file : ElfFile} {Exit Value : Type}

/-! ### What validation has accepted -/

/-- What an accepted program header does to the variables of the loop. -/
inductive Accepts (config : ProcessConfig) (file : ElfFile) (phdr : Nat) (progress : Progress) :
    Progress → Prop where
  | code (executable : Executable file phdr) (fresh : progress.codeSegmentPresent = false)
      (lower : file.word (phdr + 4) ≤ file.word 24)
      (upper : file.word 24 ≤ (file.word (phdr + 4) + file.word (phdr + 16)) % 2 ^ 32) :
      Accepts config file phdr progress { progress with codeSegmentPresent := true }
  | data (writable : Writable file phdr) (fresh : progress.dataSegmentPresent = false)
      (covers : file.word (phdr + 16) ≤ file.word (phdr + 20)) :
      Accepts config file phdr progress { progress with
        dataSegmentPresent := true
        dataSegmentSize := file.word (phdr + 20) }
  | dynamic (dynamic : Dynamic file phdr) (fresh : progress.dynamicSegmentPresent = false)
      (data : progress.dataSegmentPresent = true)
      (valid : (validateDynamicSegment config file phdr progress.dataSegmentSize).value = true) :
      Accepts config file phdr progress { progress with dynamicSegmentPresent := true }
  | ignored (notExecutable : ¬ Executable file phdr) (notWritable : ¬ Writable file phdr)
      (notDynamic : ¬ Dynamic file phdr) : Accepts config file phdr progress progress

/-- The checks on the place of a segment. -/
structure Placed (file : ElfFile) (phdr : Nat) : Prop where
  offset : file.word (phdr + 4) < file.size
  filesz : file.word (phdr + 16) < file.size
  ends : (file.word (phdr + 4) + file.word (phdr + 16)) % 2 ^ 32 ≤ file.size

theorem ite_error_eq_ok_iff {condition : Prop} [Decidable condition]
    {exit : Exit} {rest : Except Exit Value} {value : Value} :
    (if condition then Except.error exit else rest) = .ok value ↔
      ¬ condition ∧ rest = .ok value := by
  by_cases holds : condition
  · simp [holds]
  · simp [holds]

variable {phdr i count dataSegmentSize dyn : Nat} {progress next : Progress} {info : DynamicInfo}
  {pool : Pool} {scan : Scan} {object : ProcessImage} {ram : Ram} {loaded : Loaded}
  {rel image : Nat}

theorem checkCode_eq_ok (executable : Executable file phdr)
    (passed : (checkCode file phdr (file.word 24) (file.word (phdr + 4))
      (file.word (phdr + 16)) progress).value = .ok next) :
    Accepts config file phdr progress next := by
  simp only [checkCode, value_readWord_bind, value_ite, value_pure,
    ite_error_eq_ok_iff] at passed
  obtain ⟨fresh, lower, upper, -, same⟩ := passed
  exact Except.ok.inj same ▸
    .code executable (by simpa using fresh) (Nat.not_lt.mp lower) (Nat.not_lt.mp upper)

theorem checkData_eq_ok (writable : Writable file phdr)
    (passed : (checkData config file phdr (file.word (phdr + 16)) progress).value = .ok next) :
    Accepts config file phdr progress next := by
  simp only [checkData, value_readWord_bind, value_ite, value_pure,
    ite_error_eq_ok_iff] at passed
  obtain ⟨fresh, covers, -, same⟩ := passed
  exact Except.ok.inj same ▸ .data writable (by simpa using fresh) (Nat.not_lt.mp covers)

theorem not_dynamic_of_load (load : SegmentType.of (file.word phdr) = .load) :
    ¬ Dynamic file phdr := fun dynamic => nomatch load.symm.trans dynamic

theorem checkLoad_eq_ok (isLoad : SegmentType.of (file.word phdr) = .load)
    (passed : (checkLoad config file phdr (file.word 24) (file.word (phdr + 4))
      (file.word (phdr + 16)) progress).value = .ok next) :
    Accepts config file phdr progress next := by
  simp only [checkLoad, value_readWord_bind, value_ite, value_pure,
    ite_error_eq_ok_iff] at passed
  obtain ⟨-, -, -, passed⟩ := passed
  by_cases executable : file.word (phdr + 24) &&& PF_X ≠ 0
  · rw [if_pos executable] at passed
    exact checkCode_eq_ok ⟨isLoad, executable⟩ passed
  rw [if_neg executable] at passed
  by_cases writable : file.word (phdr + 24) &&& PF_W ≠ 0
  · rw [if_pos writable] at passed
    exact checkData_eq_ok ⟨isLoad, writable, not_not.mp executable⟩ passed
  · rw [if_neg writable] at passed
    exact Except.ok.inj passed ▸ .ignored (fun other => executable other.executable)
      (fun other => writable other.writable) (not_dynamic_of_load isLoad)

theorem checkDynamic_eq_ok {p_align : Nat} (dynamic : Dynamic file phdr)
    (passed : (checkDynamic config file phdr p_align progress).value = .ok next) :
    Accepts config file phdr progress next := by
  simp only [checkDynamic, value_bind, value_ite, value_pure,
    ite_error_eq_ok_iff] at passed
  obtain ⟨fresh, data, -, valid, same⟩ := passed
  exact Except.ok.inj same ▸
    .dynamic dynamic (by simpa using fresh) (by simpa using data) (by simpa using valid)

theorem checkSegment_eq_ok
    (passed : (checkSegment config file (file.word 24) (file.word 28) i progress).value =
      .ok next) : Placed file (file.phdr i) ∧ Accepts config file (file.phdr i) progress next := by
  simp only [checkSegment, value_readWord_bind, value_ite, value_pure,
    ite_error_eq_ok_iff] at passed
  obtain ⟨offset, filesz, ends, -, passed⟩ := passed
  refine ⟨⟨Nat.not_le.mp offset, Nat.not_le.mp filesz, Nat.not_lt.mp ends⟩, ?_⟩
  rw [show file.word 28 + phdrSize * i = file.phdr i from rfl] at passed
  cases segment : SegmentType.of (file.word (file.phdr i)) with
  | load =>
    rw [segment] at passed
    exact checkLoad_eq_ok segment passed
  | dynamic =>
    rw [segment] at passed
    exact checkDynamic_eq_ok segment passed
  | other =>
    rw [segment] at passed
    refine Except.ok.inj passed ▸ .ignored (fun code => ?_) (fun data => ?_) fun dynamic => ?_
    · cases segment.symm.trans code.load
    · cases segment.symm.trans data.load
    · cases segment.symm.trans dynamic

/-- What is known of the first program headers once they are accepted. -/
structure Validated (config : ProcessConfig) (file : ElfFile) (count : Nat)
    (progress : Progress) : Prop where
  placed : ∀ j < count, Placed file (file.phdr j)
  code : progress.codeSegmentPresent = true → ∃ j < count, Executable file (file.phdr j)
  entry : ∀ j < count, Executable file (file.phdr j) →
    file.word (file.phdr j + 4) ≤ file.word 24 ∧
      file.word 24 ≤ (file.word (file.phdr j + 4) + file.word (file.phdr j + 16)) % 2 ^ 32
  data : progress.dataSegmentPresent = true ↔ ∃ j < count, Writable file (file.phdr j)
  dataSize : ∀ j < count, Writable file (file.phdr j) →
    file.word (file.phdr j + 16) ≤ file.word (file.phdr j + 20) ∧
      file.word (file.phdr j + 20) = progress.dataSegmentSize
  oneData : ∀ j < count, ∀ k < count,
    Writable file (file.phdr j) → Writable file (file.phdr k) → j = k
  dynamic : progress.dynamicSegmentPresent = true ↔ ∃ j < count, Dynamic file (file.phdr j)
  oneDynamic : ∀ j < count, ∀ k < count,
    Dynamic file (file.phdr j) → Dynamic file (file.phdr k) → j = k
  valid : ∀ j < count, Dynamic file (file.phdr j) → progress.dataSegmentPresent = true ∧
    (validateDynamicSegment config file (file.phdr j) progress.dataSegmentSize).value = true

theorem validated_zero : Validated config file 0 Progress.initial := by
  constructor <;> simp [Progress.initial]

theorem unique_succ {holds : Nat → Prop}
    (unique : ∀ j < count, ∀ k < count, holds j → holds k → j = k)
    (alone : holds count → ∀ j < count, ¬ holds j) :
    ∀ j < count + 1, ∀ k < count + 1, holds j → holds k → j = k := by
  intro j below k otherBelow held otherHeld
  rcases Nat.lt_succ_iff_lt_or_eq.mp below with before | rfl
  · rcases Nat.lt_succ_iff_lt_or_eq.mp otherBelow with otherBefore | rfl
    · exact unique j before k otherBefore held otherHeld
    · exact absurd held (alone otherHeld j before)
  · rcases Nat.lt_succ_iff_lt_or_eq.mp otherBelow with otherBefore | rfl
    · exact absurd otherHeld (alone held k otherBefore)
    · rfl

/-- What an accepted program header adds to what is known. -/
structure Adds (config : ProcessConfig) (file : ElfFile) (phdr : Nat) (progress next : Progress) :
    Prop where
  code : next.codeSegmentPresent = true →
    progress.codeSegmentPresent = true ∨ Executable file phdr
  entry : Executable file phdr → file.word (phdr + 4) ≤ file.word 24 ∧
    file.word 24 ≤ (file.word (phdr + 4) + file.word (phdr + 16)) % 2 ^ 32
  data : next.dataSegmentPresent = true ↔
    progress.dataSegmentPresent = true ∨ Writable file phdr
  dataSize : Writable file phdr → file.word (phdr + 16) ≤ file.word (phdr + 20) ∧
    file.word (phdr + 20) = next.dataSegmentSize
  sameSize : progress.dataSegmentPresent = true → next.dataSegmentSize = progress.dataSegmentSize
  oneData : Writable file phdr → progress.dataSegmentPresent = false
  dynamic : next.dynamicSegmentPresent = true ↔
    progress.dynamicSegmentPresent = true ∨ Dynamic file phdr
  oneDynamic : Dynamic file phdr → progress.dynamicSegmentPresent = false
  valid : Dynamic file phdr → next.dataSegmentPresent = true ∧
    (validateDynamicSegment config file phdr next.dataSegmentSize).value = true

theorem Accepts.adds (accepts : Accepts config file phdr progress next) :
    Adds config file phdr progress next := by
  cases accepts with
  | code executable fresh lower upper =>
    have notWritable : ¬ Writable file phdr :=
      fun other => executable.executable other.notExecutable
    have notDynamic := not_dynamic_of_load executable.load
    constructor <;> simp_all
  | data writable fresh covers =>
    have notExecutable : ¬ Executable file phdr :=
      fun other => other.executable writable.notExecutable
    have notDynamic := not_dynamic_of_load writable.load
    constructor <;> simp_all
  | dynamic dynamic fresh data valid =>
    have notWritable : ¬ Writable file phdr := fun other => not_dynamic_of_load other.load dynamic
    have notExecutable : ¬ Executable file phdr :=
      fun other => not_dynamic_of_load other.load dynamic
    constructor <;> simp_all
  | ignored notExecutable notWritable notDynamic => constructor <;> simp_all

theorem Validated.step (validated : Validated config file count progress)
    (placed : Placed file (file.phdr count))
    (accepts : Accepts config file (file.phdr count) progress next) :
    Validated config file (count + 1) next := by
  have adds := accepts.adds
  have present : ∀ j < count, Writable file (file.phdr j) → progress.dataSegmentPresent = true :=
    fun j below writable => validated.data.mpr ⟨j, below, writable⟩
  exact {
    placed := Nat.forall_lt_succ_right.mpr ⟨validated.placed, placed⟩
    code := fun found => Nat.exists_lt_succ_right.mpr ((adds.code found).imp_left validated.code)
    entry := Nat.forall_lt_succ_right.mpr ⟨validated.entry, adds.entry⟩
    data := by rw [Nat.exists_lt_succ_right, adds.data, validated.data]
    dataSize := Nat.forall_lt_succ_right.mpr ⟨fun j below writable => by
      rw [adds.sameSize (present j below writable)]
      exact validated.dataSize j below writable, adds.dataSize⟩
    oneData := unique_succ validated.oneData fun writable j below other => by
      simpa [adds.oneData writable] using present j below other
    dynamic := by rw [Nat.exists_lt_succ_right, adds.dynamic, validated.dynamic]
    oneDynamic := unique_succ validated.oneDynamic fun dynamic j below other => by
      simpa [adds.oneDynamic dynamic] using validated.dynamic.mpr ⟨j, below, other⟩
    valid := Nat.forall_lt_succ_right.mpr ⟨fun j below dynamic => by
      obtain ⟨found, valid⟩ := validated.valid j below dynamic
      rw [adds.sameSize found]
      exact ⟨adds.data.mpr (.inl found), valid⟩, adds.valid⟩ }

/-- What an accepted program is known to be. -/
theorem validated_of_accepted (accepted : (validateHeader config file).value = true) :
    ehdrSize ≤ file.size ∧ (checkElfHeader config file).value = true ∧
      ∃ progress, Validated config file (file.half 44) progress ∧
        progress.codeSegmentPresent = true ∧ progress.dataSegmentPresent = true := by
  simp only [validateHeader, value_ite, value_pure, ite_false_eq_true_iff] at accepted
  obtain ⟨-, short, accepted⟩ := accepted
  rw [value_bind, value_ite, value_pure, ite_false_eq_true_iff] at accepted
  obtain ⟨passed, accepted⟩ := accepted
  rw [value_readHalf_bind] at accepted
  refine ⟨Nat.not_lt.mp short, by simpa using passed, ?_⟩
  obtain ⟨progress, done, accepted⟩ := exists_ok_of_bind accepted fun _ => Bool.false_ne_true
  obtain ⟨code, data⟩ := Bool.and_eq_true_iff.mp accepted
  refine ⟨progress, ?_, code, data⟩
  refine iterate_invariant (Validated config file) validated_zero
    (fun index below before after validated stepped => ?_) done
  rw [Nat.zero_add] at stepped
  obtain ⟨placed, accepts⟩ := checkSegment_eq_ok stepped
  exact validated.step placed accepts

theorem dynamicInfo_of_valid
    (valid : (validateDynamicSegment config file phdr dataSegmentSize).value = true) :
    ∃ info, dynamicInfo file phdr = .ok info ∧
      (checkDynamicInfo config file info dataSegmentSize).value = true := by
  rw [validateDynamicSegment, value_readWord_bind, value_readWord_bind] at valid
  exact exists_ok_of_bind valid fun _ => Bool.false_ne_true

/-- The sizes of an accepted dynamic segment. -/
structure SizesFit (config : ProcessConfig) (info : DynamicInfo) (dataSegmentSize : Nat) :
    Prop where
  stack : 0 < info.stackSize
  sum : dataSegmentSize + info.stackSize + config.watermarkLen ≤ info.ramSize

theorem sizesFit_of_valid (valid : sizesValid config info dataSegmentSize = true) :
    SizesFit config info dataSegmentSize := by
  simp only [sizesValid, Bool.and_eq_true, decide_eq_true_eq] at valid
  obtain ⟨⟨⟨⟨⟨⟨⟨-, least⟩, -⟩, -⟩, -⟩, stack⟩, data⟩, sum⟩ := valid
  have positive := config.stack_pos
  have small := config.small
  refine ⟨by omega, ?_⟩
  rwa [Nat.mod_eq_of_lt (by omega)] at sum

/-- The relocations of an accepted dynamic segment. -/
structure RelocsFit (file : ElfFile) (info : DynamicInfo) (dataSegmentSize : Nat) : Prop where
  all : info.allRelocs = true
  start : info.dtRel < file.size
  ends : (info.dtRel + info.dtRelsz) % 2 ^ 32 ≤ file.size
  checked : ∀ k < info.dtRelsz / 8,
    (checkRelocation file info.dtRel dataSegmentSize k ()).value = .ok ()

theorem checkDynamicInfo_spec
    (valid : (checkDynamicInfo config file info dataSegmentSize).value = true) :
    SizesFit config info dataSegmentSize ∧
      (info.hasRelocs = true → RelocsFit file info dataSegmentSize) := by
  simp only [checkDynamicInfo, value_ite, value_pure,
    ite_false_eq_true_iff, Bool.not_eq_false] at valid
  obtain ⟨sizes, whole, valid⟩ := valid
  refine ⟨sizesFit_of_valid sizes, fun present => ?_⟩
  rw [if_neg (by simp [present]), ite_false_eq_true_iff, Bool.not_eq_false] at valid
  obtain ⟨relocs, valid⟩ := valid
  have all : info.allRelocs = true := by
    by_contra missing
    exact whole ⟨present, by simpa using missing⟩
  simp only [relocsValid, Bool.and_eq_true, decide_eq_true_eq] at relocs
  obtain ⟨⟨⟨start, -⟩, ends⟩, -⟩ := relocs
  refine ⟨all, start, ends, fun k below => ?_⟩
  obtain ⟨done, ended, -⟩ := exists_ok_of_bind valid fun _ => Bool.false_ne_true
  obtain ⟨reached, got⟩ := iterate_eq_ok_of_le ended (Nat.succ_le_of_lt below)
  obtain ⟨before, -, checked⟩ := iterate_succ_eq_ok_iff.mp got
  rwa [Nat.zero_add] at checked

/-! ### The loader after validation -/

/-- The loader has the values that validation has. -/
structure Matches (info : DynamicInfo) (scan : Scan) : Prop where
  dtRel : scan.dtRel = info.dtRel
  dtRelsz : scan.dtRelsz = info.dtRelsz
  hasRelocs : scan.hasRelocs = (info.rel || info.relsz)
  ramSize : info.ramSize = 0 ∨ ∃ block, scan.block = some block ∧ info.ramSize ≤ block.size ∧
    scan.object.image = block.address ∧ scan.object.size = block.size
  stackSize : info.stackSize = 0 ∨ scan.object.mainStackSize = info.stackSize

section Loading

variable {Result : Type} {offset : Nat} {permitted : Access → Prop}

section

variable (next : Nat → Logged Access Result)

theorem value_loadWord_bind :
    (loadWord file offset >>= next).value = (next (file.word offset)).value := rfl

theorem value_loadHalf_bind :
    (loadHalf file offset >>= next).value = (next (file.half offset)).value := rfl

theorem all_loadWord_bind_iff : (loadWord file offset >>= next).All permitted ↔
      permitted (.file ⟨offset, 4⟩) ∧ (next (file.word offset)).All permitted :=
  (all_bind_iff _ _ _).trans (and_congr_left' (all_singleton_iff _))

theorem all_loadHalf_bind_iff : (loadHalf file offset >>= next).All permitted ↔
      permitted (.file ⟨offset, 2⟩) ∧ (next (file.half offset)).All permitted :=
  (all_bind_iff _ _ _).trans (and_congr_left' (all_singleton_iff _))

end

end Loading

theorem le_of_allocate {next : Pool} {request : Nat} {block : Block}
    (served : ProcessPool.allocate area pool request = .ok (block, next)) :
    request ≤ block.size := by
  obtain ⟨i, -, -, rfl, -⟩ := ProcessPool.exists_vacant_of_allocate served
  exact (ProcessPool.roundUp_spec request).2.1

/-- Validation and the loader handle a dynamic entry in the same way. -/
theorem Matches.step {infoNext : DynamicInfo} {next : Scan} (matching : Matches info scan)
    (checked : (dynamicEntry file dyn i info).value = .ok infoNext)
    (loaded : (loadEntry area file dyn i scan).value = .ok next) : Matches infoNext next := by
  rw [dynamicEntry, value_readWord_bind] at checked
  rw [loadEntry, value_loadWord_bind] at loaded
  cases tag : Tag.of (file.word (dyn + 8 * i)) with
  | rel =>
    simp only [tag] at checked loaded
    cases checked
    cases loaded
    exact { matching with dtRel := rfl, hasRelocs := rfl }
  | relsz =>
    simp only [tag] at checked loaded
    cases checked
    cases loaded
    exact { matching with dtRelsz := rfl, hasRelocs := (Bool.or_true _).symm }
  | relent | mxAbi =>
    simp only [tag, value_readWord_bind, value_ite, value_pure,
      ite_error_eq_ok_iff] at checked loaded
    obtain rfl := Except.ok.inj checked.2
    cases loaded
    exact { matching with }
  | mxRamsize =>
    simp only [tag, value_loadWord_bind] at checked loaded
    cases checked
    cases served : ProcessPool.allocate area scan.pool (file.word (dyn + 8 * i + 4)) with
    | error failure =>
      rw [served] at loaded
      cases loaded
    | ok outcome =>
      obtain ⟨block, pool⟩ := outcome
      rw [served] at loaded
      cases loaded
      exact { matching with ramSize := .inr ⟨block, rfl, le_of_allocate served, rfl, rfl⟩ }
  | mxStacksize =>
    simp only [tag] at checked loaded
    cases checked
    cases loaded
    exact { matching with stackSize := .inr rfl }
  | rela | relasz | relaent =>
    simp only [tag] at checked
    cases checked
  | other =>
    simp only [tag] at checked loaded
    cases checked
    cases loaded
    exact matching

theorem Matches.iterate {infoLast : DynamicInfo} {last : Scan} (matching : Matches info scan)
    (checked : (Logged.iterate (dynamicEntry file dyn) 0 count info).value = .ok infoLast)
    (loaded : (Logged.iterate (loadEntry area file dyn) 0 count scan).value = .ok last) :
    Matches infoLast last := by
  refine iterate_invariant (fun index reached => ∀ between,
    (Logged.iterate (dynamicEntry file dyn) 0 index info).value = .ok between →
      Matches between reached) ?_ ?_ loaded infoLast checked
  · intro between got
    cases got
    exact matching
  · intro index below before after holds stepped between got
    obtain ⟨earlier, reached, last⟩ := iterate_succ_eq_ok_iff.mp got
    exact (holds earlier reached).step last stepped

theorem loadEntry_dataSegment {next : Scan}
    (loaded : (loadEntry area file dyn i scan).value = .ok next) :
    next.dataSegment = scan.dataSegment := by
  rw [loadEntry, value_loadWord_bind] at loaded
  cases tag : Tag.of (file.word (dyn + 8 * i)) with
  | mxRamsize =>
    simp only [tag, value_loadWord_bind] at loaded
    cases served : ProcessPool.allocate area scan.pool (file.word (dyn + 8 * i + 4))
    all_goals
      rw [served] at loaded
      cases loaded
    rfl
  | rel | relsz | mxStacksize | relent | mxAbi | rela | relasz | relaent | other =>
    simp only [tag] at loaded
    cases loaded
    rfl

/-- The loop of the loader after the first program headers. -/
structure Scanned (file : ElfFile) (count : Nat) (scan : Scan) : Prop where
  data : ∀ phdr, scan.dataSegment = some phdr → ∃ j < count, phdr = file.phdr j ∧
    Writable file (file.phdr j)
  absent : (∀ j < count, ¬ Dynamic file (file.phdr j)) →
    Matches DynamicInfo.initial scan ∧ scan.block = none
  present : ∀ j < count, Dynamic file (file.phdr j) → ∀ info,
    dynamicInfo file (file.phdr j) = .ok info → Matches info scan

theorem Scanned.skip {count : Nat} {scan : Scan} (scanned : Scanned file count scan)
    (other : ¬ Dynamic file (file.phdr count)) : Scanned file (count + 1) scan where
  data := fun phdr found =>
    have ⟨j, below, same⟩ := scanned.data phdr found
    ⟨j, Nat.lt_succ_of_lt below, same⟩
  absent := fun none => scanned.absent fun j below => none j (Nat.lt_succ_of_lt below)
  present := Nat.forall_lt_succ_right.mpr ⟨scanned.present, fun dynamic => absurd dynamic other⟩

section

variable (scanned : Scanned file count scan)
include scanned

theorem Scanned.select (writable : Writable file (file.phdr count)) :
    Scanned file (count + 1) { scan with dataSegment := some (file.phdr count) } := by
  have skipped := scanned.skip (not_dynamic_of_load writable.load)
  refine ⟨fun phdr found => ?_, fun none => ?_, fun j below dynamic info got => ?_⟩
  · cases found
    exact ⟨count, Nat.lt_succ_self count, rfl, writable⟩
  · obtain ⟨matching, unallocated⟩ := skipped.absent none
    exact ⟨{ matching with }, unallocated⟩
  · have matching := skipped.present j below dynamic info got
    exact { matching with }

theorem Scanned.enter {next : Scan}
    (alone : ∀ j < count, ¬ Dynamic file (file.phdr j)) (dynamic : Dynamic file (file.phdr count))
    (loaded : (Logged.iterate (loadEntry area file (file.word (file.phdr count + 4))) 0
      (file.word (file.phdr count + 20) / 8) scan).value = .ok next) :
    Scanned file (count + 1) next := by
  have kept : next.dataSegment = scan.dataSegment :=
    iterate_invariant (fun _ reached => reached.dataSegment = scan.dataSegment) rfl
      (fun index below before after same stepped => (loadEntry_dataSegment stepped).trans same)
      loaded
  refine ⟨fun phdr found => ?_, fun none => ?_, Nat.forall_lt_succ_right.mpr
    ⟨fun j below other => absurd other (alone j below), fun _ info got => ?_⟩⟩
  · rw [kept] at found
    obtain ⟨j, below, same⟩ := scanned.data phdr found
    exact ⟨j, Nat.lt_succ_of_lt below, same⟩
  · exact absurd dynamic (none count (Nat.lt_succ_self count))
  · exact (scanned.absent alone).1.iterate got loaded

theorem Scanned.step {next : Scan}
    (alone : Dynamic file (file.phdr count) → ∀ j < count, ¬ Dynamic file (file.phdr j))
    (loaded : (loadSegment area file (file.word 28) count scan).value = .ok next) :
    Scanned file (count + 1) next := by
  simp only [loadSegment, value_loadWord_bind] at loaded
  rw [show file.word 28 + phdrSize * count = file.phdr count from rfl] at loaded
  cases segment : SegmentType.of (file.word (file.phdr count)) with
  | load =>
    simp only [segment, value_loadWord_bind, value_ite] at loaded
    by_cases writable : file.word (file.phdr count + 24) &&& PF_W ≠ 0 ∧
        file.word (file.phdr count + 24) &&& PF_X = 0
    · rw [if_pos writable] at loaded
      cases loaded
      exact scanned.select ⟨segment, writable.1, writable.2⟩
    · rw [if_neg writable] at loaded
      cases loaded
      exact scanned.skip (not_dynamic_of_load segment)
  | dynamic =>
    simp only [segment, value_loadWord_bind] at loaded
    exact scanned.enter (alone segment) segment loaded
  | other =>
    simp only [segment] at loaded
    cases loaded
    exact scanned.skip fun dynamic => nomatch segment.symm.trans dynamic

end

theorem scanned_initial : Scanned file 0 (.initial object pool) where
  data := nofun
  absent := fun _ => ⟨⟨rfl, rfl, rfl, .inl rfl, .inl rfl⟩, rfl⟩
  present := fun j below => absurd below (Nat.not_lt_zero j)

/-- The parts of an image that is made. -/
theorem exists_scan_of_makeImage
    (succeeded : (makeImage config area file object pool ram).value = .ok loaded) :
    ∃ scan data, (Logged.iterate (loadSegment area file (file.word 28)) 0 (file.half 44)
        (.initial object pool)).value = .ok scan ∧
      scan.dataSegment = some data ∧
      (fillImage config file scan data ram).value = .ok loaded ∧
      ∀ permitted : Access → Prop, (makeImage config area file object pool ram).All permitted ↔
        permitted (.file ⟨28, 4⟩) ∧ permitted (.file ⟨44, 2⟩) ∧
          (Logged.iterate (loadSegment area file (file.word 28)) 0 (file.half 44)
            (.initial object pool)).All permitted ∧
          (fillImage config file scan data ram).All permitted := by
  unfold makeImage at succeeded ⊢
  rw [value_loadWord_bind, value_loadHalf_bind] at succeeded
  obtain ⟨scan, ended, succeeded⟩ := exists_ok_of_bind succeeded (by nofun)
  cases found : scan.dataSegment with
  | none =>
    simp only [found] at succeeded
    cases succeeded
  | some data =>
    simp only [found] at succeeded
    refine ⟨scan, data, ended, found, succeeded, fun permitted => ?_⟩
    rw [all_loadWord_bind_iff, all_loadHalf_bind_iff, all_bind_iff, ended]
    simp only [found]

theorem exists_makeImage_of_load
    (succeeded : (load config area file object pool ram).value = .ok loaded) :
    ∃ released, (makeImage config area file object released ram).value = .ok loaded ∧
      ((load config area file object pool ram).All (Permitted file loaded) ↔
        (makeImage config area file object released ram).All (Permitted file loaded)) := by
  have silent : (releaseImage area object pool).All (Permitted file loaded) := by
    unfold releaseImage
    split
    · exact all_pure _ _
    · exact (all_singleton_iff _).mpr trivial
  unfold load at succeeded ⊢
  obtain ⟨released, freed, succeeded⟩ := exists_ok_of_bind succeeded (by nofun)
  refine ⟨released, succeeded, ?_⟩
  rw [all_bind_iff, freed]
  exact and_iff_right silent

/-! ### The accesses of the loader -/

theorem all_relocate_iff {permitted : Access → Prop} :
    (relocate file rel image i ram).All permitted ↔
      permitted (.file ⟨rel + 8 * i, 4⟩) ∧ permitted (.file ⟨rel + 8 * i + 4, 4⟩) ∧
        (RelocType.of (file.word (rel + 8 * i + 4)) = .relative →
          permitted (.relocate (relocatedWord image (file.word (rel + 8 * i))))) := by
  rw [relocate, all_loadWord_bind_iff, all_loadWord_bind_iff]
  refine and_congr_right fun _ => and_congr_right fun _ => ?_
  cases kind : RelocType.of (file.word (rel + 8 * i + 4)) with
  | relative =>
    simp only [forall_const]
    exact all_singleton_iff _
  | none | other => simp [all_pure]

/-- The accesses of the relocations. -/
def RelocationsPermitted (file : ElfFile) (scan : Scan) (permitted : Access → Prop) : Prop :=
  scan.hasRelocs = true → ∀ k < scan.dtRelsz / 8,
    permitted (.file ⟨scan.dtRel + 8 * k, 4⟩) ∧ permitted (.file ⟨scan.dtRel + 8 * k + 4, 4⟩) ∧
      (RelocType.of (file.word (scan.dtRel + 8 * k + 4)) = .relative →
        permitted (.relocate (relocatedWord scan.object.image
          (file.word (scan.dtRel + 8 * k)))))

theorem applyRelocations_spec {scan : Scan} {object : ProcessImage} {ram : Ram} {loaded : Loaded}
    (sameImage : object.image = scan.object.image)
    (succeeded : (applyRelocations file scan object ram).value = .ok loaded) :
    loaded.block = scan.block ∧ loaded.object = object ∧
      ∀ permitted : Access → Prop, (applyRelocations file scan object ram).All permitted ↔
        RelocationsPermitted file scan permitted := by
  unfold applyRelocations at succeeded ⊢
  unfold RelocationsPermitted
  rw [sameImage] at succeeded ⊢
  by_cases present : scan.hasRelocs = true
  · rw [if_pos present] at succeeded
    obtain ⟨moved, ended, succeeded⟩ := exists_ok_of_bind succeeded (by nofun)
    cases succeeded
    refine ⟨rfl, rfl, fun permitted => ?_⟩
    rw [if_pos present, all_bind_iff, ended]
    simp only [all_pure, and_true, present, forall_const]
    refine all_iterate_iff_of_eq_ok ended fun index below before after _ => ?_
    rw [Nat.zero_add]
    exact all_relocate_iff
  · rw [if_neg present] at succeeded
    cases succeeded
    refine ⟨rfl, rfl, fun permitted => ?_⟩
    rw [if_neg present]
    exact iff_of_true (all_pure _ _) fun other => absurd other present

/-- The accesses that fill the image. -/
structure FillPermitted (config : ProcessConfig) (file : ElfFile) (scan : Scan) (data : Nat)
    (permitted : Access → Prop) : Prop where
  offset : permitted (.file ⟨data + 4, 4⟩)
  filesz : permitted (.file ⟨data + 16, 4⟩)
  memsz : permitted (.file ⟨data + 20, 4⟩)
  source : permitted (.file ⟨file.word (data + 4), file.word (data + 16)⟩)
  copied : permitted (.write scan.object.image (file.word (data + 16)))
  cleared : permitted (.write (scan.object.image + file.word (data + 16))
    (clearedSize config scan.object (file.word (data + 16))))
  relocations : RelocationsPermitted file scan permitted

theorem fillImage_spec {data : Nat}
    (succeeded : (fillImage config file scan data ram).value = .ok loaded) :
    loaded.block = scan.block ∧ loaded.object.dataBssSize = file.word (data + 20) ∧
      ∀ permitted : Access → Prop, (fillImage config file scan data ram).All permitted ↔
        FillPermitted config file scan data permitted := by
  obtain ⟨block, object, relocations⟩ := @applyRelocations_spec file scan
    { scan.object with dataBssSize := file.word (data + 20) } _ loaded rfl succeeded
  refine ⟨block, by rw [object], fun permitted => ?_⟩
  rw [fillImage, all_loadWord_bind_iff, all_loadWord_bind_iff, all_bind_iff,
    all_loadWord_bind_iff]
  constructor
  · rintro ⟨offset, filesz, moved, memsz, applied⟩
    exact ⟨offset, filesz, memsz, moved _ (.head _), moved _ (.tail _ (.head _)),
      moved _ (.tail _ (.tail _ (.head _))), (relocations permitted).mp applied⟩
  · intro every
    refine ⟨every.offset, every.filesz, fun event listed => ?_, every.memsz,
      (relocations permitted).mpr every.relocations⟩
    simp only [List.mem_cons, List.not_mem_nil, or_false] at listed
    rcases listed with rfl | rfl | rfl
    · exact every.source
    · exact every.copied
    · exact every.cleared

theorem loadEntry_inside_iff : (loadEntry area file dyn i scan).All (Permitted file loaded) ↔
      dyn + 8 * i + (Tag.of (file.word (dyn + 8 * i))).loadSpan ≤ file.size := by
  rw [loadEntry, all_loadWord_bind_iff]
  cases Tag.of (file.word (dyn + 8 * i)) with
  | rel | relsz | mxStacksize =>
    simp only [all_loadWord_bind_iff, all_pure, and_true, Permitted, Inside, Tag.loadSpan]
    omega
  | mxRamsize =>
    simp only [all_loadWord_bind_iff]
    cases ProcessPool.allocate area scan.pool (file.word (dyn + 8 * i + 4)) with
    | error | ok =>
      simp only [all_pure, all_singleton_iff, and_true, Permitted, Inside,
        Tag.loadSpan]
      omega
  | relent | mxAbi | rela | relasz | relaent | other =>
    simp only [all_pure, and_true, Permitted, Inside, Tag.loadSpan]

theorem loadSegment_inside_iff {next : Scan} (present : file.phdr i + phdrSize ≤ file.size)
    (stepped : (loadSegment area file (file.word 28) i scan).value = .ok next) :
    (loadSegment area file (file.word 28) i scan).All (Permitted file loaded) ↔
      (Dynamic file (file.phdr i) → EntriesInside file (file.phdr i)) := by
  unfold phdrSize at present
  have inside : ∀ offset, offset + 4 ≤ 32 →
      Permitted file loaded (.file ⟨file.phdr i + offset, 4⟩) := by
    intro offset within
    show file.phdr i + offset + 4 ≤ file.size
    omega
  have start := inside 0 (by omega)
  have fields : Permitted file loaded (.file ⟨file.phdr i + 4, 4⟩) ∧
      Permitted file loaded (.file ⟨file.phdr i + 20, 4⟩) ∧
      Permitted file loaded (.file ⟨file.phdr i + 24, 4⟩) :=
    ⟨inside 4 (by omega), inside 20 (by omega), inside 24 (by omega)⟩
  unfold Dynamic
  simp only [loadSegment, value_loadWord_bind] at stepped
  simp only [loadSegment, all_loadWord_bind_iff]
  rw [show file.word 28 + phdrSize * i = file.phdr i from rfl] at stepped ⊢
  simp only [Nat.add_zero] at start
  simp only [start, true_and]
  cases segment : SegmentType.of (file.word (file.phdr i)) with
  | load => simp [all_loadWord_bind_iff, all_ite_iff, all_pure, fields]
  | dynamic =>
    simp only [segment, value_loadWord_bind] at stepped
    simp only [all_loadWord_bind_iff, fields, true_and, forall_const]
    refine all_iterate_iff_of_eq_ok stepped fun index below before after _ => ?_
    rw [Nat.zero_add]
    exact loadEntry_inside_iff
  | other => simp [all_pure]

/-- The image of a program with valid sizes has room for the data segment and the stack. -/
theorem Matches.exists_block (matching : Matches info scan)
    (sizes : SizesFit config info dataSegmentSize) :
    ∃ block, scan.block = some block ∧ scan.object.image = block.address ∧
      scan.object.size = block.size ∧
      dataSegmentSize + scan.object.mainStackSize + config.watermarkLen ≤ block.size := by
  have positive := sizes.stack
  have sum := sizes.sum
  rcases matching.ramSize with zero | ⟨block, allocated, enough, address, size⟩
  · omega
  rcases matching.stackSize with zero | stack
  · omega
  exact ⟨block, allocated, address, size, by omega⟩

theorem clearedSize_le {p_filesz : Nat}
    (enough : p_filesz + object.mainStackSize + config.watermarkLen ≤ object.size) :
    p_filesz + clearedSize config object p_filesz ≤ object.size := by
  have bound := Nat.mod_le
    (object.size - p_filesz - object.mainStackSize - config.watermarkLen) (2 ^ 32)
  have same : object.size + 3 * 2 ^ 32 - p_filesz - object.mainStackSize - config.watermarkLen =
      object.size - p_filesz - object.mainStackSize - config.watermarkLen + 2 ^ 32 * 3 := by
    omega
  unfold clearedSize
  omega

/-- A relocation that is checked is applied inside the data segment. -/
theorem relocatedWord_inside {k : Nat}
    (checked : (checkRelocation file rel dataSegmentSize k ()).value = .ok ())
    (relative : RelocType.of (file.word (rel + 8 * k + 4)) = .relative) :
    image ≤ relocatedWord image (file.word (rel + 8 * k)) ∧
      relocatedWord image (file.word (rel + 8 * k)) + 4 ≤ image + dataSegmentSize ∧
      (relocatedWord image (file.word (rel + 8 * k)) - image) % 4 = 0 := by
  rw [checkRelocation, value_readWord_bind] at checked
  simp only [relative, value_readWord_bind, value_ite, value_pure,
    ite_error_eq_ok_iff] at checked
  obtain ⟨lower, upper, -, -⟩ := checked
  have base : dataBase = 0x40000000 := rfl
  have bound := Nat.mod_le (file.word (rel + 8 * k) - dataBase) (2 ^ 32)
  have same : file.word (rel + 8 * k) + 2 ^ 32 - dataBase =
      file.word (rel + 8 * k) - dataBase + 2 ^ 32 := by
    omega
  unfold relocatedWord
  omega

/-- The table of the relocations ends inside the file just if every relocation does: if the sum
does not fit in 32 bits, some relocation is behind the file. -/
theorem RelocsFit.ends_inside_iff (fit : RelocsFit file info dataSegmentSize) :
    info.dtRel + info.dtRelsz ≤ file.size ↔
      ∀ k < info.dtRelsz / 8, info.dtRel + 8 * k + 8 ≤ file.size := by
  have room := file.room
  have start := fit.start
  have ends := fit.ends
  constructor
  · intro inside k below
    omega
  · intro every
    by_cases small : info.dtRelsz / 8 = 0
    · omega
    · have := every (info.dtRelsz / 8 - 1) (by omega)
      omega

/-- The dynamic segment of an accepted program, as the loader has it. -/
structure Resolved (config : ProcessConfig) (file : ElfFile) (scan : Scan) (dataSegmentSize : Nat)
    (info : DynamicInfo) : Prop where
  matching : Matches info scan
  sizes : SizesFit config info dataSegmentSize
  hasRelocs : scan.hasRelocs = info.hasRelocs
  relocs : info.hasRelocs = true → RelocsFit file info dataSegmentSize

theorem Scanned.resolve (validated : Validated config file count progress)
    (scanned : Scanned file count scan) (below : i < count) (dynamic : Dynamic file (file.phdr i)) :
    ∃ info, dynamicInfo file (file.phdr i) = .ok info ∧
      Resolved config file scan progress.dataSegmentSize info := by
  obtain ⟨info, got, checked⟩ := dynamicInfo_of_valid (validated.valid i below dynamic).2
  obtain ⟨sizes, relocs⟩ := checkDynamicInfo_spec checked
  have matching := scanned.present i below dynamic info got
  refine ⟨info, got, matching, sizes, ?_, relocs⟩
  rw [matching.hasRelocs]
  by_cases present : info.hasRelocs = true
  · have all := (relocs present).all
    unfold DynamicInfo.allRelocs at all
    simp_all
  · unfold DynamicInfo.hasRelocs at present ⊢
    simp_all

theorem Resolved.relocations_iff (resolved : Resolved config file scan dataSegmentSize info)
    (sameBlock : loaded.block = scan.block)
    (dataBssSize : loaded.object.dataBssSize = dataSegmentSize) :
    RelocationsPermitted file scan (Permitted file loaded) ↔
      (info.hasRelocs = true → info.dtRel + info.dtRelsz ≤ file.size) := by
  obtain ⟨block, allocated, address, -, enough⟩ := resolved.matching.exists_block resolved.sizes
  unfold RelocationsPermitted
  rw [resolved.hasRelocs, resolved.matching.dtRel, resolved.matching.dtRelsz]
  refine forall_congr' fun present => ?_
  have fit := resolved.relocs present
  rw [fit.ends_inside_iff]
  refine forall₂_congr fun k below => ?_
  constructor
  · rintro ⟨-, inside, -⟩
    unfold Permitted Inside at inside
    omega
  · intro inside
    refine ⟨show info.dtRel + 8 * k + 4 ≤ file.size by omega,
      show info.dtRel + 8 * k + 4 + 4 ≤ file.size by omega, fun relative => ?_⟩
    obtain ⟨lower, upper, aligned⟩ := relocatedWord_inside (fit.checked k below) relative
    refine ⟨block, sameBlock.trans allocated, by omega, ?_⟩
    rw [← address, dataBssSize]
    exact ⟨lower, upper, aligned⟩

/-- An accepted program that is loaded is loaded safely just if it has a dynamic segment, its
entries, the data and the relocations are inside the file, and its entry point is not right behind
the code. -/
theorem load_is_safe_iff (config : ProcessConfig) (area : Area) (file : ElfFile)
    (object : ProcessImage) (pool : Pool) (ram : Ram) (loaded : Loaded)
    (accepted : (validateHeader config file).value = true)
    (succeeded : (load config area file object pool ram).value = .ok loaded) :
    LoadSafe config area file object pool ram loaded ↔ Loadable file := by
  obtain ⟨whole, passed, progress, validated, code, -⟩ := validated_of_accepted accepted
  obtain ⟨released, made, sameAccesses⟩ := exists_makeImage_of_load succeeded
  obtain ⟨scan, data, ended, found, filled, accesses⟩ := exists_scan_of_makeImage made
  obtain ⟨sameBlock, dataBssSize, fill⟩ := fillImage_spec filled
  have scanned : Scanned file (file.half 44) scan := by
    refine Logged.iterate_invariant (Scanned file) scanned_initial
      (fun index below before after held stepped => ?_) ended
    rw [Nat.zero_add] at stepped
    refine held.step (fun dynamic j earlier other => ?_) stepped
    exact absurd (validated.oneDynamic j (by omega) index below other dynamic) (by omega)
  have segments : (Logged.iterate (loadSegment area file (file.word 28)) 0 (file.half 44)
      (.initial object released)).All (Permitted file loaded) ↔
      ∀ i < file.half 44, Dynamic file (file.phdr i) → EntriesInside file (file.phdr i) := by
    refine Logged.all_iterate_iff_of_eq_ok ended fun index below before after stepped => ?_
    rw [Nat.zero_add] at stepped ⊢
    exact loadSegment_inside_iff (phdr_inside passed below) stepped
  obtain ⟨j, listed, rfl, writable⟩ := scanned.data data found
  obtain ⟨covers, dataSize⟩ := validated.dataSize j listed writable
  rw [dataSize] at dataBssSize
  constructor
  · intro safe
    obtain ⟨-, -, entries, image⟩ := (accesses _).mp (sameAccesses.mp safe.accesses)
    have filling := (fill _).mp image
    refine ⟨?_, segments.mp entries, fun i below other => ?_, fun i below dynamic info got => ?_,
      fun i below executable => (safe.entry i below executable).2⟩
    · by_contra absent
      obtain ⟨block, allocated, -⟩ := filling.copied
      have unallocated := (scanned.absent fun i below dynamic => absent ⟨i, below, dynamic⟩).2
      rw [sameBlock, unallocated] at allocated
      cases allocated
    · obtain rfl := validated.oneData i below j listed other writable
      exact filling.source
    · obtain ⟨other, otherGot, resolved⟩ := scanned.resolve validated below dynamic
      obtain rfl := Except.ok.inj (got.symm.trans otherGot)
      exact (resolved.relocations_iff sameBlock dataBssSize).mp filling.relocations
  · intro loadable
    obtain ⟨i, below, dynamic⟩ := loadable.dynamic
    obtain ⟨info, got, resolved⟩ := scanned.resolve validated below dynamic
    obtain ⟨block, allocated, address, size, enough⟩ :=
      resolved.matching.exists_block resolved.sizes
    have header : file.phdr j + phdrSize ≤ file.size := phdr_inside passed listed
    unfold ehdrSize at whole
    unfold phdrSize at header
    refine ⟨sameAccesses.mpr ((accesses _).mpr ⟨show 28 + 4 ≤ file.size by omega,
      show 44 + 2 ≤ file.size by omega, segments.mpr loadable.entries, (fill _).mpr ?_⟩),
      validated.code code, fun k within executable =>
        ⟨(validated.entry k within executable).1, loadable.entry k within executable⟩⟩
    have cleared : file.word (file.phdr j + 16) +
        clearedSize config scan.object (file.word (file.phdr j + 16)) ≤ scan.object.size :=
      clearedSize_le (by omega)
    refine ⟨show file.phdr j + 4 + 4 ≤ file.size by omega,
      show file.phdr j + 16 + 4 ≤ file.size by omega,
      show file.phdr j + 20 + 4 ≤ file.size by omega, loadable.data j listed writable,
      ⟨block, sameBlock.trans allocated, by omega, by omega⟩,
      ⟨block, sameBlock.trans allocated, by omega, by omega⟩, ?_⟩
    exact (resolved.relocations_iff sameBlock dataBssSize).mpr
      (loadable.relocations i below dynamic info got)

theorem exists_of_isOk {outcome : Except Exit Value}
    (succeeded : outcome.isOk = true) : ∃ value, outcome = .ok value := by
  cases outcome with
  | error exit => cases succeeded
  | ok value => exact ⟨value, rfl⟩

/-- The program with one relocation. -/
theorem load_is_safe_iff_relocated : ∃ (config : ProcessConfig) (area : Area) (file : ElfFile)
    (object : ProcessImage) (pool : Pool) (ram : Ram) (loaded : Loaded), file.size = 216 ∧
      (validateHeader config file).value = true ∧
      (load config area file object pool ram).value = .ok loaded ∧
      LoadSafe config area file object pool ram loaded := by
  obtain ⟨config, area, file, object, pool, ram, size, accepted, runs, loadable⟩ :
      ∃ (config : ProcessConfig) (area : Area) (file : ElfFile) (object : ProcessImage)
        (pool : Pool) (ram : Ram), file.size = 216 ∧ (validateHeader config file).value = true ∧
        (load config area file object pool ram).value.isOk = true ∧ Loadable file :=
    ⟨.sample,
      ⟨0x20000000, 64 * 1024, by decide, by decide, by decide⟩,
      .ofWords 0x08010000 relocatedWords 0 (by decide),
      ⟨0, 0, 0, 0⟩, ⟨fun _ => false, fun _ => none⟩, fun _ => 0,
      by decide, by decide +kernel, by decide +kernel, by decide +kernel⟩
  obtain ⟨loaded, succeeded⟩ := exists_of_isOk runs
  exact ⟨config, area, file, object, pool, ram, loaded, size, accepted, succeeded,
    (load_is_safe_iff config area file object pool ram loaded accepted succeeded).mpr loadable⟩

/-- A program without a dynamic segment is accepted. Its data is then written to the null
pointer. -/
theorem program_without_dynamic_segment_is_loaded : ∃ (config : ProcessConfig) (area : Area)
    (file : ElfFile) (object : ProcessImage) (pool : Pool) (ram : Ram) (loaded : Loaded),
    object.image = 0 ∧ (validateHeader config file).value = true ∧
      (load config area file object pool ram).value = .ok loaded ∧
      .write 0 8 ∈ (load config area file object pool ram).events ∧
      ¬ LoadSafe config area file object pool ram loaded := by
  obtain ⟨config, area, file, object, pool, ram, fresh, accepted, runs, written, unallocated⟩ :
      ∃ (config : ProcessConfig) (area : Area) (file : ElfFile) (object : ProcessImage)
        (pool : Pool) (ram : Ram), object.image = 0 ∧ (validateHeader config file).value = true ∧
        (load config area file object pool ram).value.isOk = true ∧
        .write 0 8 ∈ (load config area file object pool ram).events ∧
        ∀ loaded, (load config area file object pool ram).value = .ok loaded →
          loaded.block = none :=
    ⟨.sample,
      ⟨0x20000000, 64 * 1024, by decide, by decide, by decide⟩,
      .ofWords 0x08010000 (headerWords 116 2 ++ phdrWords 1 116 4 4 5 4 ++
        phdrWords 1 120 8 8 6 4 ++ [0, 0, 0]) 0 (by decide),
      ⟨0, 0, 0, 0⟩, ⟨fun _ => false, fun _ => none⟩, fun _ => 0,
      rfl, by decide +kernel, by decide +kernel, by decide +kernel, by decide +kernel⟩
  obtain ⟨loaded, succeeded⟩ := exists_of_isOk runs
  refine ⟨config, area, file, object, pool, ram, loaded, fresh, accepted, succeeded, written,
    fun safe => ?_⟩
  obtain ⟨block, allocated, -⟩ := safe.accesses _ written
  rw [unallocated loaded succeeded] at allocated
  cases allocated

end Miosix.ElfProgram
