/-
This file embeds the functions that list a directory: the helpers of `DirectoryBase` in
`filesystem/file.cpp`, and `getdents` of `MountpointFs`, `DevFs`, `RomFs` and `LittleFS`. The buffer
is the list of the records that are written to it, with the number of bytes that they take. A name
is followed by a zero byte, and a record is filled up to a multiple of four bytes, whose number is
stored in 16 bits. Maps are lists in the order of the map. The functions of littlefs that are used
are those of `lfs.c`, where the first two reads of every directory give `.` and `..`. A read may
fail at any time.
-/

import Miosix.Filesystem.Ownership

namespace Miosix.Directories

open Filesystem

/-! ### Records -/

/-- An entry of a directory, as it is given to `addEntry`. -/
structure Entry where
  ino : BitVec 32
  type : BitVec 8
  name : Path
  deriving DecidableEq, Repr

/-- A record of the buffer. -/
structure Dirent where
  d_ino : BitVec 32
  d_off : BitVec 64
  d_reclen : BitVec 16
  d_type : BitVec 8
  d_name : Path
  deriving DecidableEq, Repr

/-- What is written to the buffer so far. -/
structure Buffer where
  records : List Dirent
  used : Nat
  deriving DecidableEq, Repr

/-- Nothing is written yet. -/
def Buffer.empty : Buffer := ⟨[], 0⟩

/-- The size of a record without its name. -/
def direntHeaderSizeNoPadding : Nat := 19

/-- The size of the records of `.` and `..`. -/
def direntHeaderSize : Nat := (direntHeaderSizeNoPadding + 3 + 3) / 4 * 4

/-- Every listing refuses a smaller buffer. -/
def minimumBufferSize : Nat := 3 * direntHeaderSize

/-- The types of entries. -/
def DT_UNKNOWN : BitVec 8 := 0#8

def DT_FIFO : BitVec 8 := 1#8

def DT_CHR : BitVec 8 := 2#8

def DT_DIR : BitVec 8 := 4#8

def DT_BLK : BitVec 8 := 6#8

def DT_REG : BitVec 8 := 8#8

def DT_LNK : BitVec 8 := 10#8

def DT_SOCK : BitVec 8 := 12#8

/-- The size of the record for a name. -/
def recordLength (name : Path) : Nat := (direntHeaderSizeNoPadding + name.length + 1 + 3) / 4 * 4

section

variable (len : Nat) (buffer : Buffer) (entry : Entry)

/-- What is written for an entry. -/
def Entry.record : Dirent :=
  ⟨entry.ino, 0#64, BitVec.ofNat 16 (recordLength entry.name), entry.type, entry.name⟩

/-- The result `-1` is `none`. -/
def addEntry : Option Buffer :=
  if len < buffer.used + recordLength entry.name then none
  else some ⟨buffer.records ++ [entry.record], buffer.used + recordLength entry.name⟩

/-- The records of `.` and `..`. -/
def addDefaultEntries (thisIno upIno : BitVec 32) : Buffer :=
  ⟨buffer.records ++
      [⟨thisIno, 0#64, BitVec.ofNat 16 direntHeaderSize, DT_DIR, [.dot]⟩,
        ⟨upIno, 0#64, BitVec.ofNat 16 direntHeaderSize, DT_DIR, [.dot, .dot]⟩],
    buffer.used + 2 * direntHeaderSize⟩

/-- The record that ends a listing, which is all zero. -/
def terminatingEntry : Dirent := ⟨0#32, 0#64, 0#16, DT_UNKNOWN, []⟩

/-- The result `-1` is `none`. -/
def addTerminatingEntry : Option Buffer :=
  if len < buffer.used + direntHeaderSize then none
  else some ⟨buffer.records ++ [terminatingEntry], buffer.used + direntHeaderSize⟩

/-- All callers ignore that the terminating entry may not fit. -/
def terminated : Buffer :=
  (addTerminatingEntry len buffer).getD buffer

end

/-- The type of an entry, from the mode of its file. -/
def modeToType (mode : Flags) : BitVec 8 :=
  let type := mode &&& S_IFMT
  if type = LittleFs.S_IFREG then DT_REG
  else if type = S_IFLNK then DT_LNK
  else if type = S_IFDIR then DT_DIR
  else if type = 0x1000#32 then DT_FIFO
  else if type = 0x2000#32 then DT_CHR
  else if type = 0x6000#32 then DT_BLK
  else if type = 0xc000#32 then DT_SOCK
  else DT_UNKNOWN

/-! ### Filesystems that keep their entries in a map -/

/-- The object of an open directory. -/
structure MapDirectory where
  currentItem : Path
  first : Bool
  last : Bool
  deriving DecidableEq, Repr

/-- The loop over the entries, with those that are left when one does not fit. -/
def addEntries (len : Nat) (buffer : Buffer) : List Entry → Buffer × List Entry
  | [] => (buffer, [])
  | entry :: more =>
      match addEntry len buffer entry with
      | some buffer => addEntries len buffer more
      | none => (buffer, entry :: more)

/-- The constructor of the object. -/
def openMap (entries : List Entry) : MapDirectory :=
  ⟨(entries.head?.map Entry.name).getD [], true, false⟩

/-- `getdents` of `MountpointFsDirectory` and of `DevFsDirectory`. -/
def listMap (entries : List Entry) (currentInode parentInode : BitVec 32)
    (directory : MapDirectory) (len : Nat) : Except Int Buffer × MapDirectory :=
  if len < minimumBufferSize then (.error (-EINVAL), directory)
  else if directory.last then (.ok .empty, directory)
  else
    let buffer :=
      if directory.first then addDefaultEntries .empty currentInode parentInode else .empty
    let directory := { directory with first := false }
    if directory.currentItem = [] then
      (.ok (terminated len buffer), { directory with last := true })
    else
      match entries.dropWhile fun entry => entry.name ≠ directory.currentItem with
      | [] => (.error (-EBADF), directory)
      | found :: others =>
          match addEntries len buffer (found :: others) with
          | (buffer, []) => (.ok (terminated len buffer), { directory with last := true })
          | (buffer, next :: _) => (.ok buffer, { directory with currentItem := next.name })

namespace MountpointFs

/-- The directories of the filesystem. A map is sorted, so that an empty name is the first one. -/
structure Content where
  dirs : List (Path × BitVec 32)
  nodup : (dirs.map Prod.fst).Nodup
  emptyFirst : [] ∈ dirs.map Prod.fst → (dirs.map Prod.fst).head? = some []

/-- The entries that are listed, one for each directory. -/
def entries (content : Content) : List Entry :=
  content.dirs.map fun dir => ⟨dir.2, DT_DIR, dir.1⟩

/-- Only the root directory has entries. -/
def opened (content : Content) (root : Bool) : MapDirectory :=
  if root then openMap (entries content) else ⟨[], true, false⟩

/-- One call, with the inodes of `.` and `..`. -/
def getdents (content : Content) : BitVec 32 → BitVec 32 → MapDirectory → Nat →
    Except Int Buffer × MapDirectory :=
  listMap (entries content)

end MountpointFs

namespace DevFs

/-- The devices, with what `fstat` says of them. `addDevice` refuses an empty name. -/
structure Content where
  files : List (Path × BitVec 32 × Flags)
  nodup : (files.map Prod.fst).Nodup
  named : ∀ file ∈ files, file.1 ≠ []

/-- The entries that are listed, one for each device. -/
def entries (content : Content) : List Entry :=
  content.files.map fun file => ⟨file.2.1, (file.2.2.ushiftRight 12).setWidth 8, file.1⟩

/-- A directory that has just been opened. -/
def opened (content : Content) : MapDirectory := openMap (entries content)

/-- One call, with the inodes of `.` and `..`. -/
def getdents (content : Content) : BitVec 32 → BitVec 32 → MapDirectory → Nat →
    Except Int Buffer × MapDirectory :=
  listMap (entries content)

end DevFs

/-! ### The read-only filesystem -/

namespace RomFs

/-- What a listing reads of an entry of the image. -/
structure RomFsDirectoryEntry where
  inode : BitVec 32
  mode : Flags
  name : Path
  deriving DecidableEq, Repr

/-- Entries start at multiples of it. -/
def romFsStructAlignment : Nat := 4

/-- The size of what is before the entries of a directory. -/
def sizeofFirstEntry : Nat := 4

/-- The size of an entry without its name. -/
def sizeofDirectoryEntry : Nat := 14

/-- The position of the entry behind one with this name. -/
def nextIndex (index : Nat) (name : Path) : Nat :=
  (index + (sizeofDirectoryEntry + name.length + 1) + romFsStructAlignment - 1) /
    romFsStructAlignment * romFsStructAlignment

/-- The entry of the image at a position, if the entries start at `start`. -/
def entryAt (start : Nat) : List RomFsDirectoryEntry → Nat → Option RomFsDirectoryEntry
  | [], _ => none
  | entry :: more, index =>
      if index = start then some entry else entryAt (nextIndex start entry.name) more index

/-- The position behind the entries. -/
def endIndex (start : Nat) : List RomFsDirectoryEntry → Nat
  | [] => start
  | entry :: more => endIndex (nextIndex start entry.name) more

/-- A directory of an image. Its size ends in the last entry or behind it. -/
structure Content where
  inode : Nat
  size : Nat
  parentInode : BitVec 32
  children : List RomFsDirectoryEntry
  above : ∀ front last, children = front ++ [last] →
    endIndex (inode + sizeofFirstEntry) front < inode + size
  within : inode + size ≤ endIndex (inode + sizeofFirstEntry) children

/-- What is listed for an entry of the image. -/
def toEntry (entry : RomFsDirectoryEntry) : Entry :=
  ⟨entry.inode, modeToType entry.mode, entry.name⟩

/-- The loop of `getdents`. -/
def listFrom (content : Content) (len : Nat) : Nat → Nat → Buffer → Except Int Buffer × Nat
  | 0, index, buffer => (.ok buffer, index)
  | fuel + 1, index, buffer =>
      if index < content.inode + content.size then
        match entryAt (content.inode + sizeofFirstEntry) content.children index with
        | none => (.error (-EBADF), index)
        | some entry =>
            match addEntry len buffer (toEntry entry) with
            | none => (.ok buffer, index)
            | some buffer => listFrom content len fuel (nextIndex index entry.name) buffer
      else (.ok (terminated len buffer), index)

/-- The object of an open directory is the position of the first entry that is not handled. -/
def getdents (content : Content) (parentFsMountpointInode : BitVec 32) (index len : Nat) :
    Except Int Buffer × Nat :=
  if len < minimumBufferSize then (.error (-EINVAL), index)
  else if index = 0 then
    let upIno := if content.parentInode = 0#32 then parentFsMountpointInode else content.parentInode
    listFrom content len (content.children.length + 1) (content.inode + sizeofFirstEntry)
      (addDefaultEntries .empty (BitVec.ofNat 32 content.inode) upIno)
  else listFrom content len (content.children.length + 1) index .empty

end RomFs

/-! ### LittleFS -/

namespace LittleFs

open Miosix.LittleFs

/-- Where in the volume a directory is. -/
inductive Level where
  | rootDirectory
  | childOfRootDirectory
  | otherDirectory
  deriving DecidableEq, Repr

/-- What `lfs_dir_read` tells of an entry. -/
structure LfsInfo where
  isRegular : Bool
  block : BitVec 32
  name : Path
  deriving DecidableEq, Repr

/-- The length of the longest name. -/
def LFS_NAME_MAX : Nat := 255

/-- A directory of the volume. The names of its entries are not `.` or `..`, and they are short. -/
structure Content where
  ownBlock : BitVec 32
  parentBlock : BitVec 32
  children : List LfsInfo
  short : ∀ child ∈ children, child.name.length ≤ LFS_NAME_MAX
  named : ∀ child ∈ children, child.name ≠ [.dot] ∧ child.name ≠ [.dot, .dot]

section

variable (content : Content) (level : Level) (parentFsMountpointInode : BitVec 32)
  (fault : Nat → Int)

/-- What is read of a directory, whichever it is: the first two positions are special. -/
def infos : List LfsInfo :=
  ⟨false, content.ownBlock, [.dot]⟩ :: ⟨false, content.parentBlock, [.dot, .dot]⟩ ::
    content.children

/-- The object of an open directory, with the position of the library in it and the number of reads
so far. -/
structure LittleFSDirectory where
  pos : Nat
  reads : Nat
  directoryTraversalUnfinished : Bool
  dirInfo : LfsInfo
  deriving DecidableEq, Repr

/-- A directory that has just been opened. -/
def opened : LittleFSDirectory := ⟨0, 0, false, ⟨false, 0#32, []⟩⟩

/-- A read fails if its fault is negative. -/
def lfs_dir_read (directory : LittleFSDirectory) :
    Int × LittleFSDirectory :=
  if fault directory.reads < 0 then
    (fault directory.reads, { directory with reads := directory.reads + 1 })
  else
    match (infos content)[directory.pos]? with
    | some info =>
        (1, { directory with
          pos := directory.pos + 1, reads := directory.reads + 1, dirInfo := info })
    | none => (0, { directory with reads := directory.reads + 1, dirInfo := ⟨false, 0#32, []⟩ })

/-- The entry that `addLastLFSDirEntry` adds. -/
def toEntry (info : LfsInfo) : Entry :=
  ⟨if level = .childOfRootDirectory ∧ info.name = [.dot, .dot] then 1#32 else info.block,
    if info.isRegular then DT_REG else DT_DIR, info.name⟩

/-- The loop of `getdents`. -/
def listFrom (content : Content) (level : Level) (fault : Nat → Int) (len : Nat) :
    Nat → LittleFSDirectory → Buffer → Except Int Buffer × LittleFSDirectory
  | 0, directory, buffer => (.ok buffer, directory)
  | fuel + 1, directory, buffer =>
      let answer := lfs_dir_read content fault directory
      if 0 < answer.1 then
        match addEntry len buffer (toEntry level answer.2.dirInfo) with
        | none => (.ok buffer, { answer.2 with directoryTraversalUnfinished := true })
        | some buffer => listFrom content level fault len fuel answer.2 buffer
      else if answer.1 < 0 then (.error (lfsErrorToPosix answer.1), answer.2)
      else (.ok (terminated len buffer), answer.2)

/-- One call. An entry that was read and did not fit is the first one to be added. -/
def getdents (directory : LittleFSDirectory) (len : Nat) :
    Except Int Buffer × LittleFSDirectory :=
  if len < minimumBufferSize then (.error (-EINVAL), directory)
  else
    let buffer :=
      if directory.directoryTraversalUnfinished = false ∧ level = .rootDirectory then
        addDefaultEntries .empty 1#32 parentFsMountpointInode
      else .empty
    if directory.directoryTraversalUnfinished then
      let directory := { directory with directoryTraversalUnfinished := false }
      match addEntry len buffer (toEntry level directory.dirInfo) with
      | none => (.error (-EINVAL), directory)
      | some buffer =>
          listFrom content level fault len ((infos content).length + 1) directory buffer
    else listFrom content level fault len ((infos content).length + 1) directory buffer

end

end LittleFs

end Miosix.Directories
