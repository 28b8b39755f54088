/-
This file embeds the handling of system calls, `Process::handleSvc` of `kernel/process.cpp`, with
`validateStringArray`, `ArgsBlock` and `FileDescriptorTable::pipe`.

The services that a system call uses (the filesystem, the clock, the creation of processes) are a
parameter: they answer a request with a number or an exception, and touch the memory that they are
given in the request. The local variables that are not initialised have the previous content of
the stack.
-/

import Miosix.Lib.Bytes
import Miosix.Lib.Errno
import Miosix.Process.Protection

namespace Miosix.Syscalls

open Protection Function

/-! ### System calls -/

/-- `Syscall`, without the two that never get to `handleSvc`. -/
inductive Syscall where
  | OPEN | CLOSE | READ | WRITE | LSEEK | STAT | LSTAT | FSTAT | FCNTL | IOCTL | ISATTY | GETCWD
  | CHDIR | GETDENTS | MKDIR | RMDIR | LINK | UNLINK | SYMLINK | READLINK | TRUNCATE | FTRUNCATE
  | RENAME | CHMOD | FCHMOD | CHOWN | FCHOWN | LCHOWN | DUP | DUP2 | PIPE | ACCESS | GETTIME64
  | NANOSLEEP64 | GETTIME | SETTIME | NANOSLEEP | GETRES | ADJTIME | EXIT | EXECVE | SPAWN | KILL
  | WAITPID | GETPID | GETPPID | GETUID | GETGID | GETEUID | GETEGID | SETUID | SETGID | MOUNT
  | UMOUNT | MKFS | SYSCONF
  deriving DecidableEq, Repr

/-- The system calls from number 2 on. Two numbers are reserved. -/
def Syscall.numbered : List (Option Syscall) :=
  [some .OPEN, some .CLOSE, some .READ, some .WRITE, some .LSEEK, some .STAT, some .LSTAT,
    some .FSTAT, some .FCNTL, some .IOCTL, some .ISATTY, some .GETCWD, some .CHDIR,
    some .GETDENTS, some .MKDIR, some .RMDIR, some .LINK, some .UNLINK, some .SYMLINK,
    some .READLINK, some .TRUNCATE, some .FTRUNCATE, some .RENAME, some .CHMOD, some .FCHMOD,
    some .CHOWN, some .FCHOWN, some .LCHOWN, some .DUP, some .DUP2, some .PIPE, some .ACCESS,
    none, none, some .GETTIME64, some .NANOSLEEP64, some .GETTIME, some .SETTIME,
    some .NANOSLEEP, some .GETRES, some .ADJTIME, some .EXIT, some .EXECVE, some .SPAWN,
    some .KILL, some .WAITPID, some .GETPID, some .GETPPID, some .GETUID, some .GETGID,
    some .GETEUID, some .GETEGID, some .SETUID, some .SETGID, some .MOUNT, some .UMOUNT,
    some .MKFS, some .SYSCONF]

def Syscall.of (id : Nat) : Option Syscall :=
  if id < 2 then none else (Syscall.numbered.getD (id - 2) none)

/-- The parameters of a system call, which are its results too. -/
abbrev Registers := Nat → UInt32

def getParameter (sp : Registers) (index : Nat) : Nat := (sp index).toNat

def setParameter (sp : Registers) (index : Nat) (value : Int) : Registers :=
  update sp index (UInt32.ofNat (value % 2 ^ 32).toNat)

/-- The signal of a bad system call. -/
def SIGSYS : Int := 12

/-- The flag of `open` that has a third parameter. -/
def O_CREAT : Nat := 0x200

/-- The commands of `fcntl` that have a third parameter: `F_DUPFD`, `F_SETFD` and `F_SETFL`. -/
def fcntlWithInt : List Nat := [0, 2, 4]

def aligned (pointer : Nat) : Bool := pointer % 4 == 0

/-! ### Services -/

/-- The fields of `ArgsBlock` but for its content. -/
structure ArgsBlock where
  narg : Nat
  blockSize : Nat
  envArrayIndex : Nat
  deriving DecidableEq, Repr

/-- The services of the kernel that system calls use. -/
inductive Service where
  | openFile (name flags mode : Nat)
  | close (fd : Nat)
  | read (fd ptr size : Nat)
  | write (fd ptr size : Nat)
  | lseek (fd pos whence : Nat)
  | stat (file pstat : Nat)
  | lstat (file pstat : Nat)
  | fstat (fd pstat : Nat)
  | fcntl (fd cmd arg : Nat)
  | isatty (fd : Nat)
  | getcwd (buf size : Nat)
  | chdir (str : Nat)
  | getdents (fd buf size : Nat)
  | mkdir (path mode : Nat)
  | rmdir (str : Nat)
  | unlink (file : Nat)
  | readlink (path buf size : Nat)
  | truncate (path size : Nat)
  | ftruncate (fd size : Nat)
  | rename (oldp newp : Nat)
  | chmod (path mode : Nat)
  | chown (path uid gid : Nat)
  | dup (fd : Nat)
  | dup2 (oldfd newfd : Nat)
  | newPipe (first second : Int)
  | access (path mode : Nat)
  | getTime
  | osTimerGetFrequency
  | nanoSleepUntil (time : Nat)
  | clockNanosleep (clock flags req rem : Nat)
  | newBlock (size : Nat)
  | elfProgram (path : Nat)
  | load (args : ArgsBlock)
  | create (args : ArgsBlock)
  | waitpid (pid wstatus options : Nat)
  | sysconf (query : Nat)

/-- What a call of `getdents` finds to list: whether it begins with the default entries, and the
lengths of the names of the entries that follow. -/
structure Listing where
  first : Bool
  names : List Nat
  deriving DecidableEq, Repr

/-- The build and the services: whether there are permissions, the sizes of the structures of the
C library, the limits of the settings, which descriptors are in use, what there is to list for a
descriptor of a directory, and how a request is answered. The exception of a service is caught in
`handleSvc`. -/
structure Kernel (World : Type) where
  withPosixPermissions : Bool
  statSize : Nat
  timespecSize : Nat
  direntHeaderSizeNoPadding : Nat
  maxOpenFiles : Nat
  maxArgs : Nat
  maxArgsBlockSize : Nat
  stackAlignment : Nat
  inUse : World → Nat → Bool
  listing : World → Nat → Option Listing
  serve : World → Service → Except Unit Int × World
  stat_small : statSize < 2 ^ 32
  timespec_small : timespecSize < 2 ^ 32

section

variable (memory : Memory)

/-- A string that is read. -/
def stringRead (str : Nat) : Access := .read str (strlen memory str + 1)

/-- The memory of the process that a service touches. -/
def footprint {World : Type} (kernel : Kernel World) (memory : Memory) : Service → List Access
  | .openFile str _ _ | .chdir str | .mkdir str _ | .rmdir str | .unlink str | .truncate str _
  | .chmod str _ | .chown str _ _ | .access str _ | .elfProgram str => [stringRead memory str]
  | .rename oldp newp => [stringRead memory oldp, stringRead memory newp]
  | .read _ ptr size | .getcwd ptr size | .getdents _ ptr size => [.write ptr size]
  | .write _ ptr size => [.read ptr size]
  | .stat file pstat | .lstat file pstat => [stringRead memory file, .write pstat kernel.statSize]
  | .fstat _ pstat => [.write pstat kernel.statSize]
  | .readlink path buf size => [stringRead memory path, .write buf size]
  | .clockNanosleep _ _ req rem => .read req kernel.timespecSize ::
      if rem = 0 then [] else [.write rem kernel.timespecSize]
  | .waitpid _ wstatus _ => if wstatus = 0 then [] else [.write wstatus 4]
  | .close _ | .lseek _ _ _ | .fcntl _ _ _ | .isatty _ | .ftruncate _ _ | .dup _ | .dup2 _ _
  | .newPipe _ _ | .getTime | .osTimerGetFrequency | .nanoSleepUntil _ | .newBlock _ | .load _
  | .create _ | .sysconf _ => []

/-! ### Objects of words -/

/-- The size of an entry without a name, with its padding. -/
def direntHeaderSize (noPadding : Nat) : Nat := (noPadding + 3 + 3) / 4 * 4

/-- `addEntry` for one name after the other, up to the first one that does not fit: where the
entries are. -/
def addEntries (noPadding last : Nat) : Nat → List Nat → List Nat
  | _, [] => []
  | pos, name :: rest =>
      if last - pos < (noPadding + name + 1 + 3) / 4 * 4 then []
      else pos :: addEntries noPadding last (pos + (noPadding + name + 1 + 3) / 4 * 4) rest

/-- `getdents` of a directory: where its entries are. `addDefaultEntries` comes first. The entry at
the end is only cleared. -/
def direntPositions (noPadding dp len : Nat) (listing : Listing) : List Nat :=
  if 2 ^ 31 ≤ len ∨ len < 3 * direntHeaderSize noPadding then []
  else if listing.first then
    dp :: (dp + direntHeaderSize noPadding) ::
      addEntries noPadding (dp + len) (dp + 2 * direntHeaderSize noPadding) listing.names
  else addEntries noPadding (dp + len) dp listing.names

/-- `FileDescriptorTable::getdents`: the entries that are accessed. -/
def dirents {World : Type} (kernel : Kernel World) (world : World) (fd dp len : Nat) : List Nat :=
  if dp = 0 then []
  else if dp % 4 ≠ 0 then []
  else ((kernel.listing world fd).map
    (direntPositions kernel.direntHeaderSizeNoPadding dp len)).getD []

/-- The pointers of the process that a service dereferences as an object of words. The time that is
left of a sleep is never written, and a null pointer is an error of `clock_nanosleep`. -/
def objects {World : Type} (kernel : Kernel World) (world : World) : Service → List Nat
  | .stat _ pstat | .lstat _ pstat | .fstat _ pstat => [pstat]
  | .getdents fd dp len => dirents kernel world fd dp len
  | .clockNanosleep _ _ req _ => if req = 0 then [] else [req]
  | .waitpid _ wstatus _ => if wstatus = 0 then [] else [wstatus]
  | _ => []

/-! ### Computations of the kernel -/

/-- A computation that calls services, may end with an exception, and logs its accesses to the
memory of the process. -/
def Svc (World Value : Type) : Type := World → Logged Access (Except Unit Value × World)

/-- What follows a computation: nothing after an exception. -/
def Svc.proceed {World Value Result : Type} (next : Value → Svc World Result) :
    Except Unit Value × World → Logged Access (Except Unit Result × World)
  | (.error exception, after) => return (.error exception, after)
  | (.ok value, after) => next value after

instance {World : Type} : Monad (Svc World) where
  pure value := fun world => pure (.ok value, world)
  bind first next := fun world => first world >>= Svc.proceed next

theorem bind_apply {World Value Result : Type} (first : Svc World Value)
    (next : Value → Svc World Result) (world : World) :
    (first >>= next) world = first world >>= Svc.proceed next := rfl

/-- A computation that calls no service. -/
def Svc.access {World Value : Type} (computation : Logged Access Value) : Svc World Value :=
  fun world => ⟨(.ok computation.value, world), computation.events⟩

/-- What a computation finds in the state of the kernel. -/
def Svc.inspect {World Value : Type} (view : World → Value) : Svc World Value :=
  fun world => pure (.ok (view world), world)

def Svc.call {World : Type} (kernel : Kernel World) (memory : Memory) (service : Service) :
    Svc World Int :=
  fun world => ⟨kernel.serve world service,
    footprint kernel memory service ++ (objects kernel world service).map .object⟩

/-- `try`: there is no value after an exception. -/
def Svc.attempt {World Value : Type} (computation : Svc World Value) : Svc World (Option Value) :=
  fun world => do
    match ← computation world with
    | (.error _, after) => return (.ok none, after)
    | (.ok value, after) => return (.ok (some value), after)

/-! ### Arguments of programs -/

def loadPointer (address : Nat) : Logged Access Nat :=
  ⟨Bytes.word memory address, [.read address 4, .object address]⟩

/-- A call of `strlen`. -/
def measureString (str : Nat) : Logged Access Nat :=
  ⟨strlen memory str, [stringRead memory str]⟩

/-- The address of an element of an array of pointers. -/
def element (a i : Nat) : Nat := (a + 4 * i) % 2 ^ 32

/-- The loop of `validateStringArray`. No array has more elements than there are words. -/
def validateElements (memory : Memory) (mpu : MPUConfiguration) (a : Nat) :
    Nat → Nat → Logged Access (Option Nat)
  | 0, _ => return none
  | fuel + 1, i => do
      if withinForReading mpu (element a i) 4 = false then return none
      let str ← loadPointer memory (element a i)
      if str = 0 then return some i
      if (← withinForReadingString memory mpu str) = false then return none
      validateElements memory mpu a fuel (i + 1)

/-- `validateStringArray`: the number of strings, or none on failure. -/
def validateStringArray (mpu : MPUConfiguration) (a : Nat) : Logged Access (Option Nat) :=
  validateElements memory mpu a (2 ^ 30) 0

/-- The sum of the sizes of the strings of an array. -/
def sumLengths (a n : Nat) : Logged Access Nat :=
  (List.range n).foldlM (fun total i => do
    let str ← loadPointer memory (element a i)
    let length ← measureString memory str
    return total + (length + 1)) 0

/-- `add` of the constructor of `ArgsBlock`: each string is copied and measured again. -/
def copyStrings (a n : Nat) : Logged Access Unit :=
  (List.range n).foldlM (fun _ i => do
    let source ← loadPointer memory (element a i)
    let _ ← measureString memory source
    let str ← loadPointer memory (element a i)
    let _ ← measureString memory str
    return ()) ()

end

/-- The constructor of `ArgsBlock`. There is no value if the object is not valid. -/
def argsBlock {World : Type} (kernel : Kernel World) (memory : Memory) (argv envp narg nenv : Nat) :
    Svc World (Option ArgsBlock) := do
  let arrayBlockSize := 4 * (narg + nenv + 2) % 2 ^ 32
  let argLengths ← Svc.access (sumLengths memory argv narg)
  let envLengths ← Svc.access (sumLengths memory envp nenv)
  let argBlockSize := arrayBlockSize + argLengths + envLengths
  if kernel.maxArgs < narg ∨ kernel.maxArgs < nenv ∨ kernel.maxArgsBlockSize < argBlockSize then
    return none
  let blockSize := (argBlockSize + kernel.stackAlignment - 1) / kernel.stackAlignment *
    kernel.stackAlignment
  if kernel.maxArgsBlockSize < blockSize then return none
  let _ ← Svc.call kernel memory (.newBlock blockSize)
  Svc.access (copyStrings memory argv narg)
  Svc.access (copyStrings memory envp nenv)
  return some ⟨narg, blockSize, 4 * (narg + 1)⟩

/-- `Process::spawn`. -/
def spawn {World : Type} (kernel : Kernel World) (memory : Memory)
    (path argv envp narg nenv : Nat) : Svc World Int := do
  match ← argsBlock kernel memory argv envp narg nenv with
  | none => return -E2BIG
  | some args =>
      let errorCode ← Svc.call kernel memory (.elfProgram path)
      if errorCode ≠ 0 then return errorCode
      Svc.call kernel memory (.create args)

/-! ### Local variables -/

/-- The previous content of the stack of the kernel. -/
abbrev Stack := Nat → Int

/-- The loop of `FileDescriptorTable::pipe` over the descriptors: the number of free ones that are
found, and the array. -/
def findDescriptors (inUse : Nat → Bool) : List Nat → Nat → (Nat → Int) → Nat × (Nat → Int)
  | [], availableFds, fds => (availableFds, fds)
  | i :: rest, availableFds, fds =>
      if inUse i then findDescriptors inUse rest availableFds fds
      else if availableFds + 1 ≥ 2 then (availableFds + 1, update fds availableFds i)
      else findDescriptors inUse rest (availableFds + 1) (update fds availableFds i)

/-- `FileDescriptorTable::pipe`: the result, and the array after the call. -/
def pipe {World : Type} (kernel : Kernel World) (memory : Memory) (fds : Nat → Int) :
    Svc World (Int × (Nat → Int)) := do
  let inUse ← Svc.inspect kernel.inUse
  let (availableFds, fds) := findDescriptors inUse (List.range kernel.maxOpenFiles) 0 fds
  if availableFds < 2 then return (-EMFILE, fds)
  let _ ← Svc.call kernel memory (.newPipe (fds 0) (fds 1))
  return (0, fds)

structure Timespec where
  tv_sec : Int
  tv_nsec : Int
  deriving DecidableEq, Repr

def nsPerSec : Int := 1000000000

/-- `clock_gettime`, for a structure that is not the null pointer. -/
def clockGettime {World : Type} (kernel : Kernel World) (memory : Memory) (_ : Timespec) :
    Svc World (Int × Timespec) := do
  let ns ← Svc.call kernel memory .getTime
  return (0, ⟨ns / nsPerSec, ns % nsPerSec⟩)

/-- `clock_getres`. -/
def clockGetres {World : Type} (kernel : Kernel World) (memory : Memory) (_ : Timespec) :
    Svc World (Int × Timespec) := do
  let frequency ← Svc.call kernel memory .osTimerGetFrequency
  let resolution := 2 * nsPerSec / frequency
  let rounded := if resolution % 2 = 1 then resolution / 2 + 1 else resolution / 2
  return (0, ⟨0, rounded⟩)

/-! ### The handler -/

inductive SvcResult where
  | Resume
  | Exit
  | Execve
  | Segfault
  deriving DecidableEq, Repr

/-- The fields of a process that system calls use. -/
structure Process where
  pid : Int
  ppid : Int
  ruid : Int
  rgid : Int
  euid : Int
  egid : Int
  exitCode : Int
  deriving DecidableEq, Repr

def setuid (process : Process) (newUid : Int) : Int × Process :=
  if process.euid = 0 then (0, { process with ruid := newUid, euid := newUid })
  else if newUid = process.euid ∨ newUid = process.ruid then
    (0, { process with euid := newUid })
  else (-EPERM, process)

def setgid (process : Process) (newGid : Int) : Int × Process :=
  if process.euid = 0 then (0, { process with rgid := newGid, egid := newGid })
  else if newGid = process.egid ∨ newGid = process.rgid then
    (0, { process with egid := newGid })
  else (-EPERM, process)

structure Outcome where
  result : SvcResult
  registers : Registers
  process : Process

/-- The environment of a system call: the services, the memory and the protection of the process,
its fields, and the parameters. -/
structure Env (World : Type) where
  kernel : Kernel World
  memory : Memory
  mpu : MPUConfiguration
  process : Process
  sp : Registers

variable {World : Type}

namespace Env

section

variable (env : Env World) (index : Nat)

def param : Nat := getParameter env.sp index

/-- A parameter of two registers. -/
def param64 : Nat :=
  env.param index + 2 ^ 32 * env.param (index + 1)

def call (env : Env World) (service : Service) : Svc World Int :=
  Svc.call env.kernel env.memory service

section

variable (str : Nat) (service : Service)

def isString : Svc World Bool :=
  Svc.access (withinForReadingString env.memory env.mpu str)

/-- The process goes on with some of the registers set. -/
def resume (registers : Registers) : Outcome :=
  ⟨.Resume, registers, env.process⟩

/-- The process goes on with a result in the first register. -/
def answer (value : Int) : Outcome := env.resume (setParameter env.sp 0 value)

/-- A system call that is not supported. -/
def stub (code : Int) : Svc World Outcome := return env.answer code

/-- A system call that passes numbers on. -/
def plain : Svc World Outcome :=
  return env.answer (← env.call service)

/-- A system call that passes a string on. -/
def withString : Svc World Outcome := do
  if ← env.isString str then return env.answer (← env.call service)
  else return env.answer (-EFAULT)

/-- A system call on the permissions of a file. -/
def withPermissions : Svc World Outcome :=
  if env.kernel.withPosixPermissions then env.withString str service
  else return env.answer (-EFAULT)

/-- A system call with a buffer that is written. -/
def withBuffer (ptr size : Nat) (service : Service) : Svc World Outcome := do
  if withinForWriting env.mpu ptr size then return env.answer (← env.call service)
  else return env.answer (-EFAULT)

def statCall : Svc World Outcome := do
  if (← env.isString (env.param 0)) && withinForWriting env.mpu (env.param 1) env.kernel.statSize &&
      aligned (env.param 1) then
    return env.answer (← env.call service)
  else return env.answer (-EFAULT)

end

/-- A system call that reads a field on users or groups. -/
def identity (field : Int) : Svc World Outcome :=
  return env.answer (if env.kernel.withPosixPermissions then field else -EFAULT)

/-- A system call that sets users or groups. -/
def setIdentity (change : Process → Int → Int × Process) : Svc World Outcome :=
  if env.kernel.withPosixPermissions then
    return ⟨.Resume, setParameter env.sp 0 (change env.process (env.param 0)).1,
      (change env.process (env.param 0)).2⟩
  else return env.answer (-EFAULT)

def lseek (env : Env World) : Svc World Outcome := do
  let result ← env.call (.lseek (env.param 0) (env.param64 2) (env.param 1))
  return env.resume (setParameter (setParameter env.sp 0 (result % 2 ^ 32)) 1 (result / 2 ^ 32))

/-- The third parameter is passed on only if it is a number. -/
def fcntl (env : Env World) : Svc World Outcome :=
  env.plain (.fcntl (env.param 0) (env.param 1)
    (if fcntlWithInt.contains (env.param 1) then env.param 2 else 0))

def getcwd (env : Env World) : Svc World Outcome := do
  if withinForWriting env.mpu (env.param 0) (env.param 1) then
    let result ← env.call (.getcwd (env.param 0) (env.param 1))
    return env.resume (setParameter env.sp 1 result)
  else return env.resume (setParameter env.sp 1 (-EFAULT))

def readlink (env : Env World) : Svc World Outcome := do
  if (← env.isString (env.param 0)) && withinForWriting env.mpu (env.param 1) (env.param 2) then
    return env.answer (← env.call (.readlink (env.param 0) (env.param 1) (env.param 2)))
  else return env.answer (-EFAULT)

/-- The second string is looked at only if the first one is accepted. -/
def rename (env : Env World) : Svc World Outcome := do
  if ← env.isString (env.param 0) then
    if ← env.isString (env.param 1) then
      return env.answer (← env.call (.rename (env.param 0) (env.param 1)))
    else return env.answer (-EFAULT)
  else return env.answer (-EFAULT)

def pipe (env : Env World) (stack : Stack) : Svc World Outcome := do
  let (result, fds) ← Syscalls.pipe env.kernel env.memory stack
  return env.resume
    (setParameter (setParameter (setParameter env.sp 0 result) 1 (fds 0)) 2 (fds 1))

def gettime64 : Svc World Outcome := do
  let t ← env.call .getTime
  return env.resume (setParameter (setParameter env.sp 0 (t % 2 ^ 32)) 1 (t / 2 ^ 32))

def nanosleep64 : Svc World Outcome := do
  let _ ← env.call (.nanoSleepUntil (env.param64 0))
  return env.resume env.sp

section

variable (errno : Int) (stack : Stack)

/-- The error number is not set by `clock_gettime`, which always succeeds. -/
def gettime : Svc World Outcome := do
  let (result, tp) ← clockGettime env.kernel env.memory ⟨stack 0, stack 1⟩
  if result = 0 then
    return env.resume (setParameter (setParameter (setParameter (setParameter env.sp 0 0) 1
      tp.tv_nsec) 2 (tp.tv_sec % 2 ^ 32)) 3 (tp.tv_sec / 2 ^ 32))
  else
    return env.resume (setParameter (setParameter (setParameter (setParameter env.sp 0 (-errno)) 1
      0) 2 0) 3 0)

/-- The error code is positive. -/
def nanosleep : Svc World Outcome := do
  let req := env.param 2
  let rem := env.param 3
  if withinForReading env.mpu req env.kernel.timespecSize &&
      (rem == 0 || withinForWriting env.mpu rem env.kernel.timespecSize) then
    return env.answer (← env.call (.clockNanosleep (env.param 0) (env.param 1) req rem))
  else return env.answer EFAULT

def getres : Svc World Outcome := do
  let (result, tv) ← clockGetres env.kernel env.memory ⟨stack 0, stack 1⟩
  if result = 0 then
    return env.resume (setParameter (setParameter env.sp 0 0) 1 tv.tv_nsec)
  else return env.resume (setParameter (setParameter env.sp 0 (-errno)) 1 0)

/-- A system call with a path and two arrays of strings. The arrays are looked at first. -/
def withArguments (path argv envp : Nat)
    (accepted : Nat → Nat → Svc World Outcome) : Svc World Outcome := do
  let narg ← Svc.access (validateStringArray env.memory env.mpu argv)
  let nenv ← Svc.access (validateStringArray env.memory env.mpu envp)
  if ← env.isString path then
    match narg, nenv with
    | some narg, some nenv => accepted narg nenv
    | _, _ => return env.answer (-EFAULT)
  else return env.answer (-EFAULT)

def execve : Svc World Outcome :=
  let path := env.param 0
  let argv := env.param 1
  let envp := env.param 2
  env.withArguments path argv envp fun narg nenv => do
    match ← argsBlock env.kernel env.memory argv envp narg nenv with
    | none => return env.answer (-E2BIG)
    | some args =>
        let errorCode ← env.call (.elfProgram path)
        if errorCode ≠ 0 then return env.answer errorCode
        match ← Svc.attempt (env.call (.load args)) with
        | none => return ⟨.Segfault, env.sp, env.process⟩
        | some _ => return ⟨.Execve, env.sp, env.process⟩

/-- `SpawnArgs` is copied: five pointers, the second and the third of which are not used. -/
def spawn (env : Env World) : Svc World Outcome := do
  let ptr := env.param 0
  if withinForReading env.mpu ptr 20 = false then return env.answer (-EFAULT)
  Svc.access ⟨(), [.read ptr 20]⟩
  let path := Bytes.word env.memory ptr
  let argv := Bytes.word env.memory (ptr + 12)
  let envp := Bytes.word env.memory (ptr + 16)
  env.withArguments path argv envp fun narg nenv => do
    return env.answer (← Syscalls.spawn env.kernel env.memory path argv envp narg nenv)

def waitpid (env : Env World) : Svc World Outcome := do
  let wstatus := env.param 1
  if wstatus == 0 || (withinForWriting env.mpu wstatus 4 && aligned wstatus) then
    return env.answer (← env.call (.waitpid (env.param 0) wstatus (env.param 2)))
  else return env.answer (-EFAULT)

/-- The cases of `handleSvc`. -/
def handleCall : Syscall → Svc World Outcome
  | .OPEN => env.withString (env.param 0) (.openFile (env.param 0) (env.param 1)
      (if env.param 1 &&& O_CREAT ≠ 0 then env.param 2 else 0))
  | .CLOSE => env.plain (.close (env.param 0))
  | .READ => env.withBuffer (env.param 1) (env.param 2)
      (.read (env.param 0) (env.param 1) (env.param 2))
  | .WRITE => do
      if withinForReading env.mpu (env.param 1) (env.param 2) then
        return env.answer (← env.call (.write (env.param 0) (env.param 1) (env.param 2)))
      else return env.answer (-EFAULT)
  | .LSEEK => env.lseek
  | .STAT => env.statCall (.stat (env.param 0) (env.param 1))
  | .LSTAT => env.statCall (.lstat (env.param 0) (env.param 1))
  | .FSTAT => do
      if withinForWriting env.mpu (env.param 1) env.kernel.statSize && aligned (env.param 1) then
        return env.answer (← env.call (.fstat (env.param 0) (env.param 1)))
      else return env.answer (-EFAULT)
  | .FCNTL => env.fcntl
  | .IOCTL => env.stub (-EFAULT)
  | .ISATTY => env.plain (.isatty (env.param 0))
  | .GETCWD => env.getcwd
  | .CHDIR => env.withString (env.param 0) (.chdir (env.param 0))
  | .GETDENTS => env.withBuffer (env.param 1) (env.param 2)
      (.getdents (env.param 0) (env.param 1) (env.param 2))
  | .MKDIR => env.withString (env.param 0) (.mkdir (env.param 0) (env.param 1))
  | .RMDIR => env.withString (env.param 0) (.rmdir (env.param 0))
  | .LINK => env.stub (-EMLINK)
  | .UNLINK => env.withString (env.param 0) (.unlink (env.param 0))
  | .SYMLINK => env.stub (-ENOENT)
  | .READLINK => env.readlink
  | .TRUNCATE => env.withString (env.param 0) (.truncate (env.param 0) (env.param64 2))
  | .FTRUNCATE => env.plain (.ftruncate (env.param 0) (env.param64 2))
  | .RENAME => env.rename
  | .CHMOD => env.withPermissions (env.param 0) (.chmod (env.param 0) (env.param 1))
  | .FCHMOD => env.stub (-EFAULT)
  | .CHOWN => env.withPermissions (env.param 0) (.chown (env.param 0) (env.param 1) (env.param 2))
  | .FCHOWN => env.stub (-EFAULT)
  | .LCHOWN => env.stub (-EFAULT)
  | .DUP => env.plain (.dup (env.param 0))
  | .DUP2 => env.plain (.dup2 (env.param 0) (env.param 1))
  | .PIPE => env.pipe stack
  | .ACCESS => env.withPermissions (env.param 0) (.access (env.param 0) (env.param 1))
  | .GETTIME64 => env.gettime64
  | .NANOSLEEP64 => env.nanosleep64
  | .GETTIME => env.gettime errno stack
  | .SETTIME => env.stub (-EFAULT)
  | .NANOSLEEP => env.nanosleep
  | .GETRES => env.getres errno stack
  | .ADJTIME => env.stub (-EFAULT)
  | .EXIT => return ⟨.Exit, env.sp, { env.process with exitCode := env.param 0 % 256 * 256 }⟩
  | .EXECVE => env.execve
  | .SPAWN => env.spawn
  | .KILL => env.stub (-EFAULT)
  | .WAITPID => env.waitpid
  | .GETPID => return env.answer env.process.pid
  | .GETPPID => return env.answer env.process.ppid
  | .GETUID => env.identity env.process.ruid
  | .GETGID => env.identity env.process.rgid
  | .GETEUID => env.identity env.process.euid
  | .GETEGID => env.identity env.process.egid
  | .SETUID => env.setIdentity setuid
  | .SETGID => env.setIdentity setgid
  | .MOUNT => env.stub (-EFAULT)
  | .UMOUNT => env.stub (-EFAULT)
  | .MKFS => env.stub (-EFAULT)
  | .SYSCONF => env.plain (.sysconf (env.param 0))

end

end

end Env

/-- `Process::handleSvc`. -/
def handleSvc (env : Env World) (id : Nat) (errno : Int) (stack : Stack) (world : World) :
    Logged Access (Outcome × World) :=
  match Syscall.of id with
  | none => return (⟨.Segfault, env.sp, { env.process with exitCode := SIGSYS }⟩, world)
  | some call => do
      match ← env.handleCall errno stack call world with
      | (.ok outcome, after) => return (outcome, after)
      | (.error _, after) => return (env.answer (-ENOMEM), after)

end Miosix.Syscalls
