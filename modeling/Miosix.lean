import Miosix.Thread.Join
import Miosix.Thread.Guard
import Miosix.Sync.Ownership
import Miosix.Sync.ConditionVariable
import Miosix.Sync.Semaphore
import Miosix.Sync.Queue
import Miosix.Sched.EdfSelection
import Miosix.Sched.Places
import Miosix.Sched.DeadThreads
import Miosix.Sched.Control
import Miosix.Kernel.Reachable
import Miosix.Kernel.Nanosleep
import Miosix.Kernel.IntrusiveRefPtr
import Miosix.Process.FreeRuns
import Miosix.Process.Loading
import Miosix.Process.Images
import Miosix.Process.SyscallResults
import Miosix.Process.Alignment
import Miosix.Process.Arguments
import Miosix.Process.WaitResults
import Miosix.Filesystem.Search
import Miosix.Filesystem.SdAutomounter
import Miosix.Filesystem.CompleteListing
import Miosix.Filesystem.DeviceFile
import Miosix.Filesystem.TerminalOutput
import Miosix.Filesystem.Debounce
import Miosix.Filesystem.Crc32
import Miosix.Timer.Service
import Miosix.Timer.FixedPoint
