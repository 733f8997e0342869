import HostServices.AddressSpace.Listing
import HostServices.Alignment
import HostServices.Arena
import HostServices.ByteSize
import HostServices.CallSite
import HostServices.Category
import HostServices.Diagnostics.Frame
import HostServices.Diagnostics.Location
import HostServices.Diagnostics.Time
import HostServices.FileTree
import HostServices.FreshAllocator
import HostServices.Heap.Current
import HostServices.Heap.Staged
import HostServices.Json.Printer
import HostServices.Ledger.Report
import HostServices.Log.Config.Encoding
import HostServices.Log.Logger
import HostServices.MachineProfile
import HostServices.MallocLimit
import HostServices.MemoryConfig.Encoding
import HostServices.MemoryError
import HostServices.PageSizeSelector
import HostServices.Pause
import HostServices.PosixHost
import HostServices.Random
import HostServices.Recorder
import HostServices.SearchPath
import HostServices.ServiceError
import HostServices.Signal.Forwarding
import HostServices.Signal.Name
import HostServices.Signal.Rehearsal
import HostServices.SparseMemory
import HostServices.Text.Split
import HostServices.Thread.Priority
import HostServices.Thread.Scheduler
import HostServices.Thread.Stack
import HostServices.Tracker.Report
import HostServices.VirtualMemory

/-!
# All services

The modules that do the work, without the theory about them.
-/
