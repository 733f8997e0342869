import HostServices.Services
import HostServices.Proofs.Host.Fresh
import HostServices.Proofs.Host.Journal
import HostServices.Proofs.Tracker.Bytes
import HostServices.Proofs.Counter
import HostServices.Proofs.Ledger.Tallies
import HostServices.Proofs.Ledger.Record
import HostServices.Proofs.Heap.Outcomes
import HostServices.Proofs.Heap.Change
import HostServices.Proofs.Heap.Run
import HostServices.Proofs.Heap.Owned
import HostServices.Proofs.Heap.HostCalls
import HostServices.Proofs.Ledger.Turn
import HostServices.Proofs.Heap.Balance
import HostServices.Proofs.Heap.Alarms
import HostServices.Proofs.Heap.Refusal
import HostServices.Proofs.Signal.Loop
import HostServices.Proofs.Signal.Containment
import HostServices.Proofs.Signal.Deliveries
import HostServices.Proofs.Signal.Negotiation
import HostServices.Proofs.Heap.Ceilings
import HostServices.Proofs.Heap.Reproducible
import HostServices.Proofs.VirtualMemory.Remap
import HostServices.Proofs.VirtualMemory.InStep
import HostServices.Proofs.VirtualMemory.BadRange
import HostServices.Proofs.Ledger.Pending
import HostServices.Proofs.Heap.Routing
import HostServices.Proofs.MallocLimit
import HostServices.Proofs.Random
import HostServices.Proofs.Random.Step
import HostServices.Proofs.Tracker.Empty
import HostServices.Proofs.Tracker.Totals
import HostServices.Proofs.Heap.Damage
import HostServices.Proofs.Heap.PassThrough
import HostServices.Proofs.Thread.Stack
import HostServices.Proofs.MemoryConfig
import HostServices.Proofs.Heap.Resized
import HostServices.Proofs.VirtualMemory.Pretouch
import HostServices.Proofs.Diagnostics.Location
import HostServices.Proofs.PageSizeSelector
import HostServices.Proofs.Thread.Priority
import HostServices.Proofs.Thread.Rank
import HostServices.Proofs.Diagnostics.HexDump
import HostServices.Proofs.Heap.Leaks
import HostServices.Proofs.CallSite
import HostServices.Proofs.Ledger.Ties
import HostServices.Proofs.Heap.Lookup
import HostServices.Proofs.Heap.Peaks
import HostServices.Proofs.Heap.CopyCheck
import HostServices.Proofs.PosixHost
import HostServices.Proofs.SearchPath.Candidates
import HostServices.Proofs.Thread.Stack.Advice
import HostServices.Proofs.BlockHeader.Codec
