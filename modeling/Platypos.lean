import Platypos.Memory.RootAllocator
import Platypos.Library.Cursor
import Platypos.Memory.Address
import Platypos.Library.Intervals
import Platypos.Memory.Ledger
import Platypos.Memory.LedgerSteps
import Platypos.Memory.Accounting
import Platypos.Memory.Coalesce
import Platypos.Memory.AddRun
import Platypos.Memory.Calls
import Platypos.Memory.Initialise
import Platypos.Memory.History
import Platypos.Memory.Representation
import Platypos.Memory.Recycling
import Platypos.Memory.Safety
import Platypos.Memory.Canonical
import Platypos.Library.CasLoop
import Platypos.Slab.Slot
import Platypos.Slab.SlotMachine
import Platypos.Slab.SlotHistory
import Platypos.Slab.SlotInvariant
import Platypos.Slab.SlotSafety
import Platypos.Library.Chain
import Platypos.Slab.FreeLists
import Platypos.Slab.Slab
import Platypos.Slab.Placement
import Platypos.Slab.Book
import Platypos.Slab.Refinement
import Platypos.Slab.Operations
import Platypos.Slab.MapView
import Platypos.Library.TaggedStack
import Platypos.Slab.Machine
import Platypos.Slab.MachineInvariant
import Platypos.Slab.MachineSteps
import Platypos.Slab.MachineExchanges
import Platypos.Slab.MachineSafety
import Platypos.Library.PrefixCodec
import Platypos.Library.Varint
import Platypos.Ktrace.Postcard
import Platypos.Ktrace.Fields
import Platypos.Ktrace.Proto
import Platypos.Ktrace.Codec
import Platypos.Ktrace.RoundTrip
import Platypos.Ktrace.Worker
import Platypos.Ktrace.Bounded
import Platypos.Ktrace.Decoder
import Platypos.Ktrace.Wire
import Platypos.Ktrace.Delivery
import Platypos.Library.Schedule
import Platypos.Sync.Interrupts
import Platypos.Sync.InterruptSafety
import Platypos.Sync.Global
import Platypos.Slab.GlobalFreeList
import Platypos.Slab.GlobalFreeListSafety
import Platypos.Ktrace.SpanIds
import Platypos.Slab.Leaks
import Platypos.Ktrace.Formatter
import Platypos.Ktrace.Mirror
import Platypos.Ktrace.Stacks
import Platypos.Ktrace.HandleInvariant
import Platypos.Ktrace.HandleSteps
import Platypos.Ktrace.HandleReturn
import Platypos.Ktrace.HandleSafety
import Platypos.Memory.Bootstrap
import Platypos.Library.Scan
import Platypos.Memory.Headroom
import Platypos.Memory.Scratch
import Platypos.Memory.Merge
import Platypos.Memory.Layout
import Platypos.Memory.BootstrapSafety
import Platypos.Memory.Answers
import Platypos.Memory.Availability
import Platypos.Slab.Filling
import Platypos.Ktrace.Processors
import Platypos.Console.Console
import Platypos.Console.Slicing
import Platypos.Console.Ascii
import Platypos.Console.Typeset
import Platypos.Console.Calls
import Platypos.Console.Screen
import Platypos.Console.Splitting
import Platypos.Sync.Preemption
import Platypos.Sync.PreemptionSteps
import Platypos.Sync.Exclusion
import Platypos.Sync.Progress
import Platypos.Memory.Sharing
import Platypos.Memory.Endurance
import Platypos.Ktrace.Resumption
import Platypos.Ktrace.Sendable
import Platypos.Ktrace.EndToEnd
import Platypos.Ktrace.Trees
import Platypos.Ktrace.Scoped
import Platypos.Slab.StackHistory
import Platypos.Slab.References
import Platypos.Ktrace.Flush
import Platypos.Console.Picture
import Platypos.Slab.MapHistory
import Platypos.Ktrace.Displayed
import Platypos.Library.Digits
import Platypos.Library.Margins
import Platypos.Ktrace.Text
import Platypos.Boot.Report
import Platypos.Boot.Start
