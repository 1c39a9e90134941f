import UbenchAgent.Agent
import UbenchAgent.History
import UbenchAgent.Bounds
import UbenchAgent.Loop
import UbenchAgent.ResetState
import UbenchAgent.Balance
import UbenchAgent.Attached
import UbenchAgent.ThreadMap
import UbenchAgent.Unobservable
import UbenchAgent.Lib.Brackets
import UbenchAgent.Lib.SlotTable
import UbenchAgent.Lib.Visitor
import UbenchAgent.Lifetimes
import UbenchAgent.Stale
import UbenchAgent.Views
import UbenchAgent.Sampling
import UbenchAgent.Batches
import UbenchAgent.FinishedThreads
import UbenchAgent.Merger
import UbenchAgent.Capacity
import UbenchAgent.PapiColumns
import UbenchAgent.Listing
import UbenchAgent.WindowsClock
import UbenchAgent.Components
import UbenchAgent.Grammar
import UbenchAgent.MergerComposition
import UbenchAgent.AlignedTable
import UbenchAgent.CsvDecoding
import UbenchAgent.Counter
import UbenchAgent.NativeIds
import UbenchAgent.Benchmark
import UbenchAgent.JniBalance
import UbenchAgent.Lib.CriticalSection
import UbenchAgent.Spinlock
import UbenchAgent.Lib.Program
import UbenchAgent.StartupPrograms
import UbenchAgent.StartupSafety
import UbenchAgent.Readings
import UbenchAgent.Compilations
import UbenchAgent.Isolation
import UbenchAgent.SlotReuse
import UbenchAgent.Support
import UbenchAgent.Demo
import UbenchAgent.Builds
import UbenchAgent.Lib.Refinement
import UbenchAgent.Recorders
import UbenchAgent.Attachments
