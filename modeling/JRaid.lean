import JRaid.Geometry.ComputeSector
import JRaid.Geometry.ComputeBlocknr
import JRaid.Geometry.ParityRotation
import JRaid.ForMathlib.FallibleSystem
import JRaid.ForMathlib.PprevChain
import JRaid.ForMathlib.RefPool
import JRaid.Stripe.Basic
import JRaid.Stripe.HashTable
import JRaid.Stripe.Cache
import JRaid.Stripe.HashInvariant
import JRaid.ForMathlib.IntervalList
import JRaid.Stripe.OrderedLists
import JRaid.Stripe.Overwrite
import JRaid.ForMathlib.Area
import JRaid.Stripe.CopyData
import JRaid.Requests.Machine
import JRaid.Requests.Counts
import JRaid.Requests.ReadAfterWrite
import JRaid.Requests.Queues
import JRaid.Requests.Solo
import JRaid.Requests.Geometry
import JRaid.Requests.Acknowledge
import JRaid.Requests.Reuse
import JRaid.Requests.Exclusion
import JRaid.Geometry.BlockBoundary
import JRaid.Requests.Coverage
import JRaid.Requests.Daemon
import JRaid.Requests.Windows
import JRaid.Requests.Drain
import JRaid.Requests.ReadIssued
import JRaid.Requests.Endio
import JRaid.Requests.Provenance
import JRaid.Requests.Footprint
import JRaid.Requests.Starvation
import JRaid.ForMathlib.FairRun
import JRaid.Requests.Return
import JRaid.Segment.Pieces
import JRaid.Segment.NonStripe
import JRaid.Jmd.UnregisterThread
import JRaid.ForMathlib.TaggedTree
import JRaid.Tpblkdev.Device
import JRaid.Tpblkdev.DirtyBlocks
import JRaid.Tpblkdev.OwnPages
import JRaid.Tpblkdev.Orphans
import JRaid.ForMathlib.SortedFrom
import JRaid.Tpblkdev.TagScan
import JRaid.Tpblkdev.FreeAll
import JRaid.ForMathlib.SelfInverseFold
import JRaid.Raid6.Recovery
import JRaid.ForMathlib.CircularList
import JRaid.Jmd.IterateRdev
import JRaid.ForMathlib.OnesComplement
import JRaid.Jmd.Superblock
import JRaid.Jmd.Device
import JRaid.Jmd.AddNewDisk
import JRaid.Jmd.UpdateSb
import JRaid.Jmd.Persistence
import JRaid.Jmd.AnalyzeSbs
import JRaid.Jmd.Crash
import JRaid.Jmd.Descriptors
import JRaid.Jmd.Run
import JRaid.Jmd.AddStore
import JRaid.Jmd.Shape
import JRaid.Jmd.Reachable
import JRaid.Jmd.Restart
import JRaid.ForMathlib.RunningMin
import JRaid.Jmd.Supplied
import JRaid.Jmd.Capacity
import JRaid.ForMathlib.FirstClaim
import JRaid.Jmd.Slots
import JRaid.Jmd.Started
import JRaid.Jmd.Table
import JRaid.Jmd.Consistent
import JRaid.Jmd.Freshest
import JRaid.Jmd.Stale
import JRaid.Jmd.FailedAdd
import JRaid.Jmd.Mapping
import JRaid.Jmd.ChunkSize
import JRaid.Jmd.Indices
import JRaid.ForMathlib.Ledger
import JRaid.Stripe.Growth
import JRaid.Jmd.FailedStart
import JRaid.Jmd.ImportLedger
import JRaid.Jmd.CacheMem
import JRaid.Jmd.UpdatePass
import JRaid.Jmd.UpdateLedger
import JRaid.Jmd.SameSet
import JRaid.Jmd.Counters
import JRaid.Jmd.DeviceSize
import JRaid.Jmd.Recorded
import JRaid.Jmd.Roster
import JRaid.Jmd.Assembly
import JRaid.Jmd.ChunkNumbers
import JRaid.Requests.Exit
import JRaid.ForMathlib.StoppableLoop
import JRaid.Jmd.MemoryThread
import JRaid.Jmd.UnregisterReturn
import JRaid.Jrcpp.PowerDown
import JRaid.Geometry.Striping
import JRaid.Jmd.Personality
import JRaid.Jmd.Lifetime
import JRaid.Xor.XorBlock
import JRaid.Jmd.StoreLine
import JRaid.Requests.Service
