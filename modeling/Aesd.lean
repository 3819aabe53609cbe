import Aesd.BoundedLoop
import Aesd.RecentWindow
import Aesd.SegmentedBytes
import Aesd.BlockHeap
import Aesd.CallRun
import Aesd.EndedGroups
import Aesd.UnlessStopped
import Aesd.LockedSections
import Aesd.LineInput
import Aesd.Driver.CircularBuffer
import Aesd.Driver.CircularBufferContents
import Aesd.Driver.RingHistory
import Aesd.Driver.KernelMemory
import Aesd.Driver.CharDevice
import Aesd.Driver.WriteLedger
import Aesd.Driver.DeviceCalls
import Aesd.Driver.WriteRefinement
import Aesd.Driver.BlockOwnership
import Aesd.Driver.FlatReads
import Aesd.Driver.SeekCommand
import Aesd.Driver.SeekInterleaving
import Aesd.Driver.SeekRounds
import Aesd.Server.CStrings
import Aesd.Server.Protocol
import Aesd.Server.LineLog
import Aesd.Server.SessionLog
import Aesd.Server.RegularFile
import Aesd.Server.FileCalls
import Aesd.Server.SeekGrammar
import Aesd.Server.DeviceStream
import Aesd.Server.DeviceSessions
import Aesd.Server.Threads
import Aesd.Server.MutualExclusion
import Aesd.Server.AppendOnly
import Aesd.Server.Records
import Aesd.Server.RecordOrder
import Aesd.Server.RequestLines
import Aesd.Server.RecordIntegrity
import Aesd.Lifecycle.Process
import Aesd.Lifecycle.SharedResources
import Aesd.Lifecycle.Reclaiming
import Aesd.Lifecycle.ClockEnd
import Aesd.Lifecycle.Sessions
import Aesd.Driver.CommandStore
import Aesd.Driver.LogReaders
import Aesd.Driver.ModuleLife
import Aesd.Lifecycle.ClientEnd
import Aesd.Lifecycle.Released
import Aesd.Server.DeviceRequests
import Aesd.Server.DriverCalls
import Aesd.Lifecycle.Ticks
import Aesd.Threading.ThreadsReturn
import Aesd.Driver.LostBlocks
import Aesd.Driver.ConcurrentCalls
