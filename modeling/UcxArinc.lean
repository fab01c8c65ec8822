import UcxArinc.Implementation.Partition
import UcxArinc.Implementation.HealthMonitor
import UcxArinc.Implementation.Interpartition
import UcxArinc.Implementation.Intrapartition
import UcxArinc.Implementation.PartitionOs
import UcxArinc.Implementation.System
import UcxArinc.Implementation.Module
import UcxArinc.Implementation.Queries
import UcxArinc.Implementation.TrapHandler
import UcxArinc.Implementation.TaskScheduler
import UcxArinc.Implementation.KernelSemaphore
import UcxArinc.Implementation.Timer
import UcxArinc.Implementation.EventLog
import UcxArinc.Proofs.Uptime
import UcxArinc.Proofs.ChannelAccess
import UcxArinc.Proofs.MutexOwnership
import UcxArinc.Proofs.PortWaits
import UcxArinc.Proofs.SuspendedProcesses
import UcxArinc.Proofs.HoldAndWait
import UcxArinc.Proofs.Ceilings
import UcxArinc.Proofs.EventWaits
import UcxArinc.Proofs.Blackboards
import UcxArinc.Proofs.PortWakeUps
import UcxArinc.Proofs.ErrorReports
import UcxArinc.Proofs.QueuingChannels
import UcxArinc.Proofs.SamplingChannels
import UcxArinc.Proofs.ProcessStacks
import UcxArinc.Proofs.RoundRobinWaits
import UcxArinc.Proofs.Recovery
import UcxArinc.Proofs.InitialisationCalls
import UcxArinc.Proofs.Directories
import UcxArinc.Proofs.Faults
import UcxArinc.Proofs.HeapIntegrity
import UcxArinc.Proofs.HeapRuns
import UcxArinc.Proofs.OutOfMemory
import UcxArinc.Proofs.AllocationSizes
import UcxArinc.Proofs.TaskSelection
import UcxArinc.Proofs.TaskTurns
import UcxArinc.Proofs.KernelSemaphores
import UcxArinc.Proofs.TickTimers
import UcxArinc.Proofs.UptimeTimers
import UcxArinc.Proofs.EventLog
import UcxArinc.Proofs.ReleasePoints
import UcxArinc.Proofs.NonBlockingSends
import UcxArinc.Proofs.PeriodicReleases
import UcxArinc.Proofs.InitialProcesses
import UcxArinc.Proofs.TimeSums
import UcxArinc.Proofs.TimeArithmetic
import UcxArinc.Implementation.MessageQueue
import UcxArinc.Proofs.MessageQueues
import UcxArinc.Implementation.Pipe
import UcxArinc.Proofs.Pipes
import UcxArinc.Implementation.Coroutine
import UcxArinc.Proofs.Coroutines
import UcxArinc.Implementation.LinkedList
import UcxArinc.Library.NodeChain
import UcxArinc.Proofs.NodeLists
import UcxArinc.Proofs.SinglyLinkedLists
import UcxArinc.Implementation.DoublyLinkedList
import UcxArinc.Proofs.DoublyLinkedLists
import UcxArinc.Library.Cells
import UcxArinc.Library.OnesComplement
import UcxArinc.Implementation.Inet
import UcxArinc.Proofs.PacketHeaders
import UcxArinc.Proofs.EmittedPackets
import UcxArinc.Proofs.PacketReception
import UcxArinc.Implementation.Eeprom
import UcxArinc.Proofs.EepromChips
import UcxArinc.Proofs.PagedWrites
import UcxArinc.Proofs.EepromWrites
import UcxArinc.Implementation.ArpCache
import UcxArinc.Proofs.ArpCaches
import UcxArinc.Implementation.SerialLine
import UcxArinc.Proofs.SerialFrames
import UcxArinc.Implementation.Bootp
import UcxArinc.Proofs.BootpReplies
import UcxArinc.Library.StableQueue
import UcxArinc.Proofs.SortedLists
import UcxArinc.Library.Numerals
import UcxArinc.Implementation.Libc
import UcxArinc.Proofs.NumberStrings
import UcxArinc.Proofs.StrtolLimits
import UcxArinc.Library.NewtonSqrt
import UcxArinc.Implementation.Fixed
import UcxArinc.Proofs.SquareRoots
import UcxArinc.Proofs.NarrowProducts
import UcxArinc.Proofs.NarrowQuotients
import UcxArinc.Library.TokenPool
import UcxArinc.Proofs.SemaphoreTokens
import UcxArinc.Proofs.EndsOfWaits
import UcxArinc.Library.LabelledRuns
import UcxArinc.Library.MessageChannel
import UcxArinc.Proofs.BufferMoves
import UcxArinc.Proofs.BufferCursors
import UcxArinc.Proofs.BufferContents
import UcxArinc.Library.Noninterference
import UcxArinc.Proofs.PartitionViews
import UcxArinc.Proofs.DomainIsolation
import UcxArinc.Implementation.Ethernet
import UcxArinc.Implementation.Network
import UcxArinc.Proofs.LinkFrames
import UcxArinc.Proofs.ArpResolution
import UcxArinc.Library.DatagramService
import UcxArinc.Proofs.DatagramFrames
import UcxArinc.Proofs.DatagramDelivery
