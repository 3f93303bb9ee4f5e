import WorkAtUPB.Lib.Run
import WorkAtUPB.Lib.Bytes
import WorkAtUPB.Lib.Crc
import WorkAtUPB.Lib.Mirror
import WorkAtUPB.Lib.Census
import WorkAtUPB.Lib.Sorting
import WorkAtUPB.Lib.Codec
import WorkAtUPB.Lib.Cursor
import WorkAtUPB.Lib.CString
import WorkAtUPB.Lib.Flags
import WorkAtUPB.Lib.CharStream
import WorkAtUPB.Lib.Text
import WorkAtUPB.Lib.CharArray
import WorkAtUPB.Lib.Decimal
import WorkAtUPB.Lib.Lease
import WorkAtUPB.Lib.Least
import WorkAtUPB.Lib.Raster
import WorkAtUPB.Lib.Tiling
import WorkAtUPB.Lib.Tokens
import WorkAtUPB.Lib.Layers
import WorkAtUPB.Lib.Stdio
import WorkAtUPB.SimpleRAID.Driver
import WorkAtUPB.SimpleRAID.Refinement
import WorkAtUPB.SimpleRAID.Consistency
import WorkAtUPB.SimpleRAID.Crc32
import WorkAtUPB.SimpleRAID.ReadResult
import WorkAtUPB.SimpleRAID.SelfHealing
import WorkAtUPB.SimpleRAID.Damage
import WorkAtUPB.ThreadsMonitor.Monitor
import WorkAtUPB.ThreadsMonitor.MutualExclusion
import WorkAtUPB.ThreadsMonitor.Queues
import WorkAtUPB.ThreadsMonitor.Progress
import WorkAtUPB.ThreadsMonitor.ReadersWriters
import WorkAtUPB.ThreadsMonitor.Exclusion
import WorkAtUPB.ThreadsMonitor.Lock
import WorkAtUPB.NetworkFirewall.Rules
import WorkAtUPB.NetworkFirewall.Firewall
import WorkAtUPB.NetworkFirewall.Answers
import WorkAtUPB.NetworkFirewall.Timers
import WorkAtUPB.NetworkFirewall.PinHoles
import WorkAtUPB.NetworkFirewall.Connections
import WorkAtUPB.NetworkFirewall.PortRanges
import WorkAtUPB.NetworkFirewall.RuleListing
import WorkAtUPB.NetworkFirewall.Hooks
import WorkAtUPB.NetworkFirewallWindows.RuleList
import WorkAtUPB.NetworkFirewallWindows.Rules
import WorkAtUPB.NetworkFirewallWindows.Driver
import WorkAtUPB.NetworkFirewallWindows.Listing
import WorkAtUPB.VirtualMemory.Pager
import WorkAtUPB.VirtualMemory.Handler
import WorkAtUPB.VirtualMemory.Records
import WorkAtUPB.VirtualMemory.Frames
import WorkAtUPB.VirtualMemory.Transparency
import WorkAtUPB.VirtualMemory.Progress
import WorkAtUPB.VirtualMemory.ForeignFaults
import WorkAtUPB.SchedulingService.JobMapper
import WorkAtUPB.SchedulingService.Tracing
import WorkAtUPB.SchedulingService.Delivery
import WorkAtUPB.SchedulingService.Dropping
import WorkAtUPB.SchedulingService.LeastLoaded
import WorkAtUPB.LinuxIPC.HashTable
import WorkAtUPB.LinuxIPC.WordSet
import WorkAtUPB.LinuxIPC.BucketIsolation
import WorkAtUPB.LinuxIPC.Clients
import WorkAtUPB.LinuxIPC.Balance
import WorkAtUPB.SystemCallMonitorLinux.Monitor
import WorkAtUPB.SystemCallMonitorLinux.Interception
import WorkAtUPB.SystemCallMonitorLinux.Logging
import WorkAtUPB.SystemCallMonitorLinux.Isolation
import WorkAtUPB.SyscallMonitorWindows.Driver
import WorkAtUPB.SyscallMonitorWindows.MonitorFlag
import WorkAtUPB.SyscallMonitorWindows.Interceptor
import WorkAtUPB.SyscallMonitorWindows.Logging
import WorkAtUPB.AuthenticatedFilesServer.Transfer
import WorkAtUPB.AuthenticatedFilesServer.Server
import WorkAtUPB.AuthenticatedFilesServer.Downloads
import WorkAtUPB.AuthenticatedFilesServer.AuthorizationServer
import WorkAtUPB.AuthenticatedFilesServer.BanList
import WorkAtUPB.AuthenticatedFilesServer.ClientIdentity
import WorkAtUPB.AuthenticatedFilesServer.Service
import WorkAtUPB.AuthenticatedFilesServer.KeptOut
import WorkAtUPB.MiniShell.TreeTraveler
import WorkAtUPB.MiniShell.ControlFlow
import WorkAtUPB.MiniShell.Status
import WorkAtUPB.Lib.Descriptors
import WorkAtUPB.MiniShell.Processes
import WorkAtUPB.MiniShell.Pipelines
import WorkAtUPB.MiniShell.Refinement
import WorkAtUPB.FilesServer.Packet
import WorkAtUPB.FilesServer.Listing
import WorkAtUPB.FilesServer.Requests
import WorkAtUPB.FilesServer.Fields
import WorkAtUPB.FaultTolerantService.Task
import WorkAtUPB.FaultTolerantService.ComputeResult
import WorkAtUPB.FaultTolerantService.Worker
import WorkAtUPB.FaultTolerantService.Messages
import WorkAtUPB.FaultTolerantService.MainLoop
import WorkAtUPB.FaultTolerantService.Pool
import WorkAtUPB.FaultTolerantService.Accounting
import WorkAtUPB.FaultTolerantService.Schedule
import WorkAtUPB.FaultTolerantService.DistributedSort
import WorkAtUPB.FaultTolerantService.CheckPoint
import WorkAtUPB.FaultTolerantService.StartUp
import WorkAtUPB.FaultTolerantService.WireFormat
import WorkAtUPB.FaultTolerantService.FileFormat
import WorkAtUPB.FaultTolerantService.PacketSize
import WorkAtUPB.FaultTolerantService.Termination
import WorkAtUPB.FaultTolerantService.Failover
import WorkAtUPB.SerialPortDriverWindows.Writes
import WorkAtUPB.Lib.Baton
import WorkAtUPB.SerialPortDriverWindows.Device
import WorkAtUPB.SerialPortDriverWindows.Reads
import WorkAtUPB.SerialPortDriverWindows.Duplex
import WorkAtUPB.SerialPortDriverLinux.Writes
import WorkAtUPB.SerialPortDriverLinux.Reads
import WorkAtUPB.ImageQuilting.Quilt
import WorkAtUPB.ImageQuilting.InputPixels
import WorkAtUPB.ImageQuilting.SeamCost
import WorkAtUPB.ImageQuilting.Seam
import WorkAtUPB.ImageQuilting.Candidates
import WorkAtUPB.ImageQuilting.PictureFile
import WorkAtUPB.ImageQuilting.Program
import WorkAtUPB.RemoteShell.Client
import WorkAtUPB.RemoteShell.Server
import WorkAtUPB.RemoteShell.Service
import WorkAtUPB.RemoteShell.Sessions
