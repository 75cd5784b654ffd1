import PhiSidecar.Lib.Machine
import PhiSidecar.Lib.Conveyor
import PhiSidecar.Lib.Cursor
import PhiSidecar.Lib.Decimal
import PhiSidecar.Lib.Json
import PhiSidecar.Lib.JsonString
import PhiSidecar.Lib.JsonOutline
import PhiSidecar.Lib.Binary64
import PhiSidecar.Lib.Binary64Text
import PhiSidecar.Lib.Stream
import PhiSidecar.Lib.HueWheel
import PhiSidecar.Lib.Checked
import PhiSidecar.Lib.PostOffice
import PhiSidecar.Lib.Ledger
import PhiSidecar.V1.Types
import PhiSidecar.V1.Frame
import PhiSidecar.V1.Entities
import PhiSidecar.V1.EnumNames
import PhiSidecar.V1.Color
import PhiSidecar.V1.ColorXy
import PhiSidecar.Transport.UdsEpollServer
import PhiSidecar.Transport.Reassembly
import PhiSidecar.Transport.WriteAll
import PhiSidecar.Transport.Agreement
import PhiSidecar.Transport.Sessions
import PhiSidecar.Transport.SocketFiles
import PhiSidecar.Transport.HangUp
import PhiSidecar.Transport.Descriptors
import PhiSidecar.Transport.DescriptorsProof
import PhiSidecar.Transport.EventBatch
import PhiSidecar.Transport.LedgerSim
import PhiSidecar.Wire.Scan
import PhiSidecar.Wire.ScanProof
import PhiSidecar.Wire.Members
import PhiSidecar.Wire.MembersProof
import PhiSidecar.Wire.Completeness
import PhiSidecar.Wire.StringTokens
import PhiSidecar.Wire.ScanSound
import PhiSidecar.Wire.Strictness
import PhiSidecar.Wire.Build
import PhiSidecar.Wire.Rendering
import PhiSidecar.Wire.Doc
import PhiSidecar.Wire.EntityDoc
import PhiSidecar.Wire.ScalarLists
import PhiSidecar.Wire.CheckedScan
import PhiSidecar.Wire.Bounds
import PhiSidecar.Wire.MembersBounds
import PhiSidecar.Dispatcher.Outbound
import PhiSidecar.Dispatcher.OutboundProof
import PhiSidecar.Dispatcher.Queue
import PhiSidecar.Dispatcher.QueueStep
import PhiSidecar.Dispatcher.Delivery
import PhiSidecar.Dispatcher.Peers
import PhiSidecar.Dispatcher.Incidents
import PhiSidecar.Dispatcher.Capacity
import PhiSidecar.Dispatcher.Request
import PhiSidecar.Dispatcher.RequestProof
import PhiSidecar.Dispatcher.NestedObjects
import PhiSidecar.Dispatcher.IntegerFields
import PhiSidecar.Host.LogFilter
import PhiSidecar.Host.Queues
import PhiSidecar.Host.Fifo
import PhiSidecar.Host.Isolation
import PhiSidecar.Host.Reentrancy
import PhiSidecar.Host.Routing
import PhiSidecar.Host.Scope
import PhiSidecar.Host.Lifecycle
import PhiSidecar.Host.Teardown
import PhiSidecar.Host.Registry
import PhiSidecar.Host.Backend
import PhiSidecar.Host.ExecutionBackend
import PhiSidecar.Host.Drain
import PhiSidecar.Host.ConcurrentStops
import PhiSidecar.Host.SidecarHost
import PhiSidecar.Host.TimedHost
import PhiSidecar.Host.InstanceThread
import PhiSidecar.Host.HookOrder
import PhiSidecar.Host.Mail
import PhiSidecar.Host.InboundPath
import PhiSidecar.Host.Pairing
import PhiSidecar.Host.Results
import PhiSidecar.Host.Replies
import PhiSidecar.Host.Restart
import PhiSidecar.Host.Barrier
import PhiSidecar.Host.Wakeup
import PhiSidecar.Host.InboundFrames
import PhiSidecar.Host.Budget
import PhiSidecar.Host.FactoryThread
import PhiSidecar.Host.FactoryHooks
import PhiSidecar.Host.Accounts
import PhiSidecar.Host.Correlation
import PhiSidecar.Host.Shutdown
