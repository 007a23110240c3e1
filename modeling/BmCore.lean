import BmCore.Library.Bytes
import BmCore.Common.Crc
import BmCore.Common.StateMachine
import BmCore.Library.Runs
import BmCore.Dfu.Intake
import BmCore.Dfu.Activation
import BmCore.Dfu.FlashDiscipline
import BmCore.Dfu.Parameters
import BmCore.Dfu.Node
import BmCore.Dfu.Peers
import BmCore.Dfu.Failures
import BmCore.Dfu.Resources
import BmCore.Dfu.Completion
import BmCore.Library.OnesComplement
import BmCore.Network.Frames
import BmCore.Network.Checksum
import BmCore.Network.L2
import BmCore.Network.Forwarding
import BmCore.Common.LinkedList
import BmCore.Common.ListRefinement
import BmCore.Bcmp.Packet
import BmCore.Bcmp.RoundTrip
import BmCore.Bcmp.Sequence
import BmCore.Bcmp.Config
import BmCore.Bcmp.Correlation
import BmCore.Library.RootedTree
import BmCore.Network.Cabling
import BmCore.Network.Flooding
import BmCore.Bcmp.Frames
import BmCore.Bcmp.Targeted
import BmCore.Configuration.TinyCbor
import BmCore.Configuration.Store
import BmCore.Configuration.Calls
import BmCore.Configuration.Runs
import BmCore.Configuration.SetGet
import BmCore.Configuration.FiniteMap
import BmCore.Configuration.Atomicity
import BmCore.Configuration.Noninterference
import BmCore.Configuration.Persistence
import BmCore.Configuration.WritePaths
import BmCore.Middleware.PubSub
import BmCore.Middleware.Service
import BmCore.Middleware.ServiceRequest
import BmCore.Middleware.ServiceNetwork
import BmCore.Library.RefCount
import BmCore.Network.Buffers
import BmCore.Integrations.Topology
import BmCore.Library.DoublyLinked
import BmCore.Integrations.TopologyList
import BmCore.Integrations.TopologyEvents
import BmCore.Integrations.Discovery
import BmCore.Integrations.DiscoveryEnds
import BmCore.Integrations.DaisyChain
import BmCore.Integrations.TopologySessions
import BmCore.Dfu.Link
import BmCore.Dfu.Lossless
import BmCore.Dfu.Confirmation
import BmCore.Dfu.FatalErrors
import BmCore.Bcmp.Neighbors
import BmCore.Bcmp.NeighborTable
import BmCore.Bcmp.NeighborRuns
import BmCore.Bcmp.NeighborEvents
import BmCore.Bcmp.Reboots
import BmCore.Bcmp.Resources
import BmCore.Bcmp.ReplyRouting
import BmCore.Bcmp.ResourceReplies
import BmCore.Common.ByteSwap
import BmCore.Bcmp.Endianness
import BmCore.Dfu.Agreement
import BmCore.Network.Transmit
import BmCore.Library.Accesses
import BmCore.Network.Bounds
import BmCore.Dfu.StartFrames
import BmCore.Dfu.WriteFailures
import BmCore.Dfu.Ownership
import BmCore.Dfu.Accounting
import BmCore.Dfu.Reads
import BmCore.Common.CbQueue
import BmCore.Middleware.PowerInfo
import BmCore.Network.Udp
import BmCore.Network.Submit
import BmCore.Middleware.Applications
import BmCore.Bcmp.FanOut
import BmCore.Library.HexText
import BmCore.Library.LongestRun
import BmCore.Network.Ipv6Text
import BmCore.Bcmp.ConfigDecode
import BmCore.Bcmp.ConfigStatus
import BmCore.Configuration.Reads
import BmCore.Bcmp.ConfigHandlers
import BmCore.Bcmp.ConfigSequence
import BmCore.Bcmp.ConfigTrust
import BmCore.Network.Renegotiation
import BmCore.Common.Patterns
import BmCore.Configuration.Integers
import BmCore.Bcmp.Ping
import BmCore.Library.CborMap
import BmCore.Middleware.CborMap
import BmCore.Middleware.Payloads
import BmCore.Middleware.Publish
import BmCore.Middleware.Registration
import BmCore.Middleware.Slices
import BmCore.Bcmp.Liveness
import BmCore.Bcmp.ResourceRoundTrip
import BmCore.Bcmp.Transmit
import BmCore.Integrations.TopologyReplies
import BmCore.Integrations.TopologyRuns
import BmCore.Bcmp.ExpiryPass
import BmCore.Common.DateTime
import BmCore.Common.PosixQueue
import BmCore.Common.Q
import BmCore.Common.StreamBuffer
import BmCore.Library.SinglyLinked
import BmCore.Middleware.RequestExpiry
import BmCore.Library.BitFields
import BmCore.Library.ChunkStream
import BmCore.Library.ReflectedCrc
import BmCore.Drivers.OaHeaders
import BmCore.Drivers.MacQueue
import BmCore.Drivers.TxChunks
import BmCore.Drivers.TxTransactions
import BmCore.Drivers.Fcs
import BmCore.Drivers.RxChunks
import BmCore.Drivers.OaStateMachine
import BmCore.Drivers.RxRuns
import BmCore.Drivers.TxRuns
import BmCore.Drivers.DynamicTable
import BmCore.Drivers.Link
import BmCore.Drivers.SubmitTx
