import P3com.Lib.Run
import P3com.Lib.Count
import P3com.Lib.LittleEndian
import P3com.Lib.Interleaving
import P3com.Lib.BoundedMap
import P3com.Lib.Memory
import P3com.Lib.LockOrder
import P3com.Lib.Plan
import P3com.Utility.VectorMap
import P3com.Utility.CxxVector
import P3com.Utility.TwoVectors
import P3com.Utility.NeonMemcpy
import P3com.Generic.Types
import P3com.Generic.Serialization
import P3com.Generic.DiscoveryWire
import P3com.Generic.DataWriter
import P3com.Generic.SegmentCount
import P3com.Generic.PendingMessages
import P3com.Generic.PendingConservation
import P3com.Generic.SegmentedMessages
import P3com.Generic.RemovalSweeps
import P3com.Generic.DataReader
import P3com.Generic.ChunkMemory
import P3com.Generic.SentMessage
import P3com.Transport.TransportInfo
import P3com.Transport.AdvertisedBits
import P3com.Generic.Discovery
import P3com.Generic.ChunkRelease
import P3com.Generic.RecordTable
import P3com.Generic.Network
import P3com.Generic.Convergence
import P3com.Generic.RoutingCache
import P3com.Generic.Routes
import P3com.Generic.ConvergedRouting
import P3com.Generic.LossyDiscovery
import P3com.Generic.Failover
import P3com.Generic.Forwarding
import P3com.Generic.TransportForwarder
import P3com.Gateway.GatewayConfig
import P3com.Gateway.Gateway
import P3com.Gateway.Echo
import P3com.Gateway.TransportToIox
import P3com.Gateway.MalformedInput
import P3com.Gateway.Accounting
import P3com.Gateway.Buffers
import P3com.Gateway.Timeouts
import P3com.Gateway.ChunkAccess
import P3com.Gateway.Reassembly
import P3com.Gateway.Duplicates
import P3com.Gateway.DeletedPublishers
import P3com.Gateway.Isolation
import P3com.Gateway.MixedPaths
import P3com.Gateway.IoxToTransport
import P3com.Gateway.PendingErasure
import P3com.Gateway.SendLoop
import P3com.Gateway.Reconcile
import P3com.Gateway.Channels
import P3com.Gateway.ChannelRaces
import P3com.Gateway.LocalPorts
import P3com.Gateway.Introspection
import P3com.Transport.TcpTransport
import P3com.Transport.UdpBroadcast
import P3com.Transport.UdpTransport
import P3com.Transport.TcpIndices
import P3com.Transport.TcpConnect
import P3com.Transport.TcpFraming
import P3com.Transport.TcpOrder
import P3com.Transport.FailureCascade
import P3com.Gateway.TcpDelivery
import P3com.Gateway.Locks
import P3com.Gateway.TransportThreads
import P3com.Gateway.Sections
import P3com.Gateway.Shutdown
import P3com.Gateway.Failures
