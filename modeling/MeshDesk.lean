import MeshDesk.Auth.AuditRecovery
import MeshDesk.Ipam.Reference
import MeshDesk.Join.SingleUse
import MeshDesk.KeyExchange.ReplayWindow
import MeshDesk.Mesh.AclDecision
import MeshDesk.Mesh.AclPorts
import MeshDesk.Mesh.FileConfinement
import MeshDesk.Mesh.FilePayload
import MeshDesk.Mesh.FloodBound
import MeshDesk.Mesh.FramedPlanes
import MeshDesk.Mesh.KernelRoutes
import MeshDesk.Mesh.MetaFlood
import MeshDesk.Mesh.PacketMediation
import MeshDesk.Mesh.PathSwitching
import MeshDesk.Mesh.RelayChain
import MeshDesk.Mesh.RelayIsolation
import MeshDesk.Mesh.SessionWatched
import MeshDesk.Mesh.Socks5Limit
import MeshDesk.Mesh.UdpAck
import MeshDesk.Mesh.UdpDial
import MeshDesk.Mesh.UdpEnd
import MeshDesk.Mesh.VipConflict
import MeshDesk.Monitor.PeerLatency
import MeshDesk.Monitor.RingBuffer
import MeshDesk.Monitor.StoredOnce
import MeshDesk.Proxy.AddEquivalence
import MeshDesk.Proxy.ChunkCodec
import MeshDesk.Proxy.CircuitLimits
import MeshDesk.Proxy.CircuitPaths
import MeshDesk.Proxy.CloseEvents
import MeshDesk.Proxy.ExitAcks
import MeshDesk.Proxy.ForwardStream
import MeshDesk.Proxy.Isolation
import MeshDesk.Proxy.NackExactness
import MeshDesk.Proxy.PathFraming
import MeshDesk.Proxy.RoundTrip
import MeshDesk.Smux.HalfClose
import MeshDesk.Smux.Keepalive
import MeshDesk.Smux.SecureSession
import MeshDesk.Smux.StreamIDs
import MeshDesk.Transfer.Authorization
import MeshDesk.Web.AdminLock
import MeshDesk.Web.ConfigReads
import MeshDesk.Web.ConfigWrites
