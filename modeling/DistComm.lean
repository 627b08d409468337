import DistComm.NetlinkBounds
import DistComm.Announcements
import DistComm.Routing
import DistComm.Broadcast
import DistComm.Receptions
import DistComm.Registration
import DistComm.Activation
import DistComm.Orphans
import DistComm.Query
import DistComm.Framing
import DistComm.EncoderWrites
import DistComm.Handshake
import DistComm.Skipped
import DistComm.Results
import DistComm.Declared
import DistComm.Procfs
import DistComm.Dispatch
import DistComm.PeerIoctl
import DistComm.PortIds
import DistComm.Targets
import DistComm.PeerRead
import DistComm.InfoBounds
import DistComm.OldHeap
import DistComm.OneResult
import DistComm.PeerDevices
import DistComm.ListingSizes
import DistComm.Cleanup
import DistComm.Convergence
import DistComm.Listening
import DistComm.CrossHost
import DistComm.Confinement
import DistComm.PeerBlocks
import DistComm.Lifecycle
import DistComm.RpcBlocks
import DistComm.RegistryBlocks
