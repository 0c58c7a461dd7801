import RemoteMemoryPool.Lib.Runs
import RemoteMemoryPool.Lib.Program
import RemoteMemoryPool.Lib.UnorderedMap
import RemoteMemoryPool.Model.Packet
import RemoteMemoryPool.Model.AddressSpace
import RemoteMemoryPool.Model.Server
import RemoteMemoryPool.Proofs.ServerSpec
import RemoteMemoryPool.Proofs.PageStore
import RemoteMemoryPool.Proofs.ServerRegions
import RemoteMemoryPool.Model.Connection
import RemoteMemoryPool.Proofs.Framing
import RemoteMemoryPool.Lib.Rounding
import RemoteMemoryPool.Model.ClientProcess
import RemoteMemoryPool.Model.Uffdman
import RemoteMemoryPool.Model.Client
import RemoteMemoryPool.Model.System
import RemoteMemoryPool.Lib.Pager
import RemoteMemoryPool.Proofs.ClientSpec
import RemoteMemoryPool.Proofs.Session
import RemoteMemoryPool.Proofs.Requests
import RemoteMemoryPool.Proofs.Mirror
import RemoteMemoryPool.Proofs.Coherence
import RemoteMemoryPool.Lib.Mutex
import RemoteMemoryPool.Model.Preload
import RemoteMemoryPool.Model.ClientThreads
import RemoteMemoryPool.Proofs.ThreadPhases
import RemoteMemoryPool.Proofs.Exclusion
import RemoteMemoryPool.Lib.Pairing
import RemoteMemoryPool.Proofs.Replies
import RemoteMemoryPool.Model.ServerThreads
import RemoteMemoryPool.Proofs.CallFlow
import RemoteMemoryPool.Proofs.Registry
import RemoteMemoryPool.Proofs.ServerInterleaving
import RemoteMemoryPool.Proofs.ServerReplies
import RemoteMemoryPool.Lib.Numbering
import RemoteMemoryPool.Proofs.Handles
import RemoteMemoryPool.Proofs.Sizes
import RemoteMemoryPool.Proofs.AllocOutcome
import RemoteMemoryPool.Proofs.PageOps
import RemoteMemoryPool.Proofs.Installation
import RemoteMemoryPool.Lib.ResidentPages
import RemoteMemoryPool.Proofs.Slots
import RemoteMemoryPool.Proofs.Eviction
import RemoteMemoryPool.Proofs.EventBuffer
import RemoteMemoryPool.Lib.CallLoop
import RemoteMemoryPool.Model.SocketIO
import RemoteMemoryPool.Proofs.SocketIO
import RemoteMemoryPool.Proofs.Residency
import RemoteMemoryPool.Proofs.Bookkeeping
import RemoteMemoryPool.Lib.Snapshot
import RemoteMemoryPool.Proofs.WriteBack
import RemoteMemoryPool.Model.PageTransfer
import RemoteMemoryPool.Proofs.RoundTrip
import RemoteMemoryPool.Proofs.Wire
import RemoteMemoryPool.Model.Listener
import RemoteMemoryPool.Proofs.Listener
import RemoteMemoryPool.Lib.Linearization
import RemoteMemoryPool.Proofs.Linearization
import RemoteMemoryPool.Proofs.Isolation
import RemoteMemoryPool.Proofs.Progress
import RemoteMemoryPool.Proofs.Retention
import RemoteMemoryPool.Proofs.Unregistration
import RemoteMemoryPool.Model.Preloaded
import RemoteMemoryPool.Proofs.Transparency
import RemoteMemoryPool.Proofs.Unmodified
import RemoteMemoryPool.Proofs.FillAndRead
import RemoteMemoryPool.Proofs.Transport
