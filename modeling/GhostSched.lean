import GhostSched.Lib.BinaryTree
import GhostSched.Lib.Transition
import GhostSched.Lib.CString
import GhostSched.Lib.Total
import GhostSched.Lib.TailQueue
import GhostSched.Avl.Model
import GhostSched.Avl.Shape
import GhostSched.Avl.Rotate
import GhostSched.Avl.Orphan
import GhostSched.Avl.Invariant
import GhostSched.Avl.Insert
import GhostSched.Avl.Walk
import GhostSched.Avl.Unlink
import GhostSched.Avl.Delete
import GhostSched.Avl.Run
import GhostSched.Avl.Caching
import GhostSched.Avl.Capacity
import GhostSched.Avl.Drain
import GhostSched.PntRing.Model
import GhostSched.PntRing.Invariant
import GhostSched.PntRing.Preserve
import GhostSched.PntRing.Safety
import GhostSched.PntRing.AgentData
import GhostSched.Flux.Threads
import GhostSched.Flux.Ball
import GhostSched.Flux.Handlers
import GhostSched.Flux.Accesses
import GhostSched.Flux.Pnt
import GhostSched.Flux.Kernel
import GhostSched.Flux.Location
import GhostSched.Flux.Account
import GhostSched.Flux.Lost
import GhostSched.Flux.Load
import GhostSched.Flux.Tiers
import GhostSched.Flux.Prov.Model
import GhostSched.Flux.Prov.Lists
import GhostSched.Flux.Prov.Cap
import GhostSched.Kernel
import GhostSched.Biff
import GhostSched.BpfQueue.Model
import GhostSched.BpfQueue.Lists
import GhostSched.BpfCfs.Model
import GhostSched.BpfCfs.Runqueue
import GhostSched.BpfCfs.Lists
import GhostSched.BpfCfs.Handlers
import GhostSched.Cfs.Model
import GhostSched.Cfs.Runqueue
import GhostSched.Cfs.Clock
import GhostSched.Cfs.Safety
import GhostSched.PrioTable.Seqcount
import GhostSched.Topology.Model
import GhostSched.Topology.Agreement
import GhostSched.Central
import GhostSched.Central.Places
import GhostSched.Fifo.Model
import GhostSched.Fifo.Handlers
import GhostSched.Fifo.Invariant
import GhostSched.Fifo.Pass
import GhostSched.Lib.Checked
import GhostSched.Shinjuku.Model
import GhostSched.Shinjuku.Handlers
import GhostSched.Shinjuku.Items
import GhostSched.Shinjuku.Invariant
import GhostSched.Shinjuku.Pass
import GhostSched.Shinjuku.Safety
import GhostSched.Shinjuku.Repeatables
import GhostSched.CfsMem
import GhostSched.Sol.Model
import GhostSched.Sol.Places
import GhostSched.Transactions.Model
import GhostSched.Transactions.Protocol
import GhostSched.Discovery
import GhostSched.PerCpuFifo.Model
import GhostSched.PerCpuFifo.Places
import GhostSched.PerCpuFifo.Handlers
import GhostSched.PerCpuFifo.Location
import GhostSched.Messages.Order
import GhostSched.Notification
import GhostSched.Rpc
import GhostSched.Shmem
import GhostSched.PrioTable.Layout
import GhostSched.FdServer
