import AppPortKit.Foundation.Machine
import AppPortKit.Foundation.Memory
import AppPortKit.Foundation.LittleEndian
import AppPortKit.Foundation.SectorStore
import AppPortKit.Foundation.Word64
import AppPortKit.Foundation.LinkedList
import AppPortKit.Foundation.Result
import AppPortKit.Foundation.Ring
import AppPortKit.Foundation.Vectored
import AppPortKit.Foundation.Program
import AppPortKit.Foundation.Sink
import AppPortKit.Heap.Core
import AppPortKit.Heap.Regions
import AppPortKit.Heap.Bounds
import AppPortKit.Heap.Alignment
import AppPortKit.Libc
import AppPortKit.Bmfs.Device
import AppPortKit.Bmfs.Directory
import AppPortKit.Bmfs.Core
import AppPortKit.Bmfs.Transfer
import AppPortKit.Bmfs.WellFormed
import AppPortKit.Bmfs.Steps
import AppPortKit.Bmfs.Invariant
import AppPortKit.Bmfs.CrashPoints
import AppPortKit.Bmfs.Faults
import AppPortKit.Bmfs.Handles
import AppPortKit.Bmfs.Isolation
import AppPortKit.Bmfs.Sharing
import AppPortKit.Bmfs.Append
import AppPortKit.Bmfs.Reference
import AppPortKit.Bmfs.Refinement
import AppPortKit.Bmfs.Simulation
import AppPortKit.Bmfs.Lockstep
import AppPortKit.Bmfs.Restart
import AppPortKit.Bmfs.Extents
import AppPortKit.Bmfs.Exclusive
import AppPortKit.Bmfs.Durability
import AppPortKit.Bmfs.Residue
import AppPortKit.Bmfs.Positioned
import AppPortKit.Bmfs.Clamps
import AppPortKit.Bmfs.FailingLoops
import AppPortKit.Bmfs.DeviceErrors
import AppPortKit.Bmfs.Consecutive
import AppPortKit.Bmfs.Offsets
import AppPortKit.Bmfs.Refusals
import AppPortKit.Bmfs.Paths
import AppPortKit.Bmfs.Named
import AppPortKit.Net.Pbuf
import AppPortKit.Net.Tcp
import AppPortKit.Net.Core
import AppPortKit.Net.Effects
import AppPortKit.Net.Ownership
import AppPortKit.Net.Queues
import AppPortKit.Net.Discipline
import AppPortKit.Net.Accept
import AppPortKit.Net.Received
import AppPortKit.Net.Faults
import AppPortKit.Net.Streams
import AppPortKit.Net.Lifetimes
import AppPortKit.Net.Waits
import AppPortKit.Net.Refusals
import AppPortKit.Net.Declines
import AppPortKit.Net.Sent
import AppPortKit.Net.Clock
import AppPortKit.Posix.Core
import AppPortKit.Posix.Gather
import AppPortKit.Posix.Scatter
import AppPortKit.Posix.Sent
import AppPortKit.Posix.Syscalls
import AppPortKit.Posix.Descriptors
import AppPortKit.Net.Frames
import AppPortKit.Net.Ethernet
import AppPortKit.Poll.Timeouts
import AppPortKit.Poll.Schedule
import AppPortKit.Poll.Wrapping
import AppPortKit.Poll.Cadence
import AppPortKit.Stdio.Core
import AppPortKit.Stdio.Destination
import AppPortKit.Stdio.Writing
import AppPortKit.Stdio.Output
import AppPortKit.Stdio.Reading
import AppPortKit.Stdio.Input
import AppPortKit.Stdio.RoundTrip
import AppPortKit.Foundation.Feed
import AppPortKit.Foundation.Serial
import AppPortKit.Transport.Core
import AppPortKit.Transport.Receive
import AppPortKit.Transport.Pieces
import AppPortKit.Transport.Reassembly
import AppPortKit.Transport.Endpoint
import AppPortKit.Transport.Delivery
import AppPortKit.Transport.Windows
