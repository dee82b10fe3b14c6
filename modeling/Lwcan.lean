import Lwcan.Lib.Memory
import Lwcan.Lib.Runs
import Lwcan.Lib.Monitor
import Lwcan.Lib.Gated
import Lwcan.Lib.Queue
import Lwcan.Lib.Linked
import Lwcan.Lib.Tiling
import Lwcan.Types
import Lwcan.Pool
import Lwcan.PoolRuns
import Lwcan.Timeouts
import Lwcan.TimerOrder
import Lwcan.Canif
import Lwcan.CanifIndex
import Lwcan.CanifAdd
import Lwcan.CanifName
import Lwcan.Raw
import Lwcan.RawList
import Lwcan.MemoryHeap
import Lwcan.HeapBlocks
import Lwcan.HeapInsert
import Lwcan.HeapIntegrity
import Lwcan.HeapContents
import Lwcan.Calloc
import Lwcan.Buffer
import Lwcan.Isotp
import Lwcan.Node
import Lwcan.IsotpOut
import Lwcan.IsotpIn
import Lwcan.RawDelivery
import Lwcan.Frames
import Lwcan.System
import Lwcan.Ownership
import Lwcan.View
import Lwcan.Primitives
import Lwcan.FlowSteps
import Lwcan.FlowTimers
import Lwcan.Solo
import Lwcan.Refinement
import Lwcan.Rollback
import Lwcan.FdFrames
import Lwcan.FirstFrames
import Lwcan.Reachable
import Lwcan.Accounting
import Lwcan.Pending
import Lwcan.Wakeup
import Lwcan.Removal
import Lwcan.CallbackArgs
import Lwcan.Reassembly
import Lwcan.Provenance
import Lwcan.Messages
import Lwcan.Custody
import Lwcan.Faithful
import Lwcan.Sender
import Lwcan.Segmentation
import Lwcan.Truthful
import Lwcan.CleanFrames
import Lwcan.Blocks
import Lwcan.BlockSize
import Lwcan.Length
import Lwcan.Progress
import Lwcan.ReplyOrder
import Lwcan.Transfer
import Lwcan.TransferOut
import Lwcan.TransferIn
import Lwcan.Link
import Lwcan.Independence
import Lwcan.MemoryCalls
import Lwcan.Shared
import Lwcan.Hosted
import Lwcan.Neighbours
import Lwcan.Stack
import Lwcan.RawSend
import Lwcan.TimerMoves
import Lwcan.TimerRoom
import Lwcan.TimerDelays
import Lwcan.Silence
import Lwcan.Uds.Client
import Lwcan.Uds.System
import Lwcan.Uds.Steps
import Lwcan.Uds.Connect
import Lwcan.Uds.Request
import Lwcan.Uds.Deinit
import Lwcan.Uds.KeepAlive
import Lwcan.Uds.Atomic
import Lwcan.Uds.Retries
import Lwcan.Uds.Responses
import Lwcan.Uds.Durations
