import Qdgz300.Lib.Machine
import Qdgz300.Lib.Circular
import Qdgz300.Lib.Bitmap
import Qdgz300.Lib.Bytes
import Qdgz300.Lib.RingBuffer
import Qdgz300.Lib.KeyMap
import Qdgz300.Lib.FileSystem
import Qdgz300.Common.SpscQueue
import Qdgz300.Common.Proof.SpscQueue
import Qdgz300.Common.Proof.SpscUse
import Qdgz300.Protocol.Types
import Qdgz300.Pipeline.Reassembler
import Qdgz300.Pipeline.Reorderer
import Qdgz300.Pipeline.Buffered
import Qdgz300.Delivery.SharedMemory
import Qdgz300.Delivery.UnixSocket
import Qdgz300.Capture.PcapWriter
import Qdgz300.Capture.PcapAnalyze
import Qdgz300.App.FacePipeline
import Qdgz300.Pipeline.Proof.ReassemblerSpec
import Qdgz300.Pipeline.Proof.Collect
import Qdgz300.Pipeline.Proof.FrozenRing
import Qdgz300.Pipeline.Proof.Interleave
import Qdgz300.Pipeline.Proof.FrameOnce
import Qdgz300.Pipeline.Proof.ZeroCopy
import Qdgz300.Pipeline.Proof.Representation
import Qdgz300.Pipeline.Proof.ReorderWindow
import Qdgz300.Pipeline.Proof.ReorderStream
import Qdgz300.Pipeline.Proof.ReorderInOrder
import Qdgz300.Pipeline.Proof.ReorderOrigin
import Qdgz300.Pipeline.Proof.ReorderFlush
import Qdgz300.Delivery.Proof.SharedRing
import Qdgz300.Delivery.Proof.DeliveredPayload
import Qdgz300.Capture.Proof.PcapFormat
import Qdgz300.Capture.Proof.PcapSpool
import Qdgz300.Capture.Proof.PcapSession
import Qdgz300.App.Proof.HandOver
import Qdgz300.App.Proof.WholeFrame
import Qdgz300.Lib.Crc
import Qdgz300.Protocol.Crc32c
import Qdgz300.Protocol.Validator
import Qdgz300.Common.Proof.SpscContents
import Qdgz300.Pipeline.RxStage
import Qdgz300.Pipeline.Proof.RxAccounting
import Qdgz300.Lib.LockFree
import Qdgz300.Network.PacketPool
import Qdgz300.Network.Proof.PacketPool
import Qdgz300.Common.MemoryPool
import Qdgz300.Common.Proof.MemoryPool
import Qdgz300.SignalProc.GpuPipeline
import Qdgz300.SignalProc.GpuDispatcher
import Qdgz300.SignalProc.Proof.GpuDispatcher
import Qdgz300.Control.Orchestrator
import Qdgz300.Control.Proof.CommandAck
import Qdgz300.Delivery.RawBlock
import Qdgz300.App.Shutdown
import Qdgz300.Delivery.Proof.RawBlockQueue
import Qdgz300.App.Proof.HandedOut
import Qdgz300.App.Proof.FaceBlocks
import Qdgz300.App.Proof.Shutdown
import Qdgz300.Lib.Ledger
import Qdgz300.Network.ArrayFaceReceiver
import Qdgz300.Network.Proof.ReceiveBuffers
import Qdgz300.Lib.Codec
import Qdgz300.Common.Types
import Qdgz300.Gateway.TrackDataSerializer
import Qdgz300.Gateway.Proof.TrackCodec
import Qdgz300.Protocol.Images
import Qdgz300.Emulator.PacketGenerator
import Qdgz300.Emulator.Proof.Understood
import Qdgz300.DataProc.PlotAssociator
import Qdgz300.DataProc.TrackManager
import Qdgz300.DataProc.Proof.Association
import Qdgz300.DataProc.Proof.Detections
import Qdgz300.Capture.WriterThreads
import Qdgz300.Capture.Proof.WriterStop
import Qdgz300.Lib.Strtoul
import Qdgz300.Config.ConfigManager
import Qdgz300.Config.Proof.ConfigLoad
import Qdgz300.Pipeline.Proof.Provenance
import Qdgz300.Lib.Blocks
import Qdgz300.Pipeline.Proof.FrameLayout
import Qdgz300.Pipeline.Proof.CompleteFrames
import Qdgz300.Pipeline.Proof.RefusedFragments
import Qdgz300.Pipeline.Proof.Consistency
import Qdgz300.Pipeline.Proof.ReorderBalance
import Qdgz300.Pipeline.Proof.ReorderPermutation
import Qdgz300.Pipeline.ReorderInserts
import Qdgz300.Pipeline.Proof.ReorderCopies
import Qdgz300.Lib.BoundedFifo
import Qdgz300.Common.SpscOps
import Qdgz300.Common.Proof.SpscSequential
import Qdgz300.Delivery.Proof.Eviction
import Qdgz300.App.Proof.RawBlocks
import Qdgz300.Pipeline.Proof.TimeoutAge
import Qdgz300.App.Proof.FrameSize
import Qdgz300.Pipeline.Proof.ResetStatistics
import Qdgz300.Network.Proof.ReceiveRound
import Qdgz300.Pipeline.Dispatcher
import Qdgz300.Pipeline.Proof.Dispatch
import Qdgz300.Pipeline.Proof.HeartbeatLoss
import Qdgz300.SignalProc.Proof.GpuHistory
import Qdgz300.SignalProc.Proof.GpuResults
import Qdgz300.Protocol.Proof.HeartbeatCrc
import Qdgz300.DataProc.Proof.GreedyMatching
import Qdgz300.DataProc.Proof.TrackIds
import Qdgz300.DataProc.Proof.Lifecycle
import Qdgz300.Lib.FifoMap
import Qdgz300.Protocol.DupCmdCache
import Qdgz300.Protocol.Proof.DupCmdCache
import Qdgz300.Control.Proof.StartUndo
import Qdgz300.Lib.TopK
import Qdgz300.Gateway.OutputThrottle
import Qdgz300.Gateway.Proof.OutputThrottle
import Qdgz300.DataProc.TrackFrameBuilder
import Qdgz300.Gateway.Proof.TrackListLoss
import Qdgz300.DataProc.Proof.TrackTime
import Qdgz300.DataProc.Proof.CoastFrames
import Qdgz300.DataProc.FusionEngine
import Qdgz300.DataProc.Proof.FusionGroups
import Qdgz300.DataProc.Proof.FusionFixpoint
import Qdgz300.Pipeline.Proof.ReorderRing
import Qdgz300.Lib.Json
import Qdgz300.Logging.AsyncLogger
import Qdgz300.Logging.Proof.LogLine
import Qdgz300.Delivery.Proof.CircularCopy
import Qdgz300.App.Proof.ReassemblerAccesses
import Qdgz300.Lib.DeltaReport
import Qdgz300.App.Proof.BlockOrder
import Qdgz300.App.Proof.ThreadedFace
import Qdgz300.App.Proof.FramesToBlocks
import Qdgz300.Pipeline.Proof.CountersGrow
import Qdgz300.App.MainLoop
import Qdgz300.App.Proof.LoopMetrics
import Qdgz300.App.Proof.Reload
import Qdgz300.Lib.Records
import Qdgz300.Delivery.OutputFile
import Qdgz300.Delivery.Proof.OutputFile
import Qdgz300.Lib.Buckets
import Qdgz300.Monitoring.Histogram
import Qdgz300.Monitoring.Proof.Scrapes
import Qdgz300.Capture.PcapReplay
import Qdgz300.Capture.Proof.Replayed
import Qdgz300.App.BufferPath
import Qdgz300.App.Proof.BufferPath
import Qdgz300.Emulator.ArraySender
import Qdgz300.Emulator.Proof.ArrayPackets
import Qdgz300.Emulator.Proof.HeartbeatsOnly
import Qdgz300.Lib.Interference
import Qdgz300.App.Lifecycle
import Qdgz300.App.Proof.Phase
import Qdgz300.App.Proof.PhaseActions
import Qdgz300.App.Proof.Lifecycle
