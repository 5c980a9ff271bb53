import GeneralPurposeLibrary.Proofs.Crc32Agreement
import GeneralPurposeLibrary.Proofs.Crc32Burst
import GeneralPurposeLibrary.Foundation.MirroredRegister
import GeneralPurposeLibrary.Proofs.Crc32Division
import GeneralPurposeLibrary.Foundation.FaultingProgram
import GeneralPurposeLibrary.GlbHsm
import GeneralPurposeLibrary.Foundation.ParentTree
import GeneralPurposeLibrary.Proofs.HsmBubbling
import GeneralPurposeLibrary.Proofs.HsmInvariant
import GeneralPurposeLibrary.Proofs.HsmDelivery
import GeneralPurposeLibrary.Proofs.HsmTransition
import GeneralPurposeLibrary.Proofs.HsmBackPointer
import GeneralPurposeLibrary.Proofs.HsmEntry
import GeneralPurposeLibrary.Proofs.HsmTranPath
import GeneralPurposeLibrary.Proofs.HsmTranGuard
import GeneralPurposeLibrary.Foundation.LinkedRing
import GeneralPurposeLibrary.Proofs.FifoQueue
import GeneralPurposeLibrary.Proofs.FifoAccounting
import GeneralPurposeLibrary.Proofs.FifoBound
import GeneralPurposeLibrary.Foundation.BlockHeap
import GeneralPurposeLibrary.PacketBuffer
import GeneralPurposeLibrary.Proofs.PacketProgress
import GeneralPurposeLibrary.Proofs.PacketReceiver
import GeneralPurposeLibrary.Proofs.PacketReassembly
import GeneralPurposeLibrary.Foundation.TruncatedMean
import GeneralPurposeLibrary.Stats
import GeneralPurposeLibrary.Proofs.StatsAverage
import GeneralPurposeLibrary.Proofs.StatsExtremes
import GeneralPurposeLibrary.Proofs.StatsBatchBound
import GeneralPurposeLibrary.FileUtils
import GeneralPurposeLibrary.Proofs.FileRoundTrip
import GeneralPurposeLibrary.Foundation.FuelLoop
import GeneralPurposeLibrary.FileCopy
import GeneralPurposeLibrary.Proofs.FileCopying
import GeneralPurposeLibrary.Foundation.CString
import GeneralPurposeLibrary.Foundation.LineChunks
import GeneralPurposeLibrary.FileSystemCmd
import GeneralPurposeLibrary.Proofs.CmdOutput
import GeneralPurposeLibrary.Foundation.PathTree
import GeneralPurposeLibrary.FileMkdir
import GeneralPurposeLibrary.Foundation.SeparatedText
import GeneralPurposeLibrary.Proofs.MkdirTokens
import GeneralPurposeLibrary.Proofs.MkdirChain
import GeneralPurposeLibrary.Proofs.MkdirSlashes
import GeneralPurposeLibrary.Foundation.LinkedChain
import GeneralPurposeLibrary.SinglyLinkedList
import GeneralPurposeLibrary.Proofs.SinglyLinkedListRefinement
import GeneralPurposeLibrary.Foundation.GuardedRuns
import GeneralPurposeLibrary.IpcSemsv
import GeneralPurposeLibrary.Proofs.SemsvExclusion
import GeneralPurposeLibrary.ShmRwLock
import GeneralPurposeLibrary.Proofs.ShmRwLockLifetime
import GeneralPurposeLibrary.IpcMutex
import GeneralPurposeLibrary.Proofs.IpcMutexRefcnt
import GeneralPurposeLibrary.IpcMutexCreate
import GeneralPurposeLibrary.Proofs.IpcMutexCreation
import GeneralPurposeLibrary.PoolList
import GeneralPurposeLibrary.Foundation.SlabLayout
import GeneralPurposeLibrary.Proofs.PoolRings
import GeneralPurposeLibrary.Proofs.PoolExpansion
import GeneralPurposeLibrary.Proofs.PoolInvariant
import GeneralPurposeLibrary.Proofs.PoolConservation
import GeneralPurposeLibrary.Proofs.PoolLimit
import GeneralPurposeLibrary.Foundation.StridedPlane
import GeneralPurposeLibrary.ImageSplit
import GeneralPurposeLibrary.Proofs.ImageSplitTiles
import GeneralPurposeLibrary.Proofs.ImageSplitHorizontal
import GeneralPurposeLibrary.Proofs.ImageSplitVertical
import GeneralPurposeLibrary.Foundation.WindowSearch
import GeneralPurposeLibrary.SundayMatch
import GeneralPurposeLibrary.Proofs.SundaySearch
import GeneralPurposeLibrary.Proofs.SundayFirstOccurrence
import GeneralPurposeLibrary.Proofs.SundayBounds
import GeneralPurposeLibrary.Foundation.HexText
import GeneralPurposeLibrary.Sniffer
import GeneralPurposeLibrary.Proofs.SnifferMatch
import GeneralPurposeLibrary.Proofs.SnifferCommand
import GeneralPurposeLibrary.Foundation.BoundedRetry
import GeneralPurposeLibrary.UdpClient
import GeneralPurposeLibrary.Proofs.UdpRetry
import GeneralPurposeLibrary.Foundation.FlagWord
import GeneralPurposeLibrary.BasicSerial
import GeneralPurposeLibrary.Proofs.SerialSettings
import GeneralPurposeLibrary.Foundation.RowPacking
import GeneralPurposeLibrary.ImageFile
import GeneralPurposeLibrary.Proofs.ImageFileRoundTrip
import GeneralPurposeLibrary.Proofs.ImageFileTruncation
import GeneralPurposeLibrary.AlgoHmac
import GeneralPurposeLibrary.Proofs.HmacHexText
import GeneralPurposeLibrary.Foundation.ByteOrder
import GeneralPurposeLibrary.Foundation.CellHistory
import GeneralPurposeLibrary.I2cCtrl
import GeneralPurposeLibrary.Proofs.I2cRoundTrip
import GeneralPurposeLibrary.ShmMutex
import GeneralPurposeLibrary.Proofs.ShmMutexLockCount
import GeneralPurposeLibrary.Foundation.RingFamily
import GeneralPurposeLibrary.Klist
import GeneralPurposeLibrary.Proofs.KlistRefinement
import GeneralPurposeLibrary.Proofs.KlistSafeIteration
import GeneralPurposeLibrary.Proofs.SnifferDispatch
import GeneralPurposeLibrary.Proofs.PthreadModelWorkers
import GeneralPurposeLibrary.IpcFlock
import GeneralPurposeLibrary.Proofs.FlockExclusion
import GeneralPurposeLibrary.Proofs.ShmMutexRecovery
import GeneralPurposeLibrary.Proofs.ShmMutexRefCount
import GeneralPurposeLibrary.MmapFile
import GeneralPurposeLibrary.Proofs.MmapLength
import GeneralPurposeLibrary.Proofs.MmapSharing
import GeneralPurposeLibrary.Proofs.HsmRuns
import GeneralPurposeLibrary.Foundation.DecimalText
import GeneralPurposeLibrary.GpioCtrl
import GeneralPurposeLibrary.Proofs.GpioFiles
import GeneralPurposeLibrary.Proofs.GpioModes
import GeneralPurposeLibrary.CpuUsage
import GeneralPurposeLibrary.Proofs.CpuRefresh
import GeneralPurposeLibrary.Proofs.I2cSharing
import GeneralPurposeLibrary.Proofs.Crc32Residue
import GeneralPurposeLibrary.Proofs.SingleListLifetime
import GeneralPurposeLibrary.Proofs.SnifferLoop
