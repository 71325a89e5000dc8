import RiscvCores.Lib.SmallFin
import RiscvCores.Lib.Clocked
import RiscvCores.Lib.Ring
import RiscvCores.Lib.Interleave
import RiscvCores.Lib.BitField
import RiscvCores.CommonCells.Lzc
import RiscvCores.CommonCells.RrArbTree
import RiscvCores.CommonCells.RrArbFair
import RiscvCores.TechCells.TcSram
import RiscvCores.Cva6.ArianePkg
import RiscvCores.Cva6.Pmp
import RiscvCores.Cva6.RiscvPkg
import RiscvCores.Cva6.CsrRegfile
import RiscvCores.Cva6.CsrPmp
import RiscvCores.Cva6.PmpReadback
import RiscvCores.Cva6.CsrPrivilege
import RiscvCores.Cva6.CsrFaults
import RiscvCores.Cva6.Scoreboard
import RiscvCores.Cva6.ScoreboardWindow
import RiscvCores.Cva6.MacroMove
import RiscvCores.Cva6.ZcmtDecoder
import RiscvCores.Cva6.TableJump
import RiscvCores.Cva6.StoreBuffer
import RiscvCores.Cva6.StoreQueues
import RiscvCores.Cva6.LoadStoreUnit
import RiscvCores.Cva6.LoadOrder
import RiscvCores.Cva6.LoadUnitAnswers
import RiscvCores.Cva6.LoadUnitAccounts
import RiscvCores.Cva6.Serdiv
import RiscvCores.Cva6.SerdivRuns
import RiscvCores.Cva6.SharedTlb
import RiscvCores.Cva6.SharedTlbIsolation
import RiscvCores.Cva6.MacroDecoder
import RiscvCores.Cva6.MacroExpansion
import RiscvCores.Lib.BaseMachine
import RiscvCores.Cva6.MacroMeaning
import RiscvCores.Cva6.FifoV3
import RiscvCores.Cva6.FifoVariants
import RiscvCores.Cva6.AxiAdapterArbiter
import RiscvCores.Cva6.AxiAdapter
import RiscvCores.Cva6.AxiAdapterWrites
import RiscvCores.Cva6.Icache
import RiscvCores.Cva6.IcacheHistory
import RiscvCores.Cva6.IcacheInvariant
import RiscvCores.Cva6.IcacheSound
import RiscvCores.Cva6.InstrQueue
import RiscvCores.Cva6.InstrStream
import RiscvCores.Lib.RadixWalk
import RiscvCores.Lib.RestoringDivision
import RiscvCores.Cva6.Ptw
import RiscvCores.Cva6.PtwRuns
import RiscvCores.Cva6.PageWalk
import RiscvCores.Cva6.Tlb
import RiscvCores.Cva6.TlbRuns
import RiscvCores.Cva6.PtwPath
import RiscvCores.Cva6.PtwFlush
import RiscvCores.Cva6.Mmu
import RiscvCores.Cva6.MmuPermissions
import RiscvCores.Cva6.MmuAnswers
import RiscvCores.Cva6.CommitStage
import RiscvCores.Cva6.IssueReadOperands
import RiscvCores.Cva6.BackEnd
import RiscvCores.Cva6.Speculation
import RiscvCores.Cva6.WtDcacheWbuffer
import RiscvCores.Cva6.WtDcacheCtrl
import RiscvCores.Cva6.WtDcacheCtrlRuns
import RiscvCores.Cva6.WbufferBytes
import RiscvCores.Cva6.WbufferInvariant
import RiscvCores.Cva6.WbufferNoLoss
import RiscvCores.Cva6.WtAxiAdapter
import RiscvCores.Cva6.AxiLedger
import RiscvCores.Cva6.AxiAccounting
import RiscvCores.Cva6.AxiAnswers
import RiscvCores.Cva6.AxiInvariant
import RiscvCores.Cva6.AxiPackets
import RiscvCores.Lib.WriteCombining
import RiscvCores.Toooba.ProcTypes
import RiscvCores.Toooba.StoreBuffer
import RiscvCores.Toooba.StoreBufferBytes
import RiscvCores.Lib.RenameMap
import RiscvCores.Toooba.RenamingTable
import RiscvCores.Toooba.RenamingRefinement
import RiscvCores.Toooba.ReorderBuffer
import RiscvCores.Toooba.ReorderCounts
import RiscvCores.Toooba.ReorderList
import RiscvCores.Toooba.SplitLsq
import RiscvCores.Toooba.SpecTagManager
import RiscvCores.Toooba.SplitLsqWrongPath
import RiscvCores.Lib.Banked
import RiscvCores.Lib.BoundedCount
import RiscvCores.Cva6.CsrAccess
import RiscvCores.Cva6.CommitPrecise
import RiscvCores.Cva6.CsrPermission
import RiscvCores.Cva6.CsrTraps
import RiscvCores.Cva6.CsrReturns
import RiscvCores.Lib.DecisionTree
import RiscvCores.Lib.FirstMax
import RiscvCores.Toooba.MMIOAtomics
import RiscvCores.Toooba.CsrRegs
import RiscvCores.Toooba.TandemCsrs
import RiscvCores.Toooba.Decode
import RiscvCores.Toooba.IllegalInst
import RiscvCores.Toooba.MMIOPlatform
import RiscvCores.Toooba.Plic
import RiscvCores.Toooba.PlicMap
import RiscvCores.Toooba.PlicDecode
import RiscvCores.Toooba.PlicRuns
import RiscvCores.Toooba.CsrFile
import RiscvCores.Toooba.CsrFileTraps
import RiscvCores.Lib.ReadCache
import RiscvCores.Toooba.TlbTypes
import RiscvCores.Toooba.TlbCaches
import RiscvCores.Toooba.L2Tlb
import RiscvCores.Toooba.L2TlbWalks
import RiscvCores.Toooba.L2TlbRuns
import RiscvCores.Toooba.L2TlbAnswers
import RiscvCores.Toooba.L2TlbProgress
import RiscvCores.Toooba.L2TlbSharing
import RiscvCores.Lib.SharedReads
import RiscvCores.Lib.Tickets
import RiscvCores.Lib.HalfwordParse
import RiscvCores.Cva6.InstrRealign
import RiscvCores.Cva6.RealignedStream
import RiscvCores.Lib.ForwardSimulation
import RiscvCores.Toooba.RWBramCore
import RiscvCores.Toooba.CCPipe
import RiscvCores.Toooba.Amo
import RiscvCores.Toooba.CCPipeAtomic
import RiscvCores.Cva6.CompressedDecoder
import RiscvCores.Cva6.InstrScan
import RiscvCores.Cva6.PredecodeAgrees
import RiscvCores.Toooba.AXI4Types
import RiscvCores.Toooba.DmSystemBus
import RiscvCores.Toooba.DmSystemBusLanes
import RiscvCores.Toooba.DmSystemBusOps
import RiscvCores.Toooba.DmSystemBusRuns
import RiscvCores.Lib.Blocks
import RiscvCores.Toooba.LlcAxi4Adapter
import RiscvCores.Toooba.LlcAdapterWrites
import RiscvCores.Toooba.LlcAdapterMemory
import RiscvCores.Toooba.LlcAdapterReads
import RiscvCores.Toooba.LlcAdapterOrder
import RiscvCores.Lib.EqualRuns
import RiscvCores.Toooba.IndexedMultiset
import RiscvCores.Toooba.IndexedMultisetLookups
import RiscvCores.Toooba.ReservationStation
import RiscvCores.Toooba.ReservationStationRuns
import RiscvCores.Toooba.TlbPermissions
import RiscvCores.Toooba.DTlb
import RiscvCores.Toooba.DTlbRuns
import RiscvCores.Toooba.DTlbSlots
import RiscvCores.Toooba.DTlbAnswers
import RiscvCores.Toooba.SupFifo
import RiscvCores.Lib.HoledRing
import RiscvCores.Lib.FilteredQueue
import RiscvCores.Toooba.SpecFifo
import RiscvCores.Toooba.SpecFifoRuns
import RiscvCores.Toooba.SpecFifoRefines
import RiscvCores.Toooba.FetchStage
import RiscvCores.Toooba.MMIOFetch
import RiscvCores.Toooba.MMIOFetchFaults
import RiscvCores.Toooba.MMIOSystem
import RiscvCores.Toooba.MMIOSystemSteps
import RiscvCores.Toooba.MMIOSystemRuns
import RiscvCores.Toooba.MMIOProgress
import RiscvCores.Toooba.MMIOTimers
import RiscvCores.Toooba.MMIOSoftwareInterrupts
import RiscvCores.Cva6.MacroMeaning
import RiscvCores.CommonCells.Popcount
import RiscvCores.Cva6.FixedLatencyUnit
