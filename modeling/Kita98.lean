import Kita98.DispatchCompleteness
import Kita98.BusCoherence
import Kita98.StorePaths
import Kita98.ExecFailure
import Kita98.JitEquivalence
import Kita98.BlockCode
import Kita98.MemoTable
import Kita98.JitCache
import Kita98.HaltFlag
import Kita98.BatchProgress
import Kita98.OperandAddress
import Kita98.ReadModifyWrite
import Kita98.FatVolume
import Kita98.FatRoundTrip
import Kita98.FileHandles
import Kita98.FileSession
import Kita98.Render
import Kita98.VideoPipeline
import Kita98.HaltLatch
import Kita98.PrefixLoop
import Kita98.ArmEffects
import Kita98.InstructionEnd
import Kita98.LabelledTrace
import Kita98.MachineTrace
import Kita98.IpRange
import Kita98.ReservedFlag
import Kita98.CallFrames
import Kita98.NestedCalls
import Kita98.FlatBytes
import Kita98.MemoryHistory
import Kita98.Group1
import Kita98.Conditions
import Kita98.CarryChains
import Kita98.CarryArithmetic
import Kita98.SwappedBlocks
import Kita98.OperandOrder
import Kita98.WriteBack
import Kita98.Division
import Kita98.DoubleShift
import Kita98.MzLoader
import Kita98.WordPatches
import Kita98.ImageRelocation
import Kita98.WrappingScan
import Kita98.DosTermination
import Kita98.AddressForms
import Kita98.LeaOffset
import Kita98.Checked
import Kita98.DiskImage
import Kita98.MixedRadix
import Kita98.DiskAddressing
import Kita98.FatChains
import Kita98.FatRobustness
import Kita98.RecordStore
import Kita98.StringElements
import Kita98.BlockMoves
import Kita98.StringSearch
import Kita98.SizedArms
import Kita98.SizePrefixes
import Kita98.RegisterBytes
import Kita98.StackDiscipline
import Kita98.Multiplication
import Kita98.BitSteps
import Kita98.Complements
import Kita98.Shifts
import Kita98.BatchFile
import Kita98.BatchQueue
import Kita98.BlockExits
import Kita98.InstructionBudget
import Kita98.Refusals
import Kita98.Entrypoint
import Kita98.Boot
import Kita98.PowerOn
import Kita98.DiskBoot
import Kita98.MediaRuns
import Kita98.UnhandledInterrupts
import Kita98.VectorServices
import Kita98.StringOverlap
import Kita98.FileTransfer
import Kita98.StoredFiles
import Kita98.InterpretedRuns
import Kita98.StepRules
import Kita98.CountedLoops
import Kita98.WindowLoop
import Kita98.ImageFormats
