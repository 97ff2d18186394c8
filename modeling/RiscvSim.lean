import RiscvSim.Lib.ByteStore
import RiscvSim.Sim.Execute
import RiscvSim.Sim.ReadOverWrite
import RiscvSim.Sim.AccessBounds
import RiscvSim.Sim.ByteCopy
import RiscvSim.Sim.SyscallTransfer
import RiscvSim.Lib.MaskMatch
import RiscvSim.Isa.InsnFields
import RiscvSim.Sim.DecodeEncode
import RiscvSim.Sim.DecodeAccepts
import RiscvSim.Lib.Packed
import RiscvSim.Sim.ProgramArgs
import RiscvSim.Sim.Construct
import RiscvSim.Sim.FreshSegments
import RiscvSim.Isa.HelpersSpec
import RiscvSim.Spec.Rv32i
import RiscvSim.Sim.Rv32iState
import RiscvSim.Sim.Rv32iStep
import RiscvSim.Lib.ErrorsIn
import RiscvSim.Sim.ReleaseFaults
import RiscvSim.Sim.RoundingMode
import RiscvSim.Isa.HighMultiply
import RiscvSim.Sim.ElfLoader
import RiscvSim.Sim.CsrViews
import RiscvSim.Sim.ElfImage
import RiscvSim.Lib.Outcomes
import RiscvSim.Sim.StoreFrame
import RiscvSim.Sim.StepEffects
import RiscvSim.Lib.Runs
import RiscvSim.Sim.MachineInvariant
import RiscvSim.Sim.StickyFlags
import RiscvSim.Isa.BitLoops
import RiscvSim.Sim.ExtensionFrames
import RiscvSim.Sim.FlagAccrual
import RiscvSim.Sim.SyscallFaults
import RiscvSim.Sim.ShiftForms
import RiscvSim.Sim.BaseSequences
import RiscvSim.Sim.BytewiseAccess
import RiscvSim.Sim.ReservedModes
import RiscvSim.Lib.BinaryFormat
import RiscvSim.Spec.Binary32
import RiscvSim.Sim.MinMax
import RiscvSim.Sim.SaturatingConversion
import RiscvSim.Sim.CanonicalNaN
import RiscvSim.Spec.FusedMulAdd
import RiscvSim.Sim.FusedMultiply
import RiscvSim.Isa.BitCounts
import RiscvSim.Isa.SetByte
import RiscvSim.Isa.ByteLoops
import RiscvSim.Sim.DecodeTable
import RiscvSim.Sim.FloatClass
import RiscvSim.Sim.StackBounds
import RiscvSim.Lib.Simulation
import RiscvSim.Sim.LockStep
import RiscvSim.Sim.RunRefinement
import RiscvSim.Sim.SameRuns
import RiscvSim.Lib.Completion
import RiscvSim.Sim.FaultFree
import RiscvSim.Sim.MainProgram
import RiscvSim.Sim.RunFrames
import RiscvSim.Guest.Adequacy
import RiscvSim.Guest.FibRec
import RiscvSim.Guest.Gcd
import RiscvSim.Guest.RwSyscalls
import RiscvSim.Guest.FibIt
import RiscvSim.Guest.StartUp
import RiscvSim.Sim.HostCalls
import RiscvSim.Sim.LibraryGlobals
import RiscvSim.Sim.FpRuns
