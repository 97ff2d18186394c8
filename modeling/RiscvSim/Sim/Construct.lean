import RiscvSim.Sim.ProgramArgs
import RiscvSim.Sim.RVSim

/-!
The constructor of the simulator. It builds the stack and the argument segment,
fills the top of the stack with the argument count, the pointers to the strings
and a null pointer, and adds the two segments behind those of the program file.
-/

namespace RiscvSim

open LittleEndian

structure ParsedElf where
  mem : List MemorySegm
  entryPoint : Address
  globalPtr : Address

/-- `std::memcpy` to a pointer into a vector, given by its distance from the
vector's first byte. -/
def memcpyToPtr (data : List MemByte) (ptr : Int) (bytes : List MemByte) :
    Except Fault (List MemByte) :=
  if ptr < 0 then .error .outOfBounds else memcpyTo data ptr.toNat bytes

/-- The loop over the offset table, which has one entry for each argument. -/
def fillPointers : List (BitVec 32) → List MemByte → Int → Except Fault (List MemByte × Int)
  | [], data, fillAddr => .ok (data, fillAddr)
  | segmOffset :: rest, data, fillAddr => do
      let offset := kArgvBase + segmOffset
      let data ← memcpyToPtr data fillAddr (toBytes 4 offset)
      fillPointers rest data (fillAddr + 4)

/-- All registers are zero but the global and the stack pointer. -/
def initialXRegs (globalPtr argvFillStart : Register) : Vector Register 32 :=
  ((Vector.replicate 32 0).set XRegAlias.gp globalPtr).set XRegAlias.sp argvFillStart

def RVSim.construct (parsedElf : ParsedElf) (progArgs : ProgramArgs) : Except Fault RVSim := do
  let argvSize := progArgs.sizeOfArgv
  let argc := progArgs.argc
  let (argvData, offsetTable) ← progArgs.copyArgv (List.replicate argvSize.toNat 0)
  let argvFillStart : Address := kStackTop - BitVec.ofNat 32 (kXlenByte * (argc + 2))
  let fillAddr : Int := argvFillStart.toNat - kStackBase.toNat
  let stackData := List.replicate kStackSize 0
  let stackData ← memcpyToPtr stackData fillAddr (toBytes 4 (BitVec.ofNat 32 argc))
  let fillAddr := fillAddr + 4
  let (stackData, fillAddr) ← fillPointers offsetTable stackData fillAddr
  let nullPtr : Register := 0
  let stackData ← memcpyToPtr stackData fillAddr (toBytes 4 nullPtr)
  let stackSegm : MemorySegm := ⟨kStackBase, kStackTop, stackData, true, true, false⟩
  let argvSegm : MemorySegm :=
    ⟨kArgvBase, kArgvBase + argvSize + 4, argvData, true, false, false⟩
  let memory := ((Memory.mk parsedElf.mem).addSegment stackSegm).addSegment argvSegm
  return {
    memory
    ip := parsedElf.entryPoint
    shouldStop := false
    xregs := initialXRegs parsedElf.globalPtr argvFillStart
    fregs := Vector.replicate 32 0
    fcsr := 0 }

end RiscvSim
