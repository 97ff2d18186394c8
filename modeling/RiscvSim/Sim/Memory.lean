import RiscvSim.Isa.Defs

/-!
Guest memory: a list of segments searched in order. An access looks at the
address of its first byte only, and then copies all its bytes from or to the
data of that one segment. A copy that leaves the data vector is undefined
behaviour of the host and is the fault `outOfBounds` here.
-/

namespace RiscvSim

structure MemorySegm where
  startAddr : Address
  endAddr : Address
  data : List MemByte
  rPermission : Bool
  wPermission : Bool
  xPermission : Bool
  deriving DecidableEq, Repr

structure Memory where
  memory : List MemorySegm
  deriving DecidableEq, Repr

/-- `std::memcpy` of `n` bytes out of a vector. -/
def memcpyFrom (data : List MemByte) (offset n : Nat) : Except Fault (List MemByte) :=
  if offset + n ≤ data.length then .ok ((data.drop offset).take n) else .error .outOfBounds

/-- `std::memcpy` of a byte string into a vector. -/
def memcpyTo (data : List MemByte) (offset : Nat) (bytes : List MemByte) :
    Except Fault (List MemByte) :=
  if offset + bytes.length ≤ data.length then
    .ok (data.take offset ++ bytes ++ data.drop (offset + bytes.length))
  else .error .outOfBounds

def isAddrInSegment (addr : Address) (segm : MemorySegm) : Bool :=
  segm.startAddr ≤ addr && addr < segm.endAddr

/-- The distance the accessors compute in `Address` arithmetic. -/
def MemorySegm.offset (segm : MemorySegm) (addr : Address) : Nat :=
  (addr - segm.startAddr).toNat

/-- The search loop of the three load functions, for a result of `w` bits. -/
def loadFrom (build : Build) (w : Nat) (addr : Address) :
    List MemorySegm → Except Fault (BitVec w)
  | [] => do
      build.assert false "no segment matched address"
      return 0
  | segm :: rest =>
      if !isAddrInSegment addr segm then loadFrom build w addr rest
      else do
        let bytes ← memcpyFrom segm.data (segm.offset addr) (w / 8)
        return LittleEndian.toWord w bytes

/-- The search loop of the three store functions, for a value of `w` bits. -/
def storeTo {w : Nat} (build : Build) (addr : Address) (val : BitVec w) :
    List MemorySegm → Except Fault (List MemorySegm)
  | [] => do
      build.assert false "no segment matched address"
      return []
  | segm :: rest =>
      if !isAddrInSegment addr segm then do
        let rest' ← storeTo build addr val rest
        return segm :: rest'
      else do
        let data ← memcpyTo segm.data (segm.offset addr) (LittleEndian.toBytes (w / 8) val)
        return { segm with data } :: rest

namespace Memory

variable (build : Build)

def loadU32 (mem : Memory) (addr : Address) : Except Fault (BitVec 32) :=
  loadFrom build 32 addr mem.memory

def loadU16 (mem : Memory) (addr : Address) : Except Fault (BitVec 16) :=
  loadFrom build 16 addr mem.memory

def loadU8 (mem : Memory) (addr : Address) : Except Fault (BitVec 8) :=
  loadFrom build 8 addr mem.memory

def fetch (mem : Memory) (addr : Address) : Except Fault UndecodedInsn :=
  mem.loadU32 build addr

def storeU32 (mem : Memory) (addr : Address) (val : BitVec 32) : Except Fault Memory :=
  Memory.mk <$> storeTo build addr val mem.memory

def storeU16 (mem : Memory) (addr : Address) (val : BitVec 16) : Except Fault Memory :=
  Memory.mk <$> storeTo build addr val mem.memory

def storeU8 (mem : Memory) (addr : Address) (val : BitVec 8) : Except Fault Memory :=
  Memory.mk <$> storeTo build addr val mem.memory

/-- The write system call's loop; `from_addr + i` is cut to 32 bits. -/
def copyGuestToHost (mem : Memory) (fromAddr : Address) (size : Nat) :
    Except Fault (List MemByte) :=
  (List.range size).mapM fun i => mem.loadU8 build (fromAddr + BitVec.ofNat 32 i)

/-- The read system call's loop over the host buffer's first `size` bytes. -/
def copyHostToGuest (mem : Memory) (toAddr : Address) (fromBuf : List MemByte) (size : Nat) :
    Except Fault Memory :=
  (List.range size).foldlM (fun mem i =>
    match fromBuf[i]? with
    | some byte => mem.storeU8 build (toAddr + BitVec.ofNat 32 i) byte
    | none => .error .outOfBounds) mem

def addSegment (mem : Memory) (segm : MemorySegm) : Memory :=
  ⟨mem.memory ++ [segm]⟩

end Memory

end RiscvSim
