import RiscvSim.Sim.Construct

/-!
The loader of the program file. The file itself comes from a library outside
the repository, which answers with the fields of its headers, widened to 64
bits, and with as many bytes of a segment as the file size of its header says.
-/

namespace RiscvSim

def PT_LOAD : BitVec 32 := 1
def PF_X : BitVec 32 := 1
def PF_W : BitVec 32 := 2
def PF_R : BitVec 32 := 4
def SHT_SYMTAB : BitVec 32 := 2
def EM_RISCV : BitVec 16 := 243
def ELFCLASS32 : BitVec 8 := 1

/-- A program header and the bytes of its segment. -/
structure ElfSegment where
  type : BitVec 32
  flags : BitVec 32
  virtualAddress : BitVec 64
  memorySize : BitVec 64
  fileSize : BitVec 64
  data : List MemByte
  data_length : data.length = fileSize.toNat

/-- The fields come from a header with 32-bit fields. -/
structure ElfSegment.Narrow (segm : ElfSegment) : Prop where
  virtualAddress : segm.virtualAddress.toNat < 2 ^ 32
  memorySize : segm.memorySize.toNat < 2 ^ 32
  fileSize : segm.fileSize.toNat < 2 ^ 32

/-- A section header, with the lookup of a symbol by its name. -/
structure ElfSection where
  type : BitVec 32
  getSymbol : String → Option (BitVec 64)

structure Elf where
  machine : BitVec 16
  elfClass : BitVec 8
  entry : BitVec 64
  segments : List ElfSegment
  sections : List ElfSection
  narrow : elfClass = ELFCLASS32 → ∀ segm ∈ segments, segm.Narrow

def isTargetCorrect (elf : Elf) : Bool :=
  if elf.machine ≠ EM_RISCV then false
  else if elf.elfClass ≠ ELFCLASS32 then false
  else true

/-- `std::fill` of the elements from `first` up to `last`. -/
def stdFill (data : List MemByte) (first last : Nat) (value : MemByte) :
    Except Fault (List MemByte) :=
  if first ≤ last then memcpyTo data first (List.replicate (last - first) value)
  else .error .outOfBounds

/-- The body of the loop over the program headers, behind the test of the type.
`std::copy` of bytes into a vector is a `memcpy` to its front. -/
def loadSegment (segm : ElfSegment) : Except Fault MemorySegm := do
  let startAddr : Address := segm.virtualAddress.setWidth 32
  let memSize : BitVec 32 := segm.memorySize.setWidth 32
  let fileSize : BitVec 32 := segm.fileSize.setWidth 32
  let perms := segm.flags
  let data := List.replicate memSize.toNat 0
  let data ← memcpyTo data 0 (segm.data.take fileSize.toNat)
  let data ← stdFill data fileSize.toNat memSize.toNat 0
  return {
    startAddr
    endAddr := startAddr + memSize
    data
    rPermission := perms &&& PF_R == PF_R
    wPermission := perms &&& PF_W == PF_W
    xPermission := perms &&& PF_X == PF_X }

def loadSegments : List ElfSegment → Except Fault (List MemorySegm)
  | [] => .ok []
  | segm :: rest =>
      if segm.type ≠ PT_LOAD then loadSegments rest
      else do
        let memSegm ← loadSegment segm
        let memorySegms ← loadSegments rest
        return memSegm :: memorySegms

/-- The loop over the sections: the last symbol table that has the symbol wins. -/
def findGlobalPtr (sections : List ElfSection) : Address :=
  sections.foldl (fun globalPtr sect =>
    if sect.type ≠ SHT_SYMTAB then globalPtr
    else
      match sect.getSymbol "__global_pointer$" with
      | none => globalPtr
      | some symAddr => symAddr.setWidth 32) 0

/-- `LoadElf`, from what the library makes of the file; `none` where it cannot
read it. -/
def loadElf (loaded : Option Elf) : Except Fault ParsedElf :=
  match loaded with
  | none => .error (.exception "Unable to load elf file")
  | some elf => do
      if !isTargetCorrect elf then
        throw (.exception "Unsupported target")
      let memorySegms ← loadSegments elf.segments
      return {
        mem := memorySegms
        entryPoint := elf.entry.setWidth 32
        globalPtr := findGlobalPtr elf.sections }

/-- The headers that the loader looks at. -/
def Elf.loadable (elf : Elf) : List ElfSegment :=
  elf.segments.filter fun segm => segm.type == PT_LOAD

namespace ElfSegment

variable (segm : ElfSegment)

/-- The segment that a header stands for: its file bytes and zeros behind them. -/
def image : MemorySegm where
  startAddr := segm.virtualAddress.setWidth 32
  endAddr := segm.virtualAddress.setWidth 32 + segm.memorySize.setWidth 32
  data := segm.data ++ List.replicate (segm.memorySize.toNat - segm.fileSize.toNat) 0
  rPermission := segm.flags &&& PF_R == PF_R
  wPermission := segm.flags &&& PF_W == PF_W
  xPermission := segm.flags &&& PF_X == PF_X

/-- The byte of the segment at a distance from its start. -/
def byteAt (i : Nat) : MemByte := if i < segm.fileSize.toNat then segm.data.getD i 0 else 0

end ElfSegment

theorem mem_loadable {elf : Elf} {segm : ElfSegment} :
    segm ∈ elf.loadable ↔ segm ∈ elf.segments ∧ segm.type = PT_LOAD := by
  simp [Elf.loadable]

theorem elfClass_of_isTargetCorrect {elf : Elf} (h : isTargetCorrect elf = true) :
    elf.elfClass = ELFCLASS32 := by
  unfold isTargetCorrect at h
  split_ifs at h with hmachine hclass
  exact not_not.mp hclass

theorem Elf.narrow_of_target {elf : Elf} (h : isTargetCorrect elf = true) {segm : ElfSegment}
    (hsegm : segm ∈ elf.segments) : segm.Narrow :=
  elf.narrow (elfClass_of_isTargetCorrect h) segm hsegm

section LoadSegment

variable {segm : ElfSegment}

theorem ElfSegment.Narrow.toNat_memorySize (h : segm.Narrow) :
    (segm.memorySize.setWidth 32).toNat = segm.memorySize.toNat := by
  rw [BitVec.toNat_setWidth, Nat.mod_eq_of_lt h.memorySize]

theorem ElfSegment.Narrow.toNat_fileSize (h : segm.Narrow) :
    (segm.fileSize.setWidth 32).toNat = segm.fileSize.toNat := by
  rw [BitVec.toNat_setWidth, Nat.mod_eq_of_lt h.fileSize]

theorem ElfSegment.Narrow.toNat_virtualAddress (h : segm.Narrow) :
    (segm.virtualAddress.setWidth 32).toNat = segm.virtualAddress.toNat := by
  rw [BitVec.toNat_setWidth, Nat.mod_eq_of_lt h.virtualAddress]

/-- A header whose file bytes fit gives its image. -/
theorem loadSegment_ok (hnarrow : segm.Narrow)
    (hfits : segm.fileSize.toNat ≤ segm.memorySize.toNat) :
    loadSegment segm = .ok segm.image := by
  have hdata := segm.data_length
  have hcopy : memcpyTo (List.replicate segm.memorySize.toNat 0) 0 segm.data =
      .ok segm.image.data := by
    have hroom := memcpyTo_append [] (List.replicate segm.memorySize.toNat 0) segm.data
      (by rw [List.length_replicate]; omega)
    rw [List.nil_append, List.nil_append, List.drop_replicate, hdata] at hroom
    exact hroom
  have hfill : stdFill segm.image.data segm.fileSize.toNat segm.memorySize.toNat 0 =
      .ok segm.image.data := by
    have hzeros := memcpyTo_append segm.data
      (List.replicate (segm.memorySize.toNat - segm.fileSize.toNat) 0)
      (List.replicate (segm.memorySize.toNat - segm.fileSize.toNat) 0) (le_refl _)
    rw [List.drop_length, List.append_nil, hdata] at hzeros
    rw [stdFill, if_pos hfits]
    exact hzeros
  unfold loadSegment
  dsimp only
  rw [hnarrow.toNat_memorySize, hnarrow.toNat_fileSize,
    List.take_of_length_le (le_of_eq hdata), hcopy, ok_bind, hfill]
  rfl

/-- A header with more file bytes than memory makes the copy leave the vector. -/
theorem loadSegment_overflow (hnarrow : segm.Narrow)
    (h : segm.memorySize.toNat < segm.fileSize.toNat) :
    loadSegment segm = .error .outOfBounds := by
  have hdata := segm.data_length
  have hcopy : memcpyTo (List.replicate segm.memorySize.toNat 0) 0 segm.data =
      .error .outOfBounds := by
    unfold memcpyTo
    rw [if_neg]
    rw [List.length_replicate]
    omega
  unfold loadSegment
  dsimp only
  rw [hnarrow.toNat_memorySize, hnarrow.toNat_fileSize,
    List.take_of_length_le (le_of_eq hdata), hcopy]
  rfl

end LoadSegment

end RiscvSim
