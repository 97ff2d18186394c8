import RiscvSim.Lib.Outcomes
import RiscvSim.Sim.MemoryAccess

/-!
What a store that returns leaves alone, wherever it goes: the segment table, and
every byte but those at its own addresses. Nothing is assumed of the table, so
this holds of a store to no segment and of overlapping segments as well.
-/

namespace RiscvSim

open ByteStore LittleEndian Outcomes

/-- `mem'` is `mem` but for the `n` bytes from `addr` on. -/
structure Memory.Keeps (mem : Memory) (addr : Address) (n : Nat) (mem' : Memory) : Prop where
  layout : mem'.layout = mem.layout
  byteAt : ∀ x, ¬ Covers addr n x → mem'.byteAt x = mem.byteAt x

theorem Memory.layout_cons (segm : MemorySegm) (rest : List MemorySegm) :
    (Memory.mk (segm :: rest)).layout = segm.layout :: (Memory.mk rest).layout := rfl

theorem Memory.byteAt_cons (segm : MemorySegm) (rest : List MemorySegm) (x : Address) :
    (Memory.mk (segm :: rest)).byteAt x =
      if isAddrInSegment x segm then segm.data[segm.offset x]?
      else (Memory.mk rest).byteAt x :=
  byteAt_append [] rest segm x

/-- The distance between two addresses is the one between their offsets. -/
theorem MemorySegm.covers_of_offset (segm : MemorySegm) {addr x : Address} {n : Nat}
    (hlow : segm.offset addr ≤ segm.offset x) (hhigh : segm.offset x < segm.offset addr + n) :
    Covers addr n x := by
  have hdist : x - addr = (x - segm.startAddr) - (addr - segm.startAddr) := by
    bv_omega
  unfold Covers
  unfold MemorySegm.offset at hlow hhigh
  rw [hdist, BitVec.toNat_sub_of_le (by rwa [BitVec.le_def])]
  omega

theorem memcpyTo_keeps {segm : MemorySegm} {rest : List MemorySegm} {addr : Address}
    {bytes data : List MemByte} (h : memcpyTo segm.data (segm.offset addr) bytes = .ok data) :
    (Memory.mk (segm :: rest)).Keeps addr bytes.length ⟨{ segm with data } :: rest⟩ := by
  constructor
  · have hlayout : MemorySegm.layout { segm with data } = segm.layout := by
      simp only [MemorySegm.layout, memcpyTo_length h]
    rw [Memory.layout_cons, Memory.layout_cons, hlayout]
  · intro x hx
    have hin : isAddrInSegment x { segm with data } = isAddrInSegment x segm := rfl
    have hoff : MemorySegm.offset { segm with data } x = segm.offset x := rfl
    have hsame : data[segm.offset x]? = segm.data[segm.offset x]? := by
      rw [memcpyTo_getElem? h, if_neg]
      rintro ⟨hlow, hhigh⟩
      exact hx (segm.covers_of_offset hlow hhigh)
    rw [Memory.byteAt_cons, Memory.byteAt_cons, hin, hoff, hsame]

theorem storeTo_keeps {w : Nat} (build : Build) (addr : Address) (val : BitVec w)
    (segms : List MemorySegm) :
    Returns (storeTo build addr val segms) fun segms' =>
      (Memory.mk segms).Keeps addr (w / 8) ⟨segms'⟩ := by
  induction segms with
  | nil =>
      cases build with
      | debug => exact returns_error
      | release => exact returns_ok.mpr ⟨rfl, fun _ _ => rfl⟩
  | cons segm rest ih =>
      unfold storeTo
      split
      · rw [returns_bind]
        intro rest' hrest
        obtain ⟨hlayout, hbytes⟩ := ih rest' hrest
        refine returns_ok.mpr ⟨?_, ?_⟩
        · rw [Memory.layout_cons, Memory.layout_cons, hlayout]
        · intro x hx
          rw [Memory.byteAt_cons, Memory.byteAt_cons, hbytes x hx]
      · rw [returns_bind]
        intro data hdata
        have hkeeps : (Memory.mk (segm :: rest)).Keeps addr _ ⟨{ segm with data } :: rest⟩ :=
          memcpyTo_keeps hdata
        rw [toBytes_length] at hkeeps
        exact returns_ok.mpr hkeeps

namespace Memory

variable (build : Build) (mem : Memory) (addr : Address)

theorem storeU8_keeps (val : BitVec 8) :
    Returns (mem.storeU8 build addr val) (mem.Keeps addr 1) :=
  returns_map.mpr (storeTo_keeps build addr val mem.memory)

theorem storeU16_keeps (val : BitVec 16) :
    Returns (mem.storeU16 build addr val) (mem.Keeps addr 2) :=
  returns_map.mpr (storeTo_keeps build addr val mem.memory)

theorem storeU32_keeps (val : BitVec 32) :
    Returns (mem.storeU32 build addr val) (mem.Keeps addr 4) :=
  returns_map.mpr (storeTo_keeps build addr val mem.memory)

/-- The read system call's loop stores bytes only. -/
theorem copyHostToGuest_layout (buf : List MemByte) (size : Nat) :
    Returns (mem.copyHostToGuest build addr buf size) fun mem' => mem'.layout = mem.layout := by
  apply returns_foldlM (R := fun mem mem' : Memory => mem'.layout = mem.layout)
  · intro mem
    rfl
  · intro _ _ _ h h'
    exact h'.trans h
  · intro mem i
    split
    · intro mem' hstore
      exact (mem.storeU8_keeps build _ _ mem' hstore).layout
    · exact returns_error

end Memory

end RiscvSim
