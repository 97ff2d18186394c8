import RiscvSim.Sim.MemoryAccess

/-!
Where the accesses of several bytes stay inside the data they are served from.
The segment is chosen by the address of the first byte alone, so an access close
to the end of a segment is performed on it although its last bytes lie behind.
-/

namespace RiscvSim

open LittleEndian

/-- The accesses that move two or four bytes. -/
inductive WideAccess where
  | fetch
  | loadU16
  | loadU32
  | storeU16 (val : BitVec 16)
  | storeU32 (val : BitVec 32)

namespace WideAccess

def bytes : WideAccess → Nat
  | .fetch => 4
  | .loadU16 => 2
  | .loadU32 => 4
  | .storeU16 _ => 2
  | .storeU32 _ => 4

/-- The access without its result. -/
def run (build : Build) (mem : Memory) (addr : Address) : WideAccess → Except Fault Unit
  | .fetch => (fun _ => ()) <$> mem.fetch build addr
  | .loadU16 => (fun _ => ()) <$> mem.loadU16 build addr
  | .loadU32 => (fun _ => ()) <$> mem.loadU32 build addr
  | .storeU16 val => (fun _ => ()) <$> mem.storeU16 build addr val
  | .storeU32 val => (fun _ => ()) <$> mem.storeU32 build addr val

/-- The access does not leave a data vector, and every offset it copies in the
segment that serves it is an index of that segment's data. -/
def InBounds (build : Build) (mem : Memory) (addr : Address) (access : WideAccess) : Prop :=
  access.run build mem addr ≠ .error .outOfBounds ∧
    ∀ segm, mem.memory.find? (isAddrInSegment addr) = some segm →
      ∀ o, segm.offset addr ≤ o → o < segm.offset addr + access.bytes → o < segm.data.length

end WideAccess

theorem memcpyFrom_outOfBounds_iff {α : Type} (data : List MemByte) (offset n : Nat)
    (f : List MemByte → α) :
    f <$> memcpyFrom data offset n = .error .outOfBounds ↔ data.length < offset + n := by
  rw [(memcpyFrom_errors data offset n).map_eq_error_iff, memcpyFrom_ok_iff, Nat.not_le]

theorem memcpyTo_outOfBounds_iff {α : Type} (data : List MemByte) (offset : Nat)
    (bytes : List MemByte) (f : List MemByte → α) :
    f <$> memcpyTo data offset bytes = .error .outOfBounds ↔
      data.length < offset + bytes.length := by
  rw [(memcpyTo_errors data offset bytes).map_eq_error_iff, memcpyTo_ok_iff, Nat.not_le]

theorem assert_ne_outOfBounds {α : Type} (build : Build) (value : α) (text : String) :
    (fun _ => value) <$> build.assert false text ≠ .error Fault.outOfBounds := by
  cases build <;> simp [Build.assert, Functor.map, Except.map]

/-- `n` bytes from `addr` on leave the data of the segment that serves `addr`. -/
def RunsPast (segms : List MemorySegm) (addr : Address) (n : Nat) : Prop :=
  ∃ segm, segms.find? (isAddrInSegment addr) = some segm ∧
    segm.data.length < segm.offset addr + n

theorem loadFrom_outOfBounds_iff {α : Type} (build : Build) (w : Nat) (addr : Address)
    (segms : List MemorySegm) (f : BitVec w → α) :
    f <$> loadFrom build w addr segms = .error .outOfBounds ↔
      RunsPast segms addr (w / 8) := by
  unfold RunsPast
  cases hfind : segms.find? (isAddrInSegment addr) with
  | none =>
      rw [loadFrom_none build w (by simpa using hfind), Functor.map_map]
      simpa using assert_ne_outOfBounds build (f 0) "no segment matched address"
  | some segm =>
      obtain ⟨pre, post, rfl, hpre, hin⟩ := split_of_find? hfind
      rw [loadFrom_append build w hpre hin, Functor.map_map,
        memcpyFrom_outOfBounds_iff]
      simp

theorem storeTo_outOfBounds_iff {α : Type} {w : Nat} (build : Build) (addr : Address)
    (val : BitVec w) (segms : List MemorySegm) (f : List MemorySegm → α) :
    f <$> storeTo build addr val segms = .error .outOfBounds ↔
      RunsPast segms addr (w / 8) := by
  unfold RunsPast
  cases hfind : segms.find? (isAddrInSegment addr) with
  | none =>
      rw [storeTo_none build val (by simpa using hfind), Functor.map_map]
      simpa using assert_ne_outOfBounds build (f segms) "no segment matched address"
  | some segm =>
      obtain ⟨pre, post, rfl, hpre, hin⟩ := split_of_find? hfind
      rw [storeTo_append build val hpre hin, Functor.map_map,
        memcpyTo_outOfBounds_iff, toBytes_length]
      simp

theorem WideAccess.run_outOfBounds_iff (build : Build) (mem : Memory) (addr : Address)
    (access : WideAccess) :
    access.run build mem addr = .error .outOfBounds ↔
      RunsPast mem.memory addr access.bytes := by
  cases access with
  | fetch => exact loadFrom_outOfBounds_iff build 32 addr mem.memory _
  | loadU16 => exact loadFrom_outOfBounds_iff build 16 addr mem.memory _
  | loadU32 => exact loadFrom_outOfBounds_iff build 32 addr mem.memory _
  | storeU16 val =>
      rw [WideAccess.run, Memory.storeU16, Functor.map_map]
      exact storeTo_outOfBounds_iff build addr val mem.memory _
  | storeU32 val =>
      rw [WideAccess.run, Memory.storeU32, Functor.map_map]
      exact storeTo_outOfBounds_iff build addr val mem.memory _

/-- The offset of an address inside a segment of the right size, and the room
left behind it. -/
theorem MemorySegm.Sized.room {segm : MemorySegm} (hsized : segm.Sized) {addr : Address}
    (hin : isAddrInSegment addr segm = true) (n : Nat) :
    segm.offset addr + n ≤ segm.data.length ↔ addr.toNat + n ≤ segm.endAddr.toNat := by
  obtain ⟨hlow, hhigh⟩ := (isAddrInSegment_iff addr segm).mp hin
  have hsize : (segm.endAddr - segm.startAddr).toNat = segm.data.length := hsized
  rw [BitVec.toNat_sub_of_le (by rw [BitVec.le_def]; omega)] at hsize
  unfold MemorySegm.offset
  rw [BitVec.toNat_sub_of_le (by rw [BitVec.le_def]; omega)]
  omega

/-- A wide access stays in bounds exactly when the segment that serves its first
byte, if there is one, does not end before its last byte. -/
theorem wideAccess_inBounds_iff (build : Build) (mem : Memory) (hsized : mem.Sized)
    (addr : Address) (access : WideAccess) :
    access.InBounds build mem addr ↔
      ∀ segm, mem.memory.find? (isAddrInSegment addr) = some segm →
        addr.toNat + access.bytes ≤ segm.endAddr.toNat := by
  have hroom : ∀ segm, mem.memory.find? (isAddrInSegment addr) = some segm →
      (segm.offset addr + access.bytes ≤ segm.data.length ↔
        addr.toNat + access.bytes ≤ segm.endAddr.toNat) := by
    intro segm hfind
    have hin := List.find?_some hfind
    exact MemorySegm.Sized.room (hsized segm (List.mem_of_find?_eq_some hfind)) hin _
  unfold WideAccess.InBounds
  rw [Ne, WideAccess.run_outOfBounds_iff]
  constructor
  · rintro ⟨hnot, _⟩ segm hfind
    rw [← hroom segm hfind]
    by_contra hpast
    exact hnot ⟨segm, hfind, by omega⟩
  · intro hends
    constructor
    · rintro ⟨segm, hfind, hpast⟩
      have hfits := (hroom segm hfind).mpr (hends segm hfind)
      omega
    · intro segm hfind o hlow hhigh
      have hfits := (hroom segm hfind).mpr (hends segm hfind)
      omega

/-- A segment of two bytes. -/
def halfWordSegment : Memory := ⟨[⟨0x1000, 0x1002, [0xaa, 0xbb], true, true, false⟩]⟩

theorem halfWordSegment_sized : halfWordSegment.Sized := by
  unfold Memory.Sized MemorySegm.Sized
  decide

theorem wideAccess_inBounds_halfWord :
    WideAccess.loadU16.InBounds .release halfWordSegment 0x1000 ↔
      ∀ segm, halfWordSegment.memory.find? (isAddrInSegment 0x1000) = some segm →
        (0x1000 : Address).toNat + WideAccess.loadU16.bytes ≤ segm.endAddr.toNat :=
  wideAccess_inBounds_iff .release halfWordSegment halfWordSegment_sized 0x1000 .loadU16

/-- The word load at the start of that segment reads two bytes behind it. -/
theorem loadU32_leaves_segment :
    ¬ ∀ (build : Build) (mem : Memory), mem.Sized → ∀ (addr : Address) (access : WideAccess),
      access.InBounds build mem addr := by
  intro h
  exact (h .release halfWordSegment halfWordSegment_sized 0x1000 .loadU32).1 rfl

end RiscvSim
