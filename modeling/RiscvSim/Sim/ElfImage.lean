import RiscvSim.Sim.ByteCopy
import RiscvSim.Sim.ElfLoader

/-!
What the memory of a loaded file holds. Two things of a header can go wrong: a
file size above the memory size makes the copy leave the new vector, and a
segment that ends at the top of the address space gets the end address zero, so
that no address is below it.
-/

namespace RiscvSim

section Segments

/-- The header gives memory to the address. -/
def ElfSegment.Covers (segm : ElfSegment) (addr : Address) : Prop :=
  segm.virtualAddress.toNat ≤ addr.toNat ∧
    addr.toNat < segm.virtualAddress.toNat + segm.memorySize.toNat

/-- The segment has bytes up to the last address. -/
def ElfSegment.ReachesTop (segm : ElfSegment) : Prop :=
  0 < segm.memorySize.toNat ∧ segm.virtualAddress.toNat + segm.memorySize.toNat = 2 ^ 32

/-- A file for this target, with what a linker promises of the headers that are
loaded. -/
structure Elf.WellFormed (elf : Elf) : Prop where
  target : isTargetCorrect elf = true
  fits : ∀ segm ∈ elf.loadable, segm.fileSize.toNat ≤ segm.memorySize.toNat
  belowTop : ∀ segm ∈ elf.loadable,
    segm.virtualAddress.toNat + segm.memorySize.toNat ≤ 2 ^ 32
  apart : elf.loadable.Pairwise fun s t => ∀ addr, ¬ (s.Covers addr ∧ t.Covers addr)

theorem loadSegments_ok {segments : List ElfSegment} (hnarrow : ∀ segm ∈ segments, segm.Narrow)
    (hfits : ∀ segm ∈ segments, segm.type = PT_LOAD →
      segm.fileSize.toNat ≤ segm.memorySize.toNat) :
    loadSegments segments =
      .ok ((segments.filter fun segm => segm.type == PT_LOAD).map ElfSegment.image) := by
  induction segments with
  | nil => rfl
  | cons segm rest ih =>
      have htail := ih (fun s hs => hnarrow s (List.mem_cons_of_mem segm hs))
        (fun s hs => hfits s (List.mem_cons_of_mem segm hs))
      unfold loadSegments
      by_cases hload : segm.type = PT_LOAD
      · rw [if_neg (not_not.mpr hload), htail,
          loadSegment_ok (hnarrow segm List.mem_cons_self) (hfits segm List.mem_cons_self hload),
          List.filter_cons_of_pos (by simpa using hload)]
        rfl
      · rw [if_pos hload, htail, List.filter_cons_of_neg (by simpa using hload)]

/-- One header with too many file bytes is enough to leave a vector. -/
theorem loadSegments_overflow {segments : List ElfSegment}
    (hnarrow : ∀ segm ∈ segments, segm.Narrow) {segm : ElfSegment} (hsegm : segm ∈ segments)
    (hload : segm.type = PT_LOAD) (hlarge : segm.memorySize.toNat < segm.fileSize.toNat) :
    loadSegments segments = .error .outOfBounds := by
  induction segments with
  | nil => cases hsegm
  | cons head rest ih =>
      have hhead := hnarrow head List.mem_cons_self
      unfold loadSegments
      rcases List.mem_cons.mp hsegm with rfl | htail
      · rw [if_neg (not_not.mpr hload), loadSegment_overflow hhead hlarge]
        rfl
      · have hrest := ih (fun s hs => hnarrow s (List.mem_cons_of_mem head hs)) htail
        split
        · exact hrest
        · -- the headers in front of it overflow as well, or are loaded
          by_cases hfits : head.fileSize.toNat ≤ head.memorySize.toNat
          · rw [loadSegment_ok hhead hfits, hrest]
            rfl
          · rw [loadSegment_overflow hhead (by omega)]
            rfl

end Segments

/-- Nothing but the segments can fail in a file for this target. -/
theorem loadElf_eq {elf : Elf} (htarget : isTargetCorrect elf = true) :
    loadElf (some elf) =
      (fun mem => ⟨mem, elf.entry.setWidth 32, findGlobalPtr elf.sections⟩) <$>
        loadSegments elf.segments := by
  unfold loadElf
  dsimp only
  rw [htarget]
  cases loadSegments elf.segments <;> rfl

/-- The loader completes or throws: it does not leave a vector. -/
def Elf.LoadSafe (elf : Elf) : Prop :=
  (∃ parsed, loadElf (some elf) = .ok parsed) ∨
    ∃ text, loadElf (some elf) = .error (.exception text)

/-- A file for this target is loaded safely exactly when the file bytes of each
segment fit into its memory. -/
theorem loadSafe_iff (elf : Elf) (htarget : isTargetCorrect elf = true) :
    elf.LoadSafe ↔
      ∀ segm ∈ elf.segments, segm.type = PT_LOAD →
        segm.fileSize.toNat ≤ segm.memorySize.toNat := by
  have hnarrow : ∀ segm ∈ elf.segments, segm.Narrow := fun _ => Elf.narrow_of_target htarget
  unfold Elf.LoadSafe
  rw [loadElf_eq htarget]
  constructor
  · intro hsafe segm hsegm hload
    by_contra hlarge
    rw [loadSegments_overflow hnarrow hsegm hload (by omega)] at hsafe
    rcases hsafe with ⟨parsed, hok⟩ | ⟨text, herror⟩
    · cases hok
    · cases herror
  · intro hfits
    rw [loadSegments_ok hnarrow hfits]
    exact Or.inl ⟨_, rfl⟩

/-- Two file bytes for a segment of one byte. -/
def overfullSegment : ElfSegment := ⟨PT_LOAD, PF_R, 0x1000, 1, 2, [0x13, 0x00], rfl⟩

def overfullElf : Elf where
  machine := EM_RISCV
  elfClass := ELFCLASS32
  entry := 0x1000
  segments := [overfullSegment]
  sections := []
  narrow := by
    intro _ segm hsegm
    obtain rfl := List.mem_singleton.mp hsegm
    exact ⟨by decide, by decide, by decide⟩

theorem loadSafe_iff_overfull :
    overfullElf.LoadSafe ↔
      ∀ segm ∈ overfullElf.segments, segm.type = PT_LOAD →
        segm.fileSize.toNat ≤ segm.memorySize.toNat :=
  loadSafe_iff overfullElf rfl

theorem overfull_leaves_vector :
    isTargetCorrect overfullElf = true ∧
      loadElf (some overfullElf) = .error .outOfBounds ∧ ¬ overfullElf.LoadSafe := by
  have hload : loadElf (some overfullElf) = .error .outOfBounds := rfl
  refine ⟨rfl, hload, ?_⟩
  unfold Elf.LoadSafe
  rw [hload]
  rintro (⟨parsed, hok⟩ | ⟨text, herror⟩)
  · cases hok
  · cases herror

section Image

variable {segm : ElfSegment} {addr : Address}

/-- A segment of a file contains no address outside its header's range. -/
theorem covers_of_isAddrInSegment (hnarrow : segm.Narrow)
    (hbelow : segm.virtualAddress.toNat + segm.memorySize.toNat ≤ 2 ^ 32)
    (h : isAddrInSegment addr segm.image = true) : segm.Covers addr := by
  obtain ⟨hstart, hend⟩ := (isAddrInSegment_iff addr segm.image).mp h
  simp only [ElfSegment.image, BitVec.toNat_add, hnarrow.toNat_virtualAddress,
    hnarrow.toNat_memorySize] at hstart hend
  exact ⟨hstart, by omega⟩

theorem isAddrInSegment_of_covers (hnarrow : segm.Narrow)
    (hbelow : segm.virtualAddress.toNat + segm.memorySize.toNat ≤ 2 ^ 32)
    (htop : ¬ segm.ReachesTop) (h : segm.Covers addr) :
    isAddrInSegment addr segm.image = true := by
  obtain ⟨hstart, hend⟩ := h
  rw [isAddrInSegment_iff]
  simp only [ElfSegment.image, BitVec.toNat_add, hnarrow.toNat_virtualAddress,
    hnarrow.toNat_memorySize]
  have hlt : segm.virtualAddress.toNat + segm.memorySize.toNat < 2 ^ 32 := by
    by_contra hnot
    exact htop ⟨by omega, by omega⟩
  rw [Nat.mod_eq_of_lt hlt]
  exact ⟨hstart, hend⟩

/-- The end address of a segment up to the top wraps to zero. -/
theorem isAddrInSegment_of_reachesTop (hnarrow : segm.Narrow) (htop : segm.ReachesTop) :
    isAddrInSegment addr segm.image = false := by
  obtain ⟨-, hend⟩ := htop
  by_contra hin
  have hlt := ((isAddrInSegment_iff addr segm.image).mp (by simpa using hin)).2
  simp only [ElfSegment.image, BitVec.toNat_add, hnarrow.toNat_virtualAddress,
    hnarrow.toNat_memorySize, hend] at hlt
  omega

theorem ElfSegment.image_getElem? {i : Nat} (hi : i < segm.memorySize.toNat) :
    segm.image.data[i]? = some (segm.byteAt i) := by
  have hdata := segm.data_length
  unfold ElfSegment.byteAt ElfSegment.image
  by_cases hfile : i < segm.fileSize.toNat
  · rw [if_pos hfile, List.getElem?_append_left (by omega), List.getD_eq_getElem?_getD,
      List.getElem?_eq_getElem (by omega)]
    rfl
  · rw [if_neg hfile, List.getElem?_append_right (by omega), List.getElem?_replicate,
      if_pos (by omega)]

variable {i : Nat}

/-- The address of a byte of a segment does not wrap. -/
theorem ElfSegment.toNat_address (hnarrow : segm.Narrow)
    (hbelow : segm.virtualAddress.toNat + segm.memorySize.toNat ≤ 2 ^ 32)
    (hi : i < segm.memorySize.toNat) :
    (segm.virtualAddress.setWidth 32 + BitVec.ofNat 32 i).toNat =
      segm.virtualAddress.toNat + i := by
  rw [BitVec.toNat_add, hnarrow.toNat_virtualAddress, BitVec.toNat_ofNat,
    Nat.mod_eq_of_lt (by omega : i < 2 ^ 32), Nat.mod_eq_of_lt (by omega)]

theorem ElfSegment.offset_address (hnarrow : segm.Narrow)
    (hbelow : segm.virtualAddress.toNat + segm.memorySize.toNat ≤ 2 ^ 32)
    (hi : i < segm.memorySize.toNat) :
    segm.image.offset (segm.virtualAddress.setWidth 32 + BitVec.ofNat 32 i) = i := by
  unfold MemorySegm.offset
  rw [BitVec.toNat_sub_of_le]
  · rw [segm.toNat_address hnarrow hbelow hi]
    simp only [ElfSegment.image, hnarrow.toNat_virtualAddress]
    omega
  · rw [BitVec.le_def, segm.toNat_address hnarrow hbelow hi]
    simp only [ElfSegment.image, hnarrow.toNat_virtualAddress]
    omega

end Image

/-- The file without the headers that are not loaded. -/
def Elf.onlyLoadable (elf : Elf) : Elf :=
  { elf with
    segments := elf.loadable
    narrow := fun hclass segm hsegm => elf.narrow hclass segm (List.mem_of_mem_filter hsegm) }

/-- The memory is the one that the headers describe. -/
structure Elf.LoadedAs (build : Build) (elf : Elf) (mem : Memory) : Prop where
  bytes : ∀ segm ∈ elf.loadable, ∀ i < segm.memorySize.toNat,
    mem.loadU8 build (segm.virtualAddress.setWidth 32 + BitVec.ofNat 32 i) =
      .ok (segm.byteAt i)
  outside : ∀ addr, (∀ segm ∈ elf.loadable, ¬ segm.Covers addr) → mem.isMapped addr = false

/-- The loader returns that memory, and the other headers contribute nothing. -/
def Elf.ImageRight (build : Build) (elf : Elf) : Prop :=
  ∃ parsed, loadElf (some elf) = .ok parsed ∧ elf.LoadedAs build ⟨parsed.mem⟩ ∧
    loadElf (some elf.onlyLoadable) = .ok parsed

section WellFormed

variable {elf : Elf} (hformed : elf.WellFormed)

include hformed

theorem Elf.WellFormed.narrow {segm : ElfSegment} (hsegm : segm ∈ elf.loadable) :
    segm.Narrow :=
  Elf.narrow_of_target hformed.target (mem_loadable.mp hsegm).1

theorem Elf.WellFormed.loadElf_ok :
    loadElf (some elf) =
      .ok ⟨elf.loadable.map ElfSegment.image, elf.entry.setWidth 32,
        findGlobalPtr elf.sections⟩ := by
  rw [loadElf_eq hformed.target,
    loadSegments_ok (fun _ => Elf.narrow_of_target hformed.target)]
  · rfl
  · intro segm hsegm hload
    exact hformed.fits segm (mem_loadable.mpr ⟨hsegm, hload⟩)

theorem Elf.WellFormed.loadElf_onlyLoadable :
    loadElf (some elf.onlyLoadable) = loadElf (some elf) := by
  have honly : elf.onlyLoadable.loadable = elf.loadable := by
    simp [Elf.loadable, Elf.onlyLoadable]
  have hformed' : elf.onlyLoadable.WellFormed :=
    ⟨hformed.target, honly ▸ hformed.fits, honly ▸ hformed.belowTop, honly ▸ hformed.apart⟩
  rw [hformed'.loadElf_ok, hformed.loadElf_ok, honly]
  rfl

theorem Elf.WellFormed.outside {addr : Address}
    (h : ∀ segm ∈ elf.loadable, ¬ segm.Covers addr) :
    (Memory.mk (elf.loadable.map ElfSegment.image)).isMapped addr = false := by
  rw [Memory.isMapped_eq_false_iff]
  intro memSegm hmem
  obtain ⟨segm, hsegm, rfl⟩ := List.mem_map.mp hmem
  by_contra hin
  exact h segm hsegm (covers_of_isAddrInSegment (hformed.narrow hsegm)
    (hformed.belowTop segm hsegm) (by simpa using hin))

variable {segm : ElfSegment} (hsegm : segm ∈ elf.loadable)

include hsegm

/-- No other header gives memory to an address of the segment. -/
theorem Elf.WellFormed.others_apart :
    ∃ pre post, elf.loadable = pre ++ segm :: post ∧
      ∀ addr, segm.Covers addr → ∀ s, s ∈ pre ∨ s ∈ post → ¬ s.Covers addr := by
  obtain ⟨pre, post, hsplit⟩ := List.append_of_mem hsegm
  have hapart := hformed.apart
  rw [hsplit, List.pairwise_append, List.pairwise_cons] at hapart
  obtain ⟨-, ⟨hpost, -⟩, hpre⟩ := hapart
  refine ⟨pre, post, hsplit, ?_⟩
  intro addr haddr s hs hcovers
  rcases hs with hs | hs
  · exact hpre s hs segm List.mem_cons_self addr ⟨hcovers, haddr⟩
  · exact hpost s hs addr ⟨haddr, hcovers⟩

variable {addr : Address} (haddr : segm.Covers addr)

include haddr

/-- The image of the segment serves its addresses. -/
theorem Elf.WellFormed.byteAt (htop : ¬ segm.ReachesTop) :
    (Memory.mk (elf.loadable.map ElfSegment.image)).byteAt addr =
      segm.image.data[segm.image.offset addr]? := by
  obtain ⟨pre, post, hsplit, hothers⟩ := hformed.others_apart hsegm
  have hnone : (pre.map ElfSegment.image).find? (isAddrInSegment addr) = none := by
    rw [List.find?_eq_none]
    intro memSegm hmem hin
    obtain ⟨s, hs, rfl⟩ := List.mem_map.mp hmem
    have hloadable : s ∈ elf.loadable := by
      rw [hsplit]
      exact List.mem_append_left _ hs
    exact hothers addr haddr s (Or.inl hs) (covers_of_isAddrInSegment
      (hformed.narrow hloadable) (hformed.belowTop s hloadable) hin)
  have hin := isAddrInSegment_of_covers (hformed.narrow hsegm) (hformed.belowTop segm hsegm)
    htop haddr
  rw [hsplit, List.map_append, List.map_cons, byteAt_append, hnone]
  simp only [hin, if_true]

/-- A segment that ends at the top has none of its addresses in memory. -/
theorem Elf.WellFormed.not_mapped_of_reachesTop (htop : segm.ReachesTop) :
    (Memory.mk (elf.loadable.map ElfSegment.image)).isMapped addr = false := by
  obtain ⟨pre, post, hsplit, hothers⟩ := hformed.others_apart hsegm
  rw [Memory.isMapped_eq_false_iff]
  intro memSegm hmem
  obtain ⟨s, hs, rfl⟩ := List.mem_map.mp hmem
  have hcases : s = segm ∨ (s ∈ pre ∨ s ∈ post) := by
    rw [hsplit, List.mem_append, List.mem_cons] at hs
    tauto
  rcases hcases with rfl | hother
  · exact isAddrInSegment_of_reachesTop (hformed.narrow hsegm) htop
  · by_contra hin
    exact hothers addr haddr s hother (covers_of_isAddrInSegment (hformed.narrow hs)
      (hformed.belowTop s hs) (by simpa using hin))

end WellFormed

section Bytes

variable {elf : Elf} (hformed : elf.WellFormed) {segm : ElfSegment}
  (hsegm : segm ∈ elf.loadable) (build : Build) {i : Nat}
  (hi : i < segm.memorySize.toNat)

include hformed hsegm hi

theorem Elf.WellFormed.covers_address :
    segm.Covers (segm.virtualAddress.setWidth 32 + BitVec.ofNat 32 i) := by
  have haddr := segm.toNat_address (hformed.narrow hsegm) (hformed.belowTop segm hsegm) hi
  exact ⟨by omega, by omega⟩

/-- A segment below the top is read byte by byte. -/
theorem Elf.WellFormed.loadU8 (htop : ¬ segm.ReachesTop) :
    (Memory.mk (elf.loadable.map ElfSegment.image)).loadU8 build
        (segm.virtualAddress.setWidth 32 + BitVec.ofNat 32 i) = .ok (segm.byteAt i) := by
  apply Memory.loadU8_of_byteAt
  rw [hformed.byteAt hsegm (hformed.covers_address hsegm hi) htop,
    segm.offset_address (hformed.narrow hsegm) (hformed.belowTop segm hsegm) hi,
    ElfSegment.image_getElem? hi]

/-- A segment up to the top is not there: the assertion fails, or zero is read. -/
theorem Elf.WellFormed.loadU8_of_reachesTop (htop : segm.ReachesTop) :
    (Memory.mk (elf.loadable.map ElfSegment.image)).loadU8 build
        (segm.virtualAddress.setWidth 32 + BitVec.ofNat 32 i) =
      (fun _ => 0) <$> build.assert false "no segment matched address" := by
  apply loadFrom_none
  rw [← Memory.isMapped_eq_false_iff]
  exact hformed.not_mapped_of_reachesTop hsegm (hformed.covers_address hsegm hi) htop

end Bytes

/-- The memory of a well-formed file is right exactly when no segment with bytes
ends at the top of the address space, or where the reads of zero that the
release build makes there happen to be right. -/
theorem imageRight_iff (build : Build) (elf : Elf) (hformed : elf.WellFormed) :
    elf.ImageRight build ↔
      ∀ segm ∈ elf.loadable, segm.ReachesTop →
        build = .release ∧ ∀ byte ∈ segm.data, byte = 0 := by
  constructor
  · rintro ⟨parsed, hload, hright, -⟩ segm hsegm htop
    obtain rfl := Except.ok.inj (hformed.loadElf_ok.symm.trans hload)
    have hread (i : Nat) (hi : i < segm.memorySize.toNat) :
        (fun _ => 0) <$> build.assert false "no segment matched address" =
          .ok (segm.byteAt i) := by
      rw [← hformed.loadU8_of_reachesTop hsegm build hi htop]
      exact hright.bytes segm hsegm i hi
    cases build with
    | debug => cases hread 0 htop.1
    | release =>
        refine ⟨rfl, ?_⟩
        intro byte hbyte
        obtain ⟨i, hi, rfl⟩ := List.mem_iff_getElem.mp hbyte
        have hfile : i < segm.fileSize.toNat := by
          rw [← segm.data_length]
          exact hi
        have hzero := hread i (Nat.lt_of_lt_of_le hfile (hformed.fits segm hsegm))
        injection hzero with hzero
        rw [ElfSegment.byteAt, if_pos hfile, List.getD_eq_getElem _ _ hi] at hzero
        exact hzero.symm
  · intro htops
    refine ⟨_, hformed.loadElf_ok, ⟨?_, fun addr => hformed.outside⟩, ?_⟩
    · intro segm hsegm i hi
      by_cases htop : segm.ReachesTop
      · obtain ⟨rfl, hzeros⟩ := htops segm hsegm htop
        rw [hformed.loadU8_of_reachesTop hsegm .release hi htop]
        have hbyte : segm.byteAt i = 0 := by
          unfold ElfSegment.byteAt
          split
          · rename_i hfile
            have hlt : i < segm.data.length := by
              rw [segm.data_length]
              exact hfile
            rw [List.getD_eq_getElem _ _ hlt]
            exact hzeros _ (List.getElem_mem hlt)
          · rfl
        rw [hbyte]
        rfl
      · exact hformed.loadU8 hsegm build hi htop
    · rw [hformed.loadElf_onlyLoadable, hformed.loadElf_ok]

/-- Two file bytes and two zeros. -/
def codeSegment : ElfSegment :=
  ⟨PT_LOAD, PF_R ||| PF_X, 0x1000, 4, 2, [0x13, 0x00], rfl⟩

/-- One file byte and one zero, up to the last address. -/
def topSegment : ElfSegment := ⟨PT_LOAD, PF_R ||| PF_W, 0xfffffffe, 2, 1, [0x2a], rfl⟩

/-- `PT_NOTE` is 4. -/
def noteSegment : ElfSegment := ⟨4, PF_R, 0x1000, 1, 1, [0xff], rfl⟩

def topElf : Elf where
  machine := EM_RISCV
  elfClass := ELFCLASS32
  entry := 0x1000
  segments := [codeSegment, noteSegment, topSegment]
  sections := []
  narrow := by
    intro _ segm hsegm
    simp only [List.mem_cons, List.not_mem_nil, or_false] at hsegm
    rcases hsegm with rfl | rfl | rfl <;> exact ⟨by decide, by decide, by decide⟩

theorem topElf_loadable : topElf.loadable = [codeSegment, topSegment] := rfl

theorem topElf_wellFormed : topElf.WellFormed := by
  refine ⟨rfl, ?_, ?_, ?_⟩
  · rw [topElf_loadable]
    simp only [List.forall_mem_cons, List.not_mem_nil, false_implies, implies_true, and_true]
    decide
  · rw [topElf_loadable]
    simp only [List.forall_mem_cons, List.not_mem_nil, false_implies, implies_true, and_true]
    decide
  · rw [topElf_loadable, List.pairwise_pair]
    rintro addr ⟨⟨-, hcode⟩, ⟨htop, -⟩⟩
    have hcode' : addr.toNat < 0x1000 + 4 := hcode
    have htop' : 0xfffffffe ≤ addr.toNat := htop
    omega

theorem imageRight_iff_top :
    topElf.ImageRight .release ↔
      ∀ segm ∈ topElf.loadable, segm.ReachesTop →
        Build.release = .release ∧ ∀ byte ∈ segm.data, byte = 0 :=
  imageRight_iff .release topElf topElf_wellFormed

/-- The file byte `0x2a` of a well-formed file is read as zero. -/
theorem top_byte_lost :
    topElf.WellFormed ∧
      (∃ parsed, loadElf (some topElf) = .ok parsed ∧
        (Memory.mk parsed.mem).isMapped 0xfffffffe = false ∧
        (Memory.mk parsed.mem).loadU8 .release 0xfffffffe = .ok 0) ∧
      topSegment.byteAt 0 = 0x2a ∧ ¬ topElf.ImageRight .release := by
  have hread : (Memory.mk (topElf.loadable.map ElfSegment.image)).loadU8 .release 0xfffffffe =
      .ok 0 := by decide
  refine ⟨topElf_wellFormed, ⟨_, topElf_wellFormed.loadElf_ok, by decide, hread⟩, rfl, ?_⟩
  rintro ⟨parsed, hload, hright, -⟩
  obtain rfl := Except.ok.inj (topElf_wellFormed.loadElf_ok.symm.trans hload)
  have hbyte := hright.bytes topSegment (by rw [topElf_loadable]; simp) 0 (by decide)
  have hsame : (.ok 0 : Except Fault MemByte) = .ok 0x2a := hread.symm.trans hbyte
  exact absurd hsame (by decide)

end RiscvSim
