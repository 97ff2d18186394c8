import RiscvSim.Sim.InitialStack

/-!
The segments of a fresh simulator against the representation that the memory
accessors rely on. The end of the argument segment is computed four bytes behind
the data that is allocated for it, so the representation never holds.
-/

namespace RiscvSim

/-- `end_addr = start_addr + data.size()`, as integers. -/
def MemorySegm.Exact (segm : MemorySegm) : Prop :=
  segm.endAddr.toNat = segm.startAddr.toNat + segm.data.length

/-- The copy keeps the room of its target, and the table has an entry for each
string. -/
theorem copyStrings_lengths {strs : List (List MemByte)} {copyTo : List MemByte}
    {copyOffset : Nat} {data : List MemByte} {segmOffset : List (BitVec 32)}
    (h : copyStrings strs copyTo copyOffset = .ok (data, segmOffset)) :
    data.length = copyTo.length ∧ segmOffset.length = strs.length := by
  induction strs generalizing copyTo copyOffset segmOffset with
  | nil =>
      cases h
      exact ⟨rfl, rfl⟩
  | cons str rest ih =>
      obtain ⟨afterCopy, hcopy, htail⟩ := bind_eq_ok.mp h
      obtain ⟨⟨afterRest, table⟩, hrest, hpure⟩ := bind_eq_ok.mp htail
      cases hpure
      obtain ⟨hdata, htable⟩ := ih hrest
      exact ⟨hdata.trans (memcpyTo_length hcopy), congrArg (· + 1) htable⟩

/-- Whenever the constructor completes, the argument segment has this shape. -/
theorem RVSim.construct_argvSegm {parsedElf : ParsedElf} {progArgs : ProgramArgs} {sim : RVSim}
    (h : RVSim.construct parsedElf progArgs = .ok sim) :
    ∃ segm ∈ sim.memory.memory, segm.startAddr = kArgvBase ∧
      segm.endAddr = kArgvBase + progArgs.sizeOfArgv + 4 ∧
      segm.data.length = progArgs.sizeOfArgv.toNat := by
  obtain ⟨⟨argvData, offsetTable⟩, hcopy, hstack⟩ := bind_eq_ok.mp h
  have hlength : argvData.length = progArgs.sizeOfArgv.toNat := by
    rw [(copyStrings_lengths hcopy).1, List.length_replicate]
  obtain ⟨afterCount, _, hpointers⟩ := bind_eq_ok.mp hstack
  obtain ⟨⟨afterPointers, fillAddr⟩, _, hnull⟩ := bind_eq_ok.mp hpointers
  obtain ⟨stackData, _, hpure⟩ := bind_eq_ok.mp hnull
  cases hpure
  refine ⟨⟨kArgvBase, kArgvBase + progArgs.sizeOfArgv + 4, argvData, true, false, false⟩, ?_,
    rfl, rfl, hlength⟩
  exact List.mem_append_right _ (List.mem_singleton.mpr rfl)

/-- A segment whose end is computed four bytes behind its data is not exact,
with or without a wrap of that end. -/
theorem not_exact_of_end {segm : MemorySegm} {size : BitVec 32}
    (hstart : segm.startAddr = kArgvBase) (hend : segm.endAddr = kArgvBase + size + 4)
    (hsize : segm.data.length = size.toNat) : ¬ segm.Exact := by
  intro hexact
  unfold MemorySegm.Exact at hexact
  have hbound := segm.endAddr.isLt
  have hfour : (4 : Address).toNat = 4 := rfl
  have hsum : segm.endAddr.toNat = ((kArgvBase.toNat + size.toNat) % 2 ^ 32 + 4) % 2 ^ 32 := by
    rw [hend, BitVec.toNat_add, BitVec.toNat_add, hfour]
  rw [hstart, hsize] at hexact
  omega

/-- On no input does the constructor end with all segments exact; and where the
arguments fit, it ends with a segment that claims an address without data. -/
theorem construct_never_exact (parsedElf : ParsedElf) (progArgs : ProgramArgs) :
    (¬ ∃ sim, RVSim.construct parsedElf progArgs = .ok sim ∧
      ∀ segm ∈ sim.memory.memory, segm.Exact) ∧
    (progArgs.FitsStack → progArgs.FitsArgv →
      ∃ sim, RVSim.construct parsedElf progArgs = .ok sim ∧
        ∃ segm ∈ sim.memory.memory, ∃ addr, isAddrInSegment addr segm = true ∧
          ¬ segm.offset addr < segm.data.length) := by
  constructor
  · rintro ⟨sim, hsim, hexact⟩
    obtain ⟨segm, hsegm, hstart, hend, hsize⟩ := RVSim.construct_argvSegm hsim
    exact not_exact_of_end hstart hend hsize (hexact segm hsegm)
  · intro hstack hargv
    have hsim := RVSim.construct_eq parsedElf hstack hargv
    obtain ⟨segm, hsegm, hstart, hend, hsize⟩ := RVSim.construct_argvSegm hsim
    have haddr : (kArgvBase + progArgs.sizeOfArgv).toNat =
        kArgvBase.toNat + progArgs.sizeOfArgv.toNat := by
      rw [progArgs.sizeOfArgv_eq, hargv.addr_toNat le_rfl, ← progArgs.sizeOfArgv_eq,
        hargv.sizeOfArgv_toNat]
    have hendNat : segm.endAddr.toNat = kArgvBase.toNat + progArgs.sizeOfArgv.toNat + 4 := by
      rw [hend, hargv.end_toNat]
    refine ⟨_, hsim, segm, hsegm, kArgvBase + progArgs.sizeOfArgv, ?_, ?_⟩
    · rw [isAddrInSegment_iff, haddr, hstart, hendNat]
      omega
    · rw [MemorySegm.offset, hstart, BitVec.add_comm, BitVec.add_sub_cancel, hsize]
      omega

theorem construct_never_exact_twoArgs :
    ∃ sim, RVSim.construct smallElf twoArgs = .ok sim ∧
      ∃ segm ∈ sim.memory.memory, ∃ addr, isAddrInSegment addr segm = true ∧
        ¬ segm.offset addr < segm.data.length :=
  (construct_never_exact smallElf twoArgs).2 (by decide) (by decide)

theorem fresh_segments_not_exact :
    ¬ ∀ (parsedElf : ParsedElf) (progArgs : ProgramArgs),
      (∀ segm ∈ parsedElf.mem, segm.Exact) → progArgs.FitsStack →
      ∀ sim, RVSim.construct parsedElf progArgs = .ok sim →
        ∀ segm ∈ sim.memory.memory, segm.Exact := by
  intro h
  have hsim := RVSim.construct_eq smallElf (by decide : twoArgs.FitsStack) (by decide)
  have hexact := h smallElf twoArgs (by unfold MemorySegm.Exact; decide) (by decide) _ hsim
  obtain ⟨segm, hsegm, hstart, hend, hsize⟩ := RVSim.construct_argvSegm hsim
  exact not_exact_of_end hstart hend hsize (hexact segm hsegm)

end RiscvSim
