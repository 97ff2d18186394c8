import RiscvSim.Guest.Adequacy
import RiscvSim.Guest.ProgramRules

/-!
From the bytes of a program file to a text in the memory of the machine. A file
of which a loaded segment has the bytes of the text starts the machine at one of
its lines; the smallest such file is built from the text.
-/

namespace RiscvSim

open ByteStore TotalCorrectness
open Rv32imb (Asm At CodeAt ExitsWith lineAddr textBytes)

variable {elf : Elf} {code : List Asm}

/-- The file bytes of the segment have these bytes at the address. -/
structure ElfSegment.Holds (segm : ElfSegment) (bytes : List MemByte) (addr : Address) :
    Prop where
  belowTop : segm.virtualAddress.toNat + segm.memorySize.toNat < 2 ^ 32
  placed : ∃ front back, segm.data = front ++ (bytes ++ back) ∧
    addr = segm.virtualAddress.setWidth 32 + BitVec.ofNat 32 front.length

/-- In a memory without overlaps any segment of an address serves it. -/
theorem Memory.Disjoint.byteAt_eq {mem : Memory} (hdisjoint : mem.Disjoint) {addr : Address}
    {segm : MemorySegm} (hsegm : segm ∈ mem.memory) (hin : isAddrInSegment addr segm = true) :
    mem.byteAt addr = segm.data[segm.offset addr]? := by
  obtain ⟨pre, post, hsplit, hpre⟩ := hdisjoint.split hsegm hin
  have hnone : pre.find? (isAddrInSegment addr) = none := by
    rw [List.find?_eq_none]
    intro s hs
    rw [hpre s hs]
    decide
  have hmem : mem = Memory.mk (pre ++ segm :: post) := congrArg Memory.mk hsplit
  rw [hmem, byteAt_append, hnone]
  simp only [hin, if_true]

section Image

variable {progArgs : ProgramArgs} (htarget : isTargetCorrect elf = true)
  (hfits : ∀ segm ∈ elf.loadable, segm.fileSize.toNat ≤ segm.memorySize.toNat)
  (hapart : (RVSim.initial elf.parsed progArgs).memory.Apart)

include htarget hfits hapart

/-- Bytes of a loaded segment are in the memory that the constructor builds. -/
theorem ElfSegment.Holds.byteAt {segm : ElfSegment} (hsegm : segm ∈ elf.loadable)
    {bytes : List MemByte} {addr : Address} (h : segm.Holds bytes addr) {i : Nat}
    (hi : i < bytes.length) :
    (bootState elf progArgs).mem (addr + BitVec.ofNat 32 i) = bytes[i]? := by
  obtain ⟨hbelow, front, back, hdata, rfl⟩ := h
  have hnarrow : segm.Narrow := Elf.narrow_of_target htarget (mem_loadable.mp hsegm).1
  have hlength := congrArg List.length hdata
  have hroom := hfits segm hsegm
  rw [segm.data_length, List.length_append, List.length_append] at hlength
  have hinside : front.length + i < segm.memorySize.toNat := by omega
  rw [BitVec.add_assoc, ← BitVec.ofNat_add]
  have himage : segm.image ∈ (RVSim.initial elf.parsed progArgs).memory.memory :=
    List.mem_append_left _ (List.mem_map_of_mem hsegm)
  have hin : isAddrInSegment
      (segm.virtualAddress.setWidth 32 + BitVec.ofNat 32 (front.length + i)) segm.image = true := by
    refine isAddrInSegment_of_covers hnarrow hbelow.le (fun htop => ?_) ?_
    · exact absurd htop.2 (by omega)
    · rw [ElfSegment.Covers, segm.toNat_address hnarrow hbelow.le hinside]
      omega
  change (RVSim.initial elf.parsed progArgs).memory.byteAt _ = _
  rw [hapart.disjoint.byteAt_eq himage hin, segm.offset_address hnarrow hbelow.le hinside,
    ElfSegment.image, hdata]
  simp only [List.append_assoc]
  rw [List.getElem?_append_right (by omega), Nat.add_sub_cancel_left,
    List.getElem?_append_left hi]

theorem ElfSegment.Holds.read {segm : ElfSegment} (hsegm : segm ∈ elf.loadable)
    {bytes : List MemByte} {addr : Address} (h : segm.Holds bytes addr) :
    ByteStore.read (bootState elf progArgs).mem addr bytes.length = some bytes :=
  read_eq_some_of_apply fun _ hi => h.byteAt htarget hfits hapart hsegm hi

theorem ElfSegment.Holds.codeAt {segm : ElfSegment} (hsegm : segm ∈ elf.loadable)
    {base : Address} (h : segm.Holds (textBytes code) base)
    (hlegal : ∀ line ∈ code, line.Legal) : CodeAt (bootState elf progArgs).mem base code := by
  have hlength := Rv32imb.textBytes_length code
  refine Rv32imb.codeAt_of_bytes hlegal ?_ fun i hi =>
    h.byteAt htarget hfits hapart hsegm (by omega)
  obtain ⟨hbelow, front, back, hdata, _⟩ := h
  have hroom := hfits segm hsegm
  have hwhole := congrArg List.length hdata
  rw [segm.data_length, List.length_append, List.length_append] at hwhole
  omega

end Image

/-- The command is called with a file that has the text at the base, and whose
entry point is line `start` of it. The argument strings fit, and no two segments of
the memory that is built touch. -/
structure Loads (readElf : List MemByte → Option Elf) (argv : List (List MemByte)) (elf : Elf)
    (code : List Asm) (base : Address) (start : Nat) : Prop where
  boots : Boots readElf argv elf
  fitsArgv : (ProgramArgs.ofMain argv).FitsArgv
  apart : (RVSim.initial elf.parsed (.ofMain argv)).memory.Apart
  legal : ∀ line ∈ code, line.Legal
  holds : ∃ segm ∈ elf.loadable, segm.Holds (textBytes code) base
  entry : elf.entry.setWidth 32 = lineAddr base start

variable {readElf : List MemByte → Option Elf} {argv : List (List MemByte)} {base : Address}
  {start : Nat}

theorem Loads.atStart (h : Loads readElf argv elf code base start) :
    At code base start (bootState elf (.ofMain argv)) where
  code := by
    obtain ⟨segm, hsegm, hholds⟩ := h.holds
    exact hholds.codeAt h.boots.target h.boots.fits h.apart hsegm h.legal
  pc := h.entry

/-- A text that runs on the machine alone, without a call before the one that ends it. -/
theorem Loads.main_returns {H : Type} {env : Env H} {softfloat : SoftFloatState}
    (h : Loads readElf argv elf code base start) {status : Register}
    (hreaches : Reaches ExactStep (ExitsWith status) (bootState elf (.ofMain argv))) :
    ∃ steps, ∀ fuel host, steps < fuel →
      (main env readElf softfloat argv fuel).run host = .ok (some status) host := by
  obtain ⟨steps, s, hlead, hexit⟩ := hreaches
  exact ⟨steps, fun fuel host hfuel =>
    main_exits h.boots h.fitsArgv h.apart (Rv32imb.leads_system hlead host) hexit hfuel⟩

/-- The stack of the simulator is there from the start. -/
theorem bootState_stack_present {progArgs : ProgramArgs} (hstack : progArgs.FitsStack)
    (hapart : (RVSim.initial elf.parsed progArgs).memory.Apart) {x : Address}
    (hlow : kStackBase.toNat ≤ x.toNat) (hhigh : x.toNat < kStackTop.toNat) :
    ((bootState elf progArgs).mem x).isSome := by
  have hsegm : progArgs.stackSegm ∈ (RVSim.initial elf.parsed progArgs).memory.memory :=
    List.mem_append_right _ List.mem_cons_self
  have hin : isAddrInSegment x progArgs.stackSegm = true :=
    (isAddrInSegment_iff x _).mpr ⟨hlow, hhigh⟩
  have hlength : progArgs.stackSegm.data.length = 2 ^ 20 := by
    have hwords := Packed.length_of_const (LittleEndian.toBytes 4) progArgs.words
      (LittleEndian.toBytes_length 4)
    rw [progArgs.words_length] at hwords
    rw [ProgramArgs.stackSegm, List.length_append, List.length_replicate, hwords, hstack.room]
  have hoffset : progArgs.stackSegm.offset x < 2 ^ 20 := by
    have hbase : progArgs.stackSegm.startAddr = kStackBase := rfl
    rw [MemorySegm.offset, hbase, BitVec.toNat_sub_of_le (BitVec.le_def.mpr hlow)]
    rw [kStackBase_toNat, kStackTop_toNat] at *
    omega
  change ((RVSim.initial elf.parsed progArgs).memory.byteAt x).isSome
  rw [hapart.disjoint.byteAt_eq hsegm hin, List.getElem?_eq_getElem (by omega)]
  rfl

section Smallest

variable (base : Address) (code : List Asm) (back : List MemByte) (start : Nat)
  (hroom : base.toNat + (4 * code.length + back.length) < kStackBase.toNat)

theorem toNat_textLength
    (hroom : base.toNat + (4 * code.length + back.length) < kStackBase.toNat) :
    (BitVec.ofNat 64 (4 * code.length + back.length)).toNat = 4 * code.length + back.length := by
  have hbase : kStackBase.toNat < 2 ^ 64 := by decide
  rw [BitVec.toNat_ofNat, Nat.mod_eq_of_lt (by omega)]

/-- A segment that has the bytes of the text, some data behind them and no
others. -/
def textSegment : ElfSegment where
  type := PT_LOAD
  flags := PF_R ||| PF_X
  virtualAddress := base.setWidth 64
  memorySize := BitVec.ofNat 64 (4 * code.length + back.length)
  fileSize := BitVec.ofNat 64 (4 * code.length + back.length)
  data := textBytes code ++ back
  data_length := by
    rw [List.length_append, Rv32imb.textBytes_length, toNat_textLength base code back hroom]

theorem textSegment_belowTop :
    (textSegment base code back hroom).virtualAddress.toNat +
      (textSegment base code back hroom).memorySize.toNat < kStackBase.toNat := by
  have haddr : (textSegment base code back hroom).virtualAddress.toNat = base.toNat :=
    BitVec.toNat_setWidth_of_le (by decide)
  have hsize : (textSegment base code back hroom).memorySize.toNat =
      4 * code.length + back.length := toNat_textLength base code back hroom
  rw [haddr, hsize]
  exact hroom

theorem textSegment_narrow : (textSegment base code back hroom).Narrow := by
  have hbelow := textSegment_belowTop base code back hroom
  have hfile : (textSegment base code back hroom).fileSize.toNat =
      (textSegment base code back hroom).memorySize.toNat := rfl
  rw [kStackBase_toNat] at hbelow
  exact ⟨by omega, by omega, by omega⟩

/-- The text as a file, to be placed at the address below the stack and entered
at the line. -/
def textElf : Elf where
  machine := EM_RISCV
  elfClass := ELFCLASS32
  entry := (lineAddr base start).setWidth 64
  segments := [textSegment base code back hroom]
  sections := []
  narrow := by
    intro _ segm hsegm
    obtain rfl := List.mem_singleton.mp hsegm
    exact textSegment_narrow base code back hroom

variable {base code back start hroom}

theorem mem_textElf_loadable {segm : ElfSegment} :
    segm ∈ (textElf base code back start hroom).loadable ↔
      segm = textSegment base code back hroom := by
  rw [mem_loadable]
  constructor
  · rintro ⟨hsegm, _⟩
    exact List.mem_singleton.mp hsegm
  · rintro rfl
    exact ⟨List.mem_singleton.mpr rfl, rfl⟩

theorem textElf_apart (progArgs : ProgramArgs) :
    (RVSim.initial (textElf base code back start hroom).parsed progArgs).memory.Apart := by
  have hbelow := textSegment_belowTop base code back hroom
  have hnarrow := textSegment_narrow base code back hroom
  have hend : (textSegment base code back hroom).image.endAddr.toNat < kStackBase.toNat := by
    change ((textSegment base code back hroom).virtualAddress.setWidth 32 +
      (textSegment base code back hroom).memorySize.setWidth 32).toNat < _
    rw [BitVec.toNat_add, hnarrow.toNat_virtualAddress, hnarrow.toNat_memorySize]
    exact Nat.lt_of_le_of_lt (Nat.mod_le _ _) hbelow
  have hstack : (textSegment base code back hroom).image.endAddr < kStackBase := hend
  have hargvSegm : (textSegment base code back hroom).image.endAddr < kArgvBase :=
    Nat.lt_trans hend (by decide)
  have hnext : kStackTop < kArgvBase := by decide
  change List.Pairwise _
    [(textSegment base code back hroom).image, progArgs.stackSegm, progArgs.argvSegm]
  simp only [List.pairwise_cons, List.mem_cons, List.not_mem_nil, or_false, forall_eq_or_imp,
    forall_eq, IsEmpty.forall_iff, implies_true, and_true, List.Pairwise.nil]
  exact ⟨⟨.inl hstack, .inl hargvSegm⟩, .inl hnext⟩

/-- Any part of the bytes of the file is placed by it. -/
theorem textElf_holds {front bytes rest : List MemByte}
    (hbytes : textBytes code ++ back = front ++ (bytes ++ rest)) :
    ∃ segm ∈ (textElf base code back start hroom).loadable,
      segm.Holds bytes (base + BitVec.ofNat 32 front.length) := by
  have hbelow := textSegment_belowTop base code back hroom
  rw [kStackBase_toNat] at hbelow
  refine ⟨_, mem_textElf_loadable.mpr rfl, by omega, front, rest, hbytes, ?_⟩
  have haddr : (base.setWidth 64).setWidth 32 = base := by
    rw [BitVec.setWidth_setWidth_of_le _ (by decide), BitVec.setWidth_eq]
  exact congrArg (· + BitVec.ofNat 32 front.length) haddr.symm

theorem textElf_loads (hlegal : ∀ line ∈ code, line.Legal) {path : List MemByte}
    (hpath : argv[1]? = some path) (hstack : (ProgramArgs.ofMain argv).FitsStack)
    (hargv : (ProgramArgs.ofMain argv).FitsArgv) :
    Loads (fun _ => some (textElf base code back start hroom)) argv
      (textElf base code back start hroom) code base start where
  boots :=
    { read := ⟨path, hpath, rfl⟩
      target := rfl
      fits := by
        intro segm hsegm
        obtain rfl := mem_textElf_loadable.mp hsegm
        exact Nat.le_refl _
      stack := hstack }
  fitsArgv := hargv
  apart := textElf_apart _
  legal := hlegal
  holds := by
    have hplaced : ∃ segm ∈ (textElf base code back start hroom).loadable,
        segm.Holds (textBytes code) (base + BitVec.ofNat 32 ([] : List MemByte).length) :=
      textElf_holds rfl
    rwa [List.length_nil, BitVec.add_zero] at hplaced
  entry := by
    change ((lineAddr base start).setWidth 64).setWidth 32 = lineAddr base start
    rw [BitVec.setWidth_setWidth_of_le _ (by decide), BitVec.setWidth_eq]

end Smallest

end RiscvSim
