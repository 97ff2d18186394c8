import RiscvSim.Isa.BitLoops
import RiscvSim.Isa.Division
import RiscvSim.Isa.HighMultiply
import RiscvSim.Sim.AccessBounds
import RiscvSim.Sim.StepEffects

/-!
One law for the callbacks of the four extensions: they go on by one instruction
and write one destination. What a completed callback leaves alone follows from
its kind of effect; that it completes is shown instruction by instruction, and
it does unless a computation of the host is undefined.
-/

namespace RiscvSim

open Outcomes SimM

variable {H : Type}

/-- The instructions beside those of the base set. -/
def extensionMnemonics : List InsnMnemonic :=
  (extM ++ extZbb ++ extZicsr ++ extF).map (·.mnem)

/-- The parts of the state that an instruction may change beside `ip`: a register
of each file, bits of `fcsr`, and four bytes of memory. -/
structure Footprint where
  xReg : Option RegIndex
  fReg : Option RegIndex
  fcsr : Register
  bytes : Option Address

def footprint (sim : RVSim) (insn : RvInsn) : InsnMnemonic → Footprint
  | .CSRRW | .CSRRS | .CSRRC | .CSRRWI | .CSRRSI | .CSRRCI =>
      ⟨some insn.rdIndex, none, BitVec.allOnes 32, none⟩
  | .FSW => ⟨none, none, 0, some (sim.getXReg insn.rs1Index + insn.immS)⟩
  | .FLW | .FSGNJ_S | .FSGNJN_S | .FSGNJX_S | .FMIN_S | .FMAX_S | .FMV_W_X =>
      ⟨none, some insn.rdIndex, 0, none⟩
  | .FADD_S | .FSUB_S | .FMUL_S | .FDIV_S | .FSQRT_S | .FMADD_S | .FMSUB_S | .FNMSUB_S
  | .FNMADD_S | .FCVT_S_W | .FCVT_S_WU => ⟨none, some insn.rdIndex, 0x1f, none⟩
  | .FLE_S | .FLT_S | .FEQ_S | .FCVT_W_S | .FCVT_WU_S => ⟨some insn.rdIndex, none, 0x1f, none⟩
  | _ => ⟨some insn.rdIndex, none, 0, none⟩

/-- The state is the next one, and the same but for the footprint. -/
structure Footprint.Keeps (fp : Footprint) (sim sim' : RVSim) : Prop where
  ip : sim'.ip = sim.ip + 4
  shouldStop : sim'.shouldStop = sim.shouldStop
  xregs : ∀ i, sim'.xregs.get i ≠ sim.xregs.get i → fp.xReg = some i ∧ i ≠ XRegAlias.zero
  fregs : ∀ i, sim'.fregs.get i ≠ sim.fregs.get i → fp.fReg = some i
  fcsr : sim'.fcsr &&& ~~~fp.fcsr = sim.fcsr &&& ~~~fp.fcsr
  memory :
    match fp.bytes with
    | none => sim'.memory = sim.memory
    | some addr => sim.memory.Keeps addr 4 sim'.memory

section Completion

/-- The callback ends without an error. -/
def Completes (env : Env H) (word : UndecodedInsn) (m : Machine H) (mnem : InsnMnemonic) : Prop :=
  ∃ m', (getInsnCallback env mnem word).run m = .ok () m'

/-- The computations of the callbacks that the host language leaves undefined. -/
def HostUndefined (sim : RVSim) (insn : RvInsn) : InsnMnemonic → Prop
  | .MULH =>
      2 ^ 63 ≤ (sim.getXReg insn.rs1Index).toNat * (sim.getXReg insn.rs2Index).toNat
  | .ROL | .ROR => (sim.getXReg insn.rs2Index).toNat % 32 = 0
  | .RORI => insn.shamt = 0
  | .FLW => RunsPast sim.memory.memory (sim.getXReg insn.rs1Index + insn.immI) 4
  | .FSW => RunsPast sim.memory.memory (sim.getXReg insn.rs1Index + insn.immS) 4
  | _ => False

variable (env : Env H) (word : UndecodedInsn) (m : Machine H) {mnem : InsnMnemonic}

theorem completes_extM (h : mnem ∈ extM.map (·.mnem)) :
    Completes env word m mnem ↔ ¬ HostUndefined m.sim ⟨word⟩ mnem := by
  simp only [extM, List.map_cons, List.map_nil, List.mem_cons, List.not_mem_nil, or_false] at h
  rcases h with rfl | rfl | rfl | rfl | rfl | rfl | rfl | rfl
  · exact iff_of_true ⟨_, rfl⟩ not_false
  · constructor
    · rintro ⟨m', hrun⟩ hlarge
      have herror : (callbackMULH word).run m = .error .signedOverflow m :=
        callbackMULH_overflow rfl rfl hlarge
      exact absurd (herror.symm.trans hrun) (by simp)
    · intro hfits
      exact ⟨_, callbackMULH_run rfl rfl (Nat.lt_of_not_le hfits)⟩
  · exact iff_of_true ⟨_, callbackMULHSU_run rfl rfl⟩ not_false
  · exact iff_of_true ⟨_, rfl⟩ not_false
  · exact iff_of_true ⟨_, callbackDIV_run word m⟩ not_false
  · exact iff_of_true ⟨_, callbackDIVU_run word m⟩ not_false
  · exact iff_of_true ⟨_, callbackREM_run word m⟩ not_false
  · exact iff_of_true ⟨_, callbackREMU_run word m⟩ not_false

/-- Two shifts and the end of a rotation. -/
theorem completes_rotation {rd : RegIndex} (first second : Except Fault Register) :
    (∃ m', (do
        let left ← first
        let right ← second
        setXReg rd (left ||| right)
        step : SimM H Unit).run m = .ok () m') ↔
      (∃ value, first = .ok value) ∧ ∃ value, second = .ok value := by
  cases first with
  | error fault => simp [EStateM.run_bind]
  | ok left =>
      cases second with
      | error fault => simp [EStateM.run_bind]
      | ok right => exact iff_of_true ⟨_, rfl⟩ ⟨⟨_, rfl⟩, ⟨_, rfl⟩⟩

theorem shiftLeft_defined_iff (a : Register) (b : Nat) :
    (∃ value, shiftLeft a b = .ok value) ↔ b < 32 := by
  unfold shiftLeft
  split <;> simp_all

theorem shiftRight_defined_iff (a : Register) (b : Nat) :
    (∃ value, shiftRight a b = .ok value) ↔ b < 32 := by
  unfold shiftRight
  split <;> simp_all

theorem completes_extZbb (h : mnem ∈ extZbb.map (·.mnem)) :
    Completes env word m mnem ↔ ¬ HostUndefined m.sim ⟨word⟩ mnem := by
  cases mnem with
  | ANDN | ORN | XNOR | MIN | MINU | MAX | MAXU | SEXT_B | SEXT_H | ZEXT_H =>
      exact iff_of_true ⟨_, rfl⟩ not_false
  | CLZ => exact iff_of_true ⟨_, callbackCLZ_run env word m⟩ not_false
  | CTZ => exact iff_of_true ⟨_, callbackCTZ_run env word m⟩ not_false
  | CPOP => exact iff_of_true ⟨_, callbackCPOP_run env word m⟩ not_false
  | REV8 => exact iff_of_true ⟨_, callbackREV8_run env word m⟩ not_false
  | ORC_B => exact iff_of_true ⟨_, callbackORC_B_run env word m⟩ not_false
  | ROL | ROR =>
      have hshamt := masked_amount (m.sim.getXReg (RvInsn.mk word).rs2Index)
      refine (completes_rotation m _ _).trans ?_
      rw [shiftLeft_defined_iff, shiftRight_defined_iff, hshamt]
      simp only [HostUndefined, kXlen, kXlenByte]
      omega
  | RORI =>
      have hshamt : (RvInsn.mk word).shamt.toNat < 32 := and_field_lt _
      refine (completes_rotation m _ _).trans ?_
      rw [shiftLeft_defined_iff, shiftRight_defined_iff, HostUndefined, ← BitVec.toNat_inj]
      have hzero : (0 : Register).toNat = 0 := rfl
      simp only [kXlen, kXlenByte, hzero]
      omega
  | _ => exact absurd h (by decide)

theorem completes_extZicsr (h : mnem ∈ extZicsr.map (·.mnem))
    (hcsr : ∃ csr, CSR.toEnum? (RvInsn.mk word).immCSR = some csr) :
    Completes env word m mnem ↔ ¬ HostUndefined m.sim ⟨word⟩ mnem := by
  have hmem : mnem ∈ zicsrMnemonics := h
  have hdefined : ¬ HostUndefined m.sim ⟨word⟩ mnem := by
    cases mnem <;> first | exact not_false | exact absurd hmem (by decide)
  obtain ⟨operand, f, hcallback⟩ := getInsnCallback_zicsr env hmem word
  obtain ⟨csr, hcsr⟩ := hcsr
  obtain ⟨old, hold⟩ := m.sim.getCSR_of_toEnum? env.build hcsr
  refine iff_of_true ?_ hdefined
  rw [Completes, hcallback]
  exact ⟨_, csrInsn_run operand f hcsr hold⟩

section Access

open ErrorsIn

variable (build : Build) {w : Nat} {addr : Address} {segms : List MemorySegm}
  (hin : ∃ segm ∈ segms, isAddrInSegment addr segm = true)

include hin

theorem loadFrom_defined_iff :
    (∃ value, loadFrom build w addr segms = .ok value) ↔ ¬ RunsPast segms addr (w / 8) := by
  have herrors : OfExcept (· = Fault.outOfBounds) (loadFrom build w addr segms) := by
    obtain ⟨segm, hfind⟩ := Option.isSome_iff_exists.mp (List.find?_isSome.mpr hin)
    obtain ⟨pre, post, rfl, hpre, hsegm⟩ := split_of_find? hfind
    rw [loadFrom_append build w hpre hsegm]
    exact (memcpyFrom_errors _ _ _).map _
  rw [← loadFrom_outOfBounds_iff build w addr segms id, herrors.map_eq_error_iff, not_not]

theorem storeTo_defined_iff (val : BitVec w) :
    (∃ segms', storeTo build addr val segms = .ok segms') ↔ ¬ RunsPast segms addr (w / 8) := by
  have herrors : OfExcept (· = Fault.outOfBounds) (storeTo build addr val segms) := by
    obtain ⟨segm, hfind⟩ := Option.isSome_iff_exists.mp (List.find?_isSome.mpr hin)
    obtain ⟨pre, post, rfl, hpre, hsegm⟩ := split_of_find? hfind
    rw [storeTo_append build val hpre hsegm]
    exact (memcpyTo_errors _ _ _).map _
  rw [← storeTo_outOfBounds_iff build addr val segms id, herrors.map_eq_error_iff, not_not]

end Access

/-- The four bytes from `addr` on are data of one segment. -/
def Memory.HoldsWord (mem : Memory) (addr : Address) : Prop :=
  ∃ segm ∈ mem.memory, isAddrInSegment addr segm = true ∧
    segm.offset addr + 4 ≤ segm.data.length

theorem Memory.HoldsWord.exists_segment {mem : Memory} {addr : Address} (h : mem.HoldsWord addr) :
    ∃ segm ∈ mem.memory, isAddrInSegment addr segm = true := by
  obtain ⟨segm, hsegm, hin, _⟩ := h
  exact ⟨segm, hsegm, hin⟩

theorem completes_flw
    (hholds : m.sim.memory.HoldsWord
      (m.sim.getXReg (RvInsn.mk word).rs1Index + (RvInsn.mk word).immI)) :
    Completes env word m .FLW ↔ ¬ HostUndefined m.sim ⟨word⟩ .FLW := by
  refine Iff.trans ?_ (loadFrom_defined_iff env.build (w := 32) hholds.exists_segment)
  constructor
  · rintro ⟨m', hrun⟩
    cases hload : loadFrom env.build 32
        (m.sim.getXReg (RvInsn.mk word).rs1Index + (RvInsn.mk word).immI)
        m.sim.memory.memory with
    | ok value => exact ⟨value, rfl⟩
    | error fault =>
        change (callbackFLW env word).run m = _ at hrun
        simp [callbackFLW, Memory.loadU32, hload] at hrun
  · rintro ⟨value, hload⟩
    refine ⟨m.mapSim fun sim => (sim.setFReg (RvInsn.mk word).rdIndex value).step, ?_⟩
    change (callbackFLW env word).run m = _
    simp [callbackFLW, Memory.loadU32, hload, regToFReg]

theorem completes_fsw
    (hholds : m.sim.memory.HoldsWord
      (m.sim.getXReg (RvInsn.mk word).rs1Index + (RvInsn.mk word).immS)) :
    Completes env word m .FSW ↔ ¬ HostUndefined m.sim ⟨word⟩ .FSW := by
  refine Iff.trans ?_ (storeTo_defined_iff env.build hholds.exists_segment
    (fRegToReg (m.sim.getFReg (RvInsn.mk word).rs2Index)))
  constructor
  · rintro ⟨m', hrun⟩
    cases hstore : storeTo env.build
        (m.sim.getXReg (RvInsn.mk word).rs1Index + (RvInsn.mk word).immS)
        (fRegToReg (m.sim.getFReg (RvInsn.mk word).rs2Index)) m.sim.memory.memory with
    | ok segms => exact ⟨segms, rfl⟩
    | error fault =>
        change (callbackFSW env word).run m = _ at hrun
        simp [callbackFSW, Memory.storeU32, hstore] at hrun
  · rintro ⟨segms, hstore⟩
    refine ⟨m.mapSim fun sim => { sim with memory := ⟨segms⟩ }.step, ?_⟩
    change (callbackFSW env word).run m = _
    simp [callbackFSW, Memory.storeU32, hstore]

/-- The conditions under which an instruction is asked to complete: its four data
bytes are in one segment, its CSR number is known, its rounding mode is one of
the five. -/
structure StepDomain (m : Machine H) (insn : RvInsn) (mnem : InsnMnemonic) : Prop where
  extension : mnem ∈ extensionMnemonics
  load : mnem = .FLW → m.sim.memory.HoldsWord (m.sim.getXReg insn.rs1Index + insn.immI)
  store : mnem = .FSW → m.sim.memory.HoldsWord (m.sim.getXReg insn.rs1Index + insn.immS)
  csr : mnem ∈ extZicsr.map (·.mnem) → ∃ csr, CSR.toEnum? insn.immCSR = some csr
  mode : (∃ rounding : RoundingInsn, rounding.mnem = mnem) →
    ∃ mode, (m.sim.selectedRM insn).softfloat? = some mode

theorem RoundingInsn.completes (insn : RoundingInsn)
    (hassert : env.build = .release ∨ m.sim.selectedRM ⟨word⟩ ≠ .DYN) :
    Completes env word m insn.mnem := by
  cases hmode : (m.sim.selectedRM ⟨word⟩).softfloat? with
  | some mode => exact ⟨_, insn.callback_run hmode⟩
  | none => exact ⟨_, insn.callback_run_of_selects (selects_of_reserved hmode hassert)⟩

/-- An instruction of the extension merges flags, or is a minimum or a maximum, or
raises nothing. -/
theorem extF_cases (h : mnem ∈ extF.map (·.mnem)) :
    (mnem.effectKind = .flaggedX ∨ mnem.effectKind = .flaggedF) ∨ mnem ∈ [.FMIN_S, .FMAX_S] ∨
      mnem ∈ [.FLW, .FSW, .FSGNJ_S, .FSGNJN_S, .FSGNJX_S, .FMV_X_W, .FMV_W_X, .FCLASS_S] := by
  cases mnem with
  | FLE_S | FLT_S | FEQ_S | FCVT_W_S | FCVT_WU_S => exact .inl (.inl rfl)
  | FADD_S | FSUB_S | FMUL_S | FDIV_S | FSQRT_S | FMADD_S | FMSUB_S | FNMSUB_S | FNMADD_S
  | FCVT_S_W | FCVT_S_WU => exact .inl (.inr rfl)
  | FMIN_S | FMAX_S => simp
  | FLW | FSW | FSGNJ_S | FSGNJN_S | FSGNJX_S | FMV_X_W | FMV_W_X | FCLASS_S => simp
  | _ => exact absurd h (by decide)

/-- Beside the accesses to memory, only the assertion about the rounding mode can
stop an instruction of the extension. -/
theorem completes_of_mode (h : mnem ∈ extF.map (·.mnem)) (hload : mnem ≠ .FLW)
    (hstore : mnem ≠ .FSW)
    (hassert : (∃ rounding : RoundingInsn, rounding.mnem = mnem) →
      env.build = .release ∨ m.sim.selectedRM ⟨word⟩ ≠ .DYN) : Completes env word m mnem := by
  rcases extF_cases h with hflagged | hminMax | hquiet
  · rcases flagged_cases hflagged with ⟨insn, rfl⟩ | hcompare
    · exact insn.completes env word m (hassert ⟨insn, rfl⟩)
    · simp only [List.mem_cons, List.not_mem_nil, or_false] at hcompare
      rcases hcompare with rfl | rfl | rfl <;>
        exact ⟨_, executeRRRCmpOp_run fun _ _ => callSoftFloat_calls _⟩
  · simp only [List.mem_cons, List.not_mem_nil, or_false] at hminMax
    rcases hminMax with rfl | rfl <;> exact ⟨_, rfl⟩
  · simp only [List.mem_cons, List.not_mem_nil, or_false] at hquiet
    rcases hquiet with rfl | rfl | rfl | rfl | rfl | rfl | rfl | rfl <;>
      first | contradiction | exact ⟨_, rfl⟩

theorem completes_extF (hdomain : StepDomain m ⟨word⟩ mnem) (h : mnem ∈ extF.map (·.mnem)) :
    Completes env word m mnem ↔ ¬ HostUndefined m.sim ⟨word⟩ mnem := by
  by_cases hload : mnem = .FLW
  · subst hload
    exact completes_flw env word m (hdomain.load rfl)
  by_cases hstore : mnem = .FSW
  · subst hstore
    exact completes_fsw env word m (hdomain.store rfl)
  have hdefined : ¬ HostUndefined m.sim ⟨word⟩ mnem := by
    cases mnem <;> first | exact not_false | contradiction
  refine iff_of_true (completes_of_mode env word m h hload hstore fun hrounding => ?_) hdefined
  obtain ⟨mode, hmode⟩ := hdomain.mode hrounding
  right
  intro hdyn
  rw [hdyn] at hmode
  cases hmode

/-- In its domain an instruction completes exactly when all that the host computes
for it is defined. -/
theorem completes_iff (hdomain : StepDomain m ⟨word⟩ mnem) :
    Completes env word m mnem ↔ ¬ HostUndefined m.sim ⟨word⟩ mnem := by
  have hmem := hdomain.extension
  unfold extensionMnemonics at hmem
  rw [List.map_append, List.map_append, List.map_append, List.mem_append, List.mem_append,
    List.mem_append] at hmem
  rcases hmem with ((hM | hZbb) | hZicsr) | hF
  · exact completes_extM env word m hM
  · exact completes_extZbb env word m hZbb
  · exact completes_extZicsr env word m hZicsr (hdomain.csr hZicsr)
  · exact completes_extF env word m hdomain hF

end Completion

section Frame

variable {insn : RvInsn} {sim sim' : RVSim} {mnem : InsnMnemonic}

theorem setXReg_xregs_of_ne {rd i : RegIndex} {value : Register}
    (h : (sim.setXReg rd value).xregs.get i ≠ sim.xregs.get i) : rd = i ∧ i ≠ XRegAlias.zero := by
  unfold RVSim.setXReg at h
  split at h
  · exact absurd rfl h
  · rename_i hrd
    by_cases hi : rd.val = i.val
    · obtain rfl := Fin.ext hi
      exact ⟨rfl, hrd⟩
    · exact absurd (Vector.getElem_set_ne rd.isLt i.isLt hi) h

theorem setFReg_fregs_of_ne {rd i : RegIndex} {value : FRegister}
    (h : (sim.setFReg rd value).fregs.get i ≠ sim.fregs.get i) : rd = i := by
  by_cases hi : rd.val = i.val
  · exact Fin.ext hi
  · exact absurd (Vector.getElem_set_ne rd.isLt i.isLt hi) h

/-- A write of an integer register and of the bits of `fcsr` under the mask. -/
theorem keeps_writeX {rd : RegIndex} {value fcsr mask : Register}
    (hfcsr : fcsr &&& ~~~mask = sim.fcsr &&& ~~~mask) :
    Footprint.Keeps ⟨some rd, none, mask, none⟩ sim { sim.setXReg rd value with fcsr }.step := by
  refine ⟨?_, ?_, ?_, ?_, hfcsr, ?_⟩
  · exact congrArg (· + 4) (sim.setXReg_ip rd value)
  · exact sim.setXReg_shouldStop rd value
  · intro i hne
    obtain ⟨rfl, hzero⟩ := setXReg_xregs_of_ne hne
    exact ⟨rfl, hzero⟩
  · intro i hne
    exact absurd (congrArg (·.get i) (sim.setXReg_fregs rd value)) hne
  · exact sim.setXReg_memory rd value

theorem keeps_writeF {rd : RegIndex} {value : FRegister} {fcsr mask : Register}
    (hfcsr : fcsr &&& ~~~mask = sim.fcsr &&& ~~~mask) :
    Footprint.Keeps ⟨none, some rd, mask, none⟩ sim { sim.setFReg rd value with fcsr }.step := by
  refine ⟨rfl, rfl, ?_, ?_, hfcsr, rfl⟩
  · intro i hne
    exact absurd rfl hne
  · intro i hne
    exact congrArg some (setFReg_fregs_of_ne hne)

/-- Raising exceptions changes bits 0 to 4. -/
theorem raise_fcsr_masked (sim : RVSim) (raised : BitVec 8) :
    (sim.raise raised).fcsr &&& ~~~0x1f = sim.fcsr &&& ~~~0x1f := by
  apply BitVec.eq_of_getLsbD_eq
  intro i hi
  have hmask : (0x1f : Register).getLsbD i = decide (i < 5) := getLsbD_low_mask rfl hi
  rw [BitVec.getLsbD_and, BitVec.getLsbD_and, BitVec.getLsbD_not, hmask, RVSim.getLsbD_raise]
  cases decide (i < 5) <;> simp

theorem setXReg_with_fcsr (sim : RVSim) (fcsr : Register) (rd : RegIndex) (value : Register) :
    { sim with fcsr }.setXReg rd value = { sim.setXReg rd value with fcsr } := by
  unfold RVSim.setXReg
  split
  · rfl
  · rfl

/-- The footprint of an instruction, by the kind of its effect. -/
theorem footprint_of_kind (sim : RVSim) (insn : RvInsn) (hmem : mnem ∈ extensionMnemonics) :
    footprint sim insn mnem =
      match mnem.effectKind with
      | .xReg => ⟨some insn.rdIndex, none, 0, none⟩
      | .fReg => ⟨none, some insn.rdIndex, 0, none⟩
      | .flaggedX => ⟨some insn.rdIndex, none, 0x1f, none⟩
      | .flaggedF => ⟨none, some insn.rdIndex, 0x1f, none⟩
      | .csr => ⟨some insn.rdIndex, none, BitVec.allOnes 32, none⟩
      | _ => ⟨none, none, 0, some (sim.getXReg insn.rs1Index + insn.immS)⟩ := by
  cases mnem <;> first | rfl | exact absurd hmem (by decide)

/-- The extensions have one store and neither jumps nor system calls. -/
theorem effectKind_of_extension (hmem : mnem ∈ extensionMnemonics) :
    mnem.effectKind ∈ [.xReg, .fReg, .flaggedX, .flaggedF, .csr, .store 4] := by
  cases mnem <;> first | decide | exact absurd hmem (by decide)

/-- What an effect of an extension's instruction leaves alone. -/
theorem Effect.keeps_footprint (hmem : mnem ∈ extensionMnemonics)
    (h : Effect insn sim mnem.effectKind sim') : (footprint sim insn mnem).Keeps sim sim' := by
  have hfp := footprint_of_kind sim insn hmem
  have hkinds := effectKind_of_extension hmem
  rw [hfp]
  generalize mnem.effectKind = kind at h hkinds
  cases h with
  | xReg value =>
      have hfcsr : (sim.setXReg insn.rdIndex value).fcsr &&& ~~~0 = sim.fcsr &&& ~~~0 := by
        rw [RVSim.setXReg_fcsr]
      exact keeps_writeX hfcsr
  | fReg value => exact keeps_writeF rfl
  | flaggedX value raised =>
      have hfcsr := raise_fcsr_masked (sim.setXReg insn.rdIndex value) raised
      rw [RVSim.setXReg_fcsr] at hfcsr
      exact keeps_writeX hfcsr
  | flaggedF value raised => exact keeps_writeF (raise_fcsr_masked (sim.setFReg insn.rdIndex value) raised)
  | csr hcsr value old =>
      rw [RVSim.afterCsr, setXReg_with_fcsr]
      exact keeps_writeX (by simp)
  | unknownCsr hcsr =>
      have hfcsr : (sim.setXReg insn.rdIndex 0).fcsr &&& ~~~BitVec.allOnes 32 =
          sim.fcsr &&& ~~~BitVec.allOnes 32 := by
        rw [RVSim.setXReg_fcsr]
      exact keeps_writeX hfcsr
  | store hkeeps =>
      simp only [List.mem_cons, List.not_mem_nil, or_false, reduceCtorEq, false_or,
        EffectKind.store.injEq] at hkinds
      subst hkinds
      refine ⟨rfl, rfl, ?_, ?_, rfl, hkeeps⟩
      · intro i hne
        exact absurd rfl hne
      · intro i hne
        exact absurd rfl hne
  | branch | fallThrough | jal | jalr | nothing | exit | unknownSyscall | transfer =>
      simp at hkinds

end Frame

/-- The callback completes, at the next instruction, and leaves all alone but its
footprint. -/
def StepsWithinFootprint (env : Env H) (word : UndecodedInsn) (m : Machine H)
    (mnem : InsnMnemonic) : Prop :=
  ∃ m', (getInsnCallback env mnem word).run m = .ok () m' ∧
    (footprint m.sim ⟨word⟩ mnem).Keeps m.sim m'.sim

/-- The instructions of the extensions step and write within their footprints,
except for a product that overflows, a rotation by nothing, and an access that an
earlier segment with too little data takes. -/
theorem stepsWithinFootprint_iff (env : Env H) {word : UndecodedInsn} {m : Machine H}
    {mnem : InsnMnemonic} (hdomain : StepDomain m ⟨word⟩ mnem) :
    StepsWithinFootprint env word m mnem ↔ ¬ HostUndefined m.sim ⟨word⟩ mnem := by
  rw [← completes_iff env word m hdomain]
  constructor
  · rintro ⟨m', hrun, _⟩
    exact ⟨m', hrun⟩
  · rintro ⟨m', hrun⟩
    have heffect := callback_effect env mnem word m () m' hrun
    exact ⟨m', hrun, heffect.keeps_footprint hdomain.extension⟩

/-- `rol x3, x1, x2`. -/
def rolWord : UndecodedInsn := InsnMnemonic.ROL.encode ⟨3, 1, 2, 0, 0, 0, 0, 0⟩

theorem rol_stepDomain (m : Machine H) : StepDomain m ⟨rolWord⟩ .ROL := by
  refine ⟨by decide, ?_, ?_, ?_, ?_⟩
  · intro h
    cases h
  · intro h
    cases h
  · intro h
    exact absurd h (by decide)
  · rintro ⟨rounding, h⟩
    cases rounding <;> cases h

/-- A rotation by one place. -/
theorem stepsWithinFootprint_rol :
    StepsWithinFootprint queueEnv rolWord (multiplyingMachine 0x80000001 33) .ROL := by
  refine (stepsWithinFootprint_iff queueEnv (rol_stepDomain _)).mpr ?_
  change ¬ (33 : Register).toNat % 32 = 0
  decide

/-- A rotation by no place shifts by the whole width. -/
theorem rol_by_nothing_undefined :
    decode rolWord = some .ROL ∧ StepDomain (multiplyingMachine 0x80000001 0) ⟨rolWord⟩ .ROL ∧
      (getInsnCallback queueEnv .ROL rolWord).run (multiplyingMachine 0x80000001 0) =
        .error .shiftAmount (multiplyingMachine 0x80000001 0) ∧
      ¬ StepsWithinFootprint queueEnv rolWord (multiplyingMachine 0x80000001 0) .ROL := by
  have herror : (getInsnCallback queueEnv .ROL rolWord).run (multiplyingMachine 0x80000001 0) =
      .error .shiftAmount (multiplyingMachine 0x80000001 0) := rfl
  refine ⟨decode_encode _ _, rol_stepDomain _, herror, ?_⟩
  rintro ⟨m', hrun, _⟩
  rw [herror] at hrun
  cases hrun

end RiscvSim
