import RiscvSim.Sim.Execute
import RiscvSim.Sim.Rv32iState

/-!
One iteration of the interpreter loop on a base integer instruction is the
specified step. Each group of callbacks has one lemma about its run, from which
the operation, the register numbers and the immediate are read off.
-/

namespace RiscvSim

open ByteStore LittleEndian SimM

variable {H : Type}

section Runs

/-! What each callback does, in terms of the fields that its word has. -/

variable {env : Env H} {m : Machine H} {word : UndecodedInsn} {rd rs1 rs2 : BitVec 5}
  {imm : Register}

section

variable (hrd : (RvInsn.mk word).rd = rd.setWidth 32)

include hrd

theorem callbackLUI_run (himm : (RvInsn.mk word).immU = imm) :
    (callbackLUI word).run m =
      .ok () (m.mapSim fun sim => (sim.setXReg (regIndex rd) imm).step) := by
  simp [callbackLUI, RvInsn.rdIndex_eq hrd, himm]

theorem callbackAUIPC_run (himm : (RvInsn.mk word).immU = imm) :
    (callbackAUIPC word).run m =
      .ok () (m.mapSim fun sim => (sim.setXReg (regIndex rd) (m.sim.ip + imm)).step) := by
  simp [callbackAUIPC, RvInsn.rdIndex_eq hrd, himm]

theorem callbackJAL_run (himm : (RvInsn.mk word).immJ = imm) :
    (callbackJAL word).run m =
      .ok () (m.mapSim fun sim =>
        { sim.setXReg (regIndex rd) (m.sim.ip + kStepSize) with ip := m.sim.ip + imm }) := by
  simp [callbackJAL, RvInsn.rdIndex_eq hrd, himm]

variable (hrs1 : (RvInsn.mk word).rs1 = rs1.setWidth 32)

include hrs1

theorem executeRRIShift_run {binOp : Register → Register → Except Fault Register}
    {value : Register} {shamt : BitVec 5}
    (hshamt : (RvInsn.mk word).shamt = shamt.setWidth 32)
    (hvalue : binOp (m.sim.getXReg (regIndex rs1)) (shamt.setWidth 32) = .ok value) :
    (executeRRIShift word binOp).run m =
      .ok () (m.mapSim fun sim => (sim.setXReg (regIndex rd) value).step) := by
  simp [executeRRIShift, RvInsn.rdIndex_eq hrd, RvInsn.rs1Index_eq hrs1, hshamt, hvalue]

section Immediate

variable (himm : (RvInsn.mk word).immI = imm)

include himm

theorem executeRRIBinOp_run {binOp : Register → Register → Except Fault Register}
    {value : Register} (hvalue : binOp (m.sim.getXReg (regIndex rs1)) imm = .ok value) :
    (executeRRIBinOp word binOp).run m =
      .ok () (m.mapSim fun sim => (sim.setXReg (regIndex rd) value).step) := by
  simp [executeRRIBinOp, RvInsn.rdIndex_eq hrd, RvInsn.rs1Index_eq hrs1, himm, hvalue]

/-- The target is computed before the link register is written. -/
theorem callbackJALR_run :
    (callbackJALR word).run m =
      .ok () (m.mapSim fun sim =>
        RVSim.setXReg { sim with ip := (m.sim.getXReg (regIndex rs1) + imm) &&& ~~~1 }
          (regIndex rd) (m.sim.ip + kStepSize)) := by
  simp [callbackJALR, RvInsn.rdIndex_eq hrd, RvInsn.rs1Index_eq hrs1, himm]

theorem callbackSLTI_run :
    (callbackSLTI word).run m =
      .ok () (m.mapSim fun sim =>
        (sim.setXReg (regIndex rd)
          (Rv32i.AluOp.SLT.eval (m.sim.getXReg (regIndex rs1)) imm)).step) := by
  rw [← slt_eq_eval]
  simp [callbackSLTI, RvInsn.rdIndex_eq hrd, RvInsn.rs1Index_eq hrs1, himm, regToIReg]

theorem callbackSLTIU_run :
    (callbackSLTIU word).run m =
      .ok () (m.mapSim fun sim =>
        (sim.setXReg (regIndex rd)
          (Rv32i.AluOp.SLTU.eval (m.sim.getXReg (regIndex rs1)) imm)).step) := by
  rw [← sltu_eq_eval]
  simp [callbackSLTIU, RvInsn.rdIndex_eq hrd, RvInsn.rs1Index_eq hrs1, himm, iRegToReg]

theorem callbackLB_run {val : BitVec 8}
    (hload : m.sim.memory.loadU8 env.build (m.sim.getXReg (regIndex rs1) + imm) = .ok val) :
    (callbackLB env word).run m =
      .ok () (m.mapSim fun sim => (sim.setXReg (regIndex rd) (val.signExtend 32)).step) := by
  rw [← signExt_eq (by decide) (by decide)]
  simp [callbackLB, RvInsn.rdIndex_eq hrd, RvInsn.rs1Index_eq hrs1, himm, hload]

theorem callbackLH_run {val : BitVec 16}
    (hload : m.sim.memory.loadU16 env.build (m.sim.getXReg (regIndex rs1) + imm) = .ok val) :
    (callbackLH env word).run m =
      .ok () (m.mapSim fun sim => (sim.setXReg (regIndex rd) (val.signExtend 32)).step) := by
  rw [← signExt_eq (by decide) (by decide)]
  simp [callbackLH, RvInsn.rdIndex_eq hrd, RvInsn.rs1Index_eq hrs1, himm, hload]

theorem callbackLW_run {val : BitVec 32}
    (hload : m.sim.memory.loadU32 env.build (m.sim.getXReg (regIndex rs1) + imm) = .ok val) :
    (callbackLW env word).run m =
      .ok () (m.mapSim fun sim => (sim.setXReg (regIndex rd) val).step) := by
  simp [callbackLW, RvInsn.rdIndex_eq hrd, RvInsn.rs1Index_eq hrs1, himm, hload]

theorem callbackLBU_run {val : BitVec 8}
    (hload : m.sim.memory.loadU8 env.build (m.sim.getXReg (regIndex rs1) + imm) = .ok val) :
    (callbackLBU env word).run m =
      .ok () (m.mapSim fun sim => (sim.setXReg (regIndex rd) (val.setWidth 32)).step) := by
  simp [callbackLBU, RvInsn.rdIndex_eq hrd, RvInsn.rs1Index_eq hrs1, himm, hload]

theorem callbackLHU_run {val : BitVec 16}
    (hload : m.sim.memory.loadU16 env.build (m.sim.getXReg (regIndex rs1) + imm) = .ok val) :
    (callbackLHU env word).run m =
      .ok () (m.mapSim fun sim => (sim.setXReg (regIndex rd) (val.setWidth 32)).step) := by
  simp [callbackLHU, RvInsn.rdIndex_eq hrd, RvInsn.rs1Index_eq hrs1, himm, hload]

end Immediate

section TwoRegisters

variable (hrs2 : (RvInsn.mk word).rs2 = rs2.setWidth 32)

include hrs2

theorem executeRRRBinOp_run {binOp : Register → Register → Except Fault Register}
    {value : Register}
    (hvalue : binOp (m.sim.getXReg (regIndex rs1)) (m.sim.getXReg (regIndex rs2)) = .ok value) :
    (executeRRRBinOp word binOp).run m =
      .ok () (m.mapSim fun sim => (sim.setXReg (regIndex rd) value).step) := by
  simp [executeRRRBinOp, RvInsn.rdIndex_eq hrd, RvInsn.rs1Index_eq hrs1,
    RvInsn.rs2Index_eq hrs2, hvalue]

theorem callbackSLT_run :
    (callbackSLT word).run m =
      .ok () (m.mapSim fun sim =>
        (sim.setXReg (regIndex rd) (Rv32i.AluOp.SLT.eval (m.sim.getXReg (regIndex rs1))
          (m.sim.getXReg (regIndex rs2)))).step) := by
  rw [← slt_eq_eval]
  unfold callbackSLT regToIReg
  simp [RvInsn.rdIndex_eq hrd, RvInsn.rs1Index_eq hrs1, RvInsn.rs2Index_eq hrs2]

theorem callbackSLTU_run :
    (callbackSLTU word).run m =
      .ok () (m.mapSim fun sim =>
        (sim.setXReg (regIndex rd) (Rv32i.AluOp.SLTU.eval (m.sim.getXReg (regIndex rs1))
          (m.sim.getXReg (regIndex rs2)))).step) := by
  rw [← sltu_eq_eval]
  simp [callbackSLTU, RvInsn.rdIndex_eq hrd, RvInsn.rs1Index_eq hrs1, RvInsn.rs2Index_eq hrs2]

end TwoRegisters

end

variable (hrs1 : (RvInsn.mk word).rs1 = rs1.setWidth 32)
  (hrs2 : (RvInsn.mk word).rs2 = rs2.setWidth 32)

include hrs1 hrs2

theorem executeBranch_run {pred : Register → Register → Bool}
    (himm : (RvInsn.mk word).immB = imm) :
    (executeBranch word pred).run m =
      .ok () (m.mapSim fun sim =>
        if pred (m.sim.getXReg (regIndex rs1)) (m.sim.getXReg (regIndex rs2)) then
          { sim with ip := m.sim.ip + imm }
        else sim.step) := by
  cases hpred : pred (m.sim.getXReg (regIndex rs1)) (m.sim.getXReg (regIndex rs2)) <;>
    simp [executeBranch, RvInsn.rs1Index_eq hrs1, RvInsn.rs2Index_eq hrs2, himm, hpred]

variable (himm : (RvInsn.mk word).immS = imm) {memory : Memory}

include himm

theorem callbackSB_run
    (hstore : m.sim.memory.storeU8 env.build (m.sim.getXReg (regIndex rs1) + imm)
      (truncHigh 8 (m.sim.getXReg (regIndex rs2))) = .ok memory) :
    (callbackSB env word).run m = .ok () (m.mapSim fun sim => { sim with memory }.step) := by
  simp [callbackSB, RvInsn.rs1Index_eq hrs1, RvInsn.rs2Index_eq hrs2, himm, hstore]

theorem callbackSH_run
    (hstore : m.sim.memory.storeU16 env.build (m.sim.getXReg (regIndex rs1) + imm)
      (truncHigh 16 (m.sim.getXReg (regIndex rs2))) = .ok memory) :
    (callbackSH env word).run m = .ok () (m.mapSim fun sim => { sim with memory }.step) := by
  simp [callbackSH, RvInsn.rs1Index_eq hrs1, RvInsn.rs2Index_eq hrs2, himm, hstore]

theorem callbackSW_run
    (hstore : m.sim.memory.storeU32 env.build (m.sim.getXReg (regIndex rs1) + imm)
      (m.sim.getXReg (regIndex rs2)) = .ok memory) :
    (callbackSW env word).run m = .ok () (m.mapSim fun sim => { sim with memory }.step) := by
  simp [callbackSW, RvInsn.rs1Index_eq hrs1, RvInsn.rs2Index_eq hrs2, himm, hstore]

end Runs

/-- The callback does what the instruction is specified to do, and touches
nothing else. -/
def Refines (env : Env H) (m : Machine H) (insn : Rv32i.Insn) : Prop :=
  ∃ sim', (getInsnCallback env insn.mnem insn.word).run m = .ok () { m with sim := sim' } ∧
    insn.exec m.sim.toSpec = some sim'.toSpec ∧ m.sim.OthersKept sim'

section Callbacks

open Rv32i (AluOp ImmOp ShiftOp BranchOp LoadOp Insn)

variable {env : Env H} {m : Machine H}

/-- A callback that writes one register and goes on to the next instruction. -/
theorem Refines.of_setXReg {insn : Insn} (rd : BitVec 5) (value : Register)
    (hrun : (getInsnCallback env insn.mnem insn.word).run m =
      .ok () (m.mapSim fun sim => (sim.setXReg (regIndex rd) value).step))
    (hexec : insn.exec m.sim.toSpec = some (m.sim.toSpec.setReg rd value).next) :
    Refines env m insn := by
  refine ⟨(m.sim.setXReg (regIndex rd) value).step, hrun, ?_, ?_⟩
  · rw [hexec, RVSim.toSpec_step, RVSim.toSpec_setXReg]
  · exact (RVSim.OthersKept.refl.setXReg _ _).setIp _

theorem refines_lui {rd : BitVec 5} {imm : Int} (hlegal : (Insn.lui rd imm).Legal) :
    Refines env m (.lui rd imm) := by
  have hrd := InsnFormat.readsFields_word (.u Opcode.LUI) (Insn.lui rd imm).operands
  have himm := InsnFormat.readsImm_word (.u Opcode.LUI) (Insn.lui rd imm).operands hlegal
  exact .of_setXReg _ _ (callbackLUI_run hrd (eq_ofInt_of_toInt himm)) rfl

theorem refines_auipc {rd : BitVec 5} {imm : Int} (hlegal : (Insn.auipc rd imm).Legal) :
    Refines env m (.auipc rd imm) := by
  have hrd := InsnFormat.readsFields_word (.u Opcode.AUIPC) (Insn.auipc rd imm).operands
  have himm := InsnFormat.readsImm_word (.u Opcode.AUIPC) (Insn.auipc rd imm).operands hlegal
  exact .of_setXReg _ _ (callbackAUIPC_run hrd (eq_ofInt_of_toInt himm)) rfl

theorem refines_jal {rd : BitVec 5} {imm : Int} (hlegal : (Insn.jal rd imm).Legal) :
    Refines env m (.jal rd imm) := by
  have hrd := InsnFormat.readsFields_word (.j Opcode.JAL) (Insn.jal rd imm).operands
  have himm := InsnFormat.readsImm_word (.j Opcode.JAL) (Insn.jal rd imm).operands hlegal
  refine ⟨_, callbackJAL_run hrd (eq_ofInt_of_toInt himm), ?_, ?_⟩
  · change _ = some { (m.sim.setXReg (regIndex rd) (m.sim.ip + kStepSize)).toSpec with
      pc := m.sim.ip + BitVec.ofInt 32 imm }
    rw [RVSim.toSpec_setXReg]
    rfl
  · exact (RVSim.OthersKept.refl.setXReg _ _).setIp _

theorem refines_jalr {rd rs1 : BitVec 5} {imm : Int} (hlegal : (Insn.jalr rd rs1 imm).Legal) :
    Refines env m (.jalr rd rs1 imm) := by
  obtain ⟨hrd, hrs1⟩ :=
    InsnFormat.readsFields_word (.i 0b000 Opcode.JALR) (Insn.jalr rd rs1 imm).operands
  have himm :=
    InsnFormat.readsImm_word (.i 0b000 Opcode.JALR) (Insn.jalr rd rs1 imm).operands hlegal
  refine ⟨_, callbackJALR_run hrd hrs1 (eq_ofInt_of_toInt himm), ?_, ?_⟩
  · rw [RVSim.toSpec_setXReg, RVSim.toSpec_setIp]
    rfl
  · exact (RVSim.OthersKept.refl.setIp _).setXReg _ _

theorem branch_run {op : BranchOp} {rs1 rs2 : BitVec 5} {imm : Int}
    (hlegal : (Insn.branch op rs1 rs2 imm).Legal) :
    (getInsnCallback env (Insn.branch op rs1 rs2 imm).mnem
        (Insn.branch op rs1 rs2 imm).word).run m =
      .ok () (m.mapSim fun sim =>
        if op.taken (m.sim.getXReg (regIndex rs1)) (m.sim.getXReg (regIndex rs2)) then
          { sim with ip := m.sim.ip + BitVec.ofInt 32 imm }
        else sim.step) := by
  have hreads := InsnFormat.readsFields_word (Insn.branch op rs1 rs2 imm).mnem.format
    (Insn.branch op rs1 rs2 imm).operands
  have himm := InsnFormat.readsImm_word _ _ hlegal
  -- the predicates of the source and of the specification are compared one by one
  cases op with
  | BEQ =>
      rw [← beq_eq_taken]
      exact executeBranch_run hreads.1 hreads.2 (eq_ofInt_of_toInt himm)
  | BNE =>
      rw [← bne_eq_taken]
      exact executeBranch_run hreads.1 hreads.2 (eq_ofInt_of_toInt himm)
  | BLT => exact executeBranch_run hreads.1 hreads.2 (eq_ofInt_of_toInt himm)
  | BGE => exact executeBranch_run hreads.1 hreads.2 (eq_ofInt_of_toInt himm)
  | BLTU => exact executeBranch_run hreads.1 hreads.2 (eq_ofInt_of_toInt himm)
  | BGEU => exact executeBranch_run hreads.1 hreads.2 (eq_ofInt_of_toInt himm)

theorem refines_branch {op : BranchOp} {rs1 rs2 : BitVec 5} {imm : Int}
    (hlegal : (Insn.branch op rs1 rs2 imm).Legal) : Refines env m (.branch op rs1 rs2 imm) := by
  refine ⟨_, branch_run hlegal, ?_, ?_⟩
  · change (if op.taken (m.sim.getXReg (regIndex rs1)) (m.sim.getXReg (regIndex rs2)) then _
      else _) = _
    split
    · rfl
    · rfl
  · split
    · exact RVSim.OthersKept.refl.setIp _
    · exact RVSim.OthersKept.refl.setIp _

theorem refines_opImm {op : ImmOp} {rd rs1 : BitVec 5} {imm : Int}
    (hlegal : (Insn.opImm op rd rs1 imm).Legal) : Refines env m (.opImm op rd rs1 imm) := by
  have hreads := InsnFormat.readsFields_word (Insn.opImm op rd rs1 imm).mnem.format
    (Insn.opImm op rd rs1 imm).operands
  have himm := InsnFormat.readsImm_word _ _ hlegal
  apply Refines.of_setXReg rd (op.alu.eval (m.sim.getXReg (regIndex rs1)) (BitVec.ofInt 32 imm))
  · cases op with
    | ADDI =>
        change (callbackADDI _).run m = _
        refine executeRRIBinOp_run hreads.1 hreads.2 (eq_ofInt_of_toInt himm) ?_
        exact congrArg Except.ok (add_eq_eval _ _)
    | SLTI => exact callbackSLTI_run hreads.1 hreads.2 (eq_ofInt_of_toInt himm)
    | SLTIU => exact callbackSLTIU_run hreads.1 hreads.2 (eq_ofInt_of_toInt himm)
    | XORI =>
        change (callbackXORI _).run m = _
        refine executeRRIBinOp_run hreads.1 hreads.2 (eq_ofInt_of_toInt himm) ?_
        rfl
    | ORI =>
        change (callbackORI _).run m = _
        refine executeRRIBinOp_run hreads.1 hreads.2 (eq_ofInt_of_toInt himm) ?_
        rfl
    | ANDI =>
        change (callbackANDI _).run m = _
        refine executeRRIBinOp_run hreads.1 hreads.2 (eq_ofInt_of_toInt himm) ?_
        rfl
  · rfl

theorem refines_shiftImm {op : ShiftOp} {rd rs1 shamt : BitVec 5} :
    Refines env m (.shiftImm op rd rs1 shamt) := by
  have hreads := InsnFormat.readsFields_word (Insn.shiftImm op rd rs1 shamt).mnem.format
    (Insn.shiftImm op rd rs1 shamt).operands
  have hamount : (shamt.setWidth 32).toNat = shamt.toNat := RvInsn.toNat_setWidth_reg shamt
  apply Refines.of_setXReg rd (op.eval (m.sim.getXReg (regIndex rs1)) shamt.toNat)
  · rw [← hamount]
    cases op with
    | SLLI =>
        change (callbackSLLI _).run m = _
        refine executeRRIShift_run hreads.1 hreads.2.1 hreads.2.2 ?_
        exact slli_eq_eval _ (hamount ▸ shamt.isLt)
    | SRLI =>
        change (callbackSRLI _).run m = _
        refine executeRRIShift_run hreads.1 hreads.2.1 hreads.2.2 ?_
        exact srli_eq_eval _ (hamount ▸ shamt.isLt)
    | SRAI =>
        change (callbackSRAI env _).run m = _
        refine executeRRIShift_run hreads.1 hreads.2.1 hreads.2.2 ?_
        exact srai_eq_eval _ env.build _
  · rfl

theorem refines_reg {op : AluOp} {rd rs1 rs2 : BitVec 5} :
    Refines env m (.reg op rd rs1 rs2) := by
  have hreads := InsnFormat.readsFields_word (Insn.reg op rd rs1 rs2).mnem.format
    (Insn.reg op rd rs1 rs2).operands
  apply Refines.of_setXReg rd (op.eval (m.sim.getXReg (regIndex rs1)) (m.sim.getXReg (regIndex rs2)))
  · cases op with
    | ADD =>
        change (callbackADD _).run m = _
        refine executeRRRBinOp_run hreads.1 hreads.2.1 hreads.2.2 ?_
        exact congrArg Except.ok (add_eq_eval _ _)
    | SUB =>
        change (callbackSUB _).run m = _
        refine executeRRRBinOp_run hreads.1 hreads.2.1 hreads.2.2 ?_
        exact congrArg Except.ok (sub_eq_eval _ _)
    | SLT => exact callbackSLT_run hreads.1 hreads.2.1 hreads.2.2
    | SLTU => exact callbackSLTU_run hreads.1 hreads.2.1 hreads.2.2
    | XOR =>
        change (callbackXOR _).run m = _
        refine executeRRRBinOp_run hreads.1 hreads.2.1 hreads.2.2 ?_
        rfl
    | SRA =>
        change (callbackSRA env _).run m = _
        refine executeRRRBinOp_run hreads.1 hreads.2.1 hreads.2.2 ?_
        exact sra_eq_eval _ _ env.build
    | OR =>
        change (callbackOR _).run m = _
        refine executeRRRBinOp_run hreads.1 hreads.2.1 hreads.2.2 ?_
        rfl
    | AND =>
        change (callbackAND _).run m = _
        refine executeRRRBinOp_run hreads.1 hreads.2.1 hreads.2.2 ?_
        rfl
  · rfl

/-- A callback that replaces the memory and goes on to the next instruction. -/
theorem Refines.of_setMem {insn : Insn} {memory : Memory} {mem : Store 32}
    (hrun : (getInsnCallback env insn.mnem insn.word).run m =
      .ok () (m.mapSim fun sim => { sim with memory }.step))
    (hmem : memory.byteAt = mem) (hlayout : memory.layout = m.sim.memory.layout)
    (hexec : insn.exec m.sim.toSpec = some { m.sim.toSpec with mem }.next) :
    Refines env m insn := by
  refine ⟨{ m.sim with memory }.step, hrun, ?_, ?_⟩
  · rw [hexec, RVSim.toSpec_step, RVSim.toSpec_setMem _ hmem]
  · exact (RVSim.OthersKept.setMem hlayout).setIp _

theorem refines_load {op : LoadOp} {rd rs1 : BitVec 5} {imm : Int}
    (hlegal : (Insn.load op rd rs1 imm).Legal) {pre post : List MemorySegm} {segm : MemorySegm}
    (win : Window m.sim.memory (m.sim.toSpec.reg rs1 + BitVec.ofInt 32 imm) op.bytes
      pre segm post) : Refines env m (.load op rd rs1 imm) := by
  have hreads := InsnFormat.readsFields_word (Insn.load op rd rs1 imm).mnem.format
    (Insn.load op rd rs1 imm).operands
  have himm := InsnFormat.readsImm_word _ _ hlegal
  obtain ⟨bytes, hread⟩ := win.exists_read op.bytes_pos
  apply Refines.of_setXReg rd (op.value bytes)
  · cases op with
    | LB =>
        refine callbackLB_run hreads.1 hreads.2 (eq_ofInt_of_toInt himm) ?_
        exact win.loadFrom_of_read env.build rfl (LoadOp.bytes_pos _) hread
    | LH =>
        refine callbackLH_run hreads.1 hreads.2 (eq_ofInt_of_toInt himm) ?_
        exact win.loadFrom_of_read env.build rfl (LoadOp.bytes_pos _) hread
    | LW =>
        refine callbackLW_run hreads.1 hreads.2 (eq_ofInt_of_toInt himm) ?_
        exact win.loadFrom_of_read env.build rfl (LoadOp.bytes_pos _) hread
    | LBU =>
        refine callbackLBU_run hreads.1 hreads.2 (eq_ofInt_of_toInt himm) ?_
        exact win.loadFrom_of_read env.build rfl (LoadOp.bytes_pos _) hread
    | LHU =>
        refine callbackLHU_run hreads.1 hreads.2 (eq_ofInt_of_toInt himm) ?_
        exact win.loadFrom_of_read env.build rfl (LoadOp.bytes_pos _) hread
  · change (read m.sim.memory.byteAt _ _).bind _ = _
    rw [hread]
    rfl

theorem refines_store {op : Rv32i.StoreOp} {rs1 rs2 : BitVec 5} {imm : Int}
    (hlegal : (Insn.store op rs1 rs2 imm).Legal) {pre post : List MemorySegm}
    {segm : MemorySegm}
    (win : Window m.sim.memory (m.sim.toSpec.reg rs1 + BitVec.ofInt 32 imm) op.bytes
      pre segm post) : Refines env m (.store op rs1 rs2 imm) := by
  have hreads := InsnFormat.readsFields_word (Insn.store op rs1 rs2 imm).mnem.format
    (Insn.store op rs1 rs2 imm).operands
  have himm := InsnFormat.readsImm_word _ _ hlegal
  obtain ⟨bytes, hread⟩ := win.exists_read op.bytes_pos
  have hexec : (Insn.store op rs1 rs2 imm).exec m.sim.toSpec =
      some { m.sim.toSpec with
        mem := write m.sim.toSpec.mem (m.sim.toSpec.reg rs1 + BitVec.ofInt 32 imm)
          (toBytes op.bytes (m.sim.toSpec.reg rs2)) }.next := by
    change (read m.sim.memory.byteAt _ _).bind _ = _
    rw [hread]
    rfl
  cases op with
  | SB =>
      obtain ⟨segms, hstore, hmem, hlayout⟩ :=
        Window.store (w := 8) win env.build (truncHigh 8 (m.sim.toSpec.reg rs2)) (by decide)
      rw [truncHigh_eq, toBytes_setWidth _ (by decide)] at hmem
      refine .of_setMem (callbackSB_run hreads.1 hreads.2 (eq_ofInt_of_toInt himm) ?_) hmem
        hlayout hexec
      exact congrArg (Memory.mk <$> ·) hstore
  | SH =>
      obtain ⟨segms, hstore, hmem, hlayout⟩ :=
        Window.store (w := 16) win env.build (truncHigh 16 (m.sim.toSpec.reg rs2)) (by decide)
      rw [truncHigh_eq, toBytes_setWidth _ (by decide)] at hmem
      refine .of_setMem (callbackSH_run hreads.1 hreads.2 (eq_ofInt_of_toInt himm) ?_) hmem
        hlayout hexec
      exact congrArg (Memory.mk <$> ·) hstore
  | SW =>
      obtain ⟨segms, hstore, hmem, hlayout⟩ :=
        Window.store (w := 32) win env.build (m.sim.toSpec.reg rs2) (by decide)
      refine .of_setMem (callbackSW_run hreads.1 hreads.2 (eq_ofInt_of_toInt himm) ?_) hmem
        hlayout hexec
      exact congrArg (Memory.mk <$> ·) hstore

end Callbacks

/-- The word of a base integer instruction, fetched from inside a segment, is
run by its callback. -/
theorem executeInsn_run_word (env : Env H) {m : Machine H} {insn : Rv32i.Insn}
    (hsized : m.sim.memory.Sized) (hdisjoint : m.sim.memory.Disjoint)
    (hinside : m.sim.memory.Inside m.sim.ip 4)
    (hword : read m.sim.memory.byteAt m.sim.ip 4 = some (toBytes 4 insn.word)) :
    (executeInsn env).run m = (getInsnCallback env insn.mnem insn.word).run m := by
  obtain ⟨pre, segm, post, win⟩ := window_of_inside hsized hdisjoint hinside
  have hfetch : m.sim.memory.fetch env.build m.sim.ip = .ok insn.word := by
    have hload := win.loadFrom_of_read env.build (w := 32) rfl (by decide) hword
    rwa [toWord_toBytes _ (by decide)] at hload
  exact executeInsn_run env hfetch (decode_encode insn.mnem insn.operands)

/-- One iteration of the interpreter loop is the specified step. -/
theorem executeInsn_refines (env : Env H) (m : Machine H) (insn : Rv32i.Insn)
    (hlegal : insn.Legal) (hsized : m.sim.memory.Sized) (hdisjoint : m.sim.memory.Disjoint)
    (hinside : m.sim.memory.Inside m.sim.ip 4)
    (hword : read m.sim.memory.byteAt m.sim.ip 4 = some (toBytes 4 insn.word))
    (haccess : ∀ access ∈ insn.access? m.sim.toSpec,
      m.sim.memory.Inside access.1 access.2) :
    ∃ sim', (executeInsn env).run m = .ok () { m with sim := sim' } ∧
      insn.exec m.sim.toSpec = some sim'.toSpec ∧ m.sim.OthersKept sim' := by
  rw [executeInsn_run_word env hsized hdisjoint hinside hword]
  have hwindow (addr : Address) (n : Nat) (hin : m.sim.memory.Inside addr n) :=
    window_of_inside hsized hdisjoint hin
  cases insn with
  | lui rd imm => exact refines_lui hlegal
  | auipc rd imm => exact refines_auipc hlegal
  | jal rd imm => exact refines_jal hlegal
  | jalr rd rs1 imm => exact refines_jalr hlegal
  | branch op rs1 rs2 imm => exact refines_branch hlegal
  | load op rd rs1 imm =>
      obtain ⟨pre, segm, post, win⟩ := hwindow _ _ (haccess _ rfl)
      exact refines_load hlegal win
  | store op rs1 rs2 imm =>
      obtain ⟨pre, segm, post, win⟩ := hwindow _ _ (haccess _ rfl)
      exact refines_store hlegal win
  | opImm op rd rs1 imm => exact refines_opImm hlegal
  | shiftImm op rd rs1 shamt => exact refines_shiftImm
  | reg op rd rs1 rs2 => exact refines_reg

/-- `sh x2, -2(x1)`. -/
def storeBelow : Rv32i.Insn := .store .SH 1 2 (-2)

/-- About to store a half word to the end of a data segment of four bytes. -/
def storingMachine : Machine (List MemByte) where
  sim :=
    { memory := ⟨[⟨0x1000, 0x1004, toBytes 4 storeBelow.word, true, false, true⟩,
        ⟨0x2000, 0x2004, [1, 2, 3, 4], true, true, false⟩]⟩
      ip := 0x1000
      shouldStop := false
      xregs := Vector.ofFn fun i => if i.val = 1 then 0x2004 else if i.val = 2 then 0xabcd else 0
      fregs := Vector.replicate 32 0
      fcsr := 0 }
  softfloat := ⟨0, 0⟩
  host := []

theorem executeInsn_refines_storeBelow :
    ∃ sim', (executeInsn queueEnv).run storingMachine =
        .ok () { storingMachine with sim := sim' } ∧
      storeBelow.exec storingMachine.sim.toSpec = some sim'.toSpec ∧
      storingMachine.sim.OthersKept sim' := by
  have hlegal : storeBelow.Legal := ⟨by decide, by decide⟩
  have hsized : storingMachine.sim.memory.Sized := by
    unfold Memory.Sized MemorySegm.Sized
    decide
  have hdisjoint : storingMachine.sim.memory.Disjoint := Memory.disjoint_pair (by decide)
  have hinside : storingMachine.sim.memory.Inside storingMachine.sim.ip 4 :=
    ⟨_, List.mem_cons_self, by decide, by decide⟩
  have hdata : storingMachine.sim.memory.Inside 0x2002 2 :=
    ⟨_, List.mem_cons_of_mem _ List.mem_cons_self, by decide, by decide⟩
  refine executeInsn_refines queueEnv storingMachine storeBelow hlegal hsized hdisjoint hinside
    (by decide) ?_
  intro access haccess
  obtain rfl : (0x2002, 2) = access := Option.some.inj haccess
  exact hdata

end RiscvSim
