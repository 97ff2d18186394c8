import RiscvSim.Isa.ExtI
import RiscvSim.Isa.ExtM
import RiscvSim.Isa.ExtZbb
import RiscvSim.Isa.ExtZicsr
import RiscvSim.Isa.ExtF
import RiscvSim.Isa.Mnemonics

/-!
The dispatch table and the interpreter loop. The loop is given by its body,
which handles one instruction, and by a run of at most `fuel` bodies.
-/

namespace RiscvSim

open SimM

variable {H : Type}

abbrev InsnCallback (H : Type) := UndecodedInsn → SimM H Unit

def getInsnCallback (env : Env H) : InsnMnemonic → InsnCallback H
  | .LUI => callbackLUI
  | .AUIPC => callbackAUIPC
  | .JAL => callbackJAL
  | .JALR => callbackJALR
  | .BEQ => callbackBEQ
  | .BNE => callbackBNE
  | .BLT => callbackBLT
  | .BGE => callbackBGE
  | .BLTU => callbackBLTU
  | .BGEU => callbackBGEU
  | .LB => callbackLB env
  | .LH => callbackLH env
  | .LW => callbackLW env
  | .LBU => callbackLBU env
  | .LHU => callbackLHU env
  | .SB => callbackSB env
  | .SH => callbackSH env
  | .SW => callbackSW env
  | .ADDI => callbackADDI
  | .SLTI => callbackSLTI
  | .SLTIU => callbackSLTIU
  | .XORI => callbackXORI
  | .ORI => callbackORI
  | .ANDI => callbackANDI
  | .SLLI => callbackSLLI
  | .SRLI => callbackSRLI
  | .SRAI => callbackSRAI env
  | .ADD => callbackADD
  | .SUB => callbackSUB
  | .SLL => callbackSLL
  | .SLT => callbackSLT
  | .SLTU => callbackSLTU
  | .XOR => callbackXOR
  | .SRL => callbackSRL
  | .SRA => callbackSRA env
  | .OR => callbackOR
  | .AND => callbackAND
  | .FENCE => callbackFENCE
  | .FENCE_I => callbackFENCE_I
  | .ECALL => callbackECALL env
  | .EBREAK => callbackEBREAK
  | .MUL => callbackMUL
  | .MULH => callbackMULH
  | .MULHSU => callbackMULHSU
  | .MULHU => callbackMULHU
  | .DIV => callbackDIV
  | .DIVU => callbackDIVU
  | .REM => callbackREM
  | .REMU => callbackREMU
  | .ANDN => callbackANDN
  | .ORN => callbackORN
  | .XNOR => callbackXNOR
  | .MIN => callbackMIN
  | .MINU => callbackMINU
  | .MAX => callbackMAX
  | .MAXU => callbackMAXU
  | .SEXT_B => callbackSEXT_B
  | .SEXT_H => callbackSEXT_H
  | .ZEXT_H => callbackZEXT_H
  | .CLZ => callbackCLZ env
  | .CTZ => callbackCTZ env
  | .CPOP => callbackCPOP env
  | .ROL => callbackROL
  | .ROR => callbackROR
  | .RORI => callbackRORI
  | .REV8 => callbackREV8 env
  | .ORC_B => callbackORC_B env
  | .CSRRW => callbackCSRRW env
  | .CSRRS => callbackCSRRS env
  | .CSRRC => callbackCSRRC env
  | .CSRRWI => callbackCSRRWI env
  | .CSRRSI => callbackCSRRSI env
  | .CSRRCI => callbackCSRRCI env
  | .FLW => callbackFLW env
  | .FSW => callbackFSW env
  | .FADD_S => callbackFADD_S env
  | .FSUB_S => callbackFSUB_S env
  | .FMUL_S => callbackFMUL_S env
  | .FDIV_S => callbackFDIV_S env
  | .FSQRT_S => callbackFSQRT_S env
  | .FMADD_S => callbackFMADD_S env
  | .FMSUB_S => callbackFMSUB_S env
  | .FNMSUB_S => callbackFNMSUB_S env
  | .FNMADD_S => callbackFNMADD_S env
  | .FSGNJ_S => callbackFSGNJ_S
  | .FSGNJN_S => callbackFSGNJN_S
  | .FSGNJX_S => callbackFSGNJX_S
  | .FMIN_S => callbackFMIN_S env
  | .FMAX_S => callbackFMAX_S env
  | .FLE_S => callbackFLE_S env
  | .FLT_S => callbackFLT_S env
  | .FEQ_S => callbackFEQ_S env
  | .FCVT_W_S => callbackFCVT_W_S env
  | .FCVT_WU_S => callbackFCVT_WU_S env
  | .FCVT_S_W => callbackFCVT_S_W env
  | .FCVT_S_WU => callbackFCVT_S_WU env
  | .FMV_X_W => callbackFMV_X_W
  | .FCLASS_S => callbackFCLASS_S env
  | .FMV_W_X => callbackFMV_W_X

/-- One iteration of the loop of `RVSim::Execute`. -/
def executeInsn (env : Env H) : SimM H Unit := do
  let undecodedInsn ← (← getMem).fetch env.build (← getIp)
  match decode undecodedInsn with
  | none => throw (.exception "Unkown instuction encountered")
  | some mnem => getInsnCallback env mnem undecodedInsn

/-- A word of the table runs its callback; the fetch changes nothing. -/
theorem executeInsn_run (env : Env H) {m : Machine H} {word : UndecodedInsn}
    {mnem : InsnMnemonic} (hfetch : m.sim.memory.fetch env.build m.sim.ip = .ok word)
    (hdecode : decode word = some mnem) :
    (executeInsn env).run m = (getInsnCallback env mnem word).run m := by
  simp [executeInsn, hfetch, hdecode]

/-- A word without an entry ends the run. -/
theorem executeInsn_unknown (env : Env H) {m : Machine H} {word : UndecodedInsn}
    (hfetch : m.sim.memory.fetch env.build m.sim.ip = .ok word)
    (hdecode : decode word = none) :
    (executeInsn env).run m = .error (.exception "Unkown instuction encountered") m := by
  simp only [executeInsn, EStateM.run_bind, run_getMem, run_getIp, hfetch, run_lift_ok, hdecode]
  rfl

/-- `RVSim::Execute` cut off after `fuel` iterations; `none` when it is still
running then. -/
def execute (env : Env H) : Nat → SimM H (Option IRegister)
  | 0 => do
      if (← getSim).shouldStop then return some (← getXReg XRegAlias.a0) else return none
  | fuel + 1 => do
      if (← getSim).shouldStop then return some (← getXReg XRegAlias.a0)
      else do
        executeInsn env
        execute env fuel

end RiscvSim
