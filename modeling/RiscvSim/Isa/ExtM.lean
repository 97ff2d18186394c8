import RiscvSim.Isa.Helpers
import RiscvSim.Isa.Insn
import RiscvSim.Sim.RVSim

/-!
The callbacks of the multiplication and division extension. The operands of a
high multiply are widened to 64 bits first; initialising a signed 64-bit
variable from a `uint32_t` register extends it by zeros.
-/

namespace RiscvSim

open SimM

variable {H : Type}

def callbackMUL (rawInsn : UndecodedInsn) : SimM H Unit := do
  let insn : RvInsn := ⟨rawInsn⟩
  let rs1 : WRegister := (← getXReg insn.rs1Index).setWidth 64
  let rs2 : WRegister := (← getXReg insn.rs2Index).setWidth 64
  let mul := rs1 * rs2
  setXReg insn.rdIndex (truncHigh 32 mul)
  step

def callbackMULH (rawInsn : UndecodedInsn) : SimM H Unit := do
  let insn : RvInsn := ⟨rawInsn⟩
  let rs1 : WIRegister := (← getXReg insn.rs1Index).setWidth 64
  let rs2 : WIRegister := (← getXReg insn.rs2Index).setWidth 64
  let mul ← mulWI rs1 rs2
  setXReg insn.rdIndex (truncLow 32 mul)
  step

def callbackMULHSU (rawInsn : UndecodedInsn) : SimM H Unit := do
  let insn : RvInsn := ⟨rawInsn⟩
  let rs1 : WIRegister := wRegToWIReg (signExt 64 (← getXReg insn.rs1Index))
  -- `RegToIReg` makes this an `int32_t`, so widening it copies the sign bit
  let rs2 : WIRegister := (regToIReg (← getXReg insn.rs2Index)).signExtend 64
  let mul ← mulWI rs1 rs2
  setXReg insn.rdIndex (truncLow 32 mul)
  step

def callbackMULHU (rawInsn : UndecodedInsn) : SimM H Unit := do
  let insn : RvInsn := ⟨rawInsn⟩
  let rs1 : WRegister := (← getXReg insn.rs1Index).setWidth 64
  let rs2 : WRegister := (← getXReg insn.rs2Index).setWidth 64
  let mul := rs1 * rs2
  setXReg insn.rdIndex (truncLow 32 mul)
  step

def callbackDIV (rawInsn : UndecodedInsn) : SimM H Unit := do
  let insn : RvInsn := ⟨rawInsn⟩
  let rs1 : IRegister := regToIReg (← getXReg insn.rs1Index)
  let rs2 : IRegister := regToIReg (← getXReg insn.rs2Index)
  let res : IRegister ←
    if rs2 = 0 then pure (-1)
    else if rs1 = BitVec.intMin 32 ∧ rs2 = -1 then pure (BitVec.intMin 32)
    else divI rs1 rs2
  setXReg insn.rdIndex res
  step

def callbackDIVU (rawInsn : UndecodedInsn) : SimM H Unit := do
  let insn : RvInsn := ⟨rawInsn⟩
  let rs1 : Register ← getXReg insn.rs1Index
  let rs2 : Register ← getXReg insn.rs2Index
  let res : Register ←
    if rs2 = 0 then pure (BitVec.allOnes 32)
    else divU rs1 rs2
  setXReg insn.rdIndex res
  step

def callbackREM (rawInsn : UndecodedInsn) : SimM H Unit := do
  let insn : RvInsn := ⟨rawInsn⟩
  let rs1 : IRegister := regToIReg (← getXReg insn.rs1Index)
  let rs2 : IRegister := regToIReg (← getXReg insn.rs2Index)
  let res : Register ←
    if rs2 = 0 then pure rs1
    else if rs1 = BitVec.intMin 32 ∧ rs2 = -1 then pure 0
    else modI rs1 rs2
  setXReg insn.rdIndex res
  step

def callbackREMU (rawInsn : UndecodedInsn) : SimM H Unit := do
  let insn : RvInsn := ⟨rawInsn⟩
  let rs1 : Register ← getXReg insn.rs1Index
  let rs2 : Register ← getXReg insn.rs2Index
  let res : Register ←
    if rs2 = 0 then pure rs1
    else modU rs1 rs2
  setXReg insn.rdIndex res
  step

end RiscvSim
