import RiscvSim.Isa.Insn
import RiscvSim.Sim.RVSim

/-!
The callbacks of the CSR extension. Each reads the old value first; the
immediate forms take the field of the first source register as their operand.
-/

namespace RiscvSim

open SimM

variable {H : Type}

def callbackCSRRW (env : Env H) (rawInsn : UndecodedInsn) : SimM H Unit := do
  let insn : RvInsn := ⟨rawInsn⟩
  let csrIdx := insn.immCSR
  let tmp ← getCSR env.build csrIdx
  setCSR env.build csrIdx (← getXReg insn.rs1Index)
  setXReg insn.rdIndex tmp
  step

def callbackCSRRS (env : Env H) (rawInsn : UndecodedInsn) : SimM H Unit := do
  let insn : RvInsn := ⟨rawInsn⟩
  let csrIdx := insn.immCSR
  let tmp ← getCSR env.build csrIdx
  setCSR env.build csrIdx (tmp ||| (← getXReg insn.rs1Index))
  setXReg insn.rdIndex tmp
  step

def callbackCSRRC (env : Env H) (rawInsn : UndecodedInsn) : SimM H Unit := do
  let insn : RvInsn := ⟨rawInsn⟩
  let csrIdx := insn.immCSR
  let tmp ← getCSR env.build csrIdx
  setCSR env.build csrIdx (tmp &&& ~~~(← getXReg insn.rs1Index))
  setXReg insn.rdIndex tmp
  step

def callbackCSRRWI (env : Env H) (rawInsn : UndecodedInsn) : SimM H Unit := do
  let insn : RvInsn := ⟨rawInsn⟩
  let csrIdx := insn.immCSR
  let tmp ← getCSR env.build csrIdx
  let uimm := insn.rs1
  setCSR env.build csrIdx uimm
  setXReg insn.rdIndex tmp
  step

def callbackCSRRSI (env : Env H) (rawInsn : UndecodedInsn) : SimM H Unit := do
  let insn : RvInsn := ⟨rawInsn⟩
  let csrIdx := insn.immCSR
  let tmp ← getCSR env.build csrIdx
  let uimm := insn.rs1
  setCSR env.build csrIdx (tmp ||| uimm)
  setXReg insn.rdIndex tmp
  step

def callbackCSRRCI (env : Env H) (rawInsn : UndecodedInsn) : SimM H Unit := do
  let insn : RvInsn := ⟨rawInsn⟩
  let csrIdx := insn.immCSR
  let tmp ← getCSR env.build csrIdx
  let uimm := insn.rs1
  setCSR env.build csrIdx (tmp &&& ~~~uimm)
  setXReg insn.rdIndex tmp
  step

end RiscvSim
