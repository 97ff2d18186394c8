import RiscvSim.Isa.Helpers
import RiscvSim.Isa.Insn
import RiscvSim.Isa.Syscall

/-!
The callbacks of the base integer instructions. An operation of two registers,
of a register and an immediate, and a branch each have one template; the
operation itself may fault, because a host shift can be out of range.
-/

namespace RiscvSim

open SimM

variable {H : Type}

def arithmRightShift (build : Build) (x : BitVec 32) (shift : Nat) :
    Except Fault (BitVec 32) := do
  let numBits := 32
  let signBit := numBits - 1
  let allOnes : BitVec 32 := BitVec.allOnes 32
  if shift = 0 then
    return x
  if shift ≥ numBits then
    return if ← isBitSet build x signBit then allOnes else 0
  let logical ← shiftRight x shift
  if !(← isBitSet build x signBit) then
    return logical
  let fillMask ← shiftLeft allOnes (numBits - shift)
  return logical ||| fillMask

def executeRRRBinOp (rawInsn : UndecodedInsn)
    (binOp : Register → Register → Except Fault Register) : SimM H Unit := do
  let insn : RvInsn := ⟨rawInsn⟩
  let value ← binOp (← getXReg insn.rs1Index) (← getXReg insn.rs2Index)
  setXReg insn.rdIndex value
  step

def executeRRIBinOp (rawInsn : UndecodedInsn)
    (binOp : Register → Register → Except Fault Register) : SimM H Unit := do
  let insn : RvInsn := ⟨rawInsn⟩
  let value ← binOp (← getXReg insn.rs1Index) insn.immI
  setXReg insn.rdIndex value
  step

def executeRRIShift (rawInsn : UndecodedInsn)
    (binOp : Register → Register → Except Fault Register) : SimM H Unit := do
  let insn : RvInsn := ⟨rawInsn⟩
  let value ← binOp (← getXReg insn.rs1Index) insn.shamt
  setXReg insn.rdIndex value
  step

def executeBranch (rawInsn : UndecodedInsn) (pred : Register → Register → Bool) :
    SimM H Unit := do
  let insn : RvInsn := ⟨rawInsn⟩
  let shouldBranch := pred (← getXReg insn.rs1Index) (← getXReg insn.rs2Index)
  if shouldBranch then
    setIp ((← getIp) + insn.immB)
  else
    step

def callbackLUI (rawInsn : UndecodedInsn) : SimM H Unit := do
  let insn : RvInsn := ⟨rawInsn⟩
  setXReg insn.rdIndex insn.immU
  step

def callbackAUIPC (rawInsn : UndecodedInsn) : SimM H Unit := do
  let insn : RvInsn := ⟨rawInsn⟩
  setXReg insn.rdIndex ((← getIp) + insn.immU)
  step

def callbackJAL (rawInsn : UndecodedInsn) : SimM H Unit := do
  let insn : RvInsn := ⟨rawInsn⟩
  setXReg insn.rdIndex ((← getIp) + kStepSize)
  setIp ((← getIp) + insn.immJ)

def callbackJALR (rawInsn : UndecodedInsn) : SimM H Unit := do
  let insn : RvInsn := ⟨rawInsn⟩
  let holdPc := (← getIp) + kStepSize
  setIp (((← getXReg insn.rs1Index) + insn.immI) &&& ~~~1)
  setXReg insn.rdIndex holdPc

def callbackBEQ (rawInsn : UndecodedInsn) : SimM H Unit :=
  executeBranch rawInsn fun a b => a == b

def callbackBNE (rawInsn : UndecodedInsn) : SimM H Unit :=
  executeBranch rawInsn fun a b => a != b

def callbackBLT (rawInsn : UndecodedInsn) : SimM H Unit :=
  executeBranch rawInsn fun a b => (regToIReg a).slt (regToIReg b)

def callbackBGE (rawInsn : UndecodedInsn) : SimM H Unit :=
  executeBranch rawInsn fun a b => (regToIReg b).sle (regToIReg a)

def callbackBLTU (rawInsn : UndecodedInsn) : SimM H Unit :=
  executeBranch rawInsn fun a b => a < b

def callbackBGEU (rawInsn : UndecodedInsn) : SimM H Unit :=
  executeBranch rawInsn fun a b => a ≥ b

def callbackLB (env : Env H) (rawInsn : UndecodedInsn) : SimM H Unit := do
  let insn : RvInsn := ⟨rawInsn⟩
  let addr := (← getXReg insn.rs1Index) + insn.immI
  let memVal ← (← getMem).loadU8 env.build addr
  setXReg insn.rdIndex (signExt 32 memVal)
  step

def callbackLH (env : Env H) (rawInsn : UndecodedInsn) : SimM H Unit := do
  let insn : RvInsn := ⟨rawInsn⟩
  let addr := (← getXReg insn.rs1Index) + insn.immI
  let memVal ← (← getMem).loadU16 env.build addr
  setXReg insn.rdIndex (signExt 32 memVal)
  step

def callbackLW (env : Env H) (rawInsn : UndecodedInsn) : SimM H Unit := do
  let insn : RvInsn := ⟨rawInsn⟩
  let addr := (← getXReg insn.rs1Index) + insn.immI
  let memVal ← (← getMem).loadU32 env.build addr
  setXReg insn.rdIndex memVal
  step

def callbackLBU (env : Env H) (rawInsn : UndecodedInsn) : SimM H Unit := do
  let insn : RvInsn := ⟨rawInsn⟩
  let addr := (← getXReg insn.rs1Index) + insn.immI
  let memVal ← (← getMem).loadU8 env.build addr
  setXReg insn.rdIndex (memVal.setWidth 32)
  step

def callbackLHU (env : Env H) (rawInsn : UndecodedInsn) : SimM H Unit := do
  let insn : RvInsn := ⟨rawInsn⟩
  let addr := (← getXReg insn.rs1Index) + insn.immI
  let memVal ← (← getMem).loadU16 env.build addr
  setXReg insn.rdIndex (memVal.setWidth 32)
  step

def callbackSB (env : Env H) (rawInsn : UndecodedInsn) : SimM H Unit := do
  let insn : RvInsn := ⟨rawInsn⟩
  let addr := (← getXReg insn.rs1Index) + insn.immS
  let val := truncHigh 8 (← getXReg insn.rs2Index)
  setMem (← (← getMem).storeU8 env.build addr val)
  step

def callbackSH (env : Env H) (rawInsn : UndecodedInsn) : SimM H Unit := do
  let insn : RvInsn := ⟨rawInsn⟩
  let addr := (← getXReg insn.rs1Index) + insn.immS
  let val := truncHigh 16 (← getXReg insn.rs2Index)
  setMem (← (← getMem).storeU16 env.build addr val)
  step

def callbackSW (env : Env H) (rawInsn : UndecodedInsn) : SimM H Unit := do
  let insn : RvInsn := ⟨rawInsn⟩
  let addr := (← getXReg insn.rs1Index) + insn.immS
  let val ← getXReg insn.rs2Index
  setMem (← (← getMem).storeU32 env.build addr val)
  step

def callbackADDI (rawInsn : UndecodedInsn) : SimM H Unit :=
  executeRRIBinOp rawInsn fun a b => .ok (a + b)

def callbackSLTI (rawInsn : UndecodedInsn) : SimM H Unit := do
  let insn : RvInsn := ⟨rawInsn⟩
  let irs1 := regToIReg (← getXReg insn.rs1Index)
  let imm := insn.immI
  let isLessThen := irs1.slt imm
  setXReg insn.rdIndex (if isLessThen then 1 else 0)
  step

def callbackSLTIU (rawInsn : UndecodedInsn) : SimM H Unit := do
  let insn : RvInsn := ⟨rawInsn⟩
  let isLessThen := (← getXReg insn.rs1Index) < iRegToReg insn.immI
  setXReg insn.rdIndex (if isLessThen then 1 else 0)
  step

def callbackXORI (rawInsn : UndecodedInsn) : SimM H Unit :=
  executeRRIBinOp rawInsn fun a b => .ok (a ^^^ b)

def callbackORI (rawInsn : UndecodedInsn) : SimM H Unit :=
  executeRRIBinOp rawInsn fun a b => .ok (a ||| b)

def callbackANDI (rawInsn : UndecodedInsn) : SimM H Unit :=
  executeRRIBinOp rawInsn fun a b => .ok (a &&& b)

def callbackSLLI (rawInsn : UndecodedInsn) : SimM H Unit :=
  executeRRIShift rawInsn fun a b => shiftLeft a b.toNat

def callbackSRLI (rawInsn : UndecodedInsn) : SimM H Unit :=
  executeRRIShift rawInsn fun a b => shiftRight a b.toNat

def callbackSRAI (env : Env H) (rawInsn : UndecodedInsn) : SimM H Unit :=
  executeRRIShift rawInsn fun a b => arithmRightShift env.build a b.toNat

def callbackADD (rawInsn : UndecodedInsn) : SimM H Unit :=
  executeRRRBinOp rawInsn fun a b => .ok (a + b)

def callbackSUB (rawInsn : UndecodedInsn) : SimM H Unit :=
  executeRRRBinOp rawInsn fun a b => .ok (a - b)

def callbackSLL (rawInsn : UndecodedInsn) : SimM H Unit :=
  executeRRRBinOp rawInsn fun a b => shiftLeft a b.toNat

def callbackSLT (rawInsn : UndecodedInsn) : SimM H Unit := do
  let insn : RvInsn := ⟨rawInsn⟩
  let irs1 := regToIReg (← getXReg insn.rs1Index)
  let irs2 := regToIReg (← getXReg insn.rs2Index)
  let isLessThen := irs1.slt irs2
  setXReg insn.rdIndex (if isLessThen then 1 else 0)
  step

def callbackSLTU (rawInsn : UndecodedInsn) : SimM H Unit := do
  let insn : RvInsn := ⟨rawInsn⟩
  let isLessThen := (← getXReg insn.rs1Index) < (← getXReg insn.rs2Index)
  setXReg insn.rdIndex (if isLessThen then 1 else 0)
  step

def callbackXOR (rawInsn : UndecodedInsn) : SimM H Unit :=
  executeRRRBinOp rawInsn fun a b => .ok (a ^^^ b)

def callbackSRL (rawInsn : UndecodedInsn) : SimM H Unit :=
  executeRRRBinOp rawInsn fun a b => shiftRight a b.toNat

def callbackSRA (env : Env H) (rawInsn : UndecodedInsn) : SimM H Unit :=
  executeRRRBinOp rawInsn fun a b =>
    arithmRightShift env.build a (b &&& BitVec.ofNat 32 (kXlen - 1)).toNat

def callbackOR (rawInsn : UndecodedInsn) : SimM H Unit :=
  executeRRRBinOp rawInsn fun a b => .ok (a ||| b)

def callbackAND (rawInsn : UndecodedInsn) : SimM H Unit :=
  executeRRRBinOp rawInsn fun a b => .ok (a &&& b)

def callbackFENCE (_rawInsn : UndecodedInsn) : SimM H Unit :=
  step

def callbackFENCE_I (_rawInsn : UndecodedInsn) : SimM H Unit :=
  step

def callbackECALL (env : Env H) (_rawInsn : UndecodedInsn) : SimM H Unit := do
  syscallHandler env
  step

def callbackEBREAK (_rawInsn : UndecodedInsn) : SimM H Unit :=
  step

end RiscvSim
