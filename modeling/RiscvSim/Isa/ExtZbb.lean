import RiscvSim.Isa.Helpers
import RiscvSim.Isa.Insn
import RiscvSim.Sim.RVSim

/-!
The callbacks of the basic bit-manipulation extension. The counting and byte
loops are folds over the indices in the order the source visits them.
-/

namespace RiscvSim

open SimM

variable {H : Type}

def callbackANDN (rawInsn : UndecodedInsn) : SimM H Unit := do
  let insn : RvInsn := ⟨rawInsn⟩
  let res := (← getXReg insn.rs1Index) &&& ~~~(← getXReg insn.rs2Index)
  setXReg insn.rdIndex res
  step

def callbackORN (rawInsn : UndecodedInsn) : SimM H Unit := do
  let insn : RvInsn := ⟨rawInsn⟩
  let res := (← getXReg insn.rs1Index) ||| ~~~(← getXReg insn.rs2Index)
  setXReg insn.rdIndex res
  step

def callbackXNOR (rawInsn : UndecodedInsn) : SimM H Unit := do
  let insn : RvInsn := ⟨rawInsn⟩
  let res := ~~~((← getXReg insn.rs1Index) ^^^ (← getXReg insn.rs2Index))
  setXReg insn.rdIndex res
  step

def callbackMIN (rawInsn : UndecodedInsn) : SimM H Unit := do
  let insn : RvInsn := ⟨rawInsn⟩
  let rs1 ← getXReg insn.rs1Index
  let rs2 ← getXReg insn.rs2Index
  let res := if (regToIReg rs1).slt (regToIReg rs2) then rs1 else rs2
  setXReg insn.rdIndex res
  step

def callbackMINU (rawInsn : UndecodedInsn) : SimM H Unit := do
  let insn : RvInsn := ⟨rawInsn⟩
  let rs1 ← getXReg insn.rs1Index
  let rs2 ← getXReg insn.rs2Index
  let res := if rs1 < rs2 then rs1 else rs2
  setXReg insn.rdIndex res
  step

def callbackMAX (rawInsn : UndecodedInsn) : SimM H Unit := do
  let insn : RvInsn := ⟨rawInsn⟩
  let rs1 ← getXReg insn.rs1Index
  let rs2 ← getXReg insn.rs2Index
  let res := if (regToIReg rs1).slt (regToIReg rs2) then rs2 else rs1
  setXReg insn.rdIndex res
  step

def callbackMAXU (rawInsn : UndecodedInsn) : SimM H Unit := do
  let insn : RvInsn := ⟨rawInsn⟩
  let rs1 ← getXReg insn.rs1Index
  let rs2 ← getXReg insn.rs2Index
  let res := if rs1 < rs2 then rs2 else rs1
  setXReg insn.rdIndex res
  step

def callbackSEXT_B (rawInsn : UndecodedInsn) : SimM H Unit := do
  let insn : RvInsn := ⟨rawInsn⟩
  let rs ← getXReg insn.rs1Index
  let res := signExt 32 (truncHigh 8 rs)
  setXReg insn.rdIndex res
  step

def callbackSEXT_H (rawInsn : UndecodedInsn) : SimM H Unit := do
  let insn : RvInsn := ⟨rawInsn⟩
  let rs ← getXReg insn.rs1Index
  let res := signExt 32 (truncHigh 16 rs)
  setXReg insn.rdIndex res
  step

def callbackZEXT_H (rawInsn : UndecodedInsn) : SimM H Unit := do
  let insn : RvInsn := ⟨rawInsn⟩
  let rs ← getXReg insn.rs1Index
  let res := (truncHigh 16 rs).setWidth 32
  setXReg insn.rdIndex res
  step

/-- The first index of the list whose bit is set. -/
def findSetBit (build : Build) (rs : Register) : List Nat → Except Fault (Option Nat)
  | [] => .ok none
  | i :: rest => do
      if ← isBitSet build rs i then return some i else findSetBit build rs rest

def callbackCLZ (env : Env H) (rawInsn : UndecodedInsn) : SimM H Unit := do
  let insn : RvInsn := ⟨rawInsn⟩
  let rs ← getXReg insn.rs1Index
  let found ← findSetBit env.build rs (List.range kXlen).reverse
  let highestSet : Int := found.elim (-1) fun i => i
  setXReg insn.rdIndex (BitVec.ofInt 32 ((kXlen - 1 : Nat) - highestSet))
  step

def callbackCTZ (env : Env H) (rawInsn : UndecodedInsn) : SimM H Unit := do
  let insn : RvInsn := ⟨rawInsn⟩
  let rs ← getXReg insn.rs1Index
  let found ← findSetBit env.build rs (List.range kXlen)
  let lowestSet := found.getD kXlen
  setXReg insn.rdIndex (BitVec.ofNat 32 lowestSet)
  step

def callbackCPOP (env : Env H) (rawInsn : UndecodedInsn) : SimM H Unit := do
  let insn : RvInsn := ⟨rawInsn⟩
  let rs ← getXReg insn.rs1Index
  let bcount ← (List.range kXlen).foldlM (fun (bcount : Nat) i => do
    return if ← isBitSet env.build rs i then bcount + 1 else bcount) (0 : Nat)
  setXReg insn.rdIndex (BitVec.ofNat 32 bcount)
  step

def callbackROL (rawInsn : UndecodedInsn) : SimM H Unit := do
  let insn : RvInsn := ⟨rawInsn⟩
  let shamt := ((← getXReg insn.rs2Index) &&& BitVec.ofNat 32 (kXlen - 1)).toNat
  let rs1 ← getXReg insn.rs1Index
  let left ← shiftLeft rs1 shamt
  let right ← shiftRight rs1 (kXlen - shamt)
  setXReg insn.rdIndex (left ||| right)
  step

def callbackROR (rawInsn : UndecodedInsn) : SimM H Unit := do
  let insn : RvInsn := ⟨rawInsn⟩
  let shamt := ((← getXReg insn.rs2Index) &&& BitVec.ofNat 32 (kXlen - 1)).toNat
  let rs1 ← getXReg insn.rs1Index
  let right ← shiftRight rs1 shamt
  let left ← shiftLeft rs1 (kXlen - shamt)
  setXReg insn.rdIndex (right ||| left)
  step

def callbackRORI (rawInsn : UndecodedInsn) : SimM H Unit := do
  let insn : RvInsn := ⟨rawInsn⟩
  let shamt := insn.shamt.toNat
  let rs1 ← getXReg insn.rs1Index
  let right ← shiftRight rs1 shamt
  let left ← shiftLeft rs1 (kXlen - shamt)
  setXReg insn.rdIndex (right ||| left)
  step

def callbackREV8 (env : Env H) (rawInsn : UndecodedInsn) : SimM H Unit := do
  let insn : RvInsn := ⟨rawInsn⟩
  let rs ← getXReg insn.rs1Index
  let val ← (List.range kXlenByte).foldlM (fun (val : Register) i => do
    setByte env.build val (← getByte env.build rs (kXlenByte - 1 - i)) i) (0 : Register)
  setXReg insn.rdIndex val
  step

def callbackORC_B (env : Env H) (rawInsn : UndecodedInsn) : SimM H Unit := do
  let insn : RvInsn := ⟨rawInsn⟩
  let rs ← getXReg insn.rs1Index
  let val ← (List.range kXlenByte).foldlM (fun (val : Register) i => do
    if (← getByte env.build rs i) = 0 then setByte env.build val 0 i
    else setByte env.build val (~~~0) i) (0 : Register)
  setXReg insn.rdIndex val
  step

end RiscvSim
