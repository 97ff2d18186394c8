import RiscvSim.Isa.Helpers
import RiscvSim.Isa.Insn
import RiscvSim.Sim.RVSim

/-!
The callbacks of the single-precision extension. The rounding mode and the
flag word are globals of the floating-point library: each callback that rounds
sets the first, each that raises flags clears the second before its operation
and merges it into `fcsr` afterwards, and which callback does which is the
source's choice, kept here as it is.
-/

namespace RiscvSim

open SimM

variable {H : Type}

/-- A library call: it runs under the current global rounding mode and adds the
exceptions it raises to the global flag word. -/
def callSoftFloat {α : Type} (op : BitVec 8 → α × BitVec 8) : SimM H α := do
  let (res, raised) := op (← get).softfloat.roundingMode
  modify fun m => { m with
    softfloat := { m.softfloat with
      exceptionFlags := m.softfloat.exceptionFlags ||| raised } }
  return res

def setRoundingMode (mode : BitVec 8) : SimM H (BitVec 8) := do
  modify fun m => { m with softfloat := { m.softfloat with roundingMode := mode } }
  return mode

def softFloatSetRM (build : Build) (rm : RoundingMode) : SimM H (BitVec 8) := do
  match rm with
  | .RNE => setRoundingMode softfloat_round_near_even
  | .RTZ => setRoundingMode softfloat_round_minMag
  | .RDN => setRoundingMode softfloat_round_min
  | .RUP => setRoundingMode softfloat_round_max
  | .RMM => setRoundingMode softfloat_round_near_maxMag
  | .DYN =>
      build.assert false "what?"
      return 0
  | .unnamed _ => return 0

def softFloatClearFExcp : SimM H Unit :=
  modify fun m => { m with softfloat := { m.softfloat with exceptionFlags := 0 } }

def softFloatSetFExcp (build : Build) : SimM H Unit := do
  let excpFlags : Register := (← get).softfloat.exceptionFlags.setWidth 32 &&& 0x1f
  if excpFlags = 0 then
    return
  let simFlags ← getCSR build CSR.fflags.fromEnum
  setCSR build CSR.fflags.fromEnum (simFlags ||| excpFlags)

def f32_min (env : Env H) (a b : FRegister) : SimM H FRegister := do
  return if ← callSoftFloat fun _ => env.softfloat.f32_le a b then a else b

def f32_max (env : Env H) (a b : FRegister) : SimM H FRegister := do
  return if ← callSoftFloat fun _ => env.softfloat.f32_le a b then b else a

def f32_neg (val : FRegister) : FRegister :=
  let signBit := (1 : FRegister) <<< 31
  ((val ^^^ signBit) &&& signBit) ||| (val &&& ~~~signBit)

/-- The selected mode of a rounding instruction becomes the global one. -/
def selectRM (env : Env H) (insn : RvInsn) : SimM H (BitVec 8) := do
  softFloatSetRM env.build (← (← getSim).getRM env.build insn.rm)

def executeRRRFBinOp (env : Env H) (rawInsn : UndecodedInsn)
    (fbinOp : FRegister → FRegister → SimM H FRegister) : SimM H Unit := do
  softFloatClearFExcp
  let insn : RvInsn := ⟨rawInsn⟩
  let _ ← selectRM env insn
  let res ← fbinOp (← getFReg insn.rs1Index) (← getFReg insn.rs2Index)
  setFReg insn.rdIndex res
  softFloatSetFExcp env.build
  step

def executeRRRRFTernOp (env : Env H) (rawInsn : UndecodedInsn)
    (fternOp : FRegister → FRegister → FRegister → SimM H FRegister) : SimM H Unit := do
  softFloatClearFExcp
  let insn : RvInsn := ⟨rawInsn⟩
  let _ ← selectRM env insn
  let res ← fternOp (← getFReg insn.rs1Index) (← getFReg insn.rs2Index)
    (← getFReg insn.rs3Index)
  setFReg insn.rdIndex res
  softFloatSetFExcp env.build
  step

def executeRRRCmpOp (env : Env H) (rawInsn : UndecodedInsn)
    (fcmpOp : FRegister → FRegister → SimM H Bool) : SimM H Unit := do
  softFloatClearFExcp
  let insn : RvInsn := ⟨rawInsn⟩
  let cmp ← fcmpOp (← getFReg insn.rs1Index) (← getFReg insn.rs2Index)
  setXReg insn.rdIndex (if cmp then 1 else 0)
  softFloatSetFExcp env.build
  step

def callbackFLW (env : Env H) (rawInsn : UndecodedInsn) : SimM H Unit := do
  let insn : RvInsn := ⟨rawInsn⟩
  let addr := (← getXReg insn.rs1Index) + insn.immI
  setFReg insn.rdIndex (regToFReg (← (← getMem).loadU32 env.build addr))
  step

def callbackFSW (env : Env H) (rawInsn : UndecodedInsn) : SimM H Unit := do
  let insn : RvInsn := ⟨rawInsn⟩
  let addr := (← getXReg insn.rs1Index) + insn.immS
  let memVal := fRegToReg (← getFReg insn.rs2Index)
  setMem (← (← getMem).storeU32 env.build addr memVal)
  step

def callbackFADD_S (env : Env H) (rawInsn : UndecodedInsn) : SimM H Unit :=
  executeRRRFBinOp env rawInsn fun rs1 rs2 =>
    callSoftFloat fun mode => env.softfloat.f32_add mode rs1 rs2

def callbackFSUB_S (env : Env H) (rawInsn : UndecodedInsn) : SimM H Unit :=
  executeRRRFBinOp env rawInsn fun rs1 rs2 =>
    callSoftFloat fun mode => env.softfloat.f32_sub mode rs1 rs2

def callbackFMUL_S (env : Env H) (rawInsn : UndecodedInsn) : SimM H Unit :=
  executeRRRFBinOp env rawInsn fun rs1 rs2 =>
    callSoftFloat fun mode => env.softfloat.f32_mul mode rs1 rs2

def callbackFDIV_S (env : Env H) (rawInsn : UndecodedInsn) : SimM H Unit :=
  executeRRRFBinOp env rawInsn fun rs1 rs2 =>
    callSoftFloat fun mode => env.softfloat.f32_div mode rs1 rs2

def callbackFSQRT_S (env : Env H) (rawInsn : UndecodedInsn) : SimM H Unit := do
  softFloatClearFExcp
  let insn : RvInsn := ⟨rawInsn⟩
  let _ ← selectRM env insn
  let rs1 ← getFReg insn.rs1Index
  let res ← callSoftFloat fun mode => env.softfloat.f32_sqrt mode rs1
  setFReg insn.rdIndex res
  softFloatSetFExcp env.build
  step

def callbackFMADD_S (env : Env H) (rawInsn : UndecodedInsn) : SimM H Unit :=
  executeRRRRFTernOp env rawInsn fun rs1 rs2 rs3 =>
    callSoftFloat fun mode => env.softfloat.f32_mulAdd mode rs1 rs2 rs3

def callbackFMSUB_S (env : Env H) (rawInsn : UndecodedInsn) : SimM H Unit :=
  executeRRRRFTernOp env rawInsn fun rs1 rs2 rs3 =>
    callSoftFloat fun mode => env.softfloat.f32_mulAdd mode rs1 rs2 (f32_neg rs3)

def callbackFNMSUB_S (env : Env H) (rawInsn : UndecodedInsn) : SimM H Unit :=
  executeRRRRFTernOp env rawInsn fun rs1 rs2 rs3 =>
    callSoftFloat fun mode => env.softfloat.f32_mulAdd mode (f32_neg rs1) rs2 rs3

def callbackFNMADD_S (env : Env H) (rawInsn : UndecodedInsn) : SimM H Unit :=
  executeRRRRFTernOp env rawInsn fun rs1 rs2 rs3 => do
    return f32_neg (← callSoftFloat fun mode => env.softfloat.f32_mulAdd mode rs1 rs2 rs3)

def callbackFSGNJ_S (rawInsn : UndecodedInsn) : SimM H Unit := do
  let insn : RvInsn := ⟨rawInsn⟩
  let rs1 ← getFReg insn.rs1Index
  let rs2 ← getFReg insn.rs2Index
  let highBit := (1 : Register) <<< 31
  let res : FRegister := (rs2 &&& highBit) ||| (rs1 &&& ~~~highBit)
  setFReg insn.rdIndex res
  step

def callbackFSGNJN_S (rawInsn : UndecodedInsn) : SimM H Unit := do
  let insn : RvInsn := ⟨rawInsn⟩
  let rs1 ← getFReg insn.rs1Index
  let rs2 ← getFReg insn.rs2Index
  let highBit := (1 : Register) <<< 31
  let res : FRegister := ((rs2 ^^^ highBit) &&& highBit) ||| (rs1 &&& ~~~highBit)
  setFReg insn.rdIndex res
  step

def callbackFSGNJX_S (rawInsn : UndecodedInsn) : SimM H Unit := do
  let insn : RvInsn := ⟨rawInsn⟩
  let rs1 ← getFReg insn.rs1Index
  let rs2 ← getFReg insn.rs2Index
  let highBit := (1 : Register) <<< 31
  let res : FRegister := ((rs1 &&& highBit) ^^^ (rs2 &&& highBit)) ||| (rs1 &&& ~~~highBit)
  setFReg insn.rdIndex res
  step

def callbackFMIN_S (env : Env H) (rawInsn : UndecodedInsn) : SimM H Unit := do
  let insn : RvInsn := ⟨rawInsn⟩
  let res ← f32_min env (← getFReg insn.rs1Index) (← getFReg insn.rs2Index)
  setFReg insn.rdIndex res
  step

def callbackFMAX_S (env : Env H) (rawInsn : UndecodedInsn) : SimM H Unit := do
  let insn : RvInsn := ⟨rawInsn⟩
  let res ← f32_max env (← getFReg insn.rs1Index) (← getFReg insn.rs2Index)
  setFReg insn.rdIndex res
  step

def callbackFLE_S (env : Env H) (rawInsn : UndecodedInsn) : SimM H Unit :=
  executeRRRCmpOp env rawInsn fun rs1 rs2 =>
    callSoftFloat fun _ => env.softfloat.f32_le rs1 rs2

def callbackFLT_S (env : Env H) (rawInsn : UndecodedInsn) : SimM H Unit :=
  executeRRRCmpOp env rawInsn fun rs1 rs2 =>
    callSoftFloat fun _ => env.softfloat.f32_lt rs1 rs2

def callbackFEQ_S (env : Env H) (rawInsn : UndecodedInsn) : SimM H Unit :=
  executeRRRCmpOp env rawInsn fun rs1 rs2 =>
    callSoftFloat fun _ => env.softfloat.f32_eq rs1 rs2

def callbackFCVT_W_S (env : Env H) (rawInsn : UndecodedInsn) : SimM H Unit := do
  softFloatClearFExcp
  let insn : RvInsn := ⟨rawInsn⟩
  let frs1 ← getFReg insn.rs1Index
  let raiseInexact := true
  let mode ← selectRM env insn
  let conv := iRegToReg (← callSoftFloat fun _ => env.softfloat.f32_to_i32 frs1 mode raiseInexact)
  setXReg insn.rdIndex conv
  softFloatSetFExcp env.build
  step

def callbackFCVT_WU_S (env : Env H) (rawInsn : UndecodedInsn) : SimM H Unit := do
  softFloatClearFExcp
  let insn : RvInsn := ⟨rawInsn⟩
  let frs1 ← getFReg insn.rs1Index
  let raiseInexact := true
  let mode ← selectRM env insn
  let conv ← callSoftFloat fun _ => env.softfloat.f32_to_ui32 frs1 mode raiseInexact
  setXReg insn.rdIndex conv
  softFloatSetFExcp env.build
  step

def callbackFCVT_S_W (env : Env H) (rawInsn : UndecodedInsn) : SimM H Unit := do
  softFloatClearFExcp
  let insn : RvInsn := ⟨rawInsn⟩
  let rs1 := regToIReg (← getXReg insn.rs1Index)
  -- no rounding mode is selected here: the global one is whatever was left behind
  let conv ← callSoftFloat fun mode => env.softfloat.i32_to_f32 mode rs1
  setFReg insn.rdIndex conv
  softFloatSetFExcp env.build
  step

def callbackFCVT_S_WU (env : Env H) (rawInsn : UndecodedInsn) : SimM H Unit := do
  softFloatClearFExcp
  let insn : RvInsn := ⟨rawInsn⟩
  let rs1 ← getXReg insn.rs1Index
  let conv ← callSoftFloat fun mode => env.softfloat.ui32_to_f32 mode rs1
  setFReg insn.rdIndex conv
  softFloatSetFExcp env.build
  step

def callbackFMV_X_W (rawInsn : UndecodedInsn) : SimM H Unit := do
  let insn : RvInsn := ⟨rawInsn⟩
  let frs1 ← getFReg insn.rs1Index
  setXReg insn.rdIndex (fRegToReg frs1)
  step

def callbackFMV_W_X (rawInsn : UndecodedInsn) : SimM H Unit := do
  let insn : RvInsn := ⟨rawInsn⟩
  let rs1 ← getXReg insn.rs1Index
  setFReg insn.rdIndex (regToFReg rs1)
  step

def callbackFCLASS_S (env : Env H) (rawInsn : UndecodedInsn) : SimM H Unit := do
  let insn : RvInsn := ⟨rawInsn⟩
  let rs ← getFReg insn.rs1Index
  let shift : Nat :=
    match fpclassify rs with
    | .infinite => if signbit rs then 0 else 7
    | .nan => if env.softfloat.f32_isSignalingNaN rs then 8 else 9
    | .normal => if signbit rs then 1 else 6
    | .subnormal => if signbit rs then 2 else 5
    | .zero => if signbit rs then 3 else 4
  setXReg insn.rdIndex ((1 : Register) <<< shift)
  step

end RiscvSim
