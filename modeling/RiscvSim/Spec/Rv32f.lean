import RiscvSim.Spec.FpCsr
import RiscvSim.Spec.FpOperations

/-!
The single-precision instructions as the manual defines them, over the state of
the integer instructions, thirty-two registers more and the floating-point
status. An instruction that rounds takes its direction from its own field or from
the status. Where an operation of the standard has a NaN for its result, or the
direction is reserved, there is no next state.
-/

namespace Rv32f

open Binary32 ByteStore LittleEndian Rounding RiscvSim

abbrev Word := Rv32i.Word
abbrev Reg := Rv32i.Reg

@[ext] structure State where
  core : Rv32i.State
  freg : Reg → Pattern
  status : FpCsr.Status

namespace State

def setReg (s : State) (rd : Reg) (value : Word) : State :=
  { s with core := s.core.setReg rd value }

def setFReg (s : State) (rd : Reg) (value : Pattern) : State :=
  { s with freg := fun r => if r = rd then value else s.freg r }

def setMem (s : State) (mem : Store 32) : State := { s with core := { s.core with mem } }

/-- Exceptions add to those that are there. -/
def raise (s : State) (flags : BitVec 8) : State :=
  { s with status := { s.status with fflags := s.status.fflags ||| flags.setWidth 5 } }

def next (s : State) : State := { s with core := s.core.next }

/-- An instruction on the status. -/
def execCsr (s : State) (insn : FpCsr.Insn) : State :=
  let res := insn.exec ⟨s.core, s.status⟩
  { s with core := res.base, status := res.status }

end State

inductive SignOp where
  | FSGNJ | FSGNJN | FSGNJX

inductive PickOp where
  | FMIN | FMAX

inductive CompareOp where
  | FLE | FLT | FEQ

inductive ArithOp where
  | FADD | FSUB | FMUL | FDIV

inductive FusedOp where
  | FMADD | FMSUB | FNMSUB | FNMADD

inductive ToIntOp where
  | FCVT_W_S | FCVT_WU_S

inductive OfIntOp where
  | FCVT_S_W | FCVT_S_WU

inductive Insn where
  | flw (rd rs1 : Reg) (imm : Int)
  | fsw (rs1 rs2 : Reg) (imm : Int)
  | sign (op : SignOp) (rd rs1 rs2 : Reg)
  | pick (op : PickOp) (rd rs1 rs2 : Reg)
  | compare (op : CompareOp) (rd rs1 rs2 : Reg)
  | arith (op : ArithOp) (rm : BitVec 3) (rd rs1 rs2 : Reg)
  | sqrt (rm : BitVec 3) (rd rs1 : Reg)
  | fused (op : FusedOp) (rm : BitVec 3) (rd rs1 rs2 rs3 : Reg)
  | toInt (op : ToIntOp) (rm : BitVec 3) (rd rs1 : Reg)
  | ofInt (op : OfIntOp) (rm : BitVec 3) (rd rs1 : Reg)
  | moveToX (rd rs1 : Reg)
  | moveToF (rd rs1 : Reg)
  | classify (rd rs1 : Reg)

/-- The direction that a field names; two of its values are reserved, and one
stands for the direction of the status. -/
def named (field : BitVec 3) : Option Direction :=
  if field = 0 then some .nearestEven
  else if field = 1 then some .towardZero
  else if field = 2 then some .down
  else if field = 3 then some .up
  else if field = 4 then some .nearestAway
  else none

def State.direction (s : State) (rm : BitVec 3) : Option Direction :=
  named (if rm = 7 then s.status.frm else rm)

/-- The first operand with the sign that the second one gives it. -/
def SignOp.eval (a b : Pattern) : SignOp → Pattern
  | .FSGNJ => pattern (negative b) (magnitude a)
  | .FSGNJN => pattern (!negative b) (magnitude a)
  | .FSGNJX => pattern (negative a ^^ negative b) (magnitude a)

def PickOp.eval (a b : Pattern) : PickOp → Pattern
  | .FMIN => Binary32.pick rank a b
  | .FMAX => Binary32.pick (fun x => -rank x) a b

def CompareOp.eval (a b : Pattern) : CompareOp → Bool × BitVec 8
  | .FLE => compareSignaling (fun x y => decide (x ≤ y)) a b
  | .FLT => compareSignaling (fun x y => decide (x < y)) a b
  | .FEQ => compareQuiet (fun x y => decide (x = y)) a b

def ArithOp.eval (direction : Direction) (a b : Pattern) : ArithOp → Option (Pattern × BitVec 8)
  | .FADD => add direction a b
  | .FSUB => subtract direction a b
  | .FMUL => multiply direction a b
  | .FDIV => divide direction a b

def FusedOp.eval (direction : Direction) (a b c : Pattern) :
    FusedOp → Option (Pattern × BitVec 8)
  | .FMADD => fusedMulAdd direction a b c
  | .FMSUB => fusedMulAdd direction a b (negate c)
  | .FNMSUB => fusedMulAdd direction (negate a) b c
  | .FNMADD => fusedMulAdd direction (negate a) b (negate c)

def ToIntOp.eval (direction : Direction) (a : Pattern) : ToIntOp → ℤ × BitVec 8
  | .FCVT_W_S => saturate (-2 ^ 31) (2 ^ 31 - 1) direction a
  | .FCVT_WU_S => saturate 0 (2 ^ 32 - 1) direction a

def OfIntOp.operand (x : Word) : OfIntOp → ℤ
  | .FCVT_S_W => x.toInt
  | .FCVT_S_WU => x.toNat

namespace Insn

/-- One instruction; `none` where an accessed byte is missing, where the direction
is reserved, and where the result is a NaN of an arithmetic operation. -/
def exec (s : State) : Insn → Option State
  | .flw rd rs1 imm => do
      let bytes ← read s.core.mem (s.core.reg rs1 + BitVec.ofInt 32 imm) 4
      some (s.setFReg rd (toWord 32 bytes)).next
  | .fsw rs1 rs2 imm => do
      let addr := s.core.reg rs1 + BitVec.ofInt 32 imm
      let _ ← read s.core.mem addr 4
      some (s.setMem (write s.core.mem addr (toBytes 4 (s.freg rs2)))).next
  | .sign op rd rs1 rs2 => some (s.setFReg rd (op.eval (s.freg rs1) (s.freg rs2))).next
  | .pick op rd rs1 rs2 =>
      some ((s.setFReg rd (op.eval (s.freg rs1) (s.freg rs2))).raise
        (signalingFlags (s.freg rs1) (s.freg rs2))).next
  | .compare op rd rs1 rs2 =>
      let res := op.eval (s.freg rs1) (s.freg rs2)
      some ((s.setReg rd (if res.1 then 1 else 0)).raise res.2).next
  | .arith op rm rd rs1 rs2 => do
      let res ← op.eval (← s.direction rm) (s.freg rs1) (s.freg rs2)
      some ((s.setFReg rd res.1).raise res.2).next
  | .sqrt rm rd rs1 => do
      let res ← squareRoot (← s.direction rm) (s.freg rs1)
      some ((s.setFReg rd res.1).raise res.2).next
  | .fused op rm rd rs1 rs2 rs3 => do
      let res ← op.eval (← s.direction rm) (s.freg rs1) (s.freg rs2) (s.freg rs3)
      some ((s.setFReg rd res.1).raise res.2).next
  | .toInt op rm rd rs1 => do
      let res := op.eval (← s.direction rm) (s.freg rs1)
      some ((s.setReg rd (BitVec.ofInt 32 res.1)).raise res.2).next
  | .ofInt op rm rd rs1 => do
      let res := fromInteger (← s.direction rm) (op.operand (s.core.reg rs1))
      some ((s.setFReg rd res.1).raise res.2).next
  | .moveToX rd rs1 => some (s.setReg rd (s.freg rs1)).next
  | .moveToF rd rs1 => some (s.setFReg rd (s.core.reg rs1)).next
  | .classify rd rs1 => some (s.setReg rd ((1 : Word) <<< classOf (s.freg rs1))).next

def mnem : Insn → InsnMnemonic
  | .flw .. => .FLW
  | .fsw .. => .FSW
  | .sign .FSGNJ .. => .FSGNJ_S
  | .sign .FSGNJN .. => .FSGNJN_S
  | .sign .FSGNJX .. => .FSGNJX_S
  | .pick .FMIN .. => .FMIN_S
  | .pick .FMAX .. => .FMAX_S
  | .compare .FLE .. => .FLE_S
  | .compare .FLT .. => .FLT_S
  | .compare .FEQ .. => .FEQ_S
  | .arith .FADD .. => .FADD_S
  | .arith .FSUB .. => .FSUB_S
  | .arith .FMUL .. => .FMUL_S
  | .arith .FDIV .. => .FDIV_S
  | .sqrt .. => .FSQRT_S
  | .fused .FMADD .. => .FMADD_S
  | .fused .FMSUB .. => .FMSUB_S
  | .fused .FNMSUB .. => .FNMSUB_S
  | .fused .FNMADD .. => .FNMADD_S
  | .toInt .FCVT_W_S .. => .FCVT_W_S
  | .toInt .FCVT_WU_S .. => .FCVT_WU_S
  | .ofInt .FCVT_S_W .. => .FCVT_S_W
  | .ofInt .FCVT_S_WU .. => .FCVT_S_WU
  | .moveToX .. => .FMV_X_W
  | .moveToF .. => .FMV_W_X
  | .classify .. => .FCLASS_S

/-- Fields that the format does not use are zero. -/
def operands : Insn → Operands
  | .flw rd rs1 imm => ⟨rd, rs1, 0, 0, 0, 0, 0, imm⟩
  | .fsw rs1 rs2 imm => ⟨0, rs1, rs2, 0, 0, 0, 0, imm⟩
  | .sign _ rd rs1 rs2 | .pick _ rd rs1 rs2 | .compare _ rd rs1 rs2 =>
      ⟨rd, rs1, rs2, 0, 0, 0, 0, 0⟩
  | .arith _ rm rd rs1 rs2 => ⟨rd, rs1, rs2, 0, rm, 0, 0, 0⟩
  | .fused _ rm rd rs1 rs2 rs3 => ⟨rd, rs1, rs2, rs3, rm, 0, 0, 0⟩
  | .sqrt rm rd rs1 | .toInt _ rm rd rs1 | .ofInt _ rm rd rs1 => ⟨rd, rs1, 0, 0, rm, 0, 0, 0⟩
  | .moveToX rd rs1 | .moveToF rd rs1 | .classify rd rs1 => ⟨rd, rs1, 0, 0, 0, 0, 0, 0⟩

/-- The immediate is in the range of the format. -/
def Legal (insn : Insn) : Prop := insn.mnem.format.Legal insn.operands

def word (insn : Insn) : Word := insn.mnem.encode insn.operands

end Insn

/-- The word at the program counter is the encoding of the instruction. -/
structure Fetches (s : State) (insn : Insn) : Prop where
  legal : insn.Legal
  word : read s.core.mem s.core.pc 4 = some (toBytes 4 insn.word)

end Rv32f
