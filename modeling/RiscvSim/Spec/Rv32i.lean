import RiscvSim.Lib.ByteStore
import RiscvSim.Spec.Encoding

/-!
The base integer instructions as the manual defines them, over a program
counter, thirty-two registers and a byte memory. Arithmetic is on integers, cut
to 32 bits at the end; the shifts by a register to the left and to the logical
right and the fences, calls and breaks are left out.
-/

namespace Rv32i

open ByteStore LittleEndian RiscvSim

abbrev Word := BitVec 32
abbrev Reg := BitVec 5

/-- Register zero holds zero. -/
@[ext] structure State where
  pc : Word
  reg : Reg → Word
  reg_zero : reg 0 = 0
  mem : Store 32

namespace State

def setReg (s : State) (rd : Reg) (value : Word) : State where
  pc := s.pc
  reg r := if r = rd ∧ rd ≠ 0 then value else s.reg r
  reg_zero := by
    rw [if_neg, s.reg_zero]
    rintro ⟨hzero, hne⟩
    exact hne hzero.symm
  mem := s.mem

def next (s : State) : State := { s with pc := s.pc + 4 }

end State

inductive AluOp where
  | ADD | SUB | SLT | SLTU | XOR | SRA | OR | AND

inductive ImmOp where
  | ADDI | SLTI | SLTIU | XORI | ORI | ANDI

inductive ShiftOp where
  | SLLI | SRLI | SRAI

inductive BranchOp where
  | BEQ | BNE | BLT | BGE | BLTU | BGEU

inductive LoadOp where
  | LB | LH | LW | LBU | LHU

inductive StoreOp where
  | SB | SH | SW

inductive Insn where
  | lui (rd : Reg) (imm : Int)
  | auipc (rd : Reg) (imm : Int)
  | jal (rd : Reg) (imm : Int)
  | jalr (rd rs1 : Reg) (imm : Int)
  | branch (op : BranchOp) (rs1 rs2 : Reg) (imm : Int)
  | load (op : LoadOp) (rd rs1 : Reg) (imm : Int)
  | store (op : StoreOp) (rs1 rs2 : Reg) (imm : Int)
  | opImm (op : ImmOp) (rd rs1 : Reg) (imm : Int)
  | shiftImm (op : ShiftOp) (rd rs1 : Reg) (shamt : BitVec 5)
  | reg (op : AluOp) (rd rs1 rs2 : Reg)

def AluOp.eval (x y : Word) : AluOp → Word
  | .ADD => BitVec.ofInt 32 (x.toInt + y.toInt)
  | .SUB => BitVec.ofInt 32 (x.toInt - y.toInt)
  | .SLT => if x.toInt < y.toInt then 1 else 0
  | .SLTU => if x.toNat < y.toNat then 1 else 0
  | .XOR => x ^^^ y
  /- Integer division by a positive number rounds down. -/
  | .SRA => BitVec.ofInt 32 (x.toInt / 2 ^ (y.toNat % 32))
  | .OR => x ||| y
  | .AND => x &&& y

def ImmOp.alu : ImmOp → AluOp
  | .ADDI => .ADD
  | .SLTI => .SLT
  | .SLTIU => .SLTU
  | .XORI => .XOR
  | .ORI => .OR
  | .ANDI => .AND

def ShiftOp.eval (x : Word) (shamt : Nat) : ShiftOp → Word
  | .SLLI => BitVec.ofNat 32 (x.toNat * 2 ^ shamt)
  | .SRLI => BitVec.ofNat 32 (x.toNat / 2 ^ shamt)
  | .SRAI => BitVec.ofInt 32 (x.toInt / 2 ^ shamt)

def BranchOp.taken (x y : Word) : BranchOp → Bool
  | .BEQ => x = y
  | .BNE => x ≠ y
  | .BLT => x.toInt < y.toInt
  | .BGE => y.toInt ≤ x.toInt
  | .BLTU => x.toNat < y.toNat
  | .BGEU => y.toNat ≤ x.toNat

def LoadOp.bytes : LoadOp → Nat
  | .LB | .LBU => 1
  | .LH | .LHU => 2
  | .LW => 4

theorem LoadOp.bytes_pos (op : LoadOp) : 0 < op.bytes := by
  cases op <;> decide

def LoadOp.value (bytes : List Byte) : LoadOp → Word
  | .LB => (toWord 8 bytes).signExtend 32
  | .LH => (toWord 16 bytes).signExtend 32
  | .LW => toWord 32 bytes
  | .LBU => (toWord 8 bytes).setWidth 32
  | .LHU => (toWord 16 bytes).setWidth 32

def StoreOp.bytes : StoreOp → Nat
  | .SB => 1
  | .SH => 2
  | .SW => 4

theorem StoreOp.bytes_pos (op : StoreOp) : 0 < op.bytes := by
  cases op <;> decide

namespace Insn

/-- The bytes that a load or a store accesses. -/
def access? (s : State) : Insn → Option (Word × Nat)
  | .load op _ rs1 imm => some (s.reg rs1 + BitVec.ofInt 32 imm, op.bytes)
  | .store op rs1 _ imm => some (s.reg rs1 + BitVec.ofInt 32 imm, op.bytes)
  | _ => none

/-- One instruction; `none` where an accessed byte is missing. -/
def exec (s : State) : Insn → Option State
  | .lui rd imm => some (s.setReg rd (BitVec.ofInt 32 imm)).next
  | .auipc rd imm => some (s.setReg rd (s.pc + BitVec.ofInt 32 imm)).next
  | .jal rd imm => some { s.setReg rd (s.pc + 4) with pc := s.pc + BitVec.ofInt 32 imm }
  | .jalr rd rs1 imm =>
      some { s.setReg rd (s.pc + 4) with
        pc := (s.reg rs1 + BitVec.ofInt 32 imm) &&& ~~~1 }
  | .branch op rs1 rs2 imm =>
      if op.taken (s.reg rs1) (s.reg rs2) then
        some { s with pc := s.pc + BitVec.ofInt 32 imm }
      else some s.next
  | .load op rd rs1 imm => do
      let bytes ← read s.mem (s.reg rs1 + BitVec.ofInt 32 imm) op.bytes
      some (s.setReg rd (op.value bytes)).next
  | .store op rs1 rs2 imm => do
      let addr := s.reg rs1 + BitVec.ofInt 32 imm
      let _ ← read s.mem addr op.bytes
      some { s with mem := write s.mem addr (toBytes op.bytes (s.reg rs2)) }.next
  | .opImm op rd rs1 imm =>
      some (s.setReg rd (op.alu.eval (s.reg rs1) (BitVec.ofInt 32 imm))).next
  | .shiftImm op rd rs1 shamt => some (s.setReg rd (op.eval (s.reg rs1) shamt.toNat)).next
  | .reg op rd rs1 rs2 => some (s.setReg rd (op.eval (s.reg rs1) (s.reg rs2))).next

def mnem : Insn → InsnMnemonic
  | .lui .. => .LUI
  | .auipc .. => .AUIPC
  | .jal .. => .JAL
  | .jalr .. => .JALR
  | .branch .BEQ .. => .BEQ
  | .branch .BNE .. => .BNE
  | .branch .BLT .. => .BLT
  | .branch .BGE .. => .BGE
  | .branch .BLTU .. => .BLTU
  | .branch .BGEU .. => .BGEU
  | .load .LB .. => .LB
  | .load .LH .. => .LH
  | .load .LW .. => .LW
  | .load .LBU .. => .LBU
  | .load .LHU .. => .LHU
  | .store .SB .. => .SB
  | .store .SH .. => .SH
  | .store .SW .. => .SW
  | .opImm .ADDI .. => .ADDI
  | .opImm .SLTI .. => .SLTI
  | .opImm .SLTIU .. => .SLTIU
  | .opImm .XORI .. => .XORI
  | .opImm .ORI .. => .ORI
  | .opImm .ANDI .. => .ANDI
  | .shiftImm .SLLI .. => .SLLI
  | .shiftImm .SRLI .. => .SRLI
  | .shiftImm .SRAI .. => .SRAI
  | .reg .ADD .. => .ADD
  | .reg .SUB .. => .SUB
  | .reg .SLT .. => .SLT
  | .reg .SLTU .. => .SLTU
  | .reg .XOR .. => .XOR
  | .reg .SRA .. => .SRA
  | .reg .OR .. => .OR
  | .reg .AND .. => .AND

/-- Fields that the format does not use are zero. -/
def operands : Insn → Operands
  | .lui rd imm | .auipc rd imm | .jal rd imm => ⟨rd, 0, 0, 0, 0, 0, 0, imm⟩
  | .jalr rd rs1 imm | .load _ rd rs1 imm | .opImm _ rd rs1 imm =>
      ⟨rd, rs1, 0, 0, 0, 0, 0, imm⟩
  | .branch _ rs1 rs2 imm | .store _ rs1 rs2 imm => ⟨0, rs1, rs2, 0, 0, 0, 0, imm⟩
  | .shiftImm _ rd rs1 shamt => ⟨rd, rs1, 0, 0, 0, shamt, 0, 0⟩
  | .reg _ rd rs1 rs2 => ⟨rd, rs1, rs2, 0, 0, 0, 0, 0⟩

/-- The immediate is in the range of the format. -/
def Legal (insn : Insn) : Prop := insn.mnem.format.Legal insn.operands

def word (insn : Insn) : Word := insn.mnem.encode insn.operands

end Insn

end Rv32i
