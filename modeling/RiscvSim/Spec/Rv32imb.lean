import RiscvSim.Lib.ByteMaps
import RiscvSim.Lib.HighWord
import RiscvSim.Spec.Rv32i

/-!
The base integer set together with the multiplications, the divisions, the
shifts by a register and the bit manipulation, as the manual defines them, over
the state of the base set. The fences order nothing here, where every access is
seen at once, and a breakpoint finds no debugger: these three only go on.
-/

namespace Rv32imb

open ByteStore HighWord LittleEndian RiscvSim

abbrev Word := Rv32i.Word
abbrev Reg := Rv32i.Reg
abbrev State := Rv32i.State

inductive RegOp where
  | SLL | SRL
  | MUL | MULH | MULHSU | MULHU | DIV | DIVU | REM | REMU
  | ANDN | ORN | XNOR | MIN | MAX | MINU | MAXU | ROL | ROR
  deriving DecidableEq

inductive UnaryOp where
  | SEXT_B | SEXT_H | ZEXT_H | CLZ | CTZ | CPOP | REV8 | ORC_B
  deriving DecidableEq

inductive FenceOp where
  | FENCE | FENCE_I
  deriving DecidableEq

inductive Insn where
  | base (insn : Rv32i.Insn)
  | reg (op : RegOp) (rd rs1 rs2 : Reg)
  | unary (op : UnaryOp) (rd rs1 : Reg)
  | rori (rd rs1 : Reg) (shamt : BitVec 5)
  | fence (op : FenceOp) (rd rs1 : Reg) (imm : Int)
  | ebreak

def RegOp.eval (x y : Word) : RegOp → Word
  | .SLL => BitVec.ofNat 32 (x.toNat * 2 ^ (y.toNat % 32))
  | .SRL => BitVec.ofNat 32 (x.toNat / 2 ^ (y.toNat % 32))
  | .MUL => BitVec.ofInt 32 (x.toInt * y.toInt)
  | .MULH => highWord 32 (x.toInt * y.toInt)
  | .MULHSU => highWord 32 (x.toInt * y.toNat)
  | .MULHU => highWord 32 (x.toNat * y.toNat)
  /- The quotient that does not fit is cut to 32 bits like any other. -/
  | .DIV => if y = 0 then -1 else BitVec.ofInt 32 (x.toInt.tdiv y.toInt)
  | .DIVU => if y = 0 then -1 else BitVec.ofNat 32 (x.toNat / y.toNat)
  | .REM => if y = 0 then x else BitVec.ofInt 32 (x.toInt.tmod y.toInt)
  | .REMU => if y = 0 then x else BitVec.ofNat 32 (x.toNat % y.toNat)
  | .ANDN => x &&& ~~~y
  | .ORN => x ||| ~~~y
  | .XNOR => ~~~(x ^^^ y)
  | .MIN => if x.toInt < y.toInt then x else y
  | .MAX => if x.toInt < y.toInt then y else x
  | .MINU => if x.toNat < y.toNat then x else y
  | .MAXU => if x.toNat < y.toNat then y else x
  | .ROL => x.rotateLeft y.toNat
  | .ROR => x.rotateRight y.toNat

def UnaryOp.eval (x : Word) : UnaryOp → Word
  | .SEXT_B => (x.setWidth 8).signExtend 32
  | .SEXT_H => (x.setWidth 16).signExtend 32
  | .ZEXT_H => (x.setWidth 16).setWidth 32
  | .CLZ => x.clz
  | .CTZ => x.ctz
  | .CPOP => x.cpop
  | .REV8 => reverseBytes 4 x
  | .ORC_B => mapBytes 4 (fun b => if b = 0 then 0 else BitVec.allOnes 8) x

def RegOp.mnem : RegOp → InsnMnemonic
  | .SLL => .SLL
  | .SRL => .SRL
  | .MUL => .MUL
  | .MULH => .MULH
  | .MULHSU => .MULHSU
  | .MULHU => .MULHU
  | .DIV => .DIV
  | .DIVU => .DIVU
  | .REM => .REM
  | .REMU => .REMU
  | .ANDN => .ANDN
  | .ORN => .ORN
  | .XNOR => .XNOR
  | .MIN => .MIN
  | .MAX => .MAX
  | .MINU => .MINU
  | .MAXU => .MAXU
  | .ROL => .ROL
  | .ROR => .ROR

def UnaryOp.mnem : UnaryOp → InsnMnemonic
  | .SEXT_B => .SEXT_B
  | .SEXT_H => .SEXT_H
  | .ZEXT_H => .ZEXT_H
  | .CLZ => .CLZ
  | .CTZ => .CTZ
  | .CPOP => .CPOP
  | .REV8 => .REV8
  | .ORC_B => .ORC_B

def FenceOp.mnem : FenceOp → InsnMnemonic
  | .FENCE => .FENCE
  | .FENCE_I => .FENCE_I

namespace Insn

/-- One instruction; `none` where an accessed byte is missing. -/
def exec (s : State) : Insn → Option State
  | .base insn => insn.exec s
  | .reg op rd rs1 rs2 => some (s.setReg rd (op.eval (s.reg rs1) (s.reg rs2))).next
  | .unary op rd rs1 => some (s.setReg rd (op.eval (s.reg rs1))).next
  | .rori rd rs1 shamt => some (s.setReg rd ((s.reg rs1).rotateRight shamt.toNat)).next
  | .fence .. | .ebreak => some s.next

def mnem : Insn → InsnMnemonic
  | .base insn => insn.mnem
  | .reg op .. => op.mnem
  | .unary op .. => op.mnem
  | .rori .. => .RORI
  | .fence op .. => op.mnem
  | .ebreak => .EBREAK

def operands : Insn → Operands
  | .base insn => insn.operands
  | .reg _ rd rs1 rs2 => ⟨rd, rs1, rs2, 0, 0, 0, 0, 0⟩
  | .unary _ rd rs1 => ⟨rd, rs1, 0, 0, 0, 0, 0, 0⟩
  | .rori rd rs1 shamt => ⟨rd, rs1, 0, 0, 0, shamt, 0, 0⟩
  /- The fields of a fence are all there, whatever they ask for. -/
  | .fence _ rd rs1 imm => ⟨rd, rs1, 0, 0, 0, 0, 0, imm⟩
  | .ebreak => ⟨0, 0, 0, 0, 0, 0, 0, 0⟩

/-- The immediate is in the range of the format. -/
def Legal (insn : Insn) : Prop := insn.mnem.format.Legal insn.operands

def word (insn : Insn) : Word := insn.mnem.encode insn.operands

end Insn

/-- The word at the program counter is the encoding of the instruction. -/
structure Fetches (s : State) (insn : Insn) : Prop where
  legal : insn.Legal
  word : read s.mem s.pc 4 = some (toBytes 4 insn.word)

end Rv32imb
