import RiscvSim.Lib.MaskMatch
import RiscvSim.Isa.Mnemonics

/-!
The RISC-V instruction formats, independent of the decode table. A format says
which bit fields of the word an instruction fixes and where its operands go;
the table gives the format of each mnemonic as the manual lists it.
-/

namespace RiscvSim

open MaskMatch

/-- The formats, with the fields that an instruction of the format fixes. -/
inductive InsnFormat where
  | r (funct7 : BitVec 7) (funct3 : BitVec 3) (opcode : BitVec 7)
  /-- One source register; the field of the second one is fixed. -/
  | rUnary (funct7 : BitVec 7) (rs2 : BitVec 5) (funct3 : BitVec 3) (opcode : BitVec 7)
  /-- A rounding mode in place of `funct3`. -/
  | rRounding (funct7 : BitVec 7) (opcode : BitVec 7)
  | rUnaryRounding (funct7 : BitVec 7) (rs2 : BitVec 5) (opcode : BitVec 7)
  | r4 (fmt : BitVec 2) (opcode : BitVec 7)
  | i (funct3 : BitVec 3) (opcode : BitVec 7)
  | shift (funct7 : BitVec 7) (funct3 : BitVec 3) (opcode : BitVec 7)
  | csr (funct3 : BitVec 3) (opcode : BitVec 7)
  | s (funct3 : BitVec 3) (opcode : BitVec 7)
  | b (funct3 : BitVec 3) (opcode : BitVec 7)
  | u (opcode : BitVec 7)
  | j (opcode : BitVec 7)
  /-- No operands at all. -/
  | system (funct12 : BitVec 12) (opcode : BitVec 7)

/-- The operands of all the formats together; a format uses some of them. -/
structure Operands where
  rd : BitVec 5
  rs1 : BitVec 5
  rs2 : BitVec 5
  rs3 : BitVec 5
  rm : BitVec 3
  shamt : BitVec 5
  csr : BitVec 12
  imm : Int

namespace InsnFormat

/-- The fields that the format fixes. -/
def fixed : InsnFormat → Pattern 32
  | .r funct7 funct3 opcode => [.mk 25 7 funct7, .mk 12 3 funct3, .mk 0 7 opcode]
  | .rUnary funct7 rs2 funct3 opcode =>
      [.mk 25 7 funct7, .mk 20 5 rs2, .mk 12 3 funct3, .mk 0 7 opcode]
  | .rRounding funct7 opcode => [.mk 25 7 funct7, .mk 0 7 opcode]
  | .rUnaryRounding funct7 rs2 opcode => [.mk 25 7 funct7, .mk 20 5 rs2, .mk 0 7 opcode]
  | .r4 fmt opcode => [.mk 25 2 fmt, .mk 0 7 opcode]
  | .i funct3 opcode => [.mk 12 3 funct3, .mk 0 7 opcode]
  | .shift funct7 funct3 opcode => [.mk 25 7 funct7, .mk 12 3 funct3, .mk 0 7 opcode]
  | .csr funct3 opcode => [.mk 12 3 funct3, .mk 0 7 opcode]
  | .s funct3 opcode => [.mk 12 3 funct3, .mk 0 7 opcode]
  | .b funct3 opcode => [.mk 12 3 funct3, .mk 0 7 opcode]
  | .u opcode => [.mk 0 7 opcode]
  | .j opcode => [.mk 0 7 opcode]
  | .system funct12 opcode =>
      [.mk 20 12 funct12, .mk 15 5 0, .mk 12 3 0, .mk 7 5 0, .mk 0 7 opcode]

/-- The range of the immediate, for the formats that have one. -/
def Legal : InsnFormat → Operands → Prop
  | .i .., ops | .s .., ops => -2 ^ 11 ≤ ops.imm ∧ ops.imm < 2 ^ 11
  | .b .., ops => -2 ^ 12 ≤ ops.imm ∧ ops.imm < 2 ^ 12 ∧ 2 ∣ ops.imm
  | .u .., ops => -2 ^ 31 ≤ ops.imm ∧ ops.imm < 2 ^ 31 ∧ 4096 ∣ ops.imm
  | .j .., ops => -2 ^ 20 ≤ ops.imm ∧ ops.imm < 2 ^ 20 ∧ 2 ∣ ops.imm
  | _, _ => True

/-- The word of an instruction, its fields from the most significant on. -/
def word (ops : Operands) : InsnFormat → UndecodedInsn
  | .r funct7 funct3 opcode => funct7 ++ ops.rs2 ++ ops.rs1 ++ funct3 ++ ops.rd ++ opcode
  | .rUnary funct7 rs2 funct3 opcode => funct7 ++ rs2 ++ ops.rs1 ++ funct3 ++ ops.rd ++ opcode
  | .rRounding funct7 opcode => funct7 ++ ops.rs2 ++ ops.rs1 ++ ops.rm ++ ops.rd ++ opcode
  | .rUnaryRounding funct7 rs2 opcode => funct7 ++ rs2 ++ ops.rs1 ++ ops.rm ++ ops.rd ++ opcode
  | .r4 fmt opcode => ops.rs3 ++ fmt ++ ops.rs2 ++ ops.rs1 ++ ops.rm ++ ops.rd ++ opcode
  | .i funct3 opcode => BitVec.ofInt 12 ops.imm ++ ops.rs1 ++ funct3 ++ ops.rd ++ opcode
  | .shift funct7 funct3 opcode => funct7 ++ ops.shamt ++ ops.rs1 ++ funct3 ++ ops.rd ++ opcode
  | .csr funct3 opcode => ops.csr ++ ops.rs1 ++ funct3 ++ ops.rd ++ opcode
  | .s funct3 opcode =>
      let imm := BitVec.ofInt 12 ops.imm
      imm.extractLsb' 5 7 ++ ops.rs2 ++ ops.rs1 ++ funct3 ++ imm.extractLsb' 0 5 ++ opcode
  | .b funct3 opcode =>
      let imm := BitVec.ofInt 13 ops.imm
      imm.extractLsb' 12 1 ++ imm.extractLsb' 5 6 ++ ops.rs2 ++ ops.rs1 ++ funct3 ++
        imm.extractLsb' 1 4 ++ imm.extractLsb' 11 1 ++ opcode
  | .u opcode => (BitVec.ofInt 32 ops.imm).extractLsb' 12 20 ++ ops.rd ++ opcode
  | .j opcode =>
      let imm := BitVec.ofInt 21 ops.imm
      imm.extractLsb' 20 1 ++ imm.extractLsb' 1 10 ++ imm.extractLsb' 11 1 ++
        imm.extractLsb' 12 8 ++ ops.rd ++ opcode
  | .system funct12 opcode => funct12 ++ 0#5 ++ 0#3 ++ 0#5 ++ opcode

theorem fixed_disjoint (format : InsnFormat) : format.fixed.Disjoint := by
  cases format <;>
    simp only [Pattern.Disjoint, fixed, List.pairwise_cons, List.forall_mem_cons,
      FixedField.mask, List.not_mem_nil, false_implies, implies_true, List.Pairwise.nil] <;>
    decide

/-- The word of an instruction has the fixed fields of its format. -/
theorem fixed_word (format : InsnFormat) (ops : Operands) :
    format.fixed.Holds (format.word ops) := by
  cases format <;>
    simp only [Pattern.Holds, fixed, word, List.forall_mem_cons, FixedField.Holds,
      List.not_mem_nil, false_implies, implies_true, and_true] <;>
    simp (disch := decide) only [BitVec.extractLsb'_append_eq_of_le,
      BitVec.extractLsb'_append_eq_of_add_le] <;>
    simp

end InsnFormat

namespace Opcode

def LOAD : BitVec 7 := 0b0000011
def LOAD_FP : BitVec 7 := 0b0000111
def MISC_MEM : BitVec 7 := 0b0001111
def OP_IMM : BitVec 7 := 0b0010011
def AUIPC : BitVec 7 := 0b0010111
def STORE : BitVec 7 := 0b0100011
def STORE_FP : BitVec 7 := 0b0100111
def OP : BitVec 7 := 0b0110011
def LUI : BitVec 7 := 0b0110111
def MADD : BitVec 7 := 0b1000011
def MSUB : BitVec 7 := 0b1000111
def NMSUB : BitVec 7 := 0b1001011
def NMADD : BitVec 7 := 0b1001111
def OP_FP : BitVec 7 := 0b1010011
def BRANCH : BitVec 7 := 0b1100011
def JALR : BitVec 7 := 0b1100111
def JAL : BitVec 7 := 0b1101111
def SYSTEM : BitVec 7 := 0b1110011

end Opcode

namespace InsnMnemonic

/-- The instruction listings of the manual, for the 32-bit base. -/
def format : InsnMnemonic → InsnFormat
  | .LUI => .u Opcode.LUI
  | .AUIPC => .u Opcode.AUIPC
  | .JAL => .j Opcode.JAL
  | .JALR => .i 0b000 Opcode.JALR
  | .BEQ => .b 0b000 Opcode.BRANCH
  | .BNE => .b 0b001 Opcode.BRANCH
  | .BLT => .b 0b100 Opcode.BRANCH
  | .BGE => .b 0b101 Opcode.BRANCH
  | .BLTU => .b 0b110 Opcode.BRANCH
  | .BGEU => .b 0b111 Opcode.BRANCH
  | .LB => .i 0b000 Opcode.LOAD
  | .LH => .i 0b001 Opcode.LOAD
  | .LW => .i 0b010 Opcode.LOAD
  | .LBU => .i 0b100 Opcode.LOAD
  | .LHU => .i 0b101 Opcode.LOAD
  | .SB => .s 0b000 Opcode.STORE
  | .SH => .s 0b001 Opcode.STORE
  | .SW => .s 0b010 Opcode.STORE
  | .ADDI => .i 0b000 Opcode.OP_IMM
  | .SLTI => .i 0b010 Opcode.OP_IMM
  | .SLTIU => .i 0b011 Opcode.OP_IMM
  | .XORI => .i 0b100 Opcode.OP_IMM
  | .ORI => .i 0b110 Opcode.OP_IMM
  | .ANDI => .i 0b111 Opcode.OP_IMM
  | .SLLI => .shift 0b0000000 0b001 Opcode.OP_IMM
  | .SRLI => .shift 0b0000000 0b101 Opcode.OP_IMM
  | .SRAI => .shift 0b0100000 0b101 Opcode.OP_IMM
  | .ADD => .r 0b0000000 0b000 Opcode.OP
  | .SUB => .r 0b0100000 0b000 Opcode.OP
  | .SLL => .r 0b0000000 0b001 Opcode.OP
  | .SLT => .r 0b0000000 0b010 Opcode.OP
  | .SLTU => .r 0b0000000 0b011 Opcode.OP
  | .XOR => .r 0b0000000 0b100 Opcode.OP
  | .SRL => .r 0b0000000 0b101 Opcode.OP
  | .SRA => .r 0b0100000 0b101 Opcode.OP
  | .OR => .r 0b0000000 0b110 Opcode.OP
  | .AND => .r 0b0000000 0b111 Opcode.OP
  | .FENCE => .i 0b000 Opcode.MISC_MEM
  | .FENCE_I => .i 0b001 Opcode.MISC_MEM
  | .ECALL => .system 0x000 Opcode.SYSTEM
  | .EBREAK => .system 0x001 Opcode.SYSTEM
  | .MUL => .r 0b0000001 0b000 Opcode.OP
  | .MULH => .r 0b0000001 0b001 Opcode.OP
  | .MULHSU => .r 0b0000001 0b010 Opcode.OP
  | .MULHU => .r 0b0000001 0b011 Opcode.OP
  | .DIV => .r 0b0000001 0b100 Opcode.OP
  | .DIVU => .r 0b0000001 0b101 Opcode.OP
  | .REM => .r 0b0000001 0b110 Opcode.OP
  | .REMU => .r 0b0000001 0b111 Opcode.OP
  | .ANDN => .r 0b0100000 0b111 Opcode.OP
  | .ORN => .r 0b0100000 0b110 Opcode.OP
  | .XNOR => .r 0b0100000 0b100 Opcode.OP
  | .MIN => .r 0b0000101 0b100 Opcode.OP
  | .MINU => .r 0b0000101 0b101 Opcode.OP
  | .MAX => .r 0b0000101 0b110 Opcode.OP
  | .MAXU => .r 0b0000101 0b111 Opcode.OP
  | .SEXT_B => .rUnary 0b0110000 0b00100 0b001 Opcode.OP_IMM
  | .SEXT_H => .rUnary 0b0110000 0b00101 0b001 Opcode.OP_IMM
  | .ZEXT_H => .rUnary 0b0000100 0b00000 0b100 Opcode.OP
  | .CLZ => .rUnary 0b0110000 0b00000 0b001 Opcode.OP_IMM
  | .CTZ => .rUnary 0b0110000 0b00001 0b001 Opcode.OP_IMM
  | .CPOP => .rUnary 0b0110000 0b00010 0b001 Opcode.OP_IMM
  | .ROL => .r 0b0110000 0b001 Opcode.OP
  | .ROR => .r 0b0110000 0b101 Opcode.OP
  | .RORI => .shift 0b0110000 0b101 Opcode.OP_IMM
  | .REV8 => .rUnary 0b0110100 0b11000 0b101 Opcode.OP_IMM
  | .ORC_B => .rUnary 0b0010100 0b00111 0b101 Opcode.OP_IMM
  | .CSRRW => .csr 0b001 Opcode.SYSTEM
  | .CSRRS => .csr 0b010 Opcode.SYSTEM
  | .CSRRC => .csr 0b011 Opcode.SYSTEM
  | .CSRRWI => .csr 0b101 Opcode.SYSTEM
  | .CSRRSI => .csr 0b110 Opcode.SYSTEM
  | .CSRRCI => .csr 0b111 Opcode.SYSTEM
  | .FLW => .i 0b010 Opcode.LOAD_FP
  | .FSW => .s 0b010 Opcode.STORE_FP
  | .FADD_S => .rRounding 0b0000000 Opcode.OP_FP
  | .FSUB_S => .rRounding 0b0000100 Opcode.OP_FP
  | .FMUL_S => .rRounding 0b0001000 Opcode.OP_FP
  | .FDIV_S => .rRounding 0b0001100 Opcode.OP_FP
  | .FSQRT_S => .rUnaryRounding 0b0101100 0b00000 Opcode.OP_FP
  | .FMADD_S => .r4 0b00 Opcode.MADD
  | .FMSUB_S => .r4 0b00 Opcode.MSUB
  | .FNMSUB_S => .r4 0b00 Opcode.NMSUB
  | .FNMADD_S => .r4 0b00 Opcode.NMADD
  | .FSGNJ_S => .r 0b0010000 0b000 Opcode.OP_FP
  | .FSGNJN_S => .r 0b0010000 0b001 Opcode.OP_FP
  | .FSGNJX_S => .r 0b0010000 0b010 Opcode.OP_FP
  | .FMIN_S => .r 0b0010100 0b000 Opcode.OP_FP
  | .FMAX_S => .r 0b0010100 0b001 Opcode.OP_FP
  | .FLE_S => .r 0b1010000 0b000 Opcode.OP_FP
  | .FLT_S => .r 0b1010000 0b001 Opcode.OP_FP
  | .FEQ_S => .r 0b1010000 0b010 Opcode.OP_FP
  | .FCVT_W_S => .rUnaryRounding 0b1100000 0b00000 Opcode.OP_FP
  | .FCVT_WU_S => .rUnaryRounding 0b1100000 0b00001 Opcode.OP_FP
  | .FCVT_S_W => .rUnaryRounding 0b1101000 0b00000 Opcode.OP_FP
  | .FCVT_S_WU => .rUnaryRounding 0b1101000 0b00001 Opcode.OP_FP
  | .FMV_X_W => .rUnary 0b1110000 0b00000 0b000 Opcode.OP_FP
  | .FCLASS_S => .rUnary 0b1110000 0b00000 0b001 Opcode.OP_FP
  | .FMV_W_X => .rUnary 0b1111000 0b00000 0b000 Opcode.OP_FP

/-- Every bit field that the encoding of the mnemonic fixes has its value. -/
def Encodes (mnem : InsnMnemonic) (word : UndecodedInsn) : Prop := mnem.format.fixed.Holds word

instance (mnem : InsnMnemonic) (word : UndecodedInsn) : Decidable (mnem.Encodes word) :=
  inferInstanceAs (Decidable (Pattern.Holds _ _))

def encode (mnem : InsnMnemonic) (ops : Operands) : UndecodedInsn := mnem.format.word ops

end InsnMnemonic

end RiscvSim
