import RiscvSim.Isa.Defs

/-!
The mnemonics and the decode table. The source builds both from the same five
extension lists, included one after the other; the enumerator for an unknown
word is `none` of `Option InsnMnemonic` here.
-/

namespace RiscvSim

inductive InsnMnemonic where
  | LUI | AUIPC | JAL | JALR | BEQ | BNE | BLT | BGE | BLTU | BGEU | LB | LH | LW | LBU
  | LHU | SB | SH | SW | ADDI | SLTI | SLTIU | XORI | ORI | ANDI | SLLI | SRLI | SRAI
  | ADD | SUB | SLL | SLT | SLTU | XOR | SRL | SRA | OR | AND | FENCE | FENCE_I | ECALL
  | EBREAK
  | MUL | MULH | MULHSU | MULHU | DIV | DIVU | REM | REMU
  | ANDN | ORN | XNOR | MIN | MINU | MAX | MAXU | SEXT_B | SEXT_H | ZEXT_H | CLZ | CTZ
  | CPOP | ROL | ROR | RORI | REV8 | ORC_B
  | CSRRW | CSRRS | CSRRC | CSRRWI | CSRRSI | CSRRCI
  | FLW | FSW | FADD_S | FSUB_S | FMUL_S | FDIV_S | FSQRT_S | FMADD_S | FMSUB_S
  | FNMSUB_S | FNMADD_S | FSGNJ_S | FSGNJN_S | FSGNJX_S | FMIN_S | FMAX_S | FLE_S
  | FLT_S | FEQ_S | FCVT_W_S | FCVT_WU_S | FCVT_S_W | FCVT_S_WU | FMV_X_W | FCLASS_S
  | FMV_W_X
  deriving DecidableEq, Repr

structure InsnEntry where
  mnem : InsnMnemonic
  mask : UndecodedInsn
  matchBits : UndecodedInsn

def extI : List InsnEntry :=
  [ ⟨.LUI, 0x0000007f, 0x00000037⟩,
    ⟨.AUIPC, 0x0000007f, 0x00000017⟩,
    ⟨.JAL, 0x0000007f, 0x0000006f⟩,
    ⟨.JALR, 0x0000707f, 0x00000067⟩,
    ⟨.BEQ, 0x0000707f, 0x00000063⟩,
    ⟨.BNE, 0x0000707f, 0x00001063⟩,
    ⟨.BLT, 0x0000707f, 0x00004063⟩,
    ⟨.BGE, 0x0000707f, 0x00005063⟩,
    ⟨.BLTU, 0x0000707f, 0x00006063⟩,
    ⟨.BGEU, 0x0000707f, 0x00007063⟩,
    ⟨.LB, 0x0000707f, 0x00000003⟩,
    ⟨.LH, 0x0000707f, 0x00001003⟩,
    ⟨.LW, 0x0000707f, 0x00002003⟩,
    ⟨.LBU, 0x0000707f, 0x00004003⟩,
    ⟨.LHU, 0x0000707f, 0x00005003⟩,
    ⟨.SB, 0x0000707f, 0x00000023⟩,
    ⟨.SH, 0x0000707f, 0x00001023⟩,
    ⟨.SW, 0x0000707f, 0x00002023⟩,
    ⟨.ADDI, 0x0000707f, 0x00000013⟩,
    ⟨.SLTI, 0x0000707f, 0x00002013⟩,
    ⟨.SLTIU, 0x0000707f, 0x00003013⟩,
    ⟨.XORI, 0x0000707f, 0x00004013⟩,
    ⟨.ORI, 0x0000707f, 0x00006013⟩,
    ⟨.ANDI, 0x0000707f, 0x00007013⟩,
    ⟨.SLLI, 0xfe00707f, 0x00001013⟩,
    ⟨.SRLI, 0xfe00707f, 0x00005013⟩,
    ⟨.SRAI, 0xfe00707f, 0x40005013⟩,
    ⟨.ADD, 0xfe00707f, 0x00000033⟩,
    ⟨.SUB, 0xfe00707f, 0x40000033⟩,
    ⟨.SLL, 0xfe00707f, 0x00001033⟩,
    ⟨.SLT, 0xfe00707f, 0x00002033⟩,
    ⟨.SLTU, 0xfe00707f, 0x00003033⟩,
    ⟨.XOR, 0xfe00707f, 0x00004033⟩,
    ⟨.SRL, 0xfe00707f, 0x00005033⟩,
    ⟨.SRA, 0xfe00707f, 0x40005033⟩,
    ⟨.OR, 0xfe00707f, 0x00006033⟩,
    ⟨.AND, 0xfe00707f, 0x00007033⟩,
    ⟨.FENCE, 0x0000707f, 0x0000000f⟩,
    ⟨.FENCE_I, 0x0000707f, 0x0000100f⟩,
    ⟨.ECALL, 0xffffffff, 0x00000073⟩,
    ⟨.EBREAK, 0xffffffff, 0x00100073⟩ ]

def extM : List InsnEntry :=
  [ ⟨.MUL, 0xfe00707f, 0x02000033⟩,
    ⟨.MULH, 0xfe00707f, 0x02001033⟩,
    ⟨.MULHSU, 0xfe00707f, 0x02002033⟩,
    ⟨.MULHU, 0xfe00707f, 0x02003033⟩,
    ⟨.DIV, 0xfe00707f, 0x02004033⟩,
    ⟨.DIVU, 0xfe00707f, 0x02005033⟩,
    ⟨.REM, 0xfe00707f, 0x02006033⟩,
    ⟨.REMU, 0xfe00707f, 0x02007033⟩ ]

def extZbb : List InsnEntry :=
  [ ⟨.ANDN, 0xfe00707f, 0x40007033⟩,
    ⟨.ORN, 0xfe00707f, 0x40006033⟩,
    ⟨.XNOR, 0xfe00707f, 0x40004033⟩,
    ⟨.MIN, 0xfe00707f, 0x0a004033⟩,
    ⟨.MINU, 0xfe00707f, 0x0a005033⟩,
    ⟨.MAX, 0xfe00707f, 0x0a006033⟩,
    ⟨.MAXU, 0xfe00707f, 0x0a007033⟩,
    ⟨.SEXT_B, 0xfff0707f, 0x60401013⟩,
    ⟨.SEXT_H, 0xfff0707f, 0x60501013⟩,
    ⟨.ZEXT_H, 0xfe00707f, 0x08004033⟩,
    ⟨.CLZ, 0xfff0707f, 0x60001013⟩,
    ⟨.CTZ, 0xfff0707f, 0x60101013⟩,
    ⟨.CPOP, 0xfff0707f, 0x60201013⟩,
    ⟨.ROL, 0xfe00707f, 0x60001033⟩,
    ⟨.ROR, 0xfe00707f, 0x60005033⟩,
    ⟨.RORI, 0xfe00707f, 0x60005013⟩,
    ⟨.REV8, 0xfff0707f, 0x69805013⟩,
    ⟨.ORC_B, 0xfff0707f, 0x28705013⟩ ]

def extZicsr : List InsnEntry :=
  [ ⟨.CSRRW, 0x0000707f, 0x00001073⟩,
    ⟨.CSRRS, 0x0000707f, 0x00002073⟩,
    ⟨.CSRRC, 0x0000707f, 0x00003073⟩,
    ⟨.CSRRWI, 0x0000707f, 0x00005073⟩,
    ⟨.CSRRSI, 0x0000707f, 0x00006073⟩,
    ⟨.CSRRCI, 0x0000707f, 0x00007073⟩ ]

def extF : List InsnEntry :=
  [ ⟨.FLW, 0x0000707f, 0x00002007⟩,
    ⟨.FSW, 0x0000707f, 0x00002027⟩,
    ⟨.FADD_S, 0xfe00007f, 0x00000053⟩,
    ⟨.FSUB_S, 0xfe00007f, 0x08000053⟩,
    ⟨.FMUL_S, 0xfe00007f, 0x10000053⟩,
    ⟨.FDIV_S, 0xfe00007f, 0x18000053⟩,
    ⟨.FSQRT_S, 0xfff0007f, 0x58000053⟩,
    ⟨.FMADD_S, 0x0600007f, 0x00000043⟩,
    ⟨.FMSUB_S, 0x0600007f, 0x00000047⟩,
    ⟨.FNMSUB_S, 0x0600007f, 0x0000004b⟩,
    ⟨.FNMADD_S, 0x0600007f, 0x0000004f⟩,
    ⟨.FSGNJ_S, 0xfe00707f, 0x20000053⟩,
    ⟨.FSGNJN_S, 0xfe00707f, 0x20001053⟩,
    ⟨.FSGNJX_S, 0xfe00707f, 0x20002053⟩,
    ⟨.FMIN_S, 0xfe00707f, 0x28000053⟩,
    ⟨.FMAX_S, 0xfe00707f, 0x28001053⟩,
    ⟨.FLE_S, 0xfe00707f, 0xa0000053⟩,
    ⟨.FLT_S, 0xfe00707f, 0xa0001053⟩,
    ⟨.FEQ_S, 0xfe00707f, 0xa0002053⟩,
    ⟨.FCVT_W_S, 0xfff0007f, 0xc0000053⟩,
    ⟨.FCVT_WU_S, 0xfff0007f, 0xc0100053⟩,
    ⟨.FCVT_S_W, 0xfff0007f, 0xd0000053⟩,
    ⟨.FCVT_S_WU, 0xfff0007f, 0xd0100053⟩,
    ⟨.FMV_X_W, 0xfff0707f, 0xe0000053⟩,
    ⟨.FCLASS_S, 0xfff0707f, 0xe0001053⟩,
    ⟨.FMV_W_X, 0xfff0707f, 0xf0000053⟩ ]

def insnDecodeTable : List InsnEntry :=
  extI ++ extM ++ extZbb ++ extZicsr ++ extF

/-- The first entry whose fixed bits are those of the word. -/
def decode (insn : UndecodedInsn) : Option InsnMnemonic :=
  (insnDecodeTable.find? fun entry => insn &&& entry.mask == entry.matchBits).map (·.mnem)

end RiscvSim
