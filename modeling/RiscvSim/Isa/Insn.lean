import RiscvSim.Isa.Defs

/-!
The field accessors of an undecoded instruction word. Register numbers and
immediates are 32-bit words, as in the source; a register number also comes as
an index of the register file, which carries the bound the setters assert.
-/

namespace RiscvSim

structure RvInsn where
  rawInsn : UndecodedInsn

/-- Sign extension by flipping and then subtracting the sign bit. -/
def signExtend (value : BitVec 32) (bits : Nat) : IRegister :=
  let signBit := (1 : BitVec 32) <<< (bits - 1)
  let masked := value &&& (((1 : BitVec 32) <<< bits) - 1)
  (masked ^^^ signBit) - signBit

namespace RvInsn

variable (insn : RvInsn)

def rd : BitVec 32 := (insn.rawInsn >>> 7) &&& 0x1F
def rs1 : BitVec 32 := (insn.rawInsn >>> 15) &&& 0x1F
def rs2 : BitVec 32 := (insn.rawInsn >>> 20) &&& 0x1F
def shamt : BitVec 32 := (insn.rawInsn >>> 20) &&& 0x1F

def immI : IRegister := signExtend (insn.rawInsn >>> 20) 12

def immS : IRegister :=
  let low := (insn.rawInsn >>> 7) &&& 0x1F
  let high := (insn.rawInsn >>> 25) &&& 0x7F
  signExtend (low ||| (high <<< 5)) 12

/-- The layout `imm[12|10:5|4:1|11]`, shifted left by one. -/
def immB : IRegister :=
  let bit11 := (insn.rawInsn >>> 7) &&& 0x1
  let bits4_1 := (insn.rawInsn >>> 8) &&& 0xF
  let bits10_5 := (insn.rawInsn >>> 25) &&& 0x3F
  let bit12 := (insn.rawInsn >>> 31) &&& 0x1
  signExtend ((bit12 <<< 12) ||| (bit11 <<< 11) ||| (bits10_5 <<< 5) ||| (bits4_1 <<< 1)) 13

def immU : IRegister := insn.rawInsn &&& 0xFFFFF000

/-- The layout `imm[20|10:1|11|19:12]`, shifted left by one. -/
def immJ : IRegister :=
  let bit20 := (insn.rawInsn >>> 31) &&& 0x1
  let bits10_1 := (insn.rawInsn >>> 21) &&& 0x3FF
  let bit11 := (insn.rawInsn >>> 20) &&& 0x1
  let bits19_12 := (insn.rawInsn >>> 12) &&& 0xFF
  signExtend ((bit20 <<< 20) ||| (bits19_12 <<< 12) ||| (bit11 <<< 11) ||| (bits10_1 <<< 1)) 21

/-- Third source register of the fused multiply-add instructions. -/
def rs3 : BitVec 32 := (insn.rawInsn >>> 27) &&& 0x1F

/-- Rounding mode field. -/
def rm : BitVec 32 := (insn.rawInsn >>> 12) &&& 0x7

/-- The CSR number, not sign-extended. -/
def immCSR : BitVec 32 := insn.rawInsn >>> 20

end RvInsn

theorem and_field_lt (x : BitVec 32) : (x &&& 0x1F).toNat < 32 := by
  rw [BitVec.toNat_and]
  exact Nat.lt_of_le_of_lt Nat.and_le_right (by decide)

namespace RvInsn

variable (insn : RvInsn)

def rdIndex : RegIndex := ⟨insn.rd.toNat, and_field_lt _⟩
def rs1Index : RegIndex := ⟨insn.rs1.toNat, and_field_lt _⟩
def rs2Index : RegIndex := ⟨insn.rs2.toNat, and_field_lt _⟩
def rs3Index : RegIndex := ⟨insn.rs3.toNat, and_field_lt _⟩

end RvInsn

end RiscvSim
