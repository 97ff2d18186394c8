import RiscvSim.Isa.InsnFields
import RiscvSim.Spec.Encoding

/-!
The decode table against the encodings of the manual. No word hits two entries
of the table, and each entry tests no bit that its mnemonic does not fix, so the
word of an instruction is decoded to its own mnemonic; and the accessors find
the operands where the format has put them.
-/

namespace RiscvSim

open MaskMatch

theorem insnDecodeTable_apart :
    insnDecodeTable.Pairwise (Apart InsnEntry.mask InsnEntry.matchBits) := by
  decide +kernel

theorem insnDecodeTable_complete (mnem : InsnMnemonic) :
    ∃ entry ∈ insnDecodeTable, entry.mnem = mnem := by
  cases mnem <;> decide +kernel

/-- Each entry tests fixed bits of its mnemonic only, for their right values. -/
theorem insnDecodeTable_looser : ∀ entry ∈ insnDecodeTable,
    entry.mnem.format.fixed.mask &&& entry.mask = entry.mask ∧
      entry.mnem.format.fixed.bits &&& entry.mask = entry.matchBits := by
  decide +kernel

theorem decode_eq_some_of_hits {entry : InsnEntry} (hentry : entry ∈ insnDecodeTable)
    {word : UndecodedInsn} (hword : word &&& entry.mask = entry.matchBits) :
    decode word = some entry.mnem := by
  have hhits : hits InsnEntry.mask InsnEntry.matchBits word entry = true := by
    simpa [hits] using hword
  have hfind := find?_eq_some_of_hits insnDecodeTable_apart hentry hhits
  exact congrArg (Option.map InsnEntry.mnem) hfind

/-- A word with the fixed fields of a mnemonic is decoded to it. -/
theorem decode_of_encodes {mnem : InsnMnemonic} {word : UndecodedInsn}
    (h : mnem.Encodes word) : decode word = some mnem := by
  obtain ⟨entry, hentry, rfl⟩ := insnDecodeTable_complete mnem
  obtain ⟨hmask, hbits⟩ := insnDecodeTable_looser entry hentry
  have hword := (Pattern.holds_iff (InsnFormat.fixed_disjoint _) word).mp h
  exact decode_eq_some_of_hits hentry (and_eq_of_looser hword hmask hbits)

theorem decode_encode (mnem : InsnMnemonic) (ops : Operands) :
    decode (mnem.encode ops) = some mnem :=
  decode_of_encodes (mnem.format.fixed_word ops)

namespace InsnFormat

/-- The accessors of the register numbers and of the other unsigned fields that
a callback of the format uses return the operands. -/
def ReadsFields (insn : RvInsn) (ops : Operands) : InsnFormat → Prop
  | .r .. => insn.rd = ops.rd.setWidth 32 ∧ insn.rs1 = ops.rs1.setWidth 32 ∧
      insn.rs2 = ops.rs2.setWidth 32
  | .rUnary .. => insn.rd = ops.rd.setWidth 32 ∧ insn.rs1 = ops.rs1.setWidth 32
  | .rRounding .. => insn.rd = ops.rd.setWidth 32 ∧ insn.rs1 = ops.rs1.setWidth 32 ∧
      insn.rs2 = ops.rs2.setWidth 32 ∧ insn.rm = ops.rm.setWidth 32
  | .rUnaryRounding .. => insn.rd = ops.rd.setWidth 32 ∧ insn.rs1 = ops.rs1.setWidth 32 ∧
      insn.rm = ops.rm.setWidth 32
  | .r4 .. => insn.rd = ops.rd.setWidth 32 ∧ insn.rs1 = ops.rs1.setWidth 32 ∧
      insn.rs2 = ops.rs2.setWidth 32 ∧ insn.rs3 = ops.rs3.setWidth 32 ∧
      insn.rm = ops.rm.setWidth 32
  | .i .. => insn.rd = ops.rd.setWidth 32 ∧ insn.rs1 = ops.rs1.setWidth 32
  | .shift .. => insn.rd = ops.rd.setWidth 32 ∧ insn.rs1 = ops.rs1.setWidth 32 ∧
      insn.shamt = ops.shamt.setWidth 32
  | .csr .. => insn.rd = ops.rd.setWidth 32 ∧ insn.rs1 = ops.rs1.setWidth 32 ∧
      insn.immCSR = ops.csr.setWidth 32
  | .s .. => insn.rs1 = ops.rs1.setWidth 32 ∧ insn.rs2 = ops.rs2.setWidth 32
  | .b .. => insn.rs1 = ops.rs1.setWidth 32 ∧ insn.rs2 = ops.rs2.setWidth 32
  | .u .. => insn.rd = ops.rd.setWidth 32
  | .j .. => insn.rd = ops.rd.setWidth 32
  | .system .. => True

/-- The accessor of the format's immediate returns it with its sign. -/
def ReadsImm (insn : RvInsn) (ops : Operands) : InsnFormat → Prop
  | .i .. => insn.immI.toInt = ops.imm
  | .s .. => insn.immS.toInt = ops.imm
  | .b .. => insn.immB.toInt = ops.imm
  | .u .. => insn.immU.toInt = ops.imm
  | .j .. => insn.immJ.toInt = ops.imm
  | _ => True

theorem readsFields_word (format : InsnFormat) (ops : Operands) :
    format.ReadsFields ⟨format.word ops⟩ ops := by
  cases format <;>
    simp only [ReadsFields, word, RvInsn.rd_eq, RvInsn.rs1_eq, RvInsn.rs2_eq, RvInsn.rs3_eq,
      RvInsn.rm_eq, RvInsn.shamt_eq, RvInsn.immCSR_eq] <;>
    simp (disch := decide) only [BitVec.extractLsb'_append_eq_of_le,
      BitVec.extractLsb'_append_eq_of_add_le] <;>
    simp

end InsnFormat

/-- A signed number survives being cut to a field and sign-extended again. -/
theorem signExtend_ofInt {bits : Nat} (hpos : 0 < bits) (hbits : bits ≤ 32) {imm : Int}
    (hlow : -2 ^ (bits - 1) ≤ imm) (hhigh : imm < 2 ^ (bits - 1)) :
    ((BitVec.ofInt bits imm).signExtend 32).toInt = imm := by
  rw [BitVec.toInt_signExtend_of_le hbits]
  exact BitVec.toInt_ofInt_eq_self hpos hlow hhigh

/-- The low bits of a multiple of a power of two are zero. -/
theorem extractLsb'_ofInt_of_dvd {bits k : Nat} (hk : k ≤ bits) {imm : Int}
    (hdvd : (2 ^ k : Int) ∣ imm) : (BitVec.ofInt bits imm).extractLsb' 0 k = 0#k := by
  have hpow : ((2 ^ k : Nat) : Int) ∣ ((2 ^ bits : Nat) : Int) := by
    exact_mod_cast Nat.pow_dvd_pow 2 hk
  have hpos : (0 : Int) < ((2 ^ bits : Nat) : Int) := by
    exact_mod_cast Nat.two_pow_pos bits
  have hmod : imm % ((2 ^ bits : Nat) : Int) % ((2 ^ k : Nat) : Int) = 0 := by
    rw [Int.emod_emod_of_dvd imm hpow]
    exact Int.emod_eq_zero_of_dvd (by exact_mod_cast hdvd)
  have hnonneg := Int.emod_nonneg imm hpos.ne'
  apply BitVec.eq_of_toNat_eq
  rw [BitVec.extractLsb'_toNat, BitVec.toNat_ofInt, Nat.shiftRight_zero, BitVec.toNat_ofNat,
    Nat.zero_mod]
  apply Int.ofNat.inj
  rw [Int.ofNat_eq_natCast, Int.natCast_mod, Int.toNat_of_nonneg hnonneg, hmod]
  rfl

namespace InsnFormat

theorem immI_word (funct3 : BitVec 3) (opcode : BitVec 7) (ops : Operands) :
    (RvInsn.mk (word ops (.i funct3 opcode))).immI = (BitVec.ofInt 12 ops.imm).signExtend 32 := by
  rw [RvInsn.immI_eq]
  simp (disch := decide) only [word, BitVec.extractLsb'_append_eq_of_le]
  simp

theorem immS_word (funct3 : BitVec 3) (opcode : BitVec 7) (ops : Operands) :
    (RvInsn.mk (word ops (.s funct3 opcode))).immS = (BitVec.ofInt 12 ops.imm).signExtend 32 := by
  rw [RvInsn.immS_eq]
  simp (disch := decide) only [word, BitVec.extractLsb'_append_eq_of_le,
    BitVec.extractLsb'_append_eq_of_add_le, Nat.reduceSub, BitVec.extractLsb'_eq_self]
  simp (disch := decide) only [BitVec.extractLsb'_append_extractLsb'_eq_extractLsb']
  exact congrArg (BitVec.signExtend 32) BitVec.extractLsb'_eq_self

theorem immB_word (funct3 : BitVec 3) (opcode : BitVec 7) (ops : Operands) (heven : 2 ∣ ops.imm) :
    (RvInsn.mk (word ops (.b funct3 opcode))).immB = (BitVec.ofInt 13 ops.imm).signExtend 32 := by
  have hlow : (BitVec.ofInt 13 ops.imm).extractLsb' 0 1 = 0#1 :=
    extractLsb'_ofInt_of_dvd (by decide) (by simpa using heven)
  rw [RvInsn.immB_eq, ← hlow]
  simp (disch := decide) only [word, BitVec.extractLsb'_append_eq_of_le,
    BitVec.extractLsb'_append_eq_of_add_le, Nat.reduceSub, BitVec.extractLsb'_eq_self]
  simp (disch := decide) only [BitVec.extractLsb'_append_extractLsb'_eq_extractLsb']
  exact congrArg (BitVec.signExtend 32) BitVec.extractLsb'_eq_self

theorem immU_word (opcode : BitVec 7) (ops : Operands) (hdvd : 4096 ∣ ops.imm) :
    (RvInsn.mk (word ops (.u opcode))).immU = BitVec.ofInt 32 ops.imm := by
  have hlow : (BitVec.ofInt 32 ops.imm).extractLsb' 0 12 = 0#12 :=
    extractLsb'_ofInt_of_dvd (by decide) (by simpa using hdvd)
  rw [RvInsn.immU_eq, ← hlow]
  simp (disch := decide) only [word, BitVec.extractLsb'_append_eq_of_le, Nat.reduceSub,
    BitVec.extractLsb'_eq_self]
  simp (disch := decide) only [BitVec.extractLsb'_append_extractLsb'_eq_extractLsb']
  exact BitVec.extractLsb'_eq_self

theorem immJ_word (opcode : BitVec 7) (ops : Operands) (heven : 2 ∣ ops.imm) :
    (RvInsn.mk (word ops (.j opcode))).immJ = (BitVec.ofInt 21 ops.imm).signExtend 32 := by
  have hlow : (BitVec.ofInt 21 ops.imm).extractLsb' 0 1 = 0#1 :=
    extractLsb'_ofInt_of_dvd (by decide) (by simpa using heven)
  rw [RvInsn.immJ_eq, ← hlow]
  simp (disch := decide) only [word, BitVec.extractLsb'_append_eq_of_le,
    BitVec.extractLsb'_append_eq_of_add_le, Nat.reduceSub, BitVec.extractLsb'_eq_self]
  simp (disch := decide) only [BitVec.extractLsb'_append_extractLsb'_eq_extractLsb']
  exact congrArg (BitVec.signExtend 32) BitVec.extractLsb'_eq_self

theorem readsImm_word (format : InsnFormat) (ops : Operands) (hlegal : format.Legal ops) :
    format.ReadsImm ⟨format.word ops⟩ ops := by
  cases format with
  | i funct3 opcode =>
      obtain ⟨hlow, hhigh⟩ := hlegal
      exact (congrArg BitVec.toInt (immI_word funct3 opcode ops)).trans
        (signExtend_ofInt (by decide) (by decide) hlow hhigh)
  | s funct3 opcode =>
      obtain ⟨hlow, hhigh⟩ := hlegal
      exact (congrArg BitVec.toInt (immS_word funct3 opcode ops)).trans
        (signExtend_ofInt (by decide) (by decide) hlow hhigh)
  | b funct3 opcode =>
      obtain ⟨hlow, hhigh, heven⟩ := hlegal
      exact (congrArg BitVec.toInt (immB_word funct3 opcode ops heven)).trans
        (signExtend_ofInt (by decide) (by decide) hlow hhigh)
  | u opcode =>
      obtain ⟨hlow, hhigh, hdvd⟩ := hlegal
      exact (congrArg BitVec.toInt (immU_word opcode ops hdvd)).trans
        (BitVec.toInt_ofInt_eq_self (by decide) hlow hhigh)
  | j opcode =>
      obtain ⟨hlow, hhigh, heven⟩ := hlegal
      exact (congrArg BitVec.toInt (immJ_word opcode ops heven)).trans
        (signExtend_ofInt (by decide) (by decide) hlow hhigh)
  | _ => trivial

end InsnFormat

/-- Decoding an encoded instruction gives its mnemonic, and the accessors that
its callback uses give its operands. -/
theorem decode_undoes_encode (mnem : InsnMnemonic) (ops : Operands)
    (hlegal : mnem.format.Legal ops) :
    decode (mnem.encode ops) = some mnem ∧
      mnem.format.ReadsFields ⟨mnem.encode ops⟩ ops ∧
      mnem.format.ReadsImm ⟨mnem.encode ops⟩ ops :=
  ⟨decode_encode mnem ops, mnem.format.readsFields_word ops,
    mnem.format.readsImm_word ops hlegal⟩

/-- A backward branch of 4096 bytes. -/
theorem decode_undoes_encode_farBranch :
    let ops : Operands := ⟨0, 31, 1, 0, 0, 0, 0, -4096⟩
    decode (InsnMnemonic.BGEU.encode ops) = some .BGEU ∧
      InsnMnemonic.BGEU.format.ReadsFields ⟨InsnMnemonic.BGEU.encode ops⟩ ops ∧
      InsnMnemonic.BGEU.format.ReadsImm ⟨InsnMnemonic.BGEU.encode ops⟩ ops :=
  decode_undoes_encode .BGEU ⟨0, 31, 1, 0, 0, 0, 0, -4096⟩
    ⟨by decide, by decide, by decide⟩

end RiscvSim
