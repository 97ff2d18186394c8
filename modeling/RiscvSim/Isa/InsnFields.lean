import RiscvSim.Isa.Insn

/-!
The accessors of an instruction word as concatenations of its bit fields: each
scattered immediate is put together from the fields in the order of its bits,
and then sign-extended from its own width.
-/

namespace RiscvSim

theorem shiftRight_and_mask (word : BitVec 32) (start len : Nat) {mask : BitVec 32}
    (hmask : mask = (BitVec.allOnes len).setWidth 32) :
    (word >>> start) &&& mask = (word.extractLsb' start len).setWidth 32 := by
  subst hmask
  apply BitVec.eq_of_getLsbD_eq
  intro i hi
  simp only [BitVec.getLsbD_and, BitVec.getLsbD_ushiftRight, BitVec.getLsbD_setWidth,
    BitVec.getLsbD_allOnes, BitVec.getLsbD_extractLsb', hi, decide_true, Bool.true_and]
  exact Bool.and_comm _ _

/-- A shift without a mask keeps the whole upper end of the word. -/
theorem shiftRight_eq_field (word : BitVec 32) {start len : Nat} (h : start + len = 32) :
    word >>> start = (word.extractLsb' start len).setWidth 32 := by
  apply BitVec.eq_of_getLsbD_eq
  intro i hi
  rw [BitVec.getLsbD_ushiftRight, BitVec.getLsbD_setWidth, BitVec.getLsbD_extractLsb']
  by_cases hlen : i < len
  · simp [hi, hlen]
  · have hhigh : word.getLsbD (start + i) = false := BitVec.getLsbD_of_ge _ _ (by omega)
    simp [hlen, hhigh]

theorem xor_eq_or {x y : BitVec 32} (h : x &&& y = 0#32) : x ^^^ y = x ||| y := by
  apply BitVec.eq_of_getLsbD_eq
  intro i hi
  have hbit := congrArg (·.getLsbD i) h
  simp only [BitVec.getLsbD_and, BitVec.getLsbD_zero] at hbit
  rw [BitVec.getLsbD_xor, BitVec.getLsbD_or]
  cases hx : x.getLsbD i <;> cases hy : y.getLsbD i <;> simp_all

theorem xor_add_of_subset {x y : BitVec 32} (h : x &&& y = y) : (x ^^^ y) + y = x := by
  have hapart : (x ^^^ y) &&& y = 0#32 := by
    apply BitVec.eq_of_getLsbD_eq
    intro i hi
    have hbit := congrArg (·.getLsbD i) h
    simp only [BitVec.getLsbD_and] at hbit
    rw [BitVec.getLsbD_and, BitVec.getLsbD_xor, BitVec.getLsbD_zero]
    cases hx : x.getLsbD i <;> cases hy : y.getLsbD i <;> simp_all
  rw [BitVec.add_eq_or_of_and_eq_zero _ _ hapart]
  apply BitVec.eq_of_getLsbD_eq
  intro i hi
  have hbit := congrArg (·.getLsbD i) h
  simp only [BitVec.getLsbD_and] at hbit
  rw [BitVec.getLsbD_or, BitVec.getLsbD_xor]
  cases hx : x.getLsbD i <;> cases hy : y.getLsbD i <;> simp_all

/-- Flipping the sign bit of a zero-extended field and subtracting it again. -/
theorem xor_sub_signBit {bits : Nat} (hpos : 0 < bits) (hbits : bits < 32)
    (field : BitVec bits) :
    (field.setWidth 32 ^^^ BitVec.twoPow 32 (bits - 1)) - BitVec.twoPow 32 (bits - 1) =
      field.signExtend 32 := by
  have hbit : (field.setWidth 32).getLsbD (bits - 1) = field.msb := by
    rw [BitVec.getLsbD_setWidth, BitVec.msb_eq_getLsbD_last]
    simp
    omega
  have hand := BitVec.and_twoPow (field.setWidth 32) (bits - 1)
  rw [hbit] at hand
  cases hmsb : field.msb with
  | false =>
      rw [hmsb, if_neg (by decide)] at hand
      rw [xor_eq_or hand, ← BitVec.add_eq_or_of_and_eq_zero _ _ hand, BitVec.add_sub_cancel,
        BitVec.signExtend_eq_setWidth_of_msb_false hmsb]
  | true =>
      rw [hmsb, if_pos rfl] at hand
      have hflip := xor_add_of_subset hand
      rw [← BitVec.eq_sub_iff_add_eq] at hflip
      have hfield := field.isLt
      have hhalf : 2 ^ bits = 2 * 2 ^ (bits - 1) := by
        rw [← Nat.pow_succ', Nat.succ_eq_add_one, Nat.sub_add_cancel hpos]
      have hpow : 2 ^ bits ≤ 2 ^ 31 := Nat.pow_le_pow_right (by omega) (by omega)
      have hsign : (BitVec.twoPow 32 (bits - 1)).toNat = 2 ^ (bits - 1) :=
        BitVec.toNat_twoPow_of_lt (by omega)
      have hvalue : (field.setWidth 32).toNat = field.toNat := by
        rw [BitVec.toNat_setWidth, Nat.mod_eq_of_lt (by omega)]
      apply BitVec.eq_of_toNat_eq
      rw [hflip, BitVec.toNat_sub, BitVec.toNat_sub, BitVec.toNat_signExtend, hmsb, if_pos rfl,
        hsign, hvalue]
      omega

/-- The mask of the low bits, as the source computes it. -/
theorem one_shiftLeft_sub_one {w bits : Nat} (hbits : bits < w) :
    ((1 : BitVec w) <<< bits) - 1 = (BitVec.allOnes bits).setWidth w := by
  apply BitVec.eq_of_toNat_eq
  have hone : 2 ^ bits < 2 ^ w := Nat.pow_lt_pow_right (by omega) hbits
  have hpow : 0 < 2 ^ bits := Nat.two_pow_pos bits
  have htoNat : (1 : BitVec w).toNat = 1 := BitVec.toNat_one (by omega)
  rw [BitVec.toNat_sub, BitVec.toNat_shiftLeft, BitVec.toNat_setWidth, BitVec.toNat_allOnes,
    htoNat, Nat.shiftLeft_eq, Nat.one_mul, Nat.mod_eq_of_lt hone]
  have hsum : 2 ^ w - 1 + 2 ^ bits = 2 ^ bits - 1 + 2 ^ w := by omega
  rw [hsum, Nat.add_mod_right]

theorem setWidth_and_mask {w bits : Nat} (field : BitVec bits) :
    field.setWidth w &&& (BitVec.allOnes bits).setWidth w = field.setWidth w := by
  apply BitVec.eq_of_getLsbD_eq
  intro i hi
  rw [BitVec.getLsbD_and, BitVec.getLsbD_setWidth, BitVec.getLsbD_setWidth,
    BitVec.getLsbD_allOnes]
  by_cases hlen : i < bits
  · simp only [hlen, decide_true, Bool.and_true, Bool.and_self, hi, Bool.true_and]
  · simp [BitVec.getLsbD_of_ge field i (by omega)]

theorem signExtend_field {bits : Nat} (hpos : 0 < bits) (hbits : bits < 32)
    (field : BitVec bits) : signExtend (field.setWidth 32) bits = field.signExtend 32 := by
  have hunfold : signExtend (field.setWidth 32) bits =
      ((field.setWidth 32 &&& (((1 : BitVec 32) <<< bits) - 1)) ^^^
        (1 : BitVec 32) <<< (bits - 1)) - (1 : BitVec 32) <<< (bits - 1) := rfl
  have hsign : (1 : BitVec 32) <<< (bits - 1) = BitVec.twoPow 32 (bits - 1) :=
    (BitVec.twoPow_eq 32 (bits - 1)).symm
  rw [hunfold, one_shiftLeft_sub_one hbits, setWidth_and_mask, hsign]
  exact xor_sub_signBit hpos hbits field

namespace RvInsn

variable (insn : RvInsn)

theorem rd_eq : insn.rd = (insn.rawInsn.extractLsb' 7 5).setWidth 32 :=
  shiftRight_and_mask insn.rawInsn 7 5 rfl

theorem rs1_eq : insn.rs1 = (insn.rawInsn.extractLsb' 15 5).setWidth 32 :=
  shiftRight_and_mask insn.rawInsn 15 5 rfl

theorem rs2_eq : insn.rs2 = (insn.rawInsn.extractLsb' 20 5).setWidth 32 :=
  shiftRight_and_mask insn.rawInsn 20 5 rfl

theorem shamt_eq : insn.shamt = (insn.rawInsn.extractLsb' 20 5).setWidth 32 :=
  shiftRight_and_mask insn.rawInsn 20 5 rfl

theorem rs3_eq : insn.rs3 = (insn.rawInsn.extractLsb' 27 5).setWidth 32 :=
  shiftRight_and_mask insn.rawInsn 27 5 rfl

theorem rm_eq : insn.rm = (insn.rawInsn.extractLsb' 12 3).setWidth 32 :=
  shiftRight_and_mask insn.rawInsn 12 3 rfl

theorem immCSR_eq : insn.immCSR = (insn.rawInsn.extractLsb' 20 12).setWidth 32 :=
  shiftRight_eq_field insn.rawInsn rfl

theorem immI_eq : insn.immI = (insn.rawInsn.extractLsb' 20 12).signExtend 32 := by
  rw [immI, shiftRight_eq_field insn.rawInsn (rfl : 20 + 12 = 32)]
  exact signExtend_field (by decide) (by decide) _

theorem immS_eq : insn.immS =
    (insn.rawInsn.extractLsb' 25 7 ++ insn.rawInsn.extractLsb' 7 5).signExtend 32 := by
  rw [← signExtend_field (by decide) (by decide)]
  unfold immS
  rw [shiftRight_and_mask insn.rawInsn 7 5 (by decide),
    shiftRight_and_mask insn.rawInsn 25 7 (by decide),
    BitVec.setWidth_append_eq_shiftLeft_setWidth_or, BitVec.or_comm]

theorem immB_eq : insn.immB =
    (insn.rawInsn.extractLsb' 31 1 ++ insn.rawInsn.extractLsb' 7 1 ++
      insn.rawInsn.extractLsb' 25 6 ++ insn.rawInsn.extractLsb' 8 4 ++ 0#1).signExtend 32 := by
  rw [← signExtend_field (by decide) (by decide)]
  unfold immB
  rw [shiftRight_and_mask insn.rawInsn 31 1 (by decide),
    shiftRight_and_mask insn.rawInsn 7 1 (by decide),
    shiftRight_and_mask insn.rawInsn 25 6 (by decide),
    shiftRight_and_mask insn.rawInsn 8 4 (by decide)]
  simp only [BitVec.setWidth_append_eq_shiftLeft_setWidth_or, BitVec.shiftLeft_or_distrib,
    ← BitVec.shiftLeft_add, BitVec.setWidth_zero, BitVec.or_zero]

theorem immU_eq : insn.immU = insn.rawInsn.extractLsb' 12 20 ++ 0#12 := by
  apply BitVec.eq_of_getLsbD_eq
  intro i hi
  have hmask : (0xFFFFF000 : BitVec 32) = (BitVec.allOnes 20).setWidth 32 <<< 12 := by decide
  rw [immU, hmask, BitVec.getLsbD_and, BitVec.getLsbD_shiftLeft, BitVec.getLsbD_setWidth,
    BitVec.getLsbD_allOnes, BitVec.getLsbD_append, BitVec.getLsbD_extractLsb']
  by_cases hlow : i < 12
  · simp [hlow]
  · have hindex : 12 + (i - 12) = i := by omega
    have hlen : i - 12 < 20 := by omega
    have hback : i - 12 < 32 := by omega
    simp [hi, hlow, hindex, hlen, hback]

theorem immJ_eq : insn.immJ =
    (insn.rawInsn.extractLsb' 31 1 ++ insn.rawInsn.extractLsb' 12 8 ++
      insn.rawInsn.extractLsb' 20 1 ++ insn.rawInsn.extractLsb' 21 10 ++ 0#1).signExtend 32 := by
  rw [← signExtend_field (by decide) (by decide)]
  unfold immJ
  rw [shiftRight_and_mask insn.rawInsn 31 1 (by decide),
    shiftRight_and_mask insn.rawInsn 12 8 (by decide),
    shiftRight_and_mask insn.rawInsn 20 1 (by decide),
    shiftRight_and_mask insn.rawInsn 21 10 (by decide)]
  simp only [BitVec.setWidth_append_eq_shiftLeft_setWidth_or, BitVec.shiftLeft_or_distrib,
    ← BitVec.shiftLeft_add, BitVec.setWidth_zero, BitVec.or_zero]

end RvInsn

end RiscvSim
