import RiscvSim.Isa.ExtM

/-!
The division callbacks ask for the two operands that the host's own division
leaves undefined before they divide, so each of them completes on all operands.
What the special cases write satisfies the same laws as a quotient and a
remainder that the host computed.
-/

namespace RiscvSim

open SimM

variable {H : Type}

section Values

/-- What `DIV` and `REM` put into the destination. -/
def quotientI (x y : IRegister) : IRegister :=
  if y = 0 then -1 else if x = BitVec.intMin 32 ∧ y = -1 then BitVec.intMin 32 else x.sdiv y

def remainderI (x y : IRegister) : IRegister :=
  if y = 0 then x else if x = BitVec.intMin 32 ∧ y = -1 then 0 else x.srem y

/-- What `DIVU` and `REMU` do. -/
def quotientU (x y : Register) : Register := if y = 0 then BitVec.allOnes 32 else x / y

def remainderU (x y : Register) : Register := if y = 0 then x else x % y

variable {x y : IRegister}

theorem divI_defined (hzero : ¬ y = 0) (hoverflow : ¬ (x = BitVec.intMin 32 ∧ y = -1)) :
    divI x y = .ok (quotientI x y) := by
  rw [divI, if_neg (not_or.mpr ⟨hzero, hoverflow⟩), quotientI, if_neg hzero, if_neg hoverflow]

theorem modI_defined (hzero : ¬ y = 0) (hoverflow : ¬ (x = BitVec.intMin 32 ∧ y = -1)) :
    modI x y = .ok (remainderI x y) := by
  rw [modI, if_neg (not_or.mpr ⟨hzero, hoverflow⟩), remainderI, if_neg hzero, if_neg hoverflow]

theorem divU_defined (hzero : ¬ y = 0) : divU x y = .ok (quotientU x y) := by
  rw [divU, if_neg hzero, quotientU, if_neg hzero]

theorem modU_defined (hzero : ¬ y = 0) : modU x y = .ok (remainderU x y) := by
  rw [modU, if_neg hzero, remainderU, if_neg hzero]

end Values

section Runs

variable (word : UndecodedInsn) (m : Machine H)

/-- The machine behind a callback that wrote this value. -/
abbrev Machine.afterWriteX (m : Machine H) (insn : RvInsn) (value : Register) : Machine H :=
  m.mapSim fun sim => (sim.setXReg insn.rdIndex value).step

theorem callbackDIV_run :
    (callbackDIV word).run m = .ok () (m.afterWriteX ⟨word⟩
      (quotientI (regToIReg (m.sim.getXReg (RvInsn.mk word).rs1Index))
        (regToIReg (m.sim.getXReg (RvInsn.mk word).rs2Index)))) := by
  simp only [callbackDIV, EStateM.run_bind, run_getXReg]
  split
  · rename_i hzero
    rw [quotientI, if_pos hzero]
    rfl
  · rename_i hzero
    split
    · rename_i hoverflow
      rw [quotientI, if_neg hzero, if_pos hoverflow]
      rfl
    · rename_i hoverflow
      rw [divI_defined hzero hoverflow]
      rfl

theorem callbackREM_run :
    (callbackREM word).run m = .ok () (m.afterWriteX ⟨word⟩
      (remainderI (regToIReg (m.sim.getXReg (RvInsn.mk word).rs1Index))
        (regToIReg (m.sim.getXReg (RvInsn.mk word).rs2Index)))) := by
  simp only [callbackREM, EStateM.run_bind, run_getXReg]
  split
  · rename_i hzero
    rw [remainderI, if_pos hzero]
    rfl
  · rename_i hzero
    split
    · rename_i hoverflow
      rw [remainderI, if_neg hzero, if_pos hoverflow]
      rfl
    · rename_i hoverflow
      rw [modI_defined hzero hoverflow]
      rfl

theorem callbackDIVU_run :
    (callbackDIVU word).run m = .ok () (m.afterWriteX ⟨word⟩
      (quotientU (m.sim.getXReg (RvInsn.mk word).rs1Index)
        (m.sim.getXReg (RvInsn.mk word).rs2Index))) := by
  simp only [callbackDIVU, EStateM.run_bind, run_getXReg]
  split
  · rename_i hzero
    rw [quotientU, if_pos hzero]
    rfl
  · rename_i hzero
    rw [divU_defined hzero]
    rfl

theorem callbackREMU_run :
    (callbackREMU word).run m = .ok () (m.afterWriteX ⟨word⟩
      (remainderU (m.sim.getXReg (RvInsn.mk word).rs1Index)
        (m.sim.getXReg (RvInsn.mk word).rs2Index))) := by
  simp only [callbackREMU, EStateM.run_bind, run_getXReg]
  split
  · rename_i hzero
    rw [remainderU, if_pos hzero]
    rfl
  · rename_i hzero
    rw [modU_defined hzero]
    rfl

end Runs

section Laws

variable (x y : Register)

/-- What the four results of a division owe to each other and to the operands. -/
structure DivisionLaws (q r qu ru : Register) : Prop where
  split : q * y + r = x
  remainder_lt : y ≠ 0 → r.toInt.natAbs < y.toInt.natAbs
  remainder_sign : y ≠ 0 → r.toInt = 0 ∨ r.toInt.sign = x.toInt.sign
  quotient : y ≠ 0 → ¬ (x = BitVec.intMin 32 ∧ y = -1) → q.toInt = x.toInt.tdiv y.toInt
  unsigned_split : qu * y + ru = x
  unsigned_remainder_lt : y ≠ 0 → ru.toNat < y.toNat
  zero_divisor : y = 0 → q = -1 ∧ qu.toNat = 2 ^ 32 - 1 ∧ r = x ∧ ru = x

variable {x y}

theorem quotientI_toInt (hzero : y ≠ 0) (hoverflow : ¬ (x = BitVec.intMin 32 ∧ y = -1)) :
    (quotientI x y).toInt = x.toInt.tdiv y.toInt := by
  rw [quotientI, if_neg hzero, if_neg hoverflow]
  apply BitVec.toInt_sdiv_of_ne_or_ne
  rwa [← not_and_or]

/-- The remainder set for the overflowing pair is the one that the pair has. -/
theorem remainderI_toInt (hzero : y ≠ 0) : (remainderI x y).toInt = x.toInt.tmod y.toInt := by
  rw [remainderI, if_neg hzero]
  split
  · rename_i hoverflow
    obtain ⟨rfl, rfl⟩ := hoverflow
    decide
  · exact BitVec.toInt_srem x y

theorem quotientI_mul_add_remainderI (x y : IRegister) :
    quotientI x y * y + remainderI x y = x := by
  by_cases hzero : y = 0
  · subst hzero
    simp [remainderI]
  by_cases hoverflow : x = BitVec.intMin 32 ∧ y = -1
  · obtain ⟨rfl, rfl⟩ := hoverflow
    decide
  -- the quotient fits, so the law of the integers holds of the words
  have hquotient := quotientI_toInt hzero hoverflow
  have hremainder := remainderI_toInt (x := x) hzero
  have hlaw : (quotientI x y).toInt * y.toInt + (remainderI x y).toInt = x.toInt := by
    rw [hquotient, hremainder, Int.mul_comm]
    exact Int.mul_tdiv_add_tmod x.toInt y.toInt
  have hword := congrArg (BitVec.ofInt 32) hlaw
  rwa [BitVec.ofInt_add, BitVec.ofInt_mul, BitVec.ofInt_toInt, BitVec.ofInt_toInt,
    BitVec.ofInt_toInt, BitVec.ofInt_toInt] at hword

theorem remainderI_natAbs_lt (hzero : y ≠ 0) :
    (remainderI x y).toInt.natAbs < y.toInt.natAbs := by
  have hne : y.toInt ≠ 0 := by
    intro h
    exact hzero (BitVec.toInt_inj.mp (h.trans BitVec.toInt_zero.symm))
  rw [remainderI_toInt hzero, Int.natAbs_tmod]
  exact Nat.mod_lt _ (Int.natAbs_pos.mpr hne)

theorem remainderI_sign (hzero : y ≠ 0) :
    (remainderI x y).toInt = 0 ∨ (remainderI x y).toInt.sign = x.toInt.sign := by
  rw [remainderI_toInt hzero, ← Int.sign_eq_zero_iff_zero, Int.sign_tmod]
  split
  · exact .inl rfl
  · exact .inr rfl

theorem quotientU_mul_add_remainderU (x y : Register) :
    quotientU x y * y + remainderU x y = x := by
  by_cases hzero : y = 0
  · subst hzero
    simp [remainderU]
  rw [quotientU, if_neg hzero, remainderU, if_neg hzero]
  apply BitVec.eq_of_toNat_eq
  have hsplit := Nat.div_add_mod' x.toNat y.toNat
  rw [BitVec.toNat_add, BitVec.toNat_mul, BitVec.toNat_udiv, BitVec.toNat_umod, Nat.mod_add_mod,
    hsplit, Nat.mod_eq_of_lt x.isLt]

theorem remainderU_lt (hzero : y ≠ 0) : (remainderU x y).toNat < y.toNat := by
  have hpos : 0 < y.toNat := by
    refine Nat.pos_of_ne_zero fun h => hzero ?_
    exact BitVec.eq_of_toNat_eq h
  rw [remainderU, if_neg hzero, BitVec.toNat_umod]
  exact Nat.mod_lt _ hpos

theorem divisionLaws (x y : Register) :
    DivisionLaws x y (quotientI x y) (remainderI x y) (quotientU x y) (remainderU x y) where
  split := quotientI_mul_add_remainderI x y
  remainder_lt := remainderI_natAbs_lt
  remainder_sign := remainderI_sign
  quotient := quotientI_toInt
  unsigned_split := quotientU_mul_add_remainderU x y
  unsigned_remainder_lt := remainderU_lt
  zero_divisor := by
    rintro rfl
    exact ⟨rfl, rfl, rfl, rfl⟩

end Laws

/-- All four callbacks complete on all operands; the values that `rd` then holds
satisfy the laws of division. -/
theorem division_completes_lawful (word : UndecodedInsn) (m : Machine H) :
    let insn : RvInsn := ⟨word⟩
    let x := m.sim.getXReg insn.rs1Index
    let y := m.sim.getXReg insn.rs2Index
    (callbackDIV word).run m = .ok () (m.afterWriteX insn (quotientI x y)) ∧
      (callbackREM word).run m = .ok () (m.afterWriteX insn (remainderI x y)) ∧
      (callbackDIVU word).run m = .ok () (m.afterWriteX insn (quotientU x y)) ∧
      (callbackREMU word).run m = .ok () (m.afterWriteX insn (remainderU x y)) ∧
      (∀ value, (m.afterWriteX insn value).sim.getXReg insn.rdIndex =
        if insn.rdIndex = XRegAlias.zero then 0 else value) ∧
      DivisionLaws x y (quotientI x y) (remainderI x y) (quotientU x y) (remainderU x y) := by
  intro insn x y
  refine ⟨callbackDIV_run word m, callbackREM_run word m, ?_, ?_, ?_, divisionLaws x y⟩
  · exact callbackDIVU_run word m
  · exact callbackREMU_run word m
  · exact m.sim.getXReg_step_setXReg insn.rdIndex

end RiscvSim
