import RiscvSim.Isa.ExtM
import RiscvSim.Isa.HelpersSpec
import RiscvSim.Lib.HighWord
import RiscvSim.Sim.DecodeEncode

/-!
The high multiplications against the exact product of their operands. Both
callbacks multiply in 64 bits and keep the upper half, so what they write
depends on how they widen the registers: `MULH` reads both without their signs,
`MULHSU` reads both with them.
-/

namespace RiscvSim

open HighWord SimM

variable {H : Type}

theorem truncLow_eq {fromBits : Nat} (toBits : Nat) (x : BitVec fromBits) :
    truncLow toBits x = (x >>> (fromBits - toBits)).setWidth toBits :=
  truncHigh_eq toBits _

/-- The upper half of a product that was computed exactly. -/
theorem truncLow_ofInt (product : Int) :
    truncLow 32 (BitVec.ofInt 64 product) = highWord 32 product := by
  rw [truncLow_eq]
  exact setWidth_ofInt_shiftRight product

theorem mulWI_ok {a b : WIRegister} (hlow : -2 ^ 63 ≤ a.toInt * b.toInt)
    (hhigh : a.toInt * b.toInt < 2 ^ 63) :
    mulWI a b = .ok (BitVec.ofInt 64 (a.toInt * b.toInt)) :=
  if_pos ⟨hlow, hhigh⟩

theorem mulWI_overflow {a b : WIRegister} (h : 2 ^ 63 ≤ a.toInt * b.toInt) :
    mulWI a b = .error .signedOverflow := by
  apply if_neg
  rintro ⟨-, hhigh⟩
  omega

/-- Widening by zeros drops the sign. -/
theorem toInt_setWidth_64 (x : Register) : (x.setWidth 64).toInt = x.toNat := by
  have hx := x.isLt
  rw [BitVec.toInt_eq_toNat_of_lt, BitVec.toNat_setWidth_of_le (by decide)]
  rw [BitVec.toNat_setWidth_of_le (by decide)]
  omega

theorem toInt_signExtend_64 (x : Register) : (x.signExtend 64).toInt = x.toInt :=
  BitVec.toInt_signExtend_of_le (by decide)

/-- The product of two signed words fits in a signed double word. -/
theorem signed_product_bounds (x y : Register) :
    -2 ^ 63 ≤ x.toInt * y.toInt ∧ x.toInt * y.toInt < 2 ^ 63 := by
  have hxlow : -2 ^ 31 ≤ x.toInt := x.le_toInt
  have hxhigh : x.toInt < 2 ^ 31 := x.toInt_lt
  have hylow : -2 ^ 31 ≤ y.toInt := y.le_toInt
  have hyhigh : y.toInt < 2 ^ 31 := y.toInt_lt
  constructor
  · nlinarith
  · nlinarith

section Runs

variable (word : UndecodedInsn) (m : Machine H)

/-- The low half is the same for every reading of the signs. -/
theorem callbackMUL_run :
    (callbackMUL word).run m =
      let insn : RvInsn := ⟨word⟩
      .ok () (m.mapSim fun sim =>
        (sim.setXReg insn.rdIndex
          (m.sim.getXReg insn.rs1Index * m.sim.getXReg insn.rs2Index)).step) := by
  have hlow (x y : Register) : truncHigh 32 (x.setWidth 64 * y.setWidth 64) = x * y := by
    rw [truncHigh_eq, BitVec.setWidth_mul _ _ (by decide), BitVec.setWidth_setWidth_of_le _ (by decide),
      BitVec.setWidth_setWidth_of_le _ (by decide), BitVec.setWidth_eq, BitVec.setWidth_eq]
  simp only [callbackMUL, EStateM.run_bind, run_getXReg, run_setXReg, run_step, hlow]
  rfl

variable {word m}

theorem callbackMULH_run {x y : Register} (hx : m.sim.getXReg (RvInsn.mk word).rs1Index = x)
    (hy : m.sim.getXReg (RvInsn.mk word).rs2Index = y) (hfits : x.toNat * y.toNat < 2 ^ 63) :
    (callbackMULH word).run m =
      .ok () (m.mapSim fun sim =>
        (sim.setXReg (RvInsn.mk word).rdIndex (highWord 32 (x.toNat * y.toNat))).step) := by
  have hmul : mulWI (x.setWidth 64) (y.setWidth 64) =
      .ok (BitVec.ofInt 64 (x.toNat * y.toNat)) := by
    have hproduct : (x.setWidth 64).toInt * (y.setWidth 64).toInt = x.toNat * y.toNat := by
      rw [toInt_setWidth_64, toInt_setWidth_64]
    rw [← hproduct]
    apply mulWI_ok
    · omega
    · rw [hproduct]
      exact_mod_cast hfits
  subst hx hy
  simp only [callbackMULH, EStateM.run_bind, run_getXReg]
  rw [hmul, ← truncLow_ofInt]
  rfl

theorem callbackMULH_overflow {x y : Register}
    (hx : m.sim.getXReg (RvInsn.mk word).rs1Index = x)
    (hy : m.sim.getXReg (RvInsn.mk word).rs2Index = y) (hlarge : 2 ^ 63 ≤ x.toNat * y.toNat) :
    (callbackMULH word).run m = .error .signedOverflow m := by
  have hmul : mulWI (x.setWidth 64) (y.setWidth 64) = .error .signedOverflow := by
    apply mulWI_overflow
    rw [toInt_setWidth_64, toInt_setWidth_64]
    exact_mod_cast hlarge
  subst hx hy
  simp only [callbackMULH, EStateM.run_bind, run_getXReg]
  rw [hmul]
  rfl

theorem callbackMULHSU_run {x y : Register} (hx : m.sim.getXReg (RvInsn.mk word).rs1Index = x)
    (hy : m.sim.getXReg (RvInsn.mk word).rs2Index = y) :
    (callbackMULHSU word).run m =
      .ok () (m.mapSim fun sim =>
        (sim.setXReg (RvInsn.mk word).rdIndex (highWord 32 (x.toInt * y.toInt))).step) := by
  have hmul : mulWI (wRegToWIReg (signExt 64 x)) ((regToIReg y).signExtend 64) =
      .ok (BitVec.ofInt 64 (x.toInt * y.toInt)) := by
    have hproduct : (wRegToWIReg (signExt 64 x)).toInt * ((regToIReg y).signExtend 64).toInt =
        x.toInt * y.toInt := by
      rw [wRegToWIReg, regToIReg, signExt_eq (by decide) (by decide), toInt_signExtend_64,
        toInt_signExtend_64]
    obtain ⟨hlow, hhigh⟩ := signed_product_bounds x y
    rw [← hproduct] at hlow hhigh ⊢
    exact mulWI_ok hlow hhigh
  subst hx hy
  simp only [callbackMULHSU, EStateM.run_bind, run_getXReg]
  rw [hmul, ← truncLow_ofInt]
  rfl

end Runs

/-- Writes to one register are told apart by their values, except in `x0`. -/
theorem setXReg_step_eq_iff (m : Machine H) (rd : RegIndex) (value value' : Register) :
    (.ok () (m.mapSim fun sim => (sim.setXReg rd value).step) :
        EStateM.Result Fault (Machine H) Unit) =
      .ok () (m.mapSim fun sim => (sim.setXReg rd value').step) ↔
      rd = XRegAlias.zero ∨ value = value' := by
  constructor
  · intro h
    injection h with _ hmachine
    have hread := congrArg (·.sim.getXReg rd) hmachine
    simp only [Machine.mapSim_sim, RVSim.getXReg_step, RVSim.getXReg_setXReg, if_true] at hread
    by_cases hzero : rd = XRegAlias.zero
    · exact Or.inl hzero
    · rw [if_neg hzero, if_neg hzero] at hread
      exact Or.inr hread
  · rintro (rfl | rfl)
    · rfl
    · rfl

section Exact

variable (word : UndecodedInsn) (m : Machine H)

/-- `MULH` completes and puts the upper word of the signed product into `rd`. -/
def MulhExact : Prop :=
  let insn : RvInsn := ⟨word⟩
  let x := m.sim.getXReg insn.rs1Index
  let y := m.sim.getXReg insn.rs2Index
  (callbackMULH word).run m =
    .ok () (m.mapSim fun sim =>
      (sim.setXReg insn.rdIndex (highWord 32 (x.toInt * y.toInt))).step)

/-- `MULHSU` completes and puts the upper word of the product of the signed
first and the unsigned second operand into `rd`. -/
def MulhsuExact : Prop :=
  let insn : RvInsn := ⟨word⟩
  let x := m.sim.getXReg insn.rs1Index
  let y := m.sim.getXReg insn.rs2Index
  (callbackMULHSU word).run m =
    .ok () (m.mapSim fun sim =>
      (sim.setXReg insn.rdIndex (highWord 32 (x.toInt * y.toNat))).step)

end Exact

/-- The operands for which the signs make no difference in the upper word. -/
def SignsIrrelevant (x y : Register) : Prop :=
  (x.msb = false ∧ y.msb = false) ∨ x = 0 ∨ y = 0 ∨
    (x = BitVec.intMin 32 ∧ y = BitVec.intMin 32)

/-- What the dropped signs add to the upper word. -/
theorem dropped_signs_eq_zero_iff (x y : Register) :
    ((if x.msb then y else 0) + if y.msb then x else 0) = 0#32 ↔
      SignsIrrelevant x y := by
  have hxlt := x.isLt
  have hylt := y.isLt
  have hmin : (BitVec.intMin 32).toNat = 2 ^ 31 := by decide
  unfold SignsIrrelevant
  cases hx : x.msb with
  | false =>
      cases hy : y.msb with
      | false => simp
      | true =>
          rw [BitVec.msb_eq_false_iff_two_mul_lt] at hx
          rw [BitVec.msb_eq_true_iff_two_mul_ge] at hy
          simp only [← BitVec.toNat_inj, hmin]
          simp
          omega
  | true =>
      rw [BitVec.msb_eq_true_iff_two_mul_ge] at hx
      cases hy : y.msb with
      | false =>
          rw [BitVec.msb_eq_false_iff_two_mul_lt] at hy
          simp only [← BitVec.toNat_inj, hmin]
          simp
          omega
      | true =>
          -- two negative words add up to zero only at the bottom of the range
          rw [BitVec.msb_eq_true_iff_two_mul_ge] at hy
          simp only [← BitVec.toNat_inj, hmin]
          simp
          omega

theorem SignsIrrelevant.fits {x y : Register} (h : SignsIrrelevant x y) :
    x.toNat * y.toNat < 2 ^ 63 := by
  rcases h with ⟨hx, hy⟩ | rfl | rfl | ⟨rfl, rfl⟩
  · rw [BitVec.msb_eq_false_iff_two_mul_lt] at hx hy
    nlinarith
  · simp
  · simp
  · decide

section Settled

variable (word : UndecodedInsn) (m : Machine H)

theorem callbackMULH_writes_iff {x y : Register}
    (hx : m.sim.getXReg (RvInsn.mk word).rs1Index = x)
    (hy : m.sim.getXReg (RvInsn.mk word).rs2Index = y) :
    (callbackMULH word).run m =
        .ok () (m.mapSim fun sim =>
          (sim.setXReg (RvInsn.mk word).rdIndex (highWord 32 (x.toInt * y.toInt))).step) ↔
      SignsIrrelevant x y ∨
        ((RvInsn.mk word).rdIndex = XRegAlias.zero ∧ x.toNat * y.toNat < 2 ^ 63) := by
  by_cases hfits : x.toNat * y.toNat < 2 ^ 63
  · rw [callbackMULH_run hx hy hfits, setXReg_step_eq_iff, highWord_toNat_mul_toNat,
      BitVec.add_right_eq_self, dropped_signs_eq_zero_iff]
    constructor
    · rintro (hzero | hsigns)
      · exact Or.inr ⟨hzero, hfits⟩
      · exact Or.inl hsigns
    · rintro (hsigns | ⟨hzero, -⟩)
      · exact Or.inr hsigns
      · exact Or.inl hzero
  · rw [callbackMULH_overflow hx hy (by omega)]
    constructor
    · intro h
      cases h
    · rintro (hsigns | ⟨-, hsmall⟩)
      · exact absurd hsigns.fits hfits
      · exact absurd hsmall hfits

/-- `MULH` writes the upper word of the signed product, and its `int64_t`
product fits, for the operands whose signs make no difference; if it writes
nothing, for those whose product without signs fits. The two halves together
are the exact product. -/
theorem mulh_exact_iff :
    let insn : RvInsn := ⟨word⟩
    let x := m.sim.getXReg insn.rs1Index
    let y := m.sim.getXReg insn.rs2Index
    (MulhExact word m ↔
      SignsIrrelevant x y ∨
        (insn.rdIndex = XRegAlias.zero ∧ x.toNat * y.toNat < 2 ^ 63)) ∧
    (callbackMUL word).run m =
      .ok () (m.mapSim fun sim => (sim.setXReg insn.rdIndex (x * y)).step) ∧
    highWord 32 (x.toInt * y.toInt) ++ (x * y) = BitVec.ofInt 64 (x.toInt * y.toInt) := by
  intro insn x y
  refine ⟨callbackMULH_writes_iff word m rfl rfl, callbackMUL_run word m, ?_⟩
  have hlow : x * y = BitVec.ofInt 32 (x.toInt * y.toInt) := by
    rw [BitVec.ofInt_mul, BitVec.ofInt_toInt, BitVec.ofInt_toInt]
  rw [hlow]
  exact highWord_append _

theorem callbackMULHSU_writes_iff {x y : Register}
    (hx : m.sim.getXReg (RvInsn.mk word).rs1Index = x)
    (hy : m.sim.getXReg (RvInsn.mk word).rs2Index = y) :
    (callbackMULHSU word).run m =
        .ok () (m.mapSim fun sim =>
          (sim.setXReg (RvInsn.mk word).rdIndex (highWord 32 (x.toInt * y.toNat))).step) ↔
      y.msb = false ∨ x = 0 ∨ (RvInsn.mk word).rdIndex = XRegAlias.zero := by
  rw [callbackMULHSU_run hx hy, setXReg_step_eq_iff, highWord_mul_toNat, BitVec.ofInt_toInt,
    BitVec.self_eq_add_right]
  cases y.msb with
  | false => simp
  | true => simp [or_comm]

/-- `MULHSU` reads its second operand with a sign, and writes the right word
where that operand has none or there is nothing to multiply. -/
theorem mulhsu_exact_iff :
    let insn : RvInsn := ⟨word⟩
    MulhsuExact word m ↔
      (m.sim.getXReg insn.rs2Index).msb = false ∨ m.sim.getXReg insn.rs1Index = 0 ∨
        insn.rdIndex = XRegAlias.zero :=
  callbackMULHSU_writes_iff word m rfl rfl

end Settled

/-- `mulh x3, x1, x2`. -/
def mulhWord : UndecodedInsn := InsnMnemonic.MULH.encode ⟨3, 1, 2, 0, 0, 0, 0, 0⟩

/-- `mulhsu x3, x1, x2`. -/
def mulhsuWord : UndecodedInsn := InsnMnemonic.MULHSU.encode ⟨3, 1, 2, 0, 0, 0, 0, 0⟩

/-- About to multiply these two registers. -/
def multiplyingMachine (x y : Register) : Machine (List MemByte) where
  sim :=
    { memory := ⟨[]⟩
      ip := 0x1000
      shouldStop := false
      xregs := Vector.ofFn fun i => if i.val = 1 then x else if i.val = 2 then y else 0
      fregs := Vector.replicate 32 0
      fcsr := 0 }
  softfloat := ⟨0, 0⟩
  host := []

/-- Minus one times one: the upper word written is that of a positive product. -/
theorem mulh_minus_one :
    ∃ m', (callbackMULH mulhWord).run (multiplyingMachine 0xffffffff 1) = .ok () m' ∧
      m'.sim.getXReg 3 = 0 ∧
      highWord 32 ((0xffffffff : Register).toInt * (1 : Register).toInt) = 0xffffffff ∧
      ¬ MulhExact mulhWord (multiplyingMachine 0xffffffff 1) := by
  have hrun : (callbackMULH mulhWord).run (multiplyingMachine 0xffffffff 1) = _ :=
    callbackMULH_run (x := 0xffffffff) (y := 1) rfl rfl (by decide)
  refine ⟨_, hrun, by decide, by decide, ?_⟩
  intro hexact
  rw [MulhExact, hrun] at hexact
  rcases (setXReg_step_eq_iff _ _ _ _).mp hexact with hzero | hvalue
  · exact absurd hzero (by decide)
  · exact absurd hvalue (by decide)

/-- The operands of the repository's own test: minus one times `2 ^ 31`. -/
theorem mulhsu_minus_one :
    ∃ m', (callbackMULHSU mulhsuWord).run (multiplyingMachine 0xffffffff 0x80000000) =
        .ok () m' ∧
      m'.sim.getXReg 3 = 0 ∧
      highWord 32 ((0xffffffff : Register).toInt * (0x80000000 : Register).toNat) =
        0xffffffff ∧
      ¬ MulhsuExact mulhsuWord (multiplyingMachine 0xffffffff 0x80000000) := by
  have hrun : (callbackMULHSU mulhsuWord).run (multiplyingMachine 0xffffffff 0x80000000) = _ :=
    callbackMULHSU_run (x := 0xffffffff) (y := 0x80000000) rfl rfl
  refine ⟨_, hrun, by decide, by decide, ?_⟩
  intro hexact
  rw [MulhsuExact, hrun] at hexact
  rcases (setXReg_step_eq_iff _ _ _ _).mp hexact with hzero | hvalue
  · exact absurd hzero (by decide)
  · exact absurd hvalue (by decide)

end RiscvSim
