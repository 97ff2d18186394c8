import RiscvSim.Sim.FlagAccrual
import RiscvSim.Spec.Binary32

/-!
The minimum and the maximum, which the code reads off a single comparison. The
comparison is false as soon as an operand is a NaN, and true of two zeros in
either order, so what is written there depends on where an operand stands.
-/

namespace RiscvSim

open SimM Binary32

variable {H : Type}

inductive MinMaxInsn where
  | FMIN_S | FMAX_S
  deriving DecidableEq

namespace MinMaxInsn

def mnem : MinMaxInsn → InsnMnemonic
  | .FMIN_S => .FMIN_S
  | .FMAX_S => .FMAX_S

/-- What the instruction is to pick of its operands. -/
def Specified : MinMaxInsn → FRegister → FRegister → FRegister → Prop
  | .FMIN_S => IsMinimum
  | .FMAX_S => IsMaximum

/-- The operand for a comparison that holds. -/
def ordered (a b : FRegister) : MinMaxInsn → FRegister
  | .FMIN_S => a
  | .FMAX_S => b

/-- The operand for a comparison that does not hold. -/
def unordered (a b : FRegister) : MinMaxInsn → FRegister
  | .FMIN_S => b
  | .FMAX_S => a

/-- The operands are not the positive zero before the negative one, and the operand
for a comparison that does not hold is the right one if there are NaNs. -/
structure RightOn (a b : FRegister) (insn : MinMaxInsn) : Prop where
  zeros : ¬ (a = pattern false 0 ∧ b = pattern true 0)
  oneNaN : ¬ (IsNaN a ↔ IsNaN b) → ¬ IsNaN (insn.unordered a b)
  twoNaNs : IsNaN a → IsNaN b → insn.unordered a b = canonicalNaN

end MinMaxInsn

/-- The comparison of the standard. -/
def ComparesLe (lib : SoftFloat) : Prop :=
  ∀ a b, (lib.f32_le a b).1 = true ↔ ¬ IsNaN a ∧ ¬ IsNaN b ∧ represented a ≤ represented b

/-- The iteration writes what the instruction is to pick, and goes on to the next
instruction. -/
def PicksOperand (env : Env H) (insn : MinMaxInsn) (word : UndecodedInsn) (m : Machine H) :
    Prop :=
  let fields : RvInsn := ⟨word⟩
  ∃ res m', (executeInsn env).run m = .ok () m' ∧
    insn.Specified (m.sim.getFReg fields.rs1Index) (m.sim.getFReg fields.rs2Index) res ∧
    m'.sim = (m.sim.setFReg fields.rdIndex res).step

namespace MinMaxInsn

/-- What the callbacks write. -/
def result (lib : SoftFloat) (a b : FRegister) (insn : MinMaxInsn) : FRegister :=
  if (lib.f32_le a b).1 then insn.ordered a b else insn.unordered a b

theorem callback_run (env : Env H) (m : Machine H) (word : UndecodedInsn) (insn : MinMaxInsn) :
    ∃ m', (getInsnCallback env insn.mnem word).run m = .ok () m' ∧
      m'.sim = (m.sim.setFReg (RvInsn.mk word).rdIndex
        (insn.result env.softfloat (m.sim.getFReg (RvInsn.mk word).rs1Index)
          (m.sim.getFReg (RvInsn.mk word).rs2Index))).step := by
  cases insn with
  | FMIN_S => exact ⟨_, rfl, rfl⟩
  | FMAX_S => exact ⟨_, rfl, rfl⟩

section Result

variable {lib : SoftFloat} {a b : FRegister}

/-- With a NaN the comparison does not hold. -/
theorem result_nan (hle : ComparesLe lib) (hnan : IsNaN a ∨ IsNaN b) (insn : MinMaxInsn) :
    insn.result lib a b = insn.unordered a b := by
  have hfalse : ¬ (lib.f32_le a b).1 = true := by
    rw [hle]
    rintro ⟨ha, hb, -⟩
    exact hnan.elim ha hb
  rw [result, if_neg hfalse]

/-- Of two numbers, each operand is right when it comes first. -/
theorem specified_iff_rank (ha : ¬ IsNaN a) (hb : ¬ IsNaN b) (insn : MinMaxInsn) :
    (insn.Specified a b (insn.ordered a b) ↔ rank a ≤ rank b) ∧
      (insn.Specified a b (insn.unordered a b) ↔ rank b ≤ rank a) := by
  cases insn with
  | FMIN_S =>
      exact ⟨Picks.left_iff minimum_picksBy ha hb, Picks.right_iff minimum_picksBy ha hb⟩
  | FMAX_S =>
      exact ⟨(Picks.right_iff maximum_picksBy ha hb).trans neg_le_neg_iff,
        (Picks.left_iff maximum_picksBy ha hb).trans neg_le_neg_iff⟩

/-- Two numbers: the comparison does not tell the zeros apart. -/
theorem specified_numbers_iff (hle : ComparesLe lib) (ha : ¬ IsNaN a) (hb : ¬ IsNaN b)
    (insn : MinMaxInsn) :
    insn.Specified a b (insn.result lib a b) ↔ ¬ (a = pattern false 0 ∧ b = pattern true 0) := by
  obtain ⟨hordered, hunordered⟩ := specified_iff_rank ha hb insn
  have hcompare : (lib.f32_le a b).1 = true ↔ ordinal a ≤ ordinal b := by
    rw [hle, represented_le_iff ha hb, and_iff_right ha, and_iff_right hb]
  rw [result]
  by_cases hord : ordinal a ≤ ordinal b
  · rw [if_pos (hcompare.mpr hord), hordered, ← rank_lt_iff_zeros hord, not_lt]
  · rw [if_neg (mt hcompare.mp hord), hunordered]
    have hless : Precedes b a := .inl ((represented_lt_iff hb ha).mpr (not_le.mp hord))
    refine iff_of_true ((precedes_iff hb ha).mp hless) ?_
    rintro ⟨rfl, rfl⟩
    exact hord (by decide)

theorem unordered_mem (a b : FRegister) (insn : MinMaxInsn) :
    insn.unordered a b = a ∨ insn.unordered a b = b := by
  cases insn with
  | FMIN_S => exact .inr rfl
  | FMAX_S => exact .inl rfl

theorem specified_one_iff (insn : MinMaxInsn) (hone : ¬ (IsNaN a ↔ IsNaN b)) :
    insn.Specified a b (insn.unordered a b) ↔ ¬ IsNaN (insn.unordered a b) := by
  have hmem := insn.unordered_mem a b
  cases insn with
  | FMIN_S => exact Picks.one_nan_iff hmem hone
  | FMAX_S => exact Picks.one_nan_iff hmem hone

theorem specified_two_iff (insn : MinMaxInsn) (ha : IsNaN a) (hb : IsNaN b) :
    insn.Specified a b (insn.unordered a b) ↔ insn.unordered a b = canonicalNaN := by
  cases insn with
  | FMIN_S => exact Picks.two_nans_iff ha hb
  | FMAX_S => exact Picks.two_nans_iff ha hb

theorem not_isNaN_pattern_zero (sign : Bool) : ¬ IsNaN (pattern sign 0) := by
  cases sign with
  | false => decide
  | true => decide

theorem specified_result_iff (hle : ComparesLe lib) (insn : MinMaxInsn) :
    insn.Specified a b (insn.result lib a b) ↔ insn.RightOn a b := by
  by_cases ha : IsNaN a
  · have hzeros : ¬ (a = pattern false 0 ∧ b = pattern true 0) := by
      rintro ⟨rfl, -⟩
      exact not_isNaN_pattern_zero false ha
    rw [result_nan hle (.inl ha)]
    by_cases hb : IsNaN b
    · rw [specified_two_iff insn ha hb]
      exact ⟨fun hres => ⟨hzeros, fun hone => absurd (iff_of_true ha hb) hone, fun _ _ => hres⟩,
        fun hright => hright.twoNaNs ha hb⟩
    · have hone : ¬ (IsNaN a ↔ IsNaN b) := fun hboth => hb (hboth.mp ha)
      rw [specified_one_iff insn hone]
      exact ⟨fun hres => ⟨hzeros, fun _ => hres, fun _ hnan => absurd hnan hb⟩,
        fun hright => hright.oneNaN hone⟩
  · by_cases hb : IsNaN b
    · have hzeros : ¬ (a = pattern false 0 ∧ b = pattern true 0) := by
        rintro ⟨-, rfl⟩
        exact not_isNaN_pattern_zero true hb
      have hone : ¬ (IsNaN a ↔ IsNaN b) := fun hboth => ha (hboth.mpr hb)
      rw [result_nan hle (.inr hb), specified_one_iff insn hone]
      exact ⟨fun hres => ⟨hzeros, fun _ => hres, fun hnan => absurd hnan ha⟩,
        fun hright => hright.oneNaN hone⟩
    · rw [specified_numbers_iff hle ha hb]
      exact ⟨fun hzeros => ⟨hzeros, fun hone => absurd (iff_of_false ha hb) hone,
        fun hnan => absurd hnan ha⟩, RightOn.zeros⟩

end Result

end MinMaxInsn

section Iteration

variable (env : Env H) (insn : MinMaxInsn) {m : Machine H} {word : UndecodedInsn}

theorem picksOperand_iff_result (hfetch : m.sim.memory.fetch env.build m.sim.ip = .ok word)
    (hdecode : decode word = some insn.mnem) :
    PicksOperand env insn word m ↔
      insn.Specified (m.sim.getFReg (RvInsn.mk word).rs1Index)
        (m.sim.getFReg (RvInsn.mk word).rs2Index)
        (insn.result env.softfloat (m.sim.getFReg (RvInsn.mk word).rs1Index)
          (m.sim.getFReg (RvInsn.mk word).rs2Index)) := by
  obtain ⟨m', hrun, hsim⟩ := insn.callback_run env m word
  have hexecute := (executeInsn_run env hfetch hdecode).trans hrun
  constructor
  · rintro ⟨res, m'', hrun', hspecified, hwritten⟩
    cases hexecute.symm.trans hrun'
    have hres : insn.result env.softfloat (m.sim.getFReg (RvInsn.mk word).rs1Index)
        (m.sim.getFReg (RvInsn.mk word).rs2Index) = res := by
      have hrd := congrArg (·.getFReg (RvInsn.mk word).rdIndex) (hsim.symm.trans hwritten)
      simpa only [RVSim.getFReg_step, RVSim.getFReg_setFReg, if_true] using hrd
    rw [hres]
    exact hspecified
  · intro hspecified
    exact ⟨_, m', hexecute, hspecified, hsim⟩

/-- The minimum and the maximum are right on two numbers, unless they are the
positive zero before the negative one; with NaNs they are right where the operand
for a comparison that does not hold happens to be the one to write. -/
theorem minMax_iff (hle : ComparesLe env.softfloat)
    (hfetch : m.sim.memory.fetch env.build m.sim.ip = .ok word)
    (hdecode : decode word = some insn.mnem) :
    PicksOperand env insn word m ↔
      insn.RightOn (m.sim.getFReg (RvInsn.mk word).rs1Index)
        (m.sim.getFReg (RvInsn.mk word).rs2Index) := by
  rw [picksOperand_iff_result env insn hfetch hdecode, MinMaxInsn.specified_result_iff hle]

end Iteration

/-- A library with the comparison of the standard. -/
def SoftFloat.comparing : SoftFloat :=
  { SoftFloat.integers with
    f32_le := fun a b => (decide (¬ IsNaN a ∧ ¬ IsNaN b ∧ ordinal a ≤ ordinal b),
      if IsNaN a ∨ IsNaN b then softfloat_flag_invalid else 0) }

def comparingEnv : Env (List MemByte) := { queueEnv with softfloat := .comparing }

theorem comparingEnv_comparesLe : ComparesLe comparingEnv.softfloat := by
  intro a b
  change decide _ = true ↔ _
  rw [decide_eq_true_iff]
  constructor
  · rintro ⟨ha, hb, hle⟩
    exact ⟨ha, hb, (represented_le_iff ha hb).mpr hle⟩
  · rintro ⟨ha, hb, hle⟩
    exact ⟨ha, hb, (represented_le_iff ha hb).mp hle⟩

/-- Of the two zeros, the negative one comes first. -/
theorem minMax_zeros :
    PicksOperand comparingEnv .FMIN_S minWord (operandMachine minWord 0x80000000 0 0) := by
  have hright : MinMaxInsn.FMIN_S.RightOn 0x80000000 0 :=
    ⟨by decide, fun hone => absurd (by decide) hone, fun hnan => absurd hnan (by decide)⟩
  exact (minMax_iff comparingEnv .FMIN_S comparingEnv_comparesLe (operandMachine_fetch _ _ _ _ _)
    (decode_encode _ _)).mpr hright

/-- The minimum of these operands. -/
theorem minWord_run (a b : FRegister) :
    ∃ m', (executeInsn comparingEnv).run (operandMachine minWord a b 0) = .ok () m' ∧
      m'.sim.getFReg 3 = MinMaxInsn.FMIN_S.result .comparing a b ∧
      (PicksOperand comparingEnv .FMIN_S minWord (operandMachine minWord a b 0) ↔
        MinMaxInsn.FMIN_S.RightOn a b) := by
  obtain ⟨m', hrun, hsim⟩ :=
    MinMaxInsn.FMIN_S.callback_run comparingEnv (operandMachine minWord a b 0) minWord
  have hdecode : decode minWord = some MinMaxInsn.FMIN_S.mnem := decode_encode _ _
  have hrd : (RvInsn.mk minWord).rdIndex = 3 := by decide
  have hrs1 : (RvInsn.mk minWord).rs1Index = 1 := by decide
  have hrs2 : (RvInsn.mk minWord).rs2Index = 2 := by decide
  have ha : (operandMachine minWord a b 0).sim.getFReg 1 = a := by
    rw [operandMachine_getFReg]
    rfl
  have hb : (operandMachine minWord a b 0).sim.getFReg 2 = b := by
    rw [operandMachine_getFReg]
    rfl
  refine ⟨m', (executeInsn_run comparingEnv (operandMachine_fetch minWord a b 0 _) hdecode).trans hrun, ?_, ?_⟩
  · rw [hsim, hrd, hrs1, hrs2, ha, hb]
    rw [RVSim.getFReg_step, RVSim.getFReg_setFReg, if_pos rfl]
    rfl
  · rw [picksOperand_iff_result comparingEnv .FMIN_S (operandMachine_fetch minWord a b 0 _) hdecode,
      MinMaxInsn.specified_result_iff comparingEnv_comparesLe, hrs1, hrs2, ha, hb]

/-- The minimum of the positive and the negative zero comes out positive, and the
minimum of one and a NaN comes out as the NaN. -/
theorem minimum_of_zeros_and_nan :
    ComparesLe comparingEnv.softfloat ∧ decode minWord = some .FMIN_S ∧
      IsMinimum (pattern false 0) (pattern true 0) (pattern true 0) ∧
      ¬ PicksOperand comparingEnv .FMIN_S minWord
        (operandMachine minWord (pattern false 0) (pattern true 0) 0) ∧
      ¬ PicksOperand comparingEnv .FMIN_S minWord
        (operandMachine minWord 0x3f800000 canonicalNaN 0) ∧
      ∃ m₁ m₂,
        (executeInsn comparingEnv).run
          (operandMachine minWord (pattern false 0) (pattern true 0) 0) = .ok () m₁ ∧
        (executeInsn comparingEnv).run
          (operandMachine minWord 0x3f800000 canonicalNaN 0) = .ok () m₂ ∧
        m₁.sim.getFReg 3 = pattern false 0 ∧ m₂.sim.getFReg 3 = canonicalNaN := by
  obtain ⟨m₁, hrun₁, hwritten₁, hpicks₁⟩ := minWord_run (pattern false 0) (pattern true 0)
  obtain ⟨m₂, hrun₂, hwritten₂, hpicks₂⟩ := minWord_run 0x3f800000 canonicalNaN
  refine ⟨comparingEnv_comparesLe, decode_encode _ _, ?_, ?_, ?_, m₁, m₂, hrun₁, hrun₂,
    hwritten₁.trans (by decide), hwritten₂.trans (by decide)⟩
  · exact (Picks.right_iff minimum_picksBy (by decide) (by decide)).mpr (by decide)
  · rw [hpicks₁]
    intro hright
    exact hright.zeros ⟨rfl, rfl⟩
  · rw [hpicks₂]
    intro hright
    exact hright.oneNaN (by decide) (by decide)

end RiscvSim
