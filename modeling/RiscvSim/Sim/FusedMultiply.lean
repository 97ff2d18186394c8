import RiscvSim.Sim.CanonicalNaN
import RiscvSim.Spec.FusedMulAdd

/-!
The four fused multiply-adds. Three of them change the sign of an operand and the
fourth the sign of the result, behind the rounding; the standard changes the
signs of operands only.
-/

namespace RiscvSim

open SimM Binary32 Rounding

variable {H : Type}

inductive FusedInsn where
  | FMADD_S | FMSUB_S | FNMSUB_S | FNMADD_S
  deriving DecidableEq

namespace FusedInsn

def arithmetic : FusedInsn → ArithmeticInsn
  | .FMADD_S => .FMADD_S
  | .FMSUB_S => .FMSUB_S
  | .FNMSUB_S => .FNMSUB_S
  | .FNMADD_S => .FNMADD_S

/-- The factor that goes into the product. -/
def factor (a : FRegister) : FusedInsn → FRegister
  | .FMADD_S | .FMSUB_S => a
  | .FNMSUB_S | .FNMADD_S => negate a

/-- The term that is added to it. -/
def addend (c : FRegister) : FusedInsn → FRegister
  | .FMADD_S | .FNMSUB_S => c
  | .FMSUB_S | .FNMADD_S => negate c

/-- The instruction with the same product that adds its third operand as it is. -/
def additive : FusedInsn → FusedInsn
  | .FMADD_S | .FMSUB_S => .FMADD_S
  | .FNMSUB_S | .FNMADD_S => .FNMSUB_S

/-- The result of the standard, with the exceptions; nothing for a NaN. -/
def specified (direction : Direction) (a b c : FRegister) (insn : FusedInsn) :
    Option (FRegister × BitVec 8) :=
  fusedMulAdd direction (insn.factor a) b (insn.addend c)

end FusedInsn

/-- The library's operation is the one of the standard, in every direction. -/
def FusesOnce (lib : SoftFloat) : Prop :=
  ∀ direction a b c res, fusedMulAdd direction a b c = some res →
    lib.f32_mulAdd (softfloatRound direction) a b c = res

/-- The machine is about to execute this instruction, on these operands and in this
direction. -/
structure FusedReady (env : Env H) (insn : FusedInsn) (word : UndecodedInsn) (m : Machine H)
    (direction : Direction) (a b c : FRegister) : Prop where
  fetched : m.sim.memory.fetch env.build m.sim.ip = .ok word
  decoded : decode word = some insn.arithmetic.rounding.mnem
  selected : (m.sim.selectedRM ⟨word⟩).direction? = some direction
  rs1 : m.sim.getFReg (RvInsn.mk word).rs1Index = a
  rs2 : m.sim.getFReg (RvInsn.mk word).rs2Index = b
  rs3 : m.sim.getFReg (RvInsn.mk word).rs3Index = c

/-- The iteration writes these bits, raises these flags and goes on to the next
instruction. -/
def WritesResult (env : Env H) (word : UndecodedInsn) (m : Machine H) (direction : Direction)
    (res : FRegister × BitVec 8) : Prop :=
  (executeInsn env).run m =
    .ok () (m.afterRounding ⟨word⟩ (softfloatRound direction) (.fReg res.1 res.2))

/-- The instruction gives the result of the standard, and so does its additive sibling
on the operands with the sign of the third one changed as the instruction does. -/
def FusesAsSpecified (env : Env H) (insn : FusedInsn) (word : UndecodedInsn) (m : Machine H)
    (direction : Direction) (a b c : FRegister) (res : FRegister × BitVec 8) : Prop :=
  WritesResult env word m direction res ∧
    ∀ word' m', FusedReady env insn.additive word' m' direction a b (insn.addend c) →
      WritesResult env word' m' direction res

section Iteration

variable {env : Env H} {insn : FusedInsn} {word : UndecodedInsn} {m : Machine H}
variable {direction : Direction} {a b c : FRegister} {res : FRegister × BitVec 8}

/-- What the callback makes of the library's result. -/
def FusedInsn.computed (lib : SoftFloat) (mode : BitVec 8) (a b c : FRegister)
    (insn : FusedInsn) : FRegister × BitVec 8 :=
  let res := insn.arithmetic.returned lib mode a b c
  (insn.arithmetic.written res.1, res.2)

theorem FusedReady.executes (h : FusedReady env insn word m direction a b c) :
    WritesResult env word m direction
      (insn.computed env.softfloat (softfloatRound direction) a b c) := by
  have hrun := insn.arithmetic.executeInsn_run env h.fetched h.decoded
    (RoundingMode.softfloat?_of_direction h.selected)
  simp only [h.rs1, h.rs2, h.rs3] at hrun
  exact hrun

/-- Results are told apart by the bits in the register and by the library's flags. -/
theorem FusedReady.writesResult_iff (h : FusedReady env insn word m direction a b c) :
    WritesResult env word m direction res ↔
      insn.computed env.softfloat (softfloatRound direction) a b c = res := by
  constructor
  · intro hwrites
    injection h.executes.symm.trans hwrites with _ hmachine
    have hbits := congrArg (·.sim.getFReg (RvInsn.mk word).rdIndex) hmachine
    have hflags := congrArg (·.softfloat.exceptionFlags) hmachine
    simp only [Machine.afterRounding, RVSim.getFReg_retire] at hbits
    exact Prod.ext hbits hflags
  · rintro rfl
    exact h.executes

/-- Where the sign of an operand is changed, the library is asked for what the standard
says. -/
theorem FusedInsn.computed_of_operand_sign (hlib : FusesOnce env.softfloat)
    (hinsn : insn ≠ .FNMADD_S) (hres : insn.specified direction a b c = some res) :
    insn.computed env.softfloat (softfloatRound direction) a b c = res := by
  cases insn with
  | FMADD_S => exact hlib direction a b c res hres
  | FMSUB_S =>
      change env.softfloat.f32_mulAdd (softfloatRound direction) a b (f32_neg c) = res
      rw [f32_neg_eq_negate]
      exact hlib direction a b (negate c) res hres
  | FNMSUB_S =>
      change env.softfloat.f32_mulAdd (softfloatRound direction) (f32_neg a) b c = res
      rw [f32_neg_eq_negate]
      exact hlib direction (negate a) b c res hres
  | FNMADD_S => exact absurd rfl hinsn

/-- Where the sign of the result is changed, the sum was rounded with the other sign. -/
theorem FusedInsn.computed_of_result_sign (hlib : FusesOnce env.softfloat)
    (hres : FusedInsn.FNMADD_S.specified direction a b c = some res) :
    FusedInsn.FNMADD_S.computed env.softfloat (softfloatRound direction) a b c = res ↔
      NegatesAlike direction a b c := by
  obtain ⟨sum, hsum, hnegate⟩ := fusedMulAdd_negate_iff direction a b c hres
  have hreturned := hlib direction a b c sum hsum
  change (f32_neg (env.softfloat.f32_mulAdd (softfloatRound direction) a b c).1,
    (env.softfloat.f32_mulAdd (softfloatRound direction) a b c).2) = res ↔ _
  rw [hreturned, f32_neg_eq_negate]
  exact hnegate

theorem FusedInsn.computed_iff (hlib : FusesOnce env.softfloat)
    (hres : insn.specified direction a b c = some res) :
    insn.computed env.softfloat (softfloatRound direction) a b c = res ↔
      (insn = .FNMADD_S → NegatesAlike direction a b c) := by
  by_cases hinsn : insn = .FNMADD_S
  · subst hinsn
    rw [FusedInsn.computed_of_result_sign hlib hres]
    exact ⟨fun h _ => h, fun h => h rfl⟩
  · exact iff_of_true (FusedInsn.computed_of_operand_sign hlib hinsn hres)
      fun hsame => absurd hsame hinsn

/-- The additive sibling is given the same product and the same term. -/
theorem FusedInsn.specified_additive (insn : FusedInsn) :
    insn.additive.specified direction a b (insn.addend c) = insn.specified direction a b c := by
  cases insn <;> rfl

/-- The fused multiply-adds are those of the standard, except that `FNMADD.S` rounds the
sum with the wrong sign: it is right where rounding does not depend on the sign. -/
theorem fusesAsSpecified_iff (hlib : FusesOnce env.softfloat)
    (hready : FusedReady env insn word m direction a b c)
    (hres : insn.specified direction a b c = some res) :
    FusesAsSpecified env insn word m direction a b c res ↔
      (insn = .FNMADD_S → NegatesAlike direction a b c) := by
  rw [FusesAsSpecified, hready.writesResult_iff, FusedInsn.computed_iff hlib hres]
  refine and_iff_left fun word' m' hsibling => ?_
  rw [hsibling.writesResult_iff]
  refine FusedInsn.computed_of_operand_sign hlib ?_ (insn.specified_additive.trans hres)
  cases insn <;> decide

end Iteration

/-- A library with the operation of the standard, and the platform's NaN. -/
def SoftFloat.fusing : SoftFloat :=
  { SoftFloat.integers with
    f32_mulAdd := fun mode a b c =>
      (fusedMulAdd (roundDirection mode) a b c).getD (0xffc00000, softfloat_flag_invalid) }

def fusingEnv : Env (List MemByte) := { queueEnv with softfloat := .fusing }

theorem fusingEnv_fusesOnce : FusesOnce fusingEnv.softfloat := by
  intro direction a b c res hres
  change (fusedMulAdd (roundDirection (softfloatRound direction)) a b c).getD _ = res
  rw [roundDirection_softfloatRound, hres]
  rfl

/-- The mode field for a direction. -/
def rmField : Direction → BitVec 3
  | .nearestEven => 0
  | .towardZero => 1
  | .down => 2
  | .up => 3
  | .nearestAway => 4

/-- `fnmadd.s f4, f1, f2, f3` in a direction. -/
def negatedWord (direction : Direction) : UndecodedInsn :=
  InsnMnemonic.FNMADD_S.encode ⟨4, 1, 2, 3, rmField direction, 0, 0, 0⟩

theorem negatedWord_fields (direction : Direction) :
    (RvInsn.mk (negatedWord direction)).rdIndex = 4 ∧
      (RvInsn.mk (negatedWord direction)).rs1Index = 1 ∧
      (RvInsn.mk (negatedWord direction)).rs2Index = 2 ∧
      (RvInsn.mk (negatedWord direction)).rs3Index = 3 := by
  cases direction <;> decide

theorem negatedWord_ready (direction : Direction) (a b c : FRegister) :
    FusedReady fusingEnv .FNMADD_S (negatedWord direction)
      (operandMachine (negatedWord direction) a b c) direction a b c := by
  obtain ⟨-, hrs1, hrs2, hrs3⟩ := negatedWord_fields direction
  constructor
  · exact operandMachine_fetch _ _ _ _ _
  · exact decode_encode _ _
  · rw [operandMachine_selectedRM]
    cases direction <;> decide
  · rw [hrs1, operandMachine_getFReg]
    rfl
  · rw [hrs2, operandMachine_getFReg]
    rfl
  · rw [hrs3, operandMachine_getFReg]
    rfl

/-- One times two plus three, negated. -/
theorem fusesAsSpecified_five :
    FusesAsSpecified fusingEnv .FNMADD_S (negatedWord .nearestEven)
      (operandMachine (negatedWord .nearestEven) 0x3f800000 0x40000000 0x40400000)
      .nearestEven 0x3f800000 0x40000000 0x40400000 (0xc0a00000, 0) := by
  have hres : FusedInsn.FNMADD_S.specified .nearestEven 0x3f800000 0x40000000 0x40400000 =
      some (0xc0a00000, 0) := by
    decide
  refine (fusesAsSpecified_iff fusingEnv_fusesOnce (negatedWord_ready _ _ _ _) hres).mpr
    fun _ _ _ _ => ⟨fun hcancels => ?_, ?_⟩
  · rw [exactSum_eq_zero_iff] at hcancels
    exact absurd hcancels (by decide)
  · rintro (hdown | hup)
    · cases hdown
    · cases hup

/-- Negating one times one less one gives the other zero, and rounding up gives a number
below. -/
theorem negated_after_rounding :
    FusesOnce fusingEnv.softfloat ∧
      FusedReady fusingEnv .FNMADD_S (negatedWord .nearestEven)
        (operandMachine (negatedWord .nearestEven) 0x3f800000 0x3f800000 0xbf800000)
        .nearestEven 0x3f800000 0x3f800000 0xbf800000 ∧
      FusedInsn.FNMADD_S.specified .nearestEven 0x3f800000 0x3f800000 0xbf800000 =
        some (0, 0) ∧
      WritesResult fusingEnv (negatedWord .nearestEven)
        (operandMachine (negatedWord .nearestEven) 0x3f800000 0x3f800000 0xbf800000)
        .nearestEven (0x80000000, 0) ∧
      ¬ FusesAsSpecified fusingEnv .FNMADD_S (negatedWord .nearestEven)
        (operandMachine (negatedWord .nearestEven) 0x3f800000 0x3f800000 0xbf800000)
        .nearestEven 0x3f800000 0x3f800000 0xbf800000 (0, 0) ∧
      FusedInsn.FNMADD_S.specified .up 0x3f800001 0x3f800001 0 =
        some (0xbf800002, inexactFlag) ∧
      WritesResult fusingEnv (negatedWord .up)
        (operandMachine (negatedWord .up) 0x3f800001 0x3f800001 0) .up
        (0xbf800003, inexactFlag) := by
  have hzero := negatedWord_ready .nearestEven 0x3f800000 0x3f800000 0xbf800000
  have hup := negatedWord_ready .up 0x3f800001 0x3f800001 0
  refine ⟨fusingEnv_fusesOnce, hzero, by decide, hzero.writesResult_iff.mpr (by decide), ?_,
    by decide, hup.writesResult_iff.mpr (by decide)⟩
  rintro ⟨hwrites, -⟩
  exact absurd (hzero.writesResult_iff.mp hwrites) (by decide)

end RiscvSim
