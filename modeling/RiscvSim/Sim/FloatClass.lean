import RiscvSim.Sim.FlagAccrual
import RiscvSim.Spec.FloatClass

/-!
`fclass.s` against the ten classes of the manual: the table of shifts gives the
class of the operand, so that the written word has the one bit of that class.
-/

namespace RiscvSim

open Binary32

variable {H : Type}

/-- The shift that the `switch` selects. -/
def fclassShift (lib : SoftFloat) (rs : FRegister) : Nat :=
  match fpclassify rs with
  | .infinite => if signbit rs then 0 else 7
  | .nan => if lib.f32_isSignalingNaN rs then 8 else 9
  | .normal => if signbit rs then 1 else 6
  | .subnormal => if signbit rs then 2 else 5
  | .zero => if signbit rs then 3 else 4

theorem callbackFCLASS_S_run (env : Env H) (word : UndecodedInsn) (m : Machine H) :
    (callbackFCLASS_S env word).run m =
      .ok () (m.mapSim fun sim => (sim.setXReg (RvInsn.mk word).rdIndex
        ((1 : Register) <<< fclassShift env.softfloat
          (m.sim.getFReg (RvInsn.mk word).rs1Index))).step) := rfl

/-- The library tells a signaling NaN by its quiet bit. -/
theorem isSignalingNaN_eq (x : FRegister) :
    isSignalingNaN x = (decide (fpclassify x = .nan) && !quiet x) := by
  have hquiet : quiet x = x.getLsbD 22 := by
    rw [quiet, BitVec.msb_eq_getLsbD_last, fraction, BitVec.getLsbD_extractLsb']
    rfl
  rw [isSignalingNaN, hquiet]

theorem fpclassify_eq (x : FRegister) :
    fpclassify x =
      if exponent x = 0xff then if fraction x = 0 then .infinite else .nan
      else if exponent x = 0 then if fraction x = 0 then .zero else .subnormal
      else .normal := rfl

/-- Each shift of the table is the class of the pattern. -/
theorem fclassShift_eq_classOf {lib : SoftFloat}
    (hlib : ∀ val, lib.f32_isSignalingNaN val = isSignalingNaN val) (x : FRegister) :
    fclassShift lib x = classOf x := by
  have hclass := fpclassify_eq x
  unfold fclassShift classOf
  by_cases hones : exponent x = 0xff
  · rw [if_pos hones] at hclass ⊢
    by_cases hfraction : fraction x = 0
    · rw [if_pos hfraction] at hclass ⊢
      rw [hclass]
      rfl
    · rw [if_neg hfraction] at hclass ⊢
      rw [hclass, hlib, isSignalingNaN_eq, hclass, decide_eq_true rfl, Bool.true_and]
      cases quiet x with
      | true => rfl
      | false => rfl
  · rw [if_neg hones] at hclass ⊢
    by_cases hzeros : exponent x = 0
    · rw [if_pos hzeros] at hclass ⊢
      by_cases hfraction : fraction x = 0
      · rw [if_pos hfraction] at hclass ⊢
        rw [hclass]
        rfl
      · rw [if_neg hfraction] at hclass ⊢
        rw [hclass]
        rfl
    · rw [if_neg hzeros] at hclass ⊢
      rw [hclass]
      rfl

/-- Behind the instruction `rd` holds the one bit of the operand's class; every
pattern has one class, and the other sign has the mirrored one but for a NaN. -/
theorem fclass_oneHot (env : Env H)
    (hlib : ∀ val, env.softfloat.f32_isSignalingNaN val = isSignalingNaN val)
    (word : UndecodedInsn) (m : Machine H) :
    let insn := RvInsn.mk word
    let x := m.sim.getFReg insn.rs1Index
    (∃ (val : Register) (k : Nat), HasClass x k ∧
      (callbackFCLASS_S env word).run m =
        .ok () (m.mapSim fun sim => (sim.setXReg insn.rdIndex val).step) ∧
      (m.sim.setXReg insn.rdIndex val).step.getXReg insn.rdIndex =
        (if insn.rdIndex = XRegAlias.zero then 0 else val) ∧
      ∀ i, val.getLsbD i = decide (i = k)) ∧
    ∀ y : FRegister,
      (∃! k, HasClass y k) ∧ (∀ k, HasClass y k → k ≤ 9) ∧
      (∀ k ≤ 7, HasClass (flipSign y) (7 - k) ↔ HasClass y k) ∧
      ∀ k, 8 ≤ k → (HasClass (flipSign y) k ↔ HasClass y k) := by
  intro insn x
  refine ⟨⟨_, classOf x, hasClass_classOf x, callbackFCLASS_S_run env word m, ?_, ?_⟩, ?_⟩
  · exact m.sim.getXReg_step_setXReg insn.rdIndex _
  · intro i
    have hle := (hasClass_classOf x).le
    have hshift : (1 : Register) <<< classOf x = BitVec.twoPow 32 (classOf x) :=
      (BitVec.twoPow_eq 32 (classOf x)).symm
    rw [fclassShift_eq_classOf hlib, hshift, BitVec.getLsbD_twoPow,
      decide_eq_true (by omega : classOf x < 32), Bool.true_and]
    exact decide_eq_decide.mpr eq_comm
  · intro y
    exact ⟨existsUnique_hasClass y, fun _ => HasClass.le, fun _ => hasClass_flipSign_iff,
      fun _ => hasClass_nan_flipSign_iff⟩

/-- A library that tells the signaling NaNs. -/
def SoftFloat.classifiesNaN : SoftFloat :=
  { SoftFloat.integers with f32_isSignalingNaN := isSignalingNaN }

/-- `fclass.s x3, f1`. -/
def classWord : UndecodedInsn := InsnMnemonic.FCLASS_S.encode ⟨3, 1, 0, 0, 0, 0, 0, 0⟩

def classifyEnv : Env (List MemByte) := { queueEnv with softfloat := .classifiesNaN }

/-- Behind a signaling NaN `x3` has bit 8 set. -/
theorem fclass_oneHot_signaling :
    ∃ val : Register, (callbackFCLASS_S classifyEnv classWord).run
        (operandMachine classWord 0x7f800001 0 0) =
          .ok () ((operandMachine classWord 0x7f800001 0 0).mapSim fun sim =>
            (sim.setXReg (RvInsn.mk classWord).rdIndex val).step) ∧
      ((operandMachine classWord 0x7f800001 0 0).sim.setXReg
        (RvInsn.mk classWord).rdIndex val).step.getXReg (RvInsn.mk classWord).rdIndex = val ∧
      ∀ i, val.getLsbD i = decide (i = 8) := by
  obtain ⟨⟨val, k, hclass, hrun, hread, hval⟩, _⟩ :=
    fclass_oneHot classifyEnv (fun _ => rfl) classWord (operandMachine classWord 0x7f800001 0 0)
  have hindex : (RvInsn.mk classWord).rs1Index.val = 1 := by decide
  rw [operandMachine_getFReg, if_pos hindex] at hclass
  have hk : k = 8 := by
    rw [← hclass.classOf_eq]
    decide
  rw [hk] at hval
  have htarget : (RvInsn.mk classWord).rdIndex ≠ XRegAlias.zero := by decide
  rw [if_neg htarget] at hread
  exact ⟨val, hrun, hread, hval⟩

end RiscvSim
