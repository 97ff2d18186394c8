import RiscvSim.Sim.FloatClass
import RiscvSim.Sim.FusedMultiply
import RiscvSim.Sim.MinMax
import RiscvSim.Sim.SaturatingConversion
import RiscvSim.Spec.Rv32f

/-!
The specified state with the floating-point registers, and what is taken of the
library for a run: that it computes the operations of the standard wherever they
have a result, and the words of its platform where a conversion to an integer has
none.
-/

namespace RiscvSim

open Binary32 Rounding SimM
open Rv32f (CompareOp)

variable {H : Type}

namespace RVSim

/-- The integer part, the floating-point registers, and the two fields of `fcsr`. -/
def toFp (sim : RVSim) : Rv32f.State where
  core := sim.toSpec
  freg r := sim.getFReg (regIndex r)
  status := fpStatus sim.fcsr

variable (sim : RVSim)

theorem toFp_step : sim.step.toFp = sim.toFp.next := rfl

theorem toFp_setXReg (rd : BitVec 5) (value : Register) :
    (sim.setXReg (regIndex rd) value).toFp = sim.toFp.setReg rd value := by
  have hfreg (r : BitVec 5) :
      (sim.setXReg (regIndex rd) value).getFReg (regIndex r) = sim.getFReg (regIndex r) := by
    rw [getFReg, setXReg_fregs]
    rfl
  apply Rv32f.State.ext
  · exact sim.toSpec_setXReg rd value
  · exact funext hfreg
  · exact congrArg fpStatus (sim.setXReg_fcsr _ value)

theorem toFp_setFReg (rd : BitVec 5) (value : FRegister) :
    (sim.setFReg (regIndex rd) value).toFp = sim.toFp.setFReg rd value := by
  apply Rv32f.State.ext
  · rfl
  · funext r
    change (sim.setFReg (regIndex rd) value).getFReg (regIndex r) =
      if r = rd then value else sim.getFReg (regIndex r)
    rw [getFReg_setFReg]
    simp only [regIndex_eq_iff]
  · rfl

theorem toFp_setMem {memory : Memory} {mem : ByteStore.Store 32} (h : memory.byteAt = mem) :
    { sim with memory }.toFp = sim.toFp.setMem mem := by
  subst h
  rfl

theorem fpStatus_raise (raised : BitVec 8) :
    fpStatus (sim.raise raised).fcsr =
      { fpStatus sim.fcsr with fflags := (fpStatus sim.fcsr).fflags ||| raised.setWidth 5 } := by
  refine fpStatus_eq_of_bits ?_ ?_
  · intro i hi
    rw [getLsbD_raise, decide_eq_false (by omega : ¬ 5 + i < 5)]
    simp [fpStatus, hi]
  · intro i hi
    rw [← fflags_raise]
    simp [fpStatus, hi]

theorem toFp_raise (raised : BitVec 8) : (sim.raise raised).toFp = sim.toFp.raise raised := by
  apply Rv32f.State.ext
  · rfl
  · rfl
  · exact sim.fpStatus_raise raised

/-- What the loop needs to be kept. -/
structure LoopKept (sim' : RVSim) : Prop where
  shouldStop : sim'.shouldStop = sim.shouldStop
  layout : sim'.memory.layout = sim.memory.layout

variable {sim}

theorem LoopKept.refl : sim.LoopKept sim := ⟨rfl, rfl⟩

theorem LoopKept.trans {sim' sim'' : RVSim} (h : sim.LoopKept sim') (h' : sim'.LoopKept sim'') :
    sim.LoopKept sim'' :=
  ⟨h'.shouldStop.trans h.shouldStop, h'.layout.trans h.layout⟩

theorem LoopKept.setXReg {sim' : RVSim} (h : sim.LoopKept sim') (i : RegIndex)
    (value : Register) : sim.LoopKept (sim'.setXReg i value) := by
  constructor
  · rw [setXReg_shouldStop, h.shouldStop]
  · rw [setXReg_memory, h.layout]

theorem OthersKept.loopKept {sim' : RVSim} (h : sim.OthersKept sim') : sim.LoopKept sim' :=
  ⟨h.shouldStop, h.layout⟩

end RVSim

section Direction

/-- The casts and the switch name the directions of the manual. -/
theorem direction?_toEnum : ∀ rm frm : BitVec 3,
    (RoundingMode.toEnum
      (if rm.setWidth 32 = 7 then frm.setWidth 32 else rm.setWidth 32)).direction? =
        Rv32f.named (if rm = 7 then frm else rm) := by
  decide

theorem selectedRM_direction? (sim : RVSim) {insn : RvInsn} {rm : BitVec 3}
    (hrm : insn.rm = rm.setWidth 32) :
    (sim.selectedRM insn).direction? = sim.toFp.direction rm := by
  have hfrm : (sim.fcsr >>> 5) &&& 0x7 = (fpStatus sim.fcsr).frm.setWidth 32 :=
    shiftRight_and_mask sim.fcsr 5 3 rfl
  rw [RVSim.selectedRM, hrm, hfrm]
  exact direction?_toEnum rm _

end Direction

/-- The library computes the operations of the standard. -/
structure FollowsStandard (lib : SoftFloat) : Prop where
  add : ∀ direction a b res, Binary32.add direction a b = some res →
    lib.f32_add (softfloatRound direction) a b = res
  subtract : ∀ direction a b res, Binary32.subtract direction a b = some res →
    lib.f32_sub (softfloatRound direction) a b = res
  multiply : ∀ direction a b res, Binary32.multiply direction a b = some res →
    lib.f32_mul (softfloatRound direction) a b = res
  divide : ∀ direction a b res, Binary32.divide direction a b = some res →
    lib.f32_div (softfloatRound direction) a b = res
  squareRoot : ∀ direction a res, Binary32.squareRoot direction a = some res →
    lib.f32_sqrt (softfloatRound direction) a = res
  fuses : FusesOnce lib
  le : ∀ a b, lib.f32_le a b = CompareOp.FLE.eval a b
  lt : ∀ a b, lib.f32_lt a b = CompareOp.FLT.eval a b
  eq : ∀ a b, lib.f32_eq a b = CompareOp.FEQ.eval a b
  converts : ∀ (insn : SaturatingInsn) direction a,
    insn.convert lib a (softfloatRound direction) = insn.onPlatform (softfloatRound direction) a
  ofSigned : ∀ direction x, lib.i32_to_f32 (softfloatRound direction) x =
    fromInteger direction x.toInt
  ofUnsigned : ∀ direction x, lib.ui32_to_f32 (softfloatRound direction) x =
    fromInteger direction x.toNat
  signaling : ∀ x, lib.f32_isSignalingNaN x = isSignalingNaN x

/-- The library of the platform, with all of these operations. -/
def SoftFloat.standard : SoftFloat :=
  { SoftFloat.propagating with
    f32_le := fun a b => CompareOp.FLE.eval a b
    f32_lt := fun a b => CompareOp.FLT.eval a b
    f32_eq := fun a b => CompareOp.FEQ.eval a b
    f32_to_i32 := fun a mode _ => SaturatingInsn.FCVT_W_S.onPlatform mode a
    f32_to_ui32 := fun a mode _ => SaturatingInsn.FCVT_WU_S.onPlatform mode a
    i32_to_f32 := fun mode x => fromInteger (roundDirection mode) x.toInt
    ui32_to_f32 := fun mode x => fromInteger (roundDirection mode) x.toNat
    f32_isSignalingNaN := isSignalingNaN }

/-- The number is the answer where a NaN operand leaves no number. -/
theorem answer_of_some {operands : List FRegister} {number : Option (FRegister × BitVec 8)}
    {res : FRegister × BitVec 8} (hnan : firstNaN operands ≠ none → number = none)
    (hres : number = some res) : answer operands number = res := by
  have hfirst : firstNaN operands = none := by
    by_contra hsome
    rw [hnan hsome] at hres
    cases hres
  rw [answer_of_number hfirst, hres]
  rfl

theorem answer_pair_of_some {a b : FRegister} {number : Option (FRegister × BitVec 8)}
    {res : FRegister × BitVec 8} (hnan : IsNaN a ∨ IsNaN b → number = none)
    (hres : number = some res) : answer [a, b] number = res := by
  refine answer_of_some (fun hfirst => hnan ?_) hres
  rw [ne_eq, firstNaN_pair_eq_none_iff] at hfirst
  tauto

theorem SoftFloat.standard_follows : FollowsStandard SoftFloat.standard := by
  have hdirection := roundDirection_softfloatRound
  constructor
  · intro direction a b res hres
    rw [← hdirection direction] at hres
    exact answer_pair_of_some (fun hnan => add_eq_none_iff.mpr (hnan.imp_right .inl)) hres
  · intro direction a b res hres
    rw [← hdirection direction] at hres
    exact answer_pair_of_some (fun hnan => subtract_eq_none_iff.mpr (hnan.imp_right .inl)) hres
  · intro direction a b res hres
    rw [← hdirection direction] at hres
    exact answer_pair_of_some (fun hnan => multiply_eq_none_iff.mpr (hnan.imp_right .inl)) hres
  · intro direction a b res hres
    rw [← hdirection direction] at hres
    exact answer_pair_of_some (fun hnan => divide_eq_none_iff.mpr (hnan.imp_right .inl)) hres
  · intro direction a res hres
    rw [← hdirection direction] at hres
    refine answer_of_some (fun hfirst => squareRoot_eq_none_iff.mpr (.inl ?_)) hres
    rw [ne_eq, firstNaN_eq_none_iff] at hfirst
    simpa using hfirst
  · intro direction a b c res hres
    rw [← hdirection direction] at hres
    refine answer_of_some (fun hfirst => fusedMulAdd_eq_none_iff.mpr ?_) hres
    rw [ne_eq, firstNaN_fused_eq_none_iff] at hfirst
    tauto
  · exact fun _ _ => rfl
  · exact fun _ _ => rfl
  · exact fun _ _ => rfl
  · intro insn direction a
    cases insn <;> rfl
  · intro direction x
    exact congrArg (fromInteger · x.toInt) (hdirection direction)
  · intro direction x
    exact congrArg (fromInteger · x.toNat) (hdirection direction)
  · exact fun _ => rfl

end RiscvSim
