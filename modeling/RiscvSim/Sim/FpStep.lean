import RiscvSim.Sim.FpState
import RiscvSim.Sim.WordWindows

/-!
The callbacks of the single-precision extension against their specification. What
an instruction writes is compared with the standard for the operands on which the
two agree; how the result gets into the registers and its exceptions into `fcsr`
is the same for all.
-/

namespace RiscvSim

open Binary32 ByteStore LittleEndian Rounding SimM
open Rv32f (ArithOp CompareOp FusedOp Insn OfIntOp PickOp SignOp ToIntOp)

variable {H : Type}

/-- The library has the mode of some direction. -/
def Machine.HasMode (m : Machine H) : Prop :=
  ∃ direction, m.softfloat.roundingMode = softfloatRound direction

/-- The machine behind a step that leads to the specified state. -/
structure FpNext (m m' : Machine H) (next : Rv32f.State) : Prop where
  state : m'.sim.toFp = next
  host : m'.host = m.host
  loop : m.sim.LoopKept m'.sim
  mode : m'.HasMode

/-- The callback ends, and leads to the specified state. -/
def CarriesFp (env : Env H) (m : Machine H) (mnem : InsnMnemonic) (word : UndecodedInsn)
    (next : Rv32f.State) : Prop :=
  ∃ m', (getInsnCallback env mnem word).run m = .ok () m' ∧ FpNext m m' next

section Operands

variable {m : Machine H} {word : UndecodedInsn} {r : BitVec 5}

/-- The callback reads the registers of the instruction. -/
theorem freg_rs1 (h : (RvInsn.mk word).rs1 = r.setWidth 32) :
    m.sim.getFReg (RvInsn.mk word).rs1Index = m.sim.toFp.freg r :=
  congrArg m.sim.getFReg (RvInsn.rs1Index_eq h)

theorem freg_rs2 (h : (RvInsn.mk word).rs2 = r.setWidth 32) :
    m.sim.getFReg (RvInsn.mk word).rs2Index = m.sim.toFp.freg r :=
  congrArg m.sim.getFReg (RvInsn.rs2Index_eq h)

theorem freg_rs3 (h : (RvInsn.mk word).rs3 = r.setWidth 32) :
    m.sim.getFReg (RvInsn.mk word).rs3Index = m.sim.toFp.freg r :=
  congrArg m.sim.getFReg (RvInsn.rs3Index_eq h)

theorem xreg_rs1 (h : (RvInsn.mk word).rs1 = r.setWidth 32) :
    m.sim.getXReg (RvInsn.mk word).rs1Index = m.sim.toFp.core.reg r :=
  congrArg m.sim.getXReg (RvInsn.rs1Index_eq h)

end Operands

section Results

variable {env : Env H} {m : Machine H} {word : UndecodedInsn} {rd : BitVec 5}
  (hmode : m.HasMode)

include hmode

/-- A callback that changes the simulator object only. -/
theorem carriesFp_of_sim {mnem : InsnMnemonic} {f : RVSim → RVSim} {next : Rv32f.State}
    (hrun : (getInsnCallback env mnem word).run m = .ok () (m.mapSim f))
    (hnext : (f m.sim).toFp = next) (hkept : m.sim.LoopKept (f m.sim)) :
    CarriesFp env m mnem word next :=
  ⟨_, hrun, hnext, rfl, hkept, hmode⟩

theorem carriesFp_of_fReg {mnem : InsnMnemonic} {value value' : FRegister}
    (hrd : (RvInsn.mk word).rd = rd.setWidth 32)
    (hrun : (getInsnCallback env mnem word).run m =
      .ok () (m.mapSim fun sim => (sim.setFReg (RvInsn.mk word).rdIndex value).step))
    (hvalue : value = value') :
    CarriesFp env m mnem word (m.sim.toFp.setFReg rd value').next := by
  subst hvalue
  refine carriesFp_of_sim hmode hrun ?_ ⟨rfl, rfl⟩
  rw [RVSim.toFp_step, RvInsn.rdIndex_eq hrd, RVSim.toFp_setFReg]

theorem carriesFp_of_xReg {mnem : InsnMnemonic} {value value' : Register}
    (hrd : (RvInsn.mk word).rd = rd.setWidth 32)
    (hrun : (getInsnCallback env mnem word).run m =
      .ok () (m.mapSim fun sim => (sim.setXReg (RvInsn.mk word).rdIndex value).step))
    (hvalue : value = value') :
    CarriesFp env m mnem word (m.sim.toFp.setReg rd value').next := by
  subst hvalue
  refine carriesFp_of_sim hmode hrun ?_ ?_
  · rw [RVSim.toFp_step, RvInsn.rdIndex_eq hrd, RVSim.toFp_setXReg]
  · have hkept : m.sim.LoopKept (m.sim.setXReg (RvInsn.mk word).rdIndex value) :=
      RVSim.LoopKept.refl.setXReg _ _
    exact ⟨hkept.shouldStop, hkept.layout⟩

omit hmode in
/-- What is retired is the result in its register and the exceptions. -/
theorem toFp_retire_fReg (hrd : (RvInsn.mk word).rd = rd.setWidth 32) (value : FRegister)
    (raised : BitVec 8) :
    (m.sim.retire ⟨word⟩ (.fReg value raised)).toFp =
      ((m.sim.toFp.setFReg rd value).raise raised).next := by
  rw [RVSim.retire, RVSim.toFp_step, RVSim.toFp_raise, RvInsn.rdIndex_eq hrd, RVSim.toFp_setFReg]

omit hmode in
theorem toFp_retire_xReg (hrd : (RvInsn.mk word).rd = rd.setWidth 32) (value : Register)
    (raised : BitVec 8) :
    (m.sim.retire ⟨word⟩ (.xReg value raised)).toFp =
      ((m.sim.toFp.setReg rd value).raise raised).next := by
  rw [RVSim.retire, RVSim.toFp_step, RVSim.toFp_raise, RvInsn.rdIndex_eq hrd, RVSim.toFp_setXReg]

omit hmode in
theorem loopKept_retire (sim : RVSim) (insn : RvInsn) (res : Rounded) :
    sim.LoopKept (sim.retire insn res) := by
  cases res with
  | fReg value raised => exact ⟨rfl, rfl⟩
  | xReg value raised =>
      have hkept : sim.LoopKept (sim.setXReg insn.rdIndex value) :=
        RVSim.LoopKept.refl.setXReg _ _
      exact ⟨hkept.shouldStop, hkept.layout⟩

end Results

section Rounding

variable {env : Env H} {m : Machine H} {word : UndecodedInsn} {direction : Direction}
  (hmode : m.HasMode)
  (hdirection : (m.sim.selectedRM ⟨word⟩).direction? = some direction)

include hmode hdirection

/-- A rounding instruction, whose operation has this result. -/
theorem carriesFp_of_retire {insn : RoundingInsn} {res : Rounded} {next : Rv32f.State}
    (heval : insn.eval env.softfloat m.sim ⟨word⟩
      (insn.usedMode (softfloatRound direction) m.softfloat.roundingMode) = res)
    (hnext : (m.sim.retire ⟨word⟩ res).toFp = next) :
    CarriesFp env m insn.mnem word next := by
  subst heval
  refine ⟨_, insn.callback_run (RoundingMode.softfloat?_of_direction hdirection), hnext, rfl,
    loopKept_retire _ _ _, ?_⟩
  by_cases hconv : insn = .FCVT_S_W ∨ insn = .FCVT_S_WU
  · rcases hconv with rfl | rfl
    · exact hmode
    · exact hmode
  · refine ⟨direction, ?_⟩
    change insn.usedMode _ _ = _
    cases insn <;> first | rfl | simp at hconv

end Rounding

section Memory

variable {env : Env H} {m : Machine H} {word : UndecodedInsn} {rd rs1 rs2 : BitVec 5}
  {imm : BitVec 32}

theorem callbackFLW_run {val : BitVec 32} (hrs1 : (RvInsn.mk word).rs1 = rs1.setWidth 32)
    (himm : (RvInsn.mk word).immI = imm)
    (hload : m.sim.memory.loadU32 env.build (m.sim.getXReg (regIndex rs1) + imm) = .ok val) :
    (callbackFLW env word).run m =
      .ok () (m.mapSim fun sim => (sim.setFReg (RvInsn.mk word).rdIndex val).step) := by
  simp [callbackFLW, RvInsn.rs1Index_eq hrs1, himm, hload, regToFReg]

theorem callbackFSW_run {memory : Memory} (hrs1 : (RvInsn.mk word).rs1 = rs1.setWidth 32)
    (hrs2 : (RvInsn.mk word).rs2 = rs2.setWidth 32) (himm : (RvInsn.mk word).immS = imm)
    (hstore : m.sim.memory.storeU32 env.build (m.sim.getXReg (regIndex rs1) + imm)
      (m.sim.getFReg (regIndex rs2)) = .ok memory) :
    (callbackFSW env word).run m = .ok () (m.mapSim fun sim => { sim with memory }.step) := by
  simp [callbackFSW, RvInsn.rs1Index_eq hrs1, RvInsn.rs2Index_eq hrs2, himm, hstore, fRegToReg]

variable {offset : Int} (hmode : m.HasMode) (hapart : m.sim.memory.Apart)
  {next : Rv32f.State}

include hmode hapart

theorem carriesFp_flw (hlegal : (Insn.flw rd rs1 offset).Legal)
    (hexec : (Insn.flw rd rs1 offset).exec m.sim.toFp = some next) :
    CarriesFp env m .FLW (Insn.flw rd rs1 offset).word next := by
  obtain ⟨bytes, hread, hnext⟩ := Option.bind_eq_some_iff.mp hexec
  obtain ⟨pre, segm, post, win⟩ := window_of_read hapart hread (by decide)
  have hfields := InsnFormat.readsFields_word (Insn.flw rd rs1 offset).mnem.format
    (Insn.flw rd rs1 offset).operands
  have himm := InsnFormat.readsImm_word _ _ hlegal
  obtain rfl := Option.some.inj hnext
  refine carriesFp_of_fReg hmode hfields.1
    (callbackFLW_run hfields.2 (eq_ofInt_of_toInt himm) ?_) rfl
  exact win.loadFrom_of_read env.build rfl (by decide) hread

theorem carriesFp_fsw (hlegal : (Insn.fsw rs1 rs2 offset).Legal)
    (hexec : (Insn.fsw rs1 rs2 offset).exec m.sim.toFp = some next) :
    CarriesFp env m .FSW (Insn.fsw rs1 rs2 offset).word next := by
  obtain ⟨bytes, hread, hnext⟩ := Option.bind_eq_some_iff.mp hexec
  obtain ⟨pre, segm, post, win⟩ := window_of_read hapart hread (by decide)
  have hfields := InsnFormat.readsFields_word (Insn.fsw rs1 rs2 offset).mnem.format
    (Insn.fsw rs1 rs2 offset).operands
  have himm := InsnFormat.readsImm_word _ _ hlegal
  obtain ⟨segms, hstore, hmem, hlayout⟩ :=
    Window.store (w := 32) win env.build (m.sim.getFReg (regIndex rs2)) (by decide)
  obtain rfl := Option.some.inj hnext
  refine carriesFp_of_sim hmode
    (callbackFSW_run hfields.1 hfields.2 (eq_ofInt_of_toInt himm)
      (congrArg (Memory.mk <$> ·) hstore)) ?_ ⟨rfl, hlayout⟩
  exact congrArg Rv32f.State.next (RVSim.toFp_setMem m.sim hmem)

end Memory

section Sign

/-- A word of a top bit and the bits below the sign. -/
theorem replace_sign {top : FRegister} (htop : top.setWidth 31 = 0#31) (a : FRegister) :
    top ||| (a &&& ~~~((1 : FRegister) <<< 31)) = pattern top.msb (magnitude a) := by
  have hsign : ((1 : FRegister) <<< 31).msb = true := by decide
  have hrest : (~~~((1 : FRegister) <<< 31)).setWidth 31 = BitVec.allOnes 31 := by decide
  have hkept : (top ||| (a &&& ~~~((1 : FRegister) <<< 31))).setWidth 31 = a.setWidth 31 := by
    rw [BitVec.setWidth_or, BitVec.setWidth_and, htop, hrest, BitVec.zero_or, BitVec.and_allOnes]
  apply ext_fields
  · rw [negative_pattern _ (magnitude_lt a), negative, BitVec.msb_or, BitVec.msb_and,
      BitVec.msb_not, hsign]
    simp
  · rw [magnitude_pattern _ (magnitude_lt a), magnitude, magnitude, ← BitVec.toNat_setWidth, hkept,
      BitVec.toNat_setWidth]

theorem masked_sign (b : FRegister) :
    (b &&& ((1 : FRegister) <<< 31)).setWidth 31 = 0#31 ∧
      (b &&& ((1 : FRegister) <<< 31)).msb = b.msb := by
  have hsign : ((1 : FRegister) <<< 31).msb = true := by decide
  have hlow : ((1 : FRegister) <<< 31).setWidth 31 = 0#31 := by decide
  rw [BitVec.setWidth_and, hlow, BitVec.msb_and, hsign]
  exact ⟨BitVec.and_zero, Bool.and_true _⟩

variable {env : Env H} {m : Machine H} {rd rs1 rs2 : BitVec 5} (hmode : m.HasMode)

include hmode

theorem carriesFp_sign (op : SignOp) :
    CarriesFp env m (Insn.sign op rd rs1 rs2).mnem (Insn.sign op rd rs1 rs2).word
      (m.sim.toFp.setFReg rd (op.eval (m.sim.toFp.freg rs1) (m.sim.toFp.freg rs2))).next := by
  obtain ⟨hrd, hrs1, hrs2⟩ : (RvInsn.mk (Insn.sign op rd rs1 rs2).word).rd = rd.setWidth 32 ∧
      (RvInsn.mk (Insn.sign op rd rs1 rs2).word).rs1 = rs1.setWidth 32 ∧
      (RvInsn.mk (Insn.sign op rd rs1 rs2).word).rs2 = rs2.setWidth 32 := by
    have hfields := InsnFormat.readsFields_word (Insn.sign op rd rs1 rs2).mnem.format
      (Insn.sign op rd rs1 rs2).operands
    cases op <;> exact hfields
  have ha := freg_rs1 (m := m) hrs1
  have hb := freg_rs2 (m := m) hrs2
  cases op with
  | FSGNJ =>
      refine carriesFp_of_fReg hmode hrd rfl ?_
      rw [ha, hb, replace_sign (masked_sign _).1, (masked_sign _).2]
      rfl
  | FSGNJN =>
      have hsign : ((1 : FRegister) <<< 31).msb = true := by decide
      refine carriesFp_of_fReg hmode hrd rfl ?_
      rw [ha, hb, replace_sign (masked_sign _).1, (masked_sign _).2, BitVec.msb_xor, hsign,
        Bool.xor_true]
      rfl
  | FSGNJX =>
      refine carriesFp_of_fReg hmode hrd rfl ?_
      rw [ha, hb, replace_sign, BitVec.msb_xor, (masked_sign _).2, (masked_sign _).2]
      · rfl
      · rw [BitVec.setWidth_xor, (masked_sign _).1, (masked_sign _).1]
        exact BitVec.xor_self

end Sign

section Pick

/-- The instruction of the code. -/
def pickInsn : PickOp → MinMaxInsn
  | .FMIN => .FMIN_S
  | .FMAX => .FMAX_S

/-- The operands that the code picks the right one of, none of them a signaling NaN
unless the invalid flag is there already. -/
structure PicksRight (s : Rv32f.State) (a b : Pattern) (op : PickOp) : Prop where
  right : (pickInsn op).RightOn a b
  flags : ¬ (IsSignaling a ∨ IsSignaling b) ∨ s.status.fflags.getLsbD 4 = true

theorem pickInsn_specified (a b : FRegister) (op : PickOp) :
    (pickInsn op).Specified a b (op.eval a b) := by
  cases op with
  | FMIN => exact picks_pick minimum_picksBy
  | FMAX => exact picks_pick maximum_picksBy

theorem pickInsn_result {lib : SoftFloat} (hle : ComparesLe lib) {a b : FRegister} {op : PickOp}
    (hright : (pickInsn op).RightOn a b) : (pickInsn op).result lib a b = op.eval a b := by
  have hcode := (MinMaxInsn.specified_result_iff hle (pickInsn op)).mpr hright
  have hspec := pickInsn_specified a b op
  cases op with
  | FMIN => exact Picks.unique minimum_picksBy hcode hspec
  | FMAX => exact Picks.unique maximum_picksBy hcode hspec

theorem FollowsStandard.comparesLe {lib : SoftFloat} (hlib : FollowsStandard lib) :
    ComparesLe lib := by
  intro a b
  rw [hlib.le, CompareOp.eval, compareSignaling]
  by_cases hnan : IsNaN a ∨ IsNaN b
  · rw [if_pos hnan]
    refine iff_of_false Bool.false_ne_true ?_
    rintro ⟨ha, hb, -⟩
    exact hnan.elim ha hb
  · obtain ⟨ha, hb⟩ := not_or.mp hnan
    rw [if_neg hnan, decide_eq_true_iff, represented_le_iff ha hb, and_iff_right ha,
      and_iff_right hb]

/-- Flags that are there are raised by nothing. -/
theorem raise_signalingFlags {s : Rv32f.State} {a b : Pattern} {op : PickOp}
    (h : PicksRight s a b op) : s.raise (signalingFlags a b) = s := by
  have hsame : s.status.fflags ||| (signalingFlags a b).setWidth 5 = s.status.fflags := by
    unfold signalingFlags
    by_cases hsignaling : IsSignaling a ∨ IsSignaling b
    · rw [if_pos hsignaling]
      have hset := h.flags.resolve_left fun hnone => hnone hsignaling
      exact ((or_invalid_eq_iff _).mpr hset).symm
    · rw [if_neg hsignaling]
      exact BitVec.or_zero
  rw [Rv32f.State.raise, hsame]

variable {env : Env H} {m : Machine H} {rd rs1 rs2 : BitVec 5} (hmode : m.HasMode)

include hmode

theorem carriesFp_pick (hle : ComparesLe env.softfloat) {op : PickOp}
    (hright : PicksRight m.sim.toFp (m.sim.toFp.freg rs1) (m.sim.toFp.freg rs2) op) :
    CarriesFp env m (Insn.pick op rd rs1 rs2).mnem (Insn.pick op rd rs1 rs2).word
      ((m.sim.toFp.setFReg rd (op.eval (m.sim.toFp.freg rs1) (m.sim.toFp.freg rs2))).raise
        (signalingFlags (m.sim.toFp.freg rs1) (m.sim.toFp.freg rs2))).next := by
  obtain ⟨hrd, hrs1, hrs2⟩ : (RvInsn.mk (Insn.pick op rd rs1 rs2).word).rd = rd.setWidth 32 ∧
      (RvInsn.mk (Insn.pick op rd rs1 rs2).word).rs1 = rs1.setWidth 32 ∧
      (RvInsn.mk (Insn.pick op rd rs1 rs2).word).rs2 = rs2.setWidth 32 := by
    have hfields := InsnFormat.readsFields_word (Insn.pick op rd rs1 rs2).mnem.format
      (Insn.pick op rd rs1 rs2).operands
    cases op <;> exact hfields
  have ha := freg_rs1 (m := m) hrs1
  have hb := freg_rs2 (m := m) hrs2
  have hresult := pickInsn_result hle hright.right
  -- the comparison leaves its exceptions in the library
  have hrun : ∃ flags, (getInsnCallback env (Insn.pick op rd rs1 rs2).mnem
      (Insn.pick op rd rs1 rs2).word).run m =
        .ok () { m with
          sim := (m.sim.setFReg (regIndex rd)
            (op.eval (m.sim.toFp.freg rs1) (m.sim.toFp.freg rs2))).step
          softfloat := ⟨m.softfloat.roundingMode, flags⟩ } := by
    rw [← hresult, ← ha, ← hb, ← RvInsn.rdIndex_eq hrd]
    cases op with
    | FMIN => exact ⟨_, rfl⟩
    | FMAX => exact ⟨_, rfl⟩
  obtain ⟨flags, hrun⟩ := hrun
  refine ⟨_, hrun, ?_, rfl, ⟨rfl, rfl⟩, hmode⟩
  have hquiet : (m.sim.toFp.setFReg rd
      (op.eval (m.sim.toFp.freg rs1) (m.sim.toFp.freg rs2))).raise _ = _ :=
    raise_signalingFlags ⟨hright.right, hright.flags⟩
  rw [hquiet, RVSim.toFp_step, RVSim.toFp_setFReg]

end Pick

section Compare

variable {env : Env H} {m : Machine H} {rd rs1 rs2 : BitVec 5} (hmode : m.HasMode)

include hmode

theorem carriesFp_compare (hlib : FollowsStandard env.softfloat) (op : CompareOp) :
    let res := op.eval (m.sim.toFp.freg rs1) (m.sim.toFp.freg rs2)
    CarriesFp env m (Insn.compare op rd rs1 rs2).mnem (Insn.compare op rd rs1 rs2).word
      ((m.sim.toFp.setReg rd (if res.1 then 1 else 0)).raise res.2).next := by
  obtain ⟨hrd, hrs1, hrs2⟩ : (RvInsn.mk (Insn.compare op rd rs1 rs2).word).rd = rd.setWidth 32 ∧
      (RvInsn.mk (Insn.compare op rd rs1 rs2).word).rs1 = rs1.setWidth 32 ∧
      (RvInsn.mk (Insn.compare op rd rs1 rs2).word).rs2 = rs2.setWidth 32 := by
    have hfields := InsnFormat.readsFields_word (Insn.compare op rd rs1 rs2).mnem.format
      (Insn.compare op rd rs1 rs2).operands
    cases op <;> exact hfields
  have ha := freg_rs1 (m := m) hrs1
  have hb := freg_rs2 (m := m) hrs2
  intro res
  have hrun : (getInsnCallback env (Insn.compare op rd rs1 rs2).mnem
      (Insn.compare op rd rs1 rs2).word).run m =
        .ok () (m.afterRounding ⟨(Insn.compare op rd rs1 rs2).word⟩ m.softfloat.roundingMode
          (.xReg (if res.1 then 1 else 0) res.2)) := by
    have hcompare {compare : FRegister → FRegister → Bool × BitVec 8}
        (hlib : ∀ a b, compare a b = op.eval a b) :
        (executeRRRCmpOp env (Insn.compare op rd rs1 rs2).word fun a b =>
            callSoftFloat fun _ => compare a b).run m =
          .ok () (m.afterRounding ⟨(Insn.compare op rd rs1 rs2).word⟩ m.softfloat.roundingMode
            (.xReg (if res.1 then 1 else 0) res.2)) := by
      rw [executeRRRCmpOp_run fun _ _ => callSoftFloat_calls _]
      dsimp only
      rw [ha, hb, hlib]
    cases op with
    | FLE => exact hcompare hlib.le
    | FLT => exact hcompare hlib.lt
    | FEQ => exact hcompare hlib.eq
  have hkept : m.sim.LoopKept (m.sim.retire ⟨(Insn.compare op rd rs1 rs2).word⟩
      (.xReg (if res.1 then 1 else 0) res.2)) := loopKept_retire _ _ _
  exact ⟨_, hrun, toFp_retire_xReg hrd _ _, rfl, hkept, hmode⟩

end Compare

section Move

variable {env : Env H} {m : Machine H} {rd rs1 : BitVec 5} (hmode : m.HasMode)

include hmode

theorem carriesFp_moveToX :
    CarriesFp env m .FMV_X_W (Insn.moveToX rd rs1).word
      (m.sim.toFp.setReg rd (m.sim.toFp.freg rs1)).next := by
  have hfields := InsnFormat.readsFields_word (Insn.moveToX rd rs1).mnem.format
    (Insn.moveToX rd rs1).operands
  exact carriesFp_of_xReg hmode hfields.1 rfl (freg_rs1 hfields.2)

theorem carriesFp_moveToF :
    CarriesFp env m .FMV_W_X (Insn.moveToF rd rs1).word
      (m.sim.toFp.setFReg rd (m.sim.toFp.core.reg rs1)).next := by
  have hfields := InsnFormat.readsFields_word (Insn.moveToF rd rs1).mnem.format
    (Insn.moveToF rd rs1).operands
  exact carriesFp_of_fReg hmode hfields.1 rfl (xreg_rs1 hfields.2)

theorem carriesFp_classify (hlib : ∀ x, env.softfloat.f32_isSignalingNaN x = isSignalingNaN x) :
    CarriesFp env m .FCLASS_S (Insn.classify rd rs1).word
      (m.sim.toFp.setReg rd ((1 : Register) <<< classOf (m.sim.toFp.freg rs1))).next := by
  have hfields := InsnFormat.readsFields_word (Insn.classify rd rs1).mnem.format
    (Insn.classify rd rs1).operands
  have ha : m.sim.getFReg (RvInsn.mk (Insn.classify rd rs1).word).rs1Index =
      m.sim.toFp.freg rs1 := freg_rs1 hfields.2
  refine carriesFp_of_xReg hmode hfields.1 (callbackFCLASS_S_run env _ m) ?_
  rw [ha, fclassShift_eq_classOf hlib]

end Move

section Arithmetic

variable {env : Env H} {m : Machine H} {rm : BitVec 3} {rd rs1 rs2 rs3 : BitVec 5}
  {direction : Direction} (hmode : m.HasMode) (hlib : FollowsStandard env.softfloat)
  (hdirection : m.sim.toFp.direction rm = some direction)

/-- The instruction of the code. -/
def arithInsn : ArithOp → RoundingInsn
  | .FADD => .FADD_S
  | .FSUB => .FSUB_S
  | .FMUL => .FMUL_S
  | .FDIV => .FDIV_S

include hmode hlib hdirection

theorem carriesFp_arith {op : ArithOp} {res : Pattern × BitVec 8}
    (hres : op.eval direction (m.sim.toFp.freg rs1) (m.sim.toFp.freg rs2) = some res) :
    CarriesFp env m (Insn.arith op rm rd rs1 rs2).mnem (Insn.arith op rm rd rs1 rs2).word
      ((m.sim.toFp.setFReg rd res.1).raise res.2).next := by
  obtain ⟨hrd, hrs1, hrs2, hrm⟩ :
      (RvInsn.mk (Insn.arith op rm rd rs1 rs2).word).rd = rd.setWidth 32 ∧
        (RvInsn.mk (Insn.arith op rm rd rs1 rs2).word).rs1 = rs1.setWidth 32 ∧
        (RvInsn.mk (Insn.arith op rm rd rs1 rs2).word).rs2 = rs2.setWidth 32 ∧
        (RvInsn.mk (Insn.arith op rm rd rs1 rs2).word).rm = rm.setWidth 32 := by
    have hfields := InsnFormat.readsFields_word (Insn.arith op rm rd rs1 rs2).mnem.format
      (Insn.arith op rm rd rs1 rs2).operands
    cases op <;> exact hfields
  have heval : (arithInsn op).eval env.softfloat m.sim ⟨(Insn.arith op rm rd rs1 rs2).word⟩
      ((arithInsn op).usedMode (softfloatRound direction) m.softfloat.roundingMode) =
        .fReg res.1 res.2 := by
    rw [← freg_rs1 hrs1, ← freg_rs2 hrs2] at hres
    cases op with
    | FADD => exact congrArg RoundingInsn.eval.toFReg (hlib.add direction _ _ res hres)
    | FSUB => exact congrArg RoundingInsn.eval.toFReg (hlib.subtract direction _ _ res hres)
    | FMUL => exact congrArg RoundingInsn.eval.toFReg (hlib.multiply direction _ _ res hres)
    | FDIV => exact congrArg RoundingInsn.eval.toFReg (hlib.divide direction _ _ res hres)
  have hmnem : (Insn.arith op rm rd rs1 rs2).mnem = (arithInsn op).mnem := by
    cases op <;> rfl
  rw [hmnem]
  exact carriesFp_of_retire hmode ((selectedRM_direction? _ hrm).trans hdirection) heval
    (toFp_retire_fReg hrd _ _)

theorem carriesFp_sqrt {res : Pattern × BitVec 8}
    (hres : squareRoot direction (m.sim.toFp.freg rs1) = some res) :
    CarriesFp env m .FSQRT_S (Insn.sqrt rm rd rs1).word
      ((m.sim.toFp.setFReg rd res.1).raise res.2).next := by
  obtain ⟨hrd, hrs1, hrm⟩ : (RvInsn.mk (Insn.sqrt rm rd rs1).word).rd = rd.setWidth 32 ∧
      (RvInsn.mk (Insn.sqrt rm rd rs1).word).rs1 = rs1.setWidth 32 ∧
      (RvInsn.mk (Insn.sqrt rm rd rs1).word).rm = rm.setWidth 32 :=
    InsnFormat.readsFields_word (Insn.sqrt rm rd rs1).mnem.format (Insn.sqrt rm rd rs1).operands
  have heval : RoundingInsn.FSQRT_S.eval env.softfloat m.sim ⟨(Insn.sqrt rm rd rs1).word⟩
      (softfloatRound direction) = .fReg res.1 res.2 := by
    rw [← freg_rs1 hrs1] at hres
    exact congrArg RoundingInsn.eval.toFReg (hlib.squareRoot direction _ res hres)
  have hsame : InsnMnemonic.FSQRT_S = RoundingInsn.FSQRT_S.mnem := rfl
  rw [hsame]
  exact carriesFp_of_retire hmode ((selectedRM_direction? _ hrm).trans hdirection) heval
    (toFp_retire_fReg hrd _ _)

/-- The instruction of the code. -/
def fusedInsn : FusedOp → FusedInsn
  | .FMADD => .FMADD_S
  | .FMSUB => .FMSUB_S
  | .FNMSUB => .FNMSUB_S
  | .FNMADD => .FNMADD_S

omit hmode hlib hdirection in
theorem fusedInsn_specified (direction : Direction) (a b c : FRegister) (op : FusedOp) :
    (fusedInsn op).specified direction a b c = op.eval direction a b c := by
  cases op <;> rfl

theorem carriesFp_fused {op : FusedOp} {res : Pattern × BitVec 8}
    (hright : op = .FNMADD → NegatesAlike direction (m.sim.toFp.freg rs1) (m.sim.toFp.freg rs2)
      (m.sim.toFp.freg rs3))
    (hres : op.eval direction (m.sim.toFp.freg rs1) (m.sim.toFp.freg rs2) (m.sim.toFp.freg rs3) =
      some res) :
    CarriesFp env m (Insn.fused op rm rd rs1 rs2 rs3).mnem (Insn.fused op rm rd rs1 rs2 rs3).word
      ((m.sim.toFp.setFReg rd res.1).raise res.2).next := by
  obtain ⟨hrd, hrs1, hrs2, hrs3, hrm⟩ :
      (RvInsn.mk (Insn.fused op rm rd rs1 rs2 rs3).word).rd = rd.setWidth 32 ∧
        (RvInsn.mk (Insn.fused op rm rd rs1 rs2 rs3).word).rs1 = rs1.setWidth 32 ∧
        (RvInsn.mk (Insn.fused op rm rd rs1 rs2 rs3).word).rs2 = rs2.setWidth 32 ∧
        (RvInsn.mk (Insn.fused op rm rd rs1 rs2 rs3).word).rs3 = rs3.setWidth 32 ∧
        (RvInsn.mk (Insn.fused op rm rd rs1 rs2 rs3).word).rm = rm.setWidth 32 := by
    have hfields := InsnFormat.readsFields_word (Insn.fused op rm rd rs1 rs2 rs3).mnem.format
      (Insn.fused op rm rd rs1 rs2 rs3).operands
    cases op <;> exact hfields
  have hcomputed := (FusedInsn.computed_iff hlib.fuses
    ((fusedInsn_specified direction _ _ _ op).trans hres)).mpr fun hinsn => hright (by
      cases op <;> first | rfl | cases hinsn)
  have heval : (fusedInsn op).arithmetic.rounding.eval env.softfloat m.sim
      ⟨(Insn.fused op rm rd rs1 rs2 rs3).word⟩ ((fusedInsn op).arithmetic.rounding.usedMode
        (softfloatRound direction) m.softfloat.roundingMode) = .fReg res.1 res.2 := by
    rw [← freg_rs1 hrs1, ← freg_rs2 hrs2, ← freg_rs3 hrs3] at hcomputed
    rw [← hcomputed]
    cases op <;> rfl
  have hmnem : (Insn.fused op rm rd rs1 rs2 rs3).mnem =
      (fusedInsn op).arithmetic.rounding.mnem := by
    cases op <;> rfl
  rw [hmnem]
  exact carriesFp_of_retire hmode ((selectedRM_direction? _ hrm).trans hdirection) heval
    (toFp_retire_fReg hrd _ _)

end Arithmetic

section Convert

/-- The instruction of the code. -/
def toIntInsn : ToIntOp → SaturatingInsn
  | .FCVT_W_S => .FCVT_W_S
  | .FCVT_WU_S => .FCVT_WU_S

/-- The sign makes no difference to what is behind the point. -/
theorem scaled_emod_eq_zero_iff (a : FRegister) :
    scaled a % 2 ^ 149 = 0 ↔ BinaryFormat.units 23 (magnitude a) % 2 ^ 149 = 0 := by
  rw [← Int.dvd_iff_emod_eq_zero, ← Nat.dvd_iff_mod_eq_zero, ← Int.natCast_dvd_natCast, scaled]
  cases negative a with
  | false => rfl
  | true => exact Int.dvd_neg

/-- The exceptions of the platform are those of the standard. -/
theorem onPlatform_flags (insn : SaturatingInsn) (direction : Direction) (a : FRegister) :
    (insn.onPlatform (softfloatRound direction) a).2 =
      (saturate insn.low insn.high direction a).2 := by
  rw [SaturatingInsn.onPlatform, roundDirection_softfloatRound, saturate]
  dsimp only
  rcases lt_trichotomy (magnitude a) infinity with hfinite | hinfinite | hnan
  · have ha : IsFinite a := hfinite
    have hnumber : ¬ IsNaN a := hfinite.not_gt
    have hbounded : ¬ IsInfinite a := hfinite.ne
    rw [if_neg hnumber, if_neg hbounded]
    by_cases hlow : toInteger direction a < insn.low
    · rw [if_pos hlow, if_neg fun hplace => hplace.2.1.not_gt hlow]
      rfl
    · rw [if_neg hlow]
      by_cases hhigh : insn.high < toInteger direction a
      · rw [if_pos hhigh, if_neg fun hplace => hplace.2.2.not_gt hhigh]
        rfl
      · rw [if_neg hhigh, if_pos ⟨ha, not_lt.mp hlow, not_lt.mp hhigh⟩]
        simp only [scaled_emod_eq_zero_iff]
        rfl
  · have ha : IsInfinite a := hinfinite
    have hnumber : ¬ IsNaN a := hinfinite.not_gt
    rw [if_neg hnumber, if_pos ha, if_neg fun hplace => hplace.1.ne hinfinite]
    rfl
  · have ha : IsNaN a := hnan
    rw [if_pos ha, if_neg fun hplace => hplace.1.not_gt hnan]
    rfl

/-- Where the platform's word is right it is the one of the standard's integer. -/
theorem FollowsStandard.convert_eq {lib : SoftFloat} (hlib : FollowsStandard lib)
    {insn : SaturatingInsn} {direction : Direction} {a : FRegister}
    (hright : insn.RightOn direction a) :
    insn.convert lib a (softfloatRound direction) =
      (BitVec.ofInt 32 (saturate insn.low insn.high direction a).1,
        (saturate insn.low insn.high direction a).2) := by
  have hplatform : ConvertsOnPlatform lib := .of_onPlatform hlib.converts
  obtain ⟨res, hsaturated, hword⟩ := (SaturatingInsn.converts_iff hplatform insn).mpr hright
  have hres := hsaturated.unique (saturated_saturate direction a insn.low_lt_high.le)
  rw [hres] at hword
  apply Prod.ext
  · exact hword
  · rw [hlib.converts]
    exact onPlatform_flags insn direction a

variable {env : Env H} {m : Machine H} {rm : BitVec 3} {rd rs1 : BitVec 5}
  {direction : Direction} (hmode : m.HasMode) (hlib : FollowsStandard env.softfloat)
  (hdirection : m.sim.toFp.direction rm = some direction)

include hmode hlib hdirection

theorem carriesFp_toInt {op : ToIntOp}
    (hright : (toIntInsn op).RightOn direction (m.sim.toFp.freg rs1)) :
    let res := op.eval direction (m.sim.toFp.freg rs1)
    CarriesFp env m (Insn.toInt op rm rd rs1).mnem (Insn.toInt op rm rd rs1).word
      ((m.sim.toFp.setReg rd (BitVec.ofInt 32 res.1)).raise res.2).next := by
  intro res
  obtain ⟨hrd, hrs1, hrm⟩ : (RvInsn.mk (Insn.toInt op rm rd rs1).word).rd = rd.setWidth 32 ∧
      (RvInsn.mk (Insn.toInt op rm rd rs1).word).rs1 = rs1.setWidth 32 ∧
      (RvInsn.mk (Insn.toInt op rm rd rs1).word).rm = rm.setWidth 32 := by
    have hfields := InsnFormat.readsFields_word (Insn.toInt op rm rd rs1).mnem.format
      (Insn.toInt op rm rd rs1).operands
    cases op <;> exact hfields
  have hconvert : (toIntInsn op).convert env.softfloat (m.sim.toFp.freg rs1)
      (softfloatRound direction) = (BitVec.ofInt 32 res.1, res.2) := by
    rw [hlib.convert_eq hright]
    cases op <;> rfl
  have heval : (toIntInsn op).rounding.eval env.softfloat m.sim
      ⟨(Insn.toInt op rm rd rs1).word⟩ ((toIntInsn op).rounding.usedMode
        (softfloatRound direction) m.softfloat.roundingMode) =
        .xReg (BitVec.ofInt 32 res.1) res.2 := by
    rw [← freg_rs1 hrs1] at hconvert
    cases op with
    | FCVT_W_S => exact congrArg RoundingInsn.eval.toXReg hconvert
    | FCVT_WU_S => exact congrArg RoundingInsn.eval.toXReg hconvert
  have hmnem : (Insn.toInt op rm rd rs1).mnem = (toIntInsn op).rounding.mnem := by
    cases op <;> rfl
  rw [hmnem]
  exact carriesFp_of_retire hmode ((selectedRM_direction? _ hrm).trans hdirection) heval
    (toFp_retire_xReg hrd _ _)

/-- The instruction of the code. -/
def ofIntInsn : OfIntOp → RoundingInsn
  | .FCVT_S_W => .FCVT_S_W
  | .FCVT_S_WU => .FCVT_S_WU

/-- The mode that is there does as well where nothing is rounded. -/
theorem carriesFp_ofInt {op : OfIntOp}
    (hexact : Representable (op.operand (m.sim.toFp.core.reg rs1))) :
    let res := fromInteger direction (op.operand (m.sim.toFp.core.reg rs1))
    CarriesFp env m (Insn.ofInt op rm rd rs1).mnem (Insn.ofInt op rm rd rs1).word
      ((m.sim.toFp.setFReg rd res.1).raise res.2).next := by
  intro res
  obtain ⟨hrd, hrs1, hrm⟩ : (RvInsn.mk (Insn.ofInt op rm rd rs1).word).rd = rd.setWidth 32 ∧
      (RvInsn.mk (Insn.ofInt op rm rd rs1).word).rs1 = rs1.setWidth 32 ∧
      (RvInsn.mk (Insn.ofInt op rm rd rs1).word).rm = rm.setWidth 32 := by
    have hfields := InsnFormat.readsFields_word (Insn.ofInt op rm rd rs1).mnem.format
      (Insn.ofInt op rm rd rs1).operands
    cases op <;> exact hfields
  obtain ⟨left, hleft⟩ := hmode
  have hres : fromInteger left (op.operand (m.sim.toFp.core.reg rs1)) = res :=
    hexact.fromInteger_eq left direction
  have heval : (ofIntInsn op).eval env.softfloat m.sim ⟨(Insn.ofInt op rm rd rs1).word⟩
      ((ofIntInsn op).usedMode (softfloatRound direction) m.softfloat.roundingMode) =
        .fReg res.1 res.2 := by
    rw [← hres, ← xreg_rs1 hrs1, hleft]
    cases op with
    | FCVT_S_W => exact congrArg RoundingInsn.eval.toFReg (hlib.ofSigned left _)
    | FCVT_S_WU => exact congrArg RoundingInsn.eval.toFReg (hlib.ofUnsigned left _)
  have hmnem : (Insn.ofInt op rm rd rs1).mnem = (ofIntInsn op).mnem := by
    cases op <;> rfl
  rw [hmnem]
  exact carriesFp_of_retire ⟨left, hleft⟩ ((selectedRM_direction? _ hrm).trans hdirection) heval
    (toFp_retire_fReg hrd _ _)

end Convert

section Insn

/-- The operands and the directions on which the code is the standard's. -/
def FpExactIn (s : Rv32f.State) : Insn → Prop
  | .pick op _ rs1 rs2 => PicksRight s (s.freg rs1) (s.freg rs2) op
  | .fused op rm _ rs1 rs2 rs3 => op = .FNMADD → ∀ direction, s.direction rm = some direction →
      NegatesAlike direction (s.freg rs1) (s.freg rs2) (s.freg rs3)
  | .toInt op rm _ rs1 => ∀ direction, s.direction rm = some direction →
      (toIntInsn op).RightOn direction (s.freg rs1)
  | .ofInt op _ _ rs1 => Representable (op.operand (s.core.reg rs1))
  | _ => True

variable {env : Env H} {m : Machine H} {insn : Insn} {next : Rv32f.State}

/-- Every instruction of the extension ends as the specified one. -/
theorem carriesFp (hmode : m.HasMode) (hlib : FollowsStandard env.softfloat)
    (hapart : m.sim.memory.Apart) (hlegal : insn.Legal) (hexact : FpExactIn m.sim.toFp insn)
    (hexec : insn.exec m.sim.toFp = some next) : CarriesFp env m insn.mnem insn.word next := by
  cases insn with
  | flw rd rs1 imm => exact carriesFp_flw hmode hapart hlegal hexec
  | fsw rs1 rs2 imm => exact carriesFp_fsw hmode hapart hlegal hexec
  | sign op rd rs1 rs2 =>
      obtain rfl := Option.some.inj hexec
      exact carriesFp_sign hmode op
  | pick op rd rs1 rs2 =>
      obtain rfl := Option.some.inj hexec
      exact carriesFp_pick hmode hlib.comparesLe hexact
  | compare op rd rs1 rs2 =>
      obtain rfl := Option.some.inj hexec
      exact carriesFp_compare hmode hlib op
  | arith op rm rd rs1 rs2 =>
      obtain ⟨direction, hdirection, hresult⟩ := Option.bind_eq_some_iff.mp hexec
      obtain ⟨res, hres, hnext⟩ := Option.bind_eq_some_iff.mp hresult
      obtain rfl := Option.some.inj hnext
      exact carriesFp_arith hmode hlib hdirection hres
  | sqrt rm rd rs1 =>
      obtain ⟨direction, hdirection, hresult⟩ := Option.bind_eq_some_iff.mp hexec
      obtain ⟨res, hres, hnext⟩ := Option.bind_eq_some_iff.mp hresult
      obtain rfl := Option.some.inj hnext
      exact carriesFp_sqrt hmode hlib hdirection hres
  | fused op rm rd rs1 rs2 rs3 =>
      obtain ⟨direction, hdirection, hresult⟩ := Option.bind_eq_some_iff.mp hexec
      obtain ⟨res, hres, hnext⟩ := Option.bind_eq_some_iff.mp hresult
      obtain rfl := Option.some.inj hnext
      exact carriesFp_fused hmode hlib hdirection (fun hop => hexact hop _ hdirection) hres
  | toInt op rm rd rs1 =>
      obtain ⟨direction, hdirection, hnext⟩ := Option.bind_eq_some_iff.mp hexec
      obtain rfl := Option.some.inj hnext
      exact carriesFp_toInt hmode hlib hdirection (hexact _ hdirection)
  | ofInt op rm rd rs1 =>
      obtain ⟨direction, hdirection, hnext⟩ := Option.bind_eq_some_iff.mp hexec
      obtain rfl := Option.some.inj hnext
      exact carriesFp_ofInt hmode hlib hdirection hexact
  | moveToX rd rs1 =>
      obtain rfl := Option.some.inj hexec
      exact carriesFp_moveToX hmode
  | moveToF rd rs1 =>
      obtain rfl := Option.some.inj hexec
      exact carriesFp_moveToF hmode
  | classify rd rs1 =>
      obtain rfl := Option.some.inj hexec
      exact carriesFp_classify hmode hlib.signaling

end Insn

end RiscvSim
