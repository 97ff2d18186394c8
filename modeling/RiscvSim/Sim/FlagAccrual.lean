import RiscvSim.Sim.CsrViews
import RiscvSim.Sim.ExtensionFrames

/-!
Which exceptions each floating-point instruction adds to `fflags`. The library
keeps its flags in a global that every operation adds to, so an instruction
accrues its own exceptions when it clears that word first and merges it after.
-/

namespace RiscvSim

open Outcomes SimM

variable {H : Type}

/-- The invalid flag, of the library and of `fflags`. -/
def softfloat_flag_invalid : BitVec 8 := 16

/-- A NaN whose quiet bit is clear. -/
def isSignalingNaN (val : FRegister) : Bool := fpclassify val = .nan && !val.getLsbD 22

/-- The exceptions that an instruction is to add. -/
def exceptionsOf (lib : SoftFloat) (m : Machine H) (insn : RvInsn) : InsnMnemonic → BitVec 8
  | .FADD_S => rounded .FADD_S
  | .FSUB_S => rounded .FSUB_S
  | .FMUL_S => rounded .FMUL_S
  | .FDIV_S => rounded .FDIV_S
  | .FSQRT_S => rounded .FSQRT_S
  | .FMADD_S => rounded .FMADD_S
  | .FMSUB_S => rounded .FMSUB_S
  | .FNMSUB_S => rounded .FNMSUB_S
  | .FNMADD_S => rounded .FNMADD_S
  | .FCVT_W_S => rounded .FCVT_W_S
  | .FCVT_WU_S => rounded .FCVT_WU_S
  | .FCVT_S_W => rounded .FCVT_S_W
  | .FCVT_S_WU => rounded .FCVT_S_WU
  | .FLE_S => (lib.f32_le a b).2
  | .FLT_S => (lib.f32_lt a b).2
  | .FEQ_S => (lib.f32_eq a b).2
  | .FMIN_S | .FMAX_S =>
      if isSignalingNaN a || isSignalingNaN b then softfloat_flag_invalid else 0
  | _ => 0
where
  a : FRegister := m.sim.getFReg insn.rs1Index
  b : FRegister := m.sim.getFReg insn.rs2Index
  rounded (rounding : RoundingInsn) : BitVec 8 :=
    (rounding.eval lib m.sim insn (m.operationMode insn rounding)).raised

/-- The flags behind the instruction are those before it and its own. -/
def AccruesExactly (lib : SoftFloat) (m : Machine H) (insn : RvInsn) (mnem : InsnMnemonic)
    (m' : Machine H) : Prop :=
  (fpStatus m'.sim.fcsr).fflags =
    (fpStatus m.sim.fcsr).fflags ||| (exceptionsOf lib m insn mnem).setWidth 5

/-- A minimum or maximum of a signaling NaN, with the invalid flag not set yet. -/
def LosesInvalid (sim : RVSim) (insn : RvInsn) (mnem : InsnMnemonic) : Prop :=
  (mnem = .FMIN_S ∨ mnem = .FMAX_S) ∧
    (isSignalingNaN (sim.getFReg insn.rs1Index) = true ∨
      isSignalingNaN (sim.getFReg insn.rs2Index) = true) ∧
    (fpStatus sim.fcsr).fflags.getLsbD 4 = false

theorem fflags_raise (sim : RVSim) (raised : BitVec 8) :
    (fpStatus (sim.raise raised).fcsr).fflags = (fpStatus sim.fcsr).fflags ||| raised.setWidth 5 := by
  apply BitVec.eq_of_getLsbD_eq
  intro i hi
  simp only [fpStatus, BitVec.getLsbD_or, BitVec.getLsbD_setWidth, RVSim.getLsbD_raise,
    decide_eq_true hi, Bool.true_and]

theorem retire_fcsr (sim : RVSim) (insn : RvInsn) (res : Rounded) :
    (sim.retire insn res).fcsr = (sim.raise res.raised).fcsr := by
  cases res with
  | fReg value raised => rfl
  | xReg value raised =>
      exact congrArg (· ||| (raised.setWidth 32 &&& 0x1f)) (sim.setXReg_fcsr _ value)

section Accrual

variable {env : Env H} {word : UndecodedInsn} {m m' : Machine H} {mnem : InsnMnemonic}

theorem accruesExactly_of_raise {lib : SoftFloat} {insn : RvInsn}
    (hraised : m'.sim.fcsr = (m.sim.raise (exceptionsOf lib m insn mnem)).fcsr) :
    AccruesExactly lib m insn mnem m' := by
  rw [AccruesExactly, hraised, fflags_raise]

theorem RoundingInsn.accrues (insn : RoundingInsn)
    (hrun : (getInsnCallback env insn.mnem word).run m = .ok () m') :
    AccruesExactly env.softfloat m ⟨word⟩ insn.mnem m' := by
  have hretired := insn.callback_ends () m' hrun
  have hraised : (insn.eval env.softfloat m.sim ⟨word⟩ (m.operationMode ⟨word⟩ insn)).raised =
      exceptionsOf env.softfloat m ⟨word⟩ insn.mnem := by
    cases insn <;> rfl
  apply accruesExactly_of_raise
  rw [hretired, retire_fcsr, hraised]

/-- A comparison adds what its one library call raises. -/
theorem comparison_accrues {op : FRegister → FRegister → Bool × BitVec 8}
    (hop : getInsnCallback env mnem word =
      executeRRRCmpOp env word fun a b => callSoftFloat fun _ => op a b)
    (hraised : exceptionsOf env.softfloat m ⟨word⟩ mnem =
      (op (m.sim.getFReg (RvInsn.mk word).rs1Index)
        (m.sim.getFReg (RvInsn.mk word).rs2Index)).2)
    (hrun : (getInsnCallback env mnem word).run m = .ok () m') :
    AccruesExactly env.softfloat m ⟨word⟩ mnem m' := by
  rw [hop, executeRRRCmpOp_run fun _ _ => callSoftFloat_calls _] at hrun
  cases hrun
  apply accruesExactly_of_raise
  rw [hraised]
  exact retire_fcsr _ _ _

/-- The kinds of instruction that write no flags. -/
theorem Effect.fcsr_kept {insn : RvInsn} {sim sim' : RVSim} {kind : EffectKind}
    (hkind : kind ∈ [.xReg, .fReg, .store 4]) (h : Effect insn sim kind sim') :
    sim'.fcsr = sim.fcsr := by
  cases h with
  | xReg value => exact sim.setXReg_fcsr _ value
  | fReg value => rfl
  | store hkeeps => rfl
  | _ => simp at hkind

theorem quiet_accrues (hkind : mnem.effectKind ∈ [.xReg, .fReg, .store 4])
    (hnone : exceptionsOf env.softfloat m ⟨word⟩ mnem = 0)
    (hrun : (getInsnCallback env mnem word).run m = .ok () m') :
    AccruesExactly env.softfloat m ⟨word⟩ mnem m' := by
  have heffect := callback_effect env mnem word m () m' hrun
  rw [AccruesExactly, heffect.fcsr_kept hkind, hnone]
  exact BitVec.or_zero.symm

/-- Adding the invalid flag is no change where it is set already. -/
theorem or_invalid_eq_iff (fflags : BitVec 5) :
    fflags = fflags ||| softfloat_flag_invalid.setWidth 5 ↔ fflags.getLsbD 4 = true := by
  revert fflags
  decide

theorem minMax_effectKind (hminMax : mnem = .FMIN_S ∨ mnem = .FMAX_S) :
    mnem.effectKind = .fReg := by
  obtain rfl | rfl := hminMax <;> rfl

/-- A minimum and a maximum write no flags, whatever their comparison raised. -/
theorem minMax_accrues_iff (hminMax : mnem = .FMIN_S ∨ mnem = .FMAX_S)
    (hrun : (getInsnCallback env mnem word).run m = .ok () m') :
    AccruesExactly env.softfloat m ⟨word⟩ mnem m' ↔ ¬ LosesInvalid m.sim ⟨word⟩ mnem := by
  have hkind : mnem.effectKind ∈ [.xReg, .fReg, .store 4] := by
    rw [minMax_effectKind hminMax]
    exact List.mem_cons_of_mem _ List.mem_cons_self
  have hexceptions : exceptionsOf env.softfloat m ⟨word⟩ mnem =
      if isSignalingNaN (m.sim.getFReg (RvInsn.mk word).rs1Index) ||
          isSignalingNaN (m.sim.getFReg (RvInsn.mk word).rs2Index)
      then softfloat_flag_invalid else 0 := by
    obtain rfl | rfl := hminMax <;> rfl
  have heffect := callback_effect env mnem word m () m' hrun
  rw [AccruesExactly, LosesInvalid, heffect.fcsr_kept hkind, hexceptions, ← Bool.or_eq_true]
  split
  · rename_i hsignaling
    rw [or_invalid_eq_iff]
    simp [hminMax, hsignaling]
  · rename_i hquiet
    refine iff_of_true BitVec.or_zero.symm ?_
    rintro ⟨_, hsignaling, _⟩
    exact hquiet hsignaling

end Accrual

/-- An instruction of the extension that completes adds its own exceptions to the
flags and no others, except for a minimum or maximum of a signaling NaN while the
invalid flag is not set; and beside the accesses to memory, it completes unless
the assertion about the rounding mode stops it. -/
theorem accruesExactly_iff (env : Env H) (word : UndecodedInsn) (m : Machine H)
    {mnem : InsnMnemonic} (hmem : mnem ∈ extF.map (·.mnem)) :
    (∀ m', (getInsnCallback env mnem word).run m = .ok () m' →
      (AccruesExactly env.softfloat m ⟨word⟩ mnem m' ↔ ¬ LosesInvalid m.sim ⟨word⟩ mnem)) ∧
    (mnem ≠ .FLW → mnem ≠ .FSW →
      ((∃ rounding : RoundingInsn, rounding.mnem = mnem) →
        env.build = .release ∨ m.sim.selectedRM ⟨word⟩ ≠ .DYN) →
      Completes env word m mnem) := by
  refine ⟨?_, fun hload hstore hassert => completes_of_mode env word m hmem hload hstore hassert⟩
  intro m' hrun
  rcases extF_cases hmem with hflagged | hminMax | hquiet
  · have hkeeps : ¬ LosesInvalid m.sim ⟨word⟩ mnem := by
      rintro ⟨hminMax, _⟩
      simp [minMax_effectKind hminMax] at hflagged
    refine iff_of_true ?_ hkeeps
    rcases flagged_cases hflagged with ⟨insn, rfl⟩ | hcompare
    · exact insn.accrues hrun
    · simp only [List.mem_cons, List.not_mem_nil, or_false] at hcompare
      rcases hcompare with rfl | rfl | rfl <;> exact comparison_accrues rfl rfl hrun
  · simp only [List.mem_cons, List.not_mem_nil, or_false] at hminMax
    exact minMax_accrues_iff hminMax hrun
  · have hkeeps : ¬ LosesInvalid m.sim ⟨word⟩ mnem := by
      rintro ⟨rfl | rfl, _⟩ <;> simp at hquiet
    refine iff_of_true ?_ hkeeps
    simp only [List.mem_cons, List.not_mem_nil, or_false] at hquiet
    rcases hquiet with rfl | rfl | rfl | rfl | rfl | rfl | rfl | rfl <;>
      exact quiet_accrues (by decide) rfl hrun

/-- The conversion of `2 ^ 24 + 1` adds the inexact flag and completes. -/
theorem accruesExactly_iff_convert :
    ∃ m', (getInsnCallback queueEnv .FCVT_S_W convertWord).run
        (convertingMachine softfloat_round_near_even) = .ok () m' ∧
      AccruesExactly queueEnv.softfloat (convertingMachine softfloat_round_near_even)
        ⟨convertWord⟩ .FCVT_S_W m' := by
  obtain ⟨haccrues, hcompletes⟩ := accruesExactly_iff queueEnv convertWord
    (convertingMachine softfloat_round_near_even)
    (by decide : InsnMnemonic.FCVT_S_W ∈ extF.map (·.mnem))
  obtain ⟨m', hrun⟩ := hcompletes (by decide) (by decide) fun _ => .inl rfl
  refine ⟨m', hrun, (haccrues m' hrun).mpr ?_⟩
  rintro ⟨hminMax, _⟩
  simp at hminMax

/-- A library whose comparison with a NaN is false and invalid. -/
def SoftFloat.comparesNaN : SoftFloat :=
  { SoftFloat.integers with
    f32_le := fun a b =>
      (false, if fpclassify a = .nan || fpclassify b = .nan then softfloat_flag_invalid else 0) }

def nanEnv : Env (List MemByte) := { queueEnv with softfloat := .comparesNaN }

/-- `fmin.s f3, f1, f2`. -/
def minWord : UndecodedInsn := InsnMnemonic.FMIN_S.encode ⟨3, 1, 2, 0, 0, 0, 0, 0⟩

/-- A signaling NaN in `f1`, the number one in `f2`. -/
def minimizingMachine : Machine (List MemByte) :=
  (multiplyingMachine 0 0).mapSim fun sim =>
    { sim with
      fregs := Vector.ofFn fun i =>
        if i.val = 1 then 0x7f800001 else if i.val = 2 then 0x3f800000 else 0 }

/-- The library raises the invalid flag, and the instruction leaves it there. -/
theorem min_loses_invalid :
    decode minWord = some .FMIN_S ∧
      ∃ m', (getInsnCallback nanEnv .FMIN_S minWord).run minimizingMachine = .ok () m' ∧
        m'.softfloat.exceptionFlags = softfloat_flag_invalid ∧
        exceptionsOf nanEnv.softfloat minimizingMachine ⟨minWord⟩ .FMIN_S =
          softfloat_flag_invalid ∧
        (fpStatus m'.sim.fcsr).fflags = 0 ∧
        ¬ AccruesExactly nanEnv.softfloat minimizingMachine ⟨minWord⟩ .FMIN_S m' := by
  have hraised : exceptionsOf nanEnv.softfloat minimizingMachine ⟨minWord⟩ .FMIN_S =
      softfloat_flag_invalid := by
    decide
  refine ⟨decode_encode _ _, _, rfl, by decide, hraised, by decide, ?_⟩
  rw [AccruesExactly, hraised]
  decide

end RiscvSim
