import RiscvSim.Sim.ReleaseFaults
import RiscvSim.Sim.RoundingMode

/-!
The rounding modes that the architecture reserves. They come out of the
instruction word or out of `fcsr`, pass through an unchecked cast, and reach a
`switch` that has no case for two of them and an assertion for the third; behind
it, the library still has the mode that an earlier instruction left there.
-/

namespace RiscvSim

open SimM

variable {H : Type}

/-- The `frm` field. -/
def RVSim.frm (sim : RVSim) : Register := (sim.fcsr >>> 5) &&& 0x7

/-- The instruction selects a mode without a meaning. -/
def RVSim.SelectsReserved (sim : RVSim) (insn : RvInsn) : Prop :=
  insn.rm = 5 ∨ insn.rm = 6 ∨ (insn.rm = 7 ∧ (sim.frm = 5 ∨ sim.frm = 6 ∨ sim.frm = 7))

/-- The iteration ends in an error that the program reports, with the guest state
as it was. -/
def ModeRejected (env : Env H) (m : Machine H) : Prop :=
  ∃ fault m', (executeInsn env).run m = .error fault m' ∧ fault.Reported ∧ m'.sim = m.sim

section Modes

theorem RoundingMode.softfloat?_reserved {value : Register}
    (h : value = 5 ∨ value = 6 ∨ value = 7) : (RoundingMode.toEnum value).softfloat? = none := by
  rcases h with rfl | rfl | rfl <;> rfl

/-- The casts and the switch have no mode for a reserved selection. -/
theorem RVSim.SelectsReserved.softfloat? {sim : RVSim} {insn : RvInsn}
    (h : sim.SelectsReserved insn) : (sim.selectedRM insn).softfloat? = none := by
  rw [RVSim.selectedRM]
  rcases h with hrm | hrm | ⟨hrm, hfrm⟩
  · rw [if_neg (by rw [hrm]; decide)]
    exact RoundingMode.softfloat?_reserved (.inl hrm)
  · rw [if_neg (by rw [hrm]; decide)]
    exact RoundingMode.softfloat?_reserved (.inr (.inl hrm))
  · rw [if_pos hrm]
    exact RoundingMode.softfloat?_reserved hfrm

/-- Only `DYN` in both places gets as far as the assertion. -/
theorem RVSim.selectedRM_eq_DYN_iff (sim : RVSim) (insn : RvInsn) :
    sim.selectedRM insn = .DYN ↔ insn.rm = 7 ∧ sim.frm = 7 := by
  rw [RVSim.selectedRM, RoundingMode.toEnum_eq_DYN_iff]
  by_cases hrm : insn.rm = 7
  · rw [if_pos hrm]
    exact (and_iff_right hrm).symm
  · rw [if_neg hrm]
    exact iff_of_false hrm fun h => hrm h.1

end Modes

section Assertion

variable {env : Env H} {m : Machine H} {word : UndecodedInsn}

theorem selectRM_assert (hbuild : env.build = .debug) {insn : RvInsn}
    (hrm : m.sim.selectedRM insn = .DYN) :
    (selectRM env insn).run m = .error (.assertion "what?") m := by
  simp only [selectRM, EStateM.run_bind, run_getSim, RVSim.getRM_eq, run_lift_ok, hrm, hbuild]
  rfl

section Templates

variable {fault : Fault}
  (hfault : (selectRM env ⟨word⟩).run { m with softfloat := ⟨m.softfloat.roundingMode, 0⟩ } =
    .error fault { m with softfloat := ⟨m.softfloat.roundingMode, 0⟩ })

include hfault

theorem executeRRRFBinOp_fault (fbinOp : FRegister → FRegister → SimM H FRegister) :
    (executeRRRFBinOp env word fbinOp).run m =
      .error fault { m with softfloat := ⟨m.softfloat.roundingMode, 0⟩ } := by
  simp only [executeRRRFBinOp, EStateM.run_bind, softFloatClearFExcp_run, hfault]

theorem executeRRRRFTernOp_fault
    (fternOp : FRegister → FRegister → FRegister → SimM H FRegister) :
    (executeRRRRFTernOp env word fternOp).run m =
      .error fault { m with softfloat := ⟨m.softfloat.roundingMode, 0⟩ } := by
  simp only [executeRRRRFTernOp, EStateM.run_bind, softFloatClearFExcp_run, hfault]

end Templates

/-- The assertion stands before the operation and before every write. -/
theorem RoundingInsn.callback_assert {insn : RoundingInsn}
    (hselects : ¬ (insn = .FCVT_S_W ∨ insn = .FCVT_S_WU)) (hbuild : env.build = .debug)
    (hrm : m.sim.selectedRM ⟨word⟩ = .DYN) :
    (getInsnCallback env insn.mnem word).run m =
      .error (.assertion "what?") { m with softfloat := ⟨m.softfloat.roundingMode, 0⟩ } := by
  have hassert : (selectRM env ⟨word⟩).run
      { m with softfloat := ⟨m.softfloat.roundingMode, 0⟩ } = _ := selectRM_assert hbuild hrm
  cases insn with
  | FADD_S => exact executeRRRFBinOp_fault hassert _
  | FSUB_S => exact executeRRRFBinOp_fault hassert _
  | FMUL_S => exact executeRRRFBinOp_fault hassert _
  | FDIV_S => exact executeRRRFBinOp_fault hassert _
  | FMADD_S => exact executeRRRRFTernOp_fault hassert _
  | FMSUB_S => exact executeRRRRFTernOp_fault hassert _
  | FNMSUB_S => exact executeRRRRFTernOp_fault hassert _
  | FNMADD_S => exact executeRRRRFTernOp_fault hassert _
  | FSQRT_S =>
      change (callbackFSQRT_S env word).run m = _
      simp only [callbackFSQRT_S, EStateM.run_bind, softFloatClearFExcp_run, hassert]
  | FCVT_W_S =>
      change (callbackFCVT_W_S env word).run m = _
      simp only [callbackFCVT_W_S, EStateM.run_bind, softFloatClearFExcp_run, run_getFReg, hassert]
  | FCVT_WU_S =>
      change (callbackFCVT_WU_S env word).run m = _
      simp only [callbackFCVT_WU_S, EStateM.run_bind, softFloatClearFExcp_run, run_getFReg, hassert]
  | FCVT_S_W => exact absurd (.inl rfl) hselects
  | FCVT_S_WU => exact absurd (.inr rfl) hselects

end Assertion

/-- A reserved mode is rejected exactly in a debug build, where both the instruction
and `fcsr` have the mode `DYN`, and not by the two conversions that select no
mode; everywhere else the operation is performed. -/
theorem modeRejected_iff (env : Env H) (insn : RoundingInsn) {m : Machine H}
    {word : UndecodedInsn} (hfetch : m.sim.memory.fetch env.build m.sim.ip = .ok word)
    (hdecode : decode word = some insn.mnem) (hreserved : m.sim.SelectsReserved ⟨word⟩) :
    ModeRejected env m ↔
      env.build = .debug ∧ ((RvInsn.mk word).rm = 7 ∧ m.sim.frm = 7) ∧
        ¬ (insn = .FCVT_S_W ∨ insn = .FCVT_S_WU) := by
  have hexecute := executeInsn_run env hfetch hdecode
  rw [← RVSim.selectedRM_eq_DYN_iff]
  constructor
  · rintro ⟨fault, m', herror, _⟩
    rw [hexecute] at herror
    by_contra hcompletes
    have hruns : ∃ m'', (getInsnCallback env insn.mnem word).run m = .ok () m'' := by
      by_cases hconv : insn = .FCVT_S_W ∨ insn = .FCVT_S_WU
      · exact ⟨_, RoundingInsn.convert_run hconv⟩
      · have hassert : env.build = .release ∨ m.sim.selectedRM ⟨word⟩ ≠ .DYN := by
          cases hbuild : env.build with
          | release => exact .inl rfl
          | debug => exact .inr fun hdyn => hcompletes ⟨hbuild, hdyn, hconv⟩
        exact ⟨_, insn.callback_run_of_selects
          (selects_of_reserved hreserved.softfloat? hassert)⟩
    obtain ⟨m'', hrun⟩ := hruns
    cases hrun.symm.trans herror
  · rintro ⟨hbuild, hdyn, hselects⟩
    exact ⟨_, _, hexecute.trans (RoundingInsn.callback_assert hselects hbuild hdyn), trivial, rfl⟩

/-- `fdiv.s f3, f1, f2` with this mode field. -/
def divideWord (rm : BitVec 3) : UndecodedInsn :=
  InsnMnemonic.FDIV_S.encode ⟨3, 1, 2, 0, rm, 0, 0, 0⟩

/-- About to divide one by three, with this `fcsr` and this mode left behind. -/
def dividingMachine (rm : BitVec 3) (fcsr : Register) (left : BitVec 8) :
    Machine (List MemByte) where
  sim :=
    { memory := ⟨[⟨0x1000, 0x1004, LittleEndian.toBytes 4 (divideWord rm), true, false, true⟩]⟩
      ip := 0x1000
      shouldStop := false
      xregs := Vector.replicate 32 0
      fregs := Vector.ofFn fun i =>
        if i.val = 1 then 0x3f800000 else if i.val = 2 then 0x40400000 else 0
      fcsr }
  softfloat := ⟨left, 0⟩
  host := []

/-- A library that knows one third, rounded in any of the modes. -/
def SoftFloat.oneThird : SoftFloat :=
  { SoftFloat.integers with
    f32_div := fun mode _ _ =>
      (if mode = softfloat_round_minMag ∨ mode = softfloat_round_min then 0x3eaaaaaa
        else 0x3eaaaaab, 1) }

def thirdEnv (build : Build) : Env (List MemByte) := ⟨build, .oneThird, HostIO.queue⟩

/-- Both fields say `DYN`, in a debug build. -/
theorem modeRejected_debug :
    ModeRejected (thirdEnv .debug) (dividingMachine 7 0xe0 softfloat_round_min) := by
  have hfetch : (dividingMachine 7 0xe0 softfloat_round_min).sim.memory.fetch .debug 0x1000 =
      .ok (divideWord 7) := by
    decide
  have hfields : (RvInsn.mk (divideWord 7)).rm = 7 ∧
      (dividingMachine 7 0xe0 softfloat_round_min).sim.frm = 7 := by
    decide
  have hreserved : (dividingMachine 7 0xe0 softfloat_round_min).sim.SelectsReserved
      ⟨divideWord 7⟩ :=
    .inr (.inr ⟨hfields.1, .inr (.inr hfields.2)⟩)
  exact (modeRejected_iff (thirdEnv .debug) .FDIV_S hfetch (decode_encode _ _) hreserved).mpr
    ⟨rfl, hfields, by simp⟩

theorem dividingMachine_run (build : Build) (left : BitVec 8) :
    (executeInsn (thirdEnv build)).run (dividingMachine 5 0 left) =
      .ok () ((dividingMachine 5 0 left).afterRounding ⟨divideWord 5⟩ left
        (RoundingInsn.FDIV_S.eval .oneThird (dividingMachine 5 0 left).sim ⟨divideWord 5⟩
          left)) := by
  have hword : (dividingMachine 5 0 0).sim.memory.fetch build 0x1000 = .ok (divideWord 5) := by
    cases build with
    | debug => decide
    | release => decide
  have hfetch : (dividingMachine 5 0 left).sim.memory.fetch (thirdEnv build).build
      (dividingMachine 5 0 left).sim.ip = .ok (divideWord 5) := hword
  have hreserved : ((dividingMachine 5 0 0).sim.selectedRM ⟨divideWord 5⟩).softfloat? = none := by
    decide
  have hnamed : (dividingMachine 5 0 0).sim.selectedRM ⟨divideWord 5⟩ ≠ .DYN := by
    decide
  have hselects : Selects (thirdEnv build) (dividingMachine 5 0 left) ⟨divideWord 5⟩ 0 left :=
    selects_of_reserved hreserved (.inr hnamed)
  have hdecode : decode (divideWord 5) = some RoundingInsn.FDIV_S.mnem := decode_encode _ _
  exact (executeInsn_run (thirdEnv build) hfetch hdecode).trans
    (RoundingInsn.FDIV_S.callback_run_of_selects hselects)

/-- With the reserved mode 5 the division completes, in both builds, and rounds as
the instructions before it have left the library. -/
theorem reserved_mode_divides :
    decode (divideWord 5) = some .FDIV_S ∧
      (∀ left, (dividingMachine 5 0 left).sim.SelectsReserved ⟨divideWord 5⟩) ∧
      (∀ build, ¬ ModeRejected (thirdEnv build) (dividingMachine 5 0 softfloat_round_min)) ∧
      ∀ build, ∃ m₁ m₂,
        (executeInsn (thirdEnv build)).run (dividingMachine 5 0 softfloat_round_min) =
          .ok () m₁ ∧
        (executeInsn (thirdEnv build)).run (dividingMachine 5 0 softfloat_round_max) =
          .ok () m₂ ∧
        m₁.sim.getFReg 3 = 0x3eaaaaaa ∧ m₂.sim.getFReg 3 = 0x3eaaaaab := by
  refine ⟨decode_encode _ _, fun _ => .inl (by decide), ?_, ?_⟩
  · rintro build ⟨fault, m', herror, _⟩
    cases (dividingMachine_run build softfloat_round_min).symm.trans herror
  · intro build
    refine ⟨_, _, dividingMachine_run build _, dividingMachine_run build _, ?_, ?_⟩
    · decide
    · decide

end RiscvSim
