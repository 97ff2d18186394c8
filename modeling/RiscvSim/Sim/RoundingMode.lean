import RiscvSim.Lib.Rounding
import RiscvSim.Sim.DecodeEncode
import RiscvSim.Sim.Execute

/-!
Which rounding mode a floating-point instruction runs under. The mode is a
global of the library, so what an instruction computes may depend on what the
instructions before it left there; the specification evaluates each operation
under the mode that the instruction selects, and depends on the guest's own
state only.
-/

namespace RiscvSim

open SimM

variable {H : Type}

/-- The rounding instructions. -/
inductive RoundingInsn where
  | FADD_S | FSUB_S | FMUL_S | FDIV_S | FSQRT_S
  | FMADD_S | FMSUB_S | FNMSUB_S | FNMADD_S
  | FCVT_W_S | FCVT_WU_S | FCVT_S_W | FCVT_S_WU
  deriving DecidableEq

def RoundingInsn.mnem : RoundingInsn → InsnMnemonic
  | .FADD_S => .FADD_S
  | .FSUB_S => .FSUB_S
  | .FMUL_S => .FMUL_S
  | .FDIV_S => .FDIV_S
  | .FSQRT_S => .FSQRT_S
  | .FMADD_S => .FMADD_S
  | .FMSUB_S => .FMSUB_S
  | .FNMSUB_S => .FNMSUB_S
  | .FNMADD_S => .FNMADD_S
  | .FCVT_W_S => .FCVT_W_S
  | .FCVT_WU_S => .FCVT_WU_S
  | .FCVT_S_W => .FCVT_S_W
  | .FCVT_S_WU => .FCVT_S_WU

/-- What an operation returns, by the register file it goes to, and the
exceptions it raises. -/
inductive Rounded where
  | fReg (value : FRegister) (raised : BitVec 8)
  | xReg (value : Register) (raised : BitVec 8)

/-- The operation of an instruction under a rounding mode. -/
def RoundingInsn.eval (lib : SoftFloat) (sim : RVSim) (insn : RvInsn) (mode : BitVec 8) :
    RoundingInsn → Rounded
  | .FADD_S => toFReg (lib.f32_add mode a b)
  | .FSUB_S => toFReg (lib.f32_sub mode a b)
  | .FMUL_S => toFReg (lib.f32_mul mode a b)
  | .FDIV_S => toFReg (lib.f32_div mode a b)
  | .FSQRT_S => toFReg (lib.f32_sqrt mode a)
  | .FMADD_S => toFReg (lib.f32_mulAdd mode a b c)
  | .FMSUB_S => toFReg (lib.f32_mulAdd mode a b (f32_neg c))
  | .FNMSUB_S => toFReg (lib.f32_mulAdd mode (f32_neg a) b c)
  | .FNMADD_S =>
      let product := lib.f32_mulAdd mode a b c
      .fReg (f32_neg product.1) product.2
  | .FCVT_W_S => toXReg (lib.f32_to_i32 a mode true)
  | .FCVT_WU_S => toXReg (lib.f32_to_ui32 a mode true)
  | .FCVT_S_W => toFReg (lib.i32_to_f32 mode x)
  | .FCVT_S_WU => toFReg (lib.ui32_to_f32 mode x)
where
  a : FRegister := sim.getFReg insn.rs1Index
  b : FRegister := sim.getFReg insn.rs2Index
  c : FRegister := sim.getFReg insn.rs3Index
  x : Register := sim.getXReg insn.rs1Index
  toFReg (res : FRegister × BitVec 8) : Rounded := .fReg res.1 res.2
  toXReg (res : Register × BitVec 8) : Rounded := .xReg res.1 res.2

def Rounded.raised : Rounded → BitVec 8
  | .fReg _ raised => raised
  | .xReg _ raised => raised

namespace RVSim

/-- Exceptions accumulate in the low bits of `fcsr`. -/
def raise (sim : RVSim) (raised : BitVec 8) : RVSim :=
  { sim with fcsr := sim.fcsr ||| (raised.setWidth 32 &&& 0x1f) }

def retire (sim : RVSim) (insn : RvInsn) : Rounded → RVSim
  | .fReg value raised => ((sim.setFReg insn.rdIndex value).raise raised).step
  | .xReg value raised => ((sim.setXReg insn.rdIndex value).raise raised).step

/-- What an instruction retires is there in its register. -/
theorem getFReg_retire (sim : RVSim) (insn : RvInsn) (value : FRegister) (raised : BitVec 8) :
    (sim.retire insn (.fReg value raised)).getFReg insn.rdIndex = value := by
  change (sim.setFReg insn.rdIndex value).getFReg insn.rdIndex = value
  rw [getFReg_setFReg, if_pos rfl]

theorem getXReg_retire (sim : RVSim) {insn : RvInsn} (value : Register) (raised : BitVec 8)
    (hrd : insn.rdIndex ≠ XRegAlias.zero) :
    (sim.retire insn (.xReg value raised)).getXReg insn.rdIndex = value := by
  change (sim.setXReg insn.rdIndex value).getXReg insn.rdIndex = value
  rw [getXReg_setXReg, if_neg hrd, if_pos rfl]

/-- The mode in the instruction, or the one in `fcsr` where the instruction
says so. -/
def selectedRM (sim : RVSim) (insn : RvInsn) : RoundingMode :=
  RoundingMode.toEnum (if insn.rm = 7 then (sim.fcsr >>> 5) &&& 0x7 else insn.rm)

end RVSim

/-- The machine behind an instruction that ran under `mode`. -/
def Machine.afterRounding (m : Machine H) (insn : RvInsn) (mode : BitVec 8) (res : Rounded) :
    Machine H :=
  { m with sim := m.sim.retire insn res, softfloat := ⟨mode, res.raised⟩ }

/-- The library's name of a mode; the last two are no modes to round in. -/
def RoundingMode.softfloat? : RoundingMode → Option (BitVec 8)
  | .RNE => some softfloat_round_near_even
  | .RTZ => some softfloat_round_minMag
  | .RDN => some softfloat_round_min
  | .RUP => some softfloat_round_max
  | .RMM => some softfloat_round_near_maxMag
  | .DYN => none
  | .unnamed _ => none

/-- The direction that a mode stands for. -/
def RoundingMode.direction? : RoundingMode → Option Rounding.Direction
  | .RNE => some .nearestEven
  | .RTZ => some .towardZero
  | .RDN => some .down
  | .RUP => some .up
  | .RMM => some .nearestAway
  | .DYN => none
  | .unnamed _ => none

/-- The library's name of a direction. -/
def softfloatRound : Rounding.Direction → BitVec 8
  | .nearestEven => softfloat_round_near_even
  | .towardZero => softfloat_round_minMag
  | .down => softfloat_round_min
  | .up => softfloat_round_max
  | .nearestAway => softfloat_round_near_maxMag

/-- The direction that the library reads off a mode; there are no other modes. -/
def roundDirection (mode : BitVec 8) : Rounding.Direction :=
  if mode = softfloat_round_minMag then .towardZero
  else if mode = softfloat_round_min then .down
  else if mode = softfloat_round_max then .up
  else if mode = softfloat_round_near_maxMag then .nearestAway
  else .nearestEven

theorem roundDirection_softfloatRound (direction : Rounding.Direction) :
    roundDirection (softfloatRound direction) = direction := by
  cases direction <;> rfl

theorem RoundingMode.softfloat?_of_direction {mode : RoundingMode} {direction : Rounding.Direction}
    (h : mode.direction? = some direction) :
    mode.softfloat? = some (softfloatRound direction) := by
  cases mode <;> cases h <;> rfl

theorem RoundingMode.toEnum_eq_DYN_iff (value : Register) :
    RoundingMode.toEnum value = .DYN ↔ value = 7 := by
  unfold RoundingMode.toEnum
  split_ifs <;> simp_all

theorem RVSim.getRM_eq (sim : RVSim) (build : Build) (insn : RvInsn) :
    sim.getRM build insn.rm = .ok (sim.selectedRM insn) := by
  unfold RVSim.getRM RVSim.selectedRM
  by_cases hdyn : insn.rm = 7
  · rw [if_pos ((RoundingMode.toEnum_eq_DYN_iff _).mpr hdyn), if_pos hdyn]
    rfl
  · rw [if_neg (mt (RoundingMode.toEnum_eq_DYN_iff _).mp hdyn), if_neg hdyn]
    rfl

section Library

variable {env : Env H} {m : Machine H}

theorem softFloatClearFExcp_run :
    (softFloatClearFExcp : SimM H Unit).run m =
      .ok () { m with softfloat := ⟨m.softfloat.roundingMode, 0⟩ } := rfl

/-- `selectRM` returns `mode` and leaves `global` in the library, whatever flags
are there. -/
def Selects (env : Env H) (m : Machine H) (insn : RvInsn) (mode global : BitVec 8) : Prop :=
  ∀ flags, (selectRM env insn).run { m with softfloat := ⟨m.softfloat.roundingMode, flags⟩ } =
    .ok mode { m with softfloat := ⟨global, flags⟩ }

theorem selects_of_mode {insn : RvInsn} {mode : BitVec 8}
    (hmode : (m.sim.selectedRM insn).softfloat? = some mode) : Selects env m insn mode mode := by
  intro flags
  simp only [selectRM, EStateM.run_bind, run_getSim, RVSim.getRM_eq, run_lift_ok]
  cases hrm : m.sim.selectedRM insn <;> rw [hrm] at hmode <;> cases hmode <;> rfl

/-- A mode that the library has no name for leaves its mode as it is, unless the
assertion about it stops the program. -/
theorem selects_of_reserved {insn : RvInsn}
    (hreserved : (m.sim.selectedRM insn).softfloat? = none)
    (hassert : env.build = .release ∨ m.sim.selectedRM insn ≠ .DYN) :
    Selects env m insn 0 m.softfloat.roundingMode := by
  intro flags
  simp only [selectRM, EStateM.run_bind, run_getSim, RVSim.getRM_eq, run_lift_ok]
  cases hrm : m.sim.selectedRM insn with
  | DYN =>
      have hbuild : env.build = .release := hassert.resolve_right fun hne => hne hrm
      rw [hbuild]
      rfl
  | unnamed value => rfl
  | RNE | RTZ | RDN | RUP | RMM =>
      rw [hrm] at hreserved
      cases hreserved

/-- Replacing the masked bits by themselves and more of them. -/
theorem replace_masked_bits (fcsr raised mask : BitVec 32) :
    (fcsr &&& ~~~mask) ||| (((fcsr &&& mask) ||| (raised &&& mask)) &&& mask) =
      fcsr ||| (raised &&& mask) := by
  apply BitVec.eq_of_getLsbD_eq
  intro i hi
  simp only [BitVec.getLsbD_or, BitVec.getLsbD_and, BitVec.getLsbD_not, hi, decide_true,
    Bool.true_and]
  cases fcsr.getLsbD i <;> cases raised.getLsbD i <;> cases mask.getLsbD i <;> rfl

theorem setCSR_fflags (sim : RVSim) (build : Build) (raised : BitVec 8) :
    sim.setCSR build CSR.fflags.fromEnum
        ((sim.fcsr &&& 0x1f) ||| (raised.setWidth 32 &&& 0x1f)) = .ok (sim.raise raised) := by
  have hmerge := replace_masked_bits sim.fcsr (raised.setWidth 32) 0x1f
  exact congrArg (fun fcsr => Except.ok { sim with fcsr }) hmerge

/-- The early return for no exceptions makes no difference. -/
theorem softFloatSetFExcp_run (build : Build) :
    (softFloatSetFExcp build).run m =
      .ok () (m.mapSim (·.raise m.softfloat.exceptionFlags)) := by
  unfold softFloatSetFExcp
  simp only [EStateM.run_bind, EStateM.run_get]
  by_cases hnone : m.softfloat.exceptionFlags.setWidth 32 &&& 0x1f = (0 : Register)
  · have hsame : m.sim.raise m.softfloat.exceptionFlags = m.sim := by
      rw [RVSim.raise, hnone]
      exact congrArg (fun fcsr => { m.sim with fcsr }) BitVec.or_zero
    rw [if_pos hnone, Machine.mapSim, hsame]
    rfl
  · have hget : m.sim.getCSR build CSR.fflags.fromEnum = .ok (m.sim.fcsr &&& 0x1f) := rfl
    rw [if_neg hnone]
    simp only [getCSR, setCSR, EStateM.run_bind, run_getSim, hget, run_lift_ok, setCSR_fflags,
      run_modifySim]
    rfl

/-- A computation made of one library call, behind a cleared flag word. -/
def Calls {α : Type} (call : SimM H α) (op : BitVec 8 → α × BitVec 8) : Prop :=
  ∀ (m : Machine H) (mode : BitVec 8), call.run { m with softfloat := ⟨mode, 0⟩ } =
    .ok (op mode).1 { m with softfloat := ⟨mode, (op mode).2⟩ }

theorem callSoftFloat_calls {α : Type} (op : BitVec 8 → α × BitVec 8) :
    Calls (callSoftFloat op : SimM H α) op := by
  intro m mode
  have hflags : 0 ||| (op mode).2 = (op mode).2 := BitVec.zero_or
  change EStateM.Result.ok (op mode).1 { m with softfloat := ⟨mode, 0 ||| (op mode).2⟩ } = _
  rw [hflags]

variable {word : UndecodedInsn} {mode global : BitVec 8}

theorem executeRRRFBinOp_run {fbinOp : FRegister → FRegister → SimM H FRegister}
    {op : BitVec 8 → FRegister → FRegister → FRegister × BitVec 8}
    (hop : ∀ a b, Calls (fbinOp a b) fun mode => op mode a b)
    (hselects : Selects env m ⟨word⟩ mode global) :
    (executeRRRFBinOp env word fbinOp).run m =
      let insn : RvInsn := ⟨word⟩
      let res := op global (m.sim.getFReg insn.rs1Index) (m.sim.getFReg insn.rs2Index)
      .ok () (m.afterRounding insn global (.fReg res.1 res.2)) := by
  simp only [executeRRRFBinOp, EStateM.run_bind, softFloatClearFExcp_run, hselects 0,
    run_getFReg, hop _ _ _ _, run_setFReg, softFloatSetFExcp_run, run_step]
  rfl

theorem executeRRRRFTernOp_run {fternOp : FRegister → FRegister → FRegister → SimM H FRegister}
    {op : BitVec 8 → FRegister → FRegister → FRegister → FRegister × BitVec 8}
    (hop : ∀ a b c, Calls (fternOp a b c) fun mode => op mode a b c)
    (hselects : Selects env m ⟨word⟩ mode global) :
    (executeRRRRFTernOp env word fternOp).run m =
      let insn : RvInsn := ⟨word⟩
      let res := op global (m.sim.getFReg insn.rs1Index) (m.sim.getFReg insn.rs2Index)
        (m.sim.getFReg insn.rs3Index)
      .ok () (m.afterRounding insn global (.fReg res.1 res.2)) := by
  simp only [executeRRRRFTernOp, EStateM.run_bind, softFloatClearFExcp_run, hselects 0,
    run_getFReg, hop _ _ _ _ _, run_setFReg, softFloatSetFExcp_run,
    run_step]
  rfl

/-- A comparison rounds nothing and selects no mode. -/
theorem executeRRRCmpOp_run {fcmpOp : FRegister → FRegister → SimM H Bool}
    {op : FRegister → FRegister → Bool × BitVec 8}
    (hop : ∀ a b, Calls (fcmpOp a b) fun _ => op a b) :
    (executeRRRCmpOp env word fcmpOp).run m =
      let insn : RvInsn := ⟨word⟩
      let res := op (m.sim.getFReg insn.rs1Index) (m.sim.getFReg insn.rs2Index)
      .ok () (m.afterRounding insn m.softfloat.roundingMode
        (.xReg (if res.1 then 1 else 0) res.2)) := by
  simp only [executeRRRCmpOp, EStateM.run_bind, softFloatClearFExcp_run, run_getFReg, hop _ _ _ _,
    run_setXReg, softFloatSetFExcp_run, run_step]
  rfl

theorem negated_calls (a b c : FRegister) :
    Calls (H := H) (do
        return f32_neg (← callSoftFloat fun mode => env.softfloat.f32_mulAdd mode a b c))
      fun mode => (f32_neg (env.softfloat.f32_mulAdd mode a b c).1,
        (env.softfloat.f32_mulAdd mode a b c).2) := by
  intro m mode
  simp only [EStateM.run_bind, callSoftFloat_calls _ _ _]
  rfl

/-- The mode that an instruction runs under: two conversions take whatever mode
is there. -/
def RoundingInsn.usedMode (selected left : BitVec 8) : RoundingInsn → BitVec 8
  | .FCVT_S_W | .FCVT_S_WU => left
  | _ => selected

/-- The two conversions to integers get the mode that `selectRM` returned, the
other operations find theirs in the library. -/
def RoundingInsn.operationMode (returned used : BitVec 8) : RoundingInsn → BitVec 8
  | .FCVT_W_S | .FCVT_WU_S => returned
  | _ => used

/-- The rounding mode that the operation of an instruction runs under. Where the
selected mode has no name in the library, nothing is selected and zero is passed
on. -/
def Machine.operationMode (m : Machine H) (insn : RvInsn) (rounding : RoundingInsn) : BitVec 8 :=
  let left := m.softfloat.roundingMode
  match (m.sim.selectedRM insn).softfloat? with
  | some mode => rounding.operationMode mode (rounding.usedMode mode left)
  | none => rounding.operationMode 0 (rounding.usedMode left left)

/-- The two conversions that select no mode. -/
theorem RoundingInsn.convert_run {insn : RoundingInsn}
    (hconv : insn = .FCVT_S_W ∨ insn = .FCVT_S_WU) :
    (getInsnCallback env insn.mnem word).run m =
      let left := m.softfloat.roundingMode
      .ok () (m.afterRounding ⟨word⟩ left (insn.eval env.softfloat m.sim ⟨word⟩ left)) := by
  rcases hconv with rfl | rfl
  · change (callbackFCVT_S_W env word).run m = _
    simp only [callbackFCVT_S_W, EStateM.run_bind, softFloatClearFExcp_run, run_getXReg,
      callSoftFloat_calls _ _ _, run_setFReg, softFloatSetFExcp_run, run_step]
    rfl
  · change (callbackFCVT_S_WU env word).run m = _
    simp only [callbackFCVT_S_WU, EStateM.run_bind, softFloatClearFExcp_run, run_getXReg,
      callSoftFloat_calls _ _ _, run_setFReg, softFloatSetFExcp_run, run_step]
    rfl

/-- What each callback does, wherever its mode comes from. -/
theorem RoundingInsn.callback_run_of_selects (insn : RoundingInsn)
    (hselects : Selects env m ⟨word⟩ mode global) :
    (getInsnCallback env insn.mnem word).run m =
      let used := insn.usedMode global m.softfloat.roundingMode
      .ok () (m.afterRounding ⟨word⟩ used
        (insn.eval env.softfloat m.sim ⟨word⟩ (insn.operationMode mode used))) := by
  cases insn with
  | FADD_S => exact executeRRRFBinOp_run (fun _ _ => callSoftFloat_calls _) hselects
  | FSUB_S => exact executeRRRFBinOp_run (fun _ _ => callSoftFloat_calls _) hselects
  | FMUL_S => exact executeRRRFBinOp_run (fun _ _ => callSoftFloat_calls _) hselects
  | FDIV_S => exact executeRRRFBinOp_run (fun _ _ => callSoftFloat_calls _) hselects
  | FSQRT_S =>
      change (callbackFSQRT_S env word).run m = _
      simp only [callbackFSQRT_S, EStateM.run_bind, softFloatClearFExcp_run, hselects 0,
        run_getFReg, callSoftFloat_calls _ _ _, run_setFReg, softFloatSetFExcp_run, run_step]
      rfl
  | FMADD_S => exact executeRRRRFTernOp_run (fun _ _ _ => callSoftFloat_calls _) hselects
  | FMSUB_S => exact executeRRRRFTernOp_run (fun _ _ _ => callSoftFloat_calls _) hselects
  | FNMSUB_S => exact executeRRRRFTernOp_run (fun _ _ _ => callSoftFloat_calls _) hselects
  | FNMADD_S =>
      -- the one operation that goes on after the library call
      exact executeRRRRFTernOp_run negated_calls hselects
  | FCVT_W_S =>
      change (callbackFCVT_W_S env word).run m = _
      simp only [callbackFCVT_W_S, EStateM.run_bind, softFloatClearFExcp_run, run_getFReg,
        hselects 0, callSoftFloat_calls _ _ _, run_setXReg, softFloatSetFExcp_run, run_step]
      rfl
  | FCVT_WU_S =>
      change (callbackFCVT_WU_S env word).run m = _
      simp only [callbackFCVT_WU_S, EStateM.run_bind, softFloatClearFExcp_run, run_getFReg,
        hselects 0, callSoftFloat_calls _ _ _, run_setXReg, softFloatSetFExcp_run, run_step]
      rfl
  | FCVT_S_W => exact convert_run (.inl rfl)
  | FCVT_S_WU => exact convert_run (.inr rfl)

/-- With a mode that the library has a name for, each callback does its operation
under the mode it uses. -/
theorem RoundingInsn.callback_run (insn : RoundingInsn)
    (hmode : (m.sim.selectedRM ⟨word⟩).softfloat? = some mode) :
    (getInsnCallback env insn.mnem word).run m =
      let used := insn.usedMode mode m.softfloat.roundingMode
      .ok () (m.afterRounding ⟨word⟩ used (insn.eval env.softfloat m.sim ⟨word⟩ used)) := by
  have hsame : insn.operationMode mode (insn.usedMode mode m.softfloat.roundingMode) =
      insn.usedMode mode m.softfloat.roundingMode := by
    cases insn <;> rfl
  rw [insn.callback_run_of_selects (selects_of_mode hmode)]
  dsimp only
  rw [hsame]

end Library

/-- The guest states are the same, up to what stops the loop. -/
structure RVSim.Agrees (s t : RVSim) : Prop where
  ip : s.ip = t.ip
  xregs : ∀ i, s.getXReg i = t.getXReg i
  fregs : s.fregs = t.fregs
  memory : s.memory = t.memory
  fcsr : s.fcsr = t.fcsr

namespace RVSim.Agrees

variable {s t : RVSim}

theorem getFReg (h : s.Agrees t) (i : RegIndex) : s.getFReg i = t.getFReg i := by
  rw [RVSim.getFReg, h.fregs]
  rfl

theorem selectedRM (h : s.Agrees t) (insn : RvInsn) : s.selectedRM insn = t.selectedRM insn := by
  rw [RVSim.selectedRM, h.fcsr]
  rfl

theorem eval (h : s.Agrees t) (lib : SoftFloat) (word : RvInsn) (mode : BitVec 8)
    (insn : RoundingInsn) : insn.eval lib s word mode = insn.eval lib t word mode := by
  cases insn <;>
    simp only [RoundingInsn.eval, RoundingInsn.eval.a, RoundingInsn.eval.b, RoundingInsn.eval.c,
      RoundingInsn.eval.x, h.getFReg, h.xregs]

theorem raise (h : s.Agrees t) (raised : BitVec 8) : (s.raise raised).Agrees (t.raise raised) := by
  refine ⟨h.ip, h.xregs, h.fregs, h.memory, ?_⟩
  exact congrArg (· ||| (raised.setWidth 32 &&& 0x1f)) h.fcsr

theorem step (h : s.Agrees t) : s.step.Agrees t.step :=
  ⟨congrArg (· + kStepSize) h.ip, h.xregs, h.fregs, h.memory, h.fcsr⟩

theorem setFReg (h : s.Agrees t) (i : RegIndex) (value : FRegister) :
    (s.setFReg i value).Agrees (t.setFReg i value) :=
  ⟨h.ip, h.xregs, congrArg (·.set i value) h.fregs, h.memory, h.fcsr⟩

theorem setXReg (h : s.Agrees t) (i : RegIndex) (value : Register) :
    (s.setXReg i value).Agrees (t.setXReg i value) := by
  refine ⟨?_, ?_, ?_, ?_, ?_⟩
  · rw [setXReg_ip, setXReg_ip, h.ip]
  · intro j
    rw [getXReg_setXReg, getXReg_setXReg, h.xregs]
  · rw [setXReg_fregs, setXReg_fregs, h.fregs]
  · rw [setXReg_memory, setXReg_memory, h.memory]
  · rw [setXReg_fcsr, setXReg_fcsr, h.fcsr]

theorem retire (h : s.Agrees t) (insn : RvInsn) (res : Rounded) :
    (s.retire insn res).Agrees (t.retire insn res) := by
  cases res with
  | fReg value raised => exact ((h.setFReg _ _).raise _).step
  | xReg value raised => exact ((h.setXReg _ _).raise _).step

end RVSim.Agrees

/-- Whatever the library computes, both steps succeed, the guest states behind
them agree, and each is the one that the operation under `mode` gives. -/
def RoundsAlike (build : Build) (hostCalls : HostIO H) (insn : RoundingInsn) (word : UndecodedInsn)
    (mode : BitVec 8) (m₁ m₂ : Machine H) : Prop :=
  ∀ lib : SoftFloat, ∃ m₁' m₂' : Machine H,
    (executeInsn ⟨build, lib, hostCalls⟩).run m₁ = .ok () m₁' ∧
    (executeInsn ⟨build, lib, hostCalls⟩).run m₂ = .ok () m₂' ∧
    m₁'.sim.Agrees m₂'.sim ∧
    m₁'.sim = m₁.sim.retire ⟨word⟩ (insn.eval lib m₁.sim ⟨word⟩ mode) ∧
    m₂'.sim = m₂.sim.retire ⟨word⟩ (insn.eval lib m₂.sim ⟨word⟩ mode)

/-- A library whose conversions from integers return the mode itself. -/
def SoftFloat.modeProbe : SoftFloat :=
  { SoftFloat.integers with
    i32_to_f32 := fun mode _ => (mode.setWidth 32, 0)
    ui32_to_f32 := fun mode _ => (mode.setWidth 32, 0) }

/-- With the probe, the two conversions tell any two modes apart. -/
theorem mode_eq_of_probe {insn : RoundingInsn} (hconv : insn = .FCVT_S_W ∨ insn = .FCVT_S_WU)
    {sim : RVSim} {word : RvInsn} {mode mode' : BitVec 8}
    (h : sim.retire word (insn.eval .modeProbe sim word mode) =
      sim.retire word (insn.eval .modeProbe sim word mode')) : mode = mode' := by
  have hreg : (mode.setWidth 32 : FRegister) = mode'.setWidth 32 := by
    have hrd := congrArg (·.getFReg word.rdIndex) h
    rcases hconv with rfl | rfl
    · exact (RVSim.getFReg_retire _ _ _ _).symm.trans (hrd.trans (RVSim.getFReg_retire _ _ _ _))
    · exact (RVSim.getFReg_retire _ _ _ _).symm.trans (hrd.trans (RVSim.getFReg_retire _ _ _ _))
  have hback := congrArg (BitVec.setWidth 8) hreg
  simpa using hback

theorem RoundingInsn.usedMode_eq {insn : RoundingInsn} {mode left : BitVec 8}
    (h : (insn ≠ .FCVT_S_W ∧ insn ≠ .FCVT_S_WU) ∨ left = mode) :
    insn.usedMode mode left = mode := by
  rcases h with ⟨hW, hWU⟩ | rfl
  · cases insn <;> first | rfl | contradiction
  · cases insn <;> rfl

/-- One iteration of the loop on a rounding instruction. -/
theorem executeInsn_rounding (env : Env H) {insn : RoundingInsn} {word : UndecodedInsn}
    {m : Machine H} {mode : BitVec 8}
    (hfetch : m.sim.memory.fetch env.build m.sim.ip = .ok word)
    (hdecode : decode word = some insn.mnem)
    (hmode : (m.sim.selectedRM ⟨word⟩).softfloat? = some mode) :
    (executeInsn env).run m =
      let used := insn.usedMode mode m.softfloat.roundingMode
      .ok () (m.afterRounding ⟨word⟩ used (insn.eval env.softfloat m.sim ⟨word⟩ used)) := by
  rw [executeInsn_run env hfetch hdecode]
  exact insn.callback_run hmode

/-- The states behind a rounding instruction do not depend on the library's
global mode, except for the two conversions from integers, which round in the
mode that they find. -/
theorem roundsAlike_iff (build : Build) (hostCalls : HostIO H) (insn : RoundingInsn)
    {word : UndecodedInsn} {m₁ m₂ : Machine H} {mode : BitVec 8} (hagree : m₁.sim.Agrees m₂.sim)
    (hfetch : m₁.sim.memory.fetch build m₁.sim.ip = .ok word)
    (hdecode : decode word = some insn.mnem)
    (hmode : (m₁.sim.selectedRM ⟨word⟩).softfloat? = some mode) :
    RoundsAlike build hostCalls insn word mode m₁ m₂ ↔
      (insn ≠ .FCVT_S_W ∧ insn ≠ .FCVT_S_WU) ∨
        (m₁.softfloat.roundingMode = mode ∧ m₂.softfloat.roundingMode = mode) := by
  have hfetch₂ : m₂.sim.memory.fetch build m₂.sim.ip = .ok word := by
    rw [← hagree.memory, ← hagree.ip, hfetch]
  have hmode₂ : (m₂.sim.selectedRM ⟨word⟩).softfloat? = some mode := by
    rw [← hagree.selectedRM, hmode]
  have hrun₁ (lib : SoftFloat) :=
    executeInsn_rounding ⟨build, lib, hostCalls⟩ hfetch hdecode hmode
  have hrun₂ (lib : SoftFloat) :=
    executeInsn_rounding ⟨build, lib, hostCalls⟩ hfetch₂ hdecode hmode₂
  constructor
  · intro h
    by_cases hconv : insn = .FCVT_S_W ∨ insn = .FCVT_S_WU
    · right
      obtain ⟨m₁', m₂', hok₁, hok₂, -, hspec₁, hspec₂⟩ := h .modeProbe
      rw [hrun₁] at hok₁
      rw [hrun₂] at hok₂
      cases hok₁
      cases hok₂
      have hused (left : BitVec 8) : insn.usedMode mode left = left := by
        obtain rfl | rfl := hconv <;> rfl
      have hleft₁ := mode_eq_of_probe hconv hspec₁
      have hleft₂ := mode_eq_of_probe hconv hspec₂
      rw [hused] at hleft₁ hleft₂
      exact ⟨hleft₁, hleft₂⟩
    · left
      rwa [not_or] at hconv
  · intro h lib
    have hused₁ : insn.usedMode mode m₁.softfloat.roundingMode = mode :=
      RoundingInsn.usedMode_eq (h.imp_right And.left)
    have hused₂ : insn.usedMode mode m₂.softfloat.roundingMode = mode :=
      RoundingInsn.usedMode_eq (h.imp_right And.right)
    refine ⟨_, _, hrun₁ lib, hrun₂ lib, ?_, ?_, ?_⟩
    · dsimp only [Machine.afterRounding]
      rw [hused₁, hused₂, hagree.eval]
      exact hagree.retire _ _
    · dsimp only [Machine.afterRounding]
      rw [hused₁]
    · dsimp only [Machine.afterRounding]
      rw [hused₂]

/-- About to execute a word, with these values in the first three registers. -/
def operandMachine (word : UndecodedInsn) (a b c : FRegister) : Machine (List MemByte) where
  sim :=
    { memory := ⟨[⟨0x1000, 0x1004, LittleEndian.toBytes 4 word, true, false, true⟩]⟩
      ip := 0x1000
      shouldStop := false
      xregs := Vector.replicate 32 0
      fregs := Vector.ofFn fun i =>
        if i.val = 1 then a else if i.val = 2 then b else if i.val = 3 then c else 0
      fcsr := 0 }
  softfloat := ⟨0, 0⟩
  host := []

section Operands

variable (word : UndecodedInsn) (a b c : FRegister)

theorem operandMachine_fetch (build : Build) :
    (operandMachine word a b c).sim.memory.fetch build (operandMachine word a b c).sim.ip =
      .ok word := by
  have hall : (LittleEndian.toBytes 4 word).take 4 = LittleEndian.toBytes 4 word :=
    List.take_of_length_le (LittleEndian.toBytes_length 4 word).le
  have hword : LittleEndian.toWord 32 (LittleEndian.toBytes 4 word) = word :=
    LittleEndian.toWord_toBytes word le_rfl
  simp only [operandMachine, Memory.fetch, Memory.loadU32, loadFrom, isAddrInSegment,
    MemorySegm.offset, memcpyFrom, LittleEndian.toBytes_length]
  simp [hall, hword]

theorem operandMachine_getFReg (i : RegIndex) :
    (operandMachine word a b c).sim.getFReg i =
      if i.val = 1 then a else if i.val = 2 then b else if i.val = 3 then c else 0 := by
  simp [operandMachine, RVSim.getFReg]

theorem operandMachine_selectedRM :
    (operandMachine word a b c).sim.selectedRM ⟨word⟩ =
      RoundingMode.toEnum (if (RvInsn.mk word).rm = 7 then 0 else (RvInsn.mk word).rm) := by
  have hfrm : ((0 : Register) >>> 5) &&& 0x7 = 0 := by decide
  rw [RVSim.selectedRM, ← hfrm]
  rfl

end Operands

/-- `fcvt.s.w f1, x1, rne`. -/
def convertWord : UndecodedInsn := InsnMnemonic.FCVT_S_W.encode ⟨1, 1, 0, 0, 0, 0, 0, 0⟩

/-- About to convert `2 ^ 24 + 1`, with this mode left behind in the library. -/
def convertingMachine (left : BitVec 8) : Machine (List MemByte) where
  sim :=
    { memory := ⟨[⟨0x1000, 0x1004, LittleEndian.toBytes 4 convertWord, true, false, true⟩]⟩
      ip := 0x1000
      shouldStop := false
      xregs := Vector.ofFn fun i => if i.val = 1 then 0x1000001 else 0
      fregs := Vector.replicate 32 0
      fcsr := 0 }
  softfloat := ⟨left, 0⟩
  host := []

theorem convertingMachine_fetch (left : BitVec 8) :
    (convertingMachine left).sim.memory.fetch .release (convertingMachine left).sim.ip =
      .ok convertWord := by
  have hfetch : (convertingMachine 0).sim.memory.fetch .release 0x1000 = .ok convertWord := by
    decide
  exact hfetch

theorem convertingMachine_selects (left : BitVec 8) :
    ((convertingMachine left).sim.selectedRM ⟨convertWord⟩).softfloat? =
      some softfloat_round_near_even := by
  have hmode : ((convertingMachine 0).sim.selectedRM ⟨convertWord⟩).softfloat? =
      some softfloat_round_near_even := by
    decide
  exact hmode

/-- From the same guest state, the conversion rounds down behind one history
and up behind another. -/
theorem convert_depends_on_history :
    (convertingMachine softfloat_round_near_even).sim =
        (convertingMachine softfloat_round_max).sim ∧
      (convertingMachine softfloat_round_max).sim.selectedRM ⟨convertWord⟩ = .RNE ∧
      ∃ m₁' m₂',
        (executeInsn queueEnv).run (convertingMachine softfloat_round_near_even) = .ok () m₁' ∧
        (executeInsn queueEnv).run (convertingMachine softfloat_round_max) = .ok () m₂' ∧
        m₁'.sim.getFReg 1 = 0x4b800000 ∧ m₂'.sim.getFReg 1 = 0x4b800001 ∧
        ¬ m₁'.sim.Agrees m₂'.sim := by
  have hdecode : decode convertWord = some RoundingInsn.FCVT_S_W.mnem := decode_encode _ _
  have hrun (left : BitVec 8) := executeInsn_rounding queueEnv (convertingMachine_fetch left)
    hdecode (convertingMachine_selects left)
  have hdown : ((convertingMachine softfloat_round_near_even).afterRounding ⟨convertWord⟩
      softfloat_round_near_even (RoundingInsn.FCVT_S_W.eval queueEnv.softfloat
        (convertingMachine softfloat_round_near_even).sim ⟨convertWord⟩
        softfloat_round_near_even)).sim.getFReg 1 = 0x4b800000 := by
    decide
  have hup : ((convertingMachine softfloat_round_max).afterRounding ⟨convertWord⟩
      softfloat_round_max (RoundingInsn.FCVT_S_W.eval queueEnv.softfloat
        (convertingMachine softfloat_round_max).sim ⟨convertWord⟩
        softfloat_round_max)).sim.getFReg 1 = 0x4b800001 := by
    decide
  refine ⟨rfl, by decide, _, _, hrun _, hrun _, hdown, hup, ?_⟩
  intro hagree
  have hsame : (0x4b800000 : FRegister) = 0x4b800001 :=
    (hdown.symm.trans (hagree.getFReg 1)).trans hup
  exact absurd hsame (by decide)

/-- The same pair of states, with every library in view. -/
theorem roundsAlike_iff_convert :
    RoundsAlike .release HostIO.queue .FCVT_S_W convertWord softfloat_round_near_even
        (convertingMachine softfloat_round_near_even) (convertingMachine softfloat_round_max) ↔
      (RoundingInsn.FCVT_S_W ≠ .FCVT_S_W ∧ RoundingInsn.FCVT_S_W ≠ .FCVT_S_WU) ∨
        ((convertingMachine softfloat_round_near_even).softfloat.roundingMode =
            softfloat_round_near_even ∧
          (convertingMachine softfloat_round_max).softfloat.roundingMode =
            softfloat_round_near_even) :=
  roundsAlike_iff .release HostIO.queue .FCVT_S_W ⟨rfl, fun _ => rfl, rfl, rfl, rfl⟩
    (convertingMachine_fetch _) (decode_encode _ _) (convertingMachine_selects _)

end RiscvSim
