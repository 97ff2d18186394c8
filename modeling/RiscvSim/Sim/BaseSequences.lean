import RiscvSim.Isa.HighMultiply
import RiscvSim.Sim.Rv32iStep

/-!
The bit-manipulation instructions that have a base sequence of two instructions.
The sequence puts an intermediate word into a scratch register, and the second
instruction of it writes what the one instruction writes. The loads with a sign
are treated in the same way: the load without it, and a sign extension.
-/

namespace RiscvSim

open SimM

variable {H : Type}

/-- The instructions that have a sequence. -/
inductive ExpandedInsn where
  | ANDN | ORN | XNOR | MIN | MAX | MINU | MAXU | SEXT_B | SEXT_H | ZEXT_H | LB | LH
  deriving DecidableEq

def ExpandedInsn.mnem : ExpandedInsn → InsnMnemonic
  | .ANDN => .ANDN
  | .ORN => .ORN
  | .XNOR => .XNOR
  | .MIN => .MIN
  | .MAX => .MAX
  | .MINU => .MINU
  | .MAXU => .MAXU
  | .SEXT_B => .SEXT_B
  | .SEXT_H => .SEXT_H
  | .ZEXT_H => .ZEXT_H
  | .LB => .LB
  | .LH => .LH

/-- The callback of an instruction on the word that the operands make. -/
def runInsn (env : Env H) (mnem : InsnMnemonic) (ops : Operands) : SimM H Unit :=
  getInsnCallback env mnem (mnem.encode ops)

namespace Operands

def regs (rd rs1 rs2 : BitVec 5) : Operands := ⟨rd, rs1, rs2, 0, 0, 0, 0, 0⟩
def regImm (rd rs1 : BitVec 5) (imm : Int) : Operands := ⟨rd, rs1, 0, 0, 0, 0, 0, imm⟩
def regShamt (rd rs1 shamt : BitVec 5) : Operands := ⟨rd, rs1, 0, 0, 0, shamt, 0, 0⟩

end Operands

open Operands

/-- Moves the one register or the other, by what a comparison has left in `t`. -/
def moveChosen (env : Env H) (t rd ifSet ifClear : BitVec 5) : SimM H Unit := do
  let less ← getXReg (regIndex t)
  runInsn env .ADDI (regImm rd (if less = 0 then ifClear else ifSet) 0)

/-- The sequence with the scratch register `t`. -/
def baseSequence (env : Env H) (ops : Operands) (t : BitVec 5) : ExpandedInsn → SimM H Unit
  | .ANDN => do
      runInsn env .XORI (regImm t ops.rs2 (-1))
      runInsn env .AND (regs ops.rd ops.rs1 t)
  | .ORN => do
      runInsn env .XORI (regImm t ops.rs2 (-1))
      runInsn env .OR (regs ops.rd ops.rs1 t)
  | .XNOR => do
      runInsn env .XOR (regs t ops.rs1 ops.rs2)
      runInsn env .XORI (regImm ops.rd t (-1))
  | .MIN => do
      runInsn env .SLT (regs t ops.rs1 ops.rs2)
      moveChosen env t ops.rd ops.rs1 ops.rs2
  | .MAX => do
      runInsn env .SLT (regs t ops.rs1 ops.rs2)
      moveChosen env t ops.rd ops.rs2 ops.rs1
  | .MINU => do
      runInsn env .SLTU (regs t ops.rs1 ops.rs2)
      moveChosen env t ops.rd ops.rs1 ops.rs2
  | .MAXU => do
      runInsn env .SLTU (regs t ops.rs1 ops.rs2)
      moveChosen env t ops.rd ops.rs2 ops.rs1
  | .SEXT_B => do
      runInsn env .SLLI (regShamt t ops.rs1 24)
      runInsn env .SRAI (regShamt ops.rd t 24)
  | .SEXT_H => do
      runInsn env .SLLI (regShamt t ops.rs1 16)
      runInsn env .SRAI (regShamt ops.rd t 16)
  | .ZEXT_H => do
      runInsn env .SLLI (regShamt t ops.rs1 16)
      runInsn env .SRLI (regShamt ops.rd t 16)
  | .LB => do
      runInsn env .LBU (regImm t ops.rs1 ops.imm)
      runInsn env .SEXT_B (regs ops.rd t 0)
  | .LH => do
      runInsn env .LHU (regImm t ops.rs1 ops.imm)
      runInsn env .SEXT_H (regs ops.rd t 0)

/-- The source registers that the sequence reads after it has written `t`. -/
def ExpandedInsn.laterSources (ops : Operands) : ExpandedInsn → List (BitVec 5)
  | .ANDN | .ORN => [ops.rs1]
  | .MIN | .MAX | .MINU | .MAXU => [ops.rs1, ops.rs2]
  | _ => []

/-- `t` can hold an intermediate word; it may be the destination, and it may be a
source that is not read again. -/
def ExpandedInsn.Scratch (insn : ExpandedInsn) (ops : Operands) (t : BitVec 5) : Prop :=
  t ≠ 0 ∧ t ∉ insn.laterSources ops

/-- The same machine but for `ip` and, unless it is the destination, `t`. -/
structure SameBut (rd t : BitVec 5) (m₁ m₂ : Machine H) : Prop where
  xregs : ∀ r, r = rd ∨ r ≠ t → m₁.sim.getXReg (regIndex r) = m₂.sim.getXReg (regIndex r)
  fregs : m₁.sim.fregs = m₂.sim.fregs
  fcsr : m₁.sim.fcsr = m₂.sim.fcsr
  memory : m₁.sim.memory = m₂.sim.memory
  shouldStop : m₁.sim.shouldStop = m₂.sim.shouldStop
  softfloat : m₁.softfloat = m₂.softfloat
  host : m₁.host = m₂.host

section Steps

variable {env : Env H} {m : Machine H} {rd rs1 rs2 t shamt : BitVec 5} {imm : Int}

/-- The machine behind an instruction that wrote one register. -/
abbrev Machine.wrote (m : Machine H) (rd : BitVec 5) (value : Register) : Machine H :=
  m.mapSim fun sim => (sim.setXReg (regIndex rd) value).step

theorem getXReg_wrote {r : BitVec 5} (hr : r ≠ 0) (value : Register) :
    (m.wrote r value).sim.getXReg (regIndex r) = value := by
  have hne : regIndex r ≠ XRegAlias.zero := mt regIndex_eq_zero_iff.mp hr
  rw [Machine.mapSim_sim, RVSim.getXReg_step, RVSim.getXReg_setXReg, if_neg hne, if_pos rfl]

theorem getXReg_wrote_of_ne {r q : BitVec 5} (hr : r ≠ q) (value : Register) :
    (m.wrote q value).sim.getXReg (regIndex r) = m.sim.getXReg (regIndex r) := by
  have hne : regIndex r ≠ regIndex q := mt regIndex_eq_iff.mp hr
  rw [Machine.mapSim_sim, RVSim.getXReg_step, RVSim.getXReg_setXReg]
  by_cases hzero : regIndex r = XRegAlias.zero
  · rw [if_pos hzero, hzero, RVSim.getXReg_zero]
  · rw [if_neg hzero, if_neg hne]

/-- A write of the scratch register before the write of the destination. -/
theorem sameBut_wrote (m : Machine H) (rd t : BitVec 5) (scratch value : Register) :
    SameBut rd t (m.wrote rd value) ((m.wrote t scratch).wrote rd value) where
  xregs := by
    intro r hr
    by_cases hrd : r = rd
    · subst hrd
      by_cases hzero : r = 0
      · subst hzero
        rfl
      · rw [getXReg_wrote hzero, getXReg_wrote hzero]
    · rw [getXReg_wrote_of_ne hrd, getXReg_wrote_of_ne hrd,
        getXReg_wrote_of_ne (hr.resolve_left hrd)]
  fregs := by simp
  fcsr := by simp
  memory := by simp
  shouldStop := by simp
  softfloat := rfl
  host := rfl

/-! The single instructions, on any operands. -/

theorem run_XORI_ones :
    (runInsn env .XORI (regImm rd rs1 (-1))).run m =
      .ok () (m.wrote rd (~~~m.sim.getXReg (regIndex rs1))) := by
  have hreads := InsnFormat.readsFields_word InsnMnemonic.XORI.format (regImm rd rs1 (-1))
  have himm : (RvInsn.mk (InsnMnemonic.XORI.encode (regImm rd rs1 (-1)))).immI =
      BitVec.allOnes 32 :=
    InsnFormat.immI_word _ _ _
  rw [← BitVec.xor_allOnes]
  change (callbackXORI _).run m = _
  exact executeRRIBinOp_run hreads.1 hreads.2 himm rfl

theorem run_ADDI_zero :
    (runInsn env .ADDI (regImm rd rs1 0)).run m =
      .ok () (m.wrote rd (m.sim.getXReg (regIndex rs1))) := by
  have hreads := InsnFormat.readsFields_word InsnMnemonic.ADDI.format (regImm rd rs1 0)
  have himm : (RvInsn.mk (InsnMnemonic.ADDI.encode (regImm rd rs1 0))).immI = 0 :=
    InsnFormat.immI_word _ _ _
  have hsum := BitVec.add_zero (m.sim.getXReg (regIndex rs1))
  change (callbackADDI _).run m = _
  exact executeRRIBinOp_run hreads.1 hreads.2 himm (congrArg Except.ok hsum)

theorem run_AND :
    (runInsn env .AND (regs rd rs1 rs2)).run m = .ok ()
      (m.wrote rd (m.sim.getXReg (regIndex rs1) &&& m.sim.getXReg (regIndex rs2))) := by
  obtain ⟨hrd, hrs1, hrs2⟩ :=
    InsnFormat.readsFields_word InsnMnemonic.AND.format (regs rd rs1 rs2)
  exact executeRRRBinOp_run hrd hrs1 hrs2 rfl

theorem run_OR :
    (runInsn env .OR (regs rd rs1 rs2)).run m = .ok ()
      (m.wrote rd (m.sim.getXReg (regIndex rs1) ||| m.sim.getXReg (regIndex rs2))) := by
  obtain ⟨hrd, hrs1, hrs2⟩ :=
    InsnFormat.readsFields_word InsnMnemonic.OR.format (regs rd rs1 rs2)
  exact executeRRRBinOp_run hrd hrs1 hrs2 rfl

theorem run_XOR :
    (runInsn env .XOR (regs rd rs1 rs2)).run m = .ok ()
      (m.wrote rd (m.sim.getXReg (regIndex rs1) ^^^ m.sim.getXReg (regIndex rs2))) := by
  obtain ⟨hrd, hrs1, hrs2⟩ :=
    InsnFormat.readsFields_word InsnMnemonic.XOR.format (regs rd rs1 rs2)
  exact executeRRRBinOp_run hrd hrs1 hrs2 rfl

theorem run_SLT :
    (runInsn env .SLT (regs rd rs1 rs2)).run m = .ok () (m.wrote rd
      (Rv32i.AluOp.SLT.eval (m.sim.getXReg (regIndex rs1)) (m.sim.getXReg (regIndex rs2)))) := by
  obtain ⟨hrd, hrs1, hrs2⟩ :=
    InsnFormat.readsFields_word InsnMnemonic.SLT.format (regs rd rs1 rs2)
  exact callbackSLT_run hrd hrs1 hrs2

theorem run_SLTU :
    (runInsn env .SLTU (regs rd rs1 rs2)).run m = .ok () (m.wrote rd
      (Rv32i.AluOp.SLTU.eval (m.sim.getXReg (regIndex rs1)) (m.sim.getXReg (regIndex rs2)))) := by
  obtain ⟨hrd, hrs1, hrs2⟩ :=
    InsnFormat.readsFields_word InsnMnemonic.SLTU.format (regs rd rs1 rs2)
  exact callbackSLTU_run hrd hrs1 hrs2

theorem run_SLLI :
    (runInsn env .SLLI (regShamt rd rs1 shamt)).run m =
      .ok () (m.wrote rd (m.sim.getXReg (regIndex rs1) <<< shamt.toNat)) := by
  obtain ⟨hrd, hrs1, hshamt⟩ :=
    InsnFormat.readsFields_word InsnMnemonic.SLLI.format (regShamt rd rs1 shamt)
  have hvalue := shiftLeft_ok (m.sim.getXReg (regIndex rs1)) shamt.isLt
  rw [← RvInsn.toNat_setWidth_reg] at hvalue ⊢
  change (callbackSLLI _).run m = _
  exact executeRRIShift_run hrd hrs1 hshamt hvalue

theorem run_SRLI :
    (runInsn env .SRLI (regShamt rd rs1 shamt)).run m =
      .ok () (m.wrote rd (m.sim.getXReg (regIndex rs1) >>> shamt.toNat)) := by
  obtain ⟨hrd, hrs1, hshamt⟩ :=
    InsnFormat.readsFields_word InsnMnemonic.SRLI.format (regShamt rd rs1 shamt)
  have hvalue := shiftRight_ok (m.sim.getXReg (regIndex rs1)) shamt.isLt
  rw [← RvInsn.toNat_setWidth_reg] at hvalue ⊢
  change (callbackSRLI _).run m = _
  exact executeRRIShift_run hrd hrs1 hshamt hvalue

theorem run_SRAI :
    (runInsn env .SRAI (regShamt rd rs1 shamt)).run m =
      .ok () (m.wrote rd ((m.sim.getXReg (regIndex rs1)).sshiftRight shamt.toNat)) := by
  obtain ⟨hrd, hrs1, hshamt⟩ :=
    InsnFormat.readsFields_word InsnMnemonic.SRAI.format (regShamt rd rs1 shamt)
  have hvalue := arithmRightShift_eq env.build (m.sim.getXReg (regIndex rs1)) shamt.toNat
  rw [← RvInsn.toNat_setWidth_reg] at hvalue ⊢
  change (callbackSRAI env _).run m = _
  exact executeRRIShift_run hrd hrs1 hshamt hvalue

/-! The instructions that the sequences stand for. -/

/-- What an instruction without a load writes, as its callback computes it. -/
def ExpandedInsn.result (x y : Register) : ExpandedInsn → Register
  | .ANDN => x &&& ~~~y
  | .ORN => x ||| ~~~y
  | .XNOR => ~~~(x ^^^ y)
  | .MIN => if (regToIReg x).slt (regToIReg y) then x else y
  | .MAX => if (regToIReg x).slt (regToIReg y) then y else x
  | .MINU => if x < y then x else y
  | .MAXU => if x < y then y else x
  | .SEXT_B | .LB => signExt 32 (truncHigh 8 x)
  | .SEXT_H | .LH => signExt 32 (truncHigh 16 x)
  | .ZEXT_H => (truncHigh 16 x).setWidth 32

theorem run_binary (insn : ExpandedInsn) (ops : Operands)
    (hinsn : insn ∈ [.ANDN, .ORN, .XNOR, .MIN, .MAX, .MINU, .MAXU]) :
    (runInsn env insn.mnem ops).run m = .ok () (m.wrote ops.rd
      (insn.result (m.sim.getXReg (regIndex ops.rs1)) (m.sim.getXReg (regIndex ops.rs2)))) := by
  have hreads := InsnFormat.readsFields_word insn.mnem.format ops
  simp only [List.mem_cons, List.not_mem_nil, or_false] at hinsn
  rcases hinsn with rfl | rfl | rfl | rfl | rfl | rfl | rfl <;>
    rw [Machine.wrote, ← RvInsn.rdIndex_eq hreads.1, ← RvInsn.rs1Index_eq hreads.2.1,
      ← RvInsn.rs2Index_eq hreads.2.2] <;>
    rfl

theorem run_unary (insn : ExpandedInsn) (ops : Operands)
    (hinsn : insn ∈ [.SEXT_B, .SEXT_H, .ZEXT_H]) :
    (runInsn env insn.mnem ops).run m = .ok () (m.wrote ops.rd
      (insn.result (m.sim.getXReg (regIndex ops.rs1)) (m.sim.getXReg (regIndex ops.rs2)))) := by
  have hreads := InsnFormat.readsFields_word insn.mnem.format ops
  simp only [List.mem_cons, List.not_mem_nil, or_false] at hinsn
  rcases hinsn with rfl | rfl | rfl <;>
    rw [Machine.wrote, ← RvInsn.rdIndex_eq hreads.1, ← RvInsn.rs1Index_eq hreads.2] <;>
    rfl

end Steps

section Values

/-! The words that the two instructions of a sequence make together. -/

theorem signExtend_setWidth_eq_shifts {bits shift : Nat} (hbits : 0 < bits)
    (hsum : bits + shift = 32) (x : Register) :
    (x.setWidth bits).signExtend 32 = (x <<< shift).sshiftRight shift := by
  have hmsb : (x <<< shift).msb = (x.setWidth bits).msb := by
    have hlast : 31 - shift = bits - 1 := by omega
    have hin : ¬ 31 < shift := by omega
    have hbit : bits - 1 < bits := by omega
    rw [BitVec.msb_eq_getLsbD_last, BitVec.msb_eq_getLsbD_last, BitVec.getLsbD_shiftLeft,
      BitVec.getLsbD_setWidth, Nat.add_one_sub_one, hlast]
    simp [hin, hbit]
  apply BitVec.eq_of_getLsbD_eq
  intro i hi
  rw [BitVec.getLsbD_signExtend, BitVec.getLsbD_sshiftRight, hmsb, BitVec.getLsbD_setWidth,
    BitVec.getLsbD_shiftLeft]
  by_cases hlow : i < bits
  · have hback : shift + i < 32 := by omega
    simp [hi, hlow, hback]
  · have hout : ¬ shift + i < 32 := by omega
    simp [hi, hlow, hout]

theorem setWidth_setWidth_eq_shifts {bits shift : Nat} (hsum : bits + shift = 32)
    (x : Register) : (x.setWidth bits).setWidth 32 = x <<< shift >>> shift := by
  apply BitVec.eq_of_getLsbD_eq
  intro i hi
  rw [BitVec.getLsbD_setWidth, BitVec.getLsbD_setWidth, BitVec.getLsbD_ushiftRight,
    BitVec.getLsbD_shiftLeft]
  by_cases hlow : i < bits
  · have hback : shift + i < 32 := by omega
    simp [hi, hlow, hback]
  · have hout : ¬ shift + i < 32 := by omega
    simp [hlow, hout]

theorem signExt_truncHigh {bits : Nat} (hpos : 0 < bits) (hbits : bits < 32) (x : Register) :
    signExt 32 (truncHigh bits x) = (x.setWidth bits).signExtend 32 := by
  rw [truncHigh_eq, signExt_eq hpos hbits]

/-- A byte or half-word comes back out of the register that it was widened to. -/
theorem signExt_truncHigh_setWidth {bits : Nat} (hpos : 0 < bits) (hbits : bits < 32)
    (val : BitVec bits) : signExt 32 (truncHigh bits (val.setWidth 32)) = val.signExtend 32 := by
  rw [signExt_truncHigh hpos hbits, BitVec.setWidth_setWidth_of_le val hbits.le,
    BitVec.setWidth_eq]

end Values

section Sequences

/-- The instruction and its sequence complete, with the same register file and the
same rest of the machine. -/
def MatchesSequence (env : Env H) (insn : ExpandedInsn) (ops : Operands) (t : BitVec 5)
    (m : Machine H) : Prop :=
  ∃ m₁ m₂, (runInsn env insn.mnem ops).run m = .ok () m₁ ∧
    (baseSequence env ops t insn).run m = .ok () m₂ ∧ SameBut ops.rd t m₁ m₂

variable {env : Env H} {m : Machine H} {insn : ExpandedInsn} {ops : Operands} {t : BitVec 5}

/-- Two instructions, the first of which writes `t` and the second the destination. -/
theorem matches_of_steps {first second : SimM H Unit} {scratch value value' : Register}
    (hinsn : (runInsn env insn.mnem ops).run m = .ok () (m.wrote ops.rd value))
    (hseq : baseSequence env ops t insn = do first; second)
    (hfirst : first.run m = .ok () (m.wrote t scratch))
    (hsecond : second.run (m.wrote t scratch) =
      .ok () ((m.wrote t scratch).wrote ops.rd value'))
    (hvalue : value' = value) : MatchesSequence env insn ops t m := by
  subst hvalue
  refine ⟨_, _, hinsn, ?_, sameBut_wrote m ops.rd t scratch value'⟩
  rw [hseq, EStateM.run_bind, hfirst]
  exact hsecond

theorem moveChosen_run {rd ifSet ifClear : BitVec 5} :
    (moveChosen env t rd ifSet ifClear).run m = .ok () (m.wrote rd
      (if m.sim.getXReg (regIndex t) = 0 then m.sim.getXReg (regIndex ifClear)
        else m.sim.getXReg (regIndex ifSet))) := by
  rw [moveChosen, EStateM.run_bind, run_getXReg]
  by_cases hclear : m.sim.getXReg (regIndex t) = 0
  · rw [if_pos hclear]
    exact run_ADDI_zero.trans (by rw [if_pos hclear])
  · rw [if_neg hclear]
    exact run_ADDI_zero.trans (by rw [if_neg hclear])

/-- A choice by the flag that a comparison leaves. -/
theorem choose_by_flag {p : Prop} [Decidable p] (ifSet ifClear : Register) :
    (if (if p then (1 : Register) else 0) = 0 then ifClear else ifSet) =
      if p then ifSet else ifClear := by
  by_cases hp : p
  · simp [hp]
  · simp [hp]

theorem matches_complemented (hinsn : insn = .ANDN ∨ insn = .ORN) (hzero : t ≠ 0)
    (hsource : t ≠ ops.rs1) : MatchesSequence env insn ops t m := by
  have hx := getXReg_wrote_of_ne (m := m) hsource.symm (~~~m.sim.getXReg (regIndex ops.rs2))
  have hy := getXReg_wrote (m := m) hzero (~~~m.sim.getXReg (regIndex ops.rs2))
  rcases hinsn with rfl | rfl
  · refine matches_of_steps (run_binary _ ops (by simp)) rfl run_XORI_ones run_AND ?_
    rw [hx, hy]
    rfl
  · refine matches_of_steps (run_binary _ ops (by simp)) rfl run_XORI_ones run_OR ?_
    rw [hx, hy]
    rfl

theorem matches_xnor (hzero : t ≠ 0) : MatchesSequence env .XNOR ops t m := by
  refine matches_of_steps (run_binary _ ops (by simp)) rfl run_XOR run_XORI_ones ?_
  rw [getXReg_wrote hzero]
  rfl

/-- A minimum or a maximum is the operand that the comparison chooses. -/
theorem matches_chosen (hinsn : insn ∈ [.MIN, .MAX, .MINU, .MAXU]) (hzero : t ≠ 0)
    (hrs1 : t ≠ ops.rs1) (hrs2 : t ≠ ops.rs2) : MatchesSequence env insn ops t m := by
  have hx (flag : Register) := getXReg_wrote_of_ne (m := m) hrs1.symm flag
  have hy (flag : Register) := getXReg_wrote_of_ne (m := m) hrs2.symm flag
  simp only [List.mem_cons, List.not_mem_nil, or_false] at hinsn
  rcases hinsn with rfl | rfl | rfl | rfl
  · refine matches_of_steps (run_binary _ ops (by simp)) rfl run_SLT moveChosen_run ?_
    rw [getXReg_wrote hzero, hx, hy, ← slt_eq_eval, choose_by_flag]
    rfl
  · refine matches_of_steps (run_binary _ ops (by simp)) rfl run_SLT moveChosen_run ?_
    rw [getXReg_wrote hzero, hx, hy, ← slt_eq_eval, choose_by_flag]
    rfl
  · refine matches_of_steps (run_binary _ ops (by simp)) rfl run_SLTU moveChosen_run ?_
    rw [getXReg_wrote hzero, hx, hy, ← sltu_eq_eval, choose_by_flag]
    rfl
  · refine matches_of_steps (run_binary _ ops (by simp)) rfl run_SLTU moveChosen_run ?_
    rw [getXReg_wrote hzero, hx, hy, ← sltu_eq_eval, choose_by_flag]
    rfl

theorem matches_extended (hinsn : insn ∈ [.SEXT_B, .SEXT_H, .ZEXT_H]) (hzero : t ≠ 0) :
    MatchesSequence env insn ops t m := by
  simp only [List.mem_cons, List.not_mem_nil, or_false] at hinsn
  rcases hinsn with rfl | rfl | rfl
  · refine matches_of_steps (run_unary _ ops (by simp)) rfl run_SLLI run_SRAI ?_
    rw [getXReg_wrote hzero, ExpandedInsn.result,
      signExt_truncHigh (by decide : 0 < 8) (by decide)]
    exact (signExtend_setWidth_eq_shifts (by decide) rfl _).symm
  · refine matches_of_steps (run_unary _ ops (by simp)) rfl run_SLLI run_SRAI ?_
    rw [getXReg_wrote hzero, ExpandedInsn.result,
      signExt_truncHigh (by decide : 0 < 16) (by decide)]
    exact (signExtend_setWidth_eq_shifts (by decide) rfl _).symm
  · refine matches_of_steps (run_unary _ ops (by simp)) rfl run_SLLI run_SRLI ?_
    rw [getXReg_wrote hzero, ExpandedInsn.result, truncHigh_eq]
    exact (setWidth_setWidth_eq_shifts rfl _).symm

/-- The memory access of the instruction without its value; the others have none. -/
def ExpandedInsn.access (build : Build) (sim : RVSim) (ops : Operands) :
    ExpandedInsn → Except Fault Unit
  | .LB => (fun _ => ()) <$> sim.memory.loadU8 build addr
  | .LH => (fun _ => ()) <$> sim.memory.loadU16 build addr
  | _ => .ok ()
where
  addr : Address := sim.getXReg (regIndex ops.rs1) + (BitVec.ofInt 12 ops.imm).signExtend 32

section Loads

theorem immI_encode {mnem : InsnMnemonic} {funct3 : BitVec 3} {opcode : BitVec 7}
    (hformat : mnem.format = .i funct3 opcode) (ops : Operands) :
    (RvInsn.mk (mnem.encode ops)).immI = (BitVec.ofInt 12 ops.imm).signExtend 32 := by
  rw [InsnMnemonic.encode, hformat]
  exact InsnFormat.immI_word _ _ _

theorem matches_LB (hzero : t ≠ 0) {val : BitVec 8}
    (hload : m.sim.memory.loadU8 env.build (ExpandedInsn.access.addr m.sim ops) = .ok val) :
    MatchesSequence env .LB ops t m := by
  obtain ⟨hrd, hrs1⟩ := InsnFormat.readsFields_word InsnMnemonic.LB.format ops
  obtain ⟨hrd', hrs1'⟩ :=
    InsnFormat.readsFields_word InsnMnemonic.LBU.format (regImm t ops.rs1 ops.imm)
  refine matches_of_steps (callbackLB_run hrd hrs1 (immI_encode rfl ops) hload) rfl
    (callbackLBU_run hrd' hrs1' (immI_encode rfl _) hload)
    (run_unary .SEXT_B (regs ops.rd t 0) (by simp)) ?_
  change signExt 32 (truncHigh 8 ((m.wrote t _).sim.getXReg (regIndex t))) = _
  rw [getXReg_wrote hzero, signExt_truncHigh_setWidth (by decide) (by decide)]

theorem matches_LH (hzero : t ≠ 0) {val : BitVec 16}
    (hload : m.sim.memory.loadU16 env.build (ExpandedInsn.access.addr m.sim ops) = .ok val) :
    MatchesSequence env .LH ops t m := by
  obtain ⟨hrd, hrs1⟩ := InsnFormat.readsFields_word InsnMnemonic.LH.format ops
  obtain ⟨hrd', hrs1'⟩ :=
    InsnFormat.readsFields_word InsnMnemonic.LHU.format (regImm t ops.rs1 ops.imm)
  refine matches_of_steps (callbackLH_run hrd hrs1 (immI_encode rfl ops) hload) rfl
    (callbackLHU_run hrd' hrs1' (immI_encode rfl _) hload)
    (run_unary .SEXT_H (regs ops.rd t 0) (by simp)) ?_
  change signExt 32 (truncHigh 16 ((m.wrote t _).sim.getXReg (regIndex t))) = _
  rw [getXReg_wrote hzero, signExt_truncHigh_setWidth (by decide) (by decide)]

section Faults

variable {word : UndecodedInsn} {rs1 : BitVec 5} {imm : Register} {fault : Fault}
  (hrs1 : (RvInsn.mk word).rs1 = rs1.setWidth 32) (himm : (RvInsn.mk word).immI = imm)

include hrs1 himm

theorem callback_fault_byte
    (hload : m.sim.memory.loadU8 env.build (m.sim.getXReg (regIndex rs1) + imm) =
      .error fault) :
    (callbackLB env word).run m = .error fault m ∧
      (callbackLBU env word).run m = .error fault m := by
  rw [← himm, ← RvInsn.rs1Index_eq hrs1] at hload
  constructor
  · simp only [callbackLB, EStateM.run_bind, run_getXReg, run_getMem, hload, run_lift_error]
  · simp only [callbackLBU, EStateM.run_bind, run_getXReg, run_getMem, hload, run_lift_error]

theorem callback_fault_half
    (hload : m.sim.memory.loadU16 env.build (m.sim.getXReg (regIndex rs1) + imm) =
      .error fault) :
    (callbackLH env word).run m = .error fault m ∧
      (callbackLHU env word).run m = .error fault m := by
  rw [← himm, ← RvInsn.rs1Index_eq hrs1] at hload
  constructor
  · simp only [callbackLH, EStateM.run_bind, run_getXReg, run_getMem, hload, run_lift_error]
  · simp only [callbackLHU, EStateM.run_bind, run_getXReg, run_getMem, hload, run_lift_error]

end Faults

/-- A load that ends in a fault does so in the first step of the sequence too. -/
theorem faults_LB {fault : Fault}
    (hload : m.sim.memory.loadU8 env.build (ExpandedInsn.access.addr m.sim ops) = .error fault) :
    (runInsn env .LB ops).run m = .error fault m ∧
      (baseSequence env ops t .LB).run m = .error fault m := by
  obtain ⟨-, hrs1⟩ := InsnFormat.readsFields_word InsnMnemonic.LB.format ops
  obtain ⟨-, hrs1'⟩ :=
    InsnFormat.readsFields_word InsnMnemonic.LBU.format (regImm t ops.rs1 ops.imm)
  refine ⟨(callback_fault_byte hrs1 (immI_encode rfl ops) hload).1, ?_⟩
  have hfirst : (runInsn env .LBU (regImm t ops.rs1 ops.imm)).run m = .error fault m :=
    (callback_fault_byte hrs1' (immI_encode rfl _) hload).2
  rw [baseSequence, EStateM.run_bind, hfirst]

theorem faults_LH {fault : Fault}
    (hload : m.sim.memory.loadU16 env.build (ExpandedInsn.access.addr m.sim ops) =
      .error fault) :
    (runInsn env .LH ops).run m = .error fault m ∧
      (baseSequence env ops t .LH).run m = .error fault m := by
  obtain ⟨-, hrs1⟩ := InsnFormat.readsFields_word InsnMnemonic.LH.format ops
  obtain ⟨-, hrs1'⟩ :=
    InsnFormat.readsFields_word InsnMnemonic.LHU.format (regImm t ops.rs1 ops.imm)
  refine ⟨(callback_fault_half hrs1 (immI_encode rfl ops) hload).1, ?_⟩
  have hfirst : (runInsn env .LHU (regImm t ops.rs1 ops.imm)).run m = .error fault m :=
    (callback_fault_half hrs1' (immI_encode rfl _) hload).2
  rw [baseSequence, EStateM.run_bind, hfirst]

end Loads

section Outcomes

variable {P : Prop} {Q : Fault → Prop} {access : Except Fault Unit}

theorem cases_of_ok (hok : access = .ok ()) (h : P) :
    (access = .ok () → P) ∧ ∀ fault, access = .error fault → Q fault := by
  refine ⟨fun _ => h, fun fault hfault => ?_⟩
  rw [hok] at hfault
  cases hfault

theorem cases_of_error {fault : Fault} (herror : access = .error fault) (h : Q fault) :
    (access = .ok () → P) ∧ ∀ fault', access = .error fault' → Q fault' := by
  refine ⟨fun hok => ?_, fun fault' hfault => ?_⟩
  · rw [herror] at hok
    cases hok
  · rw [herror] at hfault
    cases hfault
    exact h

end Outcomes

/-- An instruction and its base sequence end in the same machine but for `ip` and
the scratch register; where the load of one faults, the other faults alike. -/
theorem baseSequence_agrees (env : Env H) (insn : ExpandedInsn) (ops : Operands) (t : BitVec 5)
    (m : Machine H) (hscratch : insn.Scratch ops t) :
    (insn.access env.build m.sim ops = .ok () → MatchesSequence env insn ops t m) ∧
      ∀ fault, insn.access env.build m.sim ops = .error fault →
        (runInsn env insn.mnem ops).run m = .error fault m ∧
          (baseSequence env ops t insn).run m = .error fault m := by
  obtain ⟨hzero, hlater⟩ := hscratch
  cases insn with
  | ANDN =>
      refine cases_of_ok rfl (matches_complemented (.inl rfl) hzero ?_)
      simpa [ExpandedInsn.laterSources] using hlater
  | ORN =>
      refine cases_of_ok rfl (matches_complemented (.inr rfl) hzero ?_)
      simpa [ExpandedInsn.laterSources] using hlater
  | XNOR => exact cases_of_ok rfl (matches_xnor hzero)
  | MIN | MAX | MINU | MAXU =>
      simp only [ExpandedInsn.laterSources, List.mem_cons, List.not_mem_nil, or_false,
        not_or] at hlater
      exact cases_of_ok rfl (matches_chosen (by simp) hzero hlater.1 hlater.2)
  | SEXT_B | SEXT_H | ZEXT_H => exact cases_of_ok rfl (matches_extended (by simp) hzero)
  | LB =>
      unfold ExpandedInsn.access
      cases hload : m.sim.memory.loadU8 env.build (ExpandedInsn.access.addr m.sim ops) with
      | ok val => exact cases_of_ok rfl (matches_LB hzero hload)
      | error fault => exact cases_of_error rfl (faults_LB hload)
  | LH =>
      unfold ExpandedInsn.access
      cases hload : m.sim.memory.loadU16 env.build (ExpandedInsn.access.addr m.sim ops) with
      | ok val => exact cases_of_ok rfl (matches_LH hzero hload)
      | error fault => exact cases_of_error rfl (faults_LH hload)

/-- The smaller of two registers, with a scratch register of its own. -/
theorem baseSequence_agrees_min :
    MatchesSequence queueEnv .MIN (regs 3 1 2) 4 (multiplyingMachine 7 5) := by
  have hscratch : ExpandedInsn.MIN.Scratch (regs 3 1 2) 4 := ⟨by decide, by decide⟩
  exact (baseSequence_agrees queueEnv .MIN (regs 3 1 2) 4 (multiplyingMachine 7 5) hscratch).1 rfl

end Sequences

end RiscvSim
