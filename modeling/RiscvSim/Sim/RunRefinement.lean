import RiscvSim.Isa.BitCounts
import RiscvSim.Isa.ByteLoops
import RiscvSim.Isa.Division
import RiscvSim.Lib.Runs
import RiscvSim.Sim.BaseSequences
import RiscvSim.Sim.ExecuteEnds
import RiscvSim.Sim.ShiftForms
import RiscvSim.Sim.WordWindows
import RiscvSim.Spec.Rv32imb

/-!
Whole runs of the interpreter loop against the specified machine. The callbacks
of the instructions beyond the base set are compared with their specification
first; a run of the machine is then followed step by step, and all that the loop
needs of the simulator is that no two segments of its memory touch.
-/

namespace RiscvSim

open ByteStore HighWord LittleEndian Runs SimM
open Rv32imb (RegOp UnaryOp FenceOp Insn Fetches)

variable {H : Type}

/-- The callback ends in the next state, and touches nothing that the specified
machine does not have. -/
def Carries (env : Env H) (m : Machine H) (mnem : InsnMnemonic) (word : UndecodedInsn)
    (next : Option Rv32i.State) : Prop :=
  ∃ sim', (getInsnCallback env mnem word).run m = .ok () { m with sim := sim' } ∧
    next = some sim'.toSpec ∧ m.sim.OthersKept sim'

section Extensions

variable {env : Env H} {m : Machine H} {word : UndecodedInsn}

/-- A callback that writes one register and goes on to the next instruction. -/
theorem carries_write {mnem : InsnMnemonic} {rd : BitVec 5} {value value' : Register}
    (hrd : (RvInsn.mk word).rd = rd.setWidth 32)
    (hrun : (getInsnCallback env mnem word).run m = .ok () (m.afterWriteX ⟨word⟩ value))
    (hvalue : value = value') :
    Carries env m mnem word (some (m.sim.toSpec.setReg rd value').next) := by
  refine ⟨(m.sim.setXReg (regIndex rd) value).step, ?_, ?_, ?_⟩
  · rw [hrun, Machine.afterWriteX, RvInsn.rdIndex_eq hrd]
    rfl
  · rw [RVSim.toSpec_step, RVSim.toSpec_setXReg, hvalue]
  · exact (RVSim.OthersKept.refl.setXReg _ _).setIp _

/-- The operands for which the callback computes what the manual says. -/
def exactOperands (x y : Register) : RegOp → Prop
  | .SLL | .SRL => y.toNat < 32
  | .MULH => SignsIrrelevant x y
  | .MULHSU => y.msb = false ∨ x = 0
  | .ROL | .ROR => y.toNat % 32 ≠ 0
  | _ => True

section Values

/-! The words that the callbacks write, in the terms of the specification. -/

variable (x y : Register)

theorem shiftLeft_eq_ofNat (amount : Nat) :
    x <<< amount = BitVec.ofNat 32 (x.toNat * 2 ^ amount) := by
  rw [← Nat.shiftLeft_eq]
  rfl

theorem shiftRight_eq_ofNat (amount : Nat) :
    x >>> amount = BitVec.ofNat 32 (x.toNat / 2 ^ amount) := by
  apply BitVec.eq_of_toNat_eq
  have hle : x.toNat / 2 ^ amount ≤ x.toNat := Nat.div_le_self _ _
  rw [BitVec.toNat_ushiftRight, Nat.shiftRight_eq_div_pow, BitVec.toNat_ofNat,
    Nat.mod_eq_of_lt (Nat.lt_of_le_of_lt hle x.isLt)]

theorem mul_eq_ofInt : x * y = BitVec.ofInt 32 (x.toInt * y.toInt) := by
  rw [BitVec.ofInt_mul, BitVec.ofInt_toInt, BitVec.ofInt_toInt]

theorem mulhu_eq_highWord :
    (truncLow 32 (x.setWidth 64 * y.setWidth 64) : Register) = highWord 32 (x.toNat * y.toNat) := by
  rw [← truncLow_ofInt, BitVec.ofInt_mul, BitVec.ofInt_natCast, BitVec.ofInt_natCast,
    BitVec.ofNat_toNat, BitVec.ofNat_toNat]

theorem quotientI_eq_eval : quotientI x y = RegOp.DIV.eval x y := by
  unfold quotientI RegOp.eval
  split
  · rfl
  · rename_i hzero
    split
    · rename_i hoverflow
      rw [hoverflow.1, hoverflow.2]
      rfl
    · rename_i hoverflow
      have hquotient := BitVec.toInt_sdiv_of_ne_or_ne x y (not_and_or.mp hoverflow)
      rw [← hquotient, BitVec.ofInt_toInt]

theorem remainderI_eq_eval : remainderI x y = RegOp.REM.eval x y := by
  simp only [RegOp.eval]
  split
  · rename_i hzero
    exact if_pos hzero
  · rename_i hzero
    rw [← remainderI_toInt hzero, BitVec.ofInt_toInt]

theorem quotientU_eq_eval : quotientU x y = RegOp.DIVU.eval x y := by
  have hdiv : x / y = BitVec.ofNat 32 (x.toNat / y.toNat) := by
    rw [← BitVec.toNat_udiv, BitVec.ofNat_toNat, BitVec.setWidth_eq]
  unfold quotientU
  rw [hdiv]
  rfl

theorem remainderU_eq_eval : remainderU x y = RegOp.REMU.eval x y := by
  have hmod : x % y = BitVec.ofNat 32 (x.toNat % y.toNat) := by
    rw [← BitVec.toNat_umod, BitVec.ofNat_toNat, BitVec.setWidth_eq]
  unfold remainderU
  rw [hmod]
  rfl

theorem slt_choice {α : Type} (a b : α) :
    (if (regToIReg x).slt (regToIReg y) then a else b) = if x.toInt < y.toInt then a else b := by
  simp only [regToIReg, BitVec.slt_iff_toInt_lt]

theorem lt_choice {α : Type} (a b : α) :
    (if x < y then a else b) = if x.toNat < y.toNat then a else b := by
  simp only [BitVec.lt_def]

/-- `MULHU` has a full product that always fits. -/
theorem callbackMULHU_run (word : UndecodedInsn) (m : Machine H) :
    (callbackMULHU word).run m = .ok () (m.afterWriteX ⟨word⟩
      (truncLow 32 ((m.sim.getXReg (RvInsn.mk word).rs1Index).setWidth 64 *
        (m.sim.getXReg (RvInsn.mk word).rs2Index).setWidth 64))) := rfl

end Values

theorem readsRegs (op : RegOp) (rd rs1 rs2 : BitVec 5) :
    (RvInsn.mk (Insn.reg op rd rs1 rs2).word).rd = rd.setWidth 32 ∧
      (RvInsn.mk (Insn.reg op rd rs1 rs2).word).rs1Index = regIndex rs1 ∧
      (RvInsn.mk (Insn.reg op rd rs1 rs2).word).rs2Index = regIndex rs2 := by
  have hreads : (RvInsn.mk (Insn.reg op rd rs1 rs2).word).rd = rd.setWidth 32 ∧
      (RvInsn.mk (Insn.reg op rd rs1 rs2).word).rs1 = rs1.setWidth 32 ∧
      (RvInsn.mk (Insn.reg op rd rs1 rs2).word).rs2 = rs2.setWidth 32 := by
    have hfields := InsnFormat.readsFields_word op.mnem.format (Insn.reg op rd rs1 rs2).operands
    cases op <;> exact hfields
  exact ⟨hreads.1, RvInsn.rs1Index_eq hreads.2.1, RvInsn.rs2Index_eq hreads.2.2⟩

theorem carries_reg {op : RegOp} {rd rs1 rs2 : BitVec 5}
    (hexact : exactOperands (m.sim.toSpec.reg rs1) (m.sim.toSpec.reg rs2) op) :
    Carries env m op.mnem (Insn.reg op rd rs1 rs2).word
      ((Insn.reg op rd rs1 rs2).exec m.sim.toSpec) := by
  obtain ⟨hrd, hrs1, hrs2⟩ := readsRegs op rd rs1 rs2
  have hx : m.sim.getXReg (RvInsn.mk (Insn.reg op rd rs1 rs2).word).rs1Index =
      m.sim.toSpec.reg rs1 := congrArg m.sim.getXReg hrs1
  have hy : m.sim.getXReg (RvInsn.mk (Insn.reg op rd rs1 rs2).word).rs2Index =
      m.sim.toSpec.reg rs2 := congrArg m.sim.getXReg hrs2
  cases op with
  | SLL =>
      have hdefined :
          (m.sim.getXReg (RvInsn.mk (Insn.reg .SLL rd rs1 rs2).word).rs2Index).toNat < 32 := by
        rw [hy]
        exact hexact
      refine carries_write hrd (ShiftInsn.registerForm_run .SLL (.inr hdefined)) ?_
      rw [hx, hy]
      exact shiftLeft_eq_ofNat _ _
  | SRL =>
      have hdefined :
          (m.sim.getXReg (RvInsn.mk (Insn.reg .SRL rd rs1 rs2).word).rs2Index).toNat < 32 := by
        rw [hy]
        exact hexact
      refine carries_write hrd (ShiftInsn.registerForm_run .SRL (.inr hdefined)) ?_
      rw [hx, hy]
      exact shiftRight_eq_ofNat _ _
  | MUL =>
      refine carries_write hrd (callbackMUL_run _ m) ?_
      rw [hx, hy]
      exact mul_eq_ofInt _ _
  | MULH =>
      have hrun := (callbackMULH_writes_iff _ m hx hy).mpr (.inl hexact)
      exact carries_write hrd hrun rfl
  | MULHSU =>
      have hrun := (callbackMULHSU_writes_iff _ m hx hy).mpr (hexact.imp_right fun h => .inl h)
      exact carries_write hrd hrun rfl
  | MULHU =>
      refine carries_write hrd (callbackMULHU_run _ m) ?_
      rw [hx, hy]
      exact mulhu_eq_highWord _ _
  | DIV =>
      refine carries_write hrd (callbackDIV_run _ m) ?_
      rw [hx, hy]
      exact quotientI_eq_eval _ _
  | DIVU =>
      refine carries_write hrd (callbackDIVU_run _ m) ?_
      rw [hx, hy]
      exact quotientU_eq_eval _ _
  | REM =>
      refine carries_write hrd (callbackREM_run _ m) ?_
      rw [hx, hy]
      exact remainderI_eq_eval _ _
  | REMU =>
      refine carries_write hrd (callbackREMU_run _ m) ?_
      rw [hx, hy]
      exact remainderU_eq_eval _ _
  | ROL => exact carries_write hrd (callbackROL_run hx hy hexact) rfl
  | ROR => exact carries_write hrd (callbackROR_run hx hy hexact) rfl
  | ANDN => exact carries_write hrd rfl (congrArg₂ (fun x y => x &&& ~~~y) hx hy)
  | ORN => exact carries_write hrd rfl (congrArg₂ (fun x y => x ||| ~~~y) hx hy)
  | XNOR => exact carries_write hrd rfl (congrArg₂ (fun x y => ~~~(x ^^^ y)) hx hy)
  | MIN | MAX =>
      refine carries_write hrd rfl ?_
      rw [hx, hy]
      exact slt_choice _ _ _ _
  | MINU | MAXU =>
      refine carries_write hrd rfl ?_
      rw [hx, hy]
      exact lt_choice _ _ _ _

theorem carries_unary {op : UnaryOp} {rd rs1 : BitVec 5} :
    Carries env m op.mnem (Insn.unary op rd rs1).word
      ((Insn.unary op rd rs1).exec m.sim.toSpec) := by
  obtain ⟨hrd, hrs1⟩ : (RvInsn.mk (Insn.unary op rd rs1).word).rd = rd.setWidth 32 ∧
      (RvInsn.mk (Insn.unary op rd rs1).word).rs1 = rs1.setWidth 32 := by
    have hfields := InsnFormat.readsFields_word op.mnem.format (Insn.unary op rd rs1).operands
    cases op <;> exact hfields
  have hx : m.sim.getXReg (RvInsn.mk (Insn.unary op rd rs1).word).rs1Index =
      m.sim.toSpec.reg rs1 := congrArg m.sim.getXReg (RvInsn.rs1Index_eq hrs1)
  cases op with
  | SEXT_B =>
      refine carries_write hrd rfl ?_
      rw [hx]
      exact signExt_truncHigh (by decide) (by decide) _
  | SEXT_H =>
      refine carries_write hrd rfl ?_
      rw [hx]
      exact signExt_truncHigh (by decide) (by decide) _
  | ZEXT_H =>
      refine carries_write hrd rfl ?_
      rw [hx, truncHigh_eq]
      rfl
  | CLZ =>
      refine carries_write hrd (callbackCLZ_run env _ m) ?_
      rw [hx]
      exact highestSet_eq_clz _
  | CTZ =>
      refine carries_write hrd (callbackCTZ_run env _ m) ?_
      rw [hx]
      exact lowestSet_eq_ctz _
  | CPOP =>
      refine carries_write hrd (callbackCPOP_run env _ m) ?_
      rw [hx]
      exact bcount_eq_cpop _
  | REV8 =>
      refine carries_write hrd (callbackREV8_run env _ m) ?_
      rw [hx]
      exact rev8_eq _
  | ORC_B =>
      refine carries_write hrd (callbackORC_B_run env _ m) ?_
      rw [hx]
      exact orc_b_eq _

theorem carries_rori {rd rs1 shamt : BitVec 5} (hpos : shamt ≠ 0) :
    Carries env m .RORI (Insn.rori rd rs1 shamt).word
      ((Insn.rori rd rs1 shamt).exec m.sim.toSpec) := by
  have hfields := InsnFormat.readsFields_word (InsnMnemonic.RORI).format
    (Insn.rori rd rs1 shamt).operands
  have hx : m.sim.getXReg (RvInsn.mk (Insn.rori rd rs1 shamt).word).rs1Index =
      m.sim.toSpec.reg rs1 := congrArg m.sim.getXReg (RvInsn.rs1Index_eq hfields.2.1)
  have hlt : shamt.toNat < 32 := shamt.isLt
  have hne : shamt.toNat ≠ 0 := fun h => hpos (BitVec.eq_of_toNat_eq h)
  have hamount : (RvInsn.mk (Insn.rori rd rs1 shamt).word).shamt.toNat = shamt.toNat % 32 := by
    rw [Nat.mod_eq_of_lt hlt]
    exact (congrArg BitVec.toNat hfields.2.2).trans (RvInsn.toNat_setWidth_reg shamt)
  exact carries_write hfields.1 (callbackRORI_run hx hamount (by omega)) rfl

/-- A callback that only goes on to the next instruction. -/
theorem carries_next {mnem : InsnMnemonic}
    (hrun : (getInsnCallback env mnem word).run m = .ok () (m.mapSim (·.step))) :
    Carries env m mnem word (some m.sim.toSpec.next) :=
  ⟨m.sim.step, hrun, rfl, RVSim.OthersKept.refl.setIp _⟩

theorem carries_fence {op : FenceOp} {rd rs1 : BitVec 5} {imm : Int} :
    Carries env m op.mnem (Insn.fence op rd rs1 imm).word (some m.sim.toSpec.next) := by
  cases op with
  | FENCE => exact carries_next rfl
  | FENCE_I => exact carries_next rfl

end Extensions

section Base

variable {env : Env H} {m : Machine H}

/-- The instructions of the base set, with the bytes of an access all present. -/
theorem carries_base (hapart : m.sim.memory.Apart) {insn : Rv32i.Insn} (hlegal : insn.Legal)
    {next : Rv32i.State} (hexec : insn.exec m.sim.toSpec = some next) :
    Carries env m insn.mnem insn.word (insn.exec m.sim.toSpec) := by
  cases insn with
  | lui rd imm => exact refines_lui hlegal
  | auipc rd imm => exact refines_auipc hlegal
  | jal rd imm => exact refines_jal hlegal
  | jalr rd rs1 imm => exact refines_jalr hlegal
  | branch op rs1 rs2 imm => exact refines_branch hlegal
  | load op rd rs1 imm =>
      obtain ⟨bytes, hread, _⟩ := Option.bind_eq_some_iff.mp hexec
      obtain ⟨pre, segm, post, win⟩ := window_of_read hapart hread op.bytes_pos
      exact refines_load hlegal win
  | store op rs1 rs2 imm =>
      obtain ⟨bytes, hread, _⟩ := Option.bind_eq_some_iff.mp hexec
      obtain ⟨pre, segm, post, win⟩ := window_of_read hapart hread op.bytes_pos
      exact refines_store hlegal win
  | opImm op rd rs1 imm => exact refines_opImm hlegal
  | shiftImm op rd rs1 shamt => exact refines_shiftImm
  | reg op rd rs1 rs2 => exact refines_reg

end Base

section Runs

/-- The instructions whose callback does what the manual says, in this state. -/
def ExactIn (s : Rv32i.State) : Insn → Prop
  | .base _ => True
  | .reg op _ rs1 rs2 => exactOperands (s.reg rs1) (s.reg rs2) op
  | .unary .. => True
  | .rori _ _ shamt => shamt ≠ 0
  | .fence .. | .ebreak => True

/-- A step of the specified machine with such an instruction. -/
def ExactStep (s s' : Rv32i.State) : Prop :=
  ∃ insn, Fetches s insn ∧ ExactIn s insn ∧ insn.exec s = some s'

variable (env : Env H) {m : Machine H}

/-- A fetch finds the word whose bytes lie at the program counter. -/
theorem fetch_of_read (build : Build) (hapart : m.sim.memory.Apart) {word : UndecodedInsn}
    (hread : read m.sim.toSpec.mem m.sim.toSpec.pc 4 = some (toBytes 4 word)) :
    m.sim.memory.fetch build m.sim.ip = .ok word := by
  obtain ⟨pre, segm, post, win⟩ := window_of_read hapart hread (by decide)
  have hload := win.loadFrom_of_read build (w := 32) rfl (by decide) hread
  rwa [toWord_toBytes _ (by decide)] at hload

/-- One iteration of the loop follows one step of the machine. -/
theorem executeInsn_follows (hapart : m.sim.memory.Apart) {next : Rv32i.State}
    (hstep : ExactStep m.sim.toSpec next) :
    ∃ sim', (executeInsn env).run m = .ok () { m with sim := sim' } ∧ sim'.toSpec = next ∧
      m.sim.OthersKept sim' := by
  obtain ⟨insn, hfetches, hexact, hexec⟩ := hstep
  have hfetch := fetch_of_read env.build hapart hfetches.word
  have hcarries : Carries env m insn.mnem insn.word (insn.exec m.sim.toSpec) := by
    cases insn with
    | base insn => exact carries_base hapart hfetches.legal hexec
    | reg op rd rs1 rs2 => exact carries_reg hexact
    | unary op rd rs1 => exact carries_unary
    | rori rd rs1 shamt => exact carries_rori hexact
    | fence op rd rs1 imm => exact carries_fence
    | ebreak => exact carries_next rfl
  obtain ⟨sim', hrun, hnext, hothers⟩ := hcarries
  refine ⟨sim', ?_, ?_, hothers⟩
  · rw [executeInsn_run env hfetch (decode_encode insn.mnem insn.operands), hrun]
  · rw [hnext] at hexec
    exact Option.some.inj hexec

theorem RVSim.OthersKept.trans {sim sim' sim'' : RVSim} (h : sim.OthersKept sim')
    (h' : sim'.OthersKept sim'') : sim.OthersKept sim'' :=
  ⟨h'.fregs.trans h.fregs, h'.fcsr.trans h.fcsr, h'.shouldStop.trans h.shouldStop,
    h'.layout.trans h.layout⟩

/-- What `storeBelow` makes of the state of `storingMachine`. -/
def afterStoreBelow : Rv32i.State :=
  { storingMachine.sim.toSpec with
    mem := write storingMachine.sim.toSpec.mem 0x2002 (toBytes 2 (0xabcd : Register)) }.next

theorem storingMachine_step : ExactStep storingMachine.sim.toSpec afterStoreBelow := by
  refine ⟨.base storeBelow, ⟨⟨by decide, by decide⟩, by decide⟩, trivial, ?_⟩
  rfl

end Runs

end RiscvSim
