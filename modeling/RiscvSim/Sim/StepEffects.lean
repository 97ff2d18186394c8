import RiscvSim.Sim.CsrWord
import RiscvSim.Sim.RoundingMode
import RiscvSim.Sim.StoreFrame
import RiscvSim.Sim.SyscallTransfer

/-!
Everything that a callback can do to the simulator object. The callbacks fall
into a few kinds by what they write; each kind has one lemma that takes the
callbacks of the kind apart, and later results only look at the kinds.
-/

namespace RiscvSim

open Outcomes SimM

variable {H : Type}

/-- What an instruction writes beside `ip`. -/
inductive EffectKind where
  | xReg
  | fReg
  | flaggedX
  | flaggedF
  | csr
  | store (bytes : Nat)
  | jump
  | nothing
  | syscall
  deriving DecidableEq

def InsnMnemonic.effectKind : InsnMnemonic → EffectKind
  | .JAL | .JALR | .BEQ | .BNE | .BLT | .BGE | .BLTU | .BGEU => .jump
  | .SB => .store 1
  | .SH => .store 2
  | .SW | .FSW => .store 4
  | .FENCE | .FENCE_I | .EBREAK => .nothing
  | .ECALL => .syscall
  | .CSRRW | .CSRRS | .CSRRC | .CSRRWI | .CSRRSI | .CSRRCI => .csr
  | .FLW | .FSGNJ_S | .FSGNJN_S | .FSGNJX_S | .FMIN_S | .FMAX_S | .FMV_W_X => .fReg
  | .FADD_S | .FSUB_S | .FMUL_S | .FDIV_S | .FSQRT_S
  | .FMADD_S | .FMSUB_S | .FNMSUB_S | .FNMADD_S | .FCVT_S_W | .FCVT_S_WU => .flaggedF
  | .FLE_S | .FLT_S | .FEQ_S | .FCVT_W_S | .FCVT_WU_S => .flaggedX
  | _ => .xReg

/-- What an instruction of each kind makes of the simulator object. -/
inductive Effect (insn : RvInsn) (sim : RVSim) : EffectKind → RVSim → Prop
  | xReg (value : Register) : Effect insn sim .xReg (sim.setXReg insn.rdIndex value).step
  | fReg (value : FRegister) : Effect insn sim .fReg (sim.setFReg insn.rdIndex value).step
  | flaggedX (value : Register) (raised : BitVec 8) :
      Effect insn sim .flaggedX (sim.retire insn (.xReg value raised))
  | flaggedF (value : FRegister) (raised : BitVec 8) :
      Effect insn sim .flaggedF (sim.retire insn (.fReg value raised))
  | csr {csr : CSR} (hcsr : CSR.toEnum? insn.immCSR = some csr) (value old : Register) :
      Effect insn sim .csr (sim.afterCsr (replaceCSR sim.fcsr value csr) insn.rdIndex old)
  | unknownCsr (hcsr : CSR.toEnum? insn.immCSR = none) :
      Effect insn sim .csr (sim.setXReg insn.rdIndex 0).step
  | store {n : Nat} {memory : Memory}
      (hkeeps : sim.memory.Keeps (sim.getXReg insn.rs1Index + insn.immS) n memory) :
      Effect insn sim (.store n) { sim with memory }.step
  | branch : Effect insn sim .jump { sim with ip := sim.ip + insn.immB }
  | fallThrough : Effect insn sim .jump sim.step
  | jal :
      Effect insn sim .jump
        { sim.setXReg insn.rdIndex (sim.ip + kStepSize) with ip := sim.ip + insn.immJ }
  | jalr (target : Address) :
      Effect insn sim .jump
        ({ sim with ip := target &&& ~~~1 }.setXReg insn.rdIndex (sim.ip + kStepSize))
  | nothing : Effect insn sim .nothing sim.step
  | exit : Effect insn sim .syscall { sim with shouldStop := true }.step
  | unknownSyscall : Effect insn sim .syscall sim.step
  | transfer {memory : Memory} (hlayout : memory.layout = sim.memory.layout) (rc : Int) :
      Effect insn sim .syscall (sim.afterSyscall memory rc)

/-- Raising exceptions sets bits 0 to 4 only. -/
theorem RVSim.getLsbD_raise (sim : RVSim) (raised : BitVec 8) (i : Nat) :
    (sim.raise raised).fcsr.getLsbD i =
      (sim.fcsr.getLsbD i || (decide (i < 5) && raised.getLsbD i)) := by
  unfold RVSim.raise
  rw [BitVec.getLsbD_or, BitVec.getLsbD_and, BitVec.getLsbD_setWidth]
  by_cases hi : i < 32
  · have hmask : (0x1f : Register).getLsbD i = decide (i < 5) := getLsbD_low_mask rfl hi
    rw [hmask, decide_eq_true hi, Bool.true_and, Bool.and_comm]
  · have hnot : ¬ i < 5 := by omega
    rw [BitVec.getLsbD_of_ge (0x1f : Register) i (by omega), decide_eq_false hnot, Bool.and_false,
      Bool.false_and]

section Rules

/-! The actions of a callback, from the front. -/

variable {m : Machine H}

theorem ends_getSim {Q : RVSim → Machine H → Prop} :
    Ends (getSim : SimM H RVSim) m Q ↔ Q m.sim m := ends_of_run (run_getSim m)

theorem ends_getXReg {Q : Register → Machine H → Prop} {i : RegIndex} :
    Ends (getXReg i : SimM H Register) m Q ↔ Q (m.sim.getXReg i) m := ends_of_run (run_getXReg m i)

theorem ends_getFReg {Q : FRegister → Machine H → Prop} {i : RegIndex} :
    Ends (getFReg i : SimM H FRegister) m Q ↔ Q (m.sim.getFReg i) m :=
  ends_of_run (run_getFReg m i)

theorem ends_getIp {Q : Address → Machine H → Prop} :
    Ends (getIp : SimM H Address) m Q ↔ Q m.sim.ip m := ends_of_run (run_getIp m)

theorem ends_getMem {Q : Memory → Machine H → Prop} :
    Ends (getMem : SimM H Memory) m Q ↔ Q m.sim.memory m := ends_of_run (run_getMem m)

theorem ends_modifySim {Q : Unit → Machine H → Prop} {f : RVSim → RVSim} :
    Ends (modifySim f : SimM H Unit) m Q ↔ Q () (m.mapSim f) := ends_of_run (run_modifySim m f)

theorem ends_setXReg {Q : Unit → Machine H → Prop} {i : RegIndex} {value : Register} :
    Ends (setXReg i value : SimM H Unit) m Q ↔ Q () (m.mapSim (·.setXReg i value)) :=
  ends_modifySim

theorem ends_setFReg {Q : Unit → Machine H → Prop} {i : RegIndex} {value : FRegister} :
    Ends (setFReg i value : SimM H Unit) m Q ↔ Q () (m.mapSim (·.setFReg i value)) :=
  ends_modifySim

theorem ends_setIp {Q : Unit → Machine H → Prop} {ip : Address} :
    Ends (setIp ip : SimM H Unit) m Q ↔ Q () (m.mapSim ({ · with ip })) := ends_modifySim

theorem ends_setMem {Q : Unit → Machine H → Prop} {memory : Memory} :
    Ends (setMem memory : SimM H Unit) m Q ↔ Q () (m.mapSim ({ · with memory })) :=
  ends_modifySim

theorem ends_step {Q : Unit → Machine H → Prop} :
    Ends (step : SimM H Unit) m Q ↔ Q () (m.mapSim RVSim.step) := ends_modifySim

theorem ends_lift {α : Type} {Q : α → Machine H → Prop} {x : Except Fault α} :
    Ends (liftM x : SimM H α) m Q ↔ Returns x fun a => Q a m := by
  cases x with
  | ok a => exact (ends_of_run (run_lift_ok a m)).trans (returns_ok (Q := fun a => Q a m)).symm
  | error fault => exact ⟨fun _ => returns_error, fun _ => ends_throw⟩

end Rules

section KeepsSim

/-! The actions on the library and on a value alone leave the object as it is. -/

/-- The simulator object is the same behind `x`. -/
abbrev KeepsSim {α : Type} (x : SimM H α) : Prop := Preserves Machine.sim x

theorem keepsSim_lift {α : Type} (x : Except Fault α) : KeepsSim (liftM x : SimM H α) :=
  fun _ => ends_lift.mpr fun _ _ => rfl

theorem keepsSim_callSoftFloat {α : Type} (op : BitVec 8 → α × BitVec 8) :
    KeepsSim (callSoftFloat op : SimM H α) :=
  fun _ => ends_bind.mpr (ends_get.mpr (ends_bind.mpr (ends_modify.mpr (ends_pure.mpr rfl))))

theorem keepsSim_f32_min (env : Env H) (a b : FRegister) : KeepsSim (f32_min env a b) :=
  (keepsSim_callSoftFloat _).bind fun _ => preserves_pure _

theorem keepsSim_f32_max (env : Env H) (a b : FRegister) : KeepsSim (f32_max env a b) :=
  (keepsSim_callSoftFloat _).bind fun _ => preserves_pure _

end KeepsSim

section Rounding

variable {env : Env H} {word : UndecodedInsn} {m : Machine H}

/-- In a debug build the assertion about a missing mode ends the program. -/
theorem ends_selectRM_assert (hbuild : env.build = .debug) {insn : RvInsn}
    (hrm : m.sim.selectedRM insn = .DYN) {Q : BitVec 8 → Machine H → Prop} :
    Ends (selectRM env insn) m Q := by
  unfold selectRM
  rw [ends_bind, ends_getSim, ends_bind, ends_lift, RVSim.getRM_eq, returns_ok, hrm, hbuild]
  exact ends_bind.mpr (ends_lift.mpr returns_error)

/-- The rounding instructions but the two that select no mode. -/
theorem RoundingInsn.callback_ends_assert {insn : RoundingInsn}
    (hselects : ¬ (insn = .FCVT_S_W ∨ insn = .FCVT_S_WU)) (hbuild : env.build = .debug)
    (hrm : m.sim.selectedRM ⟨word⟩ = .DYN) {Q : Unit → Machine H → Prop} :
    Ends (getInsnCallback env insn.mnem word) m Q := by
  cases insn with
  | FCVT_S_W => simp at hselects
  | FCVT_S_WU => simp at hselects
  | FCVT_W_S | FCVT_WU_S =>
      refine ends_bind.mpr (ends_modify.mpr (ends_bind.mpr (ends_getFReg.mpr (ends_bind.mpr ?_))))
      refine ends_selectRM_assert hbuild ?_
      exact hrm
  | _ =>
      refine ends_bind.mpr (ends_modify.mpr (ends_bind.mpr ?_))
      refine ends_selectRM_assert hbuild ?_
      exact hrm

/-- What a rounding instruction that completes leaves, in every mode. -/
theorem RoundingInsn.callback_ends (insn : RoundingInsn) :
    Ends (getInsnCallback env insn.mnem word) m fun _ m' =>
      m'.sim = m.sim.retire ⟨word⟩
        (insn.eval env.softfloat m.sim ⟨word⟩ (m.operationMode ⟨word⟩ insn)) := by
  cases hmode : (m.sim.selectedRM ⟨word⟩).softfloat? with
  | some mode =>
      have hused : m.operationMode ⟨word⟩ insn =
          insn.operationMode mode (insn.usedMode mode m.softfloat.roundingMode) := by
        rw [Machine.operationMode, hmode]
      rw [hused]
      exact (ends_of_run (insn.callback_run_of_selects (selects_of_mode hmode))).mpr rfl
  | none =>
      have hused : m.operationMode ⟨word⟩ insn =
          insn.operationMode 0
            (insn.usedMode m.softfloat.roundingMode m.softfloat.roundingMode) := by
        rw [Machine.operationMode, hmode]
      rw [hused]
      by_cases hassert : env.build = .release ∨ m.sim.selectedRM ⟨word⟩ ≠ .DYN
      · exact (ends_of_run (insn.callback_run_of_selects
          (selects_of_reserved hmode hassert))).mpr rfl
      · have hbuild : env.build = .debug := by
          cases hb : env.build with
          | debug => rfl
          | release => exact absurd (.inl hb) hassert
        have hrm : m.sim.selectedRM ⟨word⟩ = .DYN :=
          Classical.byContradiction fun hne => hassert (.inr hne)
        by_cases hconv : insn = .FCVT_S_W ∨ insn = .FCVT_S_WU
        · have hmode (left : BitVec 8) :
              insn.operationMode 0 (insn.usedMode left left) = left := by
            obtain rfl | rfl := hconv <;> rfl
          rw [hmode]
          exact (ends_of_run (RoundingInsn.convert_run hconv)).mpr rfl
        · exact RoundingInsn.callback_ends_assert hconv hbuild hrm

end Rounding

section Kinds

variable (env : Env H) (word : UndecodedInsn) (m : Machine H) {mnem : InsnMnemonic}

/-- What the callback of `mnem` ends in is an effect of this kind. -/
abbrev HasEffect (mnem : InsnMnemonic) (kind : EffectKind) : Prop :=
  Ends (getInsnCallback env mnem word) m fun _ m' => Effect ⟨word⟩ m.sim kind m'.sim

section Integer

variable (binOp : Register → Register → Except Fault Register)

theorem executeRRRBinOp_effect :
    Ends (executeRRRBinOp word binOp) m fun _ m' => Effect ⟨word⟩ m.sim .xReg m'.sim := by
  simp only [executeRRRBinOp, ends_bind, ends_getXReg, ends_lift, ends_setXReg, ends_step]
  intro value _
  exact .xReg value

theorem executeRRIBinOp_effect :
    Ends (executeRRIBinOp word binOp) m fun _ m' => Effect ⟨word⟩ m.sim .xReg m'.sim := by
  simp only [executeRRIBinOp, ends_bind, ends_getXReg, ends_lift, ends_setXReg, ends_step]
  intro value _
  exact .xReg value

theorem executeRRIShift_effect :
    Ends (executeRRIShift word binOp) m fun _ m' => Effect ⟨word⟩ m.sim .xReg m'.sim := by
  simp only [executeRRIShift, ends_bind, ends_getXReg, ends_lift, ends_setXReg, ends_step]
  intro value _
  exact .xReg value

end Integer

/-- The end of every callback that writes an integer register. -/
theorem ends_writeX (value : Register) :
    Ends (do setXReg (RvInsn.mk word).rdIndex value; step : SimM H Unit) m fun _ m' =>
      Effect ⟨word⟩ m.sim .xReg m'.sim :=
  ends_bind.mpr (ends_setXReg.mpr (ends_step.mpr (.xReg value)))

/-- A computation that leaves the object alone, and then such an end. -/
theorem writeX_effect {α : Type} {x : SimM H α} (hx : KeepsSim x) (f : α → Register) :
    Ends (do setXReg (RvInsn.mk word).rdIndex (f (← x)); step) m fun _ m' =>
      Effect ⟨word⟩ m.sim .xReg m'.sim := by
  refine hx.ends_bind fun a m₁ hsim => ?_
  rw [← hsim]
  exact ends_writeX word m₁ (f a)

theorem xReg_effect (h : mnem.effectKind = .xReg) : HasEffect env word m mnem .xReg := by
  cases mnem with
  | ADD | SUB | SLL | XOR | SRL | SRA | OR | AND => exact executeRRRBinOp_effect word m _
  | ADDI | XORI | ORI | ANDI =>
      simp only [HasEffect, getInsnCallback, callbackADDI, callbackXORI, callbackORI, callbackANDI]
      exact executeRRIBinOp_effect word m _
  | SLLI | SRLI | SRAI =>
      simp only [HasEffect, getInsnCallback, callbackSLLI, callbackSRLI, callbackSRAI]
      exact executeRRIShift_effect word m _
  | LUI | AUIPC | SLTI | SLTIU | SLT | SLTU | MUL | MULHU | ANDN | ORN | XNOR | MIN | MINU | MAX
  | MAXU | SEXT_B | SEXT_H | ZEXT_H | FMV_X_W | FCLASS_S => exact (ends_of_run rfl).mpr (.xReg _)
  | LB | LH | LW | LBU | LHU | MULH | MULHSU | CLZ | CTZ =>
      simp only [HasEffect, getInsnCallback, callbackLB, callbackLH, callbackLW, callbackLBU,
        callbackLHU, callbackMULH, callbackMULHSU, callbackCLZ, callbackCTZ, ends_bind,
        ends_getXReg, ends_getMem, ends_lift, ends_setXReg, ends_step]
      intro value _
      exact .xReg _
  | ROL | ROR | RORI =>
      simp only [HasEffect, getInsnCallback, callbackROL, callbackROR, callbackRORI, ends_bind,
        ends_getXReg, ends_lift, ends_setXReg, ends_step]
      intro left _ right _
      exact .xReg _
  | DIV | REM =>
      simp only [HasEffect, getInsnCallback, callbackDIV, callbackREM, ends_bind, ends_getXReg]
      split
      · exact writeX_effect word m (preserves_pure _) id
      · split
        · exact writeX_effect word m (preserves_pure _) id
        · exact writeX_effect word m (keepsSim_lift _) id
  | DIVU | REMU =>
      simp only [HasEffect, getInsnCallback, callbackDIVU, callbackREMU, ends_bind, ends_getXReg]
      split
      · exact writeX_effect word m (preserves_pure _) id
      · exact writeX_effect word m (keepsSim_lift _) id
  | CPOP =>
      refine ends_bind.mpr (ends_getXReg.mpr ?_)
      refine writeX_effect word m (preserves_foldlM (fun bcount i => ?_) _ _) (BitVec.ofNat 32)
      exact (keepsSim_lift _).bind fun _ => preserves_pure _
  | REV8 =>
      refine ends_bind.mpr (ends_getXReg.mpr ?_)
      refine writeX_effect word m (preserves_foldlM (fun val i => ?_) _ _) id
      exact (keepsSim_lift _).bind fun _ => keepsSim_lift _
  | ORC_B =>
      refine ends_bind.mpr (ends_getXReg.mpr ?_)
      refine writeX_effect word m (preserves_foldlM (fun val i => ?_) _ _) id
      refine (keepsSim_lift _).bind fun byte => ?_
      split
      · exact keepsSim_lift _
      · exact keepsSim_lift _
  | _ => contradiction

theorem writeF_effect {x : SimM H FRegister} (hx : KeepsSim x) :
    Ends (do setFReg (RvInsn.mk word).rdIndex (← x); step) m fun _ m' =>
      Effect ⟨word⟩ m.sim .fReg m'.sim := by
  refine hx.ends_bind fun value m₁ hsim => ?_
  rw [ends_bind, ends_setFReg, ends_step, ← hsim]
  exact .fReg value

theorem fReg_effect (h : mnem.effectKind = .fReg) : HasEffect env word m mnem .fReg := by
  cases mnem with
  | FLW =>
      simp only [HasEffect, getInsnCallback, callbackFLW, ends_bind, ends_getXReg, ends_getMem,
        ends_lift, ends_setFReg, ends_step]
      intro value _
      exact .fReg value
  | FSGNJ_S | FSGNJN_S | FSGNJX_S | FMV_W_X => exact (ends_of_run rfl).mpr (.fReg _)
  | FMIN_S =>
      refine ends_bind.mpr (ends_getFReg.mpr (ends_bind.mpr (ends_getFReg.mpr ?_)))
      exact writeF_effect word m (keepsSim_f32_min env _ _)
  | FMAX_S =>
      refine ends_bind.mpr (ends_getFReg.mpr (ends_bind.mpr (ends_getFReg.mpr ?_)))
      exact writeF_effect word m (keepsSim_f32_max env _ _)
  | _ => contradiction

/-- The instructions that merge flags round or compare. -/
theorem flagged_cases (h : mnem.effectKind = .flaggedX ∨ mnem.effectKind = .flaggedF) :
    (∃ insn : RoundingInsn, insn.mnem = mnem) ∨ mnem ∈ [.FLE_S, .FLT_S, .FEQ_S] := by
  cases mnem with
  | FADD_S => exact .inl ⟨.FADD_S, rfl⟩
  | FSUB_S => exact .inl ⟨.FSUB_S, rfl⟩
  | FMUL_S => exact .inl ⟨.FMUL_S, rfl⟩
  | FDIV_S => exact .inl ⟨.FDIV_S, rfl⟩
  | FSQRT_S => exact .inl ⟨.FSQRT_S, rfl⟩
  | FMADD_S => exact .inl ⟨.FMADD_S, rfl⟩
  | FMSUB_S => exact .inl ⟨.FMSUB_S, rfl⟩
  | FNMSUB_S => exact .inl ⟨.FNMSUB_S, rfl⟩
  | FNMADD_S => exact .inl ⟨.FNMADD_S, rfl⟩
  | FCVT_W_S => exact .inl ⟨.FCVT_W_S, rfl⟩
  | FCVT_WU_S => exact .inl ⟨.FCVT_WU_S, rfl⟩
  | FCVT_S_W => exact .inl ⟨.FCVT_S_W, rfl⟩
  | FCVT_S_WU => exact .inl ⟨.FCVT_S_WU, rfl⟩
  | FLE_S | FLT_S | FEQ_S => simp
  | _ => rcases h with h | h <;> contradiction

theorem RoundingInsn.effect (insn : RoundingInsn) :
    HasEffect env word m insn.mnem insn.mnem.effectKind := by
  intro _ m' hrun
  rw [insn.callback_ends () m' hrun]
  cases insn with
  | FCVT_W_S | FCVT_WU_S => exact .flaggedX _ _
  | _ => exact .flaggedF _ _

theorem flagged_effect (h : mnem.effectKind = .flaggedX ∨ mnem.effectKind = .flaggedF) :
    HasEffect env word m mnem mnem.effectKind := by
  rcases flagged_cases h with ⟨insn, rfl⟩ | hcompare
  · exact insn.effect env word m
  · simp only [List.mem_cons, List.not_mem_nil, or_false] at hcompare
    rcases hcompare with rfl | rfl | rfl <;>
      exact (ends_of_run (executeRRRCmpOp_run fun _ _ => callSoftFloat_calls _)).mpr
        (.flaggedX _ _)

theorem mem_zicsrMnemonics (h : mnem.effectKind = .csr) : mnem ∈ zicsrMnemonics := by
  cases mnem <;> first | contradiction | decide

theorem csr_effect (h : mnem.effectKind = .csr) : HasEffect env word m mnem .csr := by
  obtain ⟨operand, f, hcallback⟩ := getInsnCallback_zicsr env (mem_zicsrMnemonics h) word
  rw [HasEffect, hcallback]
  cases hcsr : CSR.toEnum? (RvInsn.mk word).immCSR with
  | some csr =>
      obtain ⟨old, hold⟩ := m.sim.getCSR_of_toEnum? env.build hcsr
      exact (ends_of_run (csrInsn_run operand f hcsr hold)).mpr (.csr hcsr _ _)
  | none =>
      intro _ m' hrun
      rw [csrInsn_run_unknown operand f hcsr] at hrun
      cases hbuild : env.build with
      | debug =>
          rw [hbuild] at hrun
          cases hrun
      | release =>
          rw [hbuild] at hrun
          cases hrun
          exact .unknownCsr hcsr

theorem store_effect {n : Nat} (h : mnem.effectKind = .store n) :
    HasEffect env word m mnem (.store n) := by
  cases mnem with
  | SB =>
      cases h
      simp only [HasEffect, getInsnCallback, callbackSB, ends_bind, ends_getXReg, ends_getMem,
        ends_lift, ends_setMem, ends_step]
      intro memory hstore
      exact .store (Memory.storeU8_keeps env.build _ _ _ memory hstore)
  | SH =>
      cases h
      simp only [HasEffect, getInsnCallback, callbackSH, ends_bind, ends_getXReg, ends_getMem,
        ends_lift, ends_setMem, ends_step]
      intro memory hstore
      exact .store (Memory.storeU16_keeps env.build _ _ _ memory hstore)
  | SW | FSW =>
      cases h
      simp only [HasEffect, getInsnCallback, callbackSW, callbackFSW, ends_bind, ends_getXReg,
        ends_getFReg, ends_getMem, ends_lift, ends_setMem, ends_step]
      intro memory hstore
      exact .store (Memory.storeU32_keeps env.build _ _ _ memory hstore)
  | _ => contradiction

theorem executeBranch_effect (pred : Register → Register → Bool) :
    Ends (executeBranch word pred) m fun _ m' => Effect ⟨word⟩ m.sim .jump m'.sim := by
  simp only [executeBranch, ends_bind, ends_getXReg]
  split
  · exact ends_bind.mpr (ends_getIp.mpr (ends_setIp.mpr .branch))
  · exact ends_step.mpr .fallThrough

theorem jump_effect (h : mnem.effectKind = .jump) : HasEffect env word m mnem .jump := by
  cases mnem with
  | BEQ | BNE | BLT | BGE | BLTU | BGEU =>
      simp only [HasEffect, getInsnCallback, callbackBEQ, callbackBNE, callbackBLT, callbackBGE,
        callbackBLTU, callbackBGEU]
      exact executeBranch_effect word m _
  | JAL =>
      simp only [HasEffect, getInsnCallback, callbackJAL, ends_bind, ends_getIp, ends_setXReg,
        ends_setIp, Machine.mapSim_sim, RVSim.setXReg_ip]
      exact .jal
  | JALR =>
      simp only [HasEffect, getInsnCallback, callbackJALR, ends_bind, ends_getIp, ends_getXReg,
        ends_setXReg, ends_setIp]
      exact .jalr _
  | _ => contradiction

theorem nothing_effect (h : mnem.effectKind = .nothing) : HasEffect env word m mnem .nothing := by
  cases mnem with
  | FENCE | FENCE_I | EBREAK => exact ends_step.mpr .nothing
  | _ => contradiction

theorem syscall_effect (h : mnem.effectKind = .syscall) : HasEffect env word m mnem .syscall := by
  cases mnem with
  | ECALL =>
      simp only [HasEffect, getInsnCallback, callbackECALL, syscallHandler, ends_bind,
        ends_getXReg]
      cases SyscallId.toEnum? (m.sim.getXReg XRegAlias.a7) with
      | none => exact ends_lift.mpr fun _ _ => ends_step.mpr .unknownSyscall
      | some id =>
          cases id with
          | kExit => exact ends_modifySim.mpr (ends_step.mpr .exit)
          | kRead =>
              simp only [ends_bind, ends_getXReg, ends_get, ends_modify]
              split
              · simp only [ends_bind, ends_getMem, ends_lift, ends_setMem, ends_setXReg, ends_step]
                intro memory hcopy
                exact .transfer (Memory.copyHostToGuest_layout _ _ _ _ _ memory hcopy) _
              · simp only [ends_setXReg, ends_step]
                exact .transfer rfl _
          | kWrite =>
              simp only [ends_bind, ends_getXReg, ends_getMem, ends_lift, ends_get, ends_modify,
                ends_setXReg, ends_step]
              intro bytes _
              exact .transfer rfl _
  | _ => contradiction

end Kinds

/-- Whatever a callback does to the simulator object is an effect of its kind. -/
theorem callback_effect (env : Env H) (mnem : InsnMnemonic) (word : UndecodedInsn)
    (m : Machine H) : HasEffect env word m mnem mnem.effectKind := by
  cases hkind : mnem.effectKind with
  | xReg => exact xReg_effect env word m hkind
  | fReg => exact fReg_effect env word m hkind
  | flaggedX =>
      rw [← hkind]
      exact flagged_effect env word m (.inl hkind)
  | flaggedF =>
      rw [← hkind]
      exact flagged_effect env word m (.inr hkind)
  | csr => exact csr_effect env word m hkind
  | store n => exact store_effect env word m hkind
  | jump => exact jump_effect env word m hkind
  | nothing => exact nothing_effect env word m hkind
  | syscall => exact syscall_effect env word m hkind

/-- The status word behind an effect: the old one, with exceptions raised in it,
or with one view replaced by a CSR instruction. -/
theorem Effect.fcsr_cases {insn : RvInsn} {sim sim' : RVSim} {kind : EffectKind}
    (h : Effect insn sim kind sim') :
    sim'.fcsr = sim.fcsr ∨ (∃ raised, sim'.fcsr = (sim.raise raised).fcsr) ∨
      ∃ csr value, kind = .csr ∧ CSR.toEnum? insn.immCSR = some csr ∧
        sim'.fcsr = replaceCSR sim.fcsr value csr := by
  cases h with
  | xReg value => exact .inl (sim.setXReg_fcsr _ value)
  | fReg value => exact .inl rfl
  | flaggedX value raised =>
      refine .inr (.inl ⟨raised, ?_⟩)
      exact congrArg (· ||| (raised.setWidth 32 &&& 0x1f)) (sim.setXReg_fcsr _ value)
  | flaggedF value raised => exact .inr (.inl ⟨raised, rfl⟩)
  | csr hcsr value old => exact .inr (.inr ⟨_, value, rfl, hcsr, sim.afterCsr_fcsr _ _ old⟩)
  | unknownCsr hcsr => exact .inl (sim.setXReg_fcsr _ 0)
  | store hkeeps => exact .inl rfl
  | branch => exact .inl rfl
  | fallThrough => exact .inl rfl
  | jal => exact .inl (sim.setXReg_fcsr _ _)
  | jalr target => exact .inl (RVSim.setXReg_fcsr _ _ _)
  | nothing => exact .inl rfl
  | exit => exact .inl rfl
  | unknownSyscall => exact .inl rfl
  | transfer hlayout rc => exact .inl (RVSim.setXReg_fcsr _ _ _)

/-- One iteration of the loop is an effect of the instruction that it fetched. -/
theorem executeInsn_effect {env : Env H} {m m' : Machine H}
    (hrun : (executeInsn env).run m = .ok () m') :
    ∃ word mnem, m.sim.memory.fetch env.build m.sim.ip = .ok word ∧ decode word = some mnem ∧
      Effect ⟨word⟩ m.sim mnem.effectKind m'.sim := by
  cases hfetch : m.sim.memory.fetch env.build m.sim.ip with
  | error fault =>
      have hends : Ends (executeInsn env) m fun _ _ => False := by
        rw [executeInsn, ends_bind, ends_getMem, ends_bind, ends_getIp, ends_bind, ends_lift, hfetch]
        exact returns_error
      exact absurd hrun (hends () m')
  | ok word =>
      cases hdecode : decode word with
      | none =>
          rw [executeInsn_unknown env hfetch hdecode] at hrun
          cases hrun
      | some mnem =>
          rw [executeInsn_run env hfetch hdecode] at hrun
          exact ⟨word, mnem, rfl, hdecode, callback_effect env mnem word m () m' hrun⟩

end RiscvSim
