import RiscvSim.Sim.CsrWord
import RiscvSim.Sim.Execute
import RiscvSim.Sim.Rv32iState
import RiscvSim.Spec.FpCsr

/-!
The simulator keeps the rounding mode and the exception flags in one word and
picks the views out of it with masks and shifts. A program of CSR instructions
runs on that word as it does on the two fields.
-/

namespace RiscvSim

open FpCsr SimM

variable {H : Type}

/-- The two fields of the word. -/
def fpStatus (fcsr : Register) : Status := ⟨fcsr.extractLsb' 5 3, fcsr.setWidth 5⟩

namespace RVSim

/-- The specified state with the floating-point status. -/
def toFpCsr (sim : RVSim) : State := ⟨sim.toSpec, fpStatus sim.fcsr⟩

/-- What no instruction of the CSR extension touches. -/
structure CsrFrame (sim sim' : RVSim) : Prop where
  memory : sim'.memory = sim.memory
  fregs : sim'.fregs = sim.fregs
  shouldStop : sim'.shouldStop = sim.shouldStop

theorem CsrFrame.refl (sim : RVSim) : sim.CsrFrame sim := ⟨rfl, rfl, rfl⟩

theorem CsrFrame.trans {sim sim' sim'' : RVSim} (h : sim.CsrFrame sim')
    (h' : sim'.CsrFrame sim'') : sim.CsrFrame sim'' :=
  ⟨h'.memory.trans h.memory, h'.fregs.trans h.fregs, h'.shouldStop.trans h.shouldStop⟩

end RVSim

theorem toEnum?_csr (insn : Insn) :
    CSR.toEnum? (insn.csr.setWidth 32) = some insn.view := by
  unfold Insn.csr
  cases insn.view <;> rfl

/-- A word below 256 is its two fields. -/
theorem fcsr_eq_fields {fcsr : Register} (h : fcsr.toNat < 256) :
    fcsr.toNat = (fpStatus fcsr).frm.toNat * 32 + (fpStatus fcsr).fflags.toNat := by
  simp only [fpStatus, BitVec.extractLsb'_toNat, BitVec.toNat_setWidth, Nat.shiftRight_eq_div_pow]
  omega

section Views

variable (sim : RVSim) (build : Build)

/-- `GetCSR` returns the view of the two fields. -/
theorem getCSR_view {index : Register} {view : CSR}
    (hindex : CSR.toEnum? index = some view) :
    sim.getCSR build index = .ok ((fpStatus sim.fcsr).read view) := by
  unfold RVSim.getCSR
  rw [hindex]
  cases view with
  | fflags =>
      have hmask : sim.fcsr.toNat &&& 31 = sim.fcsr.toNat % 32 :=
        Nat.and_two_pow_sub_one_eq_mod _ 5
      apply congrArg Except.ok
      apply BitVec.eq_of_toNat_eq
      change sim.fcsr.toNat &&& 31 = _
      simp only [fpStatus, Status.read, BitVec.toNat_setWidth]
      omega
  | frm => exact congrArg Except.ok (shiftRight_and_mask sim.fcsr 5 3 rfl)
  | fcsr =>
      have hmask : sim.fcsr.toNat &&& 255 = sim.fcsr.toNat % 256 :=
        Nat.and_two_pow_sub_one_eq_mod _ 8
      apply congrArg Except.ok
      apply BitVec.eq_of_toNat_eq
      change sim.fcsr.toNat &&& 255 = _
      simp only [fpStatus, Status.read, BitVec.extractLsb'_toNat, BitVec.toNat_setWidth,
        BitVec.toNat_ofNat, Nat.shiftRight_eq_div_pow]
      omega

/-- The fields of a word, by their bits. -/
theorem fpStatus_eq_of_bits {fcsr : Register} {s : Status}
    (hfrm : ∀ i < 3, fcsr.getLsbD (5 + i) = s.frm.getLsbD i)
    (hfflags : ∀ i < 5, fcsr.getLsbD i = s.fflags.getLsbD i) : fpStatus fcsr = s := by
  rw [fpStatus, Status.mk.injEq]
  constructor
  · apply BitVec.eq_of_getLsbD_eq
    intro i hi
    rw [BitVec.getLsbD_extractLsb', decide_eq_true hi, Bool.true_and, hfrm i hi]
  · apply BitVec.eq_of_getLsbD_eq
    intro i hi
    rw [BitVec.getLsbD_setWidth, decide_eq_true hi, Bool.true_and, hfflags i hi]

/-- Replacing a view in the word replaces it in the fields. -/
theorem fpStatus_replaceCSR (fcsr value : Register) (view : CSR) :
    fpStatus (replaceCSR fcsr value view) = (fpStatus fcsr).write value view := by
  cases view with
  | fflags =>
      refine fpStatus_eq_of_bits ?_ ?_
      · intro i hi
        rw [getLsbD_replace_fflags _ _ (by omega), if_neg (by omega)]
        simp [Status.write, fpStatus, hi]
      · intro i hi
        rw [getLsbD_replace_fflags _ _ (by omega), if_pos (by omega)]
        simp [Status.write, hi]
  | frm =>
      refine fpStatus_eq_of_bits ?_ ?_
      · intro i hi
        rw [getLsbD_replace_frm _ _ (by omega), if_pos (by omega), Nat.add_sub_cancel_left]
        simp [Status.write, hi]
      · intro i hi
        rw [getLsbD_replace_frm _ _ (by omega), if_neg (by omega)]
        simp [Status.write, fpStatus, hi]
  | fcsr =>
      refine fpStatus_eq_of_bits ?_ ?_
      · intro i hi
        rw [getLsbD_replace_fcsr _ _ (by omega), if_pos (by omega)]
        simp [Status.write, hi]
      · intro i hi
        rw [getLsbD_replace_fcsr _ _ (by omega), if_pos (by omega)]
        simp [Status.write, hi]

end Views

section Callbacks

variable (env : Env H) (m : Machine H)

/-- What the callback of each of the six instructions does. -/
theorem csr_callback_run (insn : Insn) :
    let old := (fpStatus m.sim.fcsr).read insn.view
    let value := insn.op.apply old (m.sim.toFpCsr.operand insn.source)
    (getInsnCallback env insn.mnem insn.word).run m =
      .ok () (m.mapSim
        (·.afterCsr (replaceCSR m.sim.fcsr value insn.view) (regIndex insn.rd) old)) := by
  intro old value
  obtain ⟨hrd, hrs1, hcsr⟩ : (RvInsn.mk insn.word).rd = insn.operands.rd.setWidth 32 ∧
      (RvInsn.mk insn.word).rs1 = insn.operands.rs1.setWidth 32 ∧
      (RvInsn.mk insn.word).immCSR = insn.operands.csr.setWidth 32 := by
    have hreads := InsnFormat.readsFields_word insn.mnem.format insn.operands
    obtain ⟨op, source, view, rd⟩ := insn
    cases op <;> cases source <;> exact hreads
  have hview : CSR.toEnum? (RvInsn.mk insn.word).immCSR = some insn.view := by
    rw [hcsr, ← toEnum?_csr insn]
    unfold Insn.operands
    cases insn.source <;> rfl
  have hold := getCSR_view m.sim env.build hview
  have hrdIndex : (RvInsn.mk insn.word).rdIndex = regIndex insn.rd := by
    rw [RvInsn.rdIndex_eq hrd]
    unfold Insn.operands
    cases insn.source <;> rfl
  rw [← hrdIndex]
  obtain ⟨op, source, view, rd⟩ := insn
  cases source with
  | reg rs1 =>
      have hoperand : m.sim.toFpCsr.operand (.reg rs1) = m.sim.getXReg (RvInsn.mk _).rs1Index :=
        congrArg m.sim.getXReg (RvInsn.rs1Index_eq hrs1).symm
      dsimp only [old, value]
      rw [hoperand]
      cases op with
      | replace => exact csrInsn_run (·.getXReg (RvInsn.mk _).rs1Index) (fun _ src => src) hview hold
      | set =>
          exact csrInsn_run (·.getXReg (RvInsn.mk _).rs1Index) (fun tmp src => tmp ||| src) hview hold
      | clear =>
          exact csrInsn_run (·.getXReg (RvInsn.mk _).rs1Index) (fun tmp src => tmp &&& ~~~src)
            hview hold
  | imm uimm =>
      have hoperand : m.sim.toFpCsr.operand (.imm uimm) = (RvInsn.mk _).rs1 := hrs1.symm
      dsimp only [old, value]
      rw [hoperand]
      cases op with
      | replace => exact csrInsn_run (fun _ => (RvInsn.mk _).rs1) (fun _ src => src) hview hold
      | set => exact csrInsn_run (fun _ => (RvInsn.mk _).rs1) (fun tmp src => tmp ||| src) hview hold
      | clear =>
          exact csrInsn_run (fun _ => (RvInsn.mk _).rs1) (fun tmp src => tmp &&& ~~~src) hview hold

end Callbacks

theorem RVSim.toFpCsr_afterCsr (sim : RVSim) (fcsr : Register) (rd : BitVec 5)
    (old : Register) :
    (sim.afterCsr fcsr (regIndex rd) old).toFpCsr =
      ⟨(sim.toSpec.setReg rd old).next, fpStatus fcsr⟩ := by
  have hspec : ({ sim with fcsr }.setXReg (regIndex rd) old).toSpec =
      sim.toSpec.setReg rd old := RVSim.toSpec_setXReg { sim with fcsr } rd old
  rw [toFpCsr, afterCsr_fcsr, ← hspec]
  rfl

theorem RVSim.csrFrame_afterCsr (sim : RVSim) (fcsr : Register) (rd : RegIndex)
    (old : Register) : sim.CsrFrame (sim.afterCsr fcsr rd old) :=
  ⟨setXReg_memory { sim with fcsr } rd old, setXReg_fregs { sim with fcsr } rd old,
    setXReg_shouldStop { sim with fcsr } rd old⟩

/-- One iteration of the loop on a CSR instruction is the specified one. -/
theorem executeInsn_csr (env : Env H) {m : Machine H} {insn : Insn}
    (hfetch : m.sim.memory.fetch env.build m.sim.ip = .ok insn.word)
    (hfcsr : m.sim.fcsr.toNat < 256) :
    ∃ sim', (executeInsn env).run m = .ok () { m with sim := sim' } ∧
      sim'.toFpCsr = insn.exec m.sim.toFpCsr ∧ m.sim.CsrFrame sim' ∧
      sim'.ip = m.sim.ip + kStepSize ∧ sim'.fcsr.toNat < 256 := by
  have hrun := csr_callback_run env m insn
  have hstep := executeInsn_run env hfetch (decode_encode insn.mnem insn.operands)
  refine ⟨_, hstep.trans hrun, ?_, RVSim.csrFrame_afterCsr _ _ _ _, ?_, ?_⟩
  · rw [RVSim.toFpCsr_afterCsr, fpStatus_replaceCSR]
    rfl
  · exact congrArg (· + kStepSize) (RVSim.setXReg_ip _ _ _)
  · change (m.sim.afterCsr _ _ _).fcsr.toNat < 256
    rw [RVSim.afterCsr_fcsr]
    exact replaceCSR_lt _ _ hfcsr

/-- The words of the program stand in memory from `ip` on. -/
def RVSim.AtProgram (build : Build) (sim : RVSim) (insns : List Insn) : Prop :=
  ∀ (k : Nat) (hk : k < insns.length),
    sim.memory.fetch build (sim.ip + BitVec.ofNat 32 (4 * k)) = .ok insns[k].word

section Program

variable {build : Build} {sim sim' : RVSim} {insn : Insn} {rest : List Insn}

theorem RVSim.AtProgram.head (h : sim.AtProgram build (insn :: rest)) :
    sim.memory.fetch build sim.ip = .ok insn.word := by
  have hfirst := h 0 (by simp)
  simpa using hfirst

theorem RVSim.AtProgram.tail (h : sim.AtProgram build (insn :: rest))
    (hmemory : sim'.memory = sim.memory) (hip : sim'.ip = sim.ip + kStepSize) :
    sim'.AtProgram build rest := by
  intro k hk
  have hnext := h (k + 1) (by simpa using hk)
  have haddr : sim.ip + kStepSize + BitVec.ofNat 32 (4 * k) =
      sim.ip + BitVec.ofNat 32 (4 * (k + 1)) := by
    have hstep : kStepSize = BitVec.ofNat 32 4 := rfl
    rw [hstep, BitVec.add_assoc, ← BitVec.ofNat_add]
    congr 2
    omega
  rw [hmemory, hip, haddr, hnext]
  rfl

end Program

/-- A program of CSR instructions, instruction by instruction. -/
theorem execute_csrProgram (env : Env H) (insns : List Insn) (m : Machine H)
    (hfcsr : m.sim.fcsr.toNat < 256) (hstop : m.sim.shouldStop = false)
    (hprogram : m.sim.AtProgram env.build insns) :
    ∃ sim', (execute env insns.length).run m = .ok none { m with sim := sim' } ∧
      sim'.toFpCsr = insns.foldl (fun s insn => insn.exec s) m.sim.toFpCsr ∧
      m.sim.CsrFrame sim' ∧ sim'.fcsr.toNat < 256 := by
  induction insns generalizing m with
  | nil =>
      refine ⟨m.sim, ?_, rfl, RVSim.CsrFrame.refl _, hfcsr⟩
      simp only [List.length_nil, execute, EStateM.run_bind, run_getSim, hstop]
      rfl
  | cons insn rest ih =>
      obtain ⟨mid, hrun, hexec, hframe, hip, hmid⟩ := executeInsn_csr env hprogram.head hfcsr
      obtain ⟨sim', hrest, hfold, hframe', hfcsr'⟩ := ih { m with sim := mid } hmid
        (hframe.shouldStop.trans hstop) (hprogram.tail hframe.memory hip)
      refine ⟨sim', ?_, ?_, hframe.trans hframe', hfcsr'⟩
      · simp only [List.length_cons, execute, EStateM.run_bind, run_getSim, hstop,
          Bool.false_eq_true, if_false, hrun, hrest]
      · rw [hfold, List.foldl_cons, ← hexec]

/-- A program of CSR instructions completes, and what it leaves is what the
specified machine with its two fields leaves, which is what the word then is.
There a write of one field never changes the other, and to set or clear no bits
changes neither. -/
theorem csr_program_refines (env : Env H) (m : Machine H) (insns : List Insn)
    (hfcsr : m.sim.fcsr.toNat < 256) (hstop : m.sim.shouldStop = false)
    (hprogram : m.sim.AtProgram env.build insns) :
    (∃ sim', (execute env insns.length).run m = .ok none { m with sim := sim' } ∧
      sim'.toFpCsr = insns.foldl (fun s insn => insn.exec s) m.sim.toFpCsr ∧
      sim'.fcsr.toNat =
        sim'.toFpCsr.status.frm.toNat * 32 + sim'.toFpCsr.status.fflags.toNat ∧
      m.sim.CsrFrame sim') ∧
    ∀ (insn : Insn) (s : State),
      (insn.view = .fflags → (insn.exec s).status.frm = s.status.frm) ∧
      (insn.view = .frm → (insn.exec s).status.fflags = s.status.fflags) ∧
      (insn.op ≠ .replace → s.operand insn.source = 0 →
        (insn.exec s).status = s.status) := by
  obtain ⟨sim', hrun, hfold, hframe, hlt⟩ := execute_csrProgram env insns m hfcsr hstop hprogram
  refine ⟨⟨sim', hrun, hfold, fcsr_eq_fields hlt, hframe⟩, ?_⟩
  intro insn s
  exact ⟨insn.exec_fflags_keeps_frm s, insn.exec_frm_keeps_fflags s, insn.exec_zero_mask s⟩

/-- `csrrw x1, frm, x2`, `csrrsi x3, fflags, 17` and `csrrc x4, fcsr, x4`. -/
def csrProgram : List Insn :=
  [⟨.replace, .reg 2, .frm, 1⟩, ⟨.set, .imm 17, .fflags, 3⟩, ⟨.clear, .reg 4, .fcsr, 4⟩]

/-- The program at the start of its segment. -/
def csrMachine : Machine (List MemByte) where
  sim :=
    { memory := ⟨[⟨0x1000, 0x100c,
        csrProgram.flatMap fun insn => LittleEndian.toBytes 4 insn.word, true, false, true⟩]⟩
      ip := 0x1000
      shouldStop := false
      xregs := Vector.ofFn fun i => if i.val = 2 then 0xff else if i.val = 4 then 0x21 else 0
      fregs := Vector.replicate 32 0
      fcsr := 0x42 }
  softfloat := ⟨0, 0⟩
  host := []

theorem csrMachine_atProgram : csrMachine.sim.AtProgram queueEnv.build csrProgram := by
  have hall : ∀ k : Fin csrProgram.length,
      csrMachine.sim.memory.fetch queueEnv.build
        (csrMachine.sim.ip + BitVec.ofNat 32 (4 * k.val)) = .ok (csrProgram.get k).word := by
    decide
  intro k hk
  exact hall ⟨k, hk⟩

theorem csr_program_refines_three :
    (∃ sim', (execute queueEnv csrProgram.length).run csrMachine =
        .ok none { csrMachine with sim := sim' } ∧
      sim'.toFpCsr = csrProgram.foldl (fun s insn => insn.exec s) csrMachine.sim.toFpCsr ∧
      sim'.fcsr.toNat =
        sim'.toFpCsr.status.frm.toNat * 32 + sim'.toFpCsr.status.fflags.toNat ∧
      csrMachine.sim.CsrFrame sim') ∧
    ∀ (insn : Insn) (s : State),
      (insn.view = .fflags → (insn.exec s).status.frm = s.status.frm) ∧
      (insn.view = .frm → (insn.exec s).status.fflags = s.status.fflags) ∧
      (insn.op ≠ .replace → s.operand insn.source = 0 →
        (insn.exec s).status = s.status) :=
  csr_program_refines queueEnv csrMachine csrProgram (by decide) rfl csrMachine_atProgram

end RiscvSim
