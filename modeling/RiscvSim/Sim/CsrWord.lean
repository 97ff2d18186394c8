import RiscvSim.Isa.InsnFields
import RiscvSim.Sim.Execute

/-!
The status word behind the three CSR numbers, bit by bit: bits 0 to 4 are the
exception flags, bits 5 to 7 the rounding mode. The six CSR callbacks are one
program, which differs in its operand and in how it combines the operand with
the old value.
-/

namespace RiscvSim

open SimM

variable {H : Type}

/-- The word behind a write of a CSR. -/
def replaceCSR (fcsr value : Register) : CSR → Register
  | .fflags => (fcsr &&& ~~~0x1f) ||| (value &&& 0x1f)
  | .frm => (fcsr &&& ~~~((0x7 : Register) <<< 5)) ||| ((value &&& 0x7) <<< 5)
  | .fcsr => value &&& 0xff

theorem RVSim.setCSR_eq (sim : RVSim) (build : Build) {index : Register} {csr : CSR}
    (hindex : CSR.toEnum? index = some csr) (value : Register) :
    sim.setCSR build index value = .ok { sim with fcsr := replaceCSR sim.fcsr value csr } := by
  unfold RVSim.setCSR
  rw [hindex]
  cases csr <;> rfl

/-- The value that a read of one of the three numbers returns. -/
theorem RVSim.getCSR_of_toEnum? (sim : RVSim) (build : Build) {index : Register} {csr : CSR}
    (hindex : CSR.toEnum? index = some csr) : ∃ old, sim.getCSR build index = .ok old := by
  unfold RVSim.getCSR
  rw [hindex]
  cases csr <;> exact ⟨_, rfl⟩

section Bits

variable (fcsr value : Register) {i : Nat}

theorem getLsbD_low_mask {len : Nat} {mask : BitVec 32}
    (hmask : mask = (BitVec.allOnes len).setWidth 32) (hi : i < 32) :
    mask.getLsbD i = decide (i < len) := by
  rw [hmask, BitVec.getLsbD_setWidth, BitVec.getLsbD_allOnes, decide_eq_true hi, Bool.true_and]

theorem getLsbD_replace_fflags (hi : i < 32) :
    (replaceCSR fcsr value .fflags).getLsbD i =
      if i < 5 then value.getLsbD i else fcsr.getLsbD i := by
  have hmask : (0x1f : Register).getLsbD i = decide (i < 5) := getLsbD_low_mask rfl hi
  rw [replaceCSR, BitVec.getLsbD_or, BitVec.getLsbD_and, BitVec.getLsbD_not, BitVec.getLsbD_and,
    hmask, decide_eq_true hi]
  by_cases hlow : i < 5
  · simp [hlow]
  · simp [hlow]

theorem getLsbD_replace_frm (hi : i < 32) :
    (replaceCSR fcsr value .frm).getLsbD i =
      if 5 ≤ i ∧ i < 8 then value.getLsbD (i - 5) else fcsr.getLsbD i := by
  have hmask : (0x7 : Register).getLsbD (i - 5) = decide (i - 5 < 3) :=
    getLsbD_low_mask rfl (by omega)
  rw [replaceCSR, BitVec.getLsbD_or, BitVec.getLsbD_and, BitVec.getLsbD_not,
    BitVec.getLsbD_shiftLeft, BitVec.getLsbD_shiftLeft, BitVec.getLsbD_and, hmask,
    decide_eq_true hi]
  by_cases hlow : i < 5
  · have hnot : ¬ (5 ≤ i ∧ i < 8) := by omega
    rw [if_neg hnot]
    simp [hlow]
  · by_cases hmid : i < 8
    · have hfield : i - 5 < 3 := by omega
      rw [if_pos ⟨by omega, hmid⟩]
      simp [hlow, hfield]
    · have hfield : ¬ i - 5 < 3 := by omega
      have hnot : ¬ (5 ≤ i ∧ i < 8) := by omega
      rw [if_neg hnot]
      simp [hfield]

theorem getLsbD_replace_fcsr (hi : i < 32) :
    (replaceCSR fcsr value .fcsr).getLsbD i = if i < 8 then value.getLsbD i else false := by
  have hmask : (0xff : Register).getLsbD i = decide (i < 8) := getLsbD_low_mask rfl hi
  rw [replaceCSR, BitVec.getLsbD_and, hmask]
  by_cases hlow : i < 8
  · simp [hlow]
  · simp [hlow]

end Bits

/-- A word below 256 has no bit from the eighth on. -/
theorem fcsr_lt_iff (fcsr : Register) :
    fcsr.toNat < 256 ↔ ∀ i, 8 ≤ i → fcsr.getLsbD i = false := by
  constructor
  · intro h i hi
    rw [← BitVec.testBit_toNat]
    have hpow : 2 ^ 8 ≤ 2 ^ i := Nat.pow_le_pow_right (by omega) hi
    exact Nat.testBit_lt_two_pow (by omega)
  · intro h
    have hbits : ∀ i, i ≥ 8 → fcsr.toNat.testBit i = false := by
      intro i hi
      rw [BitVec.testBit_toNat, h i hi]
    exact Nat.lt_pow_two_of_testBit _ hbits

theorem replaceCSR_lt {fcsr : Register} (value : Register) (csr : CSR) (h : fcsr.toNat < 256) :
    (replaceCSR fcsr value csr).toNat < 256 := by
  rw [fcsr_lt_iff] at h ⊢
  intro i hi
  by_cases hlt : i < 32
  · have hlow : ¬ i < 5 := by omega
    have hmid : ¬ (5 ≤ i ∧ i < 8) := by omega
    have hbyte : ¬ i < 8 := by omega
    cases csr with
    | fflags => rw [getLsbD_replace_fflags _ _ hlt, if_neg hlow, h i hi]
    | frm => rw [getLsbD_replace_frm _ _ hlt, if_neg hmid, h i hi]
    | fcsr => rw [getLsbD_replace_fcsr _ _ hlt, if_neg hbyte]
  · exact BitVec.getLsbD_of_ge _ _ (by omega)

/-- The object behind a CSR instruction that returned `old` and left `fcsr`. -/
def RVSim.afterCsr (sim : RVSim) (fcsr : Register) (rd : RegIndex) (old : Register) : RVSim :=
  ({ sim with fcsr }.setXReg rd old).step

theorem RVSim.afterCsr_fcsr (sim : RVSim) (fcsr : Register) (rd : RegIndex) (old : Register) :
    (sim.afterCsr fcsr rd old).fcsr = fcsr :=
  setXReg_fcsr { sim with fcsr } rd old

/-- What the six callbacks have in common. -/
def csrInsn (build : Build) (insn : RvInsn) (operand : RVSim → Register)
    (f : Register → Register → Register) : SimM H Unit := do
  let tmp ← getCSR build insn.immCSR
  let sim ← getSim
  setCSR build insn.immCSR (f tmp (operand sim))
  setXReg insn.rdIndex tmp
  step

def zicsrMnemonics : List InsnMnemonic := [.CSRRW, .CSRRS, .CSRRC, .CSRRWI, .CSRRSI, .CSRRCI]

theorem getInsnCallback_zicsr (env : Env H) {mnem : InsnMnemonic} (h : mnem ∈ zicsrMnemonics)
    (word : UndecodedInsn) :
    ∃ operand f, getInsnCallback env mnem word = csrInsn env.build ⟨word⟩ operand f := by
  let rs1 : RVSim → Register := (·.getXReg (RvInsn.mk word).rs1Index)
  let uimm : RVSim → Register := fun _ => (RvInsn.mk word).rs1
  simp only [zicsrMnemonics, List.mem_cons, List.not_mem_nil, or_false] at h
  rcases h with rfl | rfl | rfl | rfl | rfl | rfl
  · exact ⟨rs1, fun _ src => src, rfl⟩
  · exact ⟨rs1, fun tmp src => tmp ||| src, rfl⟩
  · exact ⟨rs1, fun tmp src => tmp &&& ~~~src, rfl⟩
  · exact ⟨uimm, fun _ src => src, rfl⟩
  · exact ⟨uimm, fun tmp src => tmp ||| src, rfl⟩
  · exact ⟨uimm, fun tmp src => tmp &&& ~~~src, rfl⟩

section Run

variable {build : Build} {insn : RvInsn} {m : Machine H} (operand : RVSim → Register)
  (f : Register → Register → Register)

/-- On one of the three numbers, the program replaces the view by `f` of its old
value and of the operand before any write. -/
theorem csrInsn_run {csr : CSR} {old : Register} (hcsr : CSR.toEnum? insn.immCSR = some csr)
    (hold : m.sim.getCSR build insn.immCSR = .ok old) :
    (csrInsn build insn operand f).run m =
      .ok () (m.mapSim
        (·.afterCsr (replaceCSR m.sim.fcsr (f old (operand m.sim)) csr) insn.rdIndex old)) := by
  simp only [csrInsn, getCSR, setCSR, EStateM.run_bind, run_getSim, hold, run_lift_ok,
    m.sim.setCSR_eq build hcsr, run_modifySim, run_setXReg, run_step]
  rfl

/-- Any other number is an assertion failure, or reads as zero. -/
theorem csrInsn_run_unknown (hcsr : CSR.toEnum? insn.immCSR = none) :
    (csrInsn build insn operand f).run m =
      match build with
      | .debug => .error (.assertion "unknown csr") m
      | .release => .ok () (m.mapSim fun sim => (sim.setXReg insn.rdIndex 0).step) := by
  simp only [csrInsn, getCSR, setCSR, EStateM.run_bind, run_getSim, RVSim.getCSR, RVSim.setCSR,
    hcsr]
  cases build <;> rfl

end Run

end RiscvSim
