import RiscvSim.Isa.HelpersSpec
import RiscvSim.Sim.DecodeEncode
import RiscvSim.Sim.MemoryAccess
import RiscvSim.Spec.Rv32i

/-!
The specified state that a simulator object stands for, and how it follows the
updates that the callbacks make. The integer operations of the source are put in
the terms of the specification here.
-/

namespace RiscvSim

open ByteStore LittleEndian

def regIndex (r : BitVec 5) : RegIndex := ⟨r.toNat, r.isLt⟩

theorem regIndex_eq_iff {r q : BitVec 5} : regIndex r = regIndex q ↔ r = q := by
  constructor
  · intro h
    exact BitVec.eq_of_toNat_eq (congrArg Fin.val h)
  · rintro rfl
    rfl

theorem regIndex_eq_zero_iff {r : BitVec 5} : regIndex r = XRegAlias.zero ↔ r = 0 :=
  regIndex_eq_iff (q := 0)

namespace RvInsn

variable {insn : RvInsn} {r : BitVec 5}

theorem toNat_setWidth_reg (r : BitVec 5) : (r.setWidth 32).toNat = r.toNat :=
  BitVec.toNat_setWidth_of_le (by decide)

theorem rdIndex_eq (h : insn.rd = r.setWidth 32) : insn.rdIndex = regIndex r := by
  apply Fin.ext
  exact (congrArg BitVec.toNat h).trans (toNat_setWidth_reg r)

theorem rs1Index_eq (h : insn.rs1 = r.setWidth 32) : insn.rs1Index = regIndex r := by
  apply Fin.ext
  exact (congrArg BitVec.toNat h).trans (toNat_setWidth_reg r)

theorem rs2Index_eq (h : insn.rs2 = r.setWidth 32) : insn.rs2Index = regIndex r := by
  apply Fin.ext
  exact (congrArg BitVec.toNat h).trans (toNat_setWidth_reg r)

theorem rs3Index_eq (h : insn.rs3 = r.setWidth 32) : insn.rs3Index = regIndex r := by
  apply Fin.ext
  exact (congrArg BitVec.toNat h).trans (toNat_setWidth_reg r)

end RvInsn

theorem eq_ofInt_of_toInt {x : BitVec 32} {imm : Int} (h : x.toInt = imm) :
    x = BitVec.ofInt 32 imm := by
  rw [← h, BitVec.ofInt_toInt]

namespace RVSim

/-- The registers as the getter returns them, and the byte of the first segment
that contains the address. -/
def toSpec (sim : RVSim) : Rv32i.State where
  pc := sim.ip
  reg r := sim.getXReg (regIndex r)
  reg_zero := sim.getXReg_zero
  mem := sim.memory.byteAt

variable (sim : RVSim)

theorem toSpec_setXReg (rd : BitVec 5) (value : Register) :
    (sim.setXReg (regIndex rd) value).toSpec = sim.toSpec.setReg rd value := by
  apply Rv32i.State.ext
  · exact sim.setXReg_ip _ _
  · funext r
    change (sim.setXReg (regIndex rd) value).getXReg (regIndex r) =
      if r = rd ∧ rd ≠ 0 then value else sim.getXReg (regIndex r)
    rw [getXReg_setXReg]
    by_cases hzero : r = 0
    · subst hzero
      have hnot : ¬ (0 = rd ∧ rd ≠ 0) := fun h => h.2 h.1.symm
      rw [if_pos (regIndex_eq_zero_iff.mpr rfl), if_neg hnot]
      exact sim.getXReg_zero.symm
    · rw [if_neg (mt regIndex_eq_zero_iff.mp hzero)]
      simp only [regIndex_eq_iff]
      by_cases hrd : r = rd
      · subst hrd
        rw [if_pos rfl, if_pos ⟨rfl, hzero⟩]
      · rw [if_neg hrd, if_neg fun h => hrd h.1]
  · change (sim.setXReg (regIndex rd) value).memory.byteAt = sim.memory.byteAt
    rw [setXReg_memory]

theorem toSpec_step : sim.step.toSpec = sim.toSpec.next := rfl

theorem toSpec_setIp (ip : Address) : { sim with ip }.toSpec = { sim.toSpec with pc := ip } := rfl

theorem toSpec_setMem {memory : Memory} {mem : Store 32} (h : memory.byteAt = mem) :
    { sim with memory }.toSpec = { sim.toSpec with mem } := by
  subst h
  rfl

/-- What no instruction of the base integer set touches. -/
structure OthersKept (sim' : RVSim) : Prop where
  fregs : sim'.fregs = sim.fregs
  fcsr : sim'.fcsr = sim.fcsr
  shouldStop : sim'.shouldStop = sim.shouldStop
  layout : sim'.memory.layout = sim.memory.layout

variable {sim}

theorem OthersKept.refl : sim.OthersKept sim := ⟨rfl, rfl, rfl, rfl⟩

theorem OthersKept.setXReg {sim' : RVSim} (h : sim.OthersKept sim') (i : RegIndex)
    (value : Register) : sim.OthersKept (sim'.setXReg i value) := by
  refine ⟨?_, ?_, ?_, ?_⟩
  · rw [setXReg_fregs, h.fregs]
  · rw [setXReg_fcsr, h.fcsr]
  · rw [setXReg_shouldStop, h.shouldStop]
  · rw [setXReg_memory, h.layout]

theorem OthersKept.setIp {sim' : RVSim} (h : sim.OthersKept sim') (ip : Address) :
    sim.OthersKept { sim' with ip } :=
  ⟨h.fregs, h.fcsr, h.shouldStop, h.layout⟩

theorem OthersKept.setMem {memory : Memory} (h : memory.layout = sim.memory.layout) :
    sim.OthersKept { sim with memory } :=
  ⟨rfl, rfl, rfl, h⟩

end RVSim

section Operations

open Rv32i

variable (x y : Register)

theorem add_eq_eval : x + y = AluOp.ADD.eval x y := by
  rw [AluOp.eval, BitVec.ofInt_add, BitVec.ofInt_toInt, BitVec.ofInt_toInt]

theorem sub_eq_eval : x - y = AluOp.SUB.eval x y := by
  rw [AluOp.eval, Int.sub_eq_add_neg, BitVec.ofInt_add, BitVec.ofInt_neg, BitVec.ofInt_toInt,
    BitVec.ofInt_toInt, BitVec.sub_eq_add_neg]

theorem slt_eq_eval : (if x.slt y then (1 : Register) else 0) = AluOp.SLT.eval x y := by
  simp only [AluOp.eval, BitVec.slt_iff_toInt_lt]

theorem sltu_eq_eval : (if x < y then (1 : Register) else 0) = AluOp.SLTU.eval x y := by
  simp only [AluOp.eval, BitVec.lt_def]

/-- The shift of the source is a division that rounds down. -/
theorem sshiftRight_eq_div (shift : Nat) :
    x.sshiftRight shift = BitVec.ofInt 32 (x.toInt / 2 ^ shift) := by
  rw [BitVec.sshiftRight, Int.shiftRight_eq_div_pow]
  rfl

theorem sra_eq_eval (build : Build) :
    arithmRightShift build x (y &&& BitVec.ofNat 32 (kXlen - 1)).toNat =
      .ok (AluOp.SRA.eval x y) := by
  have hmask : (y &&& BitVec.ofNat 32 (kXlen - 1)).toNat = y.toNat % 32 := by
    rw [BitVec.toNat_and]
    exact Nat.and_two_pow_sub_one_eq_mod y.toNat 5
  rw [arithmRightShift_eq, hmask, sshiftRight_eq_div]
  rfl

theorem slli_eq_eval {shift : Nat} (h : shift < 32) :
    shiftLeft x shift = .ok (ShiftOp.SLLI.eval x shift) := by
  rw [shiftLeft_ok x h, ShiftOp.eval, ← Nat.shiftLeft_eq]
  rfl

theorem srli_eq_eval {shift : Nat} (h : shift < 32) :
    shiftRight x shift = .ok (ShiftOp.SRLI.eval x shift) := by
  have hvalue : x >>> shift = BitVec.ofNat 32 (x.toNat / 2 ^ shift) := by
    apply BitVec.eq_of_toNat_eq
    have hle : x.toNat / 2 ^ shift ≤ x.toNat := Nat.div_le_self _ _
    rw [BitVec.toNat_ushiftRight, Nat.shiftRight_eq_div_pow, BitVec.toNat_ofNat,
      Nat.mod_eq_of_lt (Nat.lt_of_le_of_lt hle x.isLt)]
  rw [shiftRight_ok x h, hvalue]
  rfl

theorem srai_eq_eval (build : Build) (shift : Nat) :
    arithmRightShift build x shift = .ok (ShiftOp.SRAI.eval x shift) := by
  rw [arithmRightShift_eq, sshiftRight_eq_div]
  rfl

theorem beq_eq_taken : (x == y) = BranchOp.BEQ.taken x y := rfl

theorem bne_eq_taken : (x != y) = BranchOp.BNE.taken x y := by
  have hnot : BranchOp.BNE.taken x y = !decide (x = y) := decide_not
  rw [hnot]
  rfl

end Operations

end RiscvSim
