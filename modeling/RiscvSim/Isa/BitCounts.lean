import RiscvSim.Isa.BitLoops
import RiscvSim.Lib.BitCounts

/-!
What the three counting callbacks write: the leading zeros, the trailing zeros
and the ones of the operand. The search from the top starts from minus one, so
the subtraction in 64-bit arithmetic gives the width for the zero word.
-/

namespace RiscvSim

open BitCounts

variable {H : Type}

/-- A bit beyond the value is not looked up: the assertion stops a debug build
and the shift is out of range in the other. -/
theorem isBitSet_fault {w : Nat} (build : Build) (val : BitVec w) {index : Nat} (h : w ≤ index) :
    ∃ fault, isBitSet build val index = .error fault := by
  have hindex : ¬ index < w := by omega
  unfold isBitSet
  rw [decide_eq_false hindex, shiftLeft, if_neg hindex]
  cases build with
  | debug => exact ⟨_, rfl⟩
  | release => exact ⟨_, rfl⟩

theorem kXlen_eq : kXlen = 32 := rfl

/-- `(kXlen - 1) - highest_set`, with minus one for no set bit. -/
theorem highestSet_eq_clz (x : Register) :
    BitVec.ofInt 32 ((kXlen - 1 : Nat) -
      ((List.range kXlen).reverse.find? x.getLsbD).elim (-1 : Int) fun i => i) = x.clz := by
  have hsearch := clz_eq_find? x (by decide)
  have hrange : ∀ i, (List.range 32).reverse.find? x.getLsbD = some i → i < 32 := by
    intro i hi
    exact List.mem_range.mp (List.mem_reverse.mp (List.mem_of_find?_eq_some hi))
  rw [hsearch, kXlen_eq]
  cases hfound : (List.range 32).reverse.find? x.getLsbD with
  | none => rfl
  | some i =>
      have hi := hrange i hfound
      have hnat : (31 : Int) - i = (31 - i : Nat) := by omega
      change BitVec.ofInt 32 ((31 : Int) - i) = BitVec.ofNat 32 (31 - i)
      rw [hnat, BitVec.ofInt_natCast]

theorem lowestSet_eq_ctz (x : Register) :
    BitVec.ofNat 32 (((List.range kXlen).find? x.getLsbD).getD kXlen) = x.ctz := by
  rw [kXlen_eq, ← toNat_ctz_eq_find?, BitVec.ofNat_toNat, BitVec.setWidth_eq]

theorem bcount_eq_cpop (x : Register) :
    BitVec.ofNat 32 ((List.range kXlen).foldl
      (fun bcount i => if x.getLsbD i then bcount + 1 else bcount) 0) = x.cpop := by
  rw [foldl_count, Nat.zero_add, kXlen_eq, ← toNat_cpop_eq_countP, BitVec.ofNat_toNat,
    BitVec.setWidth_eq]

/-- The callbacks write the three counts, which `rd` then holds. Every bit they look
up is one of the 32, since looking up any other would have been a fault. -/
theorem bitCounts_written (env : Env H) (word : UndecodedInsn) (m : Machine H) :
    let insn := RvInsn.mk word
    let x := m.sim.getXReg insn.rs1Index
    let written := fun val : Register =>
      m.mapSim fun sim => (sim.setXReg insn.rdIndex val).step
    ((callbackCLZ env word).run m = .ok () (written x.clz) ∧
      (callbackCTZ env word).run m = .ok () (written x.ctz) ∧
      (callbackCPOP env word).run m = .ok () (written x.cpop)) ∧
    (∀ val, (written val).sim.getXReg insn.rdIndex =
      if insn.rdIndex = XRegAlias.zero then 0 else val) ∧
    (∀ y : Register,
      y.clz.toNat = 32 - y.toNat.size ∧
      (y = 0 → y.clz.toNat = 32) ∧
      (y ≠ 0 → 2 ^ (31 - y.clz.toNat) ≤ y.toNat ∧ y.toNat < 2 ^ (32 - y.clz.toNat)) ∧
      IsGreatest {k | k ≤ 32 ∧ 2 ^ k ∣ y.toNat} y.ctz.toNat ∧
      y.cpop.toNat = (List.range 32).countP (fun i => y.getLsbD i) ∧
      y.ctz = (~~~y &&& (y - 1)).cpop ∧
      y.clz = y.reverse.ctz) ∧
    ∀ index, 32 ≤ index → ∃ fault, isBitSet env.build x index = .error fault := by
  intro insn x written
  refine ⟨⟨?_, ?_, ?_⟩, m.sim.getXReg_step_setXReg insn.rdIndex, ?_,
    fun _ => isBitSet_fault env.build x⟩
  · have hrun := callbackCLZ_run env word m
    dsimp only at hrun
    rwa [highestSet_eq_clz] at hrun
  · have hrun := callbackCTZ_run env word m
    dsimp only at hrun
    rwa [lowestSet_eq_ctz] at hrun
  · have hrun := callbackCPOP_run env word m
    dsimp only at hrun
    rwa [bcount_eq_cpop] at hrun
  · intro y
    refine ⟨toNat_clz_eq y, ?_, ?_, isGreatest_ctz y, toNat_cpop_eq_countP y, ctz_eq_cpop y,
      BitVec.clz_eq_reverse_ctz⟩
    · rintro rfl
      decide
    · intro hy
      exact ⟨BitVec.two_pow_sub_clz_le_toNat_of_ne_zero (by decide) hy,
        BitVec.toNat_lt_two_pow_sub_clz⟩

end RiscvSim
