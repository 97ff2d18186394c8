import RiscvSim.Isa.ExtI
import RiscvSim.Isa.InsnFields

/-!
What the integer helpers compute, in terms of the operations on bit vectors:
testing, cutting, sign extension and the arithmetic shift that the source
builds from logical ones.
-/

namespace RiscvSim

theorem isBitSet_eq {w : Nat} (build : Build) (val : BitVec w) {index : Nat} (h : index < w) :
    isBitSet build val index = .ok (val.getLsbD index) := by
  have honeHot : (1 : BitVec w) <<< index = BitVec.twoPow w index := (BitVec.twoPow_eq w index).symm
  have hne : BitVec.twoPow w index ≠ 0#w := by
    intro hzero
    have hbit := congrArg (·.getLsbD index) hzero
    simp [h] at hbit
  unfold isBitSet
  rw [decide_eq_true h, Build.assert_true, shiftLeft_ok _ h, honeHot]
  change Except.ok (val &&& BitVec.twoPow w index == BitVec.twoPow w index) = _
  rw [BitVec.and_twoPow]
  cases val.getLsbD index with
  | true => simp
  | false => simpa using hne.symm

theorem truncHigh_eq {fromBits : Nat} (toBits : Nat) (x : BitVec fromBits) :
    truncHigh toBits x = x.setWidth toBits := by
  apply BitVec.eq_of_getLsbD_eq
  intro i hi
  rw [truncHigh, BitVec.getLsbD_setWidth, BitVec.getLsbD_and, BitVec.getLsbD_setWidth,
    BitVec.getLsbD_setWidth, BitVec.getLsbD_allOnes]
  by_cases hfrom : i < fromBits
  · simp [hi, hfrom]
  · simp [BitVec.getLsbD_of_ge x i (by omega)]

/-- The masks of the source add copies of the sign bit. -/
theorem signExt_eq {bits toBits : Nat} (hpos : 0 < bits) (hbits : bits < toBits)
    (x : BitVec bits) : signExt toBits x = x.signExtend toBits := by
  have hbit : (x.setWidth toBits).getLsbD (bits - 1) = x.msb := by
    have hlast : bits - 1 < toBits := by omega
    rw [BitVec.getLsbD_setWidth, BitVec.msb_eq_getLsbD_last]
    simp [hlast]
  have hsign : (1 : BitVec toBits) <<< (bits - 1) = BitVec.twoPow toBits (bits - 1) :=
    (BitVec.twoPow_eq toBits (bits - 1)).symm
  have hand := BitVec.and_twoPow (x.setWidth toBits) (bits - 1)
  rw [hbit] at hand
  unfold signExt
  dsimp only
  rw [one_shiftLeft_sub_one hbits, setWidth_and_mask, hsign, hand]
  cases hmsb : x.msb with
  | false =>
      rw [BitVec.signExtend_eq_setWidth_of_msb_false hmsb]
      simp
  | true =>
      have hne : BitVec.twoPow toBits (bits - 1) ≠ 0 := by
        intro hzero
        have hlow := congrArg (·.getLsbD (bits - 1)) hzero
        simp at hlow
        omega
      rw [if_pos rfl, if_pos hne]
      apply BitVec.eq_of_getLsbD_eq
      intro i hi
      rw [BitVec.getLsbD_or, BitVec.getLsbD_not, BitVec.getLsbD_setWidth,
        BitVec.getLsbD_setWidth, BitVec.getLsbD_allOnes, BitVec.getLsbD_signExtend, hmsb]
      by_cases hlen : i < bits
      · simp [hi, hlen]
      · simp [hi, hlen]

/-- The amount that the masked register stands for. -/
theorem masked_amount (y : Register) :
    (y &&& BitVec.ofNat 32 (kXlen - 1)).toNat = y.toNat % 32 := by
  rw [BitVec.toNat_and]
  exact Nat.and_two_pow_sub_one_eq_mod y.toNat 5

/-- A shift by the whole width or more leaves copies of the sign bit. -/
theorem sshiftRight_of_ge (x : BitVec 32) {shift : Nat} (h : 32 ≤ shift) :
    x.sshiftRight shift = if x.msb then BitVec.allOnes 32 else 0 := by
  apply BitVec.eq_of_getLsbD_eq
  intro i hi
  have hout : ¬ shift + i < 32 := by omega
  have hnot : ¬ 32 ≤ i := by omega
  rw [BitVec.getLsbD_sshiftRight]
  cases x.msb with
  | false => simp [hout]
  | true =>
      rw [if_pos rfl, BitVec.getLsbD_allOnes]
      simp [hi, hout, hnot]

/-- A shift of a negative word is the logical one with the high bits filled. -/
theorem sshiftRight_of_msb {x : BitVec 32} (hmsb : x.msb = true) {shift : Nat}
    (hshift : shift < 32) :
    x.sshiftRight shift = x >>> shift ||| BitVec.allOnes 32 <<< (32 - shift) := by
  apply BitVec.eq_of_getLsbD_eq
  intro i hi
  have hnot : ¬ 32 ≤ i := by omega
  rw [BitVec.getLsbD_sshiftRight, BitVec.getLsbD_or, BitVec.getLsbD_ushiftRight,
    BitVec.getLsbD_shiftLeft, BitVec.getLsbD_allOnes, hmsb]
  by_cases hin : shift + i < 32
  · have hlow : i < 32 - shift := by omega
    simp [hin, hlow, hnot]
  · have hhigh : ¬ i < 32 - shift := by omega
    have hback : i - (32 - shift) < 32 := by omega
    simp [hi, hin, hhigh, hback, hnot]

/-- The arithmetic shift, for every amount. -/
theorem arithmRightShift_eq (build : Build) (x : BitVec 32) (shift : Nat) :
    arithmRightShift build x shift = .ok (x.sshiftRight shift) := by
  have hsign : isBitSet build x (32 - 1) = .ok x.msb := by
    rw [isBitSet_eq build x (by decide), BitVec.msb_eq_getLsbD_last]
  unfold arithmRightShift
  by_cases hzero : shift = 0
  · subst hzero
    rw [BitVec.sshiftRight_zero]
    rfl
  · by_cases hlarge : shift ≥ 32
    · rw [sshiftRight_of_ge x hlarge]
      simp only [hzero, hlarge, if_false, if_true, hsign]
      rfl
    · simp only [hzero, hlarge, if_false, hsign, shiftRight_ok x (by omega : shift < 32),
        shiftLeft_ok (BitVec.allOnes 32) (by omega : 32 - shift < 32)]
      cases hmsb : x.msb with
      | false => exact congrArg Except.ok (BitVec.sshiftRight_eq_of_msb_false hmsb).symm
      | true => exact congrArg Except.ok (sshiftRight_of_msb hmsb (by omega)).symm

end RiscvSim
