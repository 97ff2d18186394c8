import RiscvSim.Isa.BitLoops
import RiscvSim.Lib.ByteMaps

/-!
What `SetByte` does to every byte of its value. The clearing mask is computed in
`int` and keeps the bytes below the index only: the bytes above it are lost, and
in a type wider than `int` they become copies of the sign of the byte mask.
-/

namespace RiscvSim

open LittleEndian

theorem getByte_eq_byte {w : Nat} (build : Build) (val : BitVec w) {index : Nat}
    (h : index < w / 8) : getByte build val index = .ok (byte val index) := by
  rw [getByte_eq build val h, byte_eq_shiftRight]

/-- From byte 4 on the shifts in `int` are out of range. -/
theorem setByte_fault {w : Nat} (build : Build) (val : BitVec w) (byteVal : BitVec 8)
    {index : Nat} (h : index < w / 8) (hint : 4 ≤ index) :
    setByte build val byteVal index = .error .shiftAmount := by
  unfold setByte
  rw [decide_eq_true h, Build.assert_true, ok_bind]
  dsimp only
  rw [shiftLeft, if_neg (by omega)]
  rfl

section Bits

variable {w : Nat} (val : BitVec w) (byteVal : BitVec 8) {index : Nat}

/-- The mask that should have a hole at the byte ends below it. -/
theorem clearByteMask_getLsbD (hint : index < 4) {k : Nat} (hk : k < w) :
    ((~~~(~~~(0 : BitVec 32) <<< (index * 8))).signExtend w).getLsbD k =
      decide (k < 8 * index) := by
  have hbit (i : Nat) (hi : i < 32) :
      (~~~(~~~(0 : BitVec 32) <<< (index * 8))).getLsbD i = decide (i < 8 * index) := by
    have hones : (~~~(0 : BitVec 32)) = BitVec.allOnes 32 := rfl
    rw [hones, BitVec.getLsbD_not, BitVec.getLsbD_shiftLeft, BitVec.getLsbD_allOnes,
      decide_eq_true hi, decide_eq_true (by omega : i - index * 8 < 32), Nat.mul_comm,
      Bool.true_and, Bool.true_and, Bool.and_true, Bool.not_not]
  rw [BitVec.getLsbD_signExtend, decide_eq_true hk, Bool.true_and]
  by_cases hlow : k < 32
  · rw [if_pos hlow, hbit k hlow]
  · rw [if_neg hlow, BitVec.msb_eq_getLsbD_last, hbit 31 (by omega),
      decide_eq_false (by omega), decide_eq_false (by omega)]

/-- The byte in its place, and copies of its sign above bit 31. -/
theorem byteMask_getLsbD (hint : index < 4) {k : Nat} (hk : k < w) :
    ((byteVal.setWidth 32 <<< (index * 8)).signExtend w).getLsbD k =
      (decide (8 * index ≤ k) && byteVal.getLsbD (min k 31 - 8 * index)) := by
  have hbit (i : Nat) (hi : i < 32) :
      (byteVal.setWidth 32 <<< (index * 8)).getLsbD i =
        (decide (8 * index ≤ i) && byteVal.getLsbD (i - 8 * index)) := by
    rw [BitVec.getLsbD_shiftLeft, BitVec.getLsbD_setWidth, decide_eq_true hi,
      decide_eq_true (by omega : i - index * 8 < 32), Nat.mul_comm, Bool.true_and, Bool.true_and]
    by_cases hle : i < 8 * index
    · rw [decide_eq_true hle, decide_eq_false (by omega)]
      rfl
    · rw [decide_eq_false hle, decide_eq_true (by omega)]
      rfl
  rw [BitVec.getLsbD_signExtend, decide_eq_true hk, Bool.true_and]
  by_cases hlow : k < 32
  · rw [if_pos hlow, hbit k hlow, Nat.min_eq_left (by omega)]
  · rw [if_neg hlow, BitVec.msb_eq_getLsbD_last, hbit 31 (by omega), Nat.min_eq_right (by omega),
      decide_eq_true (by omega), decide_eq_true (by omega)]

/-- The byte that a write leaves behind in every place above its own. -/
def spillByte (index : Nat) (byteVal : BitVec 8) : BitVec 8 :=
  if index = 3 ∧ byteVal.msb then 0xff else 0

theorem spillByte_low (hlow : index < 3) : spillByte index byteVal = 0 := if_neg (by omega)

/-- Every byte behind the write. -/
theorem byte_withByte (hint : index < 4) {k : Nat} (hk : k < w / 8) :
    byte (withByte val byteVal index) k =
      if k < index then byte val k
      else if k = index then byteVal else spillByte index byteVal := by
  apply BitVec.eq_of_getLsbD_eq
  intro i hi
  have hbit : 8 * k + i < w := by omega
  rw [getLsbD_byte, decide_eq_true hi, Bool.true_and, withByte, BitVec.getLsbD_or,
    BitVec.getLsbD_and, clearByteMask_getLsbD hint hbit, byteMask_getLsbD byteVal hint hbit]
  rcases Nat.lt_trichotomy k index with hlt | rfl | hgt
  · rw [if_pos hlt, getLsbD_byte, decide_eq_true hi, decide_eq_true (by omega),
      decide_eq_false (by omega), Bool.and_true, Bool.true_and, Bool.false_and, Bool.or_false]
  · rw [if_neg (by omega), if_pos rfl, decide_eq_false (by omega), decide_eq_true (by omega),
      Bool.and_false, Bool.true_and, Bool.false_or, Nat.min_eq_left (by omega)]
    congr 1
    omega
  · rw [if_neg (by omega), if_neg (by omega), decide_eq_false (by omega),
      decide_eq_true (by omega), Bool.and_false, Bool.true_and, Bool.false_or, spillByte]
    by_cases hlast : index = 3
    · obtain rfl := hlast
      have hones : (0xff : BitVec 8) = BitVec.allOnes 8 := rfl
      rw [Nat.min_eq_right (by omega), ← BitVec.msb_eq_getLsbD_last]
      cases hsign : byteVal.msb with
      | true => rw [if_pos ⟨rfl, rfl⟩, hones, BitVec.getLsbD_allOnes, decide_eq_true hi]
      | false =>
          rw [if_neg (by simp)]
          exact BitVec.getLsbD_zero.symm
    · rw [if_neg (by tauto), BitVec.getLsbD_of_ge _ _ (by omega)]
      exact BitVec.getLsbD_zero.symm

end Bits

/-- The laws of a pair of byte accessors, at one value and two places. -/
structure ByteLaws {w : Nat} (build : Build) (val : BitVec w) (b c : BitVec 8) (i j : Nat) :
    Prop where
  shifts : (∃ byteVal, getByte build val i = .ok byteVal) ∧
    (∃ val', setByte build val b i = .ok val') ∧ ∃ val', setByte build val c j = .ok val'
  get_set_same : (do getByte build (← setByte build val b i) i) = .ok b
  get_set_other : (do getByte build (← setByte build val b i) j) = getByte build val j
  set_get : (do setByte build val (← getByte build val i) i) = .ok val
  set_comm : (do setByte build (← setByte build val b i) c j) =
    (do setByte build (← setByte build val c j) b i)

section Laws

variable {w : Nat} (build : Build) (val : BitVec w) (b c : BitVec 8) {i j : Nat}

/-- The two shifts of a write are in range exactly for the first four bytes. -/
theorem setByte_eq_ok_iff (hi : i < w / 8) {val' : BitVec w} :
    setByte build val b i = .ok val' ↔ i < 4 ∧ withByte val b i = val' := by
  by_cases hint : i < 4
  · rw [setByte_eq build val b hi hint, Except.ok.injEq]
    exact (and_iff_right hint).symm
  · rw [setByte_fault build val b hi (by omega)]
    constructor
    · intro hset
      cases hset
    · rintro ⟨hlt, _⟩
      exact absurd hlt hint

/-- Whatever reads the written value is reached for these bytes only. -/
theorem setByte_bind_eq_ok_iff (hi : i < w / 8) {α : Type} {f : BitVec w → Except Fault α}
    {a : α} : (setByte build val b i >>= f) = .ok a ↔ i < 4 ∧ f (withByte val b i) = .ok a := by
  rw [bind_eq_ok]
  constructor
  · rintro ⟨val', hset, hf⟩
    obtain ⟨hint, rfl⟩ := (setByte_eq_ok_iff build val b hi).mp hset
    exact ⟨hint, hf⟩
  · rintro ⟨hint, hf⟩
    exact ⟨_, setByte_eq build val b hi hint, hf⟩

/-- A byte that is written is read back. -/
theorem get_set_same_iff (hi : i < w / 8) :
    (do getByte build (← setByte build val b i) i) = .ok b ↔ i < 4 := by
  rw [setByte_bind_eq_ok_iff build val b hi]
  constructor
  · exact And.left
  · intro hint
    rw [getByte_eq_byte build _ hi, byte_withByte val b hint hi, if_neg (Nat.lt_irrefl i),
      if_pos rfl]
    exact ⟨hint, rfl⟩

/-- Another byte is kept exactly when it lies below the one that is written or
happens to be what the write leaves above it. -/
theorem get_set_other_iff (hi : i < w / 8) (hj : j < w / 8) (hne : i ≠ j) :
    (do getByte build (← setByte build val b i) j) = getByte build val j ↔
      i < 4 ∧ (j < i ∨ byte val j = spillByte i b) := by
  rw [getByte_eq_byte build val hj, setByte_bind_eq_ok_iff build val b hi,
    getByte_eq_byte build _ hj, Except.ok.injEq]
  apply and_congr_right
  intro hint
  rw [byte_withByte val b hint hj]
  rcases Nat.lt_or_gt_of_ne hne with hlt | hgt
  · rw [if_neg (by omega), if_neg (by omega), eq_comm]
    exact (or_iff_right (by omega)).symm
  · rw [if_pos hgt]
    exact iff_of_true rfl (.inl hgt)

/-- Writing a byte back keeps the value exactly when nothing is left above it
that the write does not leave there. -/
theorem set_get_iff (hw : w = 32 ∨ w = 64) (hi : i < w / 8) :
    (do setByte build val (← getByte build val i) i) = .ok val ↔
      i < 4 ∧ ∀ k, i < k → k < w / 8 → byte val k = spillByte i (byte val i) := by
  have hbytes : w = 8 * (w / 8) := by omega
  rw [getByte_eq_byte build val hi, ok_bind, setByte_eq_ok_iff build val _ hi]
  apply and_congr_right
  intro hint
  constructor
  · intro hsame k hik hk
    have hbyte := byte_withByte val (byte val i) hint hk
    rwa [hsame, if_neg (by omega), if_neg (by omega)] at hbyte
  · intro habove
    apply eq_of_byte_eq hbytes
    intro k hk
    rw [byte_withByte val (byte val i) hint hk]
    rcases Nat.lt_trichotomy k i with hlt | rfl | hgt
    · rw [if_pos hlt]
    · rw [if_neg (Nat.lt_irrefl k), if_pos rfl]
    · rw [if_neg (by omega), if_neg (by omega), habove k hgt hk]

/-- Two writes commute exactly when the higher one writes a zero. -/
theorem withByte_comm_iff (hw : w = 32 ∨ w = 64) (hj : j < 4) (hlt : i < j) :
    withByte (withByte val b i) c j = withByte (withByte val c j) b i ↔ c = 0 := by
  have hbytes : w = 8 * (w / 8) := by omega
  have hjw : j < w / 8 := by omega
  have hi : i < 4 := by omega
  have hnone : spillByte i b = 0 := spillByte_low b (by omega)
  constructor
  · intro hcomm
    have hbyte := congrArg (byte · j) hcomm
    rwa [byte_withByte _ c hj hjw, if_neg (Nat.lt_irrefl j), if_pos rfl,
      byte_withByte _ b hi hjw, if_neg (by omega), if_neg (by omega), hnone] at hbyte
  · rintro rfl
    apply eq_of_byte_eq hbytes
    intro k hk
    rw [byte_withByte _ 0 hj hk, byte_withByte _ b hi hk, byte_withByte _ b hi hk,
      byte_withByte _ 0 hj hk, hnone]
    have hzero : spillByte j 0 = 0 := if_neg (by simp)
    rw [hzero]
    rcases Nat.lt_trichotomy k i with hki | rfl | hki
    · rw [if_pos (by omega), if_pos hki, if_pos hki, if_pos (by omega)]
    · rw [if_pos hlt, if_neg (Nat.lt_irrefl k), if_pos rfl, if_neg (Nat.lt_irrefl k)]
    · have hnot : ¬ k < i := by omega
      have hne : k ≠ i := by omega
      simp only [if_neg hnot, if_neg hne, ite_self]

theorem set_comm_iff (hw : w = 32 ∨ w = 64) (hi : i < 4) (hj : j < 4) (hne : i ≠ j) :
    (do setByte build (← setByte build val b i) c j) =
        (do setByte build (← setByte build val c j) b i) ↔
      (i < j → c = 0) ∧ (j < i → b = 0) := by
  rw [setByte_eq build val b (by omega) hi, setByte_eq build val c (by omega) hj, ok_bind,
    ok_bind, setByte_eq build _ c (by omega) hj, setByte_eq build _ b (by omega) hi,
    Except.ok.injEq]
  rcases Nat.lt_or_gt_of_ne hne with hlt | hgt
  · rw [withByte_comm_iff val b c hw hj hlt]
    exact ⟨fun hc => ⟨fun _ => hc, fun hgt => by omega⟩, fun h => h.1 hlt⟩
  · rw [eq_comm, withByte_comm_iff val c b hw hi hgt]
    exact ⟨fun hb => ⟨fun hlt => by omega, fun _ => hb⟩, fun h => h.2 hgt⟩

/-- The laws hold at a value and two places exactly when both places are among
the first four, the bytes above the written one are those the write leaves
there, and the higher of two writes writes a zero. -/
theorem byteLaws_iff (hw : w = 32 ∨ w = 64) (hi : i < w / 8) (hj : j < w / 8) (hne : i ≠ j) :
    ByteLaws build val b c i j ↔
      i < 4 ∧ j < 4 ∧
      (∀ k, i < k → k < w / 8 → byte val k = if i = 3 ∧ (byte val i).msb then 0xff else 0) ∧
      (i < j → c = 0) ∧ (j < i → b = 0) := by
  constructor
  · intro h
    obtain ⟨_, ⟨val₁, hset₁⟩, val₂, hset₂⟩ := h.shifts
    have hilow := ((setByte_eq_ok_iff build val b hi).mp hset₁).1
    have hjlow := ((setByte_eq_ok_iff build val c hj).mp hset₂).1
    exact ⟨hilow, hjlow, ((set_get_iff build val hw hi).mp h.set_get).2,
      (set_comm_iff build val b c hw hilow hjlow hne).mp h.set_comm⟩
  · rintro ⟨hilow, hjlow, habove, hcomm⟩
    constructor
    · exact ⟨⟨_, getByte_eq_byte build val hi⟩, ⟨_, setByte_eq build val b hi hilow⟩,
        _, setByte_eq build val c hj hjlow⟩
    · exact (get_set_same_iff build val b hi).mpr hilow
    · refine (get_set_other_iff build val b hi hj hne).mpr ⟨hilow, ?_⟩
      rcases Nat.lt_or_gt_of_ne hne with hlt | hgt
      · right
        rw [habove j hlt hj, spillByte_low b (by omega), if_neg (by omega)]
      · exact .inl hgt
    · exact (set_get_iff build val hw hi).mpr ⟨hilow, habove⟩
    · exact (set_comm_iff build val b c hw hilow hjlow hne).mpr hcomm

end Laws

/-- A zero written over the top byte of a short value, and a byte below it. -/
theorem byteLaws_short : ByteLaws .debug (0x3344 : BitVec 32) 0 0x55 1 0 := by
  refine (byteLaws_iff .debug 0x3344 0 0x55 (.inl rfl) (by decide) (by decide) (by decide)).mpr
    ⟨by decide, by decide, ?_, by decide, by decide⟩
  intro k hlow hhigh
  have hk : k = 2 ∨ k = 3 := by omega
  rcases hk with rfl | rfl
  · rfl
  · rfl

/-- Writing the lowest byte of a value clears the three others. -/
theorem setByte_clears_above :
    setByte .release (0x11223344 : BitVec 32) 0xaa 0 = .ok 0xaa ∧
      ¬ ByteLaws .release (0x11223344 : BitVec 32) 0xaa 0 0 1 := by
  refine ⟨by decide, ?_⟩
  intro h
  have hkept := h.get_set_other
  revert hkept
  decide

end RiscvSim
