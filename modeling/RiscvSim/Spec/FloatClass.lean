import Mathlib.Tactic.IntervalCases
import RiscvSim.Spec.Binary32

/-!
The ten classes of single-precision patterns in the order of the bits of
`fclass.s`. A class is a condition on the fields of the pattern; each pattern is
in one class, and the other sign of a number or infinity is in the mirrored one.
-/

namespace Binary32

def exponent (x : Pattern) : BitVec 8 := x.extractLsb' 23 8

def fraction (x : Pattern) : BitVec 23 := x.extractLsb' 0 23

/-- The top fraction bit, which a signaling NaN has clear. -/
def quiet (x : Pattern) : Bool := (fraction x).msb

/-- The same pattern with the other sign. -/
def flipSign (x : Pattern) : Pattern := x ^^^ 0x80000000

def HasClass (x : Pattern) : ℕ → Prop
  | 0 => negative x = true ∧ exponent x = 0xff ∧ fraction x = 0
  | 1 => negative x = true ∧ exponent x ≠ 0xff ∧ exponent x ≠ 0
  | 2 => negative x = true ∧ exponent x = 0 ∧ fraction x ≠ 0
  | 3 => negative x = true ∧ exponent x = 0 ∧ fraction x = 0
  | 4 => negative x = false ∧ exponent x = 0 ∧ fraction x = 0
  | 5 => negative x = false ∧ exponent x = 0 ∧ fraction x ≠ 0
  | 6 => negative x = false ∧ exponent x ≠ 0xff ∧ exponent x ≠ 0
  | 7 => negative x = false ∧ exponent x = 0xff ∧ fraction x = 0
  | 8 => exponent x = 0xff ∧ fraction x ≠ 0 ∧ quiet x = false
  | 9 => exponent x = 0xff ∧ fraction x ≠ 0 ∧ quiet x = true
  | _ => False

variable {x : Pattern}

theorem HasClass.le {k : ℕ} (h : HasClass x k) : k ≤ 9 := by
  by_contra hgt
  obtain ⟨j, rfl⟩ : ∃ j, k = j + 10 := ⟨k - 10, by omega⟩
  exact h

theorem negative_flipSign (x : Pattern) : negative (flipSign x) = !negative x := by
  have htop : (0x80000000 : Pattern).msb = true := by decide
  rw [negative, flipSign, BitVec.msb_xor, htop, Bool.xor_true, negative]

theorem exponent_flipSign (x : Pattern) : exponent (flipSign x) = exponent x := by
  have hfield : (0x80000000 : Pattern).extractLsb' 23 8 = 0#8 := by decide
  rw [exponent, flipSign, BitVec.extractLsb'_xor, hfield, BitVec.xor_zero, exponent]

theorem fraction_flipSign (x : Pattern) : fraction (flipSign x) = fraction x := by
  have hfield : (0x80000000 : Pattern).extractLsb' 0 23 = 0#23 := by decide
  rw [fraction, flipSign, BitVec.extractLsb'_xor, hfield, BitVec.xor_zero, fraction]

theorem quiet_flipSign (x : Pattern) : quiet (flipSign x) = quiet x := by
  rw [quiet, fraction_flipSign, quiet]

/-- The classes of the two signs mirror each other. -/
theorem hasClass_flipSign_iff {k : ℕ} (hk : k ≤ 7) :
    HasClass (flipSign x) (7 - k) ↔ HasClass x k := by
  have hneg : negative (flipSign x) = true ↔ negative x = false := by
    rw [negative_flipSign, Bool.not_eq_true']
  have hpos : negative (flipSign x) = false ↔ negative x = true := by
    rw [negative_flipSign, Bool.not_eq_false']
  interval_cases k <;>
    simp only [Nat.reduceSub, HasClass, hneg, hpos, exponent_flipSign, fraction_flipSign]

/-- The sign of a NaN does not matter. -/
theorem hasClass_nan_flipSign_iff {k : ℕ} (hk : 8 ≤ k) :
    HasClass (flipSign x) k ↔ HasClass x k := by
  by_cases hlast : k ≤ 9
  · have htwo : k = 8 ∨ k = 9 := by omega
    rcases htwo with rfl | rfl
    · rw [HasClass, HasClass, exponent_flipSign, fraction_flipSign, quiet_flipSign]
    · rw [HasClass, HasClass, exponent_flipSign, fraction_flipSign, quiet_flipSign]
  · exact iff_of_false (fun h => hlast h.le) fun h => hlast h.le

/-- The class of a pattern, computed from its fields. -/
def classOf (x : Pattern) : ℕ :=
  if exponent x = 0xff then
    if fraction x = 0 then if negative x then 0 else 7
    else if quiet x then 9 else 8
  else if exponent x = 0 then
    if fraction x = 0 then if negative x then 3 else 4
    else if negative x then 2 else 5
  else if negative x then 1 else 6

theorem hasClass_classOf (x : Pattern) : HasClass x (classOf x) := by
  unfold classOf
  split_ifs <;> simp_all [HasClass]

theorem HasClass.classOf_eq {k : ℕ} (h : HasClass x k) : classOf x = k := by
  have hk := h.le
  unfold classOf
  interval_cases k <;>
    · obtain ⟨ha, hb, hc⟩ := h
      simp_all

/-- The classes partition the patterns. -/
theorem existsUnique_hasClass (x : Pattern) : ∃! k, HasClass x k := by
  refine ⟨classOf x, hasClass_classOf x, ?_⟩
  intro k h
  exact h.classOf_eq.symm

end Binary32
