import Mathlib.Data.Nat.Sqrt
import RiscvSim.Spec.FloatClass
import RiscvSim.Spec.FusedMulAdd

/-!
The other operations of the standard. A sum and a product are fused
multiply-adds, with a factor of one and with a term of zero; a quotient and a
root are rounded by themselves. An operation has no result here where the
standard has a NaN, except that comparisons, choices and conversions to integers
are defined on NaNs, too.
-/

namespace Binary32

open Rounding

def divideByZeroFlag : BitVec 8 := 8
def invalidFlag : BitVec 8 := 16

def one : Pattern := 0x3f800000

def IsSignaling (x : Pattern) : Prop := IsNaN x ∧ quiet x = false

instance (x : Pattern) : Decidable (IsSignaling x) := inferInstanceAs (Decidable (_ ∧ _))

def add (direction : Direction) (a b : Pattern) : Option (Pattern × BitVec 8) :=
  fusedMulAdd direction a one b

def subtract (direction : Direction) (a b : Pattern) : Option (Pattern × BitVec 8) :=
  add direction a (negate b)

/-- The added zero has the sign of the product, which a product of zero keeps. -/
def multiply (direction : Direction) (a b : Pattern) : Option (Pattern × BitVec 8) :=
  fusedMulAdd direction a b (pattern (productSign a b) 0)

/-- The quotient of two finite numbers, the divisor not zero, in units. -/
def divideFinite (direction : Direction) (a b : Pattern) : Pattern × BitVec 8 :=
  roundToPattern direction (productSign a b) ((scaled a).natAbs * 2 ^ 149) (scaled b).natAbs

def divide (direction : Direction) (a b : Pattern) : Option (Pattern × BitVec 8) :=
  if IsNaN a ∨ IsNaN b then none
  else if IsInfinite a then
    if IsInfinite b then none else some (pattern (productSign a b) infinity, 0)
  else if IsInfinite b then some (pattern (productSign a b) 0, 0)
  else if magnitude b = 0 then
    if magnitude a = 0 then none else some (pattern (productSign a b) infinity, divideByZeroFlag)
  else some (divideFinite direction a b)

/-- The root of a positive number, in units. What is kept of a root has its last
bit far above one unit, so that a root between two numbers of units may be taken
half way between them. -/
def squareRootFinite (direction : Direction) (x : Pattern) : Pattern × BitVec 8 :=
  let n := (scaled x).natAbs * 2 ^ 149
  let root := n.sqrt
  roundToPattern direction false (2 * root + if root * root = n then 0 else 1) 2

def squareRoot (direction : Direction) (x : Pattern) : Option (Pattern × BitVec 8) :=
  if IsNaN x then none
  else if magnitude x = 0 then some (x, 0)
  else if negative x then none
  else if IsInfinite x then some (x, 0)
  else some (squareRootFinite direction x)

/-- A comparison of numbers; the exceptions are those of one that is not to meet
any NaN. -/
def compareSignaling (holds : ℤ → ℤ → Bool) (a b : Pattern) : Bool × BitVec 8 :=
  if IsNaN a ∨ IsNaN b then (false, invalidFlag) else (holds (ordinal a) (ordinal b), 0)

/-- What a signaling NaN among the operands raises. -/
def signalingFlags (a b : Pattern) : BitVec 8 :=
  if IsSignaling a ∨ IsSignaling b then invalidFlag else 0

/-- A comparison that may meet a quiet NaN. -/
def compareQuiet (holds : ℤ → ℤ → Bool) (a b : Pattern) : Bool × BitVec 8 :=
  (!(decide (IsNaN a ∨ IsNaN b)) && holds (ordinal a) (ordinal b), signalingFlags a b)

/-- Of two numbers the one with the smaller key, and else what is no NaN. -/
def pick (key : Pattern → ℤ) (a b : Pattern) : Pattern :=
  if IsNaN a then if IsNaN b then canonicalNaN else b
  else if IsNaN b then a
  else if key a ≤ key b then a else b

/-- The conversion to the integers between `low` and `high`. -/
def saturate (low high : ℤ) (direction : Direction) (x : Pattern) : ℤ × BitVec 8 :=
  if IsNaN x then (high, invalidFlag)
  else if IsInfinite x then (if negative x then low else high, invalidFlag)
  else
    let z := toInteger direction x
    if z < low then (low, invalidFlag)
    else if high < z then (high, invalidFlag)
    else (z, if scaled x % 2 ^ 149 = 0 then 0 else inexactFlag)

def fromInteger (direction : Direction) (z : ℤ) : Pattern × BitVec 8 :=
  roundToPattern direction (z < 0) (z.natAbs * 2 ^ 149) 1

/-- Some pattern stands for the integer. -/
def Representable (z : ℤ) : Prop := ∃ x, IsFinite x ∧ value x = z

example : add .nearestEven 0x3f800000 0x40000000 = some (0x40400000, 0) := by decide
example : multiply .nearestEven 0x80000000 0x3f800000 = some (0x80000000, 0) := by decide
example : divide .nearestEven 0x3f800000 0x40400000 = some (0x3eaaaaab, inexactFlag) := by decide
example : fromInteger .down (2 ^ 24 + 1) = (0x4b800000, inexactFlag) := by decide

section Pick

variable {first : Pattern → Pattern → Prop} {key : Pattern → ℤ} {a b : Pattern}

theorem picks_pick (hkey : PicksBy first key) : Picks first a b (pick key a b) := by
  unfold pick
  by_cases ha : IsNaN a
  · rw [if_pos ha]
    by_cases hb : IsNaN b
    · rw [if_pos hb]
      exact (Picks.two_nans_iff ha hb).mpr rfl
    · rw [if_neg hb]
      exact (Picks.right_nan_iff ha hb).mpr rfl
  · rw [if_neg ha]
    by_cases hb : IsNaN b
    · rw [if_pos hb]
      exact ((Picks.right_nan_iff hb ha).mpr rfl).symm
    · rw [if_neg hb]
      by_cases hle : key a ≤ key b
      · rw [if_pos hle]
        exact (Picks.left_iff hkey ha hb).mpr hle
      · rw [if_neg hle]
        exact (Picks.right_iff hkey ha hb).mpr (by omega)

end Pick

section Saturate

variable {low high : ℤ} (direction : Direction) (x : Pattern)

theorem saturated_saturate (hends : low ≤ high) :
    Saturated low high direction x (saturate low high direction x).1 := by
  unfold saturate
  rcases lt_trichotomy (magnitude x) infinity with hfinite | hinfinite | hnan
  · have hx : IsFinite x := hfinite
    have hnumber : ¬ IsNaN x := hfinite.not_gt
    have hbounded : ¬ IsInfinite x := hfinite.ne
    rw [Saturated.finite_iff hx, if_neg hnumber, if_neg hbounded]
    dsimp only
    by_cases hlow : toInteger direction x < low
    · rw [if_pos hlow, min_eq_left (hlow.le.trans hends), max_eq_left hlow.le]
    · rw [if_neg hlow]
      by_cases hhigh : high < toInteger direction x
      · rw [if_pos hhigh, min_eq_right hhigh.le, max_eq_right hends]
      · rw [if_neg hhigh, min_eq_left (not_lt.mp hhigh), max_eq_right (not_lt.mp hlow)]
  · have hx : IsInfinite x := hinfinite
    have hnumber : ¬ IsNaN x := hinfinite.not_gt
    rw [Saturated.infinite_iff hx, if_neg hnumber, if_pos hx]
  · have hx : IsNaN x := hnan
    rw [Saturated.nan_iff hx, if_pos hx]

end Saturate

section FromInteger

variable {z : ℤ}

theorem Representable.exists_units (h : Representable z) :
    ∃ bits, bits < infinity ∧ BinaryFormat.units 23 bits * 1 = z.natAbs * 2 ^ 149 := by
  obtain ⟨x, hfinite, hvalue⟩ := h
  refine ⟨magnitude x, hfinite, ?_⟩
  have hpow : (2 : ℚ) ^ 149 ≠ 0 := by positivity
  have hscaled : scaled x = z * 2 ^ 149 := by
    rw [value, div_eq_iff hpow] at hvalue
    exact_mod_cast hvalue
  have hunits : (scaled x).natAbs = BinaryFormat.units 23 (magnitude x) := by
    rw [scaled]
    cases negative x with
    | false => rfl
    | true => rw [signed_true, Int.natAbs_neg, Int.natAbs_natCast]
  rw [Nat.mul_one, ← hunits, hscaled, Int.natAbs_mul]
  rfl

/-- A number of the format is converted alike in every direction. -/
theorem Representable.fromInteger_eq (h : Representable z) (direction direction' : Direction) :
    fromInteger direction z = fromInteger direction' z := by
  obtain ⟨bits, hbits, hunits⟩ := h.exists_units
  rw [fromInteger, fromInteger, roundToPattern_of_units _ _ _ _ Nat.one_pos hbits hunits,
    roundToPattern_of_units _ _ _ _ Nat.one_pos hbits hunits]

end FromInteger

end Binary32
