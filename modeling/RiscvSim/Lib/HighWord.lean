import Mathlib.Data.BitVec
import Mathlib.Tactic.LinearCombination
import Mathlib.Tactic.Linarith
import Mathlib.Tactic.Positivity
import Mathlib.Tactic.Ring

/-!
The two words of a product. The upper word of an integer is its quotient by the
word size, rounded down and cut to a word; multiplying by a word read without
its sign instead of with it adds the other factor to the upper word.
-/

namespace HighWord

variable {w : Nat}

/-- The word above the lowest word of an integer. -/
def highWord (w : Nat) (p : Int) : BitVec w := BitVec.ofInt w (p / 2 ^ w)

/-- A remainder by the square of the word size, word by word. -/
theorem emod_two_words (p : Int) :
    p % 2 ^ (w + w) = 2 ^ w * (p / 2 ^ w % 2 ^ w) + p % 2 ^ w := by
  have hpos : (0 : Int) < 2 ^ w := by positivity
  have hsquare : (0 : Int) < 2 ^ (w + w) := by positivity
  have hlow := Int.mul_ediv_add_emod p (2 ^ w)
  have hhigh := Int.mul_ediv_add_emod (p / 2 ^ w) (2 ^ w)
  have hlowNonneg := Int.emod_nonneg p hpos.ne'
  have hlowLt := Int.emod_lt_of_pos p hpos
  have hhighNonneg := Int.emod_nonneg (p / 2 ^ w) hpos.ne'
  have hhighLt := Int.emod_lt_of_pos (p / 2 ^ w) hpos
  refine ((Int.ediv_emod_unique (q := p / 2 ^ w / 2 ^ w) hsquare).mpr ⟨?_, ?_, ?_⟩).2
  · rw [pow_add]
    linear_combination hlow + 2 ^ w * hhigh
  · positivity
  · rw [pow_add]
    nlinarith

theorem toNat_ofInt_two_words (p : Int) :
    (BitVec.ofInt (w + w) p).toNat =
      2 ^ w * (highWord w p).toNat + (BitVec.ofInt w p).toNat := by
  have hpos : (0 : Int) < 2 ^ w := by positivity
  have hlowNonneg := Int.emod_nonneg p hpos.ne'
  have hhighNonneg := Int.emod_nonneg (p / 2 ^ w) hpos.ne'
  apply Int.ofNat.inj
  simp only [Int.ofNat_eq_natCast, highWord, BitVec.toNat_ofInt]
  push_cast
  rw [Int.toNat_of_nonneg hlowNonneg, Int.toNat_of_nonneg hhighNonneg, ← emod_two_words]
  exact Int.toNat_of_nonneg (Int.emod_nonneg p (by positivity))

/-- The two words together are the whole product. -/
theorem highWord_append (p : Int) :
    highWord w p ++ BitVec.ofInt w p = BitVec.ofInt (w + w) p := by
  apply BitVec.eq_of_toNat_eq
  rw [BitVec.toNat_append, toNat_ofInt_two_words,
    ← Nat.shiftLeft_add_eq_or_of_lt (BitVec.isLt _), Nat.shiftLeft_eq, Nat.mul_comm]

/-- The upper half of a double word that holds the product. -/
theorem setWidth_ofInt_shiftRight (p : Int) :
    ((BitVec.ofInt (w + w) p) >>> w).setWidth w = highWord w p := by
  have hpos : 0 < 2 ^ w := Nat.two_pow_pos w
  apply BitVec.eq_of_toNat_eq
  rw [BitVec.toNat_setWidth, BitVec.toNat_ushiftRight, Nat.shiftRight_eq_div_pow,
    toNat_ofInt_two_words, Nat.mul_add_div hpos, Nat.div_eq_of_lt (BitVec.isLt _), Nat.add_zero,
    Nat.mod_eq_of_lt (BitVec.isLt _)]

theorem highWord_add_mul (p q : Int) :
    highWord w (p + 2 ^ w * q) = highWord w p + BitVec.ofInt w q := by
  have hpos : (0 : Int) < 2 ^ w := by positivity
  rw [highWord, Int.add_mul_ediv_left _ _ hpos.ne', BitVec.ofInt_add]
  rfl

/-- Without the sign, a factor with its top bit set is a whole word larger. -/
theorem toNat_eq_toInt_add (x : BitVec w) :
    (x.toNat : Int) = x.toInt + 2 ^ w * (if x.msb then 1 else 0) := by
  rw [BitVec.toInt_eq_msb_cond]
  cases x.msb <;> simp

theorem highWord_mul_toNat (p : Int) (y : BitVec w) :
    highWord w (p * y.toNat) =
      highWord w (p * y.toInt) + if y.msb then BitVec.ofInt w p else 0 := by
  have hsum : p * y.toNat = p * y.toInt + 2 ^ w * (p * if y.msb then 1 else 0) := by
    rw [toNat_eq_toInt_add]
    ring
  rw [hsum, highWord_add_mul]
  cases y.msb <;> simp

/-- Both factors read without their signs. -/
theorem highWord_toNat_mul_toNat (x y : BitVec w) :
    highWord w (x.toNat * y.toNat) =
      highWord w (x.toInt * y.toInt) + ((if x.msb then y else 0) + if y.msb then x else 0) := by
  have hx : BitVec.ofInt w (x.toNat : Int) = x := by simp
  have hy : BitVec.ofInt w y.toInt = y := BitVec.ofInt_toInt
  rw [highWord_mul_toNat, hx, Int.mul_comm, highWord_mul_toNat, hy, Int.mul_comm,
    BitVec.add_assoc]

end HighWord
