import Mathlib.Algebra.Order.Floor.Ring
import Mathlib.Data.Rat.Floor
import Mathlib.Tactic.Linarith
import Mathlib.Tactic.FieldSimp

/-!
Rounding of a fraction to an integer in five directions. The fraction is a sign
and a quotient of natural numbers, so that the rounding can be evaluated; which
integer a direction asks for is stated of rational numbers, without the
algorithm.
-/

namespace Rounding

/-- The rounding directions. -/
inductive Direction where
  | nearestEven
  | towardZero
  | down
  | up
  | nearestAway
  deriving DecidableEq, Repr

/-- The direction seen from the other side of zero. -/
def Direction.opposite : Direction → Direction
  | .down => .up
  | .up => .down
  | direction => direction

/-- `z` is `x` rounded to an integer. -/
def Rounds (x : ℚ) (z : ℤ) : Direction → Prop
  | .nearestEven => |x - z| ≤ 1 / 2 ∧ (|x - z| = 1 / 2 → Even z)
  | .towardZero => z = if 0 ≤ x then ⌊x⌋ else ⌈x⌉
  | .down => z = ⌊x⌋
  | .up => z = ⌈x⌉
  | .nearestAway => |x - z| ≤ 1 / 2 ∧ (|x - z| = 1 / 2 → |x| ≤ |(z : ℚ)|)

/-- Whether the magnitude goes up to the next integer, from the rest of a division
by `d`. -/
def Direction.roundsUp (negative : Bool) (quotient rest d : ℕ) : Direction → Bool
  | .nearestEven => d < 2 * rest || (2 * rest = d && quotient % 2 = 1)
  | .towardZero => false
  | .down => negative && rest ≠ 0
  | .up => !negative && rest ≠ 0
  | .nearestAway => d ≤ 2 * rest

/-- The magnitude of `n / d`, rounded for the sign. -/
def roundQuotient (direction : Direction) (negative : Bool) (n d : ℕ) : ℕ :=
  n / d + (direction.roundsUp negative (n / d) (n % d) d).toNat

/-- A magnitude with its sign. -/
def signed {α : Type} [Neg α] (negative : Bool) (x : α) : α := if negative then -x else x

@[simp] theorem signed_false {α : Type} [Neg α] (x : α) : signed false x = x := rfl

@[simp] theorem signed_true {α : Type} [Neg α] (x : α) : signed true x = -x := rfl

section Quotient

variable (direction : Direction) (negative : Bool) {n d : ℕ}

/-- The other side of zero asks for the opposite direction. -/
theorem roundsUp_opposite (quotient rest d : ℕ) :
    direction.opposite.roundsUp (!negative) quotient rest d =
      direction.roundsUp negative quotient rest d := by
  cases direction with
  | down | up => cases negative <;> rfl
  | nearestEven | towardZero | nearestAway => rfl

theorem roundQuotient_opposite (n d : ℕ) :
    roundQuotient direction.opposite (!negative) n d = roundQuotient direction negative n d := by
  rw [roundQuotient, roundsUp_opposite, roundQuotient]

/-- A division without a rest is not rounded. -/
theorem roundsUp_exact (quotient : ℕ) (hd : 0 < d) :
    direction.roundsUp negative quotient 0 d = false := by
  cases direction with
  | nearestEven => simp [Direction.roundsUp, hd.ne]
  | nearestAway => simp [Direction.roundsUp, hd.ne']
  | towardZero | down | up => simp [Direction.roundsUp]

theorem roundQuotient_exact (hd : 0 < d) (hexact : n % d = 0) :
    roundQuotient direction negative n d = n / d := by
  rw [roundQuotient, hexact, roundsUp_exact direction negative _ hd]
  rfl

/-- The two directed roundings of an inexact quotient are neighbours. -/
theorem roundsUp_directed {rest : ℕ} (quotient : ℕ) (hrest : rest ≠ 0) :
    Direction.down.roundsUp negative quotient rest d = negative ∧
      Direction.up.roundsUp negative quotient rest d = !negative := by
  simp [Direction.roundsUp, hrest]

theorem roundQuotient_bounds :
    n / d ≤ roundQuotient direction negative n d ∧
      roundQuotient direction negative n d ≤ n / d + 1 := by
  unfold roundQuotient
  cases direction.roundsUp negative (n / d) (n % d) d with
  | false => simp
  | true => simp

end Quotient

section Unique

variable {x : ℚ} {z z' : ℤ}

/-- Two integers that are both near are the same, or `x` is half way between them. -/
theorem near_cases (h : |x - z| ≤ 1 / 2) (h' : |x - z'| ≤ 1 / 2) :
    z = z' ∨ (z' = z + 1 ∧ x = z + 1 / 2) ∨ (z = z' + 1 ∧ x = z' + 1 / 2) := by
  rw [abs_le] at h h'
  have hlow : (z : ℚ) - z' ≤ 1 := by linarith
  have hhigh : (z' : ℚ) - z ≤ 1 := by linarith
  have hlow' : z - z' ≤ 1 := by exact_mod_cast hlow
  have hhigh' : z' - z ≤ 1 := by exact_mod_cast hhigh
  have hcases : z = z' ∨ z' = z + 1 ∨ z = z' + 1 := by omega
  rcases hcases with rfl | rfl | rfl
  · exact .inl rfl
  · push_cast at h'
    exact .inr (.inl ⟨rfl, by linarith⟩)
  · push_cast at h
    exact .inr (.inr ⟨rfl, by linarith⟩)

/-- Half way between two integers, one of them is nearer to zero. -/
theorem half_way_away (z : ℤ) (h : |(z : ℚ) + 1 / 2| ≤ |(z : ℚ)|)
    (h' : |(z : ℚ) + 1 / 2| ≤ |((z + 1 : ℤ) : ℚ)|) : False := by
  push_cast at h'
  rcases le_or_gt 0 z with hz | hz
  · have hz' : (0 : ℚ) ≤ z := by exact_mod_cast hz
    rw [abs_of_nonneg hz', abs_of_nonneg (by linarith)] at h
    linarith
  · have hz' : (z : ℚ) + 1 ≤ 0 := by exact_mod_cast hz
    rw [abs_of_nonpos hz', abs_of_nonpos (by linarith)] at h'
    linarith

/-- A direction asks for one integer only. -/
theorem Rounds.unique {direction : Direction} (h : Rounds x z direction)
    (h' : Rounds x z' direction) : z = z' := by
  cases direction with
  | down | up | towardZero => exact h.trans h'.symm
  | nearestEven =>
      rcases near_cases h.1 h'.1 with hsame | ⟨rfl, hx⟩ | ⟨rfl, hx⟩
      · exact hsame
      · have heven := h.2 (by rw [hx]; norm_num)
        have heven' := h'.2 (by rw [hx]; norm_num)
        exact absurd heven' (Int.not_even_iff_odd.mpr heven.add_one)
      · have heven := h.2 (by rw [hx]; norm_num)
        have heven' := h'.2 (by rw [hx]; norm_num)
        exact absurd heven (Int.not_even_iff_odd.mpr heven'.add_one)
  | nearestAway =>
      rcases near_cases h.1 h'.1 with hsame | ⟨rfl, hx⟩ | ⟨rfl, hx⟩
      · exact hsame
      · have haway := h.2 (by rw [hx]; norm_num)
        have haway' := h'.2 (by rw [hx]; norm_num)
        rw [hx] at haway haway'
        exact (half_way_away z haway haway').elim
      · have haway := h.2 (by rw [hx]; norm_num)
        have haway' := h'.2 (by rw [hx]; norm_num)
        rw [hx] at haway haway'
        exact (half_way_away z' haway' haway).elim

end Unique

section Correct

variable {n d : ℕ}

/-- The quotient in lowest terms of the integer part and a rest below one. -/
theorem quotient_split (n : ℕ) (hd : 0 < d) :
    (n : ℚ) / d = (n / d : ℕ) + ((n % d : ℕ) : ℚ) / d := by
  have hne : (d : ℚ) ≠ 0 := by exact_mod_cast hd.ne'
  have hsplit : (n : ℚ) = d * (n / d : ℕ) + (n % d : ℕ) := by
    exact_mod_cast (Nat.div_add_mod n d).symm
  rw [eq_comm, ← sub_eq_zero]
  field_simp
  linarith

theorem rest_bounds (n : ℕ) (hd : 0 < d) :
    0 ≤ ((n % d : ℕ) : ℚ) / d ∧ ((n % d : ℕ) : ℚ) / d < 1 := by
  have hpos : (0 : ℚ) < d := by exact_mod_cast hd
  have hlt : ((n % d : ℕ) : ℚ) < d := by exact_mod_cast Nat.mod_lt n hd
  exact ⟨by positivity, (div_lt_one hpos).mpr hlt⟩

theorem floor_quotient (n : ℕ) (hd : 0 < d) : ⌊(n : ℚ) / d⌋ = ((n / d : ℕ) : ℤ) := by
  obtain ⟨hlow, hhigh⟩ := rest_bounds n hd
  rw [Int.floor_eq_iff, quotient_split n hd, Int.cast_natCast]
  constructor
  · linarith
  · linarith

theorem ceil_quotient (n : ℕ) (hd : 0 < d) :
    ⌈(n : ℚ) / d⌉ = ((n / d + (decide (n % d ≠ 0)).toNat : ℕ) : ℤ) := by
  obtain ⟨hlow, hhigh⟩ := rest_bounds n hd
  rw [Int.ceil_eq_iff, quotient_split n hd, Int.cast_natCast]
  by_cases hrest : n % d = 0
  · rw [hrest, decide_eq_false (by simp), Bool.toNat_false, Nat.add_zero, Nat.cast_zero, zero_div]
    constructor
    · linarith
    · linarith
  · have hpos : (0 : ℚ) < ((n % d : ℕ) : ℚ) / d := by
      have hd' : (0 : ℚ) < d := by exact_mod_cast hd
      have hrest' : (0 : ℚ) < ((n % d : ℕ) : ℚ) := by exact_mod_cast Nat.pos_of_ne_zero hrest
      positivity
    rw [decide_eq_true hrest, Bool.toNat_true, Nat.cast_add, Nat.cast_one]
    constructor
    · linarith
    · linarith

section Signed

variable (negative : Bool)

theorem abs_signed (x : ℚ) : |signed negative x| = |x| := by
  cases negative with
  | false => rfl
  | true => exact abs_neg x

theorem signed_sub_cast (x : ℚ) (z : ℤ) :
    signed negative x - (signed negative z : ℤ) = signed negative (x - z) := by
  cases negative with
  | false => rfl
  | true =>
      simp only [signed, if_true]
      push_cast
      ring

theorem cast_signed (z : ℤ) : ((signed negative z : ℤ) : ℚ) = signed negative (z : ℚ) := by
  cases negative with
  | false => rfl
  | true => exact Int.cast_neg z

theorem even_signed_iff (z : ℤ) : Even (signed negative z) ↔ Even z := by
  cases negative with
  | false => rfl
  | true => exact even_neg

end Signed

/-- The distance to the rounded magnitude. -/
theorem abs_sub_roundQuotient (direction : Direction) (negative : Bool) (n : ℕ) (hd : 0 < d) :
    |(n : ℚ) / d - roundQuotient direction negative n d| =
      if direction.roundsUp negative (n / d) (n % d) d then 1 - ((n % d : ℕ) : ℚ) / d
      else ((n % d : ℕ) : ℚ) / d := by
  obtain ⟨hlow, hhigh⟩ := rest_bounds n hd
  rw [quotient_split n hd, roundQuotient]
  cases direction.roundsUp negative (n / d) (n % d) d with
  | false =>
      rw [Bool.toNat_false, Nat.add_zero, add_sub_cancel_left, abs_of_nonneg hlow]
      rfl
  | true =>
      rw [Bool.toNat_true, if_pos rfl, Nat.cast_add, Nat.cast_one, add_sub_add_left_eq_sub,
        abs_of_nonpos (by linarith)]
      ring

theorem rest_lt_half_iff (rest : ℕ) (hd : 0 < d) : 2 * rest < d ↔ (rest : ℚ) / d < 1 / 2 := by
  have hpos : (0 : ℚ) < d := by exact_mod_cast hd
  rw [div_lt_div_iff₀ hpos two_pos, one_mul, mul_comm]
  exact_mod_cast Iff.rfl

theorem rest_eq_half_iff (rest : ℕ) (hd : 0 < d) : 2 * rest = d ↔ (rest : ℚ) / d = 1 / 2 := by
  have hpos : (d : ℚ) ≠ 0 := by exact_mod_cast hd.ne'
  rw [div_eq_div_iff hpos two_ne_zero, one_mul, mul_comm]
  exact_mod_cast Iff.rfl

/-- A rest of at most half the divisor goes down, one of at least half goes up. -/
theorem near_of_halves (direction : Direction) (negative : Bool) (n : ℕ) (hd : 0 < d)
    (hup : direction.roundsUp negative (n / d) (n % d) d = true → d ≤ 2 * (n % d))
    (hdown : direction.roundsUp negative (n / d) (n % d) d = false → 2 * (n % d) ≤ d) :
    |(n : ℚ) / d - roundQuotient direction negative n d| ≤ 1 / 2 ∧
      (|(n : ℚ) / d - roundQuotient direction negative n d| = 1 / 2 → 2 * (n % d) = d) := by
  have hlt := rest_lt_half_iff (n % d) hd
  have heq := rest_eq_half_iff (n % d) hd
  rw [abs_sub_roundQuotient direction negative n hd]
  cases hround : direction.roundsUp negative (n / d) (n % d) d with
  | false =>
      have hle := hdown hround
      rw [if_neg Bool.false_ne_true]
      refine ⟨?_, heq.mpr⟩
      rcases hle.lt_or_eq with hless | hsame
      · exact (hlt.mp hless).le
      · exact (heq.mp hsame).le
  | true =>
      have hge := hup hround
      rw [if_pos rfl]
      have hhalf : ¬ ((n % d : ℕ) : ℚ) / d < 1 / 2 := mt hlt.mpr (by omega)
      refine ⟨by linarith, fun htie => heq.mpr ?_⟩
      linarith

theorem roundQuotient_floor (direction : Direction) (negative : Bool) (n : ℕ) (hd : 0 < d)
    (hkept : direction.roundsUp negative (n / d) (n % d) d = false) :
    (roundQuotient direction negative n d : ℤ) = ⌊(n : ℚ) / d⌋ := by
  rw [floor_quotient n hd, roundQuotient, hkept]
  rfl

theorem roundQuotient_ceil (direction : Direction) (negative : Bool) (n : ℕ) (hd : 0 < d)
    (hround : direction.roundsUp negative (n / d) (n % d) d = decide (n % d ≠ 0)) :
    (roundQuotient direction negative n d : ℤ) = ⌈(n : ℚ) / d⌉ := by
  rw [ceil_quotient n hd, roundQuotient, hround]

/-- A tie goes to the even neighbour. -/
theorem even_of_tie (negative : Bool) (n : ℕ) (htie : 2 * (n % d) = d) :
    Even (roundQuotient .nearestEven negative n d) := by
  have hround : Direction.nearestEven.roundsUp negative (n / d) (n % d) d =
      decide (n / d % 2 = 1) := by
    simp [Direction.roundsUp, htie]
  rw [roundQuotient, hround]
  rcases Nat.mod_two_eq_zero_or_one (n / d) with heven | hodd
  · rw [heven, decide_eq_false zero_ne_one, Bool.toNat_false, Nat.add_zero]
    exact Nat.even_iff.mpr heven
  · rw [hodd, decide_eq_true rfl, Bool.toNat_true]
    exact (Nat.odd_iff.mpr hodd).add_one

/-- A tie goes away from zero. -/
theorem away_of_tie (negative : Bool) (n : ℕ) (hd : 0 < d) (htie : 2 * (n % d) = d) :
    (n : ℚ) / d ≤ roundQuotient .nearestAway negative n d := by
  have hround : Direction.nearestAway.roundsUp negative (n / d) (n % d) d = true := by
    simp [Direction.roundsUp, htie]
  obtain ⟨-, hhigh⟩ := rest_bounds n hd
  rw [quotient_split n hd, roundQuotient, hround, Bool.toNat_true, Nat.cast_add, Nat.cast_one]
  linarith

/-- Rounding the magnitude for its sign is rounding the signed number. -/
theorem rounds_roundQuotient (direction : Direction) (negative : Bool) (n : ℕ) (hd : 0 < d) :
    Rounds (signed negative ((n : ℚ) / d))
      (signed negative (roundQuotient direction negative n d : ℤ)) direction := by
  have hdistance : |signed negative ((n : ℚ) / d) -
      (signed negative (roundQuotient direction negative n d : ℤ) : ℤ)| =
        |(n : ℚ) / d - roundQuotient direction negative n d| := by
    rw [signed_sub_cast, abs_signed, Int.cast_natCast]
  have hnonneg : (0 : ℚ) ≤ (n : ℚ) / d := by positivity
  cases direction with
  | nearestEven =>
      obtain ⟨hhalf, htie⟩ := near_of_halves .nearestEven negative n hd
        (by simp only [Direction.roundsUp, Bool.or_eq_true, Bool.and_eq_true,
              decide_eq_true_eq]; omega)
        (by simp only [Direction.roundsUp, Bool.or_eq_false_iff, decide_eq_false_iff_not]; omega)
      rw [Rounds, hdistance, even_signed_iff, Int.even_coe_nat]
      exact ⟨hhalf, fun h => even_of_tie negative n (htie h)⟩
  | nearestAway =>
      obtain ⟨hhalf, htie⟩ := near_of_halves .nearestAway negative n hd
        (by simp only [Direction.roundsUp, decide_eq_true_eq]; omega)
        (by simp only [Direction.roundsUp, decide_eq_false_iff_not]; omega)
      rw [Rounds, hdistance, cast_signed, abs_signed, abs_signed, Int.cast_natCast]
      refine ⟨hhalf, fun h => ?_⟩
      rw [abs_of_nonneg hnonneg, Nat.abs_cast]
      exact away_of_tie negative n hd (htie h)
  | towardZero =>
      have hfloor := roundQuotient_floor .towardZero negative n hd rfl
      rw [Rounds, hfloor]
      cases negative with
      | false => exact (if_pos hnonneg).symm
      | true =>
          rw [signed_true, signed_true, Int.ceil_neg]
          split
          · have hzero : (n : ℚ) / d = 0 := by linarith
            rw [hzero, neg_zero, Int.floor_zero, neg_zero]
          · rfl
  | down =>
      rw [Rounds]
      cases negative with
      | false => exact roundQuotient_floor .down false n hd rfl
      | true =>
          rw [signed_true, signed_true, Int.floor_neg]
          exact congrArg Neg.neg (roundQuotient_ceil .down true n hd (Bool.true_and _))
  | up =>
      rw [Rounds]
      cases negative with
      | false => exact roundQuotient_ceil .up false n hd (Bool.true_and _)
      | true =>
          rw [signed_true, signed_true, Int.ceil_neg]
          exact congrArg Neg.neg (roundQuotient_floor .up true n hd rfl)

end Correct

end Rounding
