import Mathlib.Order.Monotone.Defs
import RiscvSim.Lib.Rounding

/-!
Magnitudes of a binary floating-point format, as the numbers that their bits
spell: an exponent field above a fraction of `f` bits. A magnitude stands for a
number of units, the unit being the smallest number above zero; the next
magnitude is the next larger number, so that rounding a significand up carries
into the exponent by itself.
-/

namespace BinaryFormat

variable (f : ℕ)

/-- The number of units that a magnitude stands for. -/
def units (magnitude : ℕ) : ℕ :=
  let exponent := magnitude / 2 ^ f
  let fraction := magnitude % 2 ^ f
  if exponent = 0 then fraction else (2 ^ f + fraction) * 2 ^ (exponent - 1)

/-- How many low bits of a number of units do not fit the significand. -/
def shift (quotient : ℕ) : ℕ := quotient.log2 - f

/-- The magnitude of `n / d` units, rounded for the sign, with no bound on the
exponent. -/
def round (direction : Rounding.Direction) (negative : Bool) (n d : ℕ) : ℕ :=
  let k := shift f (n / d)
  k * 2 ^ f + Rounding.roundQuotient direction negative n (d * 2 ^ k)

/-- There is a magnitude for `n / d` units. -/
def Exact (n d : ℕ) : Prop := n % (d * 2 ^ shift f (n / d)) = 0

instance (n d : ℕ) : Decidable (Exact f n d) := inferInstanceAs (Decidable (_ = _))

section Units

variable {f}

/-- A significand above its exponent field, the leading bit counted into the field. -/
theorem units_append {k significand : ℕ} (hlow : k = 0 ∨ 2 ^ f ≤ significand)
    (hhigh : significand ≤ 2 ^ (f + 1)) :
    units f (k * 2 ^ f + significand) = significand * 2 ^ k := by
  have hpos : 0 < 2 ^ f := Nat.two_pow_pos f
  have hdiv : (k * 2 ^ f + significand) / 2 ^ f = k + significand / 2 ^ f := by
    rw [Nat.add_comm, Nat.add_mul_div_right _ _ hpos, Nat.add_comm]
  have hmod : (k * 2 ^ f + significand) % 2 ^ f = significand % 2 ^ f := by
    rw [Nat.add_comm, Nat.add_mul_mod_self_right]
  rw [pow_succ] at hhigh
  simp only [units, hdiv, hmod]
  rcases lt_or_ge significand (2 ^ f) with hsub | hnormal
  · obtain rfl : k = 0 := hlow.resolve_right (by omega)
    rw [Nat.div_eq_of_lt hsub, Nat.mod_eq_of_lt hsub]
    simp
  · rcases hhigh.lt_or_eq with hless | rfl
    · have hone : significand / 2 ^ f = 1 := Nat.div_eq_of_lt_le (by omega) (by omega)
      have hsplit := Nat.div_add_mod significand (2 ^ f)
      rw [hone, Nat.mul_one] at hsplit
      rw [hone, hsplit, if_neg (Nat.succ_ne_zero k), Nat.add_sub_cancel]
    · rw [Nat.mul_div_cancel_left 2 hpos, Nat.mul_mod_right, if_neg (by omega), Nat.add_zero,
        show k + 2 - 1 = k + 1 from rfl, pow_succ]
      ring

/-- Each magnitude is an exponent above a significand that fits. -/
theorem exists_significand (magnitude : ℕ) :
    ∃ k significand, (k = 0 ∨ 2 ^ f ≤ significand) ∧ significand < 2 ^ (f + 1) ∧
      magnitude = k * 2 ^ f + significand := by
  have hpos : 0 < 2 ^ f := Nat.two_pow_pos f
  have hfraction := Nat.mod_lt magnitude hpos
  have hsplit := Nat.div_add_mod magnitude (2 ^ f)
  rw [pow_succ]
  rcases Nat.eq_zero_or_pos (magnitude / 2 ^ f) with hzero | hexponent
  · rw [hzero, Nat.mul_zero, Nat.zero_add] at hsplit
    exact ⟨0, magnitude, .inl rfl, by omega, by omega⟩
  · refine ⟨magnitude / 2 ^ f - 1, 2 ^ f + magnitude % 2 ^ f, .inr (by omega), by omega, ?_⟩
    rw [Nat.sub_mul, Nat.mul_comm, Nat.one_mul]
    have hle : 2 ^ f ≤ 2 ^ f * (magnitude / 2 ^ f) := Nat.le_mul_of_pos_right _ hexponent
    omega

/-- The gap to the next magnitude is one in the last place of the significand. -/
theorem units_lt_succ (magnitude : ℕ) : units f magnitude < units f (magnitude + 1) := by
  obtain ⟨k, significand, hlow, hhigh, rfl⟩ := exists_significand (f := f) magnitude
  rw [units_append hlow hhigh.le, Nat.add_assoc,
    units_append (hlow.imp_right fun h => h.trans (Nat.le_succ _)) hhigh]
  exact Nat.mul_lt_mul_of_pos_right (Nat.lt_succ_self _) (Nat.two_pow_pos k)

theorem units_strictMono : StrictMono (units f) := strictMono_nat_of_lt_succ units_lt_succ

theorem units_eq_zero_iff (magnitude : ℕ) : units f magnitude = 0 ↔ magnitude = 0 := by
  have hzero : units f 0 = 0 := by simp [units]
  rw [← hzero, units_strictMono.injective.eq_iff, hzero]

/-- With signs, units compare as the magnitudes do. -/
theorem signed_units_le_iff (s t : Bool) (m n : ℕ) :
    Rounding.signed s (units f m : ℤ) ≤ Rounding.signed t (units f n : ℤ) ↔
      Rounding.signed s (m : ℤ) ≤ Rounding.signed t (n : ℤ) := by
  have hle : units f m ≤ units f n ↔ m ≤ n := units_strictMono.le_iff_le
  have hge : units f n ≤ units f m ↔ n ≤ m := units_strictMono.le_iff_le
  have hm := units_eq_zero_iff (f := f) m
  have hn := units_eq_zero_iff (f := f) n
  cases s with
  | false =>
      cases t with
      | false =>
          simp only [Rounding.signed_false]
          exact_mod_cast hle
      | true =>
          -- both sides say that both numbers are zero
          simp only [Rounding.signed_false, Rounding.signed_true]
          omega
  | true =>
      cases t with
      | false =>
          simp only [Rounding.signed_false, Rounding.signed_true]
          omega
      | true =>
          simp only [Rounding.signed_true, neg_le_neg_iff]
          exact_mod_cast hge

end Units

section Round

variable {f}

/-- The bits that are kept fill the significand, unless nothing is dropped. -/
theorem shift_bounds (quotient : ℕ) :
    (shift f quotient = 0 ∨ 2 ^ f ≤ quotient / 2 ^ shift f quotient) ∧
      quotient / 2 ^ shift f quotient < 2 ^ (f + 1) := by
  have hlt : quotient < 2 ^ (quotient.log2 + 1) := Nat.lt_log2_self
  constructor
  · rcases Nat.eq_zero_or_pos (shift f quotient) with hzero | hpos
    · exact .inl hzero
    · right
      have hne : quotient ≠ 0 := by
        rintro rfl
        simp [shift] at hpos
      rw [Nat.le_div_iff_mul_le (Nat.two_pow_pos _), ← pow_add,
        show f + shift f quotient = quotient.log2 by unfold shift at *; omega]
      exact Nat.log2_self_le hne
  · rw [Nat.div_lt_iff_lt_mul (Nat.two_pow_pos _), ← pow_add]
    exact hlt.trans_le (Nat.pow_le_pow_right two_pos (by unfold shift; omega))

theorem shift_append {k significand : ℕ} (hlow : k = 0 ∨ 2 ^ f ≤ significand)
    (hhigh : significand < 2 ^ (f + 1)) : shift f (significand * 2 ^ k) = k := by
  unfold shift
  rcases hlow with rfl | hnormal
  · rw [pow_zero, Nat.mul_one]
    rcases Nat.eq_zero_or_pos significand with rfl | hpos
    · simp
    · have hlog : significand.log2 < f + 1 := (Nat.log2_lt hpos.ne').mpr hhigh
      omega
  · have hpos : 0 < 2 ^ f := Nat.two_pow_pos f
    have hlog : (significand * 2 ^ k).log2 = f + k := by
      rw [Nat.log2_eq_iff (Nat.mul_ne_zero (by omega) (Nat.two_pow_pos k).ne'), pow_add,
        Nat.add_right_comm, pow_add _ (f + 1)]
      exact ⟨Nat.mul_le_mul_right _ hnormal,
        Nat.mul_lt_mul_of_pos_right hhigh (Nat.two_pow_pos k)⟩
    omega

/-- The significand is rounded where its last bit is. -/
theorem units_round (direction : Rounding.Direction) (negative : Bool) (n d : ℕ) :
    units f (round f direction negative n d) =
      Rounding.roundQuotient direction negative n (d * 2 ^ shift f (n / d)) *
        2 ^ shift f (n / d) := by
  obtain ⟨hlow, hhigh⟩ := shift_bounds (f := f) (n / d)
  obtain ⟨hge, hle⟩ := Rounding.roundQuotient_bounds direction negative (n := n)
    (d := d * 2 ^ shift f (n / d))
  rw [Nat.div_div_eq_div_mul] at hlow hhigh
  exact units_append (hlow.imp_right fun h => h.trans hge) (by omega)

/-- Exact quotients are the ones that some magnitude stands for. -/
theorem exact_iff_exists {n d : ℕ} (hd : 0 < d) :
    Exact f n d ↔ ∃ magnitude, units f magnitude * d = n := by
  constructor
  · intro hexact
    refine ⟨round f .towardZero false n d, ?_⟩
    have hpos : 0 < d * 2 ^ shift f (n / d) := Nat.mul_pos hd (Nat.two_pow_pos _)
    rw [units_round, Rounding.roundQuotient_exact _ _ hpos hexact, Nat.mul_assoc,
      Nat.mul_comm _ d]
    exact Nat.div_mul_cancel (Nat.dvd_of_mod_eq_zero hexact)
  · rintro ⟨magnitude, rfl⟩
    obtain ⟨k, significand, hlow, hhigh, rfl⟩ := exists_significand (f := f) magnitude
    rw [Exact, units_append hlow hhigh.le, Nat.mul_div_cancel _ hd, shift_append hlow hhigh,
      Nat.mul_assoc, Nat.mul_comm _ d]
    exact Nat.mul_mod_left significand _

/-- An exact quotient is not rounded. -/
theorem units_round_exact (direction : Rounding.Direction) (negative : Bool) {n d : ℕ}
    (hd : 0 < d) (hexact : Exact f n d) : units f (round f direction negative n d) * d = n := by
  have hpos : 0 < d * 2 ^ shift f (n / d) := Nat.mul_pos hd (Nat.two_pow_pos _)
  rw [units_round, Rounding.roundQuotient_exact _ _ hpos hexact, Nat.mul_assoc, Nat.mul_comm _ d]
  exact Nat.div_mul_cancel (Nat.dvd_of_mod_eq_zero hexact)

/-- A number of the format is rounded to itself. -/
theorem round_of_units (direction : Rounding.Direction) (negative : Bool) {n d magnitude : ℕ}
    (hd : 0 < d) (hunits : units f magnitude * d = n) :
    round f direction negative n d = magnitude := by
  have hexact : Exact f n d := (exact_iff_exists hd).mpr ⟨magnitude, hunits⟩
  have hsame := units_round_exact direction negative hd hexact
  rw [← hunits] at hsame
  rw [← hunits]
  exact units_strictMono.injective (Nat.eq_of_mul_eq_mul_right hd hsame)

/-- The two directed roundings of a quotient that is not exact are neighbours. -/
theorem round_directed (negative : Bool) {n d : ℕ} (hinexact : ¬ Exact f n d) :
    round f .down negative n d + (!negative).toNat =
      round f .up negative n d + negative.toNat := by
  obtain ⟨hdown, hup⟩ := Rounding.roundsUp_directed (d := d * 2 ^ shift f (n / d)) negative
    (n / (d * 2 ^ shift f (n / d))) hinexact
  simp only [round, Rounding.roundQuotient, hdown, hup]
  omega

theorem round_opposite (direction : Rounding.Direction) (negative : Bool) (n d : ℕ) :
    round f direction.opposite (!negative) n d = round f direction negative n d := by
  simp only [round, Rounding.roundQuotient_opposite]

end Round

end BinaryFormat
