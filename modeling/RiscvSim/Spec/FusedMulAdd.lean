import RiscvSim.Spec.Binary32

/-!
The fused multiply-add of the standard: the product and the sum are exact, and
the sum is rounded once. The exact sum is a number of units squared, and is kept
as an integer; a sum of zero has the sign of its terms, or the one that the
direction gives to terms of different signs.
-/

namespace Binary32

open Rounding

/-- The exceptions, as bits of the flag word. -/
def inexactFlag : BitVec 8 := 1
def underflowFlag : BitVec 8 := 2
def overflowFlag : BitVec 8 := 4

/-- The magnitude that a number too large is rounded to. -/
def overflowed : Direction → Bool → ℕ
  | .towardZero, _ => infinity - 1
  | .down, false => infinity - 1
  | .up, true => infinity - 1
  | _, _ => infinity

/-- With no bound below the exponent, `n / d` units are still rounded to less than
the smallest normal number. -/
def isTiny (direction : Direction) (negative : Bool) (n d : ℕ) : Bool :=
  roundQuotient direction negative (2 * n) d < 2 ^ 24

/-- The exceptions of rounding `n / d` units to `bits`. -/
def exceptions (direction : Direction) (negative : Bool) (n d bits : ℕ) : BitVec 8 :=
  if infinity ≤ bits then overflowFlag ||| inexactFlag
  else if BinaryFormat.Exact 23 n d then 0
  else if isTiny direction negative n d then underflowFlag ||| inexactFlag
  else inexactFlag

/-- `n / d` units with a sign, rounded to a pattern. -/
def roundToPattern (direction : Direction) (negative : Bool) (n d : ℕ) : Pattern × BitVec 8 :=
  let bits := BinaryFormat.round 23 direction negative n d
  (pattern negative (min bits (overflowed direction negative)),
    exceptions direction negative n d bits)

/-- The sign of a product. -/
def productSign (a b : Pattern) : Bool := negative a ^^ negative b

/-- The sum of the product and the third operand, in units squared. -/
def exactSum (a b c : Pattern) : ℤ := scaled a * scaled b + scaled c * 2 ^ 149

/-- The operation on numbers. -/
def fusedFinite (direction : Direction) (a b c : Pattern) : Pattern × BitVec 8 :=
  let sum := exactSum a b c
  if sum = 0 then
    (pattern (if productSign a b = negative c then negative c else direction = .down) 0, 0)
  else roundToPattern direction (sum < 0) sum.natAbs (2 ^ 149)

/-- The operation with an infinite operand; there is no result for an infinite
product of zero and for a difference of infinities. -/
def fusedInfinite (a b c : Pattern) : Option (Pattern × BitVec 8) :=
  if IsInfinite a ∨ IsInfinite b then
    if magnitude a = 0 ∨ magnitude b = 0 ∨ (IsInfinite c ∧ negative c ≠ productSign a b) then none
    else some (pattern (productSign a b) infinity, 0)
  else some (c, 0)

/-- The product of the first two operands plus the third, rounded once; nothing where
the result is a NaN. -/
def fusedMulAdd (direction : Direction) (a b c : Pattern) : Option (Pattern × BitVec 8) :=
  if IsNaN a ∨ IsNaN b ∨ IsNaN c then none
  else if IsFinite a ∧ IsFinite b ∧ IsFinite c then some (fusedFinite direction a b c)
  else fusedInfinite a b c

/-- A result with its sign changed. -/
def negateResult (res : Pattern × BitVec 8) : Pattern × BitVec 8 := (negate res.1, res.2)

section Round

variable (direction : Direction) (sign : Bool) (n d : ℕ)

theorem overflowed_le : overflowed direction sign ≤ infinity := by
  cases direction <;> cases sign <;> decide

theorem overflowed_opposite :
    overflowed direction.opposite (!sign) = overflowed direction sign := by
  cases direction <;> cases sign <;> rfl

theorem infinity_lt : infinity < 2 ^ 31 := by decide

/-- Rounding from the other side of zero gives the same magnitude and exceptions. -/
theorem roundToPattern_opposite :
    roundToPattern direction.opposite (!sign) n d =
      negateResult (roundToPattern direction sign n d) := by
  have hbits : min (BinaryFormat.round 23 direction sign n d) (overflowed direction sign) <
      2 ^ 31 :=
    (min_le_right _ _).trans_lt ((overflowed_le direction sign).trans_lt infinity_lt)
  have htiny : isTiny direction.opposite (!sign) n d = isTiny direction sign n d := by
    rw [isTiny, roundQuotient_opposite, isTiny]
  simp only [roundToPattern, negateResult, BinaryFormat.round_opposite, overflowed_opposite,
    negate_pattern sign hbits, exceptions, htiny]

/-- A number of the format is rounded to itself, without an exception. -/
theorem roundToPattern_of_units {bits : ℕ} (hd : 0 < d) (hbits : bits < infinity)
    (hunits : BinaryFormat.units 23 bits * d = n) :
    roundToPattern direction sign n d = (pattern sign bits, 0) := by
  have hfits : bits ≤ overflowed direction sign := by
    have hlargest : infinity - 1 ≤ overflowed direction sign := by
      cases direction <;> cases sign <;> decide
    omega
  have hexact : BinaryFormat.Exact 23 n d :=
    (BinaryFormat.exact_iff_exists hd).mpr ⟨bits, hunits⟩
  rw [roundToPattern, BinaryFormat.round_of_units direction sign hd hunits, min_eq_left hfits,
    exceptions, if_neg (not_le.mpr hbits), if_pos hexact]

/-- The two directed roundings agree exactly on the numbers of the format. -/
theorem roundToPattern_directed_iff (hd : 0 < d) :
    roundToPattern .down sign n d = roundToPattern .up sign n d ↔
      ∃ bits, bits < infinity ∧ BinaryFormat.units 23 bits * d = n := by
  constructor
  · intro hsame
    have hlt (direction : Direction) :
        min (BinaryFormat.round 23 direction sign n d) (overflowed direction sign) < 2 ^ 31 :=
      (min_le_right _ _).trans_lt ((overflowed_le direction sign).trans_lt infinity_lt)
    have hbits := congrArg (fun res => magnitude res.1) hsame
    simp only [roundToPattern, magnitude_pattern sign (hlt _)] at hbits
    have hpos : 0 < infinity := by decide
    have hexact : BinaryFormat.Exact 23 n d := by
      by_contra hinexact
      have hneighbours := BinaryFormat.round_directed sign hinexact
      cases sign with
      | false =>
          simp only [overflowed, Bool.not_false, Bool.toNat_true, Bool.toNat_false] at *
          omega
      | true =>
          simp only [overflowed, Bool.not_true, Bool.toNat_true, Bool.toNat_false] at *
          omega
    obtain ⟨bits, hunits⟩ := (BinaryFormat.exact_iff_exists hd).mp hexact
    refine ⟨bits, ?_, hunits⟩
    rw [BinaryFormat.round_of_units .down sign hd hunits,
      BinaryFormat.round_of_units .up sign hd hunits] at hbits
    cases sign with
    | false =>
        simp only [overflowed] at hbits
        omega
    | true =>
        simp only [overflowed] at hbits
        omega
  · rintro ⟨bits, hbits, hunits⟩
    rw [roundToPattern_of_units .down sign n d hd hbits hunits,
      roundToPattern_of_units .up sign n d hd hbits hunits]

end Round

section Negate

variable (direction : Direction) (a b c : Pattern)

theorem productSign_negate : productSign (negate a) b = !productSign a b := by
  rw [productSign, negative_negate, productSign]
  cases negative a <;> cases negative b <;> rfl

theorem exactSum_negate : exactSum (negate a) b (negate c) = -exactSum a b c := by
  rw [exactSum, exactSum, scaled_negate, scaled_negate]
  ring

theorem fusedInfinite_negate :
    fusedInfinite (negate a) b (negate c) = (fusedInfinite a b c).map negateResult := by
  have hproduct : IsInfinite (negate a) ∨ IsInfinite b ↔ IsInfinite a ∨ IsInfinite b := by
    rw [isInfinite_negate_iff]
  have hnone : (magnitude (negate a) = 0 ∨ magnitude b = 0 ∨
      (IsInfinite (negate c) ∧ negative (negate c) ≠ productSign (negate a) b)) ↔
        (magnitude a = 0 ∨ magnitude b = 0 ∨
          (IsInfinite c ∧ negative c ≠ productSign a b)) := by
    rw [isInfinite_negate_iff, magnitude_negate, negative_negate, productSign_negate, ne_eq,
      Bool.not_inj_iff]
  rw [fusedInfinite, fusedInfinite, productSign_negate, ← negate_pattern _ infinity_lt]
  by_cases hinfinite : IsInfinite a ∨ IsInfinite b
  · rw [if_pos (hproduct.mpr hinfinite), if_pos hinfinite]
    by_cases hinvalid : magnitude a = 0 ∨ magnitude b = 0 ∨
        (IsInfinite c ∧ negative c ≠ productSign a b)
    · rw [if_pos hinvalid, if_pos]
      · rfl
      · rwa [← productSign_negate, hnone]
    · rw [if_neg hinvalid, if_neg]
      · rfl
      · rwa [← productSign_negate, hnone]
  · rw [if_neg (mt hproduct.mp hinfinite), if_neg hinfinite]
    rfl

/-- A sum of zero: terms of one sign pass it on, terms of different signs take the
same sign from the direction on either side. -/
theorem fusedFinite_negate_zero (hzero : exactSum a b c = 0) :
    negateResult (fusedFinite direction a b c) = fusedFinite direction (negate a) b (negate c) ↔
      productSign a b = negative c := by
  have hnegated : exactSum (negate a) b (negate c) = 0 := by
    rw [exactSum_negate, hzero, neg_zero]
  have hpattern (sign : Bool) : negate (pattern sign 0) = pattern (!sign) 0 :=
    negate_pattern sign (by decide)
  have hinj (sign sign' : Bool) : pattern sign 0 = pattern sign' 0 ↔ sign = sign' := by
    cases sign <;> cases sign' <;> decide
  simp only [fusedFinite, hzero, hnegated, if_true, negateResult, hpattern, Prod.mk.injEq,
    and_true, hinj, productSign_negate, negative_negate, Bool.not_inj_iff]
  by_cases hsigns : productSign a b = negative c
  · simp only [if_pos hsigns]
    exact iff_of_true trivial hsigns
  · simp only [if_neg hsigns]
    cases decide (direction = .down) with
    | false => simpa using hsigns
    | true => simpa using hsigns

/-- Any other sum is rounded from the other side of zero. -/
theorem fusedFinite_negate_nonzero (hnonzero : exactSum a b c ≠ 0) :
    negateResult (fusedFinite direction a b c) = fusedFinite direction (negate a) b (negate c) ↔
      (direction = .down ∨ direction = .up →
        ∃ bits, bits < infinity ∧
          BinaryFormat.units 23 bits * 2 ^ 149 = (exactSum a b c).natAbs) := by
  have hnegated : exactSum (negate a) b (negate c) ≠ 0 := by
    rw [exactSum_negate]
    exact neg_ne_zero.mpr hnonzero
  have hsign : decide (-exactSum a b c < 0) = !decide (exactSum a b c < 0) := by
    rw [← decide_not]
    exact decide_eq_decide.mpr (by omega)
  have hdirected := roundToPattern_directed_iff (!decide (exactSum a b c < 0))
    (exactSum a b c).natAbs (2 ^ 149) (Nat.two_pow_pos 149)
  have hcode : negateResult (fusedFinite direction a b c) =
      roundToPattern direction.opposite (!decide (exactSum a b c < 0)) (exactSum a b c).natAbs
        (2 ^ 149) := by
    simp only [fusedFinite, if_neg hnonzero, roundToPattern_opposite]
  have hspec : fusedFinite direction (negate a) b (negate c) =
      roundToPattern direction (!decide (exactSum a b c < 0)) (exactSum a b c).natAbs
        (2 ^ 149) := by
    simp only [fusedFinite, if_neg hnegated]
    rw [exactSum_negate, hsign, Int.natAbs_neg]
  rw [hcode, hspec]
  cases direction with
  | nearestEven | towardZero | nearestAway =>
      refine iff_of_true rfl ?_
      rintro (hdown | hup)
      · cases hdown
      · cases hup
  | down =>
      rw [← hdirected]
      exact ⟨fun hsame _ => hsame.symm, fun h => (h (.inl rfl)).symm⟩
  | up =>
      rw [← hdirected]
      exact ⟨fun hsame _ => hsame, fun h => h (.inr rfl)⟩

theorem exactSum_cast : (exactSum a b c : ℚ) = (value a * value b + value c) * 2 ^ 298 := by
  rw [exactSum, value, value, value]
  push_cast
  field_simp
  norm_num

theorem exactSum_eq_zero_iff : value a * value b + value c = 0 ↔ exactSum a b c = 0 := by
  have hpow : (2 ^ 298 : ℚ) ≠ 0 := by positivity
  rw [← Int.cast_eq_zero (α := ℚ), exactSum_cast, mul_eq_zero_iff_right hpow]

/-- The sum is a number of the format. -/
theorem exactSum_representable_iff :
    (∃ bits, bits < infinity ∧
        BinaryFormat.units 23 bits * 2 ^ 149 = (exactSum a b c).natAbs) ↔
      ∃ r, IsFinite r ∧ value r = value a * value b + value c := by
  have hscaled (r : Pattern) :
      value r = value a * value b + value c ↔ scaled r * 2 ^ 149 = exactSum a b c := by
    have hpow : (2 : ℚ) ^ 149 ≠ 0 := by positivity
    have hsquare : (2 : ℚ) ^ 298 = 2 ^ 149 * 2 ^ 149 := pow_add 2 149 149
    rw [value, div_eq_iff hpow, ← Int.cast_inj (α := ℚ), exactSum_cast, hsquare, ← mul_assoc,
      Int.cast_mul, Int.cast_pow, Int.cast_ofNat, mul_left_inj' hpow]
  constructor
  · rintro ⟨bits, hbits, hunits⟩
    have hlt : bits < 2 ^ 31 := hbits.trans infinity_lt
    refine ⟨pattern (exactSum a b c < 0) bits, ?_, (hscaled _).mpr ?_⟩
    · rwa [IsFinite, magnitude_pattern _ hlt]
    · rw [scaled, negative_pattern _ hlt, magnitude_pattern _ hlt]
      rcases lt_or_ge (exactSum a b c) 0 with hneg | hnonneg
      · rw [decide_eq_true hneg, signed_true]
        omega
      · rw [decide_eq_false hnonneg.not_gt, signed_false]
        omega
  · rintro ⟨r, hr, hvalue⟩
    refine ⟨magnitude r, hr, ?_⟩
    have hunits : (scaled r).natAbs = BinaryFormat.units 23 (magnitude r) := by
      rw [scaled]
      cases negative r with
      | false => rfl
      | true => rw [signed_true, Int.natAbs_neg, Int.natAbs_natCast]
    rw [← (hscaled r).mp hvalue, Int.natAbs_mul, hunits]
    rfl

theorem fusedFinite_negate_iff :
    negateResult (fusedFinite direction a b c) = fusedFinite direction (negate a) b (negate c) ↔
      (value a * value b + value c = 0 → productSign a b = negative c) ∧
        (direction = .down ∨ direction = .up →
          ∃ r, IsFinite r ∧ value r = value a * value b + value c) := by
  rw [← exactSum_representable_iff, exactSum_eq_zero_iff]
  by_cases hzero : exactSum a b c = 0
  · rw [fusedFinite_negate_zero direction a b c hzero]
    have hrepresentable : ∃ bits, bits < infinity ∧
        BinaryFormat.units 23 bits * 2 ^ 149 = (exactSum a b c).natAbs := by
      refine ⟨0, by decide, ?_⟩
      rw [hzero]
      rfl
    exact ⟨fun hsigns => ⟨fun _ => hsigns, fun _ => hrepresentable⟩, fun h => h.1 hzero⟩
  · rw [fusedFinite_negate_nonzero direction a b c hzero]
    exact (and_iff_right fun hcancels => absurd hcancels hzero).symm

/-- Rounding `a * b + c` and changing the sign is rounding `-a * b - c`. -/
def NegatesAlike (direction : Direction) (a b c : Pattern) : Prop :=
  IsFinite a → IsFinite b → IsFinite c →
    (value a * value b + value c = 0 → productSign a b = negative c) ∧
      (direction = .down ∨ direction = .up →
        ∃ r, IsFinite r ∧ value r = value a * value b + value c)

theorem fusedMulAdd_negate_iff {res : Pattern × BitVec 8}
    (hres : fusedMulAdd direction (negate a) b (negate c) = some res) :
    ∃ sum, fusedMulAdd direction a b c = some sum ∧
      (negateResult sum = res ↔ NegatesAlike direction a b c) := by
  unfold fusedMulAdd at hres ⊢
  simp only [isNaN_negate_iff, isFinite_negate_iff] at hres
  by_cases hnan : IsNaN a ∨ IsNaN b ∨ IsNaN c
  · rw [if_pos hnan] at hres
    cases hres
  · rw [if_neg hnan] at hres ⊢
    by_cases hfinite : IsFinite a ∧ IsFinite b ∧ IsFinite c
    · rw [if_pos hfinite] at hres ⊢
      injection hres with hres
      refine ⟨_, rfl, ?_⟩
      obtain ⟨ha, hb, hc⟩ := hfinite
      rw [← hres, fusedFinite_negate_iff]
      exact ⟨fun h _ _ _ => h, fun h => h ha hb hc⟩
    · rw [if_neg hfinite, fusedInfinite_negate] at hres
      rw [if_neg hfinite]
      obtain ⟨sum, hsum, hnegated⟩ := Option.map_eq_some_iff.mp hres
      exact ⟨sum, hsum, iff_of_true hnegated fun ha hb hc => absurd ⟨ha, hb, hc⟩ hfinite⟩

end Negate

end Binary32
