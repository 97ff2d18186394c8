import RiscvSim.Spec.FpOperations

/-!
The operations without a number for their result: those that the standard calls
invalid, and those with a NaN among their operands. Which NaN is returned there
is left to the implementation; one that hands on the first NaN it meets is
described by its operands alone.
-/

namespace Binary32

open Rounding

variable {direction : Direction} {a b c : Pattern}

section Invalid

/-- A difference of infinities. -/
def InvalidSum (a b : Pattern) : Prop := IsInfinite a ∧ IsInfinite b ∧ negative a ≠ negative b

/-- An infinity times zero. -/
def InvalidProduct (a b : Pattern) : Prop :=
  (IsInfinite a ∧ magnitude b = 0) ∨ (magnitude a = 0 ∧ IsInfinite b)

def InvalidQuotient (a b : Pattern) : Prop :=
  (IsInfinite a ∧ IsInfinite b) ∨ (magnitude a = 0 ∧ magnitude b = 0)

/-- The root of a negative number. -/
def InvalidRoot (a : Pattern) : Prop := negative a = true ∧ magnitude a ≠ 0

def InvalidFused (a b c : Pattern) : Prop :=
  InvalidProduct a b ∨
    ((IsInfinite a ∨ IsInfinite b) ∧ IsInfinite c ∧ negative c ≠ productSign a b)

instance : Decidable (InvalidSum a b) := inferInstanceAs (Decidable (_ ∧ _))
instance : Decidable (InvalidProduct a b) := inferInstanceAs (Decidable (_ ∨ _))
instance : Decidable (InvalidQuotient a b) := inferInstanceAs (Decidable (_ ∨ _))
instance : Decidable (InvalidRoot a) := inferInstanceAs (Decidable (_ ∧ _))
instance : Decidable (InvalidFused a b c) := inferInstanceAs (Decidable (_ ∨ _))

theorem not_infinite_of_zero (h : magnitude a = 0) : ¬ IsInfinite a := by
  intro hinfinite
  rw [IsInfinite, h] at hinfinite
  exact absurd hinfinite (by decide)

theorem not_nan_of_zero (h : magnitude a = 0) : ¬ IsNaN a := by
  intro hnan
  rw [IsNaN, h] at hnan
  exact absurd hnan (by decide)

theorem not_nan_of_infinite (h : IsInfinite a) : ¬ IsNaN a := h.not_gt

/-- No operand of an invalid product is a NaN. -/
theorem InvalidProduct.numbers (h : InvalidProduct a b) : ¬ IsNaN a ∧ ¬ IsNaN b := by
  rcases h with ⟨ha, hb⟩ | ⟨ha, hb⟩
  · exact ⟨not_nan_of_infinite ha, not_nan_of_zero hb⟩
  · exact ⟨not_nan_of_zero ha, not_nan_of_infinite hb⟩

theorem fusedInfinite_eq_none_iff : fusedInfinite a b c = none ↔ InvalidFused a b c := by
  have hzeroA : magnitude a = 0 → ¬ IsInfinite a := not_infinite_of_zero
  have hzeroB : magnitude b = 0 → ¬ IsInfinite b := not_infinite_of_zero
  unfold fusedInfinite InvalidFused InvalidProduct
  by_cases hproduct : IsInfinite a ∨ IsInfinite b
  · rw [if_pos hproduct]
    by_cases hinvalid :
        magnitude a = 0 ∨ magnitude b = 0 ∨ (IsInfinite c ∧ negative c ≠ productSign a b)
    · rw [if_pos hinvalid]
      tauto
    · rw [if_neg hinvalid]
      simp only [reduceCtorEq, false_iff]
      tauto
  · rw [if_neg hproduct]
    simp only [reduceCtorEq, false_iff]
    tauto

/-- The multiply-add has no number for its result exactly with a NaN operand and where
it is invalid. -/
theorem fusedMulAdd_eq_none_iff :
    fusedMulAdd direction a b c = none ↔
      IsNaN a ∨ IsNaN b ∨ IsNaN c ∨ InvalidFused a b c := by
  unfold fusedMulAdd
  by_cases hnan : IsNaN a ∨ IsNaN b ∨ IsNaN c
  · rw [if_pos hnan]
    tauto
  · rw [if_neg hnan]
    by_cases hfinite : IsFinite a ∧ IsFinite b ∧ IsFinite c
    · have hvalid : ¬ InvalidFused a b c := by
        rintro ((⟨ha, -⟩ | ⟨-, hb⟩) | ⟨-, hc, -⟩)
        · exact hfinite.1.ne ha
        · exact hfinite.2.1.ne hb
        · exact hfinite.2.2.ne hc
      rw [if_pos hfinite]
      simp only [reduceCtorEq, false_iff]
      tauto
    · obtain ⟨ha, hrest⟩ := not_or.mp hnan
      obtain ⟨hb, hc⟩ := not_or.mp hrest
      rw [if_neg hfinite, fusedInfinite_eq_none_iff, or_iff_right ha, or_iff_right hb,
        or_iff_right hc]

theorem not_nan_one : ¬ IsNaN one := by decide

theorem add_eq_none_iff :
    add direction a b = none ↔ IsNaN a ∨ IsNaN b ∨ InvalidSum a b := by
  have hinfinite : ¬ IsInfinite one := by decide
  have hzero : magnitude one ≠ 0 := by decide
  have hsign : productSign a one = negative a := Bool.xor_false _
  have hsame : InvalidFused a one b ↔ InvalidSum a b := by
    rw [InvalidFused, InvalidProduct, InvalidSum, hsign, ne_comm]
    tauto
  have hone := not_nan_one
  rw [add, fusedMulAdd_eq_none_iff, hsame]
  tauto

theorem subtract_eq_none_iff :
    subtract direction a b = none ↔ IsNaN a ∨ IsNaN b ∨ InvalidSum a (negate b) := by
  rw [subtract, add_eq_none_iff, isNaN_negate_iff]

theorem multiply_eq_none_iff :
    multiply direction a b = none ↔ IsNaN a ∨ IsNaN b ∨ InvalidProduct a b := by
  have hmagnitude : magnitude (pattern (productSign a b) 0) = 0 :=
    magnitude_pattern _ (by decide)
  have hinfinite := not_infinite_of_zero hmagnitude
  have hnan := not_nan_of_zero hmagnitude
  rw [multiply, fusedMulAdd_eq_none_iff, InvalidFused]
  tauto

theorem divide_eq_none_iff :
    divide direction a b = none ↔ IsNaN a ∨ IsNaN b ∨ InvalidQuotient a b := by
  have hzeroA : magnitude a = 0 → ¬ IsInfinite a := not_infinite_of_zero
  have hzeroB : magnitude b = 0 → ¬ IsInfinite b := not_infinite_of_zero
  unfold divide InvalidQuotient
  split_ifs
  all_goals simp only [true_iff, false_iff]
  all_goals tauto

theorem squareRoot_eq_none_iff :
    squareRoot direction a = none ↔ IsNaN a ∨ InvalidRoot a := by
  unfold squareRoot InvalidRoot
  split_ifs
  all_goals simp only [true_iff, false_iff]
  all_goals tauto

end Invalid

section Numbers

variable {res : Pattern × BitVec 8}

theorem not_nan_pattern (sign : Bool) {bits : ℕ} (hbits : bits ≤ infinity) :
    ¬ IsNaN (pattern sign bits) := by
  rw [IsNaN, magnitude_pattern sign (hbits.trans_lt infinity_lt)]
  exact hbits.not_gt

theorem not_nan_roundToPattern (direction : Direction) (sign : Bool) (n d : ℕ) :
    ¬ IsNaN (roundToPattern direction sign n d).1 :=
  not_nan_pattern sign ((min_le_right _ _).trans (overflowed_le direction sign))

theorem not_nan_fusedMulAdd (h : fusedMulAdd direction a b c = some res) : ¬ IsNaN res.1 := by
  unfold fusedMulAdd at h
  by_cases hnan : IsNaN a ∨ IsNaN b ∨ IsNaN c
  · rw [if_pos hnan] at h
    cases h
  rw [if_neg hnan] at h
  by_cases hfinite : IsFinite a ∧ IsFinite b ∧ IsFinite c
  · rw [if_pos hfinite] at h
    obtain rfl := Option.some.inj h
    unfold fusedFinite
    dsimp only
    by_cases hzero : exactSum a b c = 0
    · rw [if_pos hzero]
      exact not_nan_pattern _ (by decide)
    · rw [if_neg hzero]
      exact not_nan_roundToPattern _ _ _ _
  · rw [if_neg hfinite, fusedInfinite] at h
    split_ifs at h
    · obtain rfl := Option.some.inj h
      exact not_nan_pattern _ le_rfl
    · obtain rfl := Option.some.inj h
      exact fun hc => hnan (.inr (.inr hc))

theorem not_nan_divide (h : divide direction a b = some res) : ¬ IsNaN res.1 := by
  unfold divide at h
  split_ifs at h
  · obtain rfl := Option.some.inj h
    exact not_nan_pattern _ le_rfl
  · obtain rfl := Option.some.inj h
    exact not_nan_pattern _ (by decide)
  · obtain rfl := Option.some.inj h
    exact not_nan_pattern _ le_rfl
  · obtain rfl := Option.some.inj h
    exact not_nan_roundToPattern _ _ _ _

theorem not_nan_squareRoot (h : squareRoot direction a = some res) : ¬ IsNaN res.1 := by
  unfold squareRoot at h
  split_ifs at h with hnan
  · obtain rfl := Option.some.inj h
    exact hnan
  · obtain rfl := Option.some.inj h
    exact hnan
  · obtain rfl := Option.some.inj h
    exact not_nan_roundToPattern _ _ _ _

end Numbers

section Propagation

/-- The first NaN among the operands. -/
def firstNaN (operands : List Pattern) : Option Pattern := operands.find? fun x => decide (IsNaN x)

theorem firstNaN_eq_none_iff {operands : List Pattern} :
    firstNaN operands = none ↔ ∀ x ∈ operands, ¬ IsNaN x := by
  simp [firstNaN]

/-- A NaN with its quiet bit set. -/
def quieted (x : Pattern) : Pattern := x ||| 0x00400000

/-- The operands in the order in which a multiply-add hands on their NaNs; an infinity
times zero is invalid whatever is added to it. -/
def fusedOperands (a b c : Pattern) : List Pattern :=
  if InvalidProduct a b then [a, b] else [a, b, c]

/-- The first NaN of the operands is returned, quiet; without one, an invalid operation
returns the NaN of its own, and a valid one a number. -/
structure Propagates (operands : List Pattern) (isInvalid : Prop) (ownNaN result : Pattern) :
    Prop where
  nan : ∀ x, firstNaN operands = some x → result = quieted x
  invalid : firstNaN operands = none → isInvalid → result = ownNaN
  number : firstNaN operands = none → ¬ isInvalid → ¬ IsNaN result

/-- The quiet bit is the only one that changes. -/
theorem quieted_cases (x : Pattern) : quieted x = x ∨ quieted x = x ^^^ 0x00400000 := by
  have hquiet : ∀ i : Fin 32, (0x00400000 : Pattern).getLsbD i = decide (i.val = 22) := by decide
  cases hbit : x.getLsbD 22 with
  | true =>
      left
      apply BitVec.eq_of_getLsbD_eq
      intro i hi
      rw [quieted, BitVec.getLsbD_or, hquiet ⟨i, hi⟩]
      by_cases h : i = 22
      · subst h
        rw [hbit]
        rfl
      · rw [decide_eq_false h, Bool.or_false]
  | false =>
      right
      apply BitVec.eq_of_getLsbD_eq
      intro i hi
      rw [quieted, BitVec.getLsbD_or, BitVec.getLsbD_xor, hquiet ⟨i, hi⟩]
      by_cases h : i = 22
      · subst h
        rw [hbit]
        rfl
      · rw [decide_eq_false h, Bool.or_false, Bool.xor_false]

theorem isNaN_quieted {x : Pattern} (h : IsNaN x) : IsNaN (quieted x) := by
  have hmagnitude : magnitude (quieted x) = magnitude x ||| magnitude 0x00400000 := by
    rw [magnitude, quieted, BitVec.toNat_or, Nat.or_mod_two_pow]
    rfl
  rw [IsNaN, hmagnitude]
  exact h.trans_le Nat.left_le_or

/-- A canonical NaN, of either sign, is only made of itself: without its quiet bit it is
no NaN. -/
theorem quieted_eq_iff {x wanted : Pattern} (hnan : IsNaN x)
    (hwanted : wanted = canonicalNaN ∨ wanted = negate canonicalNaN) :
    quieted x = wanted ↔ x = wanted := by
  have hfixed : quieted wanted = wanted := by
    rcases hwanted with rfl | rfl <;> decide
  have hother : ¬ IsNaN (wanted ^^^ 0x00400000) := by
    rcases hwanted with rfl | rfl <;> decide
  constructor
  · intro h
    rcases quieted_cases x with hsame | hchanged
    · exact hsame.symm.trans h
    · rw [hchanged] at h
      rw [← h, BitVec.xor_assoc, BitVec.xor_self, BitVec.xor_zero] at hother
      exact absurd hnan hother
  · rintro rfl
    exact hfixed

/-- The NaN that is returned is the wanted one, if any is. -/
theorem Propagates.wanted_iff {operands : List Pattern} {isInvalid : Prop}
    {ownNaN result wanted : Pattern} (h : Propagates operands isInvalid ownNaN result)
    (hown : IsNaN ownNaN) (hwanted : wanted = canonicalNaN ∨ wanted = negate canonicalNaN) :
    (IsNaN result → result = wanted) ↔
      (∀ x, firstNaN operands = some x → x = wanted) ∧
        (firstNaN operands = none → isInvalid → ownNaN = wanted) := by
  cases hfirst : firstNaN operands with
  | some x =>
      have hnan : IsNaN x := by simpa using List.find?_some hfirst
      simp [h.nan x hfirst, isNaN_quieted hnan, quieted_eq_iff hnan hwanted]
  | none =>
      by_cases hinvalid : isInvalid
      · simp [h.invalid hfirst hinvalid, hown, hinvalid]
      · simp [h.number hfirst hinvalid, hinvalid]

end Propagation

end Binary32
