import Mathlib.Order.WithBot
import RiscvSim.Lib.BinaryFormat

/-!
Single-precision numbers as the standard defines them: which number a pattern of
32 bits represents, the order of the represented numbers, and the operations
that the extension takes from the standard. Infinities stand above and below all
numbers, and a NaN represents nothing.
-/

namespace Binary32

open Rounding

abbrev Pattern := BitVec 32

def negative (x : Pattern) : Bool := x.msb

/-- The bits below the sign. -/
def magnitude (x : Pattern) : ℕ := x.toNat % 2 ^ 31

/-- The magnitude of the infinities: all ones in the exponent field and nothing
below it. -/
def infinity : ℕ := 255 * 2 ^ 23

def IsNaN (x : Pattern) : Prop := infinity < magnitude x

def IsInfinite (x : Pattern) : Prop := magnitude x = infinity

def IsFinite (x : Pattern) : Prop := magnitude x < infinity

instance (x : Pattern) : Decidable (IsNaN x) := inferInstanceAs (Decidable (_ < _))
instance (x : Pattern) : Decidable (IsInfinite x) := inferInstanceAs (Decidable (_ = _))
instance (x : Pattern) : Decidable (IsFinite x) := inferInstanceAs (Decidable (_ < _))

/-- The NaN that the operations return. -/
def canonicalNaN : Pattern := 0x7fc00000

def pattern (negative : Bool) (magnitude : ℕ) : Pattern :=
  BitVec.ofNat 32 (negative.toNat * 2 ^ 31 + magnitude)

/-- The other sign, also of zeros, infinities and NaNs. -/
def negate (x : Pattern) : Pattern := pattern (!negative x) (magnitude x)

/-- The represented number in units of the smallest one above zero. -/
def scaled (x : Pattern) : ℤ := signed (negative x) (BinaryFormat.units 23 (magnitude x) : ℤ)

/-- The represented number, of a finite pattern. -/
def value (x : Pattern) : ℚ := scaled x / 2 ^ 149

/-- The represented number or infinity. -/
def represented (x : Pattern) : WithBot (WithTop ℚ) :=
  if IsInfinite x then if negative x then ⊥ else ((⊤ : WithTop ℚ) : WithBot (WithTop ℚ))
  else ((value x : WithTop ℚ) : WithBot (WithTop ℚ))

section Fields

theorem magnitude_lt (x : Pattern) : magnitude x < 2 ^ 31 := Nat.mod_lt _ (Nat.two_pow_pos 31)

theorem toNat_eq (x : Pattern) : x.toNat = (negative x).toNat * 2 ^ 31 + magnitude x := by
  have hsign : (negative x).toNat = x.toNat / 2 ^ 31 := by
    have hlt := x.isLt
    rw [negative, BitVec.msb_eq_decide]
    by_cases hhigh : 2 ^ (32 - 1) ≤ x.toNat
    · rw [decide_eq_true hhigh, Bool.toNat_true]
      omega
    · rw [decide_eq_false hhigh, Bool.toNat_false]
      omega
  rw [hsign, magnitude, Nat.mul_comm, Nat.div_add_mod]

theorem pattern_fields (x : Pattern) : pattern (negative x) (magnitude x) = x := by
  rw [pattern, ← toNat_eq, BitVec.ofNat_toNat, BitVec.setWidth_eq]

section Pattern

variable (sign : Bool) {bits : ℕ} (hbits : bits < 2 ^ 31)

include hbits

theorem toNat_pattern : (pattern sign bits).toNat = sign.toNat * 2 ^ 31 + bits := by
  have hsign := Bool.toNat_lt sign
  rw [pattern, BitVec.toNat_ofNat, Nat.mod_eq_of_lt (by omega)]

@[simp] theorem magnitude_pattern : magnitude (pattern sign bits) = bits := by
  rw [magnitude, toNat_pattern sign hbits]
  omega

@[simp] theorem negative_pattern : negative (pattern sign bits) = sign := by
  rw [negative, BitVec.msb_eq_decide, toNat_pattern sign hbits]
  cases sign with
  | false => simpa using hbits
  | true => simp

end Pattern

/-- A pattern is its two fields. -/
theorem ext_fields {x y : Pattern} (hsign : negative x = negative y)
    (hbits : magnitude x = magnitude y) : x = y := by
  rw [← pattern_fields x, ← pattern_fields y, hsign, hbits]

@[simp] theorem magnitude_negate (x : Pattern) : magnitude (negate x) = magnitude x :=
  magnitude_pattern _ (magnitude_lt x)

@[simp] theorem negative_negate (x : Pattern) : negative (negate x) = !negative x :=
  negative_pattern _ (magnitude_lt x)

theorem isNaN_negate_iff (x : Pattern) : IsNaN (negate x) ↔ IsNaN x := by
  rw [IsNaN, IsNaN, magnitude_negate]

theorem isInfinite_negate_iff (x : Pattern) : IsInfinite (negate x) ↔ IsInfinite x := by
  rw [IsInfinite, IsInfinite, magnitude_negate]

theorem isFinite_negate_iff (x : Pattern) : IsFinite (negate x) ↔ IsFinite x := by
  rw [IsFinite, IsFinite, magnitude_negate]

theorem negate_negate (x : Pattern) : negate (negate x) = x := by
  apply ext_fields
  · rw [negative_negate, negative_negate, Bool.not_not]
  · rw [magnitude_negate, magnitude_negate]

theorem negate_eq_iff {x y : Pattern} : negate x = y ↔ x = negate y := by
  constructor
  · rintro rfl
    exact (negate_negate x).symm
  · rintro rfl
    exact negate_negate y

theorem negate_pattern {bits : ℕ} (sign : Bool) (hbits : bits < 2 ^ 31) :
    negate (pattern sign bits) = pattern (!sign) bits := by
  rw [negate, negative_pattern sign hbits, magnitude_pattern sign hbits]

@[simp] theorem scaled_negate (x : Pattern) : scaled (negate x) = -scaled x := by
  rw [scaled, scaled, negative_negate, magnitude_negate]
  cases negative x with
  | false => rfl
  | true => exact (neg_neg _).symm

end Fields

/-- The magnitude with its sign; it orders the represented numbers, zeros apart. -/
def ordinal (x : Pattern) : ℤ := signed (negative x) (magnitude x : ℤ)

/-- The number of patterns below, counted from the positive zero; a negative zero
comes right below it. -/
def rank (x : Pattern) : ℤ := if negative x then -(magnitude x : ℤ) - 1 else magnitude x

/-- The order of the represented numbers, with the negative zero below the
positive one. -/
def Precedes (x y : Pattern) : Prop :=
  represented x < represented y ∨
    (represented x = represented y ∧ (negative y = true → negative x = true))

/-- What a minimum and a maximum have in common: of two numbers the one that
comes first, of a number and a NaN the number, and else the canonical NaN. -/
structure Picks (first : Pattern → Pattern → Prop) (a b res : Pattern) : Prop where
  numbers : ¬ IsNaN a → ¬ IsNaN b → (res = a ∨ res = b) ∧ first res a ∧ first res b
  left : ¬ IsNaN a → IsNaN b → res = a
  right : IsNaN a → ¬ IsNaN b → res = b
  neither : IsNaN a → IsNaN b → res = canonicalNaN

def IsMinimum : Pattern → Pattern → Pattern → Prop := Picks Precedes

def IsMaximum : Pattern → Pattern → Pattern → Prop := Picks fun x y => Precedes y x

section Order

variable {x y : Pattern}

theorem scaled_le_iff (x y : Pattern) : scaled x ≤ scaled y ↔ ordinal x ≤ ordinal y :=
  BinaryFormat.signed_units_le_iff _ _ _ _

theorem value_le_iff (x y : Pattern) : value x ≤ value y ↔ ordinal x ≤ ordinal y := by
  rw [value, value, div_le_div_iff_of_pos_right (by positivity), Int.cast_le, scaled_le_iff]

/-- Infinities have the outermost ordinals. -/
theorem represented_cases (hx : ¬ IsNaN x) :
    (represented x = ⊥ ∧ ordinal x = -infinity) ∨
      (represented x = ((value x : WithTop ℚ) : WithBot (WithTop ℚ)) ∧
        -infinity < ordinal x ∧ ordinal x < infinity) ∨
      (represented x = ((⊤ : WithTop ℚ) : WithBot (WithTop ℚ)) ∧ ordinal x = infinity) := by
  rw [represented, ordinal]
  by_cases hinfinite : IsInfinite x
  · rw [if_pos hinfinite, hinfinite]
    cases negative x with
    | false => exact .inr (.inr ⟨rfl, rfl⟩)
    | true => exact .inl ⟨rfl, rfl⟩
  · have hbits : magnitude x < infinity := lt_of_le_of_ne (not_lt.mp hx) hinfinite
    refine .inr (.inl ⟨if_neg hinfinite, ?_⟩)
    cases negative x with
    | false =>
        rw [signed_false]
        omega
    | true =>
        rw [signed_true]
        omega

/-- The represented numbers are ordered as the signed magnitudes are. -/
theorem represented_le_iff (hx : ¬ IsNaN x) (hy : ¬ IsNaN y) :
    represented x ≤ represented y ↔ ordinal x ≤ ordinal y := by
  have hpos : (0 : ℤ) < infinity := by decide
  rcases represented_cases hx with ⟨hrx, hox⟩ | ⟨hrx, hlx, hhx⟩ | ⟨hrx, hox⟩
  · have hleast : -(infinity : ℤ) ≤ ordinal y := by
      rcases represented_cases hy with ⟨-, hoy⟩ | ⟨-, hly, -⟩ | ⟨-, hoy⟩
      · exact hoy.ge
      · exact hly.le
      · omega
    rw [hrx, hox]
    exact iff_of_true bot_le hleast
  · rcases represented_cases hy with ⟨hry, hoy⟩ | ⟨hry, -, -⟩ | ⟨hry, hoy⟩
    · rw [hrx, hry, hoy]
      exact iff_of_false (not_le.mpr (WithBot.bot_lt_coe _)) (by omega)
    · rw [hrx, hry, WithBot.coe_le_coe, WithTop.coe_le_coe, value_le_iff]
    · rw [hrx, hry, hoy]
      exact iff_of_true (WithBot.coe_le_coe.mpr le_top) hhx.le
  · rcases represented_cases hy with ⟨hry, hoy⟩ | ⟨hry, -, hhy⟩ | ⟨hry, hoy⟩
    · rw [hrx, hry, hox, hoy]
      exact iff_of_false (not_le.mpr (WithBot.bot_lt_coe _)) (by omega)
    · rw [hrx, hry, hox]
      exact iff_of_false (not_le.mpr (WithBot.coe_lt_coe.mpr (WithTop.coe_lt_top _)))
        (not_le.mpr hhy)
    · rw [hrx, hry, hox, hoy]
      exact iff_of_true le_rfl le_rfl

theorem represented_lt_iff (hx : ¬ IsNaN x) (hy : ¬ IsNaN y) :
    represented x < represented y ↔ ordinal x < ordinal y := by
  rw [← not_le, represented_le_iff hy hx, not_le]

theorem represented_eq_iff (hx : ¬ IsNaN x) (hy : ¬ IsNaN y) :
    represented x = represented y ↔ ordinal x = ordinal y := by
  rw [le_antisymm_iff, represented_le_iff hx hy, represented_le_iff hy hx, ← le_antisymm_iff]

theorem rank_neg_iff (x : Pattern) : rank x < 0 ↔ negative x = true := by
  rw [rank]
  cases negative x with
  | false => simp
  | true =>
      simp only [if_true, iff_true]
      omega

theorem rank_injective {x y : Pattern} (h : rank x = rank y) : x = y := by
  have hsign : negative x = negative y := by
    rw [Bool.eq_iff_iff, ← rank_neg_iff, ← rank_neg_iff, h]
  refine ext_fields hsign ?_
  rw [rank, rank, hsign] at h
  cases hy : negative y with
  | false => simpa [hy] using h
  | true => simpa [hy] using h

/-- The order with the zeros told apart is the order of the ranks. -/
theorem precedes_iff (hx : ¬ IsNaN x) (hy : ¬ IsNaN y) : Precedes x y ↔ rank x ≤ rank y := by
  rw [Precedes, represented_lt_iff hx hy, represented_eq_iff hx hy, ordinal, ordinal, rank, rank]
  cases negative x with
  | false =>
      cases negative y with
      | false =>
          simp only [signed_false, Bool.false_eq_true, if_false, imp_self, and_true]
          omega
      | true =>
          simp only [signed_false, signed_true, Bool.false_eq_true, if_true, if_false, true_implies,
            and_false, or_false]
          omega
  | true =>
      cases negative y with
      | false =>
          simp only [signed_false, signed_true, Bool.false_eq_true, if_true, if_false,
            false_implies, and_true]
          omega
      | true =>
          simp only [signed_true, if_true, imp_self, and_true]
          omega

/-- The two orders differ on one pair, the positive zero and the negative one. -/
theorem rank_lt_iff_zeros (hle : ordinal x ≤ ordinal y) :
    rank y < rank x ↔ x = pattern false 0 ∧ y = pattern true 0 := by
  constructor
  · intro hlt
    have hzero : (negative x = false ∧ magnitude x = 0) ∧ negative y = true ∧ magnitude y = 0 := by
      rw [ordinal, ordinal] at hle
      rw [rank, rank] at hlt
      cases hx : negative x with
      | false =>
          cases hy : negative y with
          | false =>
              simp only [hx, hy, signed_false, Bool.false_eq_true, if_false] at hle hlt
              omega
          | true =>
              simp only [hx, hy, signed_false, signed_true] at hle
              exact ⟨⟨rfl, by omega⟩, rfl, by omega⟩
      | true =>
          cases hy : negative y with
          | false =>
              simp only [hx, hy, Bool.false_eq_true, if_true, if_false] at hlt
              omega
          | true =>
              simp only [hx, hy, signed_true, if_true] at hle hlt
              omega
    obtain ⟨⟨hsignX, hbitsX⟩, hsignY, hbitsY⟩ := hzero
    rw [← pattern_fields x, ← pattern_fields y, hsignX, hbitsX, hsignY, hbitsY]
    exact ⟨rfl, rfl⟩
  · rintro ⟨rfl, rfl⟩
    decide

/-- A way to pick that goes by an integer. -/
structure PicksBy (first : Pattern → Pattern → Prop) (key : Pattern → ℤ) : Prop where
  injective : ∀ {x y}, key x = key y → x = y
  first_iff : ∀ {x y}, ¬ IsNaN x → ¬ IsNaN y → (first x y ↔ key x ≤ key y)

theorem minimum_picksBy : PicksBy Precedes rank where
  injective := rank_injective
  first_iff := precedes_iff

theorem maximum_picksBy : PicksBy (fun x y => Precedes y x) fun x => -rank x where
  injective h := rank_injective (neg_injective h)
  first_iff hx hy := (precedes_iff hy hx).trans neg_le_neg_iff.symm

namespace Picks

variable {first : Pattern → Pattern → Prop} {key : Pattern → ℤ} {a b c : Pattern}

/-- The argument order makes no difference. -/
theorem symm {res : Pattern} (h : Picks first a b res) : Picks first b a res where
  numbers hb ha := ⟨(h.numbers ha hb).1.symm, (h.numbers ha hb).2.symm⟩
  left hb ha := h.right ha hb
  right hb ha := h.left ha hb
  neither hb ha := h.neither ha hb

/-- One of two numbers is picked, and it is one with the least key. -/
theorem of_numbers (hkey : PicksBy first key) {res : Pattern} (h : Picks first a b res)
    (ha : ¬ IsNaN a) (hb : ¬ IsNaN b) :
    ¬ IsNaN res ∧ key res = min (key a) (key b) := by
  obtain ⟨hres, hfirstA, hfirstB⟩ := h.numbers ha hb
  have hnumber : ¬ IsNaN res := by
    rcases hres with rfl | rfl
    · exact ha
    · exact hb
  rw [hkey.first_iff hnumber ha] at hfirstA
  rw [hkey.first_iff hnumber hb] at hfirstB
  refine ⟨hnumber, le_antisymm (le_min hfirstA hfirstB) ?_⟩
  rcases hres with rfl | rfl
  · exact min_le_left _ _
  · exact min_le_right _ _

theorem left_iff (hkey : PicksBy first key) (ha : ¬ IsNaN a) (hb : ¬ IsNaN b) :
    Picks first a b a ↔ key a ≤ key b := by
  rw [← hkey.first_iff ha hb]
  constructor
  · intro h
    exact (h.numbers ha hb).2.2
  · intro hfirst
    exact ⟨fun _ _ => ⟨.inl rfl, (hkey.first_iff ha ha).mpr le_rfl, hfirst⟩,
      fun _ hnan => absurd hnan hb, fun hnan => absurd hnan ha, fun hnan => absurd hnan ha⟩

theorem right_iff (hkey : PicksBy first key) (ha : ¬ IsNaN a) (hb : ¬ IsNaN b) :
    Picks first a b b ↔ key b ≤ key a := by
  rw [← left_iff hkey hb ha]
  exact ⟨symm, symm⟩

theorem unique (hkey : PicksBy first key) {res res' : Pattern} (h : Picks first a b res)
    (h' : Picks first a b res') : res = res' := by
  by_cases ha : IsNaN a
  · by_cases hb : IsNaN b
    · exact (h.neither ha hb).trans (h'.neither ha hb).symm
    · exact (h.right ha hb).trans (h'.right ha hb).symm
  · by_cases hb : IsNaN b
    · exact (h.left ha hb).trans (h'.left ha hb).symm
    · apply hkey.injective
      rw [(h.of_numbers hkey ha hb).2, (h'.of_numbers hkey ha hb).2]

theorem right_nan_iff {res : Pattern} (ha : IsNaN a) (hb : ¬ IsNaN b) :
    Picks first a b res ↔ res = b := by
  constructor
  · intro h
    exact h.right ha hb
  · intro hres
    exact ⟨fun hnumber => absurd ha hnumber, fun _ hnan => absurd hnan hb, fun _ _ => hres,
      fun _ hnan => absurd hnan hb⟩

/-- Next to a NaN the number is picked. -/
theorem one_nan_iff {res : Pattern} (hres : res = a ∨ res = b) (hone : ¬ (IsNaN a ↔ IsNaN b)) :
    Picks first a b res ↔ ¬ IsNaN res := by
  by_cases ha : IsNaN a
  · have hb : ¬ IsNaN b := fun hb => hone (iff_of_true ha hb)
    rw [right_nan_iff ha hb]
    rcases hres with rfl | rfl
    · exact iff_of_false (fun hsame => hb (hsame ▸ ha)) (not_not_intro ha)
    · exact iff_of_true rfl hb
  · have hb : IsNaN b := by
      by_contra hb
      exact hone (iff_of_false ha hb)
    have hswap : Picks first a b res ↔ Picks first b a res := ⟨symm, symm⟩
    rw [hswap, right_nan_iff hb ha]
    rcases hres with rfl | rfl
    · exact iff_of_true rfl ha
    · exact iff_of_false (fun hsame => ha (hsame ▸ hb)) (not_not_intro hb)

theorem two_nans_iff {res : Pattern} (ha : IsNaN a) (hb : IsNaN b) :
    Picks first a b res ↔ res = canonicalNaN := by
  constructor
  · intro h
    exact h.neither ha hb
  · intro hres
    exact ⟨fun hnumber => absurd ha hnumber, fun hnumber => absurd ha hnumber,
      fun _ hnumber => absurd hb hnumber, fun _ _ => hres⟩

/-- Of three numbers the same one is left, whichever two come first. -/
theorem assoc (hkey : PicksBy first key) (ha : ¬ IsNaN a) (hb : ¬ IsNaN b) (hc : ¬ IsNaN c)
    {ab bc res res' : Pattern} (hab : Picks first a b ab) (hres : Picks first ab c res)
    (hbc : Picks first b c bc) (hres' : Picks first a bc res') : res = res' := by
  obtain ⟨hnumber, hkeyAb⟩ := hab.of_numbers hkey ha hb
  obtain ⟨hnumber', hkeyBc⟩ := hbc.of_numbers hkey hb hc
  apply hkey.injective
  rw [(hres.of_numbers hkey hnumber hc).2, (hres'.of_numbers hkey ha hnumber').2, hkeyAb, hkeyBc,
    min_assoc]

/-- The minimum and the maximum of two numbers are the two numbers. -/
theorem minimum_maximum {least greatest : Pattern} (ha : ¬ IsNaN a) (hb : ¬ IsNaN b)
    (hleast : IsMinimum a b least) (hgreatest : IsMaximum a b greatest) :
    (least = a ∧ greatest = b) ∨ (least = b ∧ greatest = a) := by
  obtain ⟨-, hmin⟩ := of_numbers minimum_picksBy hleast ha hb
  obtain ⟨-, hmax⟩ := of_numbers maximum_picksBy hgreatest ha hb
  rcases le_total (rank a) (rank b) with hle | hle
  · left
    rw [min_eq_left hle] at hmin
    rw [min_eq_right (neg_le_neg hle)] at hmax
    exact ⟨rank_injective hmin, rank_injective (neg_injective hmax)⟩
  · right
    rw [min_eq_right hle] at hmin
    rw [min_eq_left (neg_le_neg hle)] at hmax
    exact ⟨rank_injective hmin, rank_injective (neg_injective hmax)⟩

end Picks

end Order

/-- The represented number, rounded to an integer. -/
def toInteger (direction : Direction) (x : Pattern) : ℤ :=
  signed (negative x)
    (roundQuotient direction (negative x) (BinaryFormat.units 23 (magnitude x)) (2 ^ 149) : ℤ)

theorem rounds_toInteger (direction : Direction) (x : Pattern) :
    Rounds (value x) (toInteger direction x) direction := by
  have hvalue : value x =
      signed (negative x) ((BinaryFormat.units 23 (magnitude x) : ℚ) / (2 ^ 149 : ℕ)) := by
    rw [value, scaled, cast_signed]
    cases negative x with
    | false => norm_num
    | true =>
        rw [signed_true, signed_true, neg_div]
        norm_num
  rw [hvalue]
  exact rounds_roundQuotient direction (negative x) _ (Nat.two_pow_pos 149)

/-- A conversion to the integers between `low` and `high`. What is outside goes to
the nearer end, and a NaN to the upper one. -/
structure Saturated (low high : ℤ) (direction : Direction) (x : Pattern) (res : ℤ) : Prop where
  finite : IsFinite x → ∀ z, Rounds (value x) z direction → res = max low (min z high)
  infinite : IsInfinite x → res = if negative x then low else high
  nan : IsNaN x → res = high

namespace Saturated

variable {low high : ℤ} {direction : Direction} {x : Pattern} {res : ℤ}

theorem finite_iff (hx : IsFinite x) :
    Saturated low high direction x res ↔ res = max low (min (toInteger direction x) high) := by
  constructor
  · intro h
    exact h.finite hx _ (rounds_toInteger direction x)
  · intro hres
    refine ⟨fun _ z hz => ?_, fun hinfinite => absurd hinfinite hx.ne,
      fun hnan => absurd hnan hx.not_gt⟩
    rw [hz.unique (rounds_toInteger direction x), hres]

theorem infinite_iff (hx : IsInfinite x) :
    Saturated low high direction x res ↔ res = if negative x then low else high := by
  constructor
  · intro h
    exact h.infinite hx
  · intro hres
    exact ⟨fun hfinite => absurd hx hfinite.ne, fun _ => hres, fun hnan => absurd hx hnan.ne'⟩

theorem nan_iff (hx : IsNaN x) : Saturated low high direction x res ↔ res = high := by
  constructor
  · intro h
    exact h.nan hx
  · intro hres
    exact ⟨fun hfinite => absurd hx hfinite.not_gt, fun hinfinite => absurd hinfinite hx.ne',
      fun _ => hres⟩

theorem unique {res' : ℤ} (h : Saturated low high direction x res)
    (h' : Saturated low high direction x res') : res = res' := by
  rcases lt_trichotomy (magnitude x) infinity with hfinite | hinfinite | hnan
  · exact ((finite_iff hfinite).mp h).trans ((finite_iff hfinite).mp h').symm
  · exact ((infinite_iff hinfinite).mp h).trans ((infinite_iff hinfinite).mp h').symm
  · exact ((nan_iff hnan).mp h).trans ((nan_iff hnan).mp h').symm

/-- Every operand has a saturated integer. -/
theorem exists_res (low high : ℤ) (direction : Direction) (x : Pattern) :
    ∃ res, Saturated low high direction x res := by
  rcases lt_trichotomy (magnitude x) infinity with hfinite | hinfinite | hnan
  · exact ⟨_, (finite_iff hfinite).mpr rfl⟩
  · exact ⟨_, (infinite_iff hinfinite).mpr rfl⟩
  · exact ⟨_, (nan_iff hnan).mpr rfl⟩

end Saturated

end Binary32
