import Mathlib.Data.Nat.Size
import Mathlib.Order.Bounds.Basic
import Mathlib.Tactic.Ring

/-!
Counting the bits of a word by searching them in order: the search from the top
ends at the leading zeros, the one from the bottom at the trailing zeros, and a
pass over all indices counts the ones. Trailing zeros are also the largest
power of two that divides the word, and the ones of `~~~x &&& (x - 1)`.
-/

namespace BitCounts

variable {w : Nat} (x : BitVec w)

theorem toNat_clz_le : x.clz.toNat ≤ w := by
  have hle := BitVec.le_def.mp x.clz_le
  rwa [BitVec.natCast_eq_ofNat, BitVec.toNat_ofNat, Nat.mod_eq_of_lt Nat.lt_two_pow_self] at hle

theorem toNat_ctz_le : x.ctz.toNat ≤ w := toNat_clz_le x.reverse

theorem clz_zero : (0#w).clz = BitVec.ofNat w w := BitVec.clz_eq_iff_eq_zero.mpr rfl

theorem ctz_zero : (0#w).ctz = BitVec.ofNat w w := by
  rw [BitVec.ctz_eq_reverse_clz, BitVec.reverse_eq_zero_iff.mpr rfl, clz_zero]

/-- The search for the highest set bit, from index `n` down. -/
theorem clzAuxRec_eq_find? (n : Nat) :
    x.clzAuxRec n =
      ((List.range (n + 1)).reverse.find? x.getLsbD).elim (BitVec.ofNat w w)
        fun i => BitVec.ofNat w (w - 1 - i) := by
  induction n with
  | zero =>
      rw [List.range_succ, List.reverse_append]
      cases hbit : x.getLsbD 0 with
      | true => simp [BitVec.clzAuxRec, hbit]
      | false => simp [BitVec.clzAuxRec, hbit]
  | succ n ih =>
      rw [BitVec.clzAuxRec, List.range_succ, List.reverse_append, List.reverse_singleton,
        List.singleton_append, List.find?_cons]
      cases hbit : x.getLsbD (n + 1) with
      | true => rfl
      | false => exact ih

theorem clz_eq_find? (hw : 0 < w) :
    x.clz = ((List.range w).reverse.find? x.getLsbD).elim (BitVec.ofNat w w)
      fun i => BitVec.ofNat w (w - 1 - i) := by
  have hsearch := clzAuxRec_eq_find? x (w - 1)
  rwa [Nat.sub_add_cancel hw] at hsearch

/-- The search for the lowest set bit. -/
theorem toNat_ctz_eq_find? : x.ctz.toNat = ((List.range w).find? x.getLsbD).getD w := by
  by_cases hx : x = 0#w
  · have hnone : (List.range w).find? x.getLsbD = none := by
      rw [List.find?_eq_none, hx]
      intro i _
      simp
    rw [hnone, hx, ctz_zero, BitVec.toNat_ofNat, Nat.mod_eq_of_lt Nat.lt_two_pow_self]
    rfl
  · have hset := BitVec.getLsbD_true_ctz_of_ne_zero hx
    have hfound : (List.range w).find? x.getLsbD = some x.ctz.toNat := by
      rw [List.find?_range_eq_some]
      refine ⟨hset, List.mem_range.mpr (BitVec.lt_of_getLsbD hset), ?_⟩
      intro j hj
      rw [BitVec.getLsbD_false_of_lt_ctz hj]
      rfl
    rw [hfound]
    rfl

/-- The pass over the indices below `n`. -/
theorem cpopNatRec_eq_countP (n : Nat) :
    x.cpopNatRec n 0 = (List.range n).countP x.getLsbD := by
  induction n with
  | zero => rfl
  | succ n ih =>
      rw [BitVec.cpopNatRec_succ, BitVec.cpopNatRec_eq, ih, List.range_succ, List.countP_append,
        List.countP_singleton]
      cases x.getLsbD n with
      | true => rfl
      | false => rfl

theorem toNat_cpop_eq_countP : x.cpop.toNat = (List.range w).countP x.getLsbD := by
  rw [BitVec.toNat_cpop, cpopNatRec_eq_countP]

/-- A loop that adds one for each index with the property. -/
theorem foldl_count (p : Nat → Bool) (indices : List Nat) (count : Nat) :
    indices.foldl (fun count i => if p i then count + 1 else count) count =
      count + indices.countP p := by
  induction indices generalizing count with
  | nil => rfl
  | cons i rest ih =>
      rw [List.foldl_cons, ih, List.countP_cons]
      cases p i with
      | true => simp only [if_true]; omega
      | false => simp

/-- The width without the leading zeros is the bit length. -/
theorem toNat_clz_eq : x.clz.toNat = w - x.toNat.size := by
  have hle := toNat_clz_le x
  have hsize : x.toNat.size ≤ w - x.clz.toNat :=
    Nat.size_le.mpr BitVec.toNat_lt_two_pow_sub_clz
  by_cases hx : x = 0#w
  · rw [hx, clz_zero, BitVec.toNat_ofNat, Nat.mod_eq_of_lt Nat.lt_two_pow_self,
      BitVec.toNat_ofNat, Nat.zero_mod, Nat.size_zero, Nat.sub_zero]
  · have hset := BitVec.getLsbD_true_ctz_of_ne_zero hx
    have hw : 0 < w := Nat.zero_lt_of_lt (BitVec.lt_of_getLsbD hset)
    have hlt : w - 1 - x.clz.toNat < x.toNat.size :=
      Nat.lt_size.mpr (BitVec.two_pow_sub_clz_le_toNat_of_ne_zero hw hx)
    omega

theorem two_pow_dvd_iff (k : Nat) : 2 ^ k ∣ x.toNat ↔ ∀ i < k, x.getLsbD i = false := by
  rw [Nat.dvd_iff_mod_eq_zero]
  constructor
  · intro hmod i hi
    have hbit := Nat.testBit_mod_two_pow x.toNat k i
    rw [hmod, Nat.zero_testBit, decide_eq_true hi, Bool.true_and] at hbit
    exact hbit.symm
  · intro hlow
    apply Nat.eq_of_testBit_eq
    intro i
    rw [Nat.testBit_mod_two_pow, Nat.zero_testBit]
    by_cases hi : i < k
    · have hbit : x.toNat.testBit i = false := hlow i hi
      rw [hbit, Bool.and_false]
    · rw [decide_eq_false hi, Bool.false_and]

/-- The trailing zeros are the largest power of two, up to the width, that
divides the word. -/
theorem isGreatest_ctz : IsGreatest {k | k ≤ w ∧ 2 ^ k ∣ x.toNat} x.ctz.toNat := by
  constructor
  · refine ⟨toNat_ctz_le x, (two_pow_dvd_iff x _).mpr ?_⟩
    intro i hi
    exact BitVec.getLsbD_false_of_lt_ctz hi
  · rintro k ⟨hk, hdvd⟩
    by_contra hgt
    have hlow := (two_pow_dvd_iff x k).mp hdvd
    by_cases hx : x = 0#w
    · rw [hx, ctz_zero, BitVec.toNat_ofNat, Nat.mod_eq_of_lt Nat.lt_two_pow_self] at hgt
      exact hgt hk
    · have hset := BitVec.getLsbD_true_ctz_of_ne_zero hx
      rw [hlow _ (by omega)] at hset
      cases hset

/-- An odd number and the even one below it have no bit pattern `0` over `1`. -/
theorem not_odd_and_even (r k : Nat) :
    (!(2 * r + 1).testBit k && (2 * r).testBit k) = false := by
  cases k with
  | zero =>
      have hodd : (2 * r + 1).testBit 0 = true := by simp
      rw [hodd]
      rfl
  | succ k =>
      have hodd : (2 * r + 1) / 2 = r := by omega
      have heven : 2 * r / 2 = r := by omega
      rw [Nat.testBit_succ, Nat.testBit_succ, hodd, heven, Bool.not_and_self]

/-- A word with a set bit is an odd multiple of a power of two. -/
theorem toNat_eq_two_pow_mul_odd (hx : x ≠ 0#w) :
    ∃ r, x.toNat = 2 ^ x.ctz.toNat * (2 * r + 1) := by
  obtain ⟨q, hq⟩ := (isGreatest_ctz x).1.2
  have hset : x.toNat.testBit x.ctz.toNat = true := BitVec.getLsbD_true_ctz_of_ne_zero hx
  have hodd : q.testBit 0 = true := by
    rw [hq, Nat.testBit_two_pow_mul, Nat.sub_self] at hset
    exact (Bool.and_eq_true_iff.mp hset).2
  have hmod : q % 2 = 1 := by simpa using hodd
  exact ⟨q / 2, by rw [hq]; congr 1; omega⟩

/-- `x` has a zero where `x - 1` has a one exactly below its lowest set bit. -/
theorem getLsbD_not_and_sub_one {i : Nat} (hi : i < w) :
    (~~~x &&& (x - 1#w)).getLsbD i = decide (i < x.ctz.toNat) := by
  rw [BitVec.getLsbD_and, BitVec.getLsbD_not, decide_eq_true hi, Bool.true_and]
  by_cases hx : x = 0#w
  · rw [hx, ctz_zero, BitVec.toNat_ofNat, Nat.mod_eq_of_lt Nat.lt_two_pow_self,
      decide_eq_true hi, BitVec.zero_sub, BitVec.neg_one_eq_allOnes, BitVec.getLsbD_allOnes,
      decide_eq_true hi, BitVec.getLsbD_zero]
    rfl
  · obtain ⟨r, hr⟩ := toNat_eq_two_pow_mul_odd x hx
    -- one less has `c` ones below the even number `2 * r`
    generalize x.ctz.toNat = c at hr ⊢
    have hpow : 0 < 2 ^ c := Nat.two_pow_pos c
    have hone : (1#w).toNat = 1 := by
      rw [BitVec.toNat_ofNat, Nat.mod_eq_of_lt (Nat.one_lt_two_pow (by omega))]
    have hpos : 2 ^ c ≤ x.toNat := by
      rw [hr]
      exact Nat.le_mul_of_pos_right _ (by omega)
    have hsub : (x - 1#w).toNat = 2 ^ c * (2 * r) + (2 ^ c - 1) := by
      rw [BitVec.toNat_sub_of_le (by rw [BitVec.le_def, hone]; omega), hone, hr, Nat.mul_add,
        Nat.mul_one]
      omega
    rw [← BitVec.testBit_toNat, ← BitVec.testBit_toNat, hsub, hr, Nat.testBit_two_pow_mul,
      Nat.testBit_two_pow_mul_add _ (by omega)]
    by_cases hlow : i < c
    · rw [if_pos hlow, Nat.testBit_two_pow_sub_one, decide_eq_true hlow,
        decide_eq_false (by omega : ¬ i ≥ c)]
      rfl
    · rw [if_neg hlow, decide_eq_false hlow, decide_eq_true (by omega : i ≥ c), Bool.true_and]
      exact not_odd_and_even r (i - c)

theorem countP_range_lt {c n : Nat} (h : c ≤ n) :
    (List.range n).countP (fun i => decide (i < c)) = c := by
  induction n with
  | zero => exact (Nat.le_zero.mp h).symm
  | succ n ih =>
      rw [List.range_succ, List.countP_append, List.countP_singleton]
      rcases Nat.lt_or_eq_of_le h with hlt | rfl
      · rw [ih (by omega), decide_eq_false (by omega : ¬ n < c)]
        rfl
      · have hall : (List.range n).countP (fun i => decide (i < n + 1)) = n := by
          rw [List.countP_eq_length.mpr, List.length_range]
          intro i hi
          have hlt : i < n := List.mem_range.mp hi
          exact decide_eq_true (by omega)
        rw [hall, decide_eq_true (Nat.lt_succ_self n)]
        rfl

/-- The trailing zeros counted as ones. -/
theorem ctz_eq_cpop : x.ctz = (~~~x &&& (x - 1#w)).cpop := by
  apply BitVec.eq_of_toNat_eq
  rw [toNat_cpop_eq_countP]
  have hbits : (List.range w).countP (~~~x &&& (x - 1#w)).getLsbD =
      (List.range w).countP fun i => decide (i < x.ctz.toNat) := by
    apply List.countP_congr
    intro i hi
    rw [getLsbD_not_and_sub_one x (List.mem_range.mp hi)]
  rw [hbits, countP_range_lt (toNat_ctz_le x)]

end BitCounts
