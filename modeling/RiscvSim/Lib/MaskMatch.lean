import Mathlib.Data.List.Basic

/-!
Words described by some of their bit fields, and tables searched by mask and
match word. A pattern fixes the values of disjoint fields; testing a word
against all of them at once is one masked comparison. In a table whose entries
are pairwise apart the first entry that a word hits is the only one.
-/

namespace MaskMatch

variable {w : Nat}

/-- The `len` bits from bit `start` on have this value. -/
structure FixedField (w : Nat) where
  start : Nat
  len : Nat
  value : BitVec len
  inside : start + len ≤ w := by decide

namespace FixedField

variable (field : FixedField w)

def Holds (word : BitVec w) : Prop := word.extractLsb' field.start field.len = field.value

instance (word : BitVec w) : Decidable (field.Holds word) :=
  inferInstanceAs (Decidable (_ = _))

def mask : BitVec w := (BitVec.allOnes field.len).setWidth w <<< field.start
def bits : BitVec w := field.value.setWidth w <<< field.start

theorem mask_getLsbD (i : Nat) :
    field.mask.getLsbD i =
      (decide (field.start ≤ i) && decide (i < field.start + field.len)) := by
  have hinside := field.inside
  unfold mask
  rw [BitVec.getLsbD_shiftLeft, BitVec.getLsbD_setWidth, BitVec.getLsbD_allOnes]
  grind

theorem bits_getLsbD (i : Nat) :
    field.bits.getLsbD i =
      (decide (field.start ≤ i) && field.value.getLsbD (i - field.start)) := by
  have hinside := field.inside
  unfold bits
  rw [BitVec.getLsbD_shiftLeft, BitVec.getLsbD_setWidth]
  by_cases hi : i < field.start + field.len
  · have hw : i < w := by omega
    have hback : i - field.start < w := by omega
    by_cases hstart : i < field.start
    · have hnot : ¬ field.start ≤ i := by omega
      simp [hstart, hnot]
    · have hfrom : field.start ≤ i := by omega
      simp [hw, hstart, hback, hfrom]
  · have hhigh : field.value.getLsbD (i - field.start) = false :=
      BitVec.getLsbD_of_ge _ _ (by omega)
    simp [hhigh]

/-- Testing one field is a masked comparison. -/
theorem holds_iff (word : BitVec w) :
    field.Holds word ↔ word &&& field.mask = field.bits := by
  have hinside := field.inside
  unfold Holds
  constructor
  · intro h
    apply BitVec.eq_of_getLsbD_eq
    intro i hi
    rw [BitVec.getLsbD_and, mask_getLsbD, bits_getLsbD, ← h, BitVec.getLsbD_extractLsb']
    by_cases hstart : field.start ≤ i
    · have hindex : field.start + (i - field.start) = i := by omega
      by_cases hlen : i < field.start + field.len
      · have hback : i - field.start < field.len := by omega
        simp [hstart, hlen, hindex, hback]
      · have hback : ¬ i - field.start < field.len := by omega
        simp [hlen, hback]
    · simp [hstart]
  · intro h
    apply BitVec.eq_of_getLsbD_eq
    intro i hi
    have hbit := congrArg (·.getLsbD (field.start + i)) h
    simp only [BitVec.getLsbD_and, mask_getLsbD, bits_getLsbD, Nat.le_add_right,
      Nat.add_sub_cancel_left, Nat.add_lt_add_left hi, decide_true, Bool.true_and,
      Bool.and_true] at hbit
    rw [BitVec.getLsbD_extractLsb', hbit]
    simp [hi]

end FixedField

/-- Some fields of a word and their values. -/
abbrev Pattern (w : Nat) := List (FixedField w)

namespace Pattern

def Holds (pattern : Pattern w) (word : BitVec w) : Prop := ∀ field ∈ pattern, field.Holds word

instance (pattern : Pattern w) (word : BitVec w) : Decidable (pattern.Holds word) :=
  inferInstanceAs (Decidable (∀ field ∈ pattern, field.Holds word))

def mask : Pattern w → BitVec w
  | [] => 0
  | field :: rest => field.mask ||| mask rest

def bits : Pattern w → BitVec w
  | [] => 0
  | field :: rest => field.bits ||| bits rest

/-- No bit belongs to two fields. -/
def Disjoint (pattern : Pattern w) : Prop :=
  pattern.Pairwise fun f g => f.mask &&& g.mask = 0#w

instance (pattern : Pattern w) : Decidable pattern.Disjoint :=
  inferInstanceAs (Decidable (List.Pairwise _ _))

end Pattern

/-- Two masked comparisons on disjoint masks are one on their union. -/
theorem and_or_eq_or_iff {m n b c : BitVec w} (word : BitVec w) (hmn : m &&& n = 0#w)
    (hb : b &&& m = b) (hc : c &&& n = c) :
    word &&& (m ||| n) = b ||| c ↔ word &&& m = b ∧ word &&& n = c := by
  have hnm : n &&& m = 0#w := by rw [BitVec.and_comm, hmn]
  have hbn : b &&& n = 0#w := by rw [← hb, BitVec.and_assoc, hmn, BitVec.and_zero]
  have hcm : c &&& m = 0#w := by rw [← hc, BitVec.and_assoc, hnm, BitVec.and_zero]
  constructor
  · intro h
    constructor
    · have hleft := congrArg (· &&& m) h
      simpa only [BitVec.and_assoc, BitVec.and_or_distrib_right, BitVec.and_self, hnm,
        BitVec.or_zero, hb, hcm] using hleft
    · have hright := congrArg (· &&& n) h
      simpa only [BitVec.and_assoc, BitVec.and_or_distrib_right, BitVec.and_self, hmn,
        BitVec.zero_or, hc, hbn] using hright
  · rintro ⟨rfl, rfl⟩
    rw [BitVec.and_or_distrib_left]

theorem or_and_or_of_subset {m n b c : BitVec w} (hb : b &&& m = b) (hc : c &&& n = c) :
    (b ||| c) &&& (m ||| n) = b ||| c := by
  apply BitVec.eq_of_getLsbD_eq
  intro i hi
  have hbi := congrArg (·.getLsbD i) hb
  have hci := congrArg (·.getLsbD i) hc
  simp only [BitVec.getLsbD_and, BitVec.getLsbD_or] at hbi hci ⊢
  cases hbit : b.getLsbD i <;> cases hcit : c.getLsbD i <;> simp_all

theorem FixedField.bits_and_mask (field : FixedField w) :
    field.bits &&& field.mask = field.bits := by
  apply BitVec.eq_of_getLsbD_eq
  intro i hi
  rw [BitVec.getLsbD_and, FixedField.mask_getLsbD, FixedField.bits_getLsbD]
  by_cases hlen : i < field.start + field.len
  · cases decide (field.start ≤ i) <;> simp [hlen]
  · have hhigh : field.value.getLsbD (i - field.start) = false :=
      BitVec.getLsbD_of_ge _ _ (by omega)
    simp [hhigh]

namespace Pattern

theorem mask_and_eq_zero {field : FixedField w} {pattern : Pattern w}
    (h : ∀ g ∈ pattern, field.mask &&& g.mask = 0#w) : field.mask &&& pattern.mask = 0#w := by
  induction pattern with
  | nil => exact BitVec.and_zero
  | cons g rest ih =>
      rw [mask, BitVec.and_or_distrib_left, h g List.mem_cons_self,
        ih fun f hf => h f (List.mem_cons_of_mem g hf), BitVec.or_zero]

theorem bits_and_mask (pattern : Pattern w) : pattern.bits &&& pattern.mask = pattern.bits := by
  induction pattern with
  | nil => exact BitVec.and_zero
  | cons field rest ih => exact or_and_or_of_subset field.bits_and_mask ih

/-- Testing all the fields of a pattern is one masked comparison. -/
theorem holds_iff {pattern : Pattern w} (hdisjoint : pattern.Disjoint) (word : BitVec w) :
    pattern.Holds word ↔ word &&& pattern.mask = pattern.bits := by
  induction pattern with
  | nil => simp [Holds, mask, bits]
  | cons field rest ih =>
      obtain ⟨hfield, hrest⟩ := List.pairwise_cons.mp hdisjoint
      rw [mask, bits, and_or_eq_or_iff word (mask_and_eq_zero hfield) field.bits_and_mask
        (bits_and_mask rest), ← ih hrest, ← field.holds_iff]
      exact List.forall_mem_cons

end Pattern

/-- A comparison on fewer bits follows from one on more. -/
theorem and_eq_of_looser {m b m' b' word : BitVec w} (h : word &&& m = b)
    (hmask : m &&& m' = m') (hbits : b &&& m' = b') : word &&& m' = b' := by
  rw [← hbits, ← h, BitVec.and_assoc, hmask]

section Table

variable {ι : Type} (mask bits : ι → BitVec w)

/-- Two entries that disagree on a bit both of them test. -/
def Apart (e f : ι) : Prop := (bits e ^^^ bits f) &&& (mask e &&& mask f) ≠ 0#w

instance (e f : ι) : Decidable (Apart mask bits e f) := inferInstanceAs (Decidable (_ ≠ _))

def hits (word : BitVec w) (entry : ι) : Bool := word &&& mask entry == bits entry

variable {mask bits}

/-- No word hits two entries that are apart. -/
theorem Apart.not_hits {e f : ι} (h : Apart mask bits e f) {word : BitVec w}
    (he : hits mask bits word e = true) : hits mask bits word f = false := by
  by_contra hf
  have hbe : word &&& mask e = bits e := by simpa [hits] using he
  have hbf : word &&& mask f = bits f := by simpa [hits] using hf
  apply h
  rw [← hbe, ← hbf]
  apply BitVec.eq_of_getLsbD_eq
  intro i hi
  simp only [BitVec.getLsbD_and, BitVec.getLsbD_xor, BitVec.getLsbD_zero]
  cases word.getLsbD i <;> cases (mask e).getLsbD i <;> cases (mask f).getLsbD i <;> rfl

/-- In a table whose entries are pairwise apart, the search ends at the one
entry that the word hits. -/
theorem find?_eq_some_of_hits {table : List ι} (hapart : table.Pairwise (Apart mask bits))
    {word : BitVec w} {entry : ι} (hentry : entry ∈ table)
    (hhits : hits mask bits word entry = true) :
    table.find? (hits mask bits word) = some entry := by
  induction table with
  | nil => cases hentry
  | cons first rest ih =>
      obtain ⟨hfirst, hrest⟩ := List.pairwise_cons.mp hapart
      cases hentry with
      | head => exact List.find?_cons_of_pos hhits
      | tail _ hmem =>
          have hnot : hits mask bits word first ≠ true := by
            intro hcontra
            have hother := (hfirst entry hmem).not_hits hcontra
            rw [hhits] at hother
            cases hother
          rw [List.find?_cons_of_neg hnot]
          exact ih hrest hmem

/-- No word hits two entries of such a table. -/
theorem countP_hits_le_one {table : List ι} (hapart : table.Pairwise (Apart mask bits))
    (word : BitVec w) : table.countP (hits mask bits word) ≤ 1 := by
  induction table with
  | nil => exact Nat.zero_le 1
  | cons first rest ih =>
      obtain ⟨hfirst, hrest⟩ := List.pairwise_cons.mp hapart
      cases hhits : hits mask bits word first with
      | false =>
          rw [List.countP_cons_of_neg (by rw [hhits]; decide)]
          exact ih hrest
      | true =>
          have hnone : rest.countP (hits mask bits word) = 0 := by
            rw [List.countP_eq_zero]
            intro entry hentry
            rw [(hfirst entry hentry).not_hits hhits]
            decide
          have hcount : (first :: rest).countP (hits mask bits word) = 1 := by
            rw [List.countP_cons_of_pos hhits, hnone]
          exact Nat.le_of_eq hcount

/-- The search in such a table does not depend on the order of the entries. -/
theorem find?_perm {table table' : List ι} (hapart : table.Pairwise (Apart mask bits))
    (hperm : table'.Perm table) (word : BitVec w) :
    table'.find? (hits mask bits word) = table.find? (hits mask bits word) := by
  cases hfind : table'.find? (hits mask bits word) with
  | none =>
      have hnone : ∀ entry ∈ table, ¬ hits mask bits word entry = true := by
        intro entry hentry
        exact List.find?_eq_none.mp hfind entry (hperm.mem_iff.mpr hentry)
      exact (List.find?_eq_none.mpr hnone).symm
  | some entry =>
      have hentry : entry ∈ table := hperm.mem_iff.mp (List.mem_of_find?_eq_some hfind)
      exact (find?_eq_some_of_hits hapart hentry (List.find?_some hfind)).symm

end Table

end MaskMatch
