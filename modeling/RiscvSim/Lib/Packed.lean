import Mathlib.Data.List.Basic

/-!
Records of varying length packed one behind the other. Record `i` starts where
the ones before it end, its elements are found from there on, and every position
of the packed list belongs to exactly one record.
-/

namespace Packed

variable {α β : Type} (record : α → List β)

/-- Where record `i` starts. -/
def offset (xs : List α) (i : Nat) : Nat := ((xs.take i).flatMap record).length

@[simp] theorem offset_zero (xs : List α) : offset record xs 0 = 0 := rfl

theorem offset_cons_succ (x : α) (xs : List α) (i : Nat) :
    offset record (x :: xs) (i + 1) = (record x).length + offset record xs i := by
  simp [offset]

theorem offset_succ (xs : List α) {i : Nat} (hi : i < xs.length) :
    offset record xs (i + 1) = offset record xs i + (record xs[i]).length := by
  unfold offset
  rw [List.take_add_one, List.getElem?_eq_getElem hi, List.flatMap_append, List.length_append]
  rw [Option.toList_some, List.flatMap_singleton]

/-- The packed list around record `i`. -/
theorem flatMap_split (xs : List α) {i : Nat} (hi : i < xs.length) :
    xs.flatMap record =
      (xs.take i).flatMap record ++ (record xs[i] ++ (xs.drop (i + 1)).flatMap record) := by
  conv_lhs => rw [← List.take_append_drop i xs, List.drop_eq_getElem_cons hi]
  rw [List.flatMap_append, List.flatMap_cons]

theorem drop_take_record (xs : List α) {i : Nat} (hi : i < xs.length) :
    ((xs.flatMap record).drop (offset record xs i)).take (record xs[i]).length =
      record xs[i] := by
  rw [flatMap_split record xs hi, offset, List.drop_left, List.take_left]

theorem getElem?_record (xs : List α) {i : Nat} (hi : i < xs.length) {k : Nat}
    (hk : k < (record xs[i]).length) :
    (xs.flatMap record)[offset record xs i + k]? = (record xs[i])[k]? := by
  rw [flatMap_split record xs hi, offset, List.getElem?_append_right (by omega),
    Nat.add_sub_cancel_left, List.getElem?_append_left hk]

theorem offset_add_le (xs : List α) {i : Nat} (hi : i < xs.length) :
    offset record xs i + (record xs[i]).length ≤ (xs.flatMap record).length := by
  rw [flatMap_split record xs hi, List.length_append, List.length_append, offset]
  omega

/-- Every position belongs to exactly one record. -/
theorem existsUnique_record (xs : List α) {pos : Nat}
    (hpos : pos < (xs.flatMap record).length) :
    ∃! i, ∃ hi : i < xs.length,
      offset record xs i ≤ pos ∧ pos < offset record xs i + (record xs[i]).length := by
  induction xs generalizing pos with
  | nil => simp at hpos
  | cons x rest ih =>
      rw [List.flatMap_cons, List.length_append] at hpos
      by_cases hfirst : pos < (record x).length
      · refine ⟨0, ⟨by simp, by simp, by simpa using hfirst⟩, ?_⟩
        rintro i ⟨hi, hlow, hhigh⟩
        cases i with
        | zero => rfl
        | succ i =>
            rw [offset_cons_succ] at hlow
            omega
      · obtain ⟨i, ⟨hi, hlow, hhigh⟩, hunique⟩ :=
          ih (by omega : pos - (record x).length < (rest.flatMap record).length)
        refine ⟨i + 1, ⟨by simpa using hi, ?_, ?_⟩, ?_⟩
        · rw [offset_cons_succ]
          omega
        · rw [offset_cons_succ, List.getElem_cons_succ]
          omega
        · rintro j ⟨hj, hjlow, hjhigh⟩
          cases j with
          | zero =>
              rw [offset_zero, List.getElem_cons_zero] at hjhigh
              omega
          | succ j =>
              rw [offset_cons_succ] at hjlow hjhigh
              rw [List.getElem_cons_succ] at hjhigh
              have hji := hunique j ⟨by simpa using hj, by omega, by omega⟩
              rw [hji]

/-- Where all records have one length. -/
theorem offset_of_const (xs : List α) {len : Nat} (hlen : ∀ x, (record x).length = len)
    {i : Nat} (hi : i ≤ xs.length) : offset record xs i = len * i := by
  induction i with
  | zero => simp
  | succ i ih =>
      rw [offset_succ record xs (by omega), ih (by omega), hlen, Nat.mul_succ]

theorem length_of_const (xs : List α) {len : Nat} (hlen : ∀ x, (record x).length = len) :
    (xs.flatMap record).length = len * xs.length := by
  have hall := offset_of_const record xs hlen (Nat.le_refl xs.length)
  rwa [offset, List.take_length] at hall

end Packed
