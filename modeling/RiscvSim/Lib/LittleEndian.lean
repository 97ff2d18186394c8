import Mathlib.Data.List.GetD
import Mathlib.Tactic.Ring

/-!
Little-endian byte strings of fixed-width words. A word is rebuilt from its
bytes by a recursion on the byte list, so a short list is padded by zeros and
a long one is cut at the width.
-/

namespace LittleEndian

abbrev Byte := BitVec 8

/-- The word whose least significant byte comes first in the list. -/
def toWord (w : Nat) : List Byte → BitVec w
  | [] => 0
  | byte :: rest => byte.setWidth w ||| (toWord w rest <<< 8)

/-- The first `n` bytes of a word, least significant first. -/
def toBytes {w : Nat} (n : Nat) (word : BitVec w) : List Byte :=
  (List.range n).map fun k => word.extractLsb' (8 * k) 8

@[simp] theorem toBytes_length {w : Nat} (n : Nat) (word : BitVec w) :
    (toBytes n word).length = n := by
  simp [toBytes]

theorem toBytes_getElem? {w n k : Nat} (word : BitVec w) (hk : k < n) :
    (toBytes n word)[k]? = some (word.extractLsb' (8 * k) 8) := by
  simp [toBytes, hk]

/-- The low bytes of a word do not depend on the rest of it. -/
theorem toBytes_setWidth {w v n : Nat} (word : BitVec w) (hn : 8 * n ≤ v) :
    toBytes n (word.setWidth v) = toBytes n word := by
  apply List.map_congr_left
  intro k hk
  have hkn : k < n := List.mem_range.mp hk
  apply BitVec.eq_of_getLsbD_eq
  intro i hi
  rw [BitVec.getLsbD_extractLsb', BitVec.getLsbD_extractLsb', BitVec.getLsbD_setWidth]
  have hin : 8 * k + i < v := by omega
  simp [hin]

theorem toWord_getLsbD (w : Nat) (bytes : List Byte) (i : Nat) :
    (toWord w bytes).getLsbD i =
      (decide (i < w) && (bytes.getD (i / 8) 0).getLsbD (i % 8)) := by
  induction bytes generalizing i with
  | nil => simp [toWord]
  | cons byte rest ih =>
      simp only [toWord, BitVec.getLsbD_or, BitVec.getLsbD_setWidth,
        BitVec.getLsbD_shiftLeft, ih]
      by_cases hfirst : i < 8
      · have hdiv : i / 8 = 0 := Nat.div_eq_of_lt hfirst
        have hmod : i % 8 = i := Nat.mod_eq_of_lt hfirst
        simp [hfirst, hdiv, hmod]
      · have hdiv : i / 8 = (i - 8) / 8 + 1 := by omega
        have hmod : i % 8 = (i - 8) % 8 := by omega
        have hhigh : byte.getLsbD i = false := BitVec.getLsbD_of_ge byte i (by omega)
        rw [hdiv, hmod, List.getD_cons_succ, hhigh]
        by_cases hw : i < w
        · simp [hw, hfirst, show i - 8 < w by omega]
        · simp [hw]

/-- Reading byte `k` back out of a rebuilt word. -/
theorem toWord_byte {w k : Nat} (bytes : List Byte) (hk : 8 * k + 8 ≤ w) :
    (toWord w bytes).extractLsb' (8 * k) 8 = bytes.getD k 0 := by
  apply BitVec.eq_of_getLsbD_eq
  intro i hi
  have hdiv : (8 * k + i) / 8 = k := by omega
  have hmod : (8 * k + i) % 8 = i := by omega
  rw [BitVec.getLsbD_extractLsb', toWord_getLsbD, hdiv, hmod]
  simp [hi, show 8 * k + i < w by omega]

/-- Splitting a word into all its bytes and rebuilding it is the identity. -/
theorem toWord_toBytes {w n : Nat} (word : BitVec w) (hw : w ≤ 8 * n) :
    toWord w (toBytes n word) = word := by
  apply BitVec.eq_of_getLsbD_eq
  intro i hi
  have hindex : 8 * (i / 8) + i % 8 = i := by omega
  have hk : i / 8 < n := by omega
  have hlt : i % 8 < 8 := by omega
  rw [toWord_getLsbD, List.getD_eq_getElem?_getD, toBytes_getElem? word hk]
  simp [hi, hindex, hlt]

end LittleEndian
