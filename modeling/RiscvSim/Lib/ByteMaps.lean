import RiscvSim.Lib.LittleEndian

/-!
Words as a whole number of bytes: a word is determined by its bytes, and the
operations that reverse them or change each of them by the same function are
those of the byte list.
-/

namespace LittleEndian

variable {w n : Nat}

/-- Byte `k` of a word, from the least significant one on. -/
def byte (word : BitVec w) (k : Nat) : Byte := word.extractLsb' (8 * k) 8

theorem getLsbD_byte (word : BitVec w) (k i : Nat) :
    (byte word k).getLsbD i = (decide (i < 8) && word.getLsbD (8 * k + i)) := by
  rw [byte, BitVec.getLsbD_extractLsb']

theorem byte_eq_shiftRight (word : BitVec w) (k : Nat) :
    byte word k = (word >>> (k * 8)).setWidth 8 := by
  apply BitVec.eq_of_getLsbD_eq
  intro i hi
  rw [getLsbD_byte, BitVec.getLsbD_setWidth, BitVec.getLsbD_ushiftRight, Nat.mul_comm]

/-- Words with the same bytes are equal. -/
theorem eq_of_byte_eq {word word' : BitVec w} (hw : w = 8 * n)
    (h : ∀ k < n, byte word k = byte word' k) : word = word' := by
  apply BitVec.eq_of_getLsbD_eq
  intro i hi
  have hk : i / 8 < n := by omega
  have hlt : i % 8 < 8 := Nat.mod_lt i (by omega)
  have hindex : 8 * (i / 8) + i % 8 = i := Nat.div_add_mod i 8
  have hbit := congrArg (·.getLsbD (i % 8)) (h (i / 8) hk)
  simpa only [getLsbD_byte, decide_eq_true hlt, Bool.true_and, hindex] using hbit

theorem toBytes_toWord {bytes : List Byte} (hlength : bytes.length = n) (hw : 8 * n ≤ w) :
    toBytes n (toWord w bytes) = bytes := by
  apply List.ext_getElem?
  intro k
  by_cases hk : k < n
  · have hlt : k < bytes.length := by omega
    rw [toBytes_getElem? _ hk, toWord_byte bytes (by omega), List.getElem?_eq_getElem hlt,
      List.getD_eq_getElem bytes 0 hlt]
  · rw [List.getElem?_eq_none (by rw [toBytes_length]; omega),
      List.getElem?_eq_none (by omega)]

theorem byte_toWord {bytes : List Byte} {k : Nat} (hk : k < bytes.length)
    (hw : 8 * bytes.length ≤ w) : byte (toWord w bytes) k = bytes[k] := by
  rw [byte, toWord_byte bytes (by omega), List.getD_eq_getElem bytes 0 hk]

/-- The bytes in the opposite order. -/
def reverseBytes (n : Nat) (word : BitVec w) : BitVec w := toWord w (toBytes n word).reverse

/-- Each byte changed by one function. -/
def mapBytes (n : Nat) (f : Byte → Byte) (word : BitVec w) : BitVec w :=
  toWord w ((toBytes n word).map f)

section Laws

variable (hw : w = 8 * n) (word : BitVec w)

include hw

theorem byte_reverseBytes {k : Nat} (hk : k < n) :
    byte (reverseBytes n word) k = byte word (n - 1 - k) := by
  have hlength : (toBytes n word).reverse.length = n := by
    rw [List.length_reverse, toBytes_length]
  rw [reverseBytes, byte_toWord (by omega) (by omega), List.getElem_reverse]
  simp [toBytes, byte]

theorem byte_mapBytes (f : Byte → Byte) {k : Nat} (hk : k < n) :
    byte (mapBytes n f word) k = f (byte word k) := by
  have hlength : ((toBytes n word).map f).length = n := by
    rw [List.length_map, toBytes_length]
  rw [mapBytes, byte_toWord (by omega) (by omega), List.getElem_map]
  simp [toBytes, byte]

theorem reverseBytes_reverseBytes : reverseBytes n (reverseBytes n word) = word := by
  have hlength : (toBytes n word).reverse.length = n := by
    rw [List.length_reverse, toBytes_length]
  rw [reverseBytes, reverseBytes, toBytes_toWord hlength (by omega), List.reverse_reverse,
    toWord_toBytes word (by omega)]

theorem mapBytes_mapBytes (f g : Byte → Byte) :
    mapBytes n f (mapBytes n g word) = mapBytes n (f ∘ g) word := by
  have hlength : ((toBytes n word).map g).length = n := by
    rw [List.length_map, toBytes_length]
  rw [mapBytes, mapBytes, toBytes_toWord hlength (by omega), List.map_map, mapBytes]

theorem mapBytes_reverseBytes (f : Byte → Byte) :
    mapBytes n f (reverseBytes n word) = reverseBytes n (mapBytes n f word) := by
  have hreverse : (toBytes n word).reverse.length = n := by
    rw [List.length_reverse, toBytes_length]
  have hmap : ((toBytes n word).map f).length = n := by
    rw [List.length_map, toBytes_length]
  rw [reverseBytes, mapBytes, toBytes_toWord hreverse (by omega), reverseBytes, mapBytes,
    toBytes_toWord hmap (by omega), List.map_reverse]

end Laws

end LittleEndian
