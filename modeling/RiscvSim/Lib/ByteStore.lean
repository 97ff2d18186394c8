import RiscvSim.Lib.LittleEndian

/-!
Partial byte memories over `w`-bit addresses. A range of addresses may wrap
around the top of the address space, so membership is the size of the modular
distance from the first address.
-/

namespace ByteStore

open LittleEndian

/-- `none` is an address that holds no byte. -/
abbrev Store (w : Nat) := BitVec w → Option Byte

variable {w : Nat}

/-- `x` is one of the `n` addresses from `a` on. -/
def Covers (a : BitVec w) (n : Nat) (x : BitVec w) : Prop := (x - a).toNat < n

instance (a : BitVec w) (n : Nat) (x : BitVec w) : Decidable (Covers a n x) :=
  inferInstanceAs (Decidable (_ < _))

/-- Replaces the bytes at `a`, `a + 1`, and so on. -/
def write (m : Store w) (a : BitVec w) (bytes : List Byte) : Store w := fun x =>
  if Covers a bytes.length x then bytes[(x - a).toNat]? else m x

/-- The `n` bytes from `a` on, if all of them are there. -/
def read (m : Store w) : BitVec w → Nat → Option (List Byte)
  | _, 0 => some []
  | a, n + 1 => do
      let byte ← m a
      let rest ← read m (a + 1) n
      pure (byte :: rest)

theorem sub_add_ofNat (a : BitVec w) {k : Nat} (hk : k < 2 ^ w) :
    (a + BitVec.ofNat w k - a).toNat = k := by
  rw [BitVec.add_comm, BitVec.add_sub_cancel, BitVec.toNat_ofNat, Nat.mod_eq_of_lt hk]

theorem covers_iff {a x : BitVec w} {n : Nat} (hn : n ≤ 2 ^ w) :
    Covers a n x ↔ ∃ k < n, x = a + BitVec.ofNat w k := by
  constructor
  · intro h
    refine ⟨(x - a).toNat, h, ?_⟩
    rw [BitVec.ofNat_toNat, BitVec.setWidth_eq, BitVec.add_comm, BitVec.sub_add_cancel]
  · rintro ⟨k, hk, rfl⟩
    unfold Covers
    rw [sub_add_ofNat a (by omega)]
    exact hk

theorem write_apply (m : Store w) (a : BitVec w) (bytes : List Byte) {k : Nat}
    (hk : k < bytes.length) (hw : bytes.length ≤ 2 ^ w) :
    write m a bytes (a + BitVec.ofNat w k) = bytes[k]? := by
  have hcovers : Covers a bytes.length (a + BitVec.ofNat w k) :=
    (covers_iff hw).mpr ⟨k, hk, rfl⟩
  rw [write, if_pos hcovers, sub_add_ofNat a (by omega)]

theorem write_frame (m : Store w) (a : BitVec w) (bytes : List Byte) {x : BitVec w}
    (hx : ¬ Covers a bytes.length x) : write m a bytes x = m x :=
  if_neg hx

@[simp] theorem write_nil (m : Store w) (a : BitVec w) : write m a [] = m := by
  funext x
  exact write_frame m a [] (by simp [Covers])

/-- One more byte behind a written range. -/
theorem write_snoc (m : Store w) (a : BitVec w) (bytes : List Byte) (byte : Byte)
    (hw : bytes.length < 2 ^ w) :
    write (write m a bytes) (a + BitVec.ofNat w bytes.length) [byte] =
      write m a (bytes ++ [byte]) := by
  funext x
  have hend : (bytes ++ [byte]).length = bytes.length + 1 := by simp
  by_cases hcovers : Covers a (bytes.length + 1) x
  · obtain ⟨k, hk, rfl⟩ := (covers_iff (by omega)).mp hcovers
    rw [write_apply m a (bytes ++ [byte]) (by omega) (by omega)]
    by_cases hlast : k = bytes.length
    · subst hlast
      have hzero := write_apply (write m a bytes) (a + BitVec.ofNat w bytes.length) [byte]
        (by simp : 0 < [byte].length) (by simpa using Nat.one_le_two_pow)
      simpa using hzero
    · have hnot : ¬ Covers (a + BitVec.ofNat w bytes.length) [byte].length
          (a + BitVec.ofNat w k) := by
        rw [covers_iff (by simpa using Nat.one_le_two_pow)]
        rintro ⟨j, hj, heq⟩
        obtain rfl : j = 0 := by simpa using hj
        have hdist := congrArg (fun y => (y - a).toNat) heq
        simp only [BitVec.add_zero] at hdist
        rw [sub_add_ofNat a (by omega), sub_add_ofNat a hw] at hdist
        exact hlast hdist
      rw [write_frame _ _ _ hnot, write_apply m a bytes (by omega) (by omega),
        List.getElem?_append_left (by omega)]
  · have hnot : ¬ Covers a bytes.length x := by
      unfold Covers at hcovers ⊢
      omega
    have hlast : ¬ Covers (a + BitVec.ofNat w bytes.length) [byte].length x := by
      rw [covers_iff (by simpa using Nat.one_le_two_pow)]
      rintro ⟨j, hj, rfl⟩
      obtain rfl : j = 0 := by simpa using hj
      apply hcovers
      exact (covers_iff (by omega)).mpr ⟨bytes.length, by omega, by simp⟩
    rw [write_frame _ _ _ hlast, write_frame m a bytes hnot,
      write_frame m a (bytes ++ [byte]) (by rwa [hend])]

theorem read_succ_eq_some_iff (m : Store w) (a : BitVec w) (n : Nat) (bytes : List Byte) :
    read m a (n + 1) = some bytes ↔
      ∃ byte rest, m a = some byte ∧ read m (a + 1) n = some rest ∧ bytes = byte :: rest := by
  change ((m a).bind fun byte => (read m (a + 1) n).bind fun rest => some (byte :: rest)) = _ ↔ _
  simp only [Option.bind_eq_some_iff, Option.some.injEq]
  constructor
  · rintro ⟨byte, hbyte, rest, hrest, rfl⟩
    exact ⟨byte, rest, hbyte, hrest, rfl⟩
  · rintro ⟨byte, rest, hbyte, hrest, rfl⟩
    exact ⟨byte, hbyte, rest, hrest, rfl⟩

theorem read_eq_some_iff (m : Store w) (a : BitVec w) (n : Nat) (bytes : List Byte) :
    read m a n = some bytes ↔
      bytes.length = n ∧ ∀ k < n, m (a + BitVec.ofNat w k) = bytes[k]? := by
  induction n generalizing a bytes with
  | zero =>
      simp only [read, Option.some.injEq, Nat.not_lt_zero, false_implies,
        implies_true, and_true]
      rw [List.length_eq_zero_iff, eq_comm]
  | succ n ih =>
      have hshift (k : Nat) :
          a + BitVec.ofNat w (k + 1) = a + 1 + BitVec.ofNat w k := by
        rw [Nat.add_comm k 1, BitVec.ofNat_add, ← BitVec.add_assoc]
        rfl
      cases bytes with
      | nil => simp [read_succ_eq_some_iff]
      | cons byte rest =>
          have hsplit : (∀ k < n + 1, m (a + BitVec.ofNat w k) = (byte :: rest)[k]?) ↔
              m a = some byte ∧ ∀ k < n, m (a + 1 + BitVec.ofNat w k) = rest[k]? := by
            constructor
            · intro h
              refine ⟨by simpa using h 0 (by omega), fun k hk => ?_⟩
              rw [← hshift, h (k + 1) (by omega), List.getElem?_cons_succ]
            · rintro ⟨hhead, htail⟩ k hk
              cases k with
              | zero => simpa using hhead
              | succ k => rw [hshift, htail k (by omega), List.getElem?_cons_succ]
          rw [hsplit, read_succ_eq_some_iff, List.length_cons, Nat.add_right_cancel_iff]
          constructor
          · rintro ⟨b, bs, hb, hbs, hcons⟩
            obtain ⟨rfl, rfl⟩ := List.cons.inj hcons
            obtain ⟨hlen, hrest⟩ := (ih (a + 1) rest).mp hbs
            exact ⟨hlen, hb, hrest⟩
          · rintro ⟨hlen, hb, hrest⟩
            exact ⟨byte, rest, hb, (ih (a + 1) rest).mpr ⟨hlen, hrest⟩, rfl⟩

theorem read_eq_some_of_apply {m : Store w} {a : BitVec w} {bytes : List Byte}
    (h : ∀ k < bytes.length, m (a + BitVec.ofNat w k) = bytes[k]?) :
    read m a bytes.length = some bytes :=
  (read_eq_some_iff m a _ bytes).mpr ⟨rfl, h⟩

theorem read_write_same (m : Store w) (a : BitVec w) (bytes : List Byte)
    (hw : bytes.length ≤ 2 ^ w) : read (write m a bytes) a bytes.length = some bytes :=
  read_eq_some_of_apply fun _ hk => write_apply m a bytes hk hw

/-- What is read depends on the addresses of the range only. -/
theorem read_of_agree {m m' : Store w} {a : BitVec w} {n : Nat} (hn : n ≤ 2 ^ w)
    {bytes : List Byte} (hread : read m a n = some bytes)
    (hagree : ∀ x, Covers a n x → m' x = m x) : read m' a n = some bytes := by
  obtain ⟨rfl, hbytes⟩ := (read_eq_some_iff m a n bytes).mp hread
  refine read_eq_some_of_apply fun k hk => ?_
  rw [hagree _ ((covers_iff hn).mpr ⟨k, hk, rfl⟩), hbytes k hk]

/-- One store of a byte string, as data. -/
structure Write (w : Nat) where
  address : BitVec w
  bytes : List Byte

/-- The byte this store leaves at `x`, if it covers `x`. -/
def Write.byteAt? (s : Write w) (x : BitVec w) : Option Byte :=
  if Covers s.address s.bytes.length x then s.bytes[(x - s.address).toNat]? else none

/-- The stores in order, the first of the list first. -/
def writeAll (m : Store w) (stores : List (Write w)) : Store w :=
  stores.foldl (fun m s => write m s.address s.bytes) m

/-- The byte of the last store that covers `x`. -/
def lastByte? (stores : List (Write w)) (x : BitVec w) : Option Byte :=
  stores.reverse.findSome? (·.byteAt? x)

theorem lastByte?_cons (s : Write w) (rest : List (Write w)) (x : BitVec w) :
    lastByte? (s :: rest) x = (lastByte? rest x).or (s.byteAt? x) := by
  simp [lastByte?]

theorem write_eq_or (m : Store w) (s : Write w) (x : BitVec w) :
    write m s.address s.bytes x = (s.byteAt? x).or (m x) := by
  unfold write Write.byteAt?
  split
  · rename_i h
    have hlt : (x - s.address).toNat < s.bytes.length := h
    rw [List.getElem?_eq_getElem hlt, Option.some_or]
  · rw [Option.none_or]

/-- After any sequence of stores each address holds the byte of the last
store that covers it, and its old contents where none does. -/
theorem writeAll_apply (m : Store w) (stores : List (Write w)) (x : BitVec w) :
    writeAll m stores x = (lastByte? stores x).or (m x) := by
  induction stores generalizing m with
  | nil => rfl
  | cons s rest ih =>
      change writeAll (write m s.address s.bytes) rest x = _
      rw [ih, write_eq_or, lastByte?_cons, Option.or_assoc]

end ByteStore
