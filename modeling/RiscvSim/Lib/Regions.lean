import Mathlib.Data.BitVec
import Mathlib.Tactic.Ring
import RiscvSim.Lib.ByteStore

/-!
Regions of a byte memory. What a piece of a program may change is a region, and
the changes of pieces that run one behind the other add up; the region of a
stack is measured from its top down.
-/

namespace ByteStore

variable {w : Nat} {region region' : BitVec w → Prop} {m m' m'' : Store w}

/-- A range of which all bytes are there can be read. -/
theorem exists_read {a : BitVec w} {n : Nat} (hn : n ≤ 2 ^ w)
    (hpresent : ∀ x, Covers a n x → (m x).isSome) : ∃ bytes, ByteStore.read m a n = some bytes := by
  have hbytes (k : Nat) (hk : k < n) : ∃ byte, m (a + BitVec.ofNat w k) = some byte :=
    Option.isSome_iff_exists.mp (hpresent _ ((covers_iff hn).mpr ⟨k, hk, rfl⟩))
  choose! byte hbyte using hbytes
  have hlength : ((List.range n).map byte).length = n := by simp
  refine ⟨(List.range n).map byte, (read_eq_some_iff m a n _).mpr ⟨hlength, fun k hk => ?_⟩⟩
  rw [hbyte k hk, List.getElem?_map, List.getElem?_range hk]
  rfl

/-- Nothing outside the region changes, and no byte goes away. -/
structure ChangesOnly (region : BitVec w → Prop) (m m' : Store w) : Prop where
  outside : ∀ x, ¬ region x → m' x = m x
  present : ∀ x, (m x).isSome → (m' x).isSome

namespace ChangesOnly

theorem refl (region : BitVec w → Prop) (m : Store w) : ChangesOnly region m m :=
  ⟨fun _ _ => rfl, fun _ h => h⟩

theorem trans (h : ChangesOnly region m m') (h' : ChangesOnly region m' m'') :
    ChangesOnly region m m'' where
  outside x hx := (h'.outside x hx).trans (h.outside x hx)
  present x hx := h'.present x (h.present x hx)

theorem mono (h : ChangesOnly region m m') (hsub : ∀ x, region x → region' x) :
    ChangesOnly region' m m' where
  outside x hx := h.outside x fun hin => hx (hsub x hin)
  present := h.present

/-- A range of the region is written. -/
theorem of_write (m : Store w) {a : BitVec w} {bytes : List LittleEndian.Byte} {n : Nat}
    (hlength : bytes.length = n) (hsub : ∀ x, Covers a n x → region x) :
    ChangesOnly region m (ByteStore.write m a bytes) where
  outside x hx := write_frame m a bytes fun hin => hx (hsub x (hlength ▸ hin))
  present x hx := by
    unfold ByteStore.write
    split
    · rename_i hin
      rw [List.getElem?_eq_getElem hin]
      rfl
    · exact hx

/-- A range apart from the region is read as before. -/
theorem read (h : ChangesOnly region m m') {a : BitVec w} {n : Nat} (hn : n ≤ 2 ^ w)
    {bytes : List LittleEndian.Byte} (hread : read m a n = some bytes)
    (hapart : ∀ x, Covers a n x → ¬ region x) : ByteStore.read m' a n = some bytes :=
  read_of_agree hn hread fun x hx => h.outside x (hapart x hx)

end ChangesOnly

section Stack

/-- The number of bytes between the address and the top of a stack. -/
def depth (top x : BitVec w) : Nat := (top - 1 - x).toNat

/-- `x` is one of the `n` addresses below the top. -/
def Below (top : BitVec w) (n : Nat) (x : BitVec w) : Prop := depth top x < n

variable {top x : BitVec w} {k n : Nat}

theorem depth_sub (h : depth (top - BitVec.ofNat w k) x < n) (hn : k + n ≤ 2 ^ w) :
    depth top x = k + depth (top - BitVec.ofNat w k) x := by
  have hsplit : top - 1 - x = BitVec.ofNat w k + (top - BitVec.ofNat w k - 1 - x) := by
    ring
  unfold depth at h ⊢
  rw [hsplit, BitVec.toNat_add, BitVec.toNat_ofNat, Nat.mod_eq_of_lt (a := k) (by omega),
    Nat.mod_eq_of_lt (by omega)]

/-- The bytes of a slot of a frame. -/
theorem depth_of_covers (h : Covers (top - BitVec.ofNat w k) n x) (hn : n ≤ k) (hk : k ≤ 2 ^ w) :
    k - n ≤ depth top x ∧ depth top x < k := by
  obtain ⟨i, hi, rfl⟩ := (covers_iff (by omega)).mp h
  have hrest : top - 1 - (top - BitVec.ofNat w k + BitVec.ofNat w i) =
      BitVec.ofNat w (k - 1 - i) := by
    have hsum : BitVec.ofNat w k = BitVec.ofNat w (k - 1 - i) + BitVec.ofNat w i + 1 := by
      have hk' : k = k - 1 - i + i + 1 := by omega
      conv_lhs => rw [hk']
      rw [BitVec.ofNat_add, BitVec.ofNat_add]
      rfl
    rw [hsum]
    ring
  rw [depth, hrest, BitVec.toNat_ofNat, Nat.mod_eq_of_lt (by omega)]
  omega

end Stack

end ByteStore
