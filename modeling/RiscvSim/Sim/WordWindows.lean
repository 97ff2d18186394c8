import Mathlib.Data.List.Pairwise
import RiscvSim.Sim.MemoryAccess

/-!
Memories in which no two segments touch. There every access whose bytes are all
present is served by one segment, so a condition on the segment table takes the
place of a condition on each access.
-/

namespace RiscvSim

open ByteStore LittleEndian

/-- Between two segments there is at least one address of neither. -/
def Memory.Apart (mem : Memory) : Prop :=
  mem.memory.Pairwise fun s t => s.endAddr < t.startAddr ∨ t.endAddr < s.startAddr

instance (mem : Memory) : Decidable mem.Apart :=
  inferInstanceAs (Decidable (List.Pairwise _ _))

theorem Memory.Apart.disjoint {mem : Memory} (h : mem.Apart) : mem.Disjoint := by
  refine List.Pairwise.imp ?_ h
  rintro s t hapart addr ⟨hs, ht⟩
  have hs' := (isAddrInSegment_iff addr s).mp hs
  have ht' := (isAddrInSegment_iff addr t).mp ht
  simp only [BitVec.lt_def] at hapart
  omega

theorem Memory.Apart.of_layout {mem mem' : Memory} (hapart : mem.Apart)
    (h : mem'.layout = mem.layout) : mem'.Apart := by
  have hbylayout (m : Memory) : m.Apart ↔
      m.layout.Pairwise fun s t => s.endAddr < t.startAddr ∨ t.endAddr < s.startAddr := by
    unfold Memory.Apart Memory.layout
    rw [List.pairwise_map]
    rfl
  rw [hbylayout, h, ← hbylayout]
  exact hapart

/-- In a table without overlaps the segment of an address has no other before it. -/
theorem Memory.Disjoint.split {mem : Memory} (hdisjoint : mem.Disjoint) {addr : Address}
    {segm : MemorySegm} (hsegm : segm ∈ mem.memory) (hin : isAddrInSegment addr segm = true) :
    ∃ pre post, mem.memory = pre ++ segm :: post ∧
      ∀ s ∈ pre, isAddrInSegment addr s = false := by
  obtain ⟨pre, post, hsplit⟩ := List.append_of_mem hsegm
  refine ⟨pre, post, hsplit, ?_⟩
  intro s hs
  have hpairs := hdisjoint
  unfold Memory.Disjoint at hpairs
  rw [hsplit, List.pairwise_append] at hpairs
  have hapart := hpairs.2.2 s hs segm List.mem_cons_self addr
  by_contra hother
  exact hapart ⟨by simpa using hother, hin⟩

/-- Two segments that share an address are one. -/
theorem Memory.Disjoint.eq_of_shared {mem : Memory} (hdisjoint : mem.Disjoint)
    {s t : MemorySegm} (hs : s ∈ mem.memory) (ht : t ∈ mem.memory) {addr : Address}
    (hsaddr : isAddrInSegment addr s = true) (htaddr : isAddrInSegment addr t = true) :
    t = s := by
  by_contra hne
  have hsymm : Std.Symm fun s t : MemorySegm =>
      ∀ addr, ¬ (isAddrInSegment addr s ∧ isAddrInSegment addr t) :=
    ⟨fun _ _ h addr hboth => h addr hboth.symm⟩
  exact List.Pairwise.forall hdisjoint hs ht (Ne.symm hne) addr ⟨hsaddr, htaddr⟩

/-- Two segments with neighbouring addresses are one. -/
theorem Memory.Apart.eq_of_next {mem : Memory} (hapart : mem.Apart) {s t : MemorySegm}
    (hs : s ∈ mem.memory) (ht : t ∈ mem.memory) {addr : Address}
    (haddr : isAddrInSegment addr s = true) (hnext : isAddrInSegment (addr + 1) t = true) :
    t = s := by
  by_contra hne
  have hsymm : Std.Symm fun s t : MemorySegm =>
      s.endAddr < t.startAddr ∨ t.endAddr < s.startAddr := ⟨fun _ _ h => h.symm⟩
  have hgap := List.Pairwise.forall hapart hs ht (Ne.symm hne)
  have hs' := (isAddrInSegment_iff addr s).mp haddr
  have ht' := (isAddrInSegment_iff (addr + 1) t).mp hnext
  have hend := s.endAddr.isLt
  have hone : (addr + 1).toNat = addr.toNat + 1 := by
    rw [BitVec.toNat_add]
    exact Nat.mod_eq_of_lt (by simp; omega)
  simp only [BitVec.lt_def] at hgap
  omega

/-- The segment that serves a present byte. -/
theorem Memory.segment_of_byteAt {mem : Memory} {addr : Address} {byte : MemByte}
    (h : mem.byteAt addr = some byte) :
    ∃ segm ∈ mem.memory, isAddrInSegment addr segm = true ∧
      segm.data[segm.offset addr]? = some byte := by
  unfold Memory.byteAt at h
  obtain ⟨segm, hfind, hdata⟩ := Option.bind_eq_some_iff.mp h
  exact ⟨segm, List.mem_of_find?_eq_some hfind, by simpa using List.find?_some hfind, hdata⟩

section Window

variable {mem : Memory} {addr : Address} {n : Nat} {bytes : List MemByte}

theorem add_ofNat_succ (addr : Address) (k : Nat) :
    addr + BitVec.ofNat 32 (k + 1) = addr + BitVec.ofNat 32 k + 1 := by
  rw [BitVec.ofNat_add, BitVec.add_assoc]
  rfl

/-- All the bytes are in the segment of the first one, each with its data. -/
theorem Memory.Apart.inside_of_read (hapart : mem.Apart)
    (hread : read mem.byteAt addr n = some bytes) {segm : MemorySegm}
    (hsegm : segm ∈ mem.memory) (hfirst : isAddrInSegment addr segm = true) :
    ∀ k < n, isAddrInSegment (addr + BitVec.ofNat 32 k) segm = true := by
  obtain ⟨hlength, hbytes⟩ := (read_eq_some_iff _ _ _ _).mp hread
  intro k hk
  induction k with
  | zero => simpa using hfirst
  | succ k ih =>
      have hbefore := ih (by omega)
      have hbyte := hbytes (k + 1) hk
      rw [List.getElem?_eq_getElem (by omega)] at hbyte
      obtain ⟨segm', hsegm', hin', _⟩ := Memory.segment_of_byteAt hbyte
      rw [add_ofNat_succ] at hin' ⊢
      rw [hapart.eq_of_next hsegm hsegm' hbefore hin'] at hin'
      exact hin'

/-- Addresses that follow each other inside a segment have offsets that do. -/
theorem MemorySegm.offset_of_inside {segm : MemorySegm}
    (hinside : ∀ k < n, isAddrInSegment (addr + BitVec.ofNat 32 k) segm = true) :
    ∀ k < n, segm.offset (addr + BitVec.ofNat 32 k) = segm.offset addr + k := by
  intro k hk
  induction k with
  | zero => simp
  | succ k ih =>
      have hlow := (isAddrInSegment_iff _ _).mp (hinside k (by omega))
      have hbefore := ih (by omega)
      have hend := segm.endAddr.isLt
      rw [add_ofNat_succ]
      generalize addr + BitVec.ofNat 32 k = last at hlow hbefore ⊢
      unfold MemorySegm.offset at hbefore ⊢
      rw [BitVec.toNat_sub_of_le (by rw [BitVec.le_def]; omega)] at hbefore
      have hone : (last + 1).toNat = last.toNat + 1 := by
        rw [BitVec.toNat_add]
        exact Nat.mod_eq_of_lt (by simp; omega)
      rw [BitVec.toNat_sub_of_le (by rw [BitVec.le_def]; omega), hone]
      omega

/-- An access whose bytes are all present is served by one segment. -/
theorem window_of_read (hapart : mem.Apart) (hread : read mem.byteAt addr n = some bytes)
    (hn : 0 < n) : ∃ pre segm post, Window mem addr n pre segm post := by
  obtain ⟨hlength, hbytes⟩ := (read_eq_some_iff _ _ _ _).mp hread
  have hserved (k : Nat) (hk : k < n) : ∃ segm ∈ mem.memory,
      isAddrInSegment (addr + BitVec.ofNat 32 k) segm = true ∧
        segm.offset (addr + BitVec.ofNat 32 k) < segm.data.length := by
    have hbyte := hbytes k hk
    rw [List.getElem?_eq_getElem (by omega)] at hbyte
    obtain ⟨segm, hsegm, hin, hdata⟩ := Memory.segment_of_byteAt hbyte
    exact ⟨segm, hsegm, hin, (List.getElem?_eq_some_iff.mp hdata).1⟩
  obtain ⟨segm, hsegm, hfirst, _⟩ := hserved 0 hn
  rw [BitVec.add_zero] at hfirst
  have hinside := hapart.inside_of_read hread hsegm hfirst
  have hoffset := MemorySegm.offset_of_inside hinside
  obtain ⟨pre, post, hsplit, hpre⟩ := hapart.disjoint.split hsegm hfirst
  refine ⟨pre, segm, post, hsplit, ?_, hinside, hoffset, ?_⟩
  · intro k hk s hs
    by_contra hin
    have hmem : s ∈ mem.memory := by
      rw [hsplit]
      exact List.mem_append_left _ hs
    have heq := hapart.disjoint.eq_of_shared hmem hsegm (by simpa using hin) (hinside k hk)
    rw [heq, hpre s hs] at hfirst
    cases hfirst
  · obtain ⟨last, hlast, hin, hdata⟩ := hserved (n - 1) (by omega)
    have heq := hapart.disjoint.eq_of_shared hsegm hlast (hinside (n - 1) (by omega)) hin
    rw [heq, hoffset (n - 1) (by omega)] at hdata
    omega

end Window

end RiscvSim
