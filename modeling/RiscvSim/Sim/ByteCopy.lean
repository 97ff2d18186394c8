import Mathlib.Data.List.Induction
import RiscvSim.Sim.MemoryAccess

/-!
Byte accesses and the two byte loops of the system calls. A byte access needs no
assumption on the segment table: the first segment that contains the address
serves the whole access, so segments may overlap and a buffer may cross them.
-/

namespace RiscvSim

open ByteStore LittleEndian

namespace Memory

variable (build : Build) (mem : Memory)

/-- Some segment contains the address. -/
def isMapped (addr : Address) : Bool := mem.memory.any (isAddrInSegment addr)

theorem isMapped_eq_false_iff (addr : Address) :
    mem.isMapped addr = false ↔ ∀ segm ∈ mem.memory, isAddrInSegment addr segm = false := by
  simp [isMapped]

theorem isMapped_layout {mem mem' : Memory} (h : mem'.layout = mem.layout) (addr : Address) :
    mem'.isMapped addr = mem.isMapped addr := by
  have hbylayout (m : Memory) : m.isMapped addr =
      m.layout.any fun s => s.startAddr ≤ addr && addr < s.endAddr := by
    unfold isMapped layout
    rw [List.any_map]
    rfl
  rw [hbylayout, hbylayout, h]

/-- What a byte load returns, in terms of the byte memory alone. -/
theorem loadU8_eq (addr : Address) :
    mem.loadU8 build addr =
      match mem.byteAt addr with
      | some byte => .ok byte
      | none =>
          if mem.isMapped addr then .error .outOfBounds
          else (fun _ => 0) <$> build.assert false "no segment matched address" := by
  cases hfind : mem.memory.find? (isAddrInSegment addr) with
  | none =>
      have hnone : ∀ segm ∈ mem.memory, isAddrInSegment addr segm = false := by
        simpa using hfind
      have hbyte : mem.byteAt addr = none := by
        unfold byteAt
        rw [hfind]
        rfl
      rw [hbyte, (mem.isMapped_eq_false_iff addr).mpr hnone]
      exact loadFrom_none build 8 hnone
  | some segm =>
      obtain ⟨pre, post, hsplit, hfirst, hin⟩ := split_of_find? hfind
      have hbyte : mem.byteAt addr = segm.data[segm.offset addr]? := by
        unfold byteAt
        rw [hfind]
        rfl
      have hmapped : mem.isMapped addr = true :=
        List.any_eq_true.mpr ⟨segm, List.mem_of_find?_eq_some hfind, hin⟩
      rw [hbyte, hmapped, loadU8, hsplit,
        loadFrom_append build 8 hfirst hin]
      unfold memcpyFrom
      by_cases hbacked : segm.offset addr + 8 / 8 ≤ segm.data.length
      · have hlt : segm.offset addr < segm.data.length := by omega
        rw [if_pos hbacked, List.getElem?_eq_getElem hlt]
        have hone : (segm.data.drop (segm.offset addr)).take (8 / 8) =
            [segm.data[segm.offset addr]] := by
          rw [List.drop_eq_getElem_cons hlt]
          rfl
        rw [hone]
        simp [Functor.map, Except.map, toWord]
      · have hge : segm.data.length ≤ segm.offset addr := by omega
        rw [if_neg hbacked, List.getElem?_eq_none hge]
        rfl

theorem loadU8_of_byteAt {addr : Address} {byte : MemByte}
    (h : mem.byteAt addr = some byte) : mem.loadU8 build addr = .ok byte := by
  rw [loadU8_eq, h]

theorem loadU8_congr {mem mem' : Memory} (hlayout : mem'.layout = mem.layout) {addr : Address}
    (h : mem'.byteAt addr = mem.byteAt addr) :
    mem'.loadU8 build addr = mem.loadU8 build addr := by
  rw [loadU8_eq, loadU8_eq, h, isMapped_layout hlayout]

/-- A byte store to a mapped and backed address writes that byte only. -/
theorem storeU8_of_byteAt {addr : Address} (byte : MemByte)
    (h : (mem.byteAt addr).isSome) :
    ∃ mem', mem.storeU8 build addr byte = .ok mem' ∧
      mem'.byteAt = write mem.byteAt addr [byte] ∧ mem'.layout = mem.layout := by
  obtain ⟨old, hold⟩ := Option.isSome_iff_exists.mp h
  obtain ⟨pre, segm, post, win⟩ := window_of_byteAt hold
  obtain ⟨segms, hstore, hbytes, hlayout⟩ := Window.store (w := 8) win build byte (by decide)
  have hbyte : toBytes (8 / 8) byte = [byte] := by
    simp [toBytes]
  rw [hbyte] at hbytes
  refine ⟨⟨segms⟩, ?_, hbytes, hlayout⟩
  rw [storeU8, hstore]
  rfl

/-- Each of the `n` bytes from `addr` on is mapped and backed by data. -/
def Mapped (addr : Address) (n : Nat) : Prop :=
  ∀ i < n, (mem.byteAt (addr + BitVec.ofNat 32 i)).isSome

instance (addr : Address) (n : Nat) : Decidable (mem.Mapped addr n) :=
  inferInstanceAs (Decidable (∀ i < n, _))

/-- The bytes from `addr` on, as byte loads return them. -/
def Loads (addr : Address) (bytes : List MemByte) : Prop :=
  ∀ i (hi : i < bytes.length), mem.loadU8 build (addr + BitVec.ofNat 32 i) = .ok bytes[i]

/-- The bytes from `addr` on are there. -/
def HasBytes (addr : Address) (bytes : List MemByte) : Prop :=
  ∀ i (hi : i < bytes.length), mem.byteAt (addr + BitVec.ofNat 32 i) = some bytes[i]

variable {mem}

theorem Mapped.exists_loads {addr : Address} {n : Nat} (h : mem.Mapped addr n) :
    ∃ bytes, bytes.length = n ∧ mem.Loads build addr bytes := by
  have hbyte : ∀ i : Fin n, ∃ byte, mem.byteAt (addr + BitVec.ofNat 32 i) = some byte :=
    fun i => Option.isSome_iff_exists.mp (h i i.isLt)
  choose byteOf hbyteOf using hbyte
  refine ⟨List.ofFn byteOf, List.length_ofFn, ?_⟩
  intro i hi
  rw [List.getElem_ofFn]
  exact mem.loadU8_of_byteAt build (hbyteOf ⟨i, by simpa using hi⟩)

theorem HasBytes.mapped {addr : Address} {bytes : List MemByte} (h : mem.HasBytes addr bytes) :
    mem.Mapped addr bytes.length := by
  intro i hi
  rw [h i hi]
  rfl

theorem HasBytes.loads {addr : Address} {bytes : List MemByte} (h : mem.HasBytes addr bytes) :
    mem.Loads build addr bytes :=
  fun i hi => mem.loadU8_of_byteAt build (h i hi)

theorem hasBytes_of_write {old : Store 32} {addr : Address} {bytes : List MemByte}
    (hwrite : mem.byteAt = write old addr bytes) (hlength : bytes.length ≤ 2 ^ 32) :
    mem.HasBytes addr bytes := by
  intro i hi
  rw [hwrite, write_apply old addr bytes hi hlength, List.getElem?_eq_getElem hi]

/-- The write system call's loop reads the buffer byte by byte. -/
theorem Loads.copyGuestToHost {addr : Address} {bytes : List MemByte}
    (h : mem.Loads build addr bytes) :
    mem.copyGuestToHost build addr bytes.length = .ok bytes := by
  induction bytes using List.reverseRecOn with
  | nil => rfl
  | append_singleton bytes byte ih =>
      have hfront : mem.Loads build addr bytes := by
        intro i hi
        have hbyte := h i (by simp; omega)
        rwa [List.getElem_append_left hi] at hbyte
      have hlast := h bytes.length (by simp)
      rw [List.getElem_concat_length rfl] at hlast
      have hcopy := ih hfront
      unfold Memory.copyGuestToHost at hcopy ⊢
      rw [List.length_append, List.length_singleton, List.range_succ, List.mapM_append, hcopy]
      simp only [List.mapM_cons, List.mapM_nil, hlast]
      rfl

/-- The read system call's loop writes the first `n` bytes of the host buffer. -/
theorem copyHostToGuest_spec {addr : Address} {buf : List MemByte} {n : Nat}
    (h : mem.Mapped addr n) (hbuf : n ≤ buf.length) (hn : n ≤ 2 ^ 32) :
    ∃ mem', mem.copyHostToGuest build addr buf n = .ok mem' ∧
      mem'.byteAt = write mem.byteAt addr (buf.take n) ∧ mem'.layout = mem.layout := by
  induction n with
  | zero => exact ⟨mem, rfl, by simp, rfl⟩
  | succ n ih =>
      obtain ⟨mid, hcopy, hmid, hlayout⟩ := ih (fun i hi => h i (by omega)) (by omega) (by omega)
      have hlength : (buf.take n).length = n := by
        rw [List.length_take]
        omega
      have hbyte : buf[n]? = some buf[n] := List.getElem?_eq_getElem (by omega)
      -- the bytes written so far are others than the next one
      have hnext : (mid.byteAt (addr + BitVec.ofNat 32 n)).isSome := by
        rw [hmid, write_frame]
        · exact h n (by omega)
        · unfold Covers
          rw [sub_add_ofNat addr (by omega), hlength]
          omega
      obtain ⟨mem', hstore, hbytes, hlayout'⟩ := mid.storeU8_of_byteAt build buf[n] hnext
      refine ⟨mem', ?_, ?_, hlayout'.trans hlayout⟩
      · unfold copyHostToGuest at hcopy ⊢
        rw [List.range_succ, List.foldlM_append, hcopy]
        simp only [List.foldlM_cons, List.foldlM_nil, hbyte]
        change (mid.storeU8 build (addr + BitVec.ofNat 32 n) buf[n] >>= pure) = _
        rw [hstore]
        rfl
      · have hsnoc := write_snoc mem.byteAt addr (buf.take n) buf[n] (by omega)
        rw [hlength] at hsnoc
        rw [hbytes, hmid, hsnoc, List.take_add_one, hbyte]
        rfl

end Memory

end RiscvSim
