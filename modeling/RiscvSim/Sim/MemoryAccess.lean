import RiscvSim.Sim.Memory
import RiscvSim.Lib.ByteStore
import RiscvSim.Lib.ErrorsIn

/-!
What the accessors do to the byte memory that the segment list stands for: each
address holds the byte of the first segment that contains it. An access all of
whose bytes are served by one segment is a read or a write of that byte memory.
-/

namespace RiscvSim

open ByteStore LittleEndian

/-- The byte memory seen by the guest. -/
def Memory.byteAt (mem : Memory) : Store 32 := fun addr =>
  (mem.memory.find? (isAddrInSegment addr)).bind fun segm => segm.data[segm.offset addr]?

/-- Everything of a segment but its data bytes. -/
structure SegmLayout where
  startAddr : Address
  endAddr : Address
  size : Nat
  rPermission : Bool
  wPermission : Bool
  xPermission : Bool
  deriving DecidableEq

def MemorySegm.layout (segm : MemorySegm) : SegmLayout :=
  ⟨segm.startAddr, segm.endAddr, segm.data.length,
    segm.rPermission, segm.wPermission, segm.xPermission⟩

def Memory.layout (mem : Memory) : List SegmLayout := mem.memory.map MemorySegm.layout

/-- `end_addr - start_addr = data.size()`, in the address arithmetic of the code. -/
def MemorySegm.Sized (segm : MemorySegm) : Prop :=
  (segm.endAddr - segm.startAddr).toNat = segm.data.length

def Memory.Sized (mem : Memory) : Prop := ∀ segm ∈ mem.memory, segm.Sized

/-- No address is in two segments of the list. -/
def Memory.Disjoint (mem : Memory) : Prop :=
  mem.memory.Pairwise fun s t => ∀ addr, ¬ (isAddrInSegment addr s ∧ isAddrInSegment addr t)

/-- The `n` bytes from `addr` on lie inside the segment. -/
def MemorySegm.Holds (segm : MemorySegm) (addr : Address) (n : Nat) : Prop :=
  segm.startAddr.toNat ≤ addr.toNat ∧ addr.toNat + n ≤ segm.endAddr.toNat

def Memory.Inside (mem : Memory) (addr : Address) (n : Nat) : Prop :=
  ∃ segm ∈ mem.memory, segm.Holds addr n

theorem isAddrInSegment_iff (addr : Address) (segm : MemorySegm) :
    isAddrInSegment addr segm = true ↔
      segm.startAddr.toNat ≤ addr.toNat ∧ addr.toNat < segm.endAddr.toNat := by
  simp [isAddrInSegment, BitVec.le_def, BitVec.lt_def]

/-- The list around the segment that serves an address. -/
theorem split_of_find? {addr : Address} {segms : List MemorySegm} {segm : MemorySegm}
    (hfind : segms.find? (isAddrInSegment addr) = some segm) :
    ∃ pre post, segms = pre ++ segm :: post ∧ (∀ s ∈ pre, isAddrInSegment addr s = false) ∧
      isAddrInSegment addr segm = true := by
  obtain ⟨hin, pre, post, hsplit, hpre⟩ := List.find?_eq_some_iff_append.mp hfind
  refine ⟨pre, post, hsplit, ?_, hin⟩
  intro s hs
  simpa using hpre s hs

theorem Memory.disjoint_pair {s t : MemorySegm} (h : s.endAddr.toNat ≤ t.startAddr.toNat) :
    (Memory.mk [s, t]).Disjoint := by
  unfold Memory.Disjoint
  rw [List.pairwise_pair]
  rintro addr ⟨hs, ht⟩
  have hbelow : addr.toNat < s.endAddr.toNat := ((isAddrInSegment_iff addr s).mp hs).2
  have habove : t.startAddr.toNat ≤ addr.toNat := ((isAddrInSegment_iff addr t).mp ht).1
  omega

section Copies

open ErrorsIn

variable (data : List MemByte) (offset : Nat)

/-- A copy out of a vector is defined exactly when the vector has the bytes, and
otherwise it leaves the vector. -/
theorem memcpyFrom_ok_iff (n : Nat) :
    (∃ bytes, memcpyFrom data offset n = .ok bytes) ↔ offset + n ≤ data.length :=
  exists_guard_eq_ok

theorem memcpyFrom_errors (n : Nat) :
    OfExcept (· = Fault.outOfBounds) (memcpyFrom data offset n) := ofExcept_guard rfl

theorem memcpyTo_ok_iff (bytes : List MemByte) :
    (∃ data', memcpyTo data offset bytes = .ok data') ↔ offset + bytes.length ≤ data.length :=
  exists_guard_eq_ok

theorem memcpyTo_errors (bytes : List MemByte) :
    OfExcept (· = Fault.outOfBounds) (memcpyTo data offset bytes) := ofExcept_guard rfl

end Copies

theorem memcpyTo_length {data bytes data' : List MemByte} {offset : Nat}
    (h : memcpyTo data offset bytes = .ok data') : data'.length = data.length := by
  unfold memcpyTo at h
  split at h
  · cases h
    simp only [List.length_append, List.length_take, List.length_drop]
    omega
  · cases h

theorem memcpyTo_getElem? {data bytes data' : List MemByte} {offset : Nat}
    (h : memcpyTo data offset bytes = .ok data') (i : Nat) :
    data'[i]? =
      if offset ≤ i ∧ i < offset + bytes.length then bytes[i - offset]? else data[i]? := by
  unfold memcpyTo at h
  split at h
  · rename_i hfits
    cases h
    have hprefix : (data.take offset).length = offset := by
      rw [List.length_take]
      omega
    by_cases hlow : i < offset
    · rw [if_neg (by omega), List.append_assoc, List.getElem?_append_left (by omega),
        List.getElem?_take_of_lt hlow]
    · by_cases hmid : i < offset + bytes.length
      · rw [if_pos ⟨by omega, hmid⟩, List.append_assoc, List.getElem?_append_right (by omega),
          hprefix, List.getElem?_append_left (by omega)]
      · rw [if_neg (by omega), List.getElem?_append_right (by simp; omega), List.getElem?_drop]
        congr 1
        simp only [List.length_append, hprefix]
        omega
  · cases h

theorem loadFrom_append (build : Build) (w : Nat) {addr : Address} {pre post : List MemorySegm}
    {segm : MemorySegm} (hpre : ∀ s ∈ pre, isAddrInSegment addr s = false)
    (hsegm : isAddrInSegment addr segm = true) :
    loadFrom build w addr (pre ++ segm :: post) =
      toWord w <$> memcpyFrom segm.data (segm.offset addr) (w / 8) := by
  induction pre with
  | nil =>
      simp only [List.nil_append, loadFrom, hsegm, Bool.not_true, Bool.false_eq_true, if_false]
      rfl
  | cons s rest ih =>
      simp only [List.cons_append, loadFrom, hpre s List.mem_cons_self, Bool.not_false, if_true]
      exact ih fun t ht => hpre t (List.mem_cons_of_mem s ht)

theorem storeTo_append {w : Nat} (build : Build) {addr : Address} (val : BitVec w)
    {pre post : List MemorySegm} {segm : MemorySegm}
    (hpre : ∀ s ∈ pre, isAddrInSegment addr s = false)
    (hsegm : isAddrInSegment addr segm = true) :
    storeTo build addr val (pre ++ segm :: post) =
      (fun data => pre ++ { segm with data } :: post) <$>
        memcpyTo segm.data (segm.offset addr) (toBytes (w / 8) val) := by
  induction pre with
  | nil =>
      simp only [List.nil_append, storeTo, hsegm, Bool.not_true, Bool.false_eq_true, if_false]
      rfl
  | cons s rest ih =>
      have htail := ih fun t ht => hpre t (List.mem_cons_of_mem s ht)
      simp only [List.cons_append, storeTo, hpre s List.mem_cons_self, Bool.not_false, if_true,
        htail]
      cases memcpyTo segm.data (segm.offset addr) (toBytes (w / 8) val) <;> rfl

theorem loadFrom_none (build : Build) (w : Nat) {addr : Address} {segms : List MemorySegm}
    (h : ∀ s ∈ segms, isAddrInSegment addr s = false) :
    loadFrom build w addr segms =
      (fun _ => 0) <$> build.assert false "no segment matched address" := by
  induction segms with
  | nil => cases build <;> rfl
  | cons s rest ih =>
      simp only [loadFrom, h s List.mem_cons_self, Bool.not_false, if_true]
      exact ih fun t ht => h t (List.mem_cons_of_mem s ht)

theorem storeTo_none {w : Nat} (build : Build) {addr : Address} (val : BitVec w)
    {segms : List MemorySegm} (h : ∀ s ∈ segms, isAddrInSegment addr s = false) :
    storeTo build addr val segms =
      (fun _ => segms) <$> build.assert false "no segment matched address" := by
  induction segms with
  | nil => cases build <;> rfl
  | cons s rest ih =>
      have htail := ih fun t ht => h t (List.mem_cons_of_mem s ht)
      simp only [storeTo, h s List.mem_cons_self, Bool.not_false, if_true, htail]
      cases build <;> rfl

theorem byteAt_append (pre post : List MemorySegm) (segm : MemorySegm) (addr : Address) :
    (Memory.mk (pre ++ segm :: post)).byteAt addr =
      match pre.find? (isAddrInSegment addr) with
      | some s => s.data[s.offset addr]?
      | none =>
          if isAddrInSegment addr segm then segm.data[segm.offset addr]?
          else (Memory.mk post).byteAt addr := by
  unfold Memory.byteAt
  rw [List.find?_append]
  cases hpre : pre.find? (isAddrInSegment addr) with
  | some s => rfl
  | none =>
      rw [Option.none_or, List.find?_cons]
      cases isAddrInSegment addr segm <;> rfl

theorem MemorySegm.offset_inj (segm : MemorySegm) {x y : Address}
    (h : segm.offset x = segm.offset y) : x = y :=
  (BitVec.sub_left_inj _).mp (BitVec.eq_of_toNat_eq h)

/-- All `n` bytes from `addr` on are served by the segment between `pre` and
`post`, at consecutive offsets of its data. -/
structure Window (mem : Memory) (addr : Address) (n : Nat)
    (pre : List MemorySegm) (segm : MemorySegm) (post : List MemorySegm) : Prop where
  split : mem.memory = pre ++ segm :: post
  first : ∀ k < n, ∀ s ∈ pre, isAddrInSegment (addr + BitVec.ofNat 32 k) s = false
  inside : ∀ k < n, isAddrInSegment (addr + BitVec.ofNat 32 k) segm = true
  offset : ∀ k < n, segm.offset (addr + BitVec.ofNat 32 k) = segm.offset addr + k
  backed : segm.offset addr + n ≤ segm.data.length

namespace Window

variable {mem : Memory} {addr : Address} {n : Nat} {pre post : List MemorySegm}
  {segm : MemorySegm}

theorem first_zero (win : Window mem addr n pre segm post) (hn : 0 < n) :
    ∀ s ∈ pre, isAddrInSegment addr s = false := by
  intro s hs
  simpa using win.first 0 hn s hs

theorem inside_zero (win : Window mem addr n pre segm post) (hn : 0 < n) :
    isAddrInSegment addr segm = true := by
  simpa using win.inside 0 hn

theorem byteAt (win : Window mem addr n pre segm post) {k : Nat} (hk : k < n) :
    mem.byteAt (addr + BitVec.ofNat 32 k) = segm.data[segm.offset addr + k]? := by
  have hnone : pre.find? (isAddrInSegment (addr + BitVec.ofNat 32 k)) = none := by
    rw [List.find?_eq_none]
    intro s hs
    simp [win.first k hk s hs]
  have hmem : mem = Memory.mk (pre ++ segm :: post) := congrArg Memory.mk win.split
  rw [hmem, byteAt_append, hnone]
  simp only [win.inside k hk, if_true, win.offset k hk]

/-- A load reads the byte memory. -/
theorem load {w : Nat} (win : Window mem addr (w / 8) pre segm post) (build : Build)
    (hw : 0 < w / 8) :
    ∃ bytes, read mem.byteAt addr (w / 8) = some bytes ∧
      loadFrom build w addr mem.memory = .ok (toWord w bytes) := by
  have hbacked := win.backed
  refine ⟨(segm.data.drop (segm.offset addr)).take (w / 8), ?_, ?_⟩
  · rw [read_eq_some_iff]
    refine ⟨by simp; omega, ?_⟩
    intro k hk
    rw [win.byteAt hk, List.getElem?_take_of_lt hk, List.getElem?_drop]
  · rw [win.split, loadFrom_append build w (win.first_zero hw) (win.inside_zero hw)]
    simp only [memcpyFrom, win.backed, if_true]
    rfl

theorem exists_read (win : Window mem addr n pre segm post) (hn : 0 < n) :
    ∃ bytes, read mem.byteAt addr n = some bytes := by
  have hbits : 8 * n / 8 = n := by omega
  rw [← hbits] at win hn ⊢
  obtain ⟨bytes, hread, -⟩ := win.load .release hn
  exact ⟨bytes, hread⟩

/-- The bytes that a window reads are what every load of that size returns. -/
theorem loadFrom_of_read {w : Nat} (win : Window mem addr n pre segm post) (build : Build)
    (hw : w / 8 = n) (hn : 0 < n) {bytes : List MemByte}
    (hread : read mem.byteAt addr n = some bytes) :
    loadFrom build w addr mem.memory = .ok (toWord w bytes) := by
  subst hw
  obtain ⟨loaded, hloaded, hload⟩ := win.load build hn
  obtain rfl : bytes = loaded := Option.some.inj (hread.symm.trans hloaded)
  exact hload

theorem size_le (win : Window mem addr n pre segm post) : n ≤ 2 ^ 32 := by
  -- a longer window would meet its own first address at offset `2 ^ 32`
  by_contra hbig
  have hwrap := win.offset (2 ^ 32) (by omega)
  have hzero : addr + BitVec.ofNat 32 (2 ^ 32) = addr := by simp
  rw [hzero] at hwrap
  omega

/-- Replacing the bytes of the window in the segment's data is a write of the
byte memory. -/
theorem byteAt_memcpyTo (win : Window mem addr n pre segm post) {bytes data : List MemByte}
    (hlen : bytes.length = n) (hdata : memcpyTo segm.data (segm.offset addr) bytes = .ok data) :
    (Memory.mk (pre ++ { segm with data } :: post)).byteAt = write mem.byteAt addr bytes := by
  funext x
  have hmem : mem = Memory.mk (pre ++ segm :: post) := congrArg Memory.mk win.split
  have hin : isAddrInSegment x { segm with data } = isAddrInSegment x segm := rfl
  have hoff : MemorySegm.offset { segm with data } x = segm.offset x := rfl
  have hsize := win.size_le
  by_cases hcovers : Covers addr n x
  · obtain ⟨k, hk, rfl⟩ := (covers_iff hsize).mp hcovers
    have hnone : pre.find? (isAddrInSegment (addr + BitVec.ofNat 32 k)) = none := by
      rw [List.find?_eq_none]
      intro s hs
      simp [win.first k hk s hs]
    rw [write_apply _ _ _ (by omega) (by omega), byteAt_append, hnone]
    simp only [hin, win.inside k hk, if_true, hoff, win.offset k hk]
    rw [memcpyTo_getElem? hdata, if_pos ⟨by omega, by omega⟩, Nat.add_sub_cancel_left]
  · rw [write_frame _ _ _ (by rwa [hlen]), hmem, byteAt_append, byteAt_append]
    cases pre.find? (isAddrInSegment x) with
    | some s => rfl
    | none =>
        by_cases hx : isAddrInSegment x segm = true
        · simp only [hin, hx, if_true, hoff]
          rw [memcpyTo_getElem? hdata, if_neg]
          rintro ⟨hlow, hhigh⟩
          apply hcovers
          have hk : segm.offset x - segm.offset addr < n := by omega
          have hsame := win.offset _ hk
          have hx' : x = addr + BitVec.ofNat 32 (segm.offset x - segm.offset addr) :=
            segm.offset_inj (by omega)
          exact (covers_iff hsize).mpr ⟨_, hk, hx'⟩
        · simp only [hin, hx, Bool.false_eq_true, if_false]

/-- A store writes the byte memory and leaves the segment table alone. -/
theorem store {w : Nat} (win : Window mem addr (w / 8) pre segm post) (build : Build)
    (val : BitVec w) (hw : 0 < w / 8) :
    ∃ segms, storeTo build addr val mem.memory = .ok segms ∧
      (Memory.mk segms).byteAt = write mem.byteAt addr (toBytes (w / 8) val) ∧
      (Memory.mk segms).layout = mem.layout := by
  have hcopy : ∃ data, memcpyTo segm.data (segm.offset addr) (toBytes (w / 8) val) = .ok data := by
    refine ⟨_, if_pos ?_⟩
    rw [toBytes_length]
    exact win.backed
  obtain ⟨data, hdata⟩ := hcopy
  refine ⟨pre ++ { segm with data } :: post, ?_, ?_, ?_⟩
  · rw [win.split, storeTo_append build val (win.first_zero hw) (win.inside_zero hw), hdata]
    rfl
  · exact win.byteAt_memcpyTo (toBytes_length _ _) hdata
  · have hlayout : MemorySegm.layout { segm with data } = segm.layout := by
      simp only [MemorySegm.layout, memcpyTo_length hdata]
    unfold Memory.layout
    rw [win.split]
    simp only [List.map_append, List.map_cons, hlayout]

end Window

/-- A single mapped and backed byte is always a window of its own: the first
segment that contains the address serves it, whatever else overlaps. -/
theorem window_of_byteAt {mem : Memory} {addr : Address} {byte : MemByte}
    (h : mem.byteAt addr = some byte) :
    ∃ pre segm post, Window mem addr 1 pre segm post := by
  unfold Memory.byteAt at h
  rw [Option.bind_eq_some_iff] at h
  obtain ⟨segm, hfind, hdata⟩ := h
  obtain ⟨pre, post, hsplit, hfirst, hin⟩ := split_of_find? hfind
  obtain ⟨hbacked, _⟩ := List.getElem?_eq_some_iff.mp hdata
  have hzero (k : Nat) (hk : k < 1) : addr + BitVec.ofNat 32 k = addr := by
    obtain rfl : k = 0 := by omega
    simp
  refine ⟨pre, segm, post, hsplit, ?_, ?_, ?_, by omega⟩
  · intro k hk s hs
    rw [hzero k hk]
    exact hfirst s hs
  · intro k hk
    rw [hzero k hk]
    exact hin
  · intro k hk
    rw [hzero k hk]
    omega

/-- In a list of disjoint segments of the right size, an access inside any one
segment is a window: no earlier segment contains any of its bytes. -/
theorem window_of_inside {mem : Memory} {addr : Address} {n : Nat} (hsized : mem.Sized)
    (hdisjoint : mem.Disjoint) (hinside : mem.Inside addr n) :
    ∃ pre segm post, Window mem addr n pre segm post := by
  obtain ⟨segm, hsegm, hlow, hhigh⟩ := hinside
  obtain ⟨pre, post, hsplit⟩ := List.append_of_mem hsegm
  have hend := segm.endAddr.isLt
  have hsize : (segm.endAddr - segm.startAddr).toNat = segm.data.length := hsized segm hsegm
  have haddr (k : Nat) (hk : k < n) :
      (addr + BitVec.ofNat 32 k).toNat = addr.toNat + k := by
    rw [BitVec.toNat_add, BitVec.toNat_ofNat, Nat.mod_eq_of_lt (by omega : k < 2 ^ 32),
      Nat.mod_eq_of_lt (by omega)]
  have hin (k : Nat) (hk : k < n) :
      isAddrInSegment (addr + BitVec.ofNat 32 k) segm = true := by
    rw [isAddrInSegment_iff, haddr k hk]
    omega
  refine ⟨pre, segm, post, hsplit, ?_, hin, ?_, ?_⟩
  · intro k hk s hs
    have hpair := hdisjoint
    unfold Memory.Disjoint at hpair
    rw [hsplit, List.pairwise_append] at hpair
    have hboth := hpair.2.2 s hs segm List.mem_cons_self (addr + BitVec.ofNat 32 k)
    by_contra hcontra
    exact hboth ⟨by simpa using hcontra, hin k hk⟩
  · intro k hk
    have hk' := haddr k hk
    unfold MemorySegm.offset
    rw [BitVec.toNat_sub_of_le (by rw [BitVec.le_def]; omega),
      BitVec.toNat_sub_of_le (by rw [BitVec.le_def]; omega)]
    omega
  · unfold MemorySegm.offset
    rw [BitVec.toNat_sub_of_le (by rw [BitVec.le_def]; omega)]
    rw [BitVec.toNat_sub_of_le (by rw [BitVec.le_def]; omega)] at hsize
    omega

/-! The conditions on the segment table depend on the layout only. -/

theorem exists_same_layout {mem mem' : Memory} (h : mem'.layout = mem.layout)
    {segm' : MemorySegm} (hsegm : segm' ∈ mem'.memory) :
    ∃ segm ∈ mem.memory, segm.layout = segm'.layout := by
  have hmem : segm'.layout ∈ mem.layout := by
    rw [← h]
    exact List.mem_map_of_mem hsegm
  exact List.mem_map.mp hmem

theorem Memory.Sized.of_layout {mem mem' : Memory} (hsized : mem.Sized)
    (h : mem'.layout = mem.layout) : mem'.Sized := by
  intro segm' hsegm
  obtain ⟨segm, hin, hlayout⟩ := exists_same_layout h hsegm
  have hsize : (segm.endAddr - segm.startAddr).toNat = segm.data.length := hsized segm hin
  have hstart : segm.startAddr = segm'.startAddr := congrArg SegmLayout.startAddr hlayout
  have hend : segm.endAddr = segm'.endAddr := congrArg SegmLayout.endAddr hlayout
  have hlength : segm.data.length = segm'.data.length := congrArg SegmLayout.size hlayout
  unfold MemorySegm.Sized
  rw [← hstart, ← hend, ← hlength, hsize]

theorem Memory.Inside.of_layout {mem mem' : Memory} {addr : Address} {n : Nat}
    (hinside : mem.Inside addr n) (h : mem'.layout = mem.layout) : mem'.Inside addr n := by
  obtain ⟨segm, hin, hlow, hhigh⟩ := hinside
  obtain ⟨segm', hin', hlayout⟩ := exists_same_layout h.symm hin
  have hstart : segm'.startAddr = segm.startAddr := congrArg SegmLayout.startAddr hlayout
  have hend : segm'.endAddr = segm.endAddr := congrArg SegmLayout.endAddr hlayout
  refine ⟨segm', hin', ?_, ?_⟩
  · rwa [hstart]
  · rwa [hend]

theorem Memory.Disjoint.of_layout {mem mem' : Memory} (hdisjoint : mem.Disjoint)
    (h : mem'.layout = mem.layout) : mem'.Disjoint := by
  have hbylayout (m : Memory) :
      m.Disjoint ↔ m.layout.Pairwise fun s t => ∀ addr : Address,
        ¬ ((s.startAddr ≤ addr ∧ addr < s.endAddr) ∧ (t.startAddr ≤ addr ∧ addr < t.endAddr)) := by
    unfold Memory.Disjoint Memory.layout
    rw [List.pairwise_map]
    simp [isAddrInSegment, MemorySegm.layout]
  rw [hbylayout, h, ← hbylayout]
  exact hdisjoint

end RiscvSim
