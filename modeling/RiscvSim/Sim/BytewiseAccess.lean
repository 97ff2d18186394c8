import RiscvSim.Sim.AccessBounds
import RiscvSim.Sim.ByteCopy

/-!
The accesses of several bytes against the byte accesses at the same addresses.
A byte access looks up the segment of its own byte, a wide one that of its first
byte; inside one segment they copy the same bytes, and only the byte accesses go
on into the next segment.
-/

namespace RiscvSim

open LittleEndian

/-- Two copies to consecutive offsets are one, and fail together. -/
theorem memcpyTo_snoc (data bytes : List MemByte) (offset : Nat) (byte : MemByte) :
    memcpyTo data offset (bytes ++ [byte]) =
      memcpyTo data offset bytes >>= fun data' =>
        memcpyTo data' (offset + bytes.length) [byte] := by
  by_cases hfits : offset + bytes.length ≤ data.length
  · have hprefix : (data.take offset ++ bytes).length = offset + bytes.length := by
      rw [List.length_append, List.length_take]
      omega
    have hfirst : memcpyTo data offset bytes =
        .ok (data.take offset ++ bytes ++ data.drop (offset + bytes.length)) := if_pos hfits
    rw [hfirst]
    change _ = memcpyTo (data.take offset ++ bytes ++ data.drop (offset + bytes.length))
      (offset + bytes.length) [byte]
    have hlength : (data.take offset ++ bytes ++ data.drop (offset + bytes.length)).length =
        data.length := by
      rw [List.length_append, hprefix, List.length_drop]
      omega
    have hdrop : (data.take offset ++ bytes).drop (offset + bytes.length + 1) = [] :=
      List.drop_of_length_le (by omega)
    unfold memcpyTo
    rw [hlength, List.take_left' hprefix, List.length_singleton, List.drop_append, hdrop, hprefix,
      List.drop_drop, List.length_append, List.length_singleton, Nat.add_sub_cancel_left,
      List.nil_append]
    simp only [List.append_assoc, Nat.add_assoc]
  · have hfirst : memcpyTo data offset bytes = .error .outOfBounds := if_neg hfits
    rw [hfirst]
    apply if_neg
    rw [List.length_append]
    omega

namespace Window

variable {mem : Memory} {addr : Address} {n : Nat} {pre post : List MemorySegm}
  {segm : MemorySegm}

/-- The first `k` byte stores of a window are one copy into its segment. -/
theorem copyHostToGuest (win : Window mem addr n pre segm post) (build : Build)
    {bytes : List MemByte} (hbytes : n ≤ bytes.length) {k : Nat} (hk : k ≤ n) :
    mem.copyHostToGuest build addr bytes k =
      (fun data => Memory.mk (pre ++ { segm with data } :: post)) <$>
        memcpyTo segm.data (segm.offset addr) (bytes.take k) := by
  induction k with
  | zero =>
      have hnothing : memcpyTo segm.data (segm.offset addr) (bytes.take 0) = .ok segm.data := by
        have hbacked := win.backed
        rw [List.take_zero, memcpyTo, if_pos (by simp; omega)]
        simp
      rw [hnothing]
      exact congrArg (fun memory => Except.ok (Memory.mk memory)) win.split
  | succ k ih =>
      have hin : k < bytes.length := by omega
      have hlength : (bytes.take k).length = k := by
        rw [List.length_take]
        omega
      have hone : toBytes (8 / 8) bytes[k] = [bytes[k]] := by
        simp [toBytes]
      have hsnoc := memcpyTo_snoc segm.data (bytes.take k) (segm.offset addr) bytes[k]
      have hprefix := ih (by omega)
      rw [hlength, List.take_append_getElem hin] at hsnoc
      rw [hsnoc]
      unfold Memory.copyHostToGuest at hprefix ⊢
      rw [List.range_succ, List.foldlM_append, hprefix]
      cases memcpyTo segm.data (segm.offset addr) (bytes.take k) with
      | error fault => rfl
      | ok data =>
          have hbyte : bytes[k]? = some bytes[k] := List.getElem?_eq_getElem hin
          have hinside : isAddrInSegment (addr + BitVec.ofNat 32 k) { segm with data } = true :=
            win.inside k (by omega)
          have hstore : storeTo build (addr + BitVec.ofNat 32 k) bytes[k]
              (pre ++ { segm with data } :: post) = _ :=
            storeTo_append build bytes[k] (win.first k (by omega)) hinside
          have hoffset : MemorySegm.offset { segm with data } (addr + BitVec.ofNat 32 k) =
              segm.offset addr + k := win.offset k (by omega)
          rw [hoffset, hone] at hstore
          simp only [List.foldlM_cons, List.foldlM_nil, hbyte]
          change (Memory.mk <$> storeTo build (addr + BitVec.ofNat 32 k) bytes[k]
            (pre ++ { segm with data } :: post) >>= pure) = _
          rw [hstore, ok_bind]
          cases memcpyTo data (segm.offset addr + k) [bytes[k]] with
          | error fault => rfl
          | ok data' => rfl

end Window

/-- The access is made of byte accesses: a load returns the little-endian word of
the bytes loaded, a store leaves the memory that the byte stores leave. -/
def WideAccess.AsBytes (build : Build) (mem : Memory) (addr : Address) : WideAccess → Prop
  | .fetch => mem.fetch build addr = toWord 32 <$> mem.copyGuestToHost build addr 4
  | .loadU16 => mem.loadU16 build addr = toWord 16 <$> mem.copyGuestToHost build addr 2
  | .loadU32 => mem.loadU32 build addr = toWord 32 <$> mem.copyGuestToHost build addr 4
  | .storeU16 val =>
      mem.storeU16 build addr val = mem.copyHostToGuest build addr (toBytes 2 val) 2
  | .storeU32 val =>
      mem.storeU32 build addr val = mem.copyHostToGuest build addr (toBytes 4 val) 4

section Inside

variable {build : Build} {mem : Memory} {addr : Address} {n w : Nat}
  {pre post : List MemorySegm} {segm : MemorySegm}

theorem Window.load_asBytes (win : Window mem addr (w / 8) pre segm post) (hw : 0 < w / 8) :
    loadFrom build w addr mem.memory = toWord w <$> mem.copyGuestToHost build addr (w / 8) := by
  obtain ⟨bytes, hread, hload⟩ := win.load build hw
  obtain ⟨hlength, hbytes⟩ := (ByteStore.read_eq_some_iff _ _ _ _).mp hread
  have hhas : mem.HasBytes addr bytes := by
    intro i hi
    rw [hbytes i (by omega), List.getElem?_eq_getElem hi]
  have hcopy := Memory.Loads.copyGuestToHost build (hhas.loads build)
  rw [hlength] at hcopy
  rw [hload, hcopy]
  rfl

theorem Window.store_asBytes (win : Window mem addr (w / 8) pre segm post) (hw : 0 < w / 8)
    (val : BitVec w) :
    Memory.mk <$> storeTo build addr val mem.memory =
      mem.copyHostToGuest build addr (toBytes (w / 8) val) (w / 8) := by
  have hlength : (toBytes (w / 8) val).length = w / 8 := toBytes_length _ _
  have hall : (toBytes (w / 8) val).take (w / 8) = toBytes (w / 8) val :=
    List.take_of_length_le (by omega)
  have hsplit := congrArg (storeTo build addr val) win.split
  rw [hsplit, storeTo_append build val (win.first_zero hw) (win.inside_zero hw),
    win.copyHostToGuest build hlength.ge le_rfl, hall, Functor.map_map]

theorem WideAccess.asBytes_of_window (access : WideAccess)
    (win : Window mem addr access.bytes pre segm post) : access.AsBytes build mem addr := by
  cases access with
  | fetch => exact Window.load_asBytes (w := 32) win (by decide)
  | loadU16 => exact Window.load_asBytes (w := 16) win (by decide)
  | loadU32 => exact Window.load_asBytes (w := 32) win (by decide)
  | storeU16 val => exact Window.store_asBytes win (by decide) val
  | storeU32 val => exact Window.store_asBytes win (by decide) val

end Inside

section Crossing

variable {build : Build} {mem : Memory} {addr : Address} {n : Nat}

/-- In segments of the right size, a mapped address is backed by data. -/
theorem Memory.Sized.mapped (hsized : mem.Sized)
    (hmapped : ∀ i < n, mem.isMapped (addr + BitVec.ofNat 32 i)) : mem.Mapped addr n := by
  intro i hi
  have hsome : (mem.memory.find? (isAddrInSegment (addr + BitVec.ofNat 32 i))).isSome := by
    rw [List.find?_isSome]
    exact List.any_eq_true.mp (hmapped i hi)
  obtain ⟨segm, hfind⟩ := Option.isSome_iff_exists.mp hsome
  have hsegm := hsized segm (List.mem_of_find?_eq_some hfind)
  have hin := List.find?_some hfind
  have hbelow := ((isAddrInSegment_iff _ segm).mp hin).2
  have hroom := (hsegm.room hin 1).mpr hbelow
  unfold Memory.byteAt
  rw [hfind, Option.bind_some, List.getElem?_eq_getElem (by omega)]
  rfl

/-- The segment that serves the first byte ends before the last one. -/
theorem Memory.Sized.runsPast (hsized : mem.Sized) (hn : 0 < n)
    (hmapped : ∀ i < n, mem.isMapped (addr + BitVec.ofNat 32 i))
    (houtside : ¬ mem.Inside addr n) : RunsPast mem.memory addr n := by
  have hfirst : mem.isMapped addr := by simpa using hmapped 0 hn
  have hsome : (mem.memory.find? (isAddrInSegment addr)).isSome := by
    rw [List.find?_isSome]
    exact List.any_eq_true.mp hfirst
  obtain ⟨segm, hfind⟩ := Option.isSome_iff_exists.mp hsome
  have hmem := List.mem_of_find?_eq_some hfind
  have hin := List.find?_some hfind
  refine ⟨segm, hfind, Nat.lt_of_not_le fun hfits => houtside ⟨segm, hmem, ?_, ?_⟩⟩
  · exact ((isAddrInSegment_iff addr segm).mp hin).1
  · exact ((hsized segm hmem).room hin n).mp hfits

/-- The byte accesses of mapped addresses complete. -/
theorem WideAccess.completes_of_asBytes {access : WideAccess}
    (hmapped : mem.Mapped addr access.bytes) (h : access.AsBytes build mem addr) :
    access.run build mem addr = .ok () := by
  obtain ⟨bytes, hlength, hloads⟩ := hmapped.exists_loads build
  have hcopy := hloads.copyGuestToHost build
  rw [hlength] at hcopy
  cases access with
  | fetch =>
      rw [WideAccess.run, h]
      exact congrArg _ (congrArg _ hcopy)
  | loadU16 =>
      rw [WideAccess.run, h]
      exact congrArg _ (congrArg _ hcopy)
  | loadU32 =>
      rw [WideAccess.run, h]
      exact congrArg _ (congrArg _ hcopy)
  | storeU16 val =>
      have hbytes : 2 ≤ (toBytes 2 val).length := (toBytes_length 2 val).ge
      obtain ⟨mem', hstore, _⟩ :=
        Memory.copyHostToGuest_spec build hmapped hbytes (by decide : 2 ≤ 2 ^ 32)
      rw [WideAccess.run, h]
      exact congrArg _ hstore
  | storeU32 val =>
      have hbytes : 4 ≤ (toBytes 4 val).length := (toBytes_length 4 val).ge
      obtain ⟨mem', hstore, _⟩ :=
        Memory.copyHostToGuest_spec build hmapped hbytes (by decide : 4 ≤ 2 ^ 32)
      rw [WideAccess.run, h]
      exact congrArg _ hstore

end Crossing

/-- In disjoint segments of the right size, a wide access of mapped addresses is
made of byte accesses exactly when one segment holds all its bytes. -/
theorem wideAccess_asBytes_iff (build : Build) {mem : Memory} (hsized : mem.Sized)
    (hdisjoint : mem.Disjoint) {addr : Address} (access : WideAccess)
    (hmapped : ∀ i < access.bytes, mem.isMapped (addr + BitVec.ofNat 32 i)) :
    access.AsBytes build mem addr ↔ mem.Inside addr access.bytes := by
  have hpos : 0 < access.bytes := by
    cases access <;> exact Nat.succ_pos _
  constructor
  · intro h
    by_contra houtside
    have hpast := (access.run_outOfBounds_iff build mem addr).mpr
      (hsized.runsPast hpos hmapped houtside)
    have hcompletes := access.completes_of_asBytes (hsized.mapped hmapped) h
    cases hcompletes.symm.trans hpast
  · intro hinside
    obtain ⟨pre, segm, post, win⟩ := window_of_inside hsized hdisjoint hinside
    exact access.asBytes_of_window win

/-- Two segments of two bytes each, one behind the other. -/
def adjacentSegments : Memory :=
  ⟨[⟨0x1000, 0x1002, [0x11, 0x22], true, true, false⟩,
    ⟨0x1002, 0x1004, [0x33, 0x44], true, true, false⟩]⟩

theorem adjacentSegments_sized : adjacentSegments.Sized := by
  unfold Memory.Sized MemorySegm.Sized
  decide

theorem adjacentSegments_disjoint : adjacentSegments.Disjoint :=
  Memory.disjoint_pair (by decide)

/-- A half-word in the second segment, at its start. -/
theorem wideAccess_asBytes_halfWord :
    (WideAccess.storeU16 0xbeef).AsBytes .release adjacentSegments 0x1002 := by
  have hmapped : ∀ i < (WideAccess.storeU16 0xbeef).bytes,
      adjacentSegments.isMapped (0x1002 + BitVec.ofNat 32 i) := by
    decide
  have hinside : adjacentSegments.Inside 0x1002 2 :=
    ⟨_, List.mem_cons_of_mem _ List.mem_cons_self, by decide, by decide⟩
  exact (wideAccess_asBytes_iff .release adjacentSegments_sized adjacentSegments_disjoint _
    hmapped).mpr hinside

/-- A word over both segments: all its bytes can be loaded, and the word load
reads behind the data of the first segment. -/
theorem loadU32_over_adjacent :
    adjacentSegments.Sized ∧ adjacentSegments.Disjoint ∧
      (∀ i < WideAccess.loadU32.bytes,
        adjacentSegments.isMapped (0x1000 + BitVec.ofNat 32 i)) ∧
      toWord 32 <$> adjacentSegments.copyGuestToHost .release 0x1000 4 = .ok 0x44332211 ∧
      adjacentSegments.loadU32 .release 0x1000 = .error .outOfBounds ∧
      ¬ WideAccess.loadU32.AsBytes .release adjacentSegments 0x1000 := by
  have hbytes : toWord 32 <$> adjacentSegments.copyGuestToHost .release 0x1000 4 =
      .ok 0x44332211 := by
    decide
  have hword : adjacentSegments.loadU32 .release 0x1000 = .error .outOfBounds := rfl
  refine ⟨adjacentSegments_sized, adjacentSegments_disjoint, by decide, hbytes, hword, ?_⟩
  intro h
  have hsame := (hword.symm.trans h).trans hbytes
  cases hsame

end RiscvSim
