import RiscvSim.Sim.MemoryAccess

/-!
Loads after stores at mixed widths. One store at one of the three widths is a
write of the byte memory, so a sequence of them is a sequence of writes, and a
later load of any width finds in each of its bytes the last store that covers it.
-/

namespace RiscvSim

open ByteStore LittleEndian

/-- The widths of the accessors. -/
inductive AccessWidth where
  | u8
  | u16
  | u32

namespace AccessWidth

def bytes : AccessWidth → Nat
  | .u8 => 1
  | .u16 => 2
  | .u32 => 4

def bits (width : AccessWidth) : Nat := 8 * width.bytes

theorem bits_div (width : AccessWidth) : width.bits / 8 = width.bytes := by
  cases width <;> rfl

theorem bytes_pos (width : AccessWidth) : 0 < width.bytes := by
  cases width <;> decide

end AccessWidth

/-- `LoadU8`, `LoadU16` or `LoadU32`. -/
def Memory.loadWidth (build : Build) (mem : Memory) (addr : Address) :
    (width : AccessWidth) → Except Fault (BitVec width.bits)
  | .u8 => mem.loadU8 build addr
  | .u16 => mem.loadU16 build addr
  | .u32 => mem.loadU32 build addr

/-- `StoreU8`, `StoreU16` or `StoreU32`. -/
def Memory.storeWidth (build : Build) (mem : Memory) (addr : Address) :
    (width : AccessWidth) → BitVec width.bits → Except Fault Memory
  | .u8, val => mem.storeU8 build addr val
  | .u16, val => mem.storeU16 build addr val
  | .u32, val => mem.storeU32 build addr val

structure StoreOp where
  width : AccessWidth
  addr : Address
  val : BitVec width.bits

/-- Byte `k` of a value, counted from the least significant. -/
def byteOf {w : Nat} (val : BitVec w) (k : Nat) : MemByte := val.extractLsb' (8 * k) 8

/-- The byte this store puts at the guest address `x`. -/
def StoreOp.byteAt? (s : StoreOp) (x : Nat) : Option MemByte :=
  if s.addr.toNat ≤ x ∧ x < s.addr.toNat + s.width.bytes then
    some (byteOf s.val (x - s.addr.toNat))
  else none

/-- The byte that the last store covering the guest address `x` puts there. -/
def lastStored? (stores : List StoreOp) (x : Nat) : Option MemByte :=
  stores.reverse.findSome? (·.byteAt? x)

def Memory.storeAll (build : Build) (mem : Memory) (stores : List StoreOp) :
    Except Fault Memory :=
  stores.foldlM (fun mem s => mem.storeWidth build s.addr s.width s.val) mem

def StoreOp.toWrite (s : StoreOp) : Write 32 := ⟨s.addr, toBytes s.width.bytes s.val⟩

theorem Memory.loadWidth_eq (build : Build) (mem : Memory) (addr : Address)
    (width : AccessWidth) :
    mem.loadWidth build addr width = loadFrom build width.bits addr mem.memory := by
  cases width <;> rfl

theorem Memory.storeWidth_eq (build : Build) (mem : Memory) (addr : Address)
    (width : AccessWidth) (val : BitVec width.bits) :
    mem.storeWidth build addr width val = Memory.mk <$> storeTo build addr val mem.memory := by
  cases width <;> rfl

section Access

variable {mem : Memory} {addr : Address} {pre post : List MemorySegm} {segm : MemorySegm}

theorem Window.loadWidth {width : AccessWidth}
    (win : Window mem addr width.bytes pre segm post) (build : Build) :
    ∃ val, mem.loadWidth build addr width = .ok val ∧
      ∀ k < width.bytes, mem.byteAt (addr + BitVec.ofNat 32 k) = some (byteOf val k) := by
  have hdiv := width.bits_div
  rw [← hdiv] at win
  obtain ⟨bytes, hread, hload⟩ := win.load build (by rw [hdiv]; exact width.bytes_pos)
  obtain ⟨hlength, hbytes⟩ := (read_eq_some_iff _ _ _ _).mp hread
  refine ⟨toWord width.bits bytes, by rw [Memory.loadWidth_eq, hload], ?_⟩
  intro k hk
  have hfits : 8 * k + 8 ≤ width.bits := by
    unfold AccessWidth.bits
    omega
  rw [hbytes k (by omega), byteOf, toWord_byte bytes hfits, List.getD_eq_getElem?_getD,
    List.getElem?_eq_getElem (by omega), Option.getD_some]

theorem Window.storeWidth {width : AccessWidth}
    (win : Window mem addr width.bytes pre segm post) (build : Build)
    (val : BitVec width.bits) :
    ∃ mem', mem.storeWidth build addr width val = .ok mem' ∧
      mem'.byteAt = write mem.byteAt addr (toBytes width.bytes val) ∧
      mem'.layout = mem.layout := by
  have hdiv := width.bits_div
  rw [← hdiv] at win ⊢
  obtain ⟨segms, hstore, hbytes, hlayout⟩ :=
    win.store build val (by rw [hdiv]; exact width.bytes_pos)
  exact ⟨⟨segms⟩, by rw [Memory.storeWidth_eq, hstore]; rfl, hbytes, hlayout⟩

end Access

/-- A sequence of stores, each inside a segment, is the same sequence of writes
of the byte memory. -/
theorem Memory.storeAll_spec (build : Build) (stores : List StoreOp) :
    ∀ mem : Memory, mem.Sized → mem.Disjoint →
      (∀ s ∈ stores, mem.Inside s.addr s.width.bytes) →
      ∃ mem', mem.storeAll build stores = .ok mem' ∧
        mem'.byteAt = writeAll mem.byteAt (stores.map StoreOp.toWrite) ∧
        mem'.layout = mem.layout := by
  induction stores with
  | nil =>
      intro mem _ _ _
      exact ⟨mem, rfl, rfl, rfl⟩
  | cons s rest ih =>
      intro mem hsized hdisjoint hinside
      obtain ⟨pre, segm, post, win⟩ :=
        window_of_inside hsized hdisjoint (hinside s List.mem_cons_self)
      obtain ⟨mid, hstore, hmid, hlayout⟩ := win.storeWidth build s.val
      have hrest : ∀ t ∈ rest, mid.Inside t.addr t.width.bytes := fun t ht =>
        (hinside t (List.mem_cons_of_mem s ht)).of_layout hlayout
      obtain ⟨mem', hall, hbytes, hlayout'⟩ :=
        ih mid (hsized.of_layout hlayout) (hdisjoint.of_layout hlayout) hrest
      refine ⟨mem', ?_, ?_, hlayout'.trans hlayout⟩
      · unfold Memory.storeAll at hall ⊢
        rw [List.foldlM_cons, hstore]
        exact hall
      · rw [hbytes, hmid]
        rfl

/-- An access inside a segment does not wrap around the address space. -/
theorem Memory.Inside.toNat_add {mem : Memory} {addr : Address} {n k : Nat}
    (h : mem.Inside addr n) (hk : k < n) :
    (addr + BitVec.ofNat 32 k).toNat = addr.toNat + k := by
  obtain ⟨segm, _, _, hhigh⟩ := h
  have hend := segm.endAddr.isLt
  rw [BitVec.toNat_add, BitVec.toNat_ofNat, Nat.mod_eq_of_lt (by omega : k < 2 ^ 32),
    Nat.mod_eq_of_lt (by omega)]

theorem StoreOp.toWrite_byteAt? (s : StoreOp) (x : Address)
    (hs : s.addr.toNat + s.width.bytes ≤ 2 ^ 32) :
    s.toWrite.byteAt? x = s.byteAt? x.toNat := by
  have hx := x.isLt
  have hsub : (x - s.addr).toNat = (2 ^ 32 - s.addr.toNat + x.toNat) % 2 ^ 32 :=
    BitVec.toNat_sub x s.addr
  unfold Write.byteAt? StoreOp.byteAt? Covers StoreOp.toWrite
  simp only [toBytes_length]
  by_cases hcovers : s.addr.toNat ≤ x.toNat ∧ x.toNat < s.addr.toNat + s.width.bytes
  · have hdist : (x - s.addr).toNat = x.toNat - s.addr.toNat := by omega
    rw [if_pos hcovers, if_pos (by omega), hdist, toBytes_getElem? _ (by omega)]
    rfl
  · have hdist : ¬ (x - s.addr).toNat < s.width.bytes := by omega
    rw [if_neg hcovers, if_neg hdist]

theorem lastStored?_cons (s : StoreOp) (rest : List StoreOp) (x : Nat) :
    lastStored? (s :: rest) x = (lastStored? rest x).or (s.byteAt? x) := by
  simp [lastStored?]

theorem lastByte?_toWrite (stores : List StoreOp) (x : Address)
    (hstores : ∀ s ∈ stores, s.addr.toNat + s.width.bytes ≤ 2 ^ 32) :
    lastByte? (stores.map StoreOp.toWrite) x = lastStored? stores x.toNat := by
  induction stores with
  | nil => rfl
  | cons s rest ih =>
      rw [List.map_cons, lastByte?_cons, lastStored?_cons,
        ih fun t ht => hstores t (List.mem_cons_of_mem s ht),
        s.toWrite_byteAt? x (hstores s List.mem_cons_self)]

theorem load_after_storeAll (build : Build) {mem : Memory} (hsized : mem.Sized)
    (hdisjoint : mem.Disjoint) (stores : List StoreOp)
    (hstores : ∀ s ∈ stores, mem.Inside s.addr s.width.bytes) :
    ∃ mem', mem.storeAll build stores = .ok mem' ∧
      ∀ (width : AccessWidth) (b : Address), mem.Inside b width.bytes →
        ∃ old new, mem.loadWidth build b width = .ok old ∧
          mem'.loadWidth build b width = .ok new ∧
          ∀ k < width.bytes,
            byteOf new k = (lastStored? stores (b.toNat + k)).getD (byteOf old k) := by
  obtain ⟨mem', hall, hbytes, hlayout⟩ := mem.storeAll_spec build stores hsized hdisjoint hstores
  refine ⟨mem', hall, ?_⟩
  intro width b hload
  obtain ⟨pre, segm, post, win⟩ := window_of_inside hsized hdisjoint hload
  obtain ⟨old, hold, holdBytes⟩ := win.loadWidth build
  obtain ⟨pre', segm', post', win'⟩ := window_of_inside (hsized.of_layout hlayout)
    (hdisjoint.of_layout hlayout) (hload.of_layout hlayout)
  obtain ⟨new, hnew, hnewBytes⟩ := win'.loadWidth build
  refine ⟨old, new, hold, hnew, ?_⟩
  intro k hk
  have hfits : ∀ s ∈ stores, s.addr.toNat + s.width.bytes ≤ 2 ^ 32 := by
    intro s hs
    obtain ⟨segm, _, _, hhigh⟩ := hstores s hs
    have hend := segm.endAddr.isLt
    omega
  have hbyte := hnewBytes k hk
  rw [hbytes, writeAll_apply, lastByte?_toWrite stores _ hfits, hload.toNat_add hk,
    holdBytes k hk] at hbyte
  cases hlast : lastStored? stores (b.toNat + k) with
  | none =>
      rw [hlast, Option.none_or] at hbyte
      exact (Option.some.inj hbyte).symm
  | some byte =>
      rw [hlast, Option.some_or] at hbyte
      exact (Option.some.inj hbyte).symm

/-- Read over write, for one store and for any sequence of stores. -/
theorem load_after_store (build : Build) (mem : Memory) (hsized : mem.Sized)
    (hdisjoint : mem.Disjoint) :
    (∀ (sw : AccessWidth) (a : Address) (val : BitVec sw.bits) (lw : AccessWidth) (b : Address),
      mem.Inside a sw.bytes → mem.Inside b lw.bytes →
      ∃ mem' old new, mem.storeWidth build a sw val = .ok mem' ∧
        mem.loadWidth build b lw = .ok old ∧ mem'.loadWidth build b lw = .ok new ∧
        ∀ k < lw.bytes, byteOf new k =
          if a.toNat ≤ b.toNat + k ∧ b.toNat + k < a.toNat + sw.bytes then
            byteOf val (b.toNat + k - a.toNat)
          else byteOf old k) ∧
    (∀ stores : List StoreOp, (∀ s ∈ stores, mem.Inside s.addr s.width.bytes) →
      ∃ mem', mem.storeAll build stores = .ok mem' ∧
        ∀ (lw : AccessWidth) (b : Address), mem.Inside b lw.bytes →
          ∃ old new, mem.loadWidth build b lw = .ok old ∧
            mem'.loadWidth build b lw = .ok new ∧
            ∀ k < lw.bytes,
              byteOf new k = (lastStored? stores (b.toNat + k)).getD (byteOf old k)) := by
  constructor
  · intro sw a val lw b hstore hload
    obtain ⟨mem', hall, hloads⟩ :=
      load_after_storeAll build hsized hdisjoint [⟨sw, a, val⟩] (by simpa using hstore)
    obtain ⟨old, new, hold, hnew, hbytes⟩ := hloads lw b hload
    have hone : mem.storeWidth build a sw val = .ok mem' := by
      simpa [Memory.storeAll] using hall
    refine ⟨mem', old, new, hone, hold, hnew, ?_⟩
    intro k hk
    rw [hbytes k hk]
    simp only [lastStored?, List.reverse_singleton, List.findSome?_singleton, StoreOp.byteAt?]
    split <;> rfl
  · intro stores hstores
    exact load_after_storeAll build hsized hdisjoint stores hstores

/-- Two adjacent segments, the first of eight bytes and the second of four. -/
def twoSegments : Memory :=
  ⟨[⟨0x1000, 0x1008, List.replicate 8 0, true, true, false⟩,
    ⟨0x1008, 0x100c, [1, 2, 3, 4], true, true, false⟩]⟩

theorem twoSegments_sized : twoSegments.Sized := by
  unfold Memory.Sized MemorySegm.Sized
  decide

theorem twoSegments_disjoint : twoSegments.Disjoint := Memory.disjoint_pair (le_refl _)

/-- A word stored over a half-word load that it covers from the middle. -/
theorem load_after_store_overlap :
    ∃ mem' old new,
      twoSegments.storeWidth .release 0x1003 .u32 (0x44332211 : BitVec 32) = .ok mem' ∧
      twoSegments.loadWidth .release 0x1002 .u16 = .ok old ∧
      mem'.loadWidth .release 0x1002 .u16 = .ok new ∧
      ∀ k < AccessWidth.u16.bytes, byteOf new k =
        if (0x1003 : Address).toNat ≤ (0x1002 : Address).toNat + k ∧
            (0x1002 : Address).toNat + k < (0x1003 : Address).toNat + AccessWidth.u32.bytes then
          byteOf (0x44332211 : BitVec 32) ((0x1002 : Address).toNat + k - (0x1003 : Address).toNat)
        else byteOf old k :=
  (load_after_store .release twoSegments twoSegments_sized twoSegments_disjoint).1
    .u32 0x1003 (0x44332211 : BitVec 32) .u16 0x1002
    ⟨_, List.mem_cons_self, by decide, by decide⟩ ⟨_, List.mem_cons_self, by decide, by decide⟩

end RiscvSim
