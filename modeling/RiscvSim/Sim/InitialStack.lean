import RiscvSim.Sim.ByteCopy
import RiscvSim.Sim.Construct

/-!
What a program finds when it starts: the stack pointer at the argument count,
behind it a pointer to each argument string and a null pointer up to the top of
the stack, and the strings packed in the argument segment.
-/

namespace RiscvSim

open LittleEndian

theorem kStackTop_toNat : kStackTop.toNat = 2 ^ 30 := rfl
theorem kStackBase_toNat : kStackBase.toNat = 2 ^ 30 - 2 ^ 20 := rfl
theorem kStackSize_eq : kStackSize = 2 ^ 20 := rfl
theorem kArgvBase_toNat : kArgvBase.toNat = 2 ^ 30 + 4 := rfl

namespace ProgramArgs

variable (progArgs : ProgramArgs)

/-- The argument count, the pointers and the null pointer fit the stack. -/
def FitsStack : Prop := 4 * (progArgs.argc + 2) ≤ kStackSize

instance : Decidable progArgs.FitsStack := inferInstanceAs (Decidable (_ ≤ _))

/-- The strings and their zeros fit between the argument segment's base and the
top of the address space, with the four bytes of its end to spare. -/
def FitsArgv : Prop :=
  (progArgs.argv.map List.length).sum + progArgs.argc < 2 ^ 32 - kArgvBase.toNat - 4

instance : Decidable progArgs.FitsArgv := inferInstanceAs (Decidable (_ < _))

def pointer (i : Nat) : Address := kArgvBase + BitVec.ofNat 32 (progArgs.start i)

/-- The words at the top of the stack. -/
def words : List Register :=
  BitVec.ofNat 32 progArgs.argc :: (List.range progArgs.argc).map progArgs.pointer ++ [0]

/-- The distance of the stack pointer from the base of the stack. -/
def fillOffset : Nat := kStackSize - 4 * (progArgs.argc + 2)

def fillStart : Address := kStackTop - BitVec.ofNat 32 (kXlenByte * (progArgs.argc + 2))

def stackSegm : MemorySegm where
  startAddr := kStackBase
  endAddr := kStackTop
  data := List.replicate progArgs.fillOffset 0 ++ progArgs.words.flatMap (toBytes 4)
  rPermission := true
  wPermission := true
  xPermission := false

def argvSegm : MemorySegm where
  startAddr := kArgvBase
  endAddr := kArgvBase + progArgs.sizeOfArgv + 4
  data := progArgs.image
  rPermission := true
  wPermission := false
  xPermission := false

end ProgramArgs

/-- The simulator that the constructor builds. -/
def RVSim.initial (parsedElf : ParsedElf) (progArgs : ProgramArgs) : RVSim where
  memory := ⟨parsedElf.mem ++ [progArgs.stackSegm, progArgs.argvSegm]⟩
  ip := parsedElf.entryPoint
  shouldStop := false
  xregs := initialXRegs parsedElf.globalPtr progArgs.fillStart
  fregs := Vector.replicate 32 0
  fcsr := 0

theorem memcpyToPtr_append (front back bytes : List MemByte) (h : bytes.length ≤ back.length) :
    memcpyToPtr (front ++ back) front.length bytes =
      .ok (front ++ bytes ++ back.drop bytes.length) := by
  have hptr : ¬ (front.length : Int) < 0 := by omega
  rw [memcpyToPtr, if_neg hptr, Int.toNat_natCast, memcpyTo_append front back bytes h]

/-- The loop writes the pointers one behind the other. -/
theorem fillPointers_append (table : List (BitVec 32)) (front back : List MemByte)
    (h : 4 * table.length ≤ back.length) :
    fillPointers table (front ++ back) front.length =
      .ok (front ++ (table.map (kArgvBase + ·)).flatMap (toBytes 4) ++
          back.drop (4 * table.length),
        front.length + 4 * table.length) := by
  induction table generalizing front back with
  | nil => simp [fillPointers]
  | cons segmOffset rest ih =>
      have hbytes : (toBytes 4 (kArgvBase + segmOffset)).length = 4 := toBytes_length _ _
      rw [List.length_cons] at h
      have hcopy := memcpyToPtr_append front back (toBytes 4 (kArgvBase + segmOffset)) (by omega)
      have hrest := ih (front ++ toBytes 4 (kArgvBase + segmOffset)) (back.drop 4)
        (by rw [List.length_drop]; omega)
      rw [hbytes] at hcopy
      rw [List.length_append, hbytes, Nat.cast_add, Nat.cast_ofNat] at hrest
      simp only [fillPointers, hcopy, bind, Except.bind]
      rw [hrest, List.drop_drop, List.length_cons, List.map_cons, List.flatMap_cons]
      simp only [List.append_assoc, Except.ok.injEq, Prod.mk.injEq, Nat.mul_succ]
      constructor
      · rw [Nat.add_comm]
      · push_cast
        omega

namespace ProgramArgs

variable {progArgs : ProgramArgs}

theorem image_length (progArgs : ProgramArgs) :
    progArgs.image.length = (progArgs.argv.map List.length).sum + progArgs.argc := by
  rw [image, List.length_flatMap, progArgs.argc_eq]
  induction progArgs.argv with
  | nil => rfl
  | cons str rest ih =>
      rw [List.map_cons, List.sum_cons, ih, List.map_cons, List.sum_cons, cString_length,
        List.length_cons]
      omega

theorem FitsArgv.room (h : progArgs.FitsArgv) :
    2 ^ 30 + 4 + progArgs.image.length + 4 < 2 ^ 32 := by
  unfold FitsArgv at h
  rw [kArgvBase_toNat, ← image_length] at h
  omega

theorem FitsArgv.sizeOfArgv_toNat (h : progArgs.FitsArgv) :
    progArgs.sizeOfArgv.toNat = progArgs.image.length := by
  have hroom := h.room
  rw [sizeOfArgv_eq, BitVec.toNat_ofNat, Nat.mod_eq_of_lt (by omega)]

/-- No address of the argument segment wraps, nor does its end. -/
theorem FitsArgv.addr_toNat (h : progArgs.FitsArgv) {pos : Nat}
    (hpos : pos ≤ progArgs.image.length) :
    (kArgvBase + BitVec.ofNat 32 pos).toNat = kArgvBase.toNat + pos := by
  have hroom := h.room
  rw [BitVec.toNat_add, BitVec.toNat_ofNat, kArgvBase_toNat]
  omega

theorem FitsArgv.end_toNat (h : progArgs.FitsArgv) :
    (kArgvBase + progArgs.sizeOfArgv + 4).toNat =
      kArgvBase.toNat + progArgs.sizeOfArgv.toNat + 4 := by
  have hroom := h.room
  have hfour : (4 : Address).toNat = 4 := rfl
  rw [BitVec.toNat_add, BitVec.toNat_add, kArgvBase_toNat, h.sizeOfArgv_toNat, hfour]
  omega

theorem start_add_le (progArgs : ProgramArgs) {i : Nat} (hi : i < progArgs.argv.length) :
    progArgs.start i + (progArgs.argv[i].length + 1) ≤ progArgs.image.length := by
  have hfits := Packed.offset_add_le cString progArgs.argv hi
  rwa [cString_length] at hfits

theorem FitsStack.fillStart_toNat (h : progArgs.FitsStack) :
    progArgs.fillStart.toNat = kStackBase.toNat + progArgs.fillOffset := by
  unfold FitsStack at h
  unfold fillStart fillOffset
  have hsmall : (BitVec.ofNat 32 (kXlenByte * (progArgs.argc + 2))).toNat =
      4 * (progArgs.argc + 2) := by
    rw [kStackSize_eq] at h
    rw [BitVec.toNat_ofNat, kXlenByte, Nat.mod_eq_of_lt (by omega)]
  rw [BitVec.toNat_sub_of_le, hsmall, kStackTop_toNat, kStackBase_toNat, kStackSize_eq]
  · rw [kStackSize_eq] at h
    omega
  · rw [BitVec.le_def, hsmall, kStackTop_toNat]
    rw [kStackSize_eq] at h
    omega

/-- The first copy goes to the offset of the words, and they reach the end. -/
theorem FitsStack.fillStart_sub (h : progArgs.FitsStack) :
    (progArgs.fillStart.toNat : Int) - kStackBase.toNat = progArgs.fillOffset := by
  rw [h.fillStart_toNat]
  omega

theorem FitsStack.size_eq (h : progArgs.FitsStack) {table : List (BitVec 32)}
    (hlength : table.length = progArgs.argc) :
    kStackSize = progArgs.fillOffset + 4 * (table.length + 2) := by
  unfold FitsStack at h
  rw [hlength, fillOffset]
  omega

end ProgramArgs

/-- The three fills of the stack: the count, the pointers, the null pointer. -/
theorem fillStack (count null : Register) (table : List (BitVec 32)) (k : Nat) :
    ∃ afterCount afterPointers,
      memcpyToPtr (List.replicate (k + 4 * (table.length + 2)) 0) k (toBytes 4 count) =
        .ok afterCount ∧
      fillPointers table afterCount (k + 4) =
        .ok (afterPointers, (k : Int) + 4 + 4 * table.length) ∧
      memcpyToPtr afterPointers ((k : Int) + 4 + 4 * table.length) (toBytes 4 null) =
        .ok (List.replicate k 0 ++
          (count :: table.map (kArgvBase + ·) ++ [null]).flatMap (toBytes 4)) := by
  have hcount : (toBytes 4 count).length = 4 := toBytes_length _ _
  have hnull : (toBytes 4 null).length = 4 := toBytes_length _ _
  have hsplit : List.replicate (k + 4 * (table.length + 2)) (0 : MemByte) =
      List.replicate k 0 ++ List.replicate (4 * (table.length + 2)) 0 := by
    rw [List.replicate_append_replicate]
  have hfirst := memcpyToPtr_append (List.replicate k 0)
    (List.replicate (4 * (table.length + 2)) 0) (toBytes 4 count)
    (by rw [hcount, List.length_replicate]; omega)
  rw [List.length_replicate, hcount, List.drop_replicate, ← hsplit] at hfirst
  have hpointers := fillPointers_append table (List.replicate k 0 ++ toBytes 4 count)
    (List.replicate (4 * (table.length + 2) - 4) 0)
    (by rw [List.length_replicate]; omega)
  rw [List.length_append, List.length_replicate, hcount, Nat.cast_add, Nat.cast_ofNat,
    List.drop_replicate] at hpointers
  have hpack : ((table.map (kArgvBase + ·)).flatMap (toBytes 4)).length = 4 * table.length := by
    simp [List.length_flatMap, Function.comp_def, Nat.mul_comm]
  have hlast := memcpyToPtr_append
    (List.replicate k 0 ++ toBytes 4 count ++ (table.map (kArgvBase + ·)).flatMap (toBytes 4))
    (List.replicate (4 * (table.length + 2) - 4 - 4 * table.length) 0) (toBytes 4 null)
    (by rw [hnull, List.length_replicate]; omega)
  rw [List.length_append, List.length_append, List.length_replicate, hcount, hpack, hnull,
    List.drop_replicate] at hlast
  have hempty : 4 * (table.length + 2) - 4 - 4 * table.length - 4 = 0 := by omega
  refine ⟨_, _, hfirst, hpointers, ?_⟩
  rw [hempty, List.replicate_zero, List.append_nil] at hlast
  simp only [Nat.cast_add, Nat.cast_mul, Nat.cast_ofNat] at hlast
  rw [hlast]
  simp only [List.cons_append, List.flatMap_cons, List.flatMap_append, List.flatMap_nil,
    List.append_nil, List.append_assoc]

/-- The constructor completes, with this simulator. -/
theorem RVSim.construct_eq (parsedElf : ParsedElf) {progArgs : ProgramArgs}
    (hstack : progArgs.FitsStack) (hargv : progArgs.FitsArgv) :
    RVSim.construct parsedElf progArgs = .ok (RVSim.initial parsedElf progArgs) := by
  have hcopy := progArgs.copyArgv_append (List.replicate progArgs.sizeOfArgv.toNat 0) []
    (by rw [List.length_replicate, hargv.sizeOfArgv_toNat])
  rw [List.append_nil, List.append_nil] at hcopy
  have hfill := hstack.fillStart_sub
  generalize htable : ((List.range progArgs.argc).map fun i =>
    BitVec.ofNat 32 (progArgs.start i)) = table at hcopy
  have hlength : table.length = progArgs.argc := by
    rw [← htable, List.length_map, List.length_range]
  have hsize := hstack.size_eq hlength
  have hwords : progArgs.words =
      BitVec.ofNat 32 progArgs.argc :: table.map (kArgvBase + ·) ++ [0] := by
    rw [← htable, List.map_map]
    rfl
  obtain ⟨afterCount, afterPointers, hfirst, hpointers, hlast⟩ :=
    fillStack (BitVec.ofNat 32 progArgs.argc) 0 table progArgs.fillOffset
  rw [← hsize] at hfirst
  rw [← hwords] at hlast
  unfold ProgramArgs.fillStart at hfill
  -- one bind at a time: the kernel must not look into the fills of the stack
  unfold RVSim.construct
  dsimp only
  rw [hcopy, ok_bind]
  dsimp only
  rw [hfill, hfirst, ok_bind, hpointers, ok_bind]
  dsimp only
  rw [hlast, ok_bind, Memory.addSegment, Memory.addSegment, List.append_assoc]
  rfl

/-- No segment of the program file contains an address of the stack or of the
argument strings. -/
def ParsedElf.Avoids (parsedElf : ParsedElf) (progArgs : ProgramArgs) : Prop :=
  ∀ segm ∈ parsedElf.mem, ∀ addr, isAddrInSegment addr segm = true →
    ¬ (kStackBase.toNat ≤ addr.toNat ∧ addr.toNat < kStackTop.toNat) ∧
    ¬ (kArgvBase.toNat ≤ addr.toNat ∧
      addr.toNat < kArgvBase.toNat + progArgs.sizeOfArgv.toNat)

namespace ProgramArgs

variable (progArgs : ProgramArgs)

theorem words_length : progArgs.words.length = progArgs.argc + 2 := by
  simp [words]

variable {progArgs}

theorem FitsStack.room (h : progArgs.FitsStack) :
    progArgs.fillOffset + 4 * (progArgs.argc + 2) = 2 ^ 20 := by
  unfold FitsStack at h
  unfold fillOffset
  rw [kStackSize_eq] at h ⊢
  omega

/-- The words are found in the stack segment's data at multiples of four. -/
theorem memcpyFrom_stackSegm {j : Nat} (hj : j < progArgs.words.length) :
    memcpyFrom progArgs.stackSegm.data (progArgs.fillOffset + 4 * j) 4 =
      .ok (toBytes 4 progArgs.words[j]) := by
  have hstart : Packed.offset (toBytes 4) progArgs.words j = 4 * j :=
    Packed.offset_of_const _ _ (toBytes_length 4) (by omega)
  have hrecord := Packed.drop_take_record (toBytes 4) progArgs.words hj
  have hfits := Packed.offset_add_le (toBytes 4) progArgs.words hj
  rw [toBytes_length, hstart] at hrecord hfits
  have hdata : progArgs.stackSegm.data =
      List.replicate progArgs.fillOffset 0 ++ progArgs.words.flatMap (toBytes 4) := rfl
  have hzeros : (List.replicate progArgs.fillOffset (0 : MemByte)).length =
      progArgs.fillOffset := List.length_replicate
  have hdrop : progArgs.stackSegm.data.drop (progArgs.fillOffset + 4 * j) =
      (progArgs.words.flatMap (toBytes 4)).drop (4 * j) := by
    rw [hdata, ← List.drop_drop, List.drop_left' hzeros]
  rw [memcpyFrom, if_pos (by rw [hdata, List.length_append, hzeros]; omega), hdrop, hrecord]

/-- The address of a word at the top of the stack. -/
theorem FitsStack.wordAddr_toNat (h : progArgs.FitsStack) {j : Nat}
    (hj : j < progArgs.words.length) :
    (progArgs.fillStart + BitVec.ofNat 32 (4 * j)).toNat =
      kStackBase.toNat + (progArgs.fillOffset + 4 * j) := by
  have hroom := h.room
  rw [words_length] at hj
  rw [BitVec.toNat_add, BitVec.toNat_ofNat, h.fillStart_toNat, kStackBase_toNat]
  omega

end ProgramArgs

section Lookup

variable {parsedElf : ParsedElf} {progArgs : ProgramArgs} (build : Build)

theorem RVSim.initial_sp :
    (RVSim.initial parsedElf progArgs).getXReg XRegAlias.sp = progArgs.fillStart := by
  simp [RVSim.getXReg, RVSim.initial, initialXRegs, XRegAlias.sp, XRegAlias.zero]

/-- A word load from the top of the stack finds the word that was filled in. -/
theorem RVSim.initial_loadU32 (hstack : progArgs.FitsStack)
    (helf : parsedElf.Avoids progArgs) {j : Nat} (hj : j < progArgs.words.length) :
    (RVSim.initial parsedElf progArgs).memory.loadU32 build
      (progArgs.fillStart + BitVec.ofNat 32 (4 * j)) = .ok progArgs.words[j] := by
  have haddr := hstack.wordAddr_toNat hj
  have hroom := hstack.room
  have hlength := progArgs.words_length
  generalize progArgs.fillStart + BitVec.ofNat 32 (4 * j) = addr at haddr ⊢
  have hrange : kStackBase.toNat ≤ addr.toNat ∧ addr.toNat < kStackTop.toNat := by
    rw [haddr, kStackTop_toNat, kStackBase_toNat]
    omega
  have hpre : ∀ segm ∈ parsedElf.mem, isAddrInSegment addr segm = false := by
    intro segm hsegm
    by_contra hin
    exact (helf segm hsegm addr (by simpa using hin)).1 hrange
  have hin : isAddrInSegment addr progArgs.stackSegm = true :=
    (isAddrInSegment_iff _ _).mpr hrange
  have hoffset : progArgs.stackSegm.offset addr = progArgs.fillOffset + 4 * j := by
    have hbase : progArgs.stackSegm.startAddr = kStackBase := rfl
    rw [MemorySegm.offset, hbase, BitVec.toNat_sub_of_le (BitVec.le_def.mpr hrange.1), haddr,
      Nat.add_sub_cancel_left]
  rw [Memory.loadU32, RVSim.initial, loadFrom_append build 32 hpre hin, hoffset]
  have hcopy := ProgramArgs.memcpyFrom_stackSegm hj
  rw [hcopy]
  exact congrArg Except.ok (toWord_toBytes progArgs.words[j] (by decide))

/-- A byte load from the argument segment finds the byte of the strings. -/
theorem RVSim.initial_loadU8 (hargv : progArgs.FitsArgv) (helf : parsedElf.Avoids progArgs)
    {pos : Nat} (hpos : pos < progArgs.image.length) :
    (RVSim.initial parsedElf progArgs).memory.loadU8 build
      (kArgvBase + BitVec.ofNat 32 pos) = .ok progArgs.image[pos] := by
  have hsize := hargv.sizeOfArgv_toNat
  have hend := hargv.end_toNat
  have haddr := hargv.addr_toNat hpos.le
  generalize kArgvBase + BitVec.ofNat 32 pos = addr at haddr ⊢
  have hrange : kArgvBase.toNat ≤ addr.toNat ∧
      addr.toNat < kArgvBase.toNat + progArgs.sizeOfArgv.toNat := by
    omega
  have hstackSegm : isAddrInSegment addr progArgs.stackSegm = false := by
    by_contra hcontra
    have hin : isAddrInSegment addr progArgs.stackSegm = true := by simpa using hcontra
    have hbelow : addr.toNat < kStackTop.toNat := ((isAddrInSegment_iff _ _).mp hin).2
    rw [kStackTop_toNat] at hbelow
    rw [kArgvBase_toNat] at hrange
    omega
  have hnone : (parsedElf.mem ++ [progArgs.stackSegm]).find? (isAddrInSegment addr) = none := by
    rw [List.find?_eq_none]
    intro segm hsegm
    rcases List.mem_append.mp hsegm with hmem | hmem
    · intro hin
      exact (helf segm hmem addr hin).2 hrange
    · rw [List.mem_singleton.mp hmem, hstackSegm]
      decide
  have hin : isAddrInSegment addr progArgs.argvSegm = true := by
    refine (isAddrInSegment_iff _ _).mpr ⟨hrange.1, ?_⟩
    change addr.toNat < (kArgvBase + progArgs.sizeOfArgv + 4).toNat
    omega
  have hoffset : progArgs.argvSegm.offset addr = pos := by
    have hbase : progArgs.argvSegm.startAddr = kArgvBase := rfl
    rw [MemorySegm.offset, hbase, BitVec.toNat_sub_of_le (BitVec.le_def.mpr hrange.1), haddr,
      Nat.add_sub_cancel_left]
  apply Memory.loadU8_of_byteAt
  have hsplit : (RVSim.initial parsedElf progArgs).memory =
      Memory.mk ((parsedElf.mem ++ [progArgs.stackSegm]) ++ progArgs.argvSegm :: []) := by
    rw [List.append_assoc]
    rfl
  rw [hsplit, byteAt_append, hnone]
  simp only [hin, if_true, hoffset]
  exact List.getElem?_eq_getElem hpos

/-- A byte load through the pointer to a string. -/
theorem RVSim.initial_loadU8_pointer (hargv : progArgs.FitsArgv)
    (helf : parsedElf.Avoids progArgs) {i : Nat} (hi : i < progArgs.argv.length) {k : Nat}
    {byte : MemByte} (hbyte : (cString progArgs.argv[i])[k]? = some byte) :
    (RVSim.initial parsedElf progArgs).memory.loadU8 build
      (progArgs.pointer i + BitVec.ofNat 32 k) = .ok byte := by
  obtain ⟨hk, _⟩ := List.getElem?_eq_some_iff.mp hbyte
  have himage : progArgs.image[progArgs.start i + k]? = some byte :=
    (Packed.getElem?_record cString progArgs.argv hi hk).trans hbyte
  obtain ⟨hpos, rfl⟩ := List.getElem?_eq_some_iff.mp himage
  have haddr : progArgs.pointer i + BitVec.ofNat 32 k =
      kArgvBase + BitVec.ofNat 32 (progArgs.start i + k) := by
    rw [ProgramArgs.pointer, BitVec.add_assoc, ← BitVec.ofNat_add]
  rw [haddr, RVSim.initial_loadU8 build hargv helf hpos]

theorem ProgramArgs.pointer_toNat (hargv : progArgs.FitsArgv) {i : Nat}
    (hi : i < progArgs.argv.length) :
    (progArgs.pointer i).toNat = kArgvBase.toNat + progArgs.start i := by
  have hfits := progArgs.start_add_le hi
  exact hargv.addr_toNat (by omega)

theorem ProgramArgs.words_pointer {i : Nat} (hi : i < progArgs.argc) :
    progArgs.words[i + 1]? = some (progArgs.pointer i) := by
  have hpointers : ((List.range progArgs.argc).map progArgs.pointer).length = progArgs.argc := by
    simp
  rw [words, List.cons_append, List.getElem?_cons_succ, List.getElem?_append_left (by omega),
    List.getElem?_map, List.getElem?_range hi]
  rfl

theorem ProgramArgs.words_null : progArgs.words[progArgs.argc + 1]? = some 0 := by
  have hpointers : ((List.range progArgs.argc).map progArgs.pointer).length = progArgs.argc := by
    simp
  rw [words, List.cons_append, List.getElem?_cons_succ, List.getElem?_append_right (by omega),
    hpointers, Nat.sub_self]
  rfl

end Lookup

/-- The initial stack and the image of the arguments. -/
theorem construct_initialStack (build : Build) (parsedElf : ParsedElf) (progArgs : ProgramArgs)
    (hstack : progArgs.FitsStack) (hargv : progArgs.FitsArgv)
    (helf : parsedElf.Avoids progArgs) :
    ∃ sim, RVSim.construct parsedElf progArgs = .ok sim ∧
      let sp := sim.getXReg XRegAlias.sp
      (∃ count, sim.memory.loadU32 build sp = .ok count ∧ count.toNat = progArgs.argc) ∧
      (∀ i (hi : i < progArgs.argv.length), ∃ p,
        sim.memory.loadU32 build (sp + BitVec.ofNat 32 (4 * (i + 1))) = .ok p ∧
        (∀ k (hk : k < progArgs.argv[i].length),
          sim.memory.loadU8 build (p + BitVec.ofNat 32 k) = .ok progArgs.argv[i][k]) ∧
        sim.memory.loadU8 build (p + BitVec.ofNat 32 progArgs.argv[i].length) = .ok 0 ∧
        p.toNat = kArgvBase.toNat + progArgs.start i ∧
        progArgs.start i + progArgs.argv[i].length + 1 ≤ progArgs.sizeOfArgv.toNat) ∧
      sim.memory.loadU32 build (sp + BitVec.ofNat 32 (4 * (progArgs.argc + 1))) = .ok 0 ∧
      sp.toNat + 4 * (progArgs.argc + 2) = kStackTop.toNat ∧
      (∀ pos < progArgs.sizeOfArgv.toNat, ∃! i, ∃ hi : i < progArgs.argv.length,
        progArgs.start i ≤ pos ∧ pos < progArgs.start i + (progArgs.argv[i].length + 1)) ∧
      (∀ buf rest, buf.length = progArgs.sizeOfArgv.toNat →
        ∃ data segmOffset, data.length = buf.length ∧
          progArgs.copyArgv (buf ++ rest) = .ok (data ++ rest, segmOffset)) := by
  have hsize := hargv.sizeOfArgv_toNat
  have hwords := progArgs.words_length
  have hroom := hstack.room
  refine ⟨RVSim.initial parsedElf progArgs, RVSim.construct_eq parsedElf hstack hargv, ?_⟩
  simp only [RVSim.initial_sp]
  have hload : ∀ {j : Nat} {word : Register}, progArgs.words[j]? = some word →
      (RVSim.initial parsedElf progArgs).memory.loadU32 build
        (progArgs.fillStart + BitVec.ofNat 32 (4 * j)) = .ok word := by
    intro j word hword
    obtain ⟨hj, rfl⟩ := List.getElem?_eq_some_iff.mp hword
    exact RVSim.initial_loadU32 build hstack helf hj
  refine ⟨?_, ?_, hload progArgs.words_null, ?_, ?_, ?_⟩
  · have hcount := hload (rfl : progArgs.words[0]? = some (BitVec.ofNat 32 progArgs.argc))
    rw [Nat.mul_zero, BitVec.add_zero] at hcount
    refine ⟨_, hcount, ?_⟩
    rw [BitVec.toNat_ofNat]
    omega
  · intro i hi
    have hargc := progArgs.argc_eq
    have hfits := progArgs.start_add_le hi
    refine ⟨progArgs.pointer i, hload (progArgs.words_pointer (by omega)), ?_, ?_,
      progArgs.pointer_toNat hargv hi, by omega⟩
    · intro k hk
      apply RVSim.initial_loadU8_pointer build hargv helf hi
      rw [cString, List.getElem?_append_left hk, List.getElem?_eq_getElem hk]
    · apply RVSim.initial_loadU8_pointer build hargv helf hi
      rw [cString, List.getElem?_concat_length]
  · rw [hstack.fillStart_toNat, kStackTop_toNat, kStackBase_toNat]
    omega
  · intro pos hpos
    rw [hsize] at hpos
    have hunique := Packed.existsUnique_record cString progArgs.argv hpos
    simp only [cString_length] at hunique
    exact hunique
  · intro buf rest hbuf
    exact ⟨_, _, by rw [hbuf, hsize], progArgs.copyArgv_append buf rest (by rw [hbuf, hsize])⟩

/-- A program file with one segment, and a command line of one string of one
character and an empty string. -/
def smallElf : ParsedElf :=
  ⟨[⟨0x10000, 0x10004, [0x73, 0, 0, 0], true, false, true⟩], 0x10000, 0⟩

def twoArgs : ProgramArgs := ⟨2, [[0x61], []], rfl⟩

theorem smallElf_avoids : smallElf.Avoids twoArgs := by
  intro segm hsegm addr hin
  obtain rfl := List.mem_singleton.mp hsegm
  have hbelow : addr.toNat < 0x10004 := ((isAddrInSegment_iff _ _).mp hin).2
  rw [kStackBase_toNat, kArgvBase_toNat]
  omega

theorem construct_initialStack_twoArgs :
    ∃ sim p, RVSim.construct smallElf twoArgs = .ok sim ∧
      sim.memory.loadU32 .debug (sim.getXReg XRegAlias.sp + BitVec.ofNat 32 (4 * (0 + 1))) =
        .ok p ∧
      sim.memory.loadU8 .debug (p + BitVec.ofNat 32 0) = .ok 0x61 ∧
      sim.memory.loadU8 .debug (p + BitVec.ofNat 32 1) = .ok 0 := by
  obtain ⟨sim, hsim, _, hargs, _⟩ :=
    construct_initialStack .debug smallElf twoArgs (by decide) (by decide) smallElf_avoids
  obtain ⟨p, hp, hbytes, hzero, _⟩ := hargs 0 (by decide)
  exact ⟨sim, p, hsim, hp, hbytes 0 (by decide), hzero⟩

end RiscvSim
