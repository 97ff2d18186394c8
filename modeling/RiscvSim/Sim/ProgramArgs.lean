import RiscvSim.Lib.Packed
import RiscvSim.Sim.MemoryAccess

/-!
The command line handed to the guest. `CopyArgv` puts the strings one behind the
other, each with its terminating zero, and returns where each of them starts;
`SizeOfArgv` adds up the room they need in 32-bit arithmetic.
-/

namespace RiscvSim

structure ProgramArgs where
  argc : Nat
  argv : List (List MemByte)
  argc_eq : argc = argv.length

/-- `str.data()` with `str.size() + 1` bytes: the string and its zero. -/
def cString (str : List MemByte) : List MemByte := str ++ [0]

/-- The loop of `CopyArgv` from one `copy_offset` on. -/
def copyStrings : List (List MemByte) → List MemByte → Nat →
    Except Fault (List MemByte × List (BitVec 32))
  | [], copyTo, _ => .ok (copyTo, [])
  | str :: rest, copyTo, copyOffset => do
      let copyTo ← memcpyTo copyTo copyOffset (cString str)
      let (copyTo, segmOffset) ← copyStrings rest copyTo (copyOffset + (cString str).length)
      return (copyTo, BitVec.ofNat 32 copyOffset :: segmOffset)

namespace ProgramArgs

variable (progArgs : ProgramArgs)

def sizeOfArgv : BitVec 32 :=
  progArgs.argv.foldl (fun size str => size + BitVec.ofNat 32 (str.length + 1)) 0

def copyArgv (copyTo : List MemByte) : Except Fault (List MemByte × List (BitVec 32)) :=
  copyStrings progArgs.argv copyTo 0

/-- The bytes of all the strings, with their zeros. -/
def image : List MemByte := progArgs.argv.flatMap cString

/-- Where the string of index `i` starts in them. -/
def start (i : Nat) : Nat := Packed.offset cString progArgs.argv i

end ProgramArgs

theorem cString_length (str : List MemByte) : (cString str).length = str.length + 1 := by
  simp [cString]

/-- Copying to the place behind what is already there. -/
theorem memcpyTo_append (front back bytes : List MemByte) (h : bytes.length ≤ back.length) :
    memcpyTo (front ++ back) front.length bytes =
      .ok (front ++ bytes ++ back.drop bytes.length) := by
  unfold memcpyTo
  rw [if_pos (by rw [List.length_append]; omega), List.take_left, ← List.drop_drop,
    List.drop_left]

/-- The loop fills the buffer without a gap and returns the starts. -/
theorem copyStrings_append (strs : List (List MemByte)) (front back : List MemByte)
    (h : (strs.flatMap cString).length ≤ back.length) :
    copyStrings strs (front ++ back) front.length =
      .ok (front ++ strs.flatMap cString ++ back.drop (strs.flatMap cString).length,
        (List.range strs.length).map fun i =>
          BitVec.ofNat 32 (front.length + Packed.offset cString strs i)) := by
  induction strs generalizing front back with
  | nil => simp [copyStrings]
  | cons str rest ih =>
      rw [List.flatMap_cons, List.length_append] at h
      have hcopy := memcpyTo_append front back (cString str) (by omega)
      have hrest := ih (front ++ cString str) (back.drop (cString str).length)
        (by rw [List.length_drop]; omega)
      rw [List.length_append] at hrest
      simp only [copyStrings, hcopy, bind, Except.bind]
      rw [hrest]
      have hstarts : (List.range (rest.length + 1)).map (fun i =>
          BitVec.ofNat 32 (front.length + Packed.offset cString (str :: rest) i)) =
          BitVec.ofNat 32 front.length :: (List.range rest.length).map fun i =>
            BitVec.ofNat 32 (front.length + (cString str).length +
              Packed.offset cString rest i) := by
        rw [List.range_succ_eq_map, List.map_cons, List.map_map]
        simp only [Packed.offset_zero, Nat.add_zero, Function.comp_def, Nat.succ_eq_add_one,
          Packed.offset_cons_succ, Nat.add_assoc]
      rw [List.length_cons, hstarts, List.flatMap_cons, List.length_append, List.drop_drop,
        List.append_assoc, List.append_assoc, List.append_assoc, List.append_assoc]
      rfl

theorem sizeOfArgv_fold (strs : List (List MemByte)) (size : BitVec 32) :
    strs.foldl (fun size str => size + BitVec.ofNat 32 (str.length + 1)) size =
      size + BitVec.ofNat 32 (strs.flatMap cString).length := by
  induction strs generalizing size with
  | nil => simp
  | cons str rest ih =>
      rw [List.foldl_cons, ih, List.flatMap_cons, List.length_append, cString_length,
        BitVec.add_assoc, ← BitVec.ofNat_add]

namespace ProgramArgs

variable (progArgs : ProgramArgs)

theorem sizeOfArgv_eq : progArgs.sizeOfArgv = BitVec.ofNat 32 progArgs.image.length := by
  rw [sizeOfArgv, sizeOfArgv_fold]
  exact BitVec.zero_add _

/-- On a buffer that begins with the room of the strings, the rest of the buffer
is left alone. -/
theorem copyArgv_append (buf rest : List MemByte) (h : buf.length = progArgs.image.length) :
    progArgs.copyArgv (buf ++ rest) =
      .ok (progArgs.image ++ rest,
        (List.range progArgs.argc).map fun i => BitVec.ofNat 32 (progArgs.start i)) := by
  have hfits : (progArgs.argv.flatMap cString).length ≤ (buf ++ rest).length := by
    change progArgs.image.length ≤ _
    rw [List.length_append]
    omega
  have hcopy := copyStrings_append progArgs.argv [] (buf ++ rest) hfits
  have hrest : (buf ++ rest).drop (progArgs.argv.flatMap cString).length = rest := by
    change (buf ++ rest).drop progArgs.image.length = rest
    rw [← h, List.drop_left]
  rw [List.nil_append, List.nil_append, List.length_nil, hrest] at hcopy
  rw [copyArgv, hcopy, progArgs.argc_eq]
  simp only [Nat.zero_add]
  rfl

end ProgramArgs

end RiscvSim
