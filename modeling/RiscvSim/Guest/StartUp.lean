import RiscvSim.Guest.TextFile

/-!
The start-up code `api.s` of the larger tests. It finds the argument count and
the table of the arguments on the stack that the constructor laid out, calls
`main`, and exits with what `main` returns. The function itself may be any code
that keeps to the calling convention; it may use all that the simulator has.
-/

namespace Rv32imb

/-- The text of `api.s`, from `read` on, with the distance of `main` from the call, before
it or behind it. The call is the single jump that the linker relaxes it to. -/
def apiCode (offset : Int) : List Asm :=
  [addi a7 zero 63,
   .ecall,
   jalr zero ra 0,
   -- write
   addi a7 zero 64,
   .ecall,
   jalr zero ra 0,
   -- exit
   addi a7 zero 93,
   .ecall,
   -- _start
   lw a0 sp 0,
   addi a1 sp 4,
   jal ra offset,
   jal zero (-20)]

end Rv32imb

namespace RiscvSim

open ByteStore LittleEndian Runs TotalCorrectness
open Rv32imb (At CodeAt ExitsWith apiCode lineAddr textBytes)

/-- The vector of the arguments, as a C program expects it: the addresses of the
strings, each with its terminating zero, and a null pointer behind them. -/
structure ArgvAt (mem : Store 32) (addr : Address) (argv : List (List MemByte)) : Prop where
  strings : ∀ i (hi : i < argv.length), ∃ p,
    read mem (addr + BitVec.ofNat 32 (4 * i)) 4 = some (toBytes 4 p) ∧
      read mem p (argv[i].length + 1) = some (cString argv[i])
  null : read mem (addr + BitVec.ofNat 32 (4 * argv.length)) 4 = some (toBytes 4 (0 : Register))

/-- In a memory without overlaps, bytes of a segment's data are read at their
place. -/
theorem Memory.Disjoint.read_data {mem : Memory} (hdisjoint : mem.Disjoint) {segm : MemorySegm}
    (hsegm : segm ∈ mem.memory) {addr : Address} {pos : Nat}
    (haddr : addr.toNat = segm.startAddr.toNat + pos) {bytes : List MemByte} {n : Nat}
    (hlength : bytes.length = n) (hend : addr.toNat + n ≤ segm.endAddr.toNat)
    (hdata : ∀ i < n, segm.data[pos + i]? = bytes[i]?) :
    read mem.byteAt addr n = some bytes := by
  subst hlength
  apply read_eq_some_of_apply
  intro i hi
  have hnext : (addr + BitVec.ofNat 32 i).toNat = addr.toNat + i := by
    have htop := segm.endAddr.isLt
    rw [BitVec.toNat_add, BitVec.toNat_ofNat]
    omega
  have hin : isAddrInSegment (addr + BitVec.ofNat 32 i) segm = true := by
    rw [isAddrInSegment_iff, hnext]
    omega
  have hoffset : segm.offset (addr + BitVec.ofNat 32 i) = pos + i := by
    rw [MemorySegm.offset, BitVec.toNat_sub_of_le (BitVec.le_def.mpr (by omega)), hnext]
    omega
  rw [hdisjoint.byteAt_eq hsegm hin, hoffset]
  exact hdata i hi

section InitialStack

variable {elf : Elf} {progArgs : ProgramArgs}
  (hapart : (RVSim.initial elf.parsed progArgs).memory.Apart)

include hapart

/-- The words at the top of the stack, as the machine reads them. -/
theorem bootState_word (hstack : progArgs.FitsStack) {j : Nat} {word : Register}
    (hword : progArgs.words[j]? = some word) :
    read (bootState elf progArgs).mem (progArgs.fillStart + BitVec.ofNat 32 (4 * j)) 4 =
      some (toBytes 4 word) := by
  obtain ⟨hj, rfl⟩ := List.getElem?_eq_some_iff.mp hword
  have haddr := hstack.wordAddr_toNat hj
  have hroom := hstack.room
  have hcount := progArgs.words_length
  have hsegm : progArgs.stackSegm ∈ (RVSim.initial elf.parsed progArgs).memory.memory :=
    List.mem_append_right _ List.mem_cons_self
  have hend : progArgs.stackSegm.endAddr.toNat = kStackTop.toNat := rfl
  apply hapart.disjoint.read_data hsegm haddr (toBytes_length 4 _)
  · rw [hend, haddr, kStackTop_toNat, kStackBase_toNat]
    omega
  intro i hi
  have hstart : Packed.offset (toBytes 4) progArgs.words j = 4 * j :=
    Packed.offset_of_const _ _ (toBytes_length 4) hj.le
  have hrecord := Packed.getElem?_record (toBytes 4) progArgs.words hj
    (by rw [toBytes_length]; exact hi)
  have hzeros : (List.replicate progArgs.fillOffset (0 : MemByte)).length =
      progArgs.fillOffset := List.length_replicate
  rw [hstart] at hrecord
  rw [ProgramArgs.stackSegm, List.getElem?_append_right (by omega), hzeros, ← hrecord]
  congr 1
  omega

/-- A string of the argument segment with its zero. -/
theorem bootState_string (hargv : progArgs.FitsArgv) {i : Nat} (hi : i < progArgs.argv.length) :
    read (bootState elf progArgs).mem (progArgs.pointer i) (progArgs.argv[i].length + 1) =
      some (cString progArgs.argv[i]) := by
  have haddr := ProgramArgs.pointer_toNat hargv hi
  have hfits := progArgs.start_add_le hi
  have hsize := hargv.sizeOfArgv_toNat
  have hsegm : progArgs.argvSegm ∈ (RVSim.initial elf.parsed progArgs).memory.memory :=
    List.mem_append_right _ (List.mem_cons_of_mem _ List.mem_cons_self)
  have hend : progArgs.argvSegm.endAddr.toNat =
      kArgvBase.toNat + progArgs.sizeOfArgv.toNat + 4 := hargv.end_toNat
  apply hapart.disjoint.read_data hsegm haddr (cString_length _)
  · rw [hend, haddr]
    omega
  · intro k hk
    rw [← cString_length] at hk
    exact Packed.getElem?_record cString progArgs.argv hi hk

/-- Behind the argument count lies the vector of the arguments. -/
theorem bootState_argvAt (hstack : progArgs.FitsStack) (hargv : progArgs.FitsArgv) :
    ArgvAt (bootState elf progArgs).mem (progArgs.fillStart + 4) progArgs.argv := by
  have hword {j : Nat} {word : Register} (hword : progArgs.words[j + 1]? = some word) :
      read (bootState elf progArgs).mem (progArgs.fillStart + 4 + BitVec.ofNat 32 (4 * j)) 4 =
        some (toBytes 4 word) := by
    have hnext : progArgs.fillStart + 4 + BitVec.ofNat 32 (4 * j) =
        progArgs.fillStart + BitVec.ofNat 32 (4 * (j + 1)) := by
      rw [Nat.mul_succ, Nat.add_comm (4 * j), BitVec.ofNat_add, BitVec.add_assoc]
      rfl
    rw [hnext]
    exact bootState_word hapart hstack hword
  constructor
  · intro i hi
    have hcount := progArgs.argc_eq
    exact ⟨progArgs.pointer i, hword (progArgs.words_pointer (by omega)),
      bootState_string hapart hargv hi⟩
  · rw [← progArgs.argc_eq]
    exact hword progArgs.words_null

end InitialStack

/-- The specified machine at the first instruction of `main`. -/
structure EntersMain (base : Address) (offset : Int) (progArgs : ProgramArgs)
    (start s : Rv32i.State) : Prop where
  pc : s.pc = lineAddr base 10 + BitVec.ofInt 32 offset
  link : s.reg Rv32imb.ra = lineAddr base 11
  count : s.reg Rv32imb.a0 = BitVec.ofNat 32 progArgs.argc
  vector : ArgvAt s.mem (s.reg Rv32imb.a1) progArgs.argv
  stack : s.reg Rv32imb.sp = progArgs.fillStart
  memory : s.mem = start.mem

/-- The simulator behind the return from `main`. -/
structure ReturnsFromMain {H : Type} (code : List Rv32imb.Asm) (base : Address) (status : Register)
    (host : H) (m : Machine H) : Prop where
  running : m.sim.shouldStop = false
  atReturn : At code base 11 m.sim.toSpec
  status : m.sim.toSpec.reg Rv32imb.a0 = status
  host : m.host = host

section Run

variable {offset : Int} {base : Address} {s : Rv32i.State}

/-- The lines from `_start` to the call. -/
theorem reaches_entersMain {progArgs : ProgramArgs} (hstart : At (apiCode offset) base 8 s)
    (hsp : s.reg Rv32imb.sp = progArgs.fillStart)
    (hcount : read s.mem progArgs.fillStart 4 =
      some (toBytes 4 (BitVec.ofNat 32 progArgs.argc : Register)))
    (hvector : ArgvAt s.mem (progArgs.fillStart + 4) progArgs.argv) :
    Reaches ExactStep (EntersMain base offset progArgs s) s := by
  apply hstart.reaches_lw rfl (BitVec.ofNat 32 progArgs.argc)
  · rw [hsp]
    exact (congrArg (read s.mem · 4) (BitVec.add_zero _)).trans hcount
  intro hload
  apply hload.reaches_plain 1 rfl
  intro hcall
  apply hcall.reaches_jump rfl rfl
  apply Reaches.here
  constructor
  · rfl
  · simp (disch := decide) [apiCode]
  · simp (disch := decide) [apiCode]
  · simp (disch := decide) [apiCode, hsp]
    exact hvector
  · simp (disch := decide) [apiCode, hsp]
  · simp (disch := decide) [apiCode]

/-- The lines from the return to the exit call. -/
theorem reaches_exitCall (hreturn : At (apiCode offset) base 11 s) :
    Reaches ExactStep (ExitsWith (s.reg Rv32imb.a0)) s := by
  apply hreturn.reaches_jal (j := 6) rfl rfl
  intro hexit
  apply hexit.reaches_plain 1 rfl
  intro hcall
  apply Reaches.here
  apply hcall.exitsWith rfl
  · simp (disch := decide) [apiCode]
  · simp (disch := decide) [apiCode]

variable {H : Type} {env : Env H} {readElf : List MemByte → Option Elf}
  {softfloat : SoftFloatState} {argv : List (List MemByte)} {elf : Elf}

theorem ReturnsFromMain.reaches_exit {m : Machine H} {status : Register} {host : H}
    (h : ReturnsFromMain (apiCode offset) base status host m) (hapart : m.sim.memory.Apart) :
    Reaches (Iterates env) (fun last => last.sim.shouldStop = false ∧ AtExit env last ∧
      last.sim.getXReg XRegAlias.a0 = status ∧ last.host = host) m := by
  have hrun : Reaches (SystemStep env.hostIO)
      (fun t => ExitsWith (m.sim.toSpec.reg Rv32imb.a0) t.core ∧ t.host = m.host)
      ⟨m.sim.toSpec, m.host⟩ := Rv32imb.reaches_system (reaches_exitCall h.atReturn) m.host
  apply (reaches_iterates h.running hapart hrun).mono
  rintro last ⟨⟨core, _⟩, ⟨hexit, rfl⟩, sim', rfl, rfl, hkept⟩
  rw [h.status] at hexit
  have hat : AtExit env { m with sim := sim' } :=
    atEcall_of_makesCall env (hapart.of_layout hkept.layout) hexit.toMakesCall
  exact ⟨hkept.shouldStop.trans h.running, hat, hexit.status, h.host⟩

/-- The command on a program with the start-up code: where `main`, entered with the
command line as C passes it, returns, the command returns the same. -/
theorem main_startUp (hloads : Loads readElf argv elf (apiCode offset) base 8)
    {status : Register} {host host' : H}
    (hmain : ∀ s, EntersMain base offset (.ofMain argv) (bootState elf (.ofMain argv)) s →
      ∀ m, Represents (Machine.boot elf (.ofMain argv) softfloat host) ⟨s, host⟩ m →
        Reaches (Iterates env) (ReturnsFromMain (apiCode offset) base status host') m) :
    ∃ steps, ∀ fuel, steps < fuel →
      (main env readElf softfloat argv fuel).run host = .ok (some status) host' := by
  have hapart := hloads.apart
  have hstack := hloads.boots.stack
  have hcount := bootState_word hapart hstack
    (rfl : (ProgramArgs.ofMain argv).words[0]? = some (BitVec.ofNat 32 _))
  rw [Nat.mul_zero, BitVec.add_zero] at hcount
  have henter := reaches_entersMain hloads.atStart RVSim.initial_sp hcount
    (bootState_argvAt hapart hstack hloads.fitsArgv)
  have hreturned : Reaches (Iterates env) (ReturnsFromMain (apiCode offset) base status host')
      (Machine.boot elf (.ofMain argv) softfloat host) := by
    apply (reaches_iterates rfl hapart (Rv32imb.reaches_system henter host)).trans
    rintro m ⟨⟨s, _⟩, ⟨hs, rfl⟩, hrepresents⟩
    exact hmain s hs m hrepresents
  have hlayout := hreturned.keeps
    (P := fun m => m.sim.memory.layout = (RVSim.initial elf.parsed (.ofMain argv)).memory.layout)
    (fun _ _ hstep h => hstep.layout.trans h) rfl
  obtain ⟨steps, last, hlead, hrunning, hat, hstatus, hhost⟩ := hlayout.trans fun m hm =>
    hm.1.reaches_exit (hapart.of_layout hm.2)
  refine ⟨steps, fun fuel hfuel => ?_⟩
  exact (main_boots_returns_iff hloads.boots hloads.fitsArgv).mpr
    ⟨steps, last, hfuel, hlead, hrunning, hat, hstatus.symm, hhost.symm⟩

/-- A `main` that keeps to the specified machine and its calls. -/
theorem Represents.returnsFromMain {boot m : Machine H} {code : List Rv32imb.Asm}
    {status : Register} {host host' : H} (hrunning : boot.sim.shouldStop = false)
    (hapart : boot.sim.memory.Apart) (h : Represents boot ⟨s, host⟩ m)
    (hrun : Reaches (SystemStep env.hostIO)
      (fun t => At code base 11 t.core ∧ t.core.reg Rv32imb.a0 = status ∧ t.host = host')
      ⟨s, host⟩) : Reaches (Iterates env) (ReturnsFromMain code base status host') m := by
  obtain ⟨sim, rfl, rfl, hkept⟩ := h
  apply (reaches_iterates (hkept.shouldStop.trans hrunning) (hapart.of_layout hkept.layout)
    hrun).mono
  rintro last ⟨⟨core, _⟩, ⟨hat, hstatus, rfl⟩, sim', rfl, rfl, hkept'⟩
  exact ⟨hkept'.shouldStop.trans (hkept.shouldStop.trans hrunning), hat, hstatus, rfl⟩

end Run

section Smallest

/-- The text with a `main` that returns at once, and with it the argument count. -/
def countingCode : List Rv32imb.Asm := apiCode 8 ++ [Rv32imb.jalr Rv32imb.zero Rv32imb.ra 0]

def countingElf : Elf :=
  textElf 0x10000 (apiCode 8) (textBytes [Rv32imb.jalr Rv32imb.zero Rv32imb.ra 0]) 8 (by decide)

theorem countingElf_loads :
    Loads (fun _ => some countingElf) exitArgv countingElf (apiCode 8) 0x10000 8 :=
  textElf_loads (by decide) rfl (by decide) (by decide)

theorem countingElf_codeAt :
    CodeAt (bootState countingElf (.ofMain exitArgv)).mem 0x10000 countingCode := by
  obtain ⟨segm, hsegm, hholds⟩ : ∃ segm ∈ countingElf.loadable,
      segm.Holds (textBytes countingCode)
        (0x10000 + BitVec.ofNat 32 ([] : List MemByte).length) := textElf_holds rfl
  have hloads := countingElf_loads
  exact hholds.codeAt hloads.boots.target hloads.boots.fits hloads.apart hsegm (by decide)

/-- The function goes back to the line behind the call. -/
theorem countingCode_returns {s : Rv32i.State}
    (henters : EntersMain 0x10000 8 (.ofMain exitArgv)
      (bootState countingElf (.ofMain exitArgv)) s) :
    Reaches ExactStep (fun s' => At (apiCode 8) 0x10000 11 s' ∧ s'.reg Rv32imb.a0 = 1) s := by
  have hcode : CodeAt s.mem 0x10000 countingCode := by
    rw [henters.memory]
    exact countingElf_codeAt
  have hat : At countingCode 0x10000 12 s := ⟨hcode, henters.pc⟩
  apply hat.reaches_jalr rfl henters.link (by decide)
  intro hreturn
  apply Reaches.here
  constructor
  · refine ⟨?_, hreturn.pc⟩
    rw [Rv32i.State.goto_mem, Rv32i.State.setReg_mem, henters.memory]
    exact countingElf_loads.atStart.code
  · simp (disch := decide)
    exact henters.count

theorem main_startUp_counts :
    ∃ steps, ∀ fuel, steps < fuel →
      (main queueEnv (fun _ => some countingElf) ⟨0, 0⟩ exitArgv fuel).run [] =
        .ok (some 1) [] := by
  apply main_startUp countingElf_loads
  intro s henters m hrepresents
  apply hrepresents.returnsFromMain rfl countingElf_loads.apart
  apply (Rv32imb.reaches_system (countingCode_returns henters) _).mono
  rintro t ⟨⟨hat, hstatus⟩, hhost⟩
  exact ⟨hat, hstatus, hhost⟩

end Smallest

end RiscvSim
