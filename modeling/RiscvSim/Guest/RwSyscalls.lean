import RiscvSim.Guest.TextFile

/-!
A program that writes a message and exits, `rw_syscalls.s` of the tests, with the
message and its place left open.
-/

namespace Rv32imb

open ByteStore LittleEndian RiscvSim TotalCorrectness

/-- The text of `rw_syscalls.s`. The address of the message is taken relative to
the first line. -/
def writeCode (offset : Word) (size : Int) : List Asm :=
  [auipc a1 (hi offset),
   addi a1 a1 (lo offset),
   addi a0 zero 1,
   addi a2 zero size,
   addi a7 zero 64,
   .ecall,
   addi a0 zero 0,
   addi a7 zero 93,
   .ecall]

variable {H : Type} {io : HostIO H} {offset base : Word} {s : State}

/-- Behind the call the program exits with status zero. -/
theorem reaches_exit {size : Nat} (h : At (writeCode offset size) base 6 s) :
    Reaches ExactStep (ExitsWith 0) s := by
  refine h.reaches_plain 2 rfl fun hend => .here (hend.exitsWith rfl ?_ ?_)
  · simp (disch := decide) [writeCode]
  · simp (disch := decide) [writeCode]

end Rv32imb

namespace RiscvSim

open ByteStore
open Rv32imb (textBytes writeCode)

variable {H : Type} {env : Env H} {readElf : List MemByte → Option Elf}
  {softfloat : SoftFloatState} {argv : List (List MemByte)} {elf : Elf} {base offset : Address}

end RiscvSim
