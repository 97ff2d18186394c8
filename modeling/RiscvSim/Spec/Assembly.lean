import RiscvSim.Lib.Packed
import RiscvSim.Spec.Rv32imb

/-!
Programs of the specified machine as their texts: the instructions in order,
and the calls of the environment among them. A text is placed in a memory when
the encodings of its lines lie there one behind the other.
-/

namespace Rv32imb

open ByteStore LittleEndian RiscvSim

section Text

/-- A line of a program text. -/
inductive Asm where
  | insn (instr : Insn)
  | ecall

def Asm.word : Asm → Word
  | .insn instr => instr.word
  | .ecall => (InsnMnemonic.ECALL).encode ⟨0, 0, 0, 0, 0, 0, 0, 0⟩

/-- The immediate of the line is in the range of its format. -/
def Asm.Legal : Asm → Prop
  | .insn instr => instr.Legal
  | .ecall => True

instance (format : InsnFormat) (ops : Operands) : Decidable (format.Legal ops) :=
  match format with
  | .i .. | .s .. => inferInstanceAs (Decidable (_ ∧ _))
  | .b .. | .u .. | .j .. => inferInstanceAs (Decidable (_ ∧ _ ∧ _))
  | .r .. | .rUnary .. | .rRounding .. | .rUnaryRounding .. | .r4 .. | .shift .. | .csr ..
  | .system .. => .isTrue trivial

instance (line : Asm) : Decidable line.Legal :=
  match line with
  | .insn instr => inferInstanceAs (Decidable (instr.mnem.format.Legal instr.operands))
  | .ecall => .isTrue trivial

/-! The registers by the names of the calling convention. -/

abbrev zero : Reg := 0#5
abbrev ra : Reg := 1#5
abbrev sp : Reg := 2#5
abbrev t0 : Reg := 5#5
abbrev t1 : Reg := 6#5
abbrev t2 : Reg := 7#5
abbrev s0 : Reg := 8#5
abbrev s1 : Reg := 9#5
abbrev a0 : Reg := 10#5
abbrev a1 : Reg := 11#5
abbrev a2 : Reg := 12#5
abbrev a7 : Reg := 17#5
abbrev s2 : Reg := 18#5
abbrev s3 : Reg := 19#5

abbrev lui (rd : Reg) (imm : Int) : Asm := .insn (.base (.lui rd imm))
abbrev auipc (rd : Reg) (imm : Int) : Asm := .insn (.base (.auipc rd imm))
abbrev addi (rd rs1 : Reg) (imm : Int) : Asm := .insn (.base (.opImm .ADDI rd rs1 imm))
abbrev add (rd rs1 rs2 : Reg) : Asm := .insn (.base (.reg .ADD rd rs1 rs2))
abbrev sub (rd rs1 rs2 : Reg) : Asm := .insn (.base (.reg .SUB rd rs1 rs2))
abbrev beq (rs1 rs2 : Reg) (imm : Int) : Asm := .insn (.base (.branch .BEQ rs1 rs2 imm))
abbrev blt (rs1 rs2 : Reg) (imm : Int) : Asm := .insn (.base (.branch .BLT rs1 rs2 imm))
abbrev jal (rd : Reg) (imm : Int) : Asm := .insn (.base (.jal rd imm))
abbrev jalr (rd rs1 : Reg) (imm : Int) : Asm := .insn (.base (.jalr rd rs1 imm))
abbrev lw (rd rs1 : Reg) (imm : Int) : Asm := .insn (.base (.load .LW rd rs1 imm))
abbrev sw (rs2 rs1 : Reg) (imm : Int) : Asm := .insn (.base (.store .SW rs1 rs2 imm))

/-- `%lo` of an address, the part that `addi` adds. -/
def lo (addr : Word) : Int := (addr.setWidth 12).toInt

/-- `%hi` of an address, the part that `lui` loads. -/
def hi (addr : Word) : Int := (addr - BitVec.ofInt 32 (lo addr)).toInt

theorem hi_add_lo (addr : Word) : BitVec.ofInt 32 (hi addr) + BitVec.ofInt 32 (lo addr) = addr := by
  rw [hi, BitVec.ofInt_toInt, BitVec.sub_add_cancel]

end Text

section Place

/-- The address of a line of a text. -/
def lineAddr (base : Word) (k : Nat) : Word := base + BitVec.ofNat 32 (4 * k)

theorem lineAddr_add_four (base : Word) (k : Nat) : lineAddr base k + 4 = lineAddr base (k + 1) := by
  unfold lineAddr
  rw [BitVec.add_assoc, Nat.mul_succ, BitVec.ofNat_add]
  rfl

/-- An offset that counts lines. -/
theorem lineAddr_add_ofInt (base : Word) {k j : Nat} {imm : Int} (h : 4 * k + imm = 4 * j) :
    lineAddr base k + BitVec.ofInt 32 imm = lineAddr base j := by
  unfold lineAddr
  rw [BitVec.add_assoc, ← BitVec.ofInt_natCast, ← BitVec.ofInt_natCast, ← BitVec.ofInt_add]
  push_cast
  rw [h]

/-- The text lies at the address. -/
structure CodeAt (mem : Store 32) (base : Word) (code : List Asm) : Prop where
  legal : ∀ line ∈ code, line.Legal
  room : 4 * code.length ≤ 2 ^ 32
  words : ∀ {k : Nat} {line : Asm}, code[k]? = some line →
    read mem (lineAddr base k) 4 = some (toBytes 4 line.word)

variable {mem mem' : Store 32} {base : Word} {code : List Asm}

/-- A text stays where none of its bytes changes. -/
theorem CodeAt.of_agree (h : CodeAt mem base code)
    (hagree : ∀ x, Covers base (4 * code.length) x → mem' x = mem x) : CodeAt mem' base code where
  legal := h.legal
  room := h.room
  words := by
    intro k line hline
    refine read_of_agree (by decide) (h.words hline) fun x hx => hagree x ?_
    obtain ⟨hk, _⟩ := List.getElem?_eq_some_iff.mp hline
    obtain ⟨i, hi, rfl⟩ := (covers_iff (by decide)).mp hx
    rw [covers_iff h.room]
    refine ⟨4 * k + i, by omega, ?_⟩
    rw [lineAddr, BitVec.add_assoc, ← BitVec.ofNat_add]

/-- The bytes of a text. -/
def textBytes (code : List Asm) : List Byte := code.flatMap fun line => toBytes 4 line.word

theorem textBytes_length (code : List Asm) : (textBytes code).length = 4 * code.length :=
  Packed.length_of_const _ code fun line => toBytes_length 4 line.word

/-- A text is placed byte by byte. -/
theorem codeAt_of_bytes (hlegal : ∀ line ∈ code, line.Legal) (hroom : 4 * code.length ≤ 2 ^ 32)
    (hbytes : ∀ i < 4 * code.length, mem (base + BitVec.ofNat 32 i) = (textBytes code)[i]?) :
    CodeAt mem base code where
  legal := hlegal
  room := hroom
  words := by
    intro k line hline
    obtain ⟨hk, rfl⟩ := List.getElem?_eq_some_iff.mp hline
    refine (read_eq_some_iff mem _ 4 _).mpr ⟨toBytes_length 4 _, fun i hi => ?_⟩
    have hlength := toBytes_length 4 code[k].word
    have hrecord := Packed.getElem?_record (fun line : Asm => toBytes 4 line.word) code hk
      (k := i) (by omega)
    rw [Packed.offset_of_const _ code (fun line => toBytes_length 4 line.word) hk.le]
      at hrecord
    rw [lineAddr, BitVec.add_assoc, ← BitVec.ofNat_add, hbytes (4 * k + i) (by omega)]
    exact hrecord

/-- The text lies at the address, and the machine is at one of its lines. -/
structure At (code : List Asm) (base : Word) (k : Nat) (s : State) : Prop where
  code : CodeAt s.mem base code
  pc : s.pc = lineAddr base k

variable {k : Nat} {s : State}

theorem At.fetches {insn : Insn} (h : At code base k s) (hline : code[k]? = some (.insn insn)) :
    Fetches s insn where
  legal := h.code.legal _ (List.mem_of_getElem? hline)
  word := by
    rw [h.pc]
    exact h.code.words hline

/-- The machine is at an environment call with the number. -/
structure MakesCall (id : Word) (s : State) : Prop where
  word : read s.mem s.pc 4 = some (toBytes 4 Asm.ecall.word)
  number : s.reg a7 = id

/-- The machine is at the call that ends the program with the status. -/
structure ExitsWith (status : Word) (s : State) : Prop extends MakesCall 93 s where
  status : s.reg a0 = status

theorem At.makesCall {id : Word} (h : At code base k s) (hline : code[k]? = some .ecall)
    (hnumber : s.reg a7 = id) : MakesCall id s where
  word := by
    rw [h.pc]
    exact h.code.words hline
  number := hnumber

theorem At.exitsWith {status : Word} (h : At code base k s) (hline : code[k]? = some .ecall)
    (hnumber : s.reg a7 = 93) (hstatus : s.reg a0 = status) : ExitsWith status s :=
  ⟨h.makesCall hline hnumber, hstatus⟩

end Place

end Rv32imb
