import RiscvSim.Lib.Regions
import RiscvSim.Lib.TotalCorrectness
import RiscvSim.Sim.SystemRuns

/-!
Rules for runs through a program text. Each rule takes the machine from one line
of the text to the lines that it goes on to, and leaves the rest of the run as
its last premise; a stretch of lines that only write registers is one rule.
-/

namespace Rv32i.State

variable (s : State) (rd r : Reg) (value : Word)

@[simp] theorem setReg_pc : (s.setReg rd value).pc = s.pc := rfl

@[simp] theorem setReg_mem : (s.setReg rd value).mem = s.mem := rfl

@[simp] theorem next_pc : s.next.pc = s.pc + 4 := rfl

@[simp] theorem next_reg : s.next.reg = s.reg := rfl

@[simp] theorem next_mem : s.next.mem = s.mem := rfl

/-- The same state at another place of the program. -/
def goto (pc : Word) : State := { s with pc }

@[simp] theorem goto_pc (pc : Word) : (s.goto pc).pc = pc := rfl

@[simp] theorem goto_reg (pc : Word) : (s.goto pc).reg = s.reg := rfl

@[simp] theorem goto_mem (pc : Word) : (s.goto pc).mem = s.mem := rfl

@[simp] theorem reg_zero_eq : s.reg 0#5 = 0#32 := s.reg_zero

def setMem (mem : ByteStore.Store 32) : State := { s with mem }

@[simp] theorem setMem_pc (mem : ByteStore.Store 32) : (s.setMem mem).pc = s.pc := rfl

@[simp] theorem setMem_reg (mem : ByteStore.Store 32) : (s.setMem mem).reg = s.reg := rfl

@[simp] theorem setMem_mem (mem : ByteStore.Store 32) : (s.setMem mem).mem = mem := rfl

variable {s rd r value}

@[simp] theorem reg_setReg_self (h : rd ≠ 0) : (s.setReg rd value).reg rd = value :=
  if_pos ⟨rfl, h⟩

@[simp] theorem reg_setReg_of_ne (h : r ≠ rd) : (s.setReg rd value).reg r = s.reg r :=
  if_neg fun heq => h heq.1

end Rv32i.State

namespace Rv32imb

open ByteStore LittleEndian RiscvSim Runs TotalCorrectness

/-- The lines that write a register, read no memory and go on. -/
def isPlain : Asm → Bool
  | .insn (.base (.lui ..)) | .insn (.base (.auipc ..)) | .insn (.base (.opImm ..))
  | .insn (.base (.shiftImm ..)) | .insn (.base (.reg ..)) => true
  | _ => false

/-- What such a line does. -/
def plain (s : State) : Asm → State
  | .insn instr => (instr.exec s).getD s
  | .ecall => s

/-- How far a result is from the expected one, as the programs compute it. -/
theorem ofInt_natCast_sub (n : Nat) (expected : Int) :
    BitVec.ofNat 32 n - BitVec.ofInt 32 expected = BitVec.ofInt 32 (n - expected) := by
  rw [Int.sub_eq_add_neg, BitVec.ofInt_add, BitVec.ofInt_neg, BitVec.ofInt_natCast,
    BitVec.sub_eq_add_neg]

/-- A constant of a legal line, as the branches compare it. -/
theorem toInt_constant {a : Int} {k : Nat} {code : List Asm} (hlegal : ∀ line ∈ code, line.Legal)
    {rd rs1 : Reg} (hline : code[k]? = some (addi rd rs1 a)) : (BitVec.ofInt 32 a).toInt = a := by
  have hrange : -2 ^ 11 ≤ a ∧ a < 2 ^ 11 := hlegal _ (List.mem_of_getElem? hline)
  rw [BitVec.toInt_ofInt, Int.bmod_eq_of_le (by omega) (by omega)]

section Plain

variable (s : State)

@[simp] theorem plain_lui (rd : Reg) (imm : Int) :
    plain s (lui rd imm) = (s.setReg rd (BitVec.ofInt 32 imm)).next := rfl

@[simp] theorem plain_auipc (rd : Reg) (imm : Int) :
    plain s (auipc rd imm) = (s.setReg rd (s.pc + BitVec.ofInt 32 imm)).next := rfl

@[simp] theorem plain_addi (rd rs1 : Reg) (imm : Int) :
    plain s (addi rd rs1 imm) =
      (s.setReg rd (s.reg rs1 + BitVec.ofInt 32 imm)).next := by
  rw [add_eq_eval]
  rfl

@[simp] theorem plain_add (rd rs1 rs2 : Reg) :
    plain s (add rd rs1 rs2) = (s.setReg rd (s.reg rs1 + s.reg rs2)).next := by
  rw [add_eq_eval]
  rfl

@[simp] theorem plain_sub (rd rs1 rs2 : Reg) :
    plain s (sub rd rs1 rs2) = (s.setReg rd (s.reg rs1 - s.reg rs2)).next := by
  rw [sub_eq_eval]
  rfl

theorem plain_exec {instr : Insn} (h : isPlain (.insn instr) = true) :
    ExactIn s instr ∧ instr.exec s = some (plain s (.insn instr)) ∧
      (plain s (.insn instr)).mem = s.mem ∧ (plain s (.insn instr)).pc = s.pc + 4 := by
  cases instr with
  | base instr => cases instr <;> first | exact ⟨trivial, rfl, rfl, rfl⟩ | cases h
  | reg | unary | rori | fence | ebreak => cases h

end Plain

section Rules

variable {code : List Asm} {base : Word} {k : Nat} {s s' : State} {Q : State → Prop}

theorem At.next (h : At code base k s) (hmem : s'.mem = s.mem) (hpc : s'.pc = s.pc + 4) :
    At code base (k + 1) s' where
  code := by
    rw [hmem]
    exact h.code
  pc := by
    rw [hpc, h.pc, lineAddr_add_four]

theorem At.goto (h : At code base k s) (hmem : s'.mem = s.mem) (j : Nat) :
    At code base j (s'.goto (lineAddr base j)) where
  code := by
    rw [Rv32i.State.goto_mem, hmem]
    exact h.code
  pc := rfl

/-- Any line of the base set. -/
theorem At.reaches_step (h : At code base k s) {instr : Rv32i.Insn}
    (hline : code[k]? = some (.insn (.base instr))) (hexec : instr.exec s = some s')
    (hrest : Reaches ExactStep Q s') : Reaches ExactStep Q s :=
  .step_then ⟨.base instr, h.fetches hline, trivial, hexec⟩ hrest

theorem At.reaches_line (h : At code base k s) {line : Asm} (hline : code[k]? = some line)
    (hplain : isPlain line = true)
    (hrest : At code base (k + 1) (plain s line) → Reaches ExactStep Q (plain s line)) :
    Reaches ExactStep Q s := by
  cases line with
  | ecall => cases hplain
  | insn instr =>
      obtain ⟨hexact, hexec, hmem, hpc⟩ := plain_exec s hplain
      exact .step_then ⟨instr, h.fetches hline, hexact, hexec⟩ (hrest (h.next hmem hpc))

/-- A stretch of `n` plain lines. -/
theorem At.reaches_plain (h : At code base k s) (n : Nat)
    (hplain : ((code.drop k).take n).map isPlain = List.replicate n true)
    (hrest : At code base (k + n) (((code.drop k).take n).foldl plain s) →
      Reaches ExactStep Q (((code.drop k).take n).foldl plain s)) : Reaches ExactStep Q s := by
  induction n generalizing k s with
  | zero => exact hrest h
  | succ n ih =>
      cases hdrop : code.drop k with
      | nil =>
          rw [hdrop] at hplain
          cases hplain
      | cons line rest =>
          have hline : code[k]? = some line := by
            rw [← Nat.add_zero k, ← List.getElem?_drop, hdrop]
            rfl
          have htail : code.drop (k + 1) = rest := by
            rw [← List.drop_drop, hdrop]
            rfl
          rw [hdrop, List.take_succ_cons] at hplain hrest
          obtain ⟨hfirst, hothers⟩ := List.cons.inj hplain
          refine h.reaches_line hline hfirst fun hnext => ih hnext ?_ ?_
          · rwa [htail]
          · rwa [htail, Nat.add_right_comm]

variable {op : Rv32i.BranchOp} {rd rs1 rs2 : Reg} {imm : Int}

theorem At.reaches_taken (h : At code base k s)
    (hline : code[k]? = some (.insn (.base (.branch op rs1 rs2 imm)))) {j : Nat}
    (hoffset : 4 * k + imm = 4 * j) (htaken : op.taken (s.reg rs1) (s.reg rs2) = true)
    (hrest : At code base j (s.goto (lineAddr base j)) →
      Reaches ExactStep Q (s.goto (lineAddr base j))) : Reaches ExactStep Q s := by
  refine h.reaches_step hline ?_ (hrest (h.goto rfl j))
  simp only [Rv32i.Insn.exec, htaken, if_true, h.pc, lineAddr_add_ofInt base hoffset]
  rfl

theorem At.reaches_not_taken (h : At code base k s)
    (hline : code[k]? = some (.insn (.base (.branch op rs1 rs2 imm))))
    (htaken : op.taken (s.reg rs1) (s.reg rs2) = false)
    (hrest : At code base (k + 1) s.next → Reaches ExactStep Q s.next) :
    Reaches ExactStep Q s := by
  refine h.reaches_step hline ?_ (hrest (h.next rfl rfl))
  simp only [Rv32i.Insn.exec, htaken, Bool.false_eq_true, if_false]

/-- A jump, which may lead out of the text. -/
theorem At.reaches_jump (h : At code base k s)
    (hline : code[k]? = some (.insn (.base (.jal rd imm)))) {target : Word}
    (htarget : lineAddr base k + BitVec.ofInt 32 imm = target)
    (hrest : Reaches ExactStep Q ((s.setReg rd (lineAddr base (k + 1))).goto target)) :
    Reaches ExactStep Q s := by
  refine h.reaches_step hline ?_ hrest
  simp only [Rv32i.Insn.exec, h.pc, htarget, lineAddr_add_four]
  rfl

theorem At.reaches_jal (h : At code base k s)
    (hline : code[k]? = some (.insn (.base (.jal rd imm)))) {j : Nat}
    (hoffset : 4 * k + imm = 4 * j)
    (hrest : At code base j ((s.setReg rd (lineAddr base (k + 1))).goto (lineAddr base j)) →
      Reaches ExactStep Q ((s.setReg rd (lineAddr base (k + 1))).goto (lineAddr base j))) :
    Reaches ExactStep Q s :=
  h.reaches_jump hline (lineAddr_add_ofInt base hoffset)
    (hrest (h.goto (s.setReg_mem rd _) j))

/-- A line of a text at an even address has an even address. -/
theorem lineAddr_clear_low (heven : base.toNat % 2 = 0) (j : Nat) :
    lineAddr base j &&& ~~~1 = lineAddr base j := by
  have hline : (lineAddr base j).toNat % 2 = 0 := by
    rw [lineAddr, BitVec.toNat_add, BitVec.toNat_ofNat]
    omega
  apply BitVec.eq_of_getLsbD_eq
  intro i hi
  have hone : (1 : Word).getLsbD i = decide (i = 0) := by
    rw [show (1 : Word) = 1#32 from rfl, BitVec.getLsbD_one]
    simp
  rw [BitVec.getLsbD_and, BitVec.getLsbD_not, hone]
  by_cases hzero : i = 0
  · subst hzero
    have hbit : (lineAddr base j).getLsbD 0 = false := by
      rw [BitVec.getLsbD, Nat.testBit_zero, hline]
      rfl
    rw [hbit, Bool.false_and]
  · simp [hi, hzero]

/-- A jump through a register that holds the address of a line. -/
theorem At.reaches_jalr (h : At code base k s)
    (hline : code[k]? = some (.insn (.base (.jalr rd rs1 0)))) {j : Nat}
    (htarget : s.reg rs1 = lineAddr base j) (heven : base.toNat % 2 = 0)
    (hrest : At code base j ((s.setReg rd (lineAddr base (k + 1))).goto (lineAddr base j)) →
      Reaches ExactStep Q ((s.setReg rd (lineAddr base (k + 1))).goto (lineAddr base j))) :
    Reaches ExactStep Q s := by
  refine h.reaches_step hline ?_ (hrest (h.goto (s.setReg_mem rd _) j))
  have hpc : (s.reg rs1 + BitVec.ofInt 32 0) &&& ~~~1 = lineAddr base j := by
    rw [htarget, show BitVec.ofInt 32 0 = 0#32 from rfl, BitVec.add_zero, lineAddr_clear_low heven]
  simp only [Rv32i.Insn.exec, hpc, h.pc, lineAddr_add_four]
  rfl

theorem At.reaches_lw (h : At code base k s)
    (hline : code[k]? = some (.insn (.base (.load .LW rd rs1 imm)))) (value : Word)
    (hread : read s.mem (s.reg rs1 + BitVec.ofInt 32 imm) 4 = some (toBytes 4 value))
    (hrest : At code base (k + 1) (s.setReg rd value).next →
      Reaches ExactStep Q (s.setReg rd value).next) : Reaches ExactStep Q s := by
  refine h.reaches_step hline ?_ (hrest (h.next rfl rfl))
  have hvalue : Rv32i.LoadOp.value (toBytes 4 value) .LW = value := toWord_toBytes value (by decide)
  simp only [Rv32i.Insn.exec, Rv32i.LoadOp.bytes, hread, Option.bind_eq_bind, Option.bind_some,
    hvalue]

/-- A store into a region apart from the text. -/
theorem At.reaches_sw (h : At code base k s)
    (hline : code[k]? = some (.insn (.base (.store .SW rs1 rs2 imm)))) (addr value : Word)
    (haddr : s.reg rs1 + BitVec.ofInt 32 imm = addr) (hvalue : s.reg rs2 = value)
    (hroom : ∀ x, Covers addr 4 x → (s.mem x).isSome ∧ ¬ Covers base (4 * code.length) x)
    (hrest : At code base (k + 1) (s.setMem (write s.mem addr (toBytes 4 value))).next →
      Reaches ExactStep Q (s.setMem (write s.mem addr (toBytes 4 value))).next) :
    Reaches ExactStep Q s := by
  obtain ⟨bytes, hread⟩ :=
    exists_read (m := s.mem) (a := addr) (n := 4) (by decide) fun x hx => (hroom x hx).1
  have hcode : CodeAt (write s.mem addr (toBytes 4 value)) base code := by
    refine h.code.of_agree fun x hx => write_frame _ _ _ fun hin => ?_
    rw [toBytes_length] at hin
    exact (hroom x hin).2 hx
  refine h.reaches_step hline ?_ (hrest ⟨hcode, (h.next (rfl : s.next.mem = s.mem) rfl).pc⟩)
  simp only [Rv32i.Insn.exec, haddr, hvalue, Rv32i.StoreOp.bytes, hread, Option.bind_eq_bind,
    Option.bind_some]
  rfl

end Rules

section Host

variable {H : Type} {io : HostIO H} {s : State} {Q : State → Prop}

/-- A run of the machine alone leaves the host alone. -/
theorem leads_system {n : Nat} {s' : State} (hlead : Leads ExactStep n s s') (host : H) :
    Leads (SystemStep io) n ⟨s, host⟩ ⟨s', host⟩ := by
  have hsteps {s : State} {t : System H} {s' : State} (h : t = ⟨s, host⟩)
      (hstep : ExactStep s s') : ∃ t', SystemStep io t t' ∧ t' = ⟨s', host⟩ := by
    subst h
    exact ⟨_, .insn hstep, rfl⟩
  obtain ⟨_, hlead', rfl⟩ :=
    hlead.simulate (R := fun core t => t = (⟨core, host⟩ : System H)) hsteps rfl
  exact hlead'

theorem reaches_system (h : Reaches ExactStep Q s) (host : H) :
    Reaches (SystemStep io) (fun t => Q t.core ∧ t.host = host) ⟨s, host⟩ := by
  obtain ⟨n, s', hlead, hend⟩ := h
  exact ⟨n, ⟨s', host⟩, leads_system hlead host, hend, rfl⟩

variable {code : List Asm} {base : Word} {k : Nat} {host : H} {Q : System H → Prop}

end Host

end Rv32imb
