import RiscvSim.Spec.Rv32i

/-!
The floating-point status of the manual: a rounding mode of three bits and five
exception flags, addressed through three views, and the six instructions that
read a view and replace, set or clear bits of it.
-/

namespace FpCsr

open RiscvSim

abbrev Word := BitVec 32

structure Status where
  frm : BitVec 3
  fflags : BitVec 5
  deriving DecidableEq

namespace Status

/-- The view of both fields is the number `frm * 32 + fflags`. -/
def read (s : Status) : CSR → Word
  | .fflags => s.fflags.setWidth 32
  | .frm => s.frm.setWidth 32
  | .fcsr => BitVec.ofNat 32 (s.frm.toNat * 32 + s.fflags.toNat)

/-- Bits of the value above the view are dropped. -/
def write (s : Status) (value : Word) : CSR → Status
  | .fflags => { s with fflags := value.setWidth 5 }
  | .frm => { s with frm := value.setWidth 3 }
  | .fcsr => ⟨(value >>> 5).setWidth 3, value.setWidth 5⟩

/-- Writing back what was read changes nothing. -/
theorem write_read (s : Status) (view : CSR) : s.write (s.read view) view = s := by
  cases view with
  | fflags => simp [write, read]
  | frm => simp [write, read]
  | fcsr =>
      have hfrm := s.frm.isLt
      have hfflags := s.fflags.isLt
      have hhigh : ((s.read .fcsr) >>> 5).setWidth 3 = s.frm := by
        apply BitVec.eq_of_toNat_eq
        simp only [read, BitVec.toNat_setWidth, BitVec.toNat_ushiftRight, BitVec.toNat_ofNat,
          Nat.shiftRight_eq_div_pow]
        omega
      have hlow : (s.read .fcsr).setWidth 5 = s.fflags := by
        apply BitVec.eq_of_toNat_eq
        simp only [read, BitVec.toNat_setWidth, BitVec.toNat_ofNat]
        omega
      rw [write, hhigh, hlow]

end Status

inductive Op where
  | replace
  | set
  | clear
  deriving DecidableEq

def Op.apply (old operand : Word) : Op → Word
  | .replace => operand
  | .set => old ||| operand
  | .clear => old &&& ~~~operand

inductive Source where
  | reg (rs1 : BitVec 5)
  | imm (uimm : BitVec 5)

structure Insn where
  op : Op
  source : Source
  view : CSR
  rd : BitVec 5

structure State where
  base : Rv32i.State
  status : Status

def State.operand (s : State) : Source → Word
  | .reg rs1 => s.base.reg rs1
  | .imm uimm => uimm.setWidth 32

namespace Insn

/-- The operand is read before `rd` is written. -/
def exec (s : State) (insn : Insn) : State :=
  let old := s.status.read insn.view
  let operand := s.operand insn.source
  { base := (s.base.setReg insn.rd old).next
    status := s.status.write (insn.op.apply old operand) insn.view }

def mnem (insn : Insn) : InsnMnemonic :=
  match insn.op, insn.source with
  | .replace, .reg _ => .CSRRW
  | .set, .reg _ => .CSRRS
  | .clear, .reg _ => .CSRRC
  | .replace, .imm _ => .CSRRWI
  | .set, .imm _ => .CSRRSI
  | .clear, .imm _ => .CSRRCI

def csr (insn : Insn) : BitVec 12 :=
  match insn.view with
  | .fflags => 1
  | .frm => 2
  | .fcsr => 3

def operands (insn : Insn) : Operands :=
  match insn.source with
  | .reg rs1 => ⟨insn.rd, rs1, 0, 0, 0, 0, insn.csr, 0⟩
  | .imm uimm => ⟨insn.rd, uimm, 0, 0, 0, 0, insn.csr, 0⟩

def word (insn : Insn) : Word := insn.mnem.encode insn.operands

variable (s : State) (insn : Insn)

theorem exec_fflags_keeps_frm (h : insn.view = .fflags) :
    (insn.exec s).status.frm = s.status.frm := by
  simp only [exec, h]
  rfl

theorem exec_frm_keeps_fflags (h : insn.view = .frm) :
    (insn.exec s).status.fflags = s.status.fflags := by
  simp only [exec, h]
  rfl

/-- To set or clear no bits leaves the status as it is. -/
theorem exec_zero_mask (hop : insn.op ≠ .replace) (hmask : s.operand insn.source = 0) :
    (insn.exec s).status = s.status := by
  have hsame : insn.op.apply (s.status.read insn.view) 0 = s.status.read insn.view := by
    cases h : insn.op with
    | replace => exact absurd h hop
    | set => simp [Op.apply]
    | clear => exact BitVec.and_allOnes
  simp only [exec, hmask]
  rw [hsame, Status.write_read]

end Insn

end FpCsr
