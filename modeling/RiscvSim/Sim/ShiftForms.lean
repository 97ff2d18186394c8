import RiscvSim.Isa.Division
import RiscvSim.Isa.HighMultiply
import RiscvSim.Sim.Execute

/-!
The register forms of the shifts against their immediate forms, and the
rotations. The amount in a register is reduced to five bits by `SRA` and by the
rotations, and used as it is by `SLL` and `SRL`; a rotation also shifts by the
complement of its amount, which is the whole width when the amount is zero.
-/

namespace RiscvSim

open SimM

variable {H : Type}

section Forms

/-- The shifts that have a register form and an immediate form. -/
inductive ShiftInsn where
  | SLL | SRL | SRA
  deriving DecidableEq

namespace ShiftInsn

def registerForm : ShiftInsn → InsnMnemonic
  | .SLL => .SLL
  | .SRL => .SRL
  | .SRA => .SRA

def immediateForm : ShiftInsn → InsnMnemonic
  | .SLL => .SLLI
  | .SRL => .SRLI
  | .SRA => .SRAI

/-- The host's computation for an amount. -/
def shift (build : Build) (x : Register) (amount : Nat) : ShiftInsn → Except Fault Register
  | .SLL => shiftLeft x amount
  | .SRL => shiftRight x amount
  | .SRA => arithmRightShift build x amount

/-- The amount that the register form takes out of its second operand. -/
def amount (y : Register) : ShiftInsn → Nat
  | .SRA => (y &&& BitVec.ofNat 32 (kXlen - 1)).toNat
  | _ => y.toNat

/-- The word that both forms are to write. -/
def result (x : Register) (shamt : Nat) : ShiftInsn → Register
  | .SLL => x <<< shamt
  | .SRL => x >>> shamt
  | .SRA => x.sshiftRight shamt

theorem shift_eq (build : Build) (x : Register) {amount : Nat} (hamount : amount < 32)
    (insn : ShiftInsn) : insn.shift build x amount = .ok (insn.result x amount) := by
  cases insn with
  | SLL => exact shiftLeft_ok x hamount
  | SRL => exact shiftRight_ok x hamount
  | SRA => exact arithmRightShift_eq build x amount

/-- The reduced amount is the one taken, or is less than it. -/
theorem amount_eq (y : Register) (insn : ShiftInsn) (h : insn = .SRA ∨ y.toNat < 32) :
    insn.amount y = y.toNat % 32 := by
  cases insn with
  | SLL => exact (Nat.mod_eq_of_lt (h.resolve_left (by simp))).symm
  | SRL => exact (Nat.mod_eq_of_lt (h.resolve_left (by simp))).symm
  | SRA => exact masked_amount y

end ShiftInsn

/-- The immediate form of a register instruction whose second operand is `y`. -/
structure SameOperands (insn immInsn : RvInsn) (y : Register) : Prop where
  rd : immInsn.rdIndex = insn.rdIndex
  rs1 : immInsn.rs1Index = insn.rs1Index
  shamt : immInsn.shamt.toNat = y.toNat % 32

variable {env : Env H} {word immWord : UndecodedInsn} {m : Machine H}

namespace ShiftInsn

/-- The field of an immediate is always a defined amount. -/
theorem immediateForm_run (insn : ShiftInsn) :
    (getInsnCallback env insn.immediateForm immWord).run m = .ok () (m.afterWriteX ⟨immWord⟩
      (insn.result (m.sim.getXReg (RvInsn.mk immWord).rs1Index)
        (RvInsn.mk immWord).shamt.toNat)) := by
  have hcallback : getInsnCallback env insn.immediateForm immWord =
      executeRRIShift immWord fun a b => insn.shift env.build a b.toNat := by
    cases insn <;> rfl
  have hshamt : (RvInsn.mk immWord).shamt.toNat < 32 := and_field_lt _
  rw [hcallback]
  simp only [executeRRIShift, EStateM.run_bind, run_getXReg, shift_eq _ _ hshamt, run_lift_ok,
    run_setXReg, run_step, Machine.mapSim_mapSim]

theorem registerForm_run (insn : ShiftInsn)
    (hdefined : insn = .SRA ∨ (m.sim.getXReg (RvInsn.mk word).rs2Index).toNat < 32) :
    (getInsnCallback env insn.registerForm word).run m = .ok () (m.afterWriteX ⟨word⟩
      (insn.result (m.sim.getXReg (RvInsn.mk word).rs1Index)
        ((m.sim.getXReg (RvInsn.mk word).rs2Index).toNat % 32))) := by
  have hcallback : getInsnCallback env insn.registerForm word =
      executeRRRBinOp word fun a b => insn.shift env.build a (insn.amount b) := by
    cases insn <;> rfl
  have hlt : (m.sim.getXReg (RvInsn.mk word).rs2Index).toNat % 32 < 32 :=
    Nat.mod_lt _ (by decide)
  rw [hcallback]
  simp only [executeRRRBinOp, EStateM.run_bind, run_getXReg, amount_eq _ insn hdefined,
    shift_eq _ _ hlt, run_lift_ok, run_setXReg, run_step, Machine.mapSim_mapSim]

/-- Without a mask, a large register is an amount that the host leaves undefined. -/
theorem registerForm_fault (insn : ShiftInsn) (hinsn : insn ≠ .SRA)
    (hlarge : ¬ (m.sim.getXReg (RvInsn.mk word).rs2Index).toNat < 32) :
    (getInsnCallback env insn.registerForm word).run m = .error .shiftAmount m := by
  have hfault (x : Register) : insn.shift env.build x
      (m.sim.getXReg (RvInsn.mk word).rs2Index).toNat = .error .shiftAmount := by
    cases insn with
    | SLL => exact if_neg hlarge
    | SRL => exact if_neg hlarge
    | SRA => exact absurd rfl hinsn
  have hcallback : getInsnCallback env insn.registerForm word =
      executeRRRBinOp word fun a b => insn.shift env.build a b.toNat := by
    cases insn with
    | SLL => rfl
    | SRL => rfl
    | SRA => exact absurd rfl hinsn
  rw [hcallback]
  simp only [executeRRRBinOp, EStateM.run_bind, run_getXReg, hfault, run_lift_error]

end ShiftInsn

/-- Both forms complete, every shift of the host on the way being defined, and in
the same machine. -/
def FormsAgree (env : Env H) (insn : ShiftInsn) (word immWord : UndecodedInsn) (m : Machine H) :
    Prop :=
  ∃ m', (getInsnCallback env insn.registerForm word).run m = .ok () m' ∧
    (getInsnCallback env insn.immediateForm immWord).run m = .ok () m'

/-- The two forms of `SRA` always agree; those of the logical shifts do for a
register below 32. -/
theorem formsAgree_iff (env : Env H) (insn : ShiftInsn) {word immWord : UndecodedInsn}
    {m : Machine H}
    (hsame : SameOperands ⟨word⟩ ⟨immWord⟩ (m.sim.getXReg (RvInsn.mk word).rs2Index)) :
    FormsAgree env insn word immWord m ↔
      insn = .SRA ∨ (m.sim.getXReg (RvInsn.mk word).rs2Index).toNat < 32 := by
  constructor
  · rintro ⟨m', hregister, _⟩
    by_contra hundefined
    obtain ⟨hinsn, hlarge⟩ := not_or.mp hundefined
    rw [insn.registerForm_fault hinsn hlarge] at hregister
    cases hregister
  · intro hdefined
    refine ⟨_, insn.registerForm_run hdefined, ?_⟩
    rw [insn.immediateForm_run, Machine.afterWriteX, hsame.rd, hsame.rs1, hsame.shamt]

/-- `sll x3, x1, x2` and `slli x3, x1, shamt`. -/
def sllWord : UndecodedInsn := InsnMnemonic.SLL.encode ⟨3, 1, 2, 0, 0, 0, 0, 0⟩
def slliWord (shamt : BitVec 5) : UndecodedInsn :=
  InsnMnemonic.SLLI.encode ⟨3, 1, 0, 0, 0, shamt, 0, 0⟩

theorem formsAgree_three :
    FormsAgree queueEnv .SLL sllWord (slliWord 3) (multiplyingMachine 1 3) := by
  have hsame : SameOperands ⟨sllWord⟩ ⟨slliWord 3⟩ 3 := ⟨by decide, by decide, by decide⟩
  exact (formsAgree_iff queueEnv .SLL hsame).mpr (.inr (by decide : (3 : Register).toNat < 32))

/-- A shift by 32: the immediate form for the same amount modulo 32 completes. -/
theorem sll_by_width_undefined :
    decode sllWord = some .SLL ∧ decode (slliWord 0) = some .SLLI ∧
      SameOperands ⟨sllWord⟩ ⟨slliWord 0⟩ 32 ∧
      (getInsnCallback queueEnv .SLL sllWord).run (multiplyingMachine 1 32) =
        .error .shiftAmount (multiplyingMachine 1 32) ∧
      (∃ m', (getInsnCallback queueEnv .SLLI (slliWord 0)).run (multiplyingMachine 1 32) =
        .ok () m' ∧ m'.sim.getXReg 3 = 1) ∧
      ¬ FormsAgree queueEnv .SLL sllWord (slliWord 0) (multiplyingMachine 1 32) := by
  have hfault : (getInsnCallback queueEnv .SLL sllWord).run (multiplyingMachine 1 32) =
      .error .shiftAmount (multiplyingMachine 1 32) := rfl
  refine ⟨decode_encode _ _, decode_encode _ _, ⟨by decide, by decide, by decide⟩, hfault, ?_, ?_⟩
  · exact ⟨_, ShiftInsn.SLL.immediateForm_run, by decide⟩
  · rintro ⟨m', hregister, _⟩
    have hcontra := hfault.symm.trans hregister
    cases hcontra

end Forms

section Rotations

theorem getLsbD_rotateLeft_emod (x : Register) (y : Nat) {i : Nat} (hi : i < 32) :
    (x.rotateLeft y).getLsbD i = x.getLsbD (((i : Int) - y) % 32).toNat := by
  have hindex : (((i : Int) - y) % 32).toNat =
      if i < y % 32 then 32 - y % 32 + i else i - y % 32 := by
    split
    · omega
    · omega
  rw [BitVec.getLsbD_rotateLeft, hindex]
  by_cases hlow : i < y % 32
  · simp [hlow]
  · simp [hlow, hi]

theorem getLsbD_rotateRight_mod (x : Register) (y : Nat) {i : Nat} (hi : i < 32) :
    (x.rotateRight y).getLsbD i = x.getLsbD ((i + y) % 32) := by
  have hindex : (i + y) % 32 =
      if i < 32 - y % 32 then y % 32 + i else i - (32 - y % 32) := by
    split
    · omega
    · omega
  rw [BitVec.getLsbD_rotateRight, hindex]
  by_cases hlow : i < 32 - y % 32
  · simp [hlow]
  · simp [hlow, hi]

theorem rotateRight_rotateLeft (x : Register) (y : Nat) :
    (x.rotateLeft y).rotateRight y = x := by
  apply BitVec.eq_of_getLsbD_eq
  intro i hi
  rw [getLsbD_rotateRight_mod _ y hi, getLsbD_rotateLeft_emod x y (Nat.mod_lt _ (by decide))]
  congr 1
  omega

/-- Both shifts of a rotation are defined, and add up to it. -/
theorem rotateLeft_shifts (x : Register) {amount : Nat} (hpos : amount % 32 ≠ 0) :
    shiftLeft x (amount % 32) = .ok (x <<< (amount % 32)) ∧
      shiftRight x (kXlen - amount % 32) = .ok (x >>> (32 - amount % 32)) ∧
      x <<< (amount % 32) ||| x >>> (32 - amount % 32) = x.rotateLeft amount := by
  refine ⟨shiftLeft_ok x (by omega), shiftRight_ok x ?_, BitVec.rotateLeft_def.symm⟩
  simp only [kXlen, kXlenByte]
  omega

theorem rotateRight_shifts (x : Register) {amount : Nat} (hpos : amount % 32 ≠ 0) :
    shiftRight x (amount % 32) = .ok (x >>> (amount % 32)) ∧
      shiftLeft x (kXlen - amount % 32) = .ok (x <<< (32 - amount % 32)) ∧
      x >>> (amount % 32) ||| x <<< (32 - amount % 32) = x.rotateRight amount := by
  refine ⟨shiftRight_ok x (by omega), shiftLeft_ok x ?_, BitVec.rotateRight_def.symm⟩
  simp only [kXlen, kXlenByte]
  omega

variable {word immWord : UndecodedInsn} {m : Machine H} {x y : Register}

theorem callbackROL_run (hx : m.sim.getXReg (RvInsn.mk word).rs1Index = x)
    (hy : m.sim.getXReg (RvInsn.mk word).rs2Index = y) (hpos : y.toNat % 32 ≠ 0) :
    (callbackROL word).run m =
      .ok () (m.afterWriteX ⟨word⟩ (x.rotateLeft y.toNat)) := by
  obtain ⟨hleft, hright, hvalue⟩ := rotateLeft_shifts x hpos
  subst hx hy
  simp only [callbackROL, EStateM.run_bind, run_getXReg, masked_amount, hleft, hright,
    run_lift_ok, run_setXReg, run_step, Machine.mapSim_mapSim, hvalue]

theorem callbackROR_run (hx : m.sim.getXReg (RvInsn.mk word).rs1Index = x)
    (hy : m.sim.getXReg (RvInsn.mk word).rs2Index = y) (hpos : y.toNat % 32 ≠ 0) :
    (callbackROR word).run m =
      .ok () (m.afterWriteX ⟨word⟩ (x.rotateRight y.toNat)) := by
  obtain ⟨hright, hleft, hvalue⟩ := rotateRight_shifts x hpos
  subst hx hy
  simp only [callbackROR, EStateM.run_bind, run_getXReg, masked_amount, hright, hleft,
    run_lift_ok, run_setXReg, run_step, Machine.mapSim_mapSim, hvalue]

theorem callbackRORI_run (hx : m.sim.getXReg (RvInsn.mk word).rs1Index = x) {amount : Nat}
    (hshamt : (RvInsn.mk word).shamt.toNat = amount % 32) (hpos : amount % 32 ≠ 0) :
    (callbackRORI word).run m = .ok () (m.afterWriteX ⟨word⟩ (x.rotateRight amount)) := by
  obtain ⟨hright, hleft, hvalue⟩ := rotateRight_shifts x hpos
  subst hx
  simp only [callbackRORI, EStateM.run_bind, run_getXReg, hshamt, hright, hleft, run_lift_ok,
    run_setXReg, run_step, Machine.mapSim_mapSim, hvalue]

/-- A rotation by no place shifts by the whole width. -/
theorem callbackROL_fault
    (hzero : (m.sim.getXReg (RvInsn.mk word).rs2Index).toNat % 32 = 0) :
    (callbackROL word).run m = .error .shiftAmount m := by
  have hleft (x : Register) : shiftLeft x 0 = .ok (x <<< 0) := shiftLeft_ok x (by decide)
  have hright (x : Register) : shiftRight x (kXlen - 0) = .error .shiftAmount :=
    if_neg (by decide)
  simp only [callbackROL, EStateM.run_bind, run_getXReg, masked_amount, hzero, hleft, hright,
    run_lift_ok, run_lift_error]

/-- The rotations complete, every shift of the host on the way being defined; they
move the bits as they should, `RORI` with the reduced amount is `ROR`, and `ROR`
undoes `ROL`. -/
def RotationLaws (env : Env H) (word immWord : UndecodedInsn) (m : Machine H) : Prop :=
  let insn : RvInsn := ⟨word⟩
  let x := m.sim.getXReg insn.rs1Index
  let y := m.sim.getXReg insn.rs2Index
  ∃ left right : Register,
    (getInsnCallback env .ROL word).run m = .ok () (m.afterWriteX insn left) ∧
    (getInsnCallback env .ROR word).run m = .ok () (m.afterWriteX insn right) ∧
    (getInsnCallback env .RORI immWord).run m = .ok () (m.afterWriteX insn right) ∧
    (∀ (backWord : UndecodedInsn) (back : Machine H),
      back.sim.getXReg (RvInsn.mk backWord).rs1Index = left →
      back.sim.getXReg (RvInsn.mk backWord).rs2Index = y →
      (getInsnCallback env .ROR backWord).run back = .ok () (back.afterWriteX ⟨backWord⟩ x)) ∧
    ∀ i < 32, left.getLsbD i = x.getLsbD (((i : Int) - y.toNat) % 32).toNat ∧
      right.getLsbD i = x.getLsbD ((i + y.toNat) % 32)

/-- The rotations obey their laws, except by a multiple of the width. -/
theorem rotationLaws_iff (env : Env H)
    (hsame : SameOperands ⟨word⟩ ⟨immWord⟩ (m.sim.getXReg (RvInsn.mk word).rs2Index)) :
    RotationLaws env word immWord m ↔
      (m.sim.getXReg (RvInsn.mk word).rs2Index).toNat % 32 ≠ 0 := by
  constructor
  · rintro ⟨left, right, hleft, _⟩ hzero
    have hcontra := (callbackROL_fault hzero).symm.trans hleft
    cases hcontra
  · intro hpos
    refine ⟨_, _, callbackROL_run rfl rfl hpos, callbackROR_run rfl rfl hpos, ?_, ?_, ?_⟩
    · have hrun := callbackRORI_run (m := m) (congrArg m.sim.getXReg hsame.rs1) hsame.shamt hpos
      rw [Machine.afterWriteX, hsame.rd] at hrun
      exact hrun
    · intro backWord back hx hy
      have hrun := callbackROR_run hx hy hpos
      rw [rotateRight_rotateLeft] at hrun
      exact hrun
    · intro i hi
      exact ⟨getLsbD_rotateLeft_emod _ _ hi, getLsbD_rotateRight_mod _ _ hi⟩

/-- `ror x3, x1, x2`. -/
def rorWord : UndecodedInsn := InsnMnemonic.ROR.encode ⟨3, 1, 2, 0, 0, 0, 0, 0⟩

/-- `rori x3, x1, shamt`. -/
def roriWord (shamt : BitVec 5) : UndecodedInsn :=
  InsnMnemonic.RORI.encode ⟨3, 1, 0, 0, 0, shamt, 0, 0⟩

/-- A rotation by one place, the amount being larger than the width. -/
theorem rotationLaws_one :
    RotationLaws queueEnv rorWord (roriWord 1) (multiplyingMachine 0x80000001 33) := by
  have hsame : SameOperands ⟨rorWord⟩ ⟨roriWord 1⟩ 33 := ⟨by decide, by decide, by decide⟩
  exact (rotationLaws_iff queueEnv hsame).mpr (by decide : (33 : Register).toNat % 32 ≠ 0)

/-- The amount zero: none of the three rotations has a value. -/
theorem rotation_by_zero_undefined :
    decode rorWord = some .ROR ∧ decode (roriWord 0) = some .RORI ∧
      SameOperands ⟨rorWord⟩ ⟨roriWord 0⟩ 0 ∧
      (getInsnCallback queueEnv .ROL rorWord).run (multiplyingMachine 1 0) =
        .error .shiftAmount (multiplyingMachine 1 0) ∧
      (getInsnCallback queueEnv .ROR rorWord).run (multiplyingMachine 1 0) =
        .error .shiftAmount (multiplyingMachine 1 0) ∧
      (getInsnCallback queueEnv .RORI (roriWord 0)).run (multiplyingMachine 1 0) =
        .error .shiftAmount (multiplyingMachine 1 0) ∧
      ¬ RotationLaws queueEnv rorWord (roriWord 0) (multiplyingMachine 1 0) := by
  refine ⟨decode_encode _ _, decode_encode _ _, ⟨by decide, by decide, by decide⟩, rfl, rfl, rfl, ?_⟩
  rintro ⟨left, right, hleft, _⟩
  have hfault : (getInsnCallback queueEnv .ROL rorWord).run (multiplyingMachine 1 0) =
      .error .shiftAmount (multiplyingMachine 1 0) := rfl
  have hcontra := hfault.symm.trans hleft
  cases hcontra

end Rotations

end RiscvSim
