import RiscvSim.Sim.FlagAccrual
import RiscvSim.Spec.InvalidOperations

/-!
Which NaN an arithmetic instruction writes. The architecture has one NaN for all
results; the callbacks write the one that the library returns, and one of them
changes its sign on the way. The library that the build asks for hands on the
first NaN that it is given, and has a NaN of its own for invalid operations.
-/

namespace RiscvSim

open SimM Binary32 Rounding

variable {H : Type}

/-- The instructions whose result is a number that was computed. -/
inductive ArithmeticInsn where
  | FADD_S | FSUB_S | FMUL_S | FDIV_S | FSQRT_S
  | FMADD_S | FMSUB_S | FNMSUB_S | FNMADD_S
  deriving DecidableEq

namespace ArithmeticInsn

def rounding : ArithmeticInsn → RoundingInsn
  | .FADD_S => .FADD_S
  | .FSUB_S => .FSUB_S
  | .FMUL_S => .FMUL_S
  | .FDIV_S => .FDIV_S
  | .FSQRT_S => .FSQRT_S
  | .FMADD_S => .FMADD_S
  | .FMSUB_S => .FMSUB_S
  | .FNMSUB_S => .FNMSUB_S
  | .FNMADD_S => .FNMADD_S

/-- What the library returns for the operands that the callback hands over. -/
def returned (lib : SoftFloat) (mode : BitVec 8) (a b c : FRegister) :
    ArithmeticInsn → FRegister × BitVec 8
  | .FADD_S => lib.f32_add mode a b
  | .FSUB_S => lib.f32_sub mode a b
  | .FMUL_S => lib.f32_mul mode a b
  | .FDIV_S => lib.f32_div mode a b
  | .FSQRT_S => lib.f32_sqrt mode a
  | .FMADD_S => lib.f32_mulAdd mode a b c
  | .FMSUB_S => lib.f32_mulAdd mode a b (f32_neg c)
  | .FNMSUB_S => lib.f32_mulAdd mode (f32_neg a) b c
  | .FNMADD_S => lib.f32_mulAdd mode a b c

/-- What the callback makes of it. -/
def written (value : FRegister) : ArithmeticInsn → FRegister
  | .FNMADD_S => f32_neg value
  | _ => value

/-- The operands of the library call, in the order in which their NaNs are handed on. -/
def handed (a b c : FRegister) : ArithmeticInsn → List FRegister
  | .FADD_S | .FSUB_S | .FMUL_S | .FDIV_S => [a, b]
  | .FSQRT_S => [a]
  | .FMADD_S | .FNMADD_S => fusedOperands a b c
  | .FMSUB_S => fusedOperands a b (negate c)
  | .FNMSUB_S => fusedOperands (negate a) b c

/-- The operation has no number for its result, though no operand is a NaN. -/
def Invalid (a b c : FRegister) : ArithmeticInsn → Prop
  | .FADD_S => InvalidSum a b
  | .FSUB_S => InvalidSum a (negate b)
  | .FMUL_S => InvalidProduct a b
  | .FDIV_S => InvalidQuotient a b
  | .FSQRT_S => InvalidRoot a
  | .FMADD_S | .FNMADD_S => InvalidFused a b c
  | .FMSUB_S => InvalidFused a b (negate c)
  | .FNMSUB_S => InvalidFused (negate a) b c

/-- The NaN that is written as the canonical one. -/
def wanted : ArithmeticInsn → FRegister
  | .FNMADD_S => negate canonicalNaN
  | _ => canonicalNaN

/-- The first NaN among the operands is the one that is written as the canonical one; and
without a NaN the operation is valid, or the instruction negates its result. -/
def CanonicalOn (a b c : FRegister) (insn : ArithmeticInsn) : Prop :=
  (∀ x, firstNaN (insn.handed a b c) = some x → x = insn.wanted) ∧
    (firstNaN (insn.handed a b c) = none → insn.Invalid a b c → insn = .FNMADD_S)

end ArithmeticInsn

/-- What the library of the platform returns for an invalid operation. -/
def platformNaN : FRegister := 0xffc00000

/-- The library hands on the NaNs of its operands as its platform does. -/
structure PropagatesNaN (lib : SoftFloat) : Prop where
  add : ∀ direction a b, Propagates [a, b] (InvalidSum a b) platformNaN
    (lib.f32_add (softfloatRound direction) a b).1
  sub : ∀ direction a b, Propagates [a, b] (InvalidSum a (negate b)) platformNaN
    (lib.f32_sub (softfloatRound direction) a b).1
  mul : ∀ direction a b, Propagates [a, b] (InvalidProduct a b) platformNaN
    (lib.f32_mul (softfloatRound direction) a b).1
  div : ∀ direction a b, Propagates [a, b] (InvalidQuotient a b) platformNaN
    (lib.f32_div (softfloatRound direction) a b).1
  sqrt : ∀ direction a, Propagates [a] (InvalidRoot a) platformNaN
    (lib.f32_sqrt (softfloatRound direction) a).1
  mulAdd : ∀ direction a b c, Propagates (fusedOperands a b c) (InvalidFused a b c) platformNaN
    (lib.f32_mulAdd (softfloatRound direction) a b c).1

/-- The iteration writes no NaN but the canonical one. -/
def WritesCanonicalNaN (env : Env H) (word : UndecodedInsn) (m : Machine H) : Prop :=
  let rd := (RvInsn.mk word).rdIndex
  ∃ m', (executeInsn env).run m = .ok () m' ∧
    (IsNaN (m'.sim.getFReg rd) → m'.sim.getFReg rd = canonicalNaN)

/-- The negation of the code is the one of the format. -/
theorem f32_neg_eq_negate (val : FRegister) : f32_neg val = negate val := by
  have hsign : ((1 : FRegister) <<< 31).msb = true := by decide
  have hlow : ((1 : FRegister) <<< 31).setWidth 31 = 0#31 := by decide
  have hrest : (~~~((1 : FRegister) <<< 31)).setWidth 31 = BitVec.allOnes 31 := by decide
  apply ext_fields
  · rw [negative_negate, negative, negative, f32_neg]
    simp only [BitVec.msb_or, BitVec.msb_and, BitVec.msb_xor, BitVec.msb_not, hsign]
    cases val.msb <;> rfl
  · have hkept : (f32_neg val).setWidth 31 = val.setWidth 31 := by
      rw [f32_neg]
      simp only [BitVec.setWidth_or, BitVec.setWidth_and, BitVec.setWidth_xor, hlow, hrest,
        BitVec.and_zero, BitVec.zero_or, BitVec.and_allOnes]
    rw [magnitude_negate, magnitude, magnitude, ← BitVec.toNat_setWidth, hkept,
      BitVec.toNat_setWidth]

section Operands

variable {lib : SoftFloat} {direction : Direction} {a b c : FRegister} (insn : ArithmeticInsn)

theorem ArithmeticInsn.returned_propagates (hlib : PropagatesNaN lib) :
    Propagates (insn.handed a b c) (insn.Invalid a b c) platformNaN
      (insn.returned lib (softfloatRound direction) a b c).1 := by
  cases insn with
  | FADD_S => exact hlib.add direction a b
  | FSUB_S => exact hlib.sub direction a b
  | FMUL_S => exact hlib.mul direction a b
  | FDIV_S => exact hlib.div direction a b
  | FSQRT_S => exact hlib.sqrt direction a
  | FMADD_S | FNMADD_S => exact hlib.mulAdd direction a b c
  | FMSUB_S =>
      rw [returned, f32_neg_eq_negate]
      exact hlib.mulAdd direction a b (negate c)
  | FNMSUB_S =>
      rw [returned, f32_neg_eq_negate]
      exact hlib.mulAdd direction (negate a) b c

/-- What is written is canonical where what is returned is the wanted NaN. -/
theorem ArithmeticInsn.written_canonical_iff (value : FRegister) :
    (IsNaN (insn.written value) → insn.written value = canonicalNaN) ↔
      (IsNaN value → value = insn.wanted) := by
  cases insn with
  | FNMADD_S =>
      -- the sign of the returned pattern is flipped once more
      rw [written, f32_neg_eq_negate, isNaN_negate_iff, negate_eq_iff]
      rfl
  | FADD_S | FSUB_S | FMUL_S | FDIV_S | FSQRT_S | FMADD_S | FMSUB_S | FNMSUB_S => rfl

theorem ArithmeticInsn.wanted_cases :
    insn.wanted = canonicalNaN ∨ insn.wanted = negate canonicalNaN := by
  cases insn with
  | FNMADD_S => exact .inr rfl
  | FADD_S | FSUB_S | FMUL_S | FDIV_S | FSQRT_S | FMADD_S | FMSUB_S | FNMSUB_S => exact .inl rfl

/-- The NaN of the platform has the sign that only one instruction flips. -/
theorem ArithmeticInsn.platformNaN_wanted_iff : platformNaN = insn.wanted ↔ insn = .FNMADD_S := by
  cases insn with
  | FNMADD_S => decide
  | FADD_S | FSUB_S | FMUL_S | FDIV_S | FSQRT_S | FMADD_S | FMSUB_S | FNMSUB_S => decide

theorem ArithmeticInsn.writes_iff (hlib : PropagatesNaN lib) {value : FRegister}
    (hvalue : (insn.returned lib (softfloatRound direction) a b c).1 = value) :
    (IsNaN (insn.written value) → insn.written value = canonicalNaN) ↔
      insn.CanonicalOn a b c := by
  subst hvalue
  rw [insn.written_canonical_iff,
    (insn.returned_propagates hlib).wanted_iff (by decide) insn.wanted_cases,
    insn.platformNaN_wanted_iff]
  rfl

end Operands

section Iteration

variable (env : Env H) (insn : ArithmeticInsn) {m : Machine H} {word : UndecodedInsn}

theorem ArithmeticInsn.executeInsn_run {mode : BitVec 8}
    (hfetch : m.sim.memory.fetch env.build m.sim.ip = .ok word)
    (hdecode : decode word = some insn.rounding.mnem)
    (hmode : (m.sim.selectedRM ⟨word⟩).softfloat? = some mode) :
    let fields : RvInsn := ⟨word⟩
    let res := insn.returned env.softfloat mode (m.sim.getFReg fields.rs1Index)
      (m.sim.getFReg fields.rs2Index) (m.sim.getFReg fields.rs3Index)
    (executeInsn env).run m =
      .ok () (m.afterRounding fields mode (.fReg (insn.written res.1) res.2)) := by
  have hrun := executeInsn_rounding env hfetch hdecode hmode
  rw [hrun]
  cases insn <;> rfl

/-- No NaN but the canonical one is written exactly where the first NaN operand is that
one and, without a NaN operand, the operation is valid; `FNMADD.S` flips the sign, and so
makes the NaN of the platform canonical. -/
theorem writesCanonicalNaN_iff {direction : Direction} (hlib : PropagatesNaN env.softfloat)
    (hfetch : m.sim.memory.fetch env.build m.sim.ip = .ok word)
    (hdecode : decode word = some insn.rounding.mnem)
    (hmode : (m.sim.selectedRM ⟨word⟩).direction? = some direction) :
    WritesCanonicalNaN env word m ↔
      insn.CanonicalOn (m.sim.getFReg (RvInsn.mk word).rs1Index)
        (m.sim.getFReg (RvInsn.mk word).rs2Index) (m.sim.getFReg (RvInsn.mk word).rs3Index) := by
  have hrun := insn.executeInsn_run env hfetch hdecode (RoundingMode.softfloat?_of_direction hmode)
  rw [← insn.writes_iff hlib rfl]
  constructor
  · rintro ⟨m', hrun', hcanonical⟩
    cases hrun.symm.trans hrun'
    rw [Machine.afterRounding, RVSim.getFReg_retire] at hcanonical
    exact hcanonical
  · intro hcanonical
    refine ⟨_, hrun, ?_⟩
    rw [Machine.afterRounding, RVSim.getFReg_retire]
    exact hcanonical

end Iteration

section Library

/-- The answer of a library that hands on the first NaN, given the number where there is
one. -/
def answer (operands : List FRegister) (number : Option (FRegister × BitVec 8)) :
    FRegister × BitVec 8 :=
  match firstNaN operands with
  | some x => (quieted x, if ∃ x ∈ operands, IsSignaling x then invalidFlag else 0)
  | none => number.getD (platformNaN, invalidFlag)

theorem answer_of_number {operands : List FRegister} {number : Option (FRegister × BitVec 8)}
    (hnone : firstNaN operands = none) :
    answer operands number = number.getD (platformNaN, invalidFlag) := by
  rw [answer, hnone]

theorem answer_propagates {operands : List FRegister} {isInvalid : Prop}
    {number : Option (FRegister × BitVec 8)}
    (hnone : firstNaN operands = none → (number = none ↔ isInvalid))
    (hnumber : ∀ res, number = some res → ¬ IsNaN res.1) :
    Propagates operands isInvalid platformNaN (answer operands number).1 := by
  constructor
  · intro x hfirst
    rw [answer, hfirst]
  · intro hfirst hinvalid
    rw [answer_of_number hfirst, (hnone hfirst).mpr hinvalid]
    rfl
  · intro hfirst hvalid
    obtain ⟨res, hres⟩ := Option.ne_none_iff_exists'.mp (mt (hnone hfirst).mp hvalid)
    rw [answer_of_number hfirst, hres]
    exact hnumber res hres

/-- A library with the operations of the standard that hands on NaNs as the platform
does. -/
def SoftFloat.propagating : SoftFloat :=
  { SoftFloat.integers with
    f32_add := fun mode a b => answer [a, b] (add (roundDirection mode) a b)
    f32_sub := fun mode a b => answer [a, b] (subtract (roundDirection mode) a b)
    f32_mul := fun mode a b => answer [a, b] (multiply (roundDirection mode) a b)
    f32_div := fun mode a b => answer [a, b] (divide (roundDirection mode) a b)
    f32_sqrt := fun mode a => answer [a] (squareRoot (roundDirection mode) a)
    f32_mulAdd := fun mode a b c =>
      answer (fusedOperands a b c) (fusedMulAdd (roundDirection mode) a b c) }

theorem firstNaN_pair_eq_none_iff {a b : FRegister} :
    firstNaN [a, b] = none ↔ ¬ IsNaN a ∧ ¬ IsNaN b := by
  simp [firstNaN_eq_none_iff]

theorem firstNaN_fused_eq_none_iff {a b c : FRegister} :
    firstNaN (fusedOperands a b c) = none ↔
      ¬ IsNaN a ∧ ¬ IsNaN b ∧ (¬ IsNaN c ∨ InvalidProduct a b) := by
  unfold fusedOperands
  by_cases hproduct : InvalidProduct a b
  · simp [hproduct, firstNaN_pair_eq_none_iff]
  · simp [hproduct, firstNaN_eq_none_iff]

theorem answer_pair_propagates {a b : FRegister} {isInvalid : Prop}
    {number : Option (FRegister × BitVec 8)}
    (hnone : number = none ↔ IsNaN a ∨ IsNaN b ∨ isInvalid)
    (hnumber : ∀ res, number = some res → ¬ IsNaN res.1) :
    Propagates [a, b] isInvalid platformNaN (answer [a, b] number).1 := by
  refine answer_propagates (fun hfirst => ?_) hnumber
  obtain ⟨ha, hb⟩ := firstNaN_pair_eq_none_iff.mp hfirst
  rw [hnone, or_iff_right ha, or_iff_right hb]

theorem SoftFloat.propagating_propagates : PropagatesNaN SoftFloat.propagating := by
  constructor
  · intro direction a b
    exact answer_pair_propagates add_eq_none_iff fun res => not_nan_fusedMulAdd
  · intro direction a b
    exact answer_pair_propagates subtract_eq_none_iff fun res => not_nan_fusedMulAdd
  · intro direction a b
    exact answer_pair_propagates multiply_eq_none_iff fun res => not_nan_fusedMulAdd
  · intro direction a b
    exact answer_pair_propagates divide_eq_none_iff fun res => not_nan_divide
  · intro direction a
    refine answer_propagates (fun hfirst => ?_) fun res => not_nan_squareRoot
    have ha := firstNaN_eq_none_iff.mp hfirst a List.mem_cons_self
    rw [squareRoot_eq_none_iff, or_iff_right ha]
  · intro direction a b c
    refine answer_propagates (fun hfirst => ?_) fun res => not_nan_fusedMulAdd
    obtain ⟨ha, hb, hc⟩ := firstNaN_fused_eq_none_iff.mp hfirst
    rw [fusedMulAdd_eq_none_iff, or_iff_right ha, or_iff_right hb]
    exact or_iff_right_of_imp fun hnan => .inl (hc.resolve_left fun hnot => hnot hnan)

def propagatingEnv : Env (List MemByte) := { queueEnv with softfloat := .propagating }

end Library

/-- `fadd.s f3, f1, f2, rne`. -/
def addWord : UndecodedInsn := InsnMnemonic.FADD_S.encode ⟨3, 1, 2, 0, 0, 0, 0, 0⟩

theorem addWord_fields :
    (RvInsn.mk addWord).rdIndex = 3 ∧ (RvInsn.mk addWord).rs1Index = 1 ∧
      (RvInsn.mk addWord).rs2Index = 2 := by
  decide

theorem addWord_selects (a b : FRegister) :
    ((operandMachine addWord a b 0).sim.selectedRM ⟨addWord⟩).direction? = some .nearestEven := by
  rw [operandMachine_selectedRM]
  decide

/-- A canonical operand comes out as it is. -/
theorem writesCanonicalNaN_propagated :
    WritesCanonicalNaN propagatingEnv addWord
      (operandMachine addWord canonicalNaN 0x3f800000 0) := by
  have hdecode : decode addWord = some ArithmeticInsn.FADD_S.rounding.mnem := decode_encode _ _
  refine (writesCanonicalNaN_iff propagatingEnv .FADD_S SoftFloat.propagating_propagates
    (operandMachine_fetch _ _ _ _ _) hdecode (addWord_selects canonicalNaN 0x3f800000)).mpr ?_
  simp only [addWord_fields, operandMachine_getFReg]
  refine ⟨fun x hfirst => ?_, fun hnone => ?_⟩
  · exact (Option.some.inj hfirst).symm
  · exact absurd hnone (by decide)

/-- The sum of the two infinities is the NaN of the platform. -/
theorem infinities_add_to_negative_nan :
    PropagatesNaN propagatingEnv.softfloat ∧ decode addWord = some .FADD_S ∧
      ¬ WritesCanonicalNaN propagatingEnv addWord
        (operandMachine addWord 0x7f800000 0xff800000 0) ∧
      ∃ m', (executeInsn propagatingEnv).run
          (operandMachine addWord 0x7f800000 0xff800000 0) = .ok () m' ∧
        m'.sim.getFReg 3 = 0xffc00000 := by
  have hdecode : decode addWord = some ArithmeticInsn.FADD_S.rounding.mnem := decode_encode _ _
  have hrun := ArithmeticInsn.FADD_S.executeInsn_run propagatingEnv
    (operandMachine_fetch addWord 0x7f800000 0xff800000 0 _) hdecode
    (RoundingMode.softfloat?_of_direction (addWord_selects 0x7f800000 0xff800000))
  simp only [addWord_fields, operandMachine_getFReg] at hrun
  have hwritten := RVSim.getFReg_retire
    (operandMachine addWord 0x7f800000 0xff800000 0).sim ⟨addWord⟩ 0xffc00000
    softfloat_flag_invalid
  rw [addWord_fields.1] at hwritten
  refine ⟨SoftFloat.propagating_propagates, hdecode, ?_, _, hrun, hwritten⟩
  rintro ⟨m', hrun', hcanonical⟩
  injection hrun.symm.trans hrun' with _ hmachine
  have hread : m'.sim.getFReg 3 = 0xffc00000 := by
    rw [← hmachine]
    exact hwritten
  rw [addWord_fields.1, hread] at hcanonical
  exact absurd (hcanonical (by decide)) (by decide)

end RiscvSim
