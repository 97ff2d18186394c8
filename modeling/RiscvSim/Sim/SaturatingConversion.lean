import RiscvSim.Sim.FlagAccrual
import RiscvSim.Spec.Binary32

/-!
The conversions to integers. The architecture sends what has no place among the
integers of the type to one of the two ends; the callbacks return what the
library does, which for these operands is a word that its platform chose.
-/

namespace RiscvSim

open SimM Binary32 Rounding

variable {H : Type}

inductive SaturatingInsn where
  | FCVT_W_S | FCVT_WU_S
  deriving DecidableEq

namespace SaturatingInsn

def rounding : SaturatingInsn → RoundingInsn
  | .FCVT_W_S => .FCVT_W_S
  | .FCVT_WU_S => .FCVT_WU_S

def low : SaturatingInsn → ℤ
  | .FCVT_W_S => -2 ^ 31
  | .FCVT_WU_S => 0

def high : SaturatingInsn → ℤ
  | .FCVT_W_S => 2 ^ 31 - 1
  | .FCVT_WU_S => 2 ^ 32 - 1

/-- What the library returns for an operand without a place in the type, on the
platform that it is built for. -/
def invalid : SaturatingInsn → Register
  | .FCVT_W_S => 0x80000000
  | .FCVT_WU_S => 0xffffffff

/-- The library's conversion. -/
def convert (lib : SoftFloat) (a : FRegister) (mode : BitVec 8) :
    SaturatingInsn → Register × BitVec 8
  | .FCVT_W_S => lib.f32_to_i32 a mode true
  | .FCVT_WU_S => lib.f32_to_ui32 a mode true

/-- For a signed result the operand is a number or the lower infinity, and not too
large; for an unsigned one it is not the lower infinity and not negative once it is
rounded. -/
def RightOn (direction : Direction) (a : FRegister) : SaturatingInsn → Prop
  | .FCVT_W_S => ¬ IsNaN a ∧ ¬ (IsInfinite a ∧ negative a = false) ∧
      (IsFinite a → ∀ z, Rounds (value a) z direction → z ≤ 2 ^ 31 - 1)
  | .FCVT_WU_S => ¬ (IsInfinite a ∧ negative a = true) ∧
      (IsFinite a → ∀ z, Rounds (value a) z direction → 0 ≤ z)

end SaturatingInsn

/-- The library rounds to an integer in every direction, and returns the platform's
word where the type has no place for the result. -/
structure ConvertsOnPlatform (lib : SoftFloat) : Prop where
  rounds : ∀ (insn : SaturatingInsn) a direction z, IsFinite a → Rounds (value a) z direction →
    insn.low ≤ z → z ≤ insn.high →
    (insn.convert lib a (softfloatRound direction)).1 = BitVec.ofInt 32 z
  overflows : ∀ (insn : SaturatingInsn) a direction z, IsFinite a → Rounds (value a) z direction →
    ¬ (insn.low ≤ z ∧ z ≤ insn.high) →
    (insn.convert lib a (softfloatRound direction)).1 = insn.invalid
  notFinite : ∀ (insn : SaturatingInsn) a direction, ¬ IsFinite a →
    (insn.convert lib a (softfloatRound direction)).1 = insn.invalid

/-- The iteration writes the saturated integer. -/
def ConvertsSaturating (env : Env H) (insn : SaturatingInsn) (word : UndecodedInsn)
    (m : Machine H) (direction : Direction) : Prop :=
  let fields : RvInsn := ⟨word⟩
  ∃ res raised m', (executeInsn env).run m = .ok () m' ∧
    Saturated insn.low insn.high direction (m.sim.getFReg fields.rs1Index) res ∧
    m'.sim = m.sim.retire fields (.xReg (BitVec.ofInt 32 res) raised)

namespace SaturatingInsn

section Result

variable {lib : SoftFloat} {a : FRegister} {direction : Direction}

/-- The platform's words are the lower end of the signed type and the upper one of
the unsigned type. -/
theorem invalid_eq (insn : SaturatingInsn) :
    insn.invalid = BitVec.ofInt 32 (if insn = .FCVT_W_S then insn.low else insn.high) := by
  cases insn with
  | FCVT_W_S => decide
  | FCVT_WU_S => decide

/-- Within the type, integers are told apart by their words. -/
theorem ofInt_inj (insn : SaturatingInsn) {z z' : ℤ} (hz : insn.low ≤ z ∧ z ≤ insn.high)
    (hz' : insn.low ≤ z' ∧ z' ≤ insn.high) :
    BitVec.ofInt 32 z = BitVec.ofInt 32 z' ↔ z = z' := by
  rw [← BitVec.toNat_inj, BitVec.toNat_ofInt, BitVec.toNat_ofInt]
  cases insn with
  | FCVT_W_S =>
      simp only [low, high] at hz hz'
      omega
  | FCVT_WU_S =>
      simp only [low, high] at hz hz'
      omega

theorem low_lt_high (insn : SaturatingInsn) : insn.low < insn.high := by
  cases insn with
  | FCVT_W_S => decide
  | FCVT_WU_S => decide

/-- The platform's word is the one for an end of the type. -/
theorem invalid_eq_iff (insn : SaturatingInsn) {z : ℤ} (hz : insn.low ≤ z ∧ z ≤ insn.high) :
    insn.invalid = BitVec.ofInt 32 z ↔
      z = if insn = .FCVT_W_S then insn.low else insn.high := by
  have hends := insn.low_lt_high.le
  rw [invalid_eq, insn.ofInt_inj _ hz, eq_comm]
  split
  · exact ⟨le_rfl, hends⟩
  · exact ⟨hends, le_rfl⟩

/-- A finite operand: the library goes to one end whichever side the operand is on. -/
theorem converts_finite_iff (hlib : ConvertsOnPlatform lib) (insn : SaturatingInsn)
    (ha : IsFinite a) :
    (insn.convert lib a (softfloatRound direction)).1 =
        BitVec.ofInt 32 (max insn.low (min (toInteger direction a) insn.high)) ↔
      insn.RightOn direction a := by
  have hrounds := rounds_toInteger direction a
  have hunique (p : ℤ → Prop) :
      (IsFinite a → ∀ z, Rounds (value a) z direction → p z) ↔ p (toInteger direction a) :=
    ⟨fun h => h ha _ hrounds, fun h _ z hz => hz.unique hrounds ▸ h⟩
  have hends := insn.low_lt_high.le
  have hclamped : insn.low ≤ max insn.low (min (toInteger direction a) insn.high) ∧
      max insn.low (min (toInteger direction a) insn.high) ≤ insn.high :=
    ⟨le_max_left _ _, max_le hends (min_le_right _ _)⟩
  have hright : insn.RightOn direction a ↔
      if insn = .FCVT_W_S then toInteger direction a ≤ insn.high
      else insn.low ≤ toInteger direction a := by
    have hnan : ¬ IsNaN a := ha.not_gt
    have hinfinite (sign : Bool) : ¬ (IsInfinite a ∧ negative a = sign) := fun h => ha.ne h.1
    cases insn with
    | FCVT_W_S =>
        rw [RightOn, hunique, and_iff_right hnan, and_iff_right (hinfinite false)]
        rfl
    | FCVT_WU_S =>
        rw [RightOn, hunique, and_iff_right (hinfinite true)]
        rfl
  rw [hright]
  by_cases hplace : insn.low ≤ toInteger direction a ∧ toInteger direction a ≤ insn.high
  · rw [hlib.rounds insn a direction _ ha hrounds hplace.1 hplace.2, min_eq_left hplace.2,
      max_eq_right hplace.1]
    refine iff_of_true rfl ?_
    split
    · exact hplace.2
    · exact hplace.1
  · rw [hlib.overflows insn a direction _ ha hrounds hplace, insn.invalid_eq_iff hclamped]
    rcases not_and_or.mp hplace with hbelow | habove
    · have hless := not_le.mp hbelow
      rw [max_eq_left ((min_le_left _ _).trans hless.le)]
      split
      · exact iff_of_true rfl (hless.le.trans hends)
      · exact iff_of_false insn.low_lt_high.ne hbelow
    · have hgreater := not_le.mp habove
      rw [min_eq_right hgreater.le, max_eq_right hends]
      split
      · exact iff_of_false insn.low_lt_high.ne' habove
      · exact iff_of_true rfl (hends.trans hgreater.le)

theorem converts_iff (hlib : ConvertsOnPlatform lib) (insn : SaturatingInsn) :
    (∃ res, Saturated insn.low insn.high direction a res ∧
      (insn.convert lib a (softfloatRound direction)).1 = BitVec.ofInt 32 res) ↔
      insn.RightOn direction a := by
  rcases lt_trichotomy (magnitude a) infinity with hfinite | hinfinite | hnan
  · have ha : IsFinite a := hfinite
    simp only [Saturated.finite_iff ha, exists_eq_left]
    exact converts_finite_iff hlib insn ha
  · have ha : IsInfinite a := hinfinite
    have hfinite : ¬ IsFinite a := hinfinite.not_lt
    have hnan : ¬ IsNaN a := hinfinite.not_gt
    simp only [Saturated.infinite_iff ha, exists_eq_left]
    rw [hlib.notFinite insn a direction hfinite, insn.invalid_eq_iff (by
      split
      · exact ⟨le_rfl, insn.low_lt_high.le⟩
      · exact ⟨insn.low_lt_high.le, le_rfl⟩)]
    cases insn with
    | FCVT_W_S =>
        cases hsign : negative a <;> simp [RightOn, ha, hfinite, hnan, hsign, low, high]
    | FCVT_WU_S =>
        cases hsign : negative a <;> simp [RightOn, ha, hfinite, hsign, low, high]
  · have ha : IsNaN a := hnan
    have hfinite : ¬ IsFinite a := hnan.not_gt
    have hinfinite : ¬ IsInfinite a := hnan.ne'
    simp only [Saturated.nan_iff ha, exists_eq_left]
    rw [hlib.notFinite insn a direction hfinite,
      insn.invalid_eq_iff ⟨insn.low_lt_high.le, le_rfl⟩]
    cases insn with
    | FCVT_W_S => simp [RightOn, ha, low, high]
    | FCVT_WU_S => simp [RightOn, hfinite, hinfinite]

end Result

section Iteration

variable (env : Env H) (insn : SaturatingInsn) {m : Machine H} {word : UndecodedInsn}
variable {direction : Direction}

theorem executeInsn_convert (hfetch : m.sim.memory.fetch env.build m.sim.ip = .ok word)
    (hdecode : decode word = some insn.rounding.mnem)
    (hmode : (m.sim.selectedRM ⟨word⟩).direction? = some direction) :
    ∃ m', (executeInsn env).run m = .ok () m' ∧
      m'.sim = m.sim.retire ⟨word⟩ (.xReg
        (insn.convert env.softfloat (m.sim.getFReg (RvInsn.mk word).rs1Index)
          (softfloatRound direction)).1
        (insn.convert env.softfloat (m.sim.getFReg (RvInsn.mk word).rs1Index)
          (softfloatRound direction)).2) := by
  have hrun := executeInsn_rounding env hfetch hdecode (RoundingMode.softfloat?_of_direction hmode)
  refine ⟨_, hrun, ?_⟩
  cases insn with
  | FCVT_W_S => rfl
  | FCVT_WU_S => rfl

/-- Two results that retire alike are the same word, unless they go to `x0`. -/
theorem retire_xReg_inj {sim : RVSim} {fields : RvInsn} {value value' : Register}
    {raised raised' : BitVec 8} (hrd : fields.rdIndex ≠ XRegAlias.zero)
    (h : sim.retire fields (.xReg value raised) = sim.retire fields (.xReg value' raised')) :
    value = value' := by
  have hread := congrArg (·.getXReg fields.rdIndex) h
  rwa [RVSim.getXReg_retire _ _ _ hrd, RVSim.getXReg_retire _ _ _ hrd] at hread

theorem retire_xReg_zero {sim : RVSim} {fields : RvInsn} (value value' : Register)
    (raised : BitVec 8) (hrd : fields.rdIndex = XRegAlias.zero) :
    sim.retire fields (.xReg value raised) = sim.retire fields (.xReg value' raised) := by
  rw [RVSim.retire, RVSim.retire, hrd, RVSim.setXReg, RVSim.setXReg, if_pos rfl, if_pos rfl]

theorem convertsSaturating_iff_result
    (hfetch : m.sim.memory.fetch env.build m.sim.ip = .ok word)
    (hdecode : decode word = some insn.rounding.mnem)
    (hmode : (m.sim.selectedRM ⟨word⟩).direction? = some direction) :
    ConvertsSaturating env insn word m direction ↔
      (RvInsn.mk word).rdIndex = XRegAlias.zero ∨
        ∃ res, Saturated insn.low insn.high direction
          (m.sim.getFReg (RvInsn.mk word).rs1Index) res ∧
          (insn.convert env.softfloat (m.sim.getFReg (RvInsn.mk word).rs1Index)
            (softfloatRound direction)).1 = BitVec.ofInt 32 res := by
  obtain ⟨m', hrun, hsim⟩ := insn.executeInsn_convert env hfetch hdecode hmode
  constructor
  · rintro ⟨res, raised, m'', hrun', hsaturated, hwritten⟩
    cases hrun.symm.trans hrun'
    by_cases hrd : (RvInsn.mk word).rdIndex = XRegAlias.zero
    · exact .inl hrd
    · exact .inr ⟨res, hsaturated, retire_xReg_inj hrd (hsim.symm.trans hwritten)⟩
  · rintro (hrd | ⟨res, hsaturated, hword⟩)
    · obtain ⟨res, hsaturated⟩ := Saturated.exists_res insn.low insn.high direction
        (m.sim.getFReg (RvInsn.mk word).rs1Index)
      exact ⟨res, _, m', hrun, hsaturated, hsim.trans (retire_xReg_zero _ _ _ hrd)⟩
    · rw [hword] at hsim
      exact ⟨res, _, m', hrun, hsaturated, hsim⟩

end Iteration

end SaturatingInsn

/-- The conversions write the saturated integer exactly where the platform's word is
the end that the architecture asks for. -/
theorem convertsSaturating_iff (env : Env H) (insn : SaturatingInsn) {m : Machine H}
    {word : UndecodedInsn} {direction : Direction} (hlib : ConvertsOnPlatform env.softfloat)
    (hfetch : m.sim.memory.fetch env.build m.sim.ip = .ok word)
    (hdecode : decode word = some insn.rounding.mnem)
    (hmode : (m.sim.selectedRM ⟨word⟩).direction? = some direction) :
    ConvertsSaturating env insn word m direction ↔
      (RvInsn.mk word).rdIndex = XRegAlias.zero ∨
        insn.RightOn direction (m.sim.getFReg (RvInsn.mk word).rs1Index) := by
  rw [insn.convertsSaturating_iff_result env hfetch hdecode hmode,
    SaturatingInsn.converts_iff hlib]

namespace SaturatingInsn

/-- What a library of the platform returns. -/
def onPlatform (insn : SaturatingInsn) (mode : BitVec 8) (a : FRegister) :
    Register × BitVec 8 :=
  let z := toInteger (roundDirection mode) a
  if IsFinite a ∧ insn.low ≤ z ∧ z ≤ insn.high then
    (BitVec.ofInt 32 z, if BinaryFormat.units 23 (magnitude a) % 2 ^ 149 = 0 then 0 else 1)
  else (insn.invalid, softfloat_flag_invalid)

/-- The instruction to register five, rounding to the nearest even integer. -/
def word (insn : SaturatingInsn) : UndecodedInsn :=
  insn.rounding.mnem.encode ⟨5, 1, 0, 0, 0, 0, 0, 0⟩

end SaturatingInsn

theorem ConvertsOnPlatform.of_onPlatform {lib : SoftFloat}
    (hconvert : ∀ (insn : SaturatingInsn) direction a,
      insn.convert lib a (softfloatRound direction) =
        insn.onPlatform (softfloatRound direction) a) : ConvertsOnPlatform lib := by
  have hword (insn : SaturatingInsn) (a : FRegister) (direction : Direction) :
      (insn.convert lib a (softfloatRound direction)).1 =
        if IsFinite a ∧ insn.low ≤ toInteger direction a ∧ toInteger direction a ≤ insn.high
        then BitVec.ofInt 32 (toInteger direction a) else insn.invalid := by
    rw [hconvert, SaturatingInsn.onPlatform, roundDirection_softfloatRound]
    exact apply_ite Prod.fst _ _ _
  constructor
  · intro insn a direction z ha hz hlow hhigh
    rw [hword, ← hz.unique (rounds_toInteger direction a), if_pos ⟨ha, hlow, hhigh⟩]
  · intro insn a direction z ha hz hplace
    rw [hword, ← hz.unique (rounds_toInteger direction a), if_neg fun h => hplace h.2]
  · intro insn a direction ha
    rw [hword, if_neg fun h => ha h.1]

/-- A library with the platform's conversions. -/
def SoftFloat.converting : SoftFloat :=
  { SoftFloat.integers with
    f32_to_i32 := fun a mode _ => SaturatingInsn.FCVT_W_S.onPlatform mode a
    f32_to_ui32 := fun a mode _ => SaturatingInsn.FCVT_WU_S.onPlatform mode a }

def convertingEnv : Env (List MemByte) := { queueEnv with softfloat := .converting }

theorem convertingEnv_onPlatform : ConvertsOnPlatform convertingEnv.softfloat := by
  apply ConvertsOnPlatform.of_onPlatform
  intro insn direction a
  cases insn with
  | FCVT_W_S => rfl
  | FCVT_WU_S => rfl

theorem SaturatingInsn.word_selects (insn : SaturatingInsn) (a : FRegister) :
    ((operandMachine insn.word a 0 0).sim.selectedRM ⟨insn.word⟩).direction? =
      some .nearestEven := by
  rw [operandMachine_selectedRM]
  cases insn with
  | FCVT_W_S => decide
  | FCVT_WU_S => decide

theorem SaturatingInsn.word_rd (insn : SaturatingInsn) :
    (RvInsn.mk insn.word).rdIndex ≠ XRegAlias.zero ∧ (RvInsn.mk insn.word).rs1Index = 1 := by
  cases insn with
  | FCVT_W_S => decide
  | FCVT_WU_S => decide

/-- Minus two and a half is converted to minus two. -/
theorem convertsSaturating_half :
    ConvertsSaturating convertingEnv .FCVT_W_S (SaturatingInsn.word .FCVT_W_S)
      (operandMachine (SaturatingInsn.word .FCVT_W_S) 0xc0200000 0 0) .nearestEven := by
  have hright : SaturatingInsn.FCVT_W_S.RightOn .nearestEven 0xc0200000 := by
    refine ⟨by decide, by decide, fun _ z hz => ?_⟩
    rw [hz.unique (rounds_toInteger .nearestEven 0xc0200000)]
    decide
  have hdecode : decode (SaturatingInsn.word .FCVT_W_S) =
      some SaturatingInsn.FCVT_W_S.rounding.mnem := decode_encode _ _
  refine (convertsSaturating_iff convertingEnv .FCVT_W_S convertingEnv_onPlatform
    (operandMachine_fetch _ _ _ _ _) hdecode
    (SaturatingInsn.FCVT_W_S.word_selects 0xc0200000)).mpr (.inr ?_)
  rw [SaturatingInsn.FCVT_W_S.word_rd.2, operandMachine_getFReg]
  exact hright

/-- What the conversion of an operand writes, and when it is right. -/
theorem convertingMachine_run (insn : SaturatingInsn) (a : FRegister) :
    (∃ m', (executeInsn convertingEnv).run (operandMachine insn.word a 0 0) = .ok () m' ∧
      m'.sim.getXReg (RvInsn.mk insn.word).rdIndex =
        (insn.onPlatform softfloat_round_near_even a).1) ∧
      (ConvertsSaturating convertingEnv insn insn.word (operandMachine insn.word a 0 0)
          .nearestEven ↔ insn.RightOn .nearestEven a) := by
  have hdecode : decode insn.word = some insn.rounding.mnem := decode_encode _ _
  have ha : (operandMachine insn.word a 0 0).sim.getFReg (RvInsn.mk insn.word).rs1Index = a := by
    rw [insn.word_rd.2, operandMachine_getFReg]
    rfl
  constructor
  · obtain ⟨m', hrun, hsim⟩ := insn.executeInsn_convert convertingEnv
      (operandMachine_fetch insn.word a 0 0 _) hdecode (insn.word_selects a)
    refine ⟨m', hrun, ?_⟩
    rw [hsim, ha, RVSim.getXReg_retire _ _ _ insn.word_rd.1]
    cases insn with
    | FCVT_W_S => rfl
    | FCVT_WU_S => rfl
  · rw [insn.convertsSaturating_iff_result convertingEnv (operandMachine_fetch insn.word a 0 0 _)
      hdecode (insn.word_selects a), or_iff_right insn.word_rd.1, ha,
      SaturatingInsn.converts_iff convertingEnv_onPlatform]

/-- The upper infinity goes to the lower end of the signed type, and minus one to the
upper end of the unsigned type. -/
theorem infinity_to_lowest_and_negative_to_highest :
    ConvertsOnPlatform convertingEnv.softfloat ∧
      Saturated (-2 ^ 31) (2 ^ 31 - 1) .nearestEven 0x7f800000 (2 ^ 31 - 1) ∧
      Saturated 0 (2 ^ 32 - 1) .nearestEven 0xbf800000 0 ∧
      ¬ ConvertsSaturating convertingEnv .FCVT_W_S (SaturatingInsn.word .FCVT_W_S)
        (operandMachine (SaturatingInsn.word .FCVT_W_S) 0x7f800000 0 0) .nearestEven ∧
      ¬ ConvertsSaturating convertingEnv .FCVT_WU_S (SaturatingInsn.word .FCVT_WU_S)
        (operandMachine (SaturatingInsn.word .FCVT_WU_S) 0xbf800000 0 0) .nearestEven ∧
      ∃ m₁ m₂,
        (executeInsn convertingEnv).run
          (operandMachine (SaturatingInsn.word .FCVT_W_S) 0x7f800000 0 0) = .ok () m₁ ∧
        (executeInsn convertingEnv).run
          (operandMachine (SaturatingInsn.word .FCVT_WU_S) 0xbf800000 0 0) = .ok () m₂ ∧
        m₁.sim.getXReg 5 = 0x80000000 ∧ m₂.sim.getXReg 5 = 0xffffffff := by
  obtain ⟨⟨m₁, hrun₁, hwritten₁⟩, hright₁⟩ := convertingMachine_run .FCVT_W_S 0x7f800000
  obtain ⟨⟨m₂, hrun₂, hwritten₂⟩, hright₂⟩ := convertingMachine_run .FCVT_WU_S 0xbf800000
  refine ⟨convertingEnv_onPlatform, (Saturated.infinite_iff (by decide)).mpr (by decide),
    (Saturated.finite_iff (by decide)).mpr (by decide), ?_, ?_, m₁, m₂, hrun₁, hrun₂,
    hwritten₁.trans (by decide), hwritten₂.trans (by decide)⟩
  · rw [hright₁]
    rintro ⟨-, hinfinite, -⟩
    exact hinfinite (by decide)
  · rw [hright₂]
    rintro ⟨-, hnonneg⟩
    have hrounded := hnonneg (by decide) _ (rounds_toInteger .nearestEven 0xbf800000)
    exact absurd hrounded (by decide)

end RiscvSim
