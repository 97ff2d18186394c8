import RiscvSim.Isa.Defs

/-!
The floating-point library is not part of the repository and is a parameter.
An operation is a function of its operands and of the rounding mode it runs
under, and returns the exceptions it raises beside its value: it reads no
other state of the library, and adds its exceptions to the library's flag word.
-/

namespace RiscvSim

structure SoftFloat where
  f32_add : BitVec 8 → FRegister → FRegister → FRegister × BitVec 8
  f32_sub : BitVec 8 → FRegister → FRegister → FRegister × BitVec 8
  f32_mul : BitVec 8 → FRegister → FRegister → FRegister × BitVec 8
  f32_div : BitVec 8 → FRegister → FRegister → FRegister × BitVec 8
  f32_sqrt : BitVec 8 → FRegister → FRegister × BitVec 8
  f32_mulAdd : BitVec 8 → FRegister → FRegister → FRegister → FRegister × BitVec 8
  f32_le : FRegister → FRegister → Bool × BitVec 8
  f32_lt : FRegister → FRegister → Bool × BitVec 8
  f32_eq : FRegister → FRegister → Bool × BitVec 8
  /-- The two conversions to integers take the mode as an argument. -/
  f32_to_i32 : FRegister → BitVec 8 → Bool → IRegister × BitVec 8
  f32_to_ui32 : FRegister → BitVec 8 → Bool → Register × BitVec 8
  i32_to_f32 : BitVec 8 → IRegister → FRegister × BitVec 8
  ui32_to_f32 : BitVec 8 → Register → FRegister × BitVec 8
  f32_isSignalingNaN : FRegister → Bool

/-- The two globals of the library that the callbacks write. -/
structure SoftFloatState where
  roundingMode : BitVec 8
  exceptionFlags : BitVec 8
  deriving DecidableEq, Repr

def softfloat_round_near_even : BitVec 8 := 0
def softfloat_round_minMag : BitVec 8 := 1
def softfloat_round_min : BitVec 8 := 2
def softfloat_round_max : BitVec 8 := 3
def softfloat_round_near_maxMag : BitVec 8 := 4

/-- The IEEE rounding of a signed integer to a binary32 pattern in one of the five
modes, and whether it was inexact. A carry out of the significand goes into the
exponent field above it. -/
def roundInteger (mode : BitVec 8) (value : Int) : FRegister × BitVec 8 :=
  let magnitude := value.natAbs
  let sign := if value < 0 then 2 ^ 31 else 0
  let exponent := magnitude.log2
  if magnitude = 0 then (0, 0)
  else if exponent ≤ 23 then
    (BitVec.ofNat 32 (sign + (exponent + 126) * 2 ^ 23 + magnitude * 2 ^ (23 - exponent)), 0)
  else
    let quotient := magnitude / 2 ^ (exponent - 23)
    let rest := magnitude % 2 ^ (exponent - 23)
    let half := 2 ^ (exponent - 24)
    let roundUp : Bool :=
      if mode = softfloat_round_near_even then
        rest > half || (rest = half && quotient % 2 = 1)
      else if mode = softfloat_round_near_maxMag then rest ≥ half
      else if mode = softfloat_round_min then value < 0 && rest ≠ 0
      else if mode = softfloat_round_max then value > 0 && rest ≠ 0
      else false
    (BitVec.ofNat 32 (sign + (exponent + 126) * 2 ^ 23 + quotient + roundUp.toNat),
      if rest = 0 then 0 else 1)

/-- A library with the conversions from integers; every other operation of it
returns the default NaN pattern or `false`. -/
def SoftFloat.integers : SoftFloat where
  f32_add _ _ _ := (0x7fc00000, 0)
  f32_sub _ _ _ := (0x7fc00000, 0)
  f32_mul _ _ _ := (0x7fc00000, 0)
  f32_div _ _ _ := (0x7fc00000, 0)
  f32_sqrt _ _ := (0x7fc00000, 0)
  f32_mulAdd _ _ _ _ := (0x7fc00000, 0)
  f32_le _ _ := (false, 0)
  f32_lt _ _ := (false, 0)
  f32_eq _ _ := (false, 0)
  f32_to_i32 _ _ _ := (0x7fffffff, 0)
  f32_to_ui32 _ _ _ := (0xffffffff, 0)
  i32_to_f32 mode value := roundInteger mode value.toInt
  ui32_to_f32 mode value := roundInteger mode value.toNat
  f32_isSignalingNaN _ := false

example : roundInteger softfloat_round_near_even (2 ^ 24 + 1) = (0x4b800000, 1) := by decide
example : roundInteger softfloat_round_max (2 ^ 24 + 1) = (0x4b800001, 1) := by decide

/-- What the C library says of an IEEE binary32 value. -/
inductive FpClass where
  | infinite
  | nan
  | normal
  | subnormal
  | zero
  deriving DecidableEq, Repr

def fpclassify (val : FRegister) : FpClass :=
  let exponent := val.extractLsb' 23 8
  let fraction := val.extractLsb' 0 23
  if exponent = BitVec.allOnes 8 then
    if fraction = 0 then .infinite else .nan
  else if exponent = 0 then
    if fraction = 0 then .zero else .subnormal
  else .normal

def signbit (val : FRegister) : Bool := val.msb

end RiscvSim
