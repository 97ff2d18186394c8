import RiscvSim.Isa.Defs

/-!
The integer helpers. A shift whose amount is only known at run time is checked:
shifting by the width of the left operand or more is undefined in the host
language and is a fault here.
-/

namespace RiscvSim

/-- `a << b` on an unsigned type of `w` bits. -/
def shiftLeft {w : Nat} (a : BitVec w) (b : Nat) : Except Fault (BitVec w) :=
  if b < w then .ok (a <<< b) else .error .shiftAmount

/-- `a >> b` on an unsigned type of `w` bits. -/
def shiftRight {w : Nat} (a : BitVec w) (b : Nat) : Except Fault (BitVec w) :=
  if b < w then .ok (a >>> b) else .error .shiftAmount

theorem shiftLeft_ok {w b : Nat} (a : BitVec w) (h : b < w) :
    shiftLeft a b = .ok (a <<< b) := if_pos h

theorem shiftRight_ok {w b : Nat} (a : BitVec w) (h : b < w) :
    shiftRight a b = .ok (a >>> b) := if_pos h

/-- The product of two `int64_t` values, undefined when it does not fit. -/
def mulWI (a b : WIRegister) : Except Fault WIRegister :=
  let product := a.toInt * b.toInt
  if -2 ^ 63 ≤ product ∧ product < 2 ^ 63 then .ok (BitVec.ofInt 64 product)
  else .error .signedOverflow

/-- `a / b` and `a % b` on `int32_t`: undefined for a zero divisor and where the
quotient does not fit. -/
def divI (a b : IRegister) : Except Fault IRegister :=
  if b = 0 ∨ (a = BitVec.intMin 32 ∧ b = -1) then .error .division else .ok (a.sdiv b)

def modI (a b : IRegister) : Except Fault IRegister :=
  if b = 0 ∨ (a = BitVec.intMin 32 ∧ b = -1) then .error .division else .ok (a.srem b)

def divU (a b : Register) : Except Fault Register :=
  if b = 0 then .error .division else .ok (a / b)

def modU (a b : Register) : Except Fault Register :=
  if b = 0 then .error .division else .ok (a % b)

def regToIReg (val : Register) : IRegister := val
def iRegToReg (val : IRegister) : Register := val
def wRegToWIReg (val : WRegister) : WIRegister := val
def regToFReg (val : Register) : FRegister := val
def fRegToReg (val : FRegister) : Register := val

def isBitSet {w : Nat} (build : Build) (val : BitVec w) (index : Nat) : Except Fault Bool := do
  build.assert (index < w) "index < sizeof(T) * CHAR_BIT"
  let oneHot ← shiftLeft 1 index
  return (val &&& oneHot) == oneHot

/-- Keeps the low bits; the source's name is about the high ones it drops. -/
def truncHigh {fromBits : Nat} (toBits : Nat) (x : BitVec fromBits) : BitVec toBits :=
  (x &&& (BitVec.allOnes toBits).setWidth fromBits).setWidth toBits

/-- Keeps the high bits. -/
def truncLow {fromBits : Nat} (toBits : Nat) (x : BitVec fromBits) : BitVec toBits :=
  ((x >>> (fromBits - toBits)) &&& (BitVec.allOnes toBits).setWidth fromBits).setWidth toBits

def getByte {w : Nat} (build : Build) (val : BitVec w) (index : Nat) : Except Fault (BitVec 8) := do
  build.assert (index < w / 8) "index < sizeof(T)"
  let shifted ← shiftRight val (index * 8)
  return truncHigh 8 shifted

/-- The masks are built in `int`, the promoted type of `uint8_t`: `~uint8_t{0}`
is minus one, and a shift by 32 or more is out of range for every `T`. The
`int` masks convert to `T` by sign extension. -/
def setByte {w : Nat} (build : Build) (val : BitVec w) (byteVal : BitVec 8) (index : Nat) :
    Except Fault (BitVec w) := do
  build.assert (index < w / 8) "index < sizeof(T)"
  let shift := index * 8
  let ones ← shiftLeft (~~~(0 : BitVec 32)) shift
  let clearByteMask := ~~~ones
  let byteMask ← shiftLeft (byteVal.setWidth 32) shift
  return (val &&& clearByteMask.signExtend w) ||| byteMask.signExtend w

/-- Widens by copies of the sign bit, as the masks of the source do. -/
def signExt {fromBits : Nat} (toBits : Nat) (x : BitVec fromBits) : BitVec toBits :=
  let one : BitVec toBits := 1
  let valueMask := (one <<< fromBits) - one
  let signBit := one <<< (fromBits - 1)
  let extendMask := ~~~valueMask
  let v := x.setWidth toBits &&& valueMask
  if v &&& signBit ≠ 0 then v ||| extendMask else v

end RiscvSim
