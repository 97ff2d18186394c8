import RiscvSim.Lib.LittleEndian

/-!
The types and constants of the instruction set layer, and what can end a host
computation other than a value. Signed host integers are kept as their two's
complement patterns: the conversions between `int32_t` and `uint32_t` are then
the identity, and only the comparisons and divisions say how a pattern is read.
-/

namespace RiscvSim

abbrev MemByte := LittleEndian.Byte

abbrev Register := BitVec 32
abbrev IRegister := BitVec 32
abbrev WRegister := BitVec 64
abbrev WIRegister := BitVec 64
/-- `float32_t` is a struct around its 32-bit pattern. -/
abbrev FRegister := BitVec 32

abbrev Address := BitVec 32
abbrev UndecodedInsn := BitVec 32

def kXlenByte : Nat := 4
def kXlen : Nat := kXlenByte * 8

/-- `sizeof(UndecodedInsn)`, added to the 32-bit instruction pointer. -/
def kStepSize : Address := 4

def kStackSize : Nat := 1 <<< 20
def kStackTop : Address := (1 : Address) <<< 30
def kStackBase : Address := kStackTop - BitVec.ofNat 32 kStackSize

/-- `sizeof(Register)` above the top of the stack. -/
def kArgvBase : Address := kStackTop + 4

/-- The registers the code names; the index type is the array's bound. -/
abbrev RegIndex := Fin 32

namespace XRegAlias

def zero : RegIndex := 0
def sp : RegIndex := 2
def gp : RegIndex := 3
def a0 : RegIndex := 10
def a1 : RegIndex := 11
def a2 : RegIndex := 12
def a7 : RegIndex := 17

end XRegAlias

/-- The enumerators of the rounding mode. The code casts any register value to
this type, so a value without a name is possible. -/
inductive RoundingMode where
  | RNE
  | RTZ
  | RDN
  | RUP
  | RMM
  | DYN
  | unnamed (value : Register)
  deriving DecidableEq, Repr

def RoundingMode.toEnum (value : Register) : RoundingMode :=
  if value = 0 then .RNE
  else if value = 1 then .RTZ
  else if value = 2 then .RDN
  else if value = 3 then .RUP
  else if value = 4 then .RMM
  else if value = 7 then .DYN
  else .unnamed value

inductive CSR where
  | fflags
  | frm
  | fcsr
  deriving DecidableEq, Repr

/-- The `switch` over a CSR number; `none` is its `default` label. -/
def CSR.toEnum? (index : Register) : Option CSR :=
  if index = 1 then some .fflags
  else if index = 2 then some .frm
  else if index = 3 then some .fcsr
  else none

def CSR.fromEnum : CSR → Register
  | .fflags => 1
  | .frm => 2
  | .fcsr => 3

/-- The two configurations of the build: `Release` defines `NDEBUG`. -/
inductive Build where
  | debug
  | release
  deriving DecidableEq, Repr

/-- Why a host computation has no value. The last four are undefined
behaviour of the host language: nothing is promised from there on. -/
inductive Fault where
  | assertion (text : String)
  | exception (text : String)
  | outOfBounds
  | shiftAmount
  | signedOverflow
  | division
  deriving DecidableEq, Repr

theorem ok_bind {α β : Type} (a : α) (f : α → Except Fault β) : (Except.ok a >>= f) = f a := rfl

theorem bind_eq_ok {α β : Type} {x : Except Fault α} {f : α → Except Fault β} {b : β} :
    (x >>= f) = .ok b ↔ ∃ a, x = .ok a ∧ f a = .ok b := by
  cases x <;> simp [bind, Except.bind]

/-- `assert` stops a debug build and is no code at all under `NDEBUG`. -/
def Build.assert (build : Build) (condition : Bool) (text : String) : Except Fault Unit :=
  match build with
  | .debug => if condition then .ok () else .error (.assertion text)
  | .release => .ok ()

@[simp] theorem Build.assert_true (build : Build) (text : String) :
    build.assert true text = .ok () := by
  cases build <;> rfl

@[simp] theorem Build.assert_release (condition : Bool) (text : String) :
    Build.release.assert condition text = .ok () := rfl

end RiscvSim
