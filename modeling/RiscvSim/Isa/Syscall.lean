import RiscvSim.Sim.RVSim

/-!
The system call handler. The call number and its arguments are registers; the
result of the host call goes to `a0`, cut to 32 bits. Log messages are left out.
-/

namespace RiscvSim

open SimM

inductive SyscallId where
  | kRead
  | kWrite
  | kExit
  deriving DecidableEq, Repr

/-- The `switch` over the call number; `none` is its `default` label. -/
def SyscallId.toEnum? (value : Register) : Option SyscallId :=
  if value = 63 then some .kRead
  else if value = 64 then some .kWrite
  else if value = 93 then some .kExit
  else none

variable {H : Type}

def syscallHandler (env : Env H) : SimM H Unit := do
  let syscallId ← getXReg XRegAlias.a7
  match SyscallId.toEnum? syscallId with
  | some .kExit => modifySim ({ · with shouldStop := true })
  | some .kRead =>
      let fd ← getXReg XRegAlias.a0
      let guestBufPtr ← getXReg XRegAlias.a1
      let size ← getXReg XRegAlias.a2
      let buf := Vector.replicate size.toNat (0 : MemByte)
      let (rc, buf, host) := env.hostIO.read (← get).host fd size.toNat buf
      modify ({ · with host })
      if rc ≥ 0 then
        setMem (← (← getMem).copyHostToGuest env.build guestBufPtr buf.toList rc.toNat)
      setXReg XRegAlias.a0 (BitVec.ofInt 32 rc)
  | some .kWrite =>
      let fd ← getXReg XRegAlias.a0
      let guestBufPtr ← getXReg XRegAlias.a1
      let size ← getXReg XRegAlias.a2
      let buf ← (← getMem).copyGuestToHost env.build guestBufPtr size.toNat
      let (wc, host) := env.hostIO.write (← get).host fd buf
      modify ({ · with host })
      setXReg XRegAlias.a0 (BitVec.ofInt 32 wc)
  | none => env.build.assert false "unknown syscall id"

end RiscvSim
