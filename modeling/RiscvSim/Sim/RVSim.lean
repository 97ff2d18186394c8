import RiscvSim.Sim.Memory
import RiscvSim.Isa.SoftFloat

/-!
The simulator object and the machine around it: the object's own fields, the
globals of the floating-point library and the host on the other side of the
system calls. A callback is a computation over that machine which may end in a
fault; the machine at the fault is kept.
-/

namespace RiscvSim

structure RVSim where
  memory : Memory
  ip : Address
  shouldStop : Bool
  xregs : Vector Register 32
  fregs : Vector FRegister 32
  fcsr : Register
  deriving DecidableEq, Repr

namespace RVSim

variable (sim : RVSim)

def setXReg (index : RegIndex) (value : Register) : RVSim :=
  if index = XRegAlias.zero then sim
  else { sim with xregs := sim.xregs.set index value }

def getXReg (index : RegIndex) : Register :=
  if index = XRegAlias.zero then 0 else sim.xregs[index]

def setFReg (index : RegIndex) (value : FRegister) : RVSim :=
  { sim with fregs := sim.fregs.set index value }

def getFReg (index : RegIndex) : FRegister := sim.fregs[index]

def setCSR (build : Build) (index : Register) (value : Register) : Except Fault RVSim :=
  match CSR.toEnum? index with
  | some .fflags => .ok { sim with fcsr := (sim.fcsr &&& ~~~0x1f) ||| (value &&& 0x1f) }
  | some .frm =>
      .ok { sim with fcsr := (sim.fcsr &&& ~~~((0x7 : Register) <<< 5)) ||| ((value &&& 0x7) <<< 5) }
  | some .fcsr => .ok { sim with fcsr := value &&& 0xff }
  | none => do
      build.assert false "unknown csr"
      return sim

def getCSR (build : Build) (index : Register) : Except Fault Register :=
  match CSR.toEnum? index with
  | some .fflags => .ok (sim.fcsr &&& 0x1f)
  | some .frm => .ok ((sim.fcsr >>> 5) &&& 0x7)
  | some .fcsr => .ok (sim.fcsr &&& 0xff)
  | none => do
      build.assert false "unknown csr"
      return 0

def getRM (build : Build) (rm : Register) : Except Fault RoundingMode := do
  if RoundingMode.toEnum rm = .DYN then
    return RoundingMode.toEnum (← sim.getCSR build CSR.frm.fromEnum)
  else
    return RoundingMode.toEnum rm

def step : RVSim := { sim with ip := sim.ip + kStepSize }

@[simp] theorem getXReg_zero : sim.getXReg XRegAlias.zero = 0 := if_pos rfl

/-- A register file behind a write. -/
theorem getElem_set_reg {α : Type} (regs : Vector α 32) (i j : RegIndex) (value : α) :
    (regs.set i value)[j] = if j = i then value else regs[j] := by
  by_cases hij : j = i
  · subst hij
    simp
  · have hval : i.val ≠ j.val := fun h => hij (Fin.ext h.symm)
    rw [if_neg hij]
    simp [hval]

theorem getXReg_setXReg (i j : RegIndex) (value : Register) :
    (sim.setXReg i value).getXReg j =
      if j = XRegAlias.zero then 0 else if j = i then value else sim.getXReg j := by
  unfold setXReg getXReg
  by_cases hj : j = XRegAlias.zero
  · simp [hj]
  · rw [if_neg hj, if_neg hj, if_neg hj]
    by_cases hi : i = XRegAlias.zero
    · have hne : j ≠ i := fun h => hj (h.trans hi)
      rw [if_pos hi, if_neg hne]
    · rw [if_neg hi]
      exact getElem_set_reg sim.xregs i j value

/-- Behind the step the target holds what was written, unless it is `x0`. -/
theorem getXReg_step_setXReg (i : RegIndex) (value : Register) :
    (sim.setXReg i value).step.getXReg i = if i = XRegAlias.zero then 0 else value := by
  have hread := sim.getXReg_setXReg i i value
  rwa [if_pos (rfl : i = i)] at hread

theorem getFReg_setFReg (i j : RegIndex) (value : FRegister) :
    (sim.setFReg i value).getFReg j = if j = i then value else sim.getFReg j :=
  getElem_set_reg sim.fregs i j value

@[simp] theorem setXReg_memory (i : RegIndex) (value : Register) :
    (sim.setXReg i value).memory = sim.memory := by
  unfold setXReg
  split <;> rfl

@[simp] theorem setXReg_ip (i : RegIndex) (value : Register) :
    (sim.setXReg i value).ip = sim.ip := by
  unfold setXReg
  split <;> rfl

@[simp] theorem setXReg_shouldStop (i : RegIndex) (value : Register) :
    (sim.setXReg i value).shouldStop = sim.shouldStop := by
  unfold setXReg
  split <;> rfl

@[simp] theorem setXReg_fregs (i : RegIndex) (value : Register) :
    (sim.setXReg i value).fregs = sim.fregs := by
  unfold setXReg
  split <;> rfl

@[simp] theorem setXReg_fcsr (i : RegIndex) (value : Register) :
    (sim.setXReg i value).fcsr = sim.fcsr := by
  unfold setXReg
  split <;> rfl

@[simp] theorem step_ip : sim.step.ip = sim.ip + kStepSize := rfl
@[simp] theorem step_memory : sim.step.memory = sim.memory := rfl
@[simp] theorem step_shouldStop : sim.step.shouldStop = sim.shouldStop := rfl
@[simp] theorem step_xregs : sim.step.xregs = sim.xregs := rfl
@[simp] theorem step_fregs : sim.step.fregs = sim.fregs := rfl
@[simp] theorem step_fcsr : sim.step.fcsr = sim.fcsr := rfl
@[simp] theorem getXReg_step (i : RegIndex) : sim.step.getXReg i = sim.getXReg i := rfl
@[simp] theorem getFReg_step (i : RegIndex) : sim.step.getFReg i = sim.getFReg i := rfl

end RVSim

structure Machine (H : Type) where
  sim : RVSim
  softfloat : SoftFloatState
  host : H

/-- The two calls into the operating system. `read` fills a buffer of the size
it is given and may leave any part of it alone; both return a signed count. -/
structure HostIO (H : Type) where
  read : H → IRegister → (size : Nat) → Vector MemByte size → Int × Vector MemByte size × H
  write : H → IRegister → List MemByte → Int × H

/-- A host whose descriptors are all one queue of bytes. -/
def HostIO.queue : HostIO (List MemByte) where
  read pending _ size buf :=
    let count := min size pending.length
    (count, Vector.ofFn fun i => if i < count then pending.getD i 0 else buf[i],
      pending.drop count)
  write pending _ bytes := (bytes.length, pending ++ bytes)

/-- What the program is built with and linked against. -/
structure Env (H : Type) where
  build : Build
  softfloat : SoftFloat
  hostIO : HostIO H

def queueEnv : Env (List MemByte) := ⟨.release, SoftFloat.integers, HostIO.queue⟩

abbrev SimM (H : Type) := EStateM Fault (Machine H)

variable {H : Type}

instance : MonadLift (Except Fault) (SimM H) where
  monadLift
    | .ok value => pure value
    | .error fault => throw fault

@[simp] theorem run_lift_ok {α : Type} (value : α) (m : Machine H) :
    (liftM (.ok value : Except Fault α) : SimM H α).run m = .ok value m := rfl

@[simp] theorem run_lift_error {α : Type} (fault : Fault) (m : Machine H) :
    (liftM (.error fault : Except Fault α) : SimM H α).run m = .error fault m := rfl

/-- Changes the simulator object only. -/
def Machine.mapSim (m : Machine H) (f : RVSim → RVSim) : Machine H :=
  { m with sim := f m.sim }

namespace SimM

def getSim : SimM H RVSim := return (← get).sim
def modifySim (f : RVSim → RVSim) : SimM H Unit := modify (·.mapSim f)

def getXReg (index : RegIndex) : SimM H Register := return (← getSim).getXReg index
def setXReg (index : RegIndex) (value : Register) : SimM H Unit :=
  modifySim (·.setXReg index value)
def getFReg (index : RegIndex) : SimM H FRegister := return (← getSim).getFReg index
def setFReg (index : RegIndex) (value : FRegister) : SimM H Unit :=
  modifySim (·.setFReg index value)

def getIp : SimM H Address := return (← getSim).ip
def setIp (ip : Address) : SimM H Unit := modifySim ({ · with ip })
def step : SimM H Unit := modifySim RVSim.step

def getMem : SimM H Memory := return (← getSim).memory
def setMem (memory : Memory) : SimM H Unit := modifySim ({ · with memory })

def getCSR (build : Build) (index : Register) : SimM H Register := do
  (← getSim).getCSR build index

def setCSR (build : Build) (index value : Register) : SimM H Unit := do
  let sim ← (← getSim).setCSR build index value
  modifySim fun _ => sim

variable (m : Machine H)

@[simp] theorem run_getSim : (getSim : SimM H RVSim).run m = .ok m.sim m := rfl
@[simp] theorem run_modifySim (f : RVSim → RVSim) :
    (modifySim f : SimM H Unit).run m = .ok () (m.mapSim f) := rfl
@[simp] theorem run_getXReg (i : RegIndex) :
    (getXReg i : SimM H Register).run m = .ok (m.sim.getXReg i) m := rfl
@[simp] theorem run_setXReg (i : RegIndex) (value : Register) :
    (setXReg i value : SimM H Unit).run m = .ok () (m.mapSim (·.setXReg i value)) := rfl
@[simp] theorem run_getFReg (i : RegIndex) :
    (getFReg i : SimM H FRegister).run m = .ok (m.sim.getFReg i) m := rfl
@[simp] theorem run_setFReg (i : RegIndex) (value : FRegister) :
    (setFReg i value : SimM H Unit).run m = .ok () (m.mapSim (·.setFReg i value)) := rfl
@[simp] theorem run_getIp : (getIp : SimM H Address).run m = .ok m.sim.ip m := rfl
@[simp] theorem run_setIp (ip : Address) :
    (setIp ip : SimM H Unit).run m = .ok () (m.mapSim ({ · with ip })) := rfl
@[simp] theorem run_step : (step : SimM H Unit).run m = .ok () (m.mapSim RVSim.step) := rfl
@[simp] theorem run_getMem : (getMem : SimM H Memory).run m = .ok m.sim.memory m := rfl
@[simp] theorem run_setMem (memory : Memory) :
    (setMem memory : SimM H Unit).run m = .ok () (m.mapSim ({ · with memory })) := rfl

end SimM

@[simp] theorem Machine.mapSim_sim (m : Machine H) (f : RVSim → RVSim) :
    (m.mapSim f).sim = f m.sim := rfl

@[simp] theorem Machine.mapSim_mapSim (m : Machine H) (f g : RVSim → RVSim) :
    (m.mapSim f).mapSim g = m.mapSim fun sim => g (f sim) := rfl

@[simp] theorem Machine.mapSim_softfloat (m : Machine H) (f : RVSim → RVSim) :
    (m.mapSim f).softfloat = m.softfloat := rfl

@[simp] theorem Machine.mapSim_host (m : Machine H) (f : RVSim → RVSim) :
    (m.mapSim f).host = m.host := rfl

end RiscvSim
