import RiscvSim.Lib.ErrorsIn
import RiscvSim.Sim.CsrWord
import RiscvSim.Sim.DecodeEncode
import RiscvSim.Sim.SyscallTransfer

/-!
What the release build does where the code asserts. An access outside every
segment, an unknown CSR and an unknown system call are guest faults; under
`NDEBUG` the assertions that catch them are gone, and the callbacks go on with
whatever stands behind the assertion.
-/

namespace RiscvSim

open ErrorsIn SimM

variable {H : Type}

/-- An error that the program raises itself, as against undefined behaviour. -/
def Fault.Reported : Fault → Prop
  | .assertion _ | .exception _ => True
  | .outOfBounds | .shiftAmount | .signedOverflow | .division => False

/-- No segment contains the address. -/
def Memory.NoSegment (mem : Memory) (addr : Address) : Prop :=
  ∀ segm ∈ mem.memory, isAddrInSegment addr segm = false

/-- The instruction of this word meets a condition that the code asserts
against. -/
inductive GuestFault (env : Env H) (m : Machine H) (insn : RvInsn) : InsnMnemonic → Prop
  | load (mnem : InsnMnemonic) (hmnem : mnem ∈ [.LB, .LH, .LW, .LBU, .LHU, .FLW])
      (haddr : m.sim.memory.NoSegment (m.sim.getXReg insn.rs1Index + insn.immI)) :
      GuestFault env m insn mnem
  | store (mnem : InsnMnemonic) (hmnem : mnem ∈ [.SB, .SH, .SW, .FSW])
      (haddr : m.sim.memory.NoSegment (m.sim.getXReg insn.rs1Index + insn.immS)) :
      GuestFault env m insn mnem
  | csr (mnem : InsnMnemonic)
      (hmnem : mnem ∈ [.CSRRW, .CSRRS, .CSRRC, .CSRRWI, .CSRRSI, .CSRRCI])
      (hcsr : insn.immCSR ≠ 1 ∧ insn.immCSR ≠ 2 ∧ insn.immCSR ≠ 3) : GuestFault env m insn mnem
  | syscall (hid : m.sim.getXReg XRegAlias.a7 ≠ 63 ∧ m.sim.getXReg XRegAlias.a7 ≠ 64 ∧
      m.sim.getXReg XRegAlias.a7 ≠ 93) : GuestFault env m insn .ECALL
  /-- A byte of the buffer that the host's bytes go to. -/
  | readBuffer (hid : m.sim.getXReg XRegAlias.a7 = 63) (i : Nat)
      (hi : (i : Int) < (m.hostRead env).1)
      (haddr : m.sim.memory.NoSegment (m.sim.guestBufPtr + BitVec.ofNat 32 i)) :
      GuestFault env m insn .ECALL
  /-- A byte of the buffer that the host is given. -/
  | writeBuffer (hid : m.sim.getXReg XRegAlias.a7 = 64) (i : Nat) (hi : i < m.sim.size)
      (haddr : m.sim.memory.NoSegment (m.sim.guestBufPtr + BitVec.ofNat 32 i)) :
      GuestFault env m insn .ECALL

/-- The iteration ends in a reported error, with the registers and the memory
as they were. -/
def FaultReported (env : Env H) (m : Machine H) : Prop :=
  ∃ fault m', (executeInsn env).run m = .error fault m' ∧ fault.Reported ∧
    m'.sim.xregs = m.sim.xregs ∧ m'.sim.fregs = m.sim.fregs ∧ m'.sim.memory = m.sim.memory

/-- The iteration ends at the next instruction. -/
def GoesOn (env : Env H) (m : Machine H) : Prop :=
  ∃ m', (executeInsn env).run m = .ok () m' ∧ m'.sim.ip = m.sim.ip + kStepSize

section Release

variable {m : Machine H}

theorem loadFrom_release {w : Nat} {mem : Memory} {addr : Address} (h : mem.NoSegment addr) :
    loadFrom .release w addr mem.memory = .ok 0 :=
  loadFrom_none .release w h

theorem storeTo_release {w : Nat} {mem : Memory} {addr : Address} (val : BitVec w)
    (h : mem.NoSegment addr) : storeTo .release addr val mem.memory = .ok mem.memory :=
  storeTo_none .release val h

theorem toEnum?_eq_none {index : Register} (h : index ≠ 1 ∧ index ≠ 2 ∧ index ≠ 3) :
    CSR.toEnum? index = none := by
  obtain ⟨hfflags, hfrm, hfcsr⟩ := h
  simp only [CSR.toEnum?, hfflags, hfrm, hfcsr, if_false]

section GoesOn

variable {env : Env H} {word : UndecodedInsn} {mnem : InsnMnemonic}
  (hfetch : m.sim.memory.fetch env.build m.sim.ip = .ok word)
  (hdecode : decode word = some mnem)

include hfetch hdecode

/-- A callback whose last action is the step. -/
theorem goesOn_of_run {f : RVSim → RVSim}
    (hrun : (getInsnCallback env mnem word).run m = .ok () (m.mapSim fun sim => (f sim).step))
    (hip : (f m.sim).ip = m.sim.ip) : GoesOn env m := by
  refine ⟨_, (executeInsn_run env hfetch hdecode).trans hrun, ?_⟩
  exact congrArg (· + kStepSize) hip

theorem goesOn_of_setXReg {rd : RegIndex} {value : Register}
    (hrun : (getInsnCallback env mnem word).run m =
      .ok () (m.mapSim fun sim => (sim.setXReg rd value).step)) : GoesOn env m :=
  goesOn_of_run hfetch hdecode hrun (RVSim.setXReg_ip _ _ _)

variable (hbuild : env.build = .release)

include hbuild

/-- A load returns zero. -/
theorem load_goes_on (hmnem : mnem ∈ [.LB, .LH, .LW, .LBU, .LHU, .FLW])
    (haddr : m.sim.memory.NoSegment
      (m.sim.getXReg (RvInsn.mk word).rs1Index + (RvInsn.mk word).immI)) : GoesOn env m := by
  have hload (w : Nat) : loadFrom env.build w
      (m.sim.getXReg (RvInsn.mk word).rs1Index + (RvInsn.mk word).immI) m.sim.memory.memory =
        .ok 0 := by
    rw [hbuild, loadFrom_release haddr]
  simp only [List.mem_cons, List.not_mem_nil, or_false] at hmnem
  rcases hmnem with rfl | rfl | rfl | rfl | rfl | rfl
  · apply goesOn_of_setXReg hfetch hdecode
    simp [getInsnCallback, callbackLB, Memory.loadU8, hload]
    rfl
  · apply goesOn_of_setXReg hfetch hdecode
    simp [getInsnCallback, callbackLH, Memory.loadU16, hload]
    rfl
  · apply goesOn_of_setXReg hfetch hdecode
    simp [getInsnCallback, callbackLW, Memory.loadU32, hload]
    rfl
  · apply goesOn_of_setXReg hfetch hdecode
    simp [getInsnCallback, callbackLBU, Memory.loadU8, hload]
    rfl
  · apply goesOn_of_setXReg hfetch hdecode
    simp [getInsnCallback, callbackLHU, Memory.loadU16, hload]
    rfl
  · apply goesOn_of_run hfetch hdecode (f := fun sim => sim.setFReg _ _)
    · simp [getInsnCallback, callbackFLW, Memory.loadU32, hload]
      rfl
    · rfl

/-- A store writes nothing. -/
theorem store_goes_on (hmnem : mnem ∈ [.SB, .SH, .SW, .FSW])
    (haddr : m.sim.memory.NoSegment
      (m.sim.getXReg (RvInsn.mk word).rs1Index + (RvInsn.mk word).immS)) : GoesOn env m := by
  have hstore {w : Nat} (val : BitVec w) : storeTo env.build
      (m.sim.getXReg (RvInsn.mk word).rs1Index + (RvInsn.mk word).immS) val
        m.sim.memory.memory = .ok m.sim.memory.memory := by
    rw [hbuild, storeTo_release val haddr]
  simp only [List.mem_cons, List.not_mem_nil, or_false] at hmnem
  rcases hmnem with rfl | rfl | rfl | rfl
  · apply goesOn_of_run hfetch hdecode (f := id)
    · simp [getInsnCallback, callbackSB, Memory.storeU8, hstore]
      rfl
    · rfl
  · apply goesOn_of_run hfetch hdecode (f := id)
    · simp [getInsnCallback, callbackSH, Memory.storeU16, hstore]
      rfl
    · rfl
  · apply goesOn_of_run hfetch hdecode (f := id)
    · simp [getInsnCallback, callbackSW, Memory.storeU32, hstore]
      rfl
    · rfl
  · apply goesOn_of_run hfetch hdecode (f := id)
    · simp [getInsnCallback, callbackFSW, Memory.storeU32, hstore]
      rfl
    · rfl

/-- A CSR instruction reads zero and writes nothing. -/
theorem csr_goes_on (hmnem : mnem ∈ [.CSRRW, .CSRRS, .CSRRC, .CSRRWI, .CSRRSI, .CSRRCI])
    (hcsr : (RvInsn.mk word).immCSR ≠ 1 ∧ (RvInsn.mk word).immCSR ≠ 2 ∧
      (RvInsn.mk word).immCSR ≠ 3) : GoesOn env m := by
  obtain ⟨operand, f, hcallback⟩ := getInsnCallback_zicsr env hmnem word
  apply goesOn_of_setXReg hfetch hdecode
  rw [hcallback, csrInsn_run_unknown operand f (toEnum?_eq_none hcsr), hbuild]

theorem syscall_goes_on (hmnem : mnem = .ECALL)
    (hid : m.sim.getXReg XRegAlias.a7 ≠ 63 ∧ m.sim.getXReg XRegAlias.a7 ≠ 64 ∧
      m.sim.getXReg XRegAlias.a7 ≠ 93) : GoesOn env m := by
  have hnone : SyscallId.toEnum? (m.sim.getXReg XRegAlias.a7) = none := by
    obtain ⟨hread, hwrite, hexit⟩ := hid
    simp only [SyscallId.toEnum?, hread, hwrite, hexit, if_false]
  subst hmnem
  apply goesOn_of_run hfetch hdecode (f := id)
  · simp [getInsnCallback, callbackECALL, syscallHandler, hnone, hbuild]
  · rfl

end GoesOn

/-! The byte loops of the system calls end in no error but the copy that leaves
the data of a segment. -/

theorem loadFrom_errors {w : Nat} (addr : Address) (segms : List MemorySegm) :
    OfExcept (· = .outOfBounds) (loadFrom .release w addr segms) := by
  induction segms with
  | nil => exact ofExcept_ok _
  | cons segm rest ih =>
      unfold loadFrom
      split
      · exact ih
      · apply (memcpyFrom_errors _ _ _).bind
        intro bytes
        exact ofExcept_ok _

theorem storeTo_errors {w : Nat} (addr : Address) (val : BitVec w) (segms : List MemorySegm) :
    OfExcept (· = .outOfBounds) (storeTo .release addr val segms) := by
  induction segms with
  | nil => exact ofExcept_ok _
  | cons segm rest ih =>
      unfold storeTo
      split
      · apply ih.bind
        intro rest'
        exact ofExcept_ok _
      · apply (memcpyTo_errors _ _ _).bind
        intro data
        exact ofExcept_ok _

theorem copyGuestToHost_errors (mem : Memory) (addr : Address) (size : Nat) :
    OfExcept (· = .outOfBounds) (mem.copyGuestToHost .release addr size) := by
  apply ofExcept_mapM
  intro i
  exact loadFrom_errors _ _

theorem copyHostToGuest_errors (mem : Memory) (addr : Address) (buf : List MemByte)
    (size : Nat) : OfExcept (· = .outOfBounds) (mem.copyHostToGuest .release addr buf size) := by
  apply ofExcept_foldlM
  intro mem i
  split
  · exact (storeTo_errors _ _ _).map _
  · exact ofExcept_error rfl

section Rules

variable {P : Fault → Prop}

theorem ofRun_lift {α : Type} {x : Except Fault α} (h : OfExcept P x) :
    OfRun P (liftM x : SimM H α) := by
  intro s fault s' hrun
  cases x with
  | ok a => cases hrun
  | error fault' =>
      cases hrun
      exact h fault rfl

theorem ofRun_getXReg (i : RegIndex) : OfRun P (getXReg i : SimM H Register) :=
  ofRun_of_ok fun m => ⟨_, _, run_getXReg m i⟩

theorem ofRun_setXReg (i : RegIndex) (value : Register) :
    OfRun P (setXReg i value : SimM H Unit) :=
  ofRun_of_ok fun m => ⟨_, _, run_setXReg m i value⟩

theorem ofRun_getMem : OfRun P (getMem : SimM H Memory) :=
  ofRun_of_ok fun m => ⟨_, _, run_getMem m⟩

theorem ofRun_setMem (memory : Memory) : OfRun P (setMem memory : SimM H Unit) :=
  ofRun_of_ok fun m => ⟨_, _, run_setMem m memory⟩

theorem ofRun_get : OfRun P (get : SimM H (Machine H)) := ofRun_of_ok fun _ => ⟨_, _, rfl⟩

theorem ofRun_modify (f : Machine H → Machine H) : OfRun P (modify f : SimM H Unit) :=
  ofRun_of_ok fun _ => ⟨_, _, rfl⟩

end Rules

/-- A system call ends in no error but undefined behaviour. -/
theorem syscallHandler_errors {env : Env H} (hbuild : env.build = .release) :
    OfRun (· = .outOfBounds) (syscallHandler env) := by
  unfold syscallHandler
  refine (ofRun_getXReg _).bind fun id => ?_
  cases SyscallId.toEnum? id with
  | none =>
      rw [hbuild]
      exact ofRun_lift (ofExcept_ok ())
  | some call =>
      cases call with
      | kExit => exact ofRun_modify _
      | kRead =>
          refine (ofRun_getXReg _).bind fun fd => (ofRun_getXReg _).bind fun ptr => ?_
          refine (ofRun_getXReg _).bind fun size => ofRun_get.bind fun m => ?_
          refine (ofRun_modify _).bind fun _ => ?_
          split
          · refine ofRun_getMem.bind fun mem => OfRun.bind ?_ fun memory => ?_
            · rw [hbuild]
              exact ofRun_lift (copyHostToGuest_errors _ _ _ _)
            · exact (ofRun_setMem memory).bind fun _ => ofRun_setXReg _ _
          · exact ofRun_setXReg _ _
      | kWrite =>
          refine (ofRun_getXReg _).bind fun fd => (ofRun_getXReg _).bind fun ptr => ?_
          refine (ofRun_getXReg _).bind fun size => ofRun_getMem.bind fun mem => ?_
          refine OfRun.bind ?_ fun buf => ofRun_get.bind fun m => ?_
          · rw [hbuild]
            exact ofRun_lift (copyGuestToHost_errors _ _ _)
          · exact (ofRun_modify _).bind fun _ => ofRun_setXReg _ _

theorem callbackECALL_errors {env : Env H} (hbuild : env.build = .release)
    (word : UndecodedInsn) : OfRun (· = .outOfBounds) (callbackECALL env word) :=
  (syscallHandler_errors hbuild).bind fun _ => ofRun_modify _

end Release

theorem GoesOn.not_reported {env : Env H} {m : Machine H} (h : GoesOn env m) :
    ¬ FaultReported env m := by
  rintro ⟨fault, m', herror, -⟩
  obtain ⟨m'', hok, -⟩ := h
  rw [hok] at herror
  cases herror

/-- In the release build no guest fault is reported. -/
theorem release_fault_not_reported (env : Env H) (hbuild : env.build = .release) {m : Machine H}
    {word : UndecodedInsn} {mnem : InsnMnemonic}
    (hfetch : m.sim.memory.fetch env.build m.sim.ip = .ok word)
    (hdecode : decode word = some mnem) (hfault : GuestFault env m ⟨word⟩ mnem) :
    ¬ FaultReported env m := by
  have hecall (hmnem : decode word = some .ECALL) : ¬ FaultReported env m := by
    rintro ⟨fault, m', herror, hreported, -⟩
    rw [executeInsn_run env hfetch hmnem] at herror
    obtain rfl := callbackECALL_errors hbuild word m fault m' herror
    exact hreported
  cases hfault with
  | load mnem hmnem haddr => exact (load_goes_on hfetch hdecode hbuild hmnem haddr).not_reported
  | store mnem hmnem haddr => exact (store_goes_on hfetch hdecode hbuild hmnem haddr).not_reported
  | csr mnem hmnem hcsr => exact (csr_goes_on hfetch hdecode hbuild hmnem hcsr).not_reported
  | syscall hid => exact (syscall_goes_on hfetch hdecode hbuild rfl hid).not_reported
  | readBuffer hid i hi haddr => exact hecall hdecode
  | writeBuffer hid i hi haddr => exact hecall hdecode

/-- `lw x1, 16(x2)`. -/
def loadWord : UndecodedInsn := InsnMnemonic.LW.encode ⟨1, 2, 0, 0, 0, 0, 0, 16⟩

/-- About to load from address 16, far below the only segment. -/
def loadingMachine : Machine (List MemByte) where
  sim :=
    { memory := ⟨[⟨0x1000, 0x1004, LittleEndian.toBytes 4 loadWord, true, false, true⟩]⟩
      ip := 0x1000
      shouldStop := false
      xregs := Vector.ofFn fun i => if i.val = 1 then 0xff else 0
      fregs := Vector.replicate 32 0
      fcsr := 0 }
  softfloat := ⟨0, 0⟩
  host := []

theorem loadingMachine_fetch :
    loadingMachine.sim.memory.fetch queueEnv.build loadingMachine.sim.ip = .ok loadWord := by
  decide

theorem loadingMachine_fault : GuestFault queueEnv loadingMachine ⟨loadWord⟩ .LW := by
  apply GuestFault.load
  · decide
  · unfold Memory.NoSegment
    decide

theorem release_fault_not_reported_load : ¬ FaultReported queueEnv loadingMachine :=
  release_fault_not_reported queueEnv rfl loadingMachine_fetch (decode_encode _ _)
    loadingMachine_fault

/-- The load from no segment puts a zero into the register and goes on. -/
theorem load_outside_goes_on :
    GuestFault queueEnv loadingMachine ⟨loadWord⟩ .LW ∧
      (∃ m', (executeInsn queueEnv).run loadingMachine = .ok () m' ∧ m'.sim.ip = 0x1004 ∧
        loadingMachine.sim.getXReg 1 = 0xff ∧ m'.sim.getXReg 1 = 0) ∧
      ¬ FaultReported queueEnv loadingMachine := by
  have hrun : (executeInsn queueEnv).run loadingMachine =
      .ok () (loadingMachine.mapSim fun sim => (sim.setXReg 1 0).step) := by
    rw [executeInsn_run queueEnv loadingMachine_fetch (decode_encode .LW _)]
    rfl
  have hgoes : GoesOn queueEnv loadingMachine := ⟨_, hrun, rfl⟩
  exact ⟨loadingMachine_fault, ⟨_, hrun, rfl, rfl, rfl⟩, hgoes.not_reported⟩

end RiscvSim
