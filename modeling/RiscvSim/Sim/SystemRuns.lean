import RiscvSim.Sim.RunRefinement
import RiscvSim.Sim.SyscallTransfer
import RiscvSim.Spec.Assembly

/-!
The specified machine with its host. Beside the instructions it makes the two
calls that move bytes: the host gets the bytes of the buffer, or the buffer gets
those of the host. Every run of this system is a run of the interpreter loop.
-/

namespace RiscvSim

open ByteStore LittleEndian Runs
open Rv32imb (MakesCall)

variable {H : Type}

/-- The machine and the host that its calls are made to. -/
structure System (H : Type) where
  core : Rv32i.State
  host : H

namespace System

variable (s : System H)

/-- What the host's `read` returns for a call with the registers of this state. -/
def hostRead (io : HostIO H) :
    Int × Vector MemByte (s.core.reg Rv32imb.a2).toNat × H :=
  io.read s.host (s.core.reg Rv32imb.a0) (s.core.reg Rv32imb.a2).toNat (Vector.replicate _ 0)

/-- What the host's `write` returns when it is handed the bytes. -/
def hostWrite (io : HostIO H) (bytes : List MemByte) : Int × H :=
  io.write s.host (s.core.reg Rv32imb.a0) bytes

/-- The machine behind a call that returns the count. -/
def returned (rc : Int) (mem : Store 32) : Rv32i.State :=
  ({ s.core with mem }.setReg Rv32imb.a0 (BitVec.ofInt 32 rc)).next

end System

/-- A step of the system. A count that the host's `read` returns is within the
size that it was given, as its contract says. -/
inductive SystemStep (io : HostIO H) (s : System H) : System H → Prop
  | insn {next : Rv32i.State} (hstep : ExactStep s.core next) :
      SystemStep io s ⟨next, s.host⟩
  | write (hcall : MakesCall 64 s.core) {bytes : List MemByte}
      (hread : read s.core.mem (s.core.reg Rv32imb.a1) (s.core.reg Rv32imb.a2).toNat = some bytes) :
      SystemStep io s
        ⟨s.returned (s.hostWrite io bytes).1 s.core.mem, (s.hostWrite io bytes).2⟩
  | readFailed (hcall : MakesCall 63 s.core) (hrc : (s.hostRead io).1 < 0) :
      SystemStep io s
        ⟨s.returned (s.hostRead io).1 s.core.mem, (s.hostRead io).2.2⟩
  | read (hcall : MakesCall 63 s.core) (hrc : 0 ≤ (s.hostRead io).1)
      (hcount : (s.hostRead io).1 ≤ (s.core.reg Rv32imb.a2).toNat)
      (hroom : ∀ x, Covers (s.core.reg Rv32imb.a1) (s.hostRead io).1.toNat x →
        (s.core.mem x).isSome) :
      SystemStep io s
        ⟨s.returned (s.hostRead io).1
          (write s.core.mem (s.core.reg Rv32imb.a1)
            ((s.hostRead io).2.1.toList.take (s.hostRead io).1.toNat)),
          (s.hostRead io).2.2⟩

section Simulation

variable (env : Env H)

/-- The simulator stands for the state of the system, and what the system does
not have is as at the start of the run. -/
def Represents (start : Machine H) (s : System H) (m : Machine H) : Prop :=
  ∃ sim', m = { start with sim := sim', host := s.host } ∧ sim'.toSpec = s.core ∧
    start.sim.OthersKept sim'

theorem Represents.refl (m : Machine H) : Represents m ⟨m.sim.toSpec, m.host⟩ m :=
  ⟨m.sim, rfl, rfl, .refl⟩

variable {m : Machine H}

theorem atEcall_of_makesCall (hapart : m.sim.memory.Apart) {id : Register}
    (h : MakesCall id m.sim.toSpec) : m.sim.AtEcall env.build id :=
  ⟨fetch_of_read env.build hapart h.word, h.number⟩

/-- The simulator behind a call, in the terms of the specification. -/
theorem toSpec_afterSyscall (sim : RVSim) {memory : Memory} {mem : Store 32}
    (hmem : memory.byteAt = mem) (rc : Int) (host : H) :
    (sim.afterSyscall memory rc).toSpec = System.returned ⟨sim.toSpec, host⟩ rc mem := by
  rw [RVSim.afterSyscall, RVSim.toSpec_step, show XRegAlias.a0 = regIndex Rv32imb.a0 from rfl,
    RVSim.toSpec_setXReg, RVSim.toSpec_setMem sim hmem]
  rfl

theorem othersKept_afterSyscall (sim : RVSim) {memory : Memory}
    (hlayout : memory.layout = sim.memory.layout) (rc : Int) :
    sim.OthersKept (sim.afterSyscall memory rc) :=
  ((RVSim.OthersKept.setMem hlayout).setXReg _ _).setIp _

/-- One iteration of the loop follows one step of the system. -/
theorem executeInsn_system (hapart : m.sim.memory.Apart) {next : System H}
    (hstep : SystemStep env.hostIO ⟨m.sim.toSpec, m.host⟩ next) :
    ∃ sim', (executeInsn env).run m = .ok () { m with sim := sim', host := next.host } ∧
      sim'.toSpec = next.core ∧ m.sim.OthersKept sim' := by
  cases hstep with
  | insn hstep => exact executeInsn_follows env hapart hstep
  | write hcall hread =>
      rename_i bytes
      obtain ⟨hlength, hbytes⟩ := (read_eq_some_iff _ _ _ _).mp hread
      have hhas : m.sim.memory.HasBytes m.sim.guestBufPtr bytes := fun i hi =>
        (hbytes i (by omega)).trans (List.getElem?_eq_getElem hi)
      have hloads := hhas.loads env.build
      exact ⟨_, executeInsn_write env (atEcall_of_makesCall env hapart hcall) hlength hloads,
        toSpec_afterSyscall m.sim rfl _ m.host, othersKept_afterSyscall m.sim rfl _⟩
  | readFailed hcall hrc =>
      exact ⟨_, executeInsn_read_failed env (atEcall_of_makesCall env hapart hcall) rfl hrc,
        toSpec_afterSyscall m.sim rfl _ m.host, othersKept_afterSyscall m.sim rfl _⟩
  | read hcall hrc hcount hroom =>
      have hsize : m.sim.size < 2 ^ 32 := BitVec.isLt _
      have hless : (System.hostRead ⟨m.sim.toSpec, m.host⟩ env.hostIO).1 ≤ m.sim.size := hcount
      have hfront : m.sim.memory.Mapped m.sim.guestBufPtr
          (System.hostRead ⟨m.sim.toSpec, m.host⟩ env.hostIO).1.toNat := fun i hi =>
        hroom _ ((covers_iff (by omega)).mpr ⟨i, hi, rfl⟩)
      obtain ⟨memory, hwrite, hlayout, hrun⟩ :=
        executeInsn_read env (atEcall_of_makesCall env hapart hcall) rfl hfront hrc hcount
      exact ⟨_, hrun, toSpec_afterSyscall m.sim hwrite _ m.host,
        othersKept_afterSyscall m.sim hlayout _⟩

variable {env}

theorem Represents.iterates {start : Machine H} (hrunning : start.sim.shouldStop = false)
    (hapart : start.sim.memory.Apart) {s next : System H} {m : Machine H}
    (h : Represents start s m) (hstep : SystemStep env.hostIO s next) :
    ∃ m', Iterates env m m' ∧ Represents start next m' := by
  obtain ⟨core, host⟩ := s
  obtain ⟨sim, rfl, rfl, hkept⟩ := h
  obtain ⟨sim', hrun, hnext, hkept'⟩ := executeInsn_system (m := { start with sim, host }) env
    (hapart.of_layout hkept.layout) hstep
  exact ⟨_, ⟨hkept.shouldStop.trans hrunning, hrun⟩, sim', rfl, hnext, hkept.trans hkept'⟩

/-- Every run of the specified machine with its host, on operands on which the code
is exact, is a run of the interpreter loop. -/
theorem execute_follows (env : Env H) (hrunning : m.sim.shouldStop = false)
    (hapart : m.sim.memory.Apart) {trace : Nat → System H} {n : Nat}
    (hrun : IsRun (SystemStep env.hostIO) trace n) (hstart : trace 0 = ⟨m.sim.toSpec, m.host⟩) :
    ∃ sim', (execute env n).run m = .ok none { m with sim := sim', host := (trace n).host } ∧
      sim'.toSpec = (trace n).core ∧ m.sim.OthersKept sim' := by
  have hlead : Leads (SystemStep env.hostIO) n ⟨m.sim.toSpec, m.host⟩ (trace n) :=
    ⟨trace, hrun, hstart, rfl⟩
  obtain ⟨_, hlead', sim', rfl, hlast, hkept⟩ :=
    hlead.simulate (R := Represents m) (Represents.iterates hrunning hapart) (.refl m)
  exact ⟨sim', (execute_of_leads hlead' 0).trans
    (execute_zero_run env (hkept.shouldStop.trans hrunning)), hlast, hkept⟩

/-- The run of one store. -/
def storeBelowTrace : Nat → System (List MemByte) :=
  Runs.cons ⟨storingMachine.sim.toSpec, storingMachine.host⟩
    fun _ => ⟨afterStoreBelow, storingMachine.host⟩

theorem storeBelow_isRun : IsRun (SystemStep HostIO.queue) storeBelowTrace 1 :=
  isRun_zero.cons (.insn storingMachine_step)

theorem execute_follows_storeBelow :
    ∃ sim', (execute queueEnv 1).run storingMachine =
        .ok none { storingMachine with sim := sim' } ∧ sim'.toSpec = afterStoreBelow ∧
      storingMachine.sim.OthersKept sim' :=
  execute_follows queueEnv rfl (by decide) storeBelow_isRun rfl

end Simulation

end RiscvSim
