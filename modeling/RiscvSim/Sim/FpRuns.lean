import RiscvSim.Sim.CsrViews
import RiscvSim.Sim.FpStep
import RiscvSim.Sim.SystemRuns

/-!
The specified machine with its host and its floating-point registers. Its steps
are those of the integer machine, the instructions on the status and those of the
single-precision extension, the last on operands on which the code does as the
standard says. Every run of it is a run of the interpreter loop.
-/

namespace RiscvSim

open ByteStore LittleEndian Runs SimM

variable {H : Type}

structure FpSystem (H : Type) where
  machine : Rv32f.State
  host : H

namespace FpSystem

/-- The part that the integer instructions and the calls are about. -/
def integer (s : FpSystem H) : System H := ⟨s.machine.core, s.host⟩

def withInteger (s : FpSystem H) (next : System H) : FpSystem H :=
  ⟨{ s.machine with core := next.core }, next.host⟩

end FpSystem

inductive FpSystemStep (io : HostIO H) (s : FpSystem H) : FpSystem H → Prop
  | integer {next : System H} (hstep : SystemStep io s.integer next) :
      FpSystemStep io s (s.withInteger next)
  | csr {insn : FpCsr.Insn}
      (hword : read s.machine.core.mem s.machine.core.pc 4 = some (toBytes 4 insn.word)) :
      FpSystemStep io s ⟨s.machine.execCsr insn, s.host⟩
  | fp {insn : Rv32f.Insn} {next : Rv32f.State} (hfetches : Rv32f.Fetches s.machine insn)
      (hexact : FpExactIn s.machine insn) (hexec : insn.exec s.machine = some next) :
      FpSystemStep io s ⟨next, s.host⟩

/-- The machine stands for the state of the system, and the loop goes on as it did at
the start. -/
structure FpRepresents (start : Machine H) (s : FpSystem H) (m : Machine H) : Prop where
  state : m.sim.toFp = s.machine
  host : m.host = s.host
  loop : start.sim.LoopKept m.sim
  mode : m.HasMode

section Simulation

variable {env : Env H} {m : Machine H}

theorem FpRepresents.refl (hmode : m.HasMode) : FpRepresents m ⟨m.sim.toFp, m.host⟩ m :=
  ⟨rfl, rfl, .refl, hmode⟩

/-- What the integer machine leaves alone is the rest of the state. -/
theorem RVSim.OthersKept.toFp_eq {sim sim' : RVSim} (h : sim.OthersKept sim') :
    sim'.toFp = { sim.toFp with core := sim'.toSpec } := by
  apply Rv32f.State.ext
  · rfl
  · funext r
    change sim'.fregs[regIndex r] = sim.fregs[regIndex r]
    rw [h.fregs]
  · exact congrArg fpStatus h.fcsr

theorem toFp_afterCsr (sim : RVSim) (insn : FpCsr.Insn) :
    let old := (fpStatus sim.fcsr).read insn.view
    let value := insn.op.apply old (sim.toFpCsr.operand insn.source)
    (sim.afterCsr (replaceCSR sim.fcsr value insn.view) (regIndex insn.rd) old).toFp =
      sim.toFp.execCsr insn := by
  intro old value
  have hcsr := sim.toFpCsr_afterCsr (replaceCSR sim.fcsr value insn.view) insn.rd old
  rw [fpStatus_replaceCSR] at hcsr
  have hframe := sim.csrFrame_afterCsr (replaceCSR sim.fcsr value insn.view) (regIndex insn.rd) old
  apply Rv32f.State.ext
  · exact congrArg FpCsr.State.base hcsr
  · funext r
    change (sim.afterCsr _ _ _).fregs[regIndex r] = sim.fregs[regIndex r]
    rw [hframe.fregs]
  · exact congrArg FpCsr.State.status hcsr

theorem loopKept_afterCsr (sim : RVSim) (fcsr : Register) (rd : RegIndex) (old : Register) :
    sim.LoopKept (sim.afterCsr fcsr rd old) := by
  have hframe := sim.csrFrame_afterCsr fcsr rd old
  exact ⟨hframe.shouldStop, congrArg Memory.layout hframe.memory⟩

/-- One iteration of the loop follows one step of the system. -/
theorem executeInsn_fpSystem (hlib : FollowsStandard env.softfloat) (hmode : m.HasMode)
    (hapart : m.sim.memory.Apart) {next : FpSystem H}
    (hstep : FpSystemStep env.hostIO ⟨m.sim.toFp, m.host⟩ next) :
    ∃ m', (executeInsn env).run m = .ok () m' ∧ FpRepresents m next m' := by
  cases hstep with
  | integer hstep =>
      obtain ⟨sim', hrun, hcore, hkept⟩ := executeInsn_system env hapart hstep
      refine ⟨_, hrun, ?_, rfl, hkept.loopKept, hmode⟩
      rw [hkept.toFp_eq, hcore]
      rfl
  | csr hword =>
      rename_i insn
      have hfetch := fetch_of_read env.build hapart hword
      have hrun := (executeInsn_run env hfetch (decode_encode insn.mnem insn.operands)).trans
        (csr_callback_run env m insn)
      exact ⟨_, hrun, toFp_afterCsr m.sim insn, rfl, loopKept_afterCsr _ _ _ _, hmode⟩
  | fp hfetches hexact hexec =>
      rename_i insn after
      have hfetch := fetch_of_read env.build hapart hfetches.word
      obtain ⟨m', hrun, hnext⟩ := carriesFp hmode hlib hapart hfetches.legal hexact hexec
      exact ⟨m', (executeInsn_run env hfetch (decode_encode insn.mnem insn.operands)).trans hrun,
        hnext.state, hnext.host, hnext.loop, hnext.mode⟩

theorem FpRepresents.iterates {start : Machine H} (hlib : FollowsStandard env.softfloat)
    (hrunning : start.sim.shouldStop = false) (hapart : start.sim.memory.Apart)
    {s next : FpSystem H} (h : FpRepresents start s m) (hstep : FpSystemStep env.hostIO s next) :
    ∃ m', Iterates env m m' ∧ FpRepresents start next m' := by
  obtain ⟨machine, host⟩ := s
  obtain ⟨rfl, rfl, hkept, hmode⟩ := h
  obtain ⟨m', hrun, hnext⟩ :=
    executeInsn_fpSystem hlib hmode (hapart.of_layout hkept.layout) hstep
  exact ⟨m', ⟨hkept.shouldStop.trans hrunning, hrun⟩, hnext.state, hnext.host,
    hkept.trans hnext.loop, hnext.mode⟩

/-- A run of the system leads the loop along. -/
theorem leads_of_fpSystem (hlib : FollowsStandard env.softfloat)
    (hrunning : m.sim.shouldStop = false) (hapart : m.sim.memory.Apart) (hmode : m.HasMode)
    {n : Nat} {last : FpSystem H}
    (hlead : Leads (FpSystemStep env.hostIO) n ⟨m.sim.toFp, m.host⟩ last) :
    ∃ m', Leads (Iterates env) n m m' ∧ FpRepresents m last m' :=
  hlead.simulate (R := fun s m' => FpRepresents m s m')
    (FpRepresents.iterates hlib hrunning hapart) (.refl hmode)

/-- Every run of the whole machine with its host, on operands on which the code is
exact, is a run of the interpreter loop. -/
theorem execute_follows_fp (env : Env H) (hlib : FollowsStandard env.softfloat)
    (hrunning : m.sim.shouldStop = false) (hapart : m.sim.memory.Apart) (hmode : m.HasMode)
    {trace : Nat → FpSystem H} {n : Nat} (hrun : IsRun (FpSystemStep env.hostIO) trace n)
    (hstart : trace 0 = ⟨m.sim.toFp, m.host⟩) :
    ∃ m', (execute env n).run m = .ok none m' ∧ FpRepresents m (trace n) m' := by
  have hlead : Leads (FpSystemStep env.hostIO) n ⟨m.sim.toFp, m.host⟩ (trace n) :=
    ⟨trace, hrun, hstart, rfl⟩
  obtain ⟨m', hlead', hlast⟩ := leads_of_fpSystem hlib hrunning hapart hmode hlead
  exact ⟨m', (execute_of_leads hlead' 0).trans
    (execute_zero_run env (hlast.loop.shouldStop.trans hrunning)), hlast⟩

end Simulation

section Sum

def standardEnv : Env (List MemByte) := { queueEnv with softfloat := .standard }

/-- About to add one and two. -/
def addingMachine : Machine (List MemByte) := operandMachine addWord 0x3f800000 0x40000000 0

/-- `fadd.s f3, f1, f2, rne`. -/
def addOnce : Rv32f.Insn := .arith .FADD 0 3 1 2

/-- The sum is three, and no exception is raised. -/
def afterAddOnce : Rv32f.State := ((addingMachine.sim.toFp.setFReg 3 0x40400000).raise 0).next

def addOnceTrace : Nat → FpSystem (List MemByte) :=
  Runs.cons ⟨addingMachine.sim.toFp, addingMachine.host⟩ fun _ => ⟨afterAddOnce, addingMachine.host⟩

theorem addOnce_exec : addOnce.exec addingMachine.sim.toFp = some afterAddOnce := by
  have hsum : Binary32.add .nearestEven 0x3f800000 0x40000000 = some (0x40400000, 0) := by decide
  have hone : addingMachine.sim.toFp.freg 1 = 0x3f800000 := by decide
  have htwo : addingMachine.sim.toFp.freg 2 = 0x40000000 := by decide
  have hdirection : addingMachine.sim.toFp.direction 0 = some .nearestEven := by decide
  simp only [addOnce, Rv32f.Insn.exec, Rv32f.ArithOp.eval, hdirection, hone, htwo, hsum,
    Option.bind_eq_bind, Option.bind_some]
  rfl

theorem addOnce_isRun : IsRun (FpSystemStep HostIO.queue) addOnceTrace 1 := by
  have hfetches : Rv32f.Fetches addingMachine.sim.toFp addOnce := ⟨trivial, by decide⟩
  exact isRun_zero.cons (.fp hfetches trivial addOnce_exec)

/-- The loop adds one and two. -/
theorem execute_follows_fp_addOnce :
    ∃ m', (execute standardEnv 1).run addingMachine = .ok none m' ∧
      FpRepresents addingMachine (addOnceTrace 1) m' :=
  execute_follows_fp standardEnv SoftFloat.standard_follows rfl (by decide)
    ⟨.nearestEven, rfl⟩ addOnce_isRun rfl

end Sum

end RiscvSim
