import RiscvSim.Lib.Runs
import RiscvSim.Sim.FreshSegments
import RiscvSim.Sim.StepEffects

/-!
What holds in every state that the interpreter loop comes to, from the state
that the constructor builds on. One lemma for each part of the invariant says
that every effect keeps it; the loop is then a run of such effects.
-/

namespace RiscvSim

open Outcomes Runs SimM

variable {H : Type}

section Loop

/-- The loop goes from one fetch to the next. -/
def Iterates (env : Env H) (m m' : Machine H) : Prop :=
  m.sim.shouldStop = false ∧ (executeInsn env).run m = .ok () m'

theorem Iterates.effect {env : Env H} {m m' : Machine H} (h : Iterates env m m') :
    ∃ word mnem, m.sim.memory.fetch env.build m.sim.ip = .ok word ∧ decode word = some mnem ∧
      Effect ⟨word⟩ m.sim mnem.effectKind m'.sim :=
  executeInsn_effect h.2

/-- Where a call of `Execute` ends is the last state of a run of at most `fuel`
steps. -/
theorem execute_ends (env : Env H) (fuel : Nat) (m : Machine H) :
    Ends (execute env fuel) m fun _ m' =>
      ∃ trace n, n ≤ fuel ∧ IsRun (Iterates env) trace n ∧ trace 0 = m ∧ trace n = m' := by
  induction fuel generalizing m with
  | zero =>
      have hnone : ∃ trace n, n ≤ 0 ∧ IsRun (Iterates env) trace n ∧ trace 0 = m ∧ trace n = m :=
        ⟨fun _ => m, 0, Nat.le_refl 0, isRun_zero, rfl, rfl⟩
      rw [execute, ends_bind, ends_getSim]
      split
      · exact ends_bind.mpr (ends_getXReg.mpr (ends_pure.mpr hnone))
      · exact ends_pure.mpr hnone
  | succ fuel ih =>
      rw [execute, ends_bind, ends_getSim]
      split
      · refine ends_bind.mpr (ends_getXReg.mpr (ends_pure.mpr ?_))
        exact ⟨fun _ => m, 0, Nat.zero_le _, isRun_zero, rfl, rfl⟩
      · rename_i hrunning
        rw [ends_bind]
        intro _ mid hstep rc m' hrest
        obtain ⟨trace, n, hn, hrun, rfl, hlast⟩ := ih mid rc m' hrest
        refine ⟨cons m trace, n + 1, by omega, hrun.cons ⟨?_, hstep⟩, rfl, hlast⟩
        simpa using hrunning

end Loop

/-- The parity of a word is its lowest bit. -/
theorem even_iff (x : BitVec 32) : x.toNat % 2 = 0 ↔ x.getLsbD 0 = false := by
  rw [← BitVec.testBit_toNat, Nat.testBit_zero]
  simp

theorem even_add {x y : BitVec 32} (hx : x.toNat % 2 = 0) (hy : y.toNat % 2 = 0) :
    (x + y).toNat % 2 = 0 := by
  rw [BitVec.toNat_add]
  omega

theorem RvInsn.immB_even (insn : RvInsn) : insn.immB.toNat % 2 = 0 := by
  rw [even_iff, immB_eq, BitVec.getLsbD_signExtend, BitVec.getLsbD_append]
  rfl

theorem RvInsn.immJ_even (insn : RvInsn) : insn.immJ.toNat % 2 = 0 := by
  rw [even_iff, immJ_eq, BitVec.getLsbD_signExtend, BitVec.getLsbD_append]
  rfl

theorem clear_low_even (target : Address) : (target &&& ~~~1).toNat % 2 = 0 := by
  rw [even_iff, BitVec.getLsbD_and, BitVec.getLsbD_not]
  simp

/-- What holds of every state that is reached from `start`. -/
structure RVSim.Consistent (start sim : RVSim) : Prop where
  zero : sim.xregs[XRegAlias.zero] = 0
  fcsr : sim.fcsr.toNat < 256
  even : sim.ip.toNat % 2 = 0
  layout : sim.memory.layout = start.memory.layout

namespace RVSim.Consistent

variable {start sim : RVSim}

theorem setXReg (h : start.Consistent sim) (i : RegIndex) (value : Register) :
    start.Consistent (sim.setXReg i value) := by
  refine ⟨?_, ?_, ?_, ?_⟩
  · unfold RVSim.setXReg
    split
    · exact h.zero
    · rename_i hi
      have hne : i.val ≠ XRegAlias.zero.val := fun heq => hi (Fin.ext heq)
      exact (Vector.getElem_set_ne i.isLt XRegAlias.zero.isLt hne).trans h.zero
  · rw [setXReg_fcsr]
    exact h.fcsr
  · rw [setXReg_ip]
    exact h.even
  · rw [setXReg_memory]
    exact h.layout

theorem setIp (h : start.Consistent sim) {ip : Address} (heven : ip.toNat % 2 = 0) :
    start.Consistent { sim with ip } := ⟨h.zero, h.fcsr, heven, h.layout⟩

theorem step (h : start.Consistent sim) : start.Consistent sim.step :=
  h.setIp (even_add h.even rfl)

theorem setFcsr (h : start.Consistent sim) {fcsr : Register} (hfcsr : fcsr.toNat < 256) :
    start.Consistent { sim with fcsr } := ⟨h.zero, hfcsr, h.even, h.layout⟩

theorem setMem (h : start.Consistent sim) {memory : Memory}
    (hlayout : memory.layout = sim.memory.layout) : start.Consistent { sim with memory } :=
  ⟨h.zero, h.fcsr, h.even, hlayout.trans h.layout⟩

theorem setFReg (h : start.Consistent sim) (i : RegIndex) (value : FRegister) :
    start.Consistent (sim.setFReg i value) := ⟨h.zero, h.fcsr, h.even, h.layout⟩

theorem raise (h : start.Consistent sim) (raised : BitVec 8) :
    start.Consistent (sim.raise raised) := by
  apply h.setFcsr
  have hfcsr := h.fcsr
  rw [fcsr_lt_iff] at hfcsr ⊢
  intro i hi
  have hhigh : ¬ i < 5 := by omega
  have hbit := sim.getLsbD_raise raised i
  rw [hfcsr i hi, decide_eq_false hhigh] at hbit
  exact hbit

/-- Every effect keeps the invariant. -/
theorem effect (h : start.Consistent sim) {insn : RvInsn} {kind : EffectKind} {sim' : RVSim}
    (heffect : Effect insn sim kind sim') : start.Consistent sim' := by
  cases heffect with
  | xReg value => exact (h.setXReg _ _).step
  | fReg value => exact (h.setFReg _ _).step
  | flaggedX value raised => exact ((h.setXReg _ _).raise raised).step
  | flaggedF value raised => exact ((h.setFReg _ _).raise raised).step
  | csr hcsr value old => exact ((h.setFcsr (replaceCSR_lt value _ h.fcsr)).setXReg _ _).step
  | unknownCsr hcsr => exact (h.setXReg _ _).step
  | store hkeeps => exact (h.setMem hkeeps.layout).step
  | branch => exact h.setIp (even_add h.even insn.immB_even)
  | fallThrough => exact h.step
  | jal => exact (h.setXReg _ _).setIp (even_add h.even insn.immJ_even)
  | jalr target => exact (h.setIp (clear_low_even target)).setXReg _ _
  | nothing => exact h.step
  | exit => exact (show start.Consistent { sim with shouldStop := true } from
      ⟨h.zero, h.fcsr, h.even, h.layout⟩).step
  | unknownSyscall => exact h.step
  | transfer hlayout rc => exact ((h.setMem hlayout).setXReg _ _).step

end RVSim.Consistent

/-- Whenever the constructor completes, the registers are these. -/
theorem RVSim.construct_registers {parsedElf : ParsedElf} {progArgs : ProgramArgs} {sim : RVSim}
    (h : RVSim.construct parsedElf progArgs = .ok sim) :
    sim.ip = parsedElf.entryPoint ∧ sim.fcsr = 0 ∧
      ∃ argvFillStart, sim.xregs = initialXRegs parsedElf.globalPtr argvFillStart := by
  obtain ⟨_, _, hstack⟩ := bind_eq_ok.mp h
  obtain ⟨_, _, hpointers⟩ := bind_eq_ok.mp hstack
  obtain ⟨_, _, hnull⟩ := bind_eq_ok.mp hpointers
  obtain ⟨_, _, hpure⟩ := bind_eq_ok.mp hnull
  cases hpure
  exact ⟨rfl, rfl, _, rfl⟩

theorem RVSim.construct_consistent {parsedElf : ParsedElf} {progArgs : ProgramArgs} {sim : RVSim}
    (h : RVSim.construct parsedElf progArgs = .ok sim)
    (heven : parsedElf.entryPoint.toNat % 2 = 0) : sim.Consistent sim := by
  obtain ⟨hip, hfcsr, argvFillStart, hxregs⟩ := RVSim.construct_registers h
  refine ⟨?_, ?_, ?_, rfl⟩
  · rw [hxregs]
    rfl
  · rw [hfcsr]
    decide
  · rw [hip]
    exact heven

/-- In every state that a run of `Execute` comes to, register zero is zero, the
status word has eight bits, the instruction pointer is even and the segment
table is the initial one. -/
theorem execute_consistent (env : Env H) {parsedElf : ParsedElf} {progArgs : ProgramArgs}
    {sim : RVSim} (hconstruct : RVSim.construct parsedElf progArgs = .ok sim)
    (heven : parsedElf.entryPoint.toNat % 2 = 0) (softfloat : SoftFloatState) (host : H)
    (fuel : Nat) {rc : Option IRegister} {m : Machine H}
    (hrun : (execute env fuel).run ⟨sim, softfloat, host⟩ = .ok rc m) :
    m.sim.xregs[XRegAlias.zero] = 0 ∧ m.sim.fcsr.toNat < 256 ∧ m.sim.ip.toNat % 2 = 0 ∧
      m.sim.memory.layout = sim.memory.layout := by
  obtain ⟨trace, n, _, hsteps, hfirst, rfl⟩ := execute_ends env fuel _ rc m hrun
  have hstart : sim.Consistent (trace 0).sim := by
    rw [hfirst]
    exact RVSim.construct_consistent hconstruct heven
  have hinvariant : sim.Consistent (trace n).sim := by
    refine hsteps.invariant (P := fun m => sim.Consistent m.sim) hstart ?_ n (Nat.le_refl n)
    intro m m' hstep h
    obtain ⟨word, mnem, _, _, heffect⟩ := hstep.effect
    exact h.effect heffect
  exact ⟨hinvariant.zero, hinvariant.fcsr, hinvariant.even, hinvariant.layout⟩

/-- A fresh machine whose program is one `ECALL` with no known number. -/
def freshMachine : Machine (List MemByte) := ⟨RVSim.initial smallElf twoArgs, ⟨0, 0⟩, []⟩

theorem freshMachine_runs :
    (execute queueEnv 1).run freshMachine = .ok none (freshMachine.mapSim RVSim.step) := rfl

theorem execute_consistent_ecall :
    let m := freshMachine.mapSim RVSim.step
    m.sim.xregs[XRegAlias.zero] = 0 ∧ m.sim.fcsr.toNat < 256 ∧ m.sim.ip.toNat % 2 = 0 ∧
      m.sim.memory.layout = (RVSim.initial smallElf twoArgs).memory.layout :=
  execute_consistent queueEnv
    (RVSim.construct_eq smallElf (by decide : twoArgs.FitsStack) (by decide)) rfl ⟨0, 0⟩ [] 1
    freshMachine_runs

end RiscvSim
