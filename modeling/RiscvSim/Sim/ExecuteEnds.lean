import RiscvSim.Sim.DecodeAccepts
import RiscvSim.Sim.MachineInvariant

/-!
How a call of `Execute` can end. Each outcome of the loop, cut off after some
iterations, is a statement about the run of its iterations; and the only
iteration that ends the loop in the regular way is the one of the exit call.
-/

namespace RiscvSim

open Outcomes Runs SimM

variable {H : Type} (env : Env H)

section Loop

variable {m : Machine H}

/-- The loop goes on while the object does not ask it to stop. -/
theorem execute_succ_run (hrunning : m.sim.shouldStop = false) (fuel : Nat) :
    (execute env (fuel + 1)).run m = (executeInsn env >>= fun _ => execute env fuel).run m := by
  simp [execute, hrunning]

theorem execute_zero_run (hrunning : m.sim.shouldStop = false) :
    (execute env 0).run m = .ok none m := by
  simp [execute, hrunning]

theorem execute_stopped_run (hstopped : m.sim.shouldStop = true) (fuel : Nat) :
    (execute env fuel).run m = .ok (some (m.sim.getXReg XRegAlias.a0)) m := by
  cases fuel with
  | zero =>
      rw [execute, EStateM.run_bind, run_getSim]
      simp only [hstopped, if_true]
      rfl
  | succ fuel =>
      rw [execute, EStateM.run_bind, run_getSim]
      simp only [hstopped, if_true]
      rfl

variable {env}

/-- The iterations of a run can be taken off the front of the loop. -/
theorem execute_of_leads {n : Nat} {last : Machine H} (hrun : Leads (Iterates env) n m last)
    (fuel : Nat) : (execute env (n + fuel)).run m = (execute env fuel).run last := by
  induction n generalizing m with
  | zero =>
      obtain rfl := leads_zero_iff.mp hrun
      rw [Nat.zero_add]
  | succ n ih =>
      obtain ⟨mid, ⟨hrunning, hstep⟩, hrest⟩ := leads_succ_iff.mp hrun
      rw [Nat.add_right_comm, execute_succ_run env hrunning, EStateM.run_bind, hstep]
      exact ih hrest

/-- No further iteration completes behind this state. -/
inductive Settled (env : Env H) (last : Machine H) : Nat → Prop
  | stopped (hstopped : last.sim.shouldStop = true) (fuel : Nat) : Settled env last fuel
  | cutOff (hrunning : last.sim.shouldStop = false) : Settled env last 0
  | fault (hrunning : last.sim.shouldStop = false) {fault : Fault} {m' : Machine H}
      (hfault : (executeInsn env).run last = .error fault m') (fuel : Nat) :
      Settled env last (fuel + 1)

theorem execute_settles (env : Env H) (fuel : Nat) (m : Machine H) :
    ∃ n k last, fuel = n + k ∧ Leads (Iterates env) n m last ∧ Settled env last k := by
  induction fuel generalizing m with
  | zero =>
      refine ⟨0, 0, m, rfl, leads_zero_iff.mpr rfl, ?_⟩
      cases hstop : m.sim.shouldStop with
      | true => exact .stopped hstop 0
      | false => exact .cutOff hstop
  | succ fuel ih =>
      cases hstop : m.sim.shouldStop with
      | true => exact ⟨0, fuel + 1, m, by omega, leads_zero_iff.mpr rfl, .stopped hstop _⟩
      | false =>
          cases hstep : (executeInsn env).run m with
          | error fault m' =>
              exact ⟨0, fuel + 1, m, by omega, leads_zero_iff.mpr rfl, .fault hstop hstep _⟩
          | ok _ mid =>
              obtain ⟨n, k, last, rfl, hrest, hsettled⟩ := ih mid
              refine ⟨n + 1, k, last, by omega, ?_, hsettled⟩
              exact leads_succ_iff.mpr ⟨mid, ⟨hstop, hstep⟩, hrest⟩

/-- A fault of the loop is the fault of an iteration. -/
theorem execute_error_iff {fuel : Nat} {fault : Fault} {m' : Machine H} :
    (execute env fuel).run m = .error fault m' ↔
      ∃ n last, n < fuel ∧ Leads (Iterates env) n m last ∧ last.sim.shouldStop = false ∧
        (executeInsn env).run last = .error fault m' := by
  constructor
  · intro h
    obtain ⟨n, k, last, rfl, hrun, hsettled⟩ := execute_settles env fuel m
    rw [execute_of_leads hrun] at h
    cases hsettled with
    | stopped hstopped k =>
        rw [execute_stopped_run env hstopped] at h
        cases h
    | cutOff hrunning =>
        rw [execute_zero_run env hrunning] at h
        cases h
    | fault hrunning hfault k =>
        rw [execute_succ_run env hrunning, EStateM.run_bind, hfault] at h
        cases h
        exact ⟨n, last, by omega, hrun, hrunning, hfault⟩
  · rintro ⟨n, last, hn, hrun, hrunning, hfault⟩
    obtain ⟨k, rfl⟩ := Nat.exists_eq_add_of_lt hn
    rw [Nat.add_assoc, execute_of_leads hrun, execute_succ_run env hrunning, EStateM.run_bind,
      hfault]

/-- The loop returns in the first state that asks it to stop. -/
theorem execute_returned_iff {fuel : Nat} {rc : IRegister} {m' : Machine H} :
    (execute env fuel).run m = .ok (some rc) m' ↔
      ∃ n, n ≤ fuel ∧ Leads (Iterates env) n m m' ∧ m'.sim.shouldStop = true ∧
        rc = m'.sim.getXReg XRegAlias.a0 := by
  constructor
  · intro h
    obtain ⟨n, k, last, rfl, hrun, hsettled⟩ := execute_settles env fuel m
    rw [execute_of_leads hrun] at h
    cases hsettled with
    | stopped hstopped k =>
        rw [execute_stopped_run env hstopped] at h
        cases h
        exact ⟨n, by omega, hrun, hstopped, rfl⟩
    | cutOff hrunning =>
        rw [execute_zero_run env hrunning] at h
        cases h
    | fault hrunning hfault k =>
        rw [execute_succ_run env hrunning, EStateM.run_bind, hfault] at h
        cases h
  · rintro ⟨n, hn, hrun, hstopped, rfl⟩
    obtain ⟨k, rfl⟩ := Nat.exists_eq_add_of_le hn
    rw [execute_of_leads hrun, execute_stopped_run env hstopped]

end Loop

section Exit

/-- The next instruction is the exit call. -/
def AtExit (env : Env H) (m : Machine H) : Prop := m.sim.AtEcall env.build 93

/-- What the exit call leaves: `a0` is not touched, and is the exit status. -/
def Machine.exited (m : Machine H) : Machine H :=
  m.mapSim fun sim => { sim with shouldStop := true }.step

variable {env}

theorem executeInsn_exit {m : Machine H} (hat : AtExit env m) :
    (executeInsn env).run m = .ok () m.exited := by
  have hexit : SyscallId.toEnum? (m.sim.getXReg XRegAlias.a7) = some .kExit := by
    rw [hat.2]
    decide
  rw [executeInsn_ecall env hat, callbackECALL, EStateM.run_bind]
  simp only [syscallHandler, EStateM.run_bind, run_getXReg, hexit, run_modifySim, run_step]
  rfl

theorem insnDecodeTable_ecall :
    ∀ entry ∈ insnDecodeTable, entry.mnem = .ECALL →
      entry.mask = 0xffffffff ∧ entry.matchBits = ecallWord := by decide

/-- No other word is an `ECALL`. -/
theorem eq_ecallWord_of_decode {word : UndecodedInsn} (h : decode word = some .ECALL) :
    word = ecallWord := by
  obtain ⟨entry, hentry, hmnem, hword⟩ := exists_entry_of_decode h
  obtain ⟨hmask, hbits⟩ := insnDecodeTable_ecall entry hentry hmnem
  rw [hmask, hbits] at hword
  have hall : word &&& 0xffffffff = word := BitVec.and_allOnes
  rwa [hall] at hword

/-- Of the system calls only the exit sets the flag. -/
theorem callbackECALL_stops (env : Env H) (word : UndecodedInsn) (m : Machine H) :
    Ends (callbackECALL env word) m fun _ m' =>
      m'.sim.shouldStop = m.sim.shouldStop ∨ m.sim.getXReg XRegAlias.a7 = 93 := by
  simp only [callbackECALL, syscallHandler, ends_bind, ends_getXReg]
  cases hid : SyscallId.toEnum? (m.sim.getXReg XRegAlias.a7) with
  | none => exact ends_lift.mpr fun _ _ => ends_step.mpr (.inl rfl)
  | some id =>
      cases id with
      | kExit =>
          refine ends_modifySim.mpr (ends_step.mpr (.inr ?_))
          unfold SyscallId.toEnum? at hid
          split at hid
          · cases hid
          · split at hid
            · cases hid
            · split at hid
              · assumption
              · cases hid
      | kRead =>
          simp only [ends_bind, ends_getXReg, ends_get, ends_modify]
          split
          · simp only [ends_bind, ends_getMem, ends_lift, ends_setMem, ends_setXReg, ends_step]
            intro memory _
            exact .inl (RVSim.setXReg_shouldStop _ _ _)
          · simp only [ends_setXReg, ends_step]
            exact .inl (RVSim.setXReg_shouldStop _ _ _)
      | kWrite =>
          simp only [ends_bind, ends_getXReg, ends_getMem, ends_lift, ends_get, ends_modify,
            ends_setXReg, ends_step]
          intro bytes _
          exact .inl (RVSim.setXReg_shouldStop _ _ _)

/-- An instruction that is no system call leaves the flag alone. -/
theorem Effect.shouldStop {insn : RvInsn} {sim sim' : RVSim} {kind : EffectKind}
    (h : Effect insn sim kind sim') (hkind : kind ≠ .syscall) :
    sim'.shouldStop = sim.shouldStop := by
  cases h with
  | xReg value => exact sim.setXReg_shouldStop _ value
  | flaggedX value raised => exact sim.setXReg_shouldStop _ value
  | csr hcsr value old => exact RVSim.setXReg_shouldStop _ _ old
  | unknownCsr hcsr => exact sim.setXReg_shouldStop _ 0
  | jal => exact sim.setXReg_shouldStop _ _
  | jalr target => exact RVSim.setXReg_shouldStop _ _ _
  | exit => exact absurd rfl hkind
  | unknownSyscall => exact absurd rfl hkind
  | transfer hlayout rc => exact absurd rfl hkind
  | _ => rfl

theorem Effect.layout {insn : RvInsn} {sim sim' : RVSim} {kind : EffectKind}
    (h : Effect insn sim kind sim') : sim'.memory.layout = sim.memory.layout := by
  cases h with
  | xReg value => exact congrArg Memory.layout (sim.setXReg_memory _ value)
  | flaggedX value raised => exact congrArg Memory.layout (sim.setXReg_memory _ value)
  | csr hcsr value old => exact congrArg Memory.layout (RVSim.setXReg_memory _ _ old)
  | unknownCsr hcsr => exact congrArg Memory.layout (sim.setXReg_memory _ 0)
  | jal => exact congrArg Memory.layout (sim.setXReg_memory _ _)
  | jalr target => exact congrArg Memory.layout (RVSim.setXReg_memory _ _ _)
  | store hkeeps => exact hkeeps.layout
  | unknownSyscall => rfl
  | transfer hlayout rc =>
      exact (congrArg Memory.layout (RVSim.setXReg_memory _ _ _)).trans hlayout
  | _ => rfl

theorem Iterates.layout {m m' : Machine H} (hstep : Iterates env m m') :
    m'.sim.memory.layout = m.sim.memory.layout := by
  obtain ⟨_, _, _, _, heffect⟩ := hstep.effect
  exact heffect.layout

/-- The flag is set by one iteration only. -/
theorem Iterates.atExit {m m' : Machine H} (hstep : Iterates env m m')
    (hstopped : m'.sim.shouldStop = true) : AtExit env m := by
  obtain ⟨word, mnem, hfetch, hdecode, heffect⟩ := hstep.effect
  by_cases hkind : mnem.effectKind = .syscall
  · have hmnem : mnem = .ECALL := by
      cases mnem <;> first | rfl | contradiction
    subst hmnem
    obtain rfl := eq_ecallWord_of_decode hdecode
    have hrun := hstep.2
    rw [executeInsn_run env hfetch hdecode] at hrun
    refine ⟨hfetch, (callbackECALL_stops env ecallWord m () m' hrun).resolve_left fun hsame => ?_⟩
    rw [hstopped, hstep.1] at hsame
    cases hsame
  · have hsame := heffect.shouldStop hkind
    rw [hstopped, hstep.1] at hsame
    cases hsame

/-- A run ends in a stopped state when its last iteration is the exit call. -/
theorem leads_stopped_iff {m m' : Machine H} (hrunning : m.sim.shouldStop = false) {n : Nat} :
    Leads (Iterates env) n m m' ∧ m'.sim.shouldStop = true ↔
      ∃ k last, n = k + 1 ∧ Leads (Iterates env) k m last ∧ last.sim.shouldStop = false ∧
        AtExit env last ∧ m' = last.exited := by
  constructor
  · rintro ⟨hrun, hstopped⟩
    cases n with
    | zero =>
        obtain rfl := leads_zero_iff.mp hrun
        rw [hrunning] at hstopped
        cases hstopped
    | succ n =>
        obtain ⟨last, hfront, hstep⟩ := leads_succ_last_iff.mp hrun
        have hat := hstep.atExit hstopped
        have hend := hstep.2.symm.trans (executeInsn_exit hat)
        cases hend
        exact ⟨n, last, rfl, hfront, hstep.1, hat, rfl⟩
  · rintro ⟨n, last, rfl, hfront, hlast, hat, rfl⟩
    exact ⟨leads_succ_last_iff.mpr ⟨last, hfront, hlast, executeInsn_exit hat⟩, rfl⟩

/-- `Execute` returns exactly when the run comes to an exit call, with the `a0`
of that state, and in the state behind that call. -/
theorem execute_returns_iff {m : Machine H} (hrunning : m.sim.shouldStop = false) {fuel : Nat}
    {rc : IRegister} {m' : Machine H} :
    (execute env fuel).run m = .ok (some rc) m' ↔
      ∃ n last, n < fuel ∧ Leads (Iterates env) n m last ∧ last.sim.shouldStop = false ∧
        AtExit env last ∧ rc = last.sim.getXReg XRegAlias.a0 ∧ m' = last.exited := by
  rw [execute_returned_iff]
  constructor
  · rintro ⟨n, hn, hrun, hstopped, rfl⟩
    obtain ⟨k, last, rfl, hfront, hlast, hat, rfl⟩ :=
      (leads_stopped_iff hrunning).mp ⟨hrun, hstopped⟩
    exact ⟨k, last, by omega, hfront, hlast, hat, rfl, rfl⟩
  · rintro ⟨n, last, hn, hfront, hlast, hat, rfl, rfl⟩
    obtain ⟨hrun, hstopped⟩ :=
      (leads_stopped_iff hrunning).mpr ⟨n, last, rfl, hfront, hlast, hat, rfl⟩
    exact ⟨n + 1, by omega, hrun, hstopped, rfl⟩

/-- One exit call with status 7. -/
def exitingMachine : Machine (List MemByte) where
  sim :=
    { memory := ⟨[⟨0x100, 0x104, [0x73, 0, 0, 0], true, false, true⟩]⟩
      ip := 0x100
      shouldStop := false
      xregs := Vector.ofFn fun i =>
        if i = XRegAlias.a0 then 7 else if i = XRegAlias.a7 then 93 else 0
      fregs := Vector.replicate 32 0
      fcsr := 0 }
  softfloat := ⟨0, 0⟩
  host := []

theorem execute_returns_status :
    (execute queueEnv 1).run exitingMachine = .ok (some 7) exitingMachine.exited :=
  (execute_returns_iff rfl).mpr
    ⟨0, exitingMachine, by decide, leads_zero_iff.mpr rfl, rfl, ⟨rfl, rfl⟩, rfl, rfl⟩

end Exit

end RiscvSim
