import RiscvSim.Lib.TotalCorrectness
import RiscvSim.Sim.MainProgram
import RiscvSim.Sim.SystemRuns

/-!
What is proved about a program on the specified machine with its host holds of
the command that runs it: if the machine comes to the exit call, the command
returns the status of that call, and as long as the machine runs on, the command
does not return.
-/

namespace RiscvSim

open ByteStore LittleEndian Runs TotalCorrectness
open Rv32imb (ExitsWith)

variable {H : Type} {env : Env H}

section Loop

variable {m : Machine H} (hrunning : m.sim.shouldStop = false) (hapart : m.sim.memory.Apart)
  {n : Nat} {s : System H}

include hrunning hapart

/-- A run of the system up to the exit call is one of the loop. -/
theorem leads_exit (hlead : Leads (SystemStep env.hostIO) n ⟨m.sim.toSpec, m.host⟩ s)
    {status : Register} (hexit : ExitsWith status s.core) :
    ∃ last, Leads (Iterates env) n m last ∧ last.sim.shouldStop = false ∧ AtExit env last ∧
      last.sim.getXReg XRegAlias.a0 = status ∧ last.host = s.host := by
  obtain ⟨core, host⟩ := s
  obtain ⟨_, hlead', sim', rfl, rfl, hkept⟩ :=
    hlead.simulate (R := Represents m) (Represents.iterates hrunning hapart) (.refl m)
  have hat : AtExit env { m with sim := sim', host } :=
    atEcall_of_makesCall env (hapart.of_layout hkept.layout) hexit.toMakesCall
  exact ⟨_, hlead', hkept.shouldStop.trans hrunning, hat, hexit.status, rfl⟩

/-- What the system comes to, the loop comes to. -/
theorem reaches_iterates {P : System H → Prop}
    (h : Reaches (SystemStep env.hostIO) P ⟨m.sim.toSpec, m.host⟩) :
    Reaches (Iterates env) (fun m' => ∃ s, P s ∧ Represents m s m') m := by
  obtain ⟨n, s, hlead, hend⟩ := h
  obtain ⟨m', hlead', hrepresents⟩ :=
    hlead.simulate (R := Represents m) (Represents.iterates hrunning hapart) (.refl m)
  exact ⟨n, m', hlead', s, hend, hrepresents⟩

/-- A run of the system that long cuts the loop off. -/
theorem execute_cutOff (hlead : Leads (SystemStep env.hostIO) n ⟨m.sim.toSpec, m.host⟩ s) :
    ∃ m', (execute env n).run m = .ok none m' := by
  obtain ⟨core, host⟩ := s
  obtain ⟨_, hlead', sim', rfl, rfl, hkept⟩ :=
    hlead.simulate (R := Represents m) (Represents.iterates hrunning hapart) (.refl m)
  exact ⟨_, (execute_of_leads hlead' 0).trans
    (execute_zero_run env (hkept.shouldStop.trans hrunning))⟩

end Loop

variable {readElf : List MemByte → Option Elf} {softfloat : SoftFloatState}
  {argv : List (List MemByte)} {elf : Elf}

/-- The specified machine behind the one that the loop starts from. -/
def bootState (elf : Elf) (progArgs : ProgramArgs) : Rv32i.State :=
  (RVSim.initial elf.parsed progArgs).toSpec

/-- The system never gets stuck before the exit call. -/
def RunsSafely (io : HostIO H) (s : System H) : Prop :=
  ∀ n s', Leads (SystemStep io) n s s' →
    (∃ status, ExitsWith status s'.core) ∨ ∃ s'', SystemStep io s' s''

theorem RunsSafely.leads_or_exits {io : HostIO H} {s : System H} (h : RunsSafely io s)
    (n : Nat) :
    (∃ s', Leads (SystemStep io) n s s') ∨
      ∃ k s' status, k < n ∧ Leads (SystemStep io) k s s' ∧ ExitsWith status s'.core := by
  induction n with
  | zero => exact .inl ⟨s, leads_zero_iff.mpr rfl⟩
  | succ n ih =>
      rcases ih with ⟨s', hlead⟩ | ⟨k, s', status, hk, hend⟩
      · rcases h n s' hlead with ⟨status, hexit⟩ | ⟨s'', hstep⟩
        · exact .inr ⟨n, s', status, by omega, hlead, hexit⟩
        · exact .inl ⟨s'', leads_succ_last_iff.mpr ⟨s', hlead, hstep⟩⟩
      · exact .inr ⟨k, s', status, by omega, hend⟩

section Command

variable (hboots : Boots readElf argv elf) (hargv : (ProgramArgs.ofMain argv).FitsArgv)
  (hapart : (RVSim.initial elf.parsed (.ofMain argv)).memory.Apart)

include hboots hargv hapart

/-- The command on a program that the system runs to its exit call. -/
theorem main_exits {n : Nat} {host : H} {s : System H}
    (hlead : Leads (SystemStep env.hostIO) n ⟨bootState elf (.ofMain argv), host⟩ s)
    {status : Register} (hexit : ExitsWith status s.core) {fuel : Nat} (hfuel : n < fuel) :
    (main env readElf softfloat argv fuel).run host = .ok (some status) s.host := by
  obtain ⟨last, hlead', hrunning, hat, hstatus, hhost⟩ :=
    leads_exit (m := Machine.boot elf (.ofMain argv) softfloat host) rfl hapart hlead hexit
  exact (main_boots_returns_iff hboots hargv).mpr
    ⟨n, last, hfuel, hlead', hrunning, hat, hstatus.symm, hhost.symm⟩

/-- The command on a program that the system still runs. -/
theorem main_cutOff {fuel : Nat} {host : H} {s : System H}
    (hlead : Leads (SystemStep env.hostIO) fuel ⟨bootState elf (.ofMain argv), host⟩ s) :
    ∃ host', (main env readElf softfloat argv fuel).run host = .ok none host' := by
  obtain ⟨m', hrun⟩ :=
    execute_cutOff (m := Machine.boot elf (.ofMain argv) softfloat host) rfl hapart hlead
  rw [main_boots hboots hargv, hrun]
  exact ⟨_, rfl⟩

/-- On a program on which the system never gets stuck, the command returns
exactly the status that the system exits with, after as many iterations as the
system takes steps, and leaves the host as the system does. -/
theorem main_follows_iff {fuel : Nat} {host host' : H}
    (hsafe : RunsSafely env.hostIO ⟨bootState elf (.ofMain argv), host⟩) {status : Register} :
    (main env readElf softfloat argv fuel).run host = .ok (some status) host' ↔
      ∃ n s, n < fuel ∧
        Leads (SystemStep env.hostIO) n ⟨bootState elf (.ofMain argv), host⟩ s ∧
        ExitsWith status s.core ∧ s.host = host' := by
  constructor
  · intro hrun
    rcases hsafe.leads_or_exits fuel with ⟨s, hlead⟩ | ⟨n, s, status', hn, hlead, hexit⟩
    · have hcut : ∃ host', (main env readElf softfloat argv fuel).run host = .ok none host' :=
        main_cutOff hboots hargv hapart hlead
      obtain ⟨host'', hcut⟩ := hcut
      rw [hcut] at hrun
      cases hrun
    · rw [main_exits hboots hargv hapart hlead hexit hn] at hrun
      cases hrun
      exact ⟨n, s, hn, hlead, hexit, rfl⟩
  · rintro ⟨n, s, hn, hlead, hexit, rfl⟩
    exact main_exits hboots hargv hapart hlead hexit hn

end Command

section Exit

theorem mnem_ne_ecall (instr : Rv32imb.Insn) : instr.mnem ≠ .ECALL := by
  intro h
  cases instr with
  | base instr =>
      cases instr with
      | branch op | load op | store op | opImm op | shiftImm op | reg op => cases op <;> cases h
      | lui | auipc | jal | jalr => cases h
  | reg op | unary op | fence op => cases op <;> cases h
  | rori | ebreak => cases h

/-- The word of a call is no instruction of the machine. -/
theorem not_exactStep_of_makesCall {id : Register} {s s' : Rv32i.State}
    (h : Rv32imb.MakesCall id s) : ¬ ExactStep s s' := by
  rintro ⟨instr, hfetches, _, _⟩
  have hbytes : toBytes 4 Rv32imb.Asm.ecall.word = toBytes 4 instr.word :=
    Option.some.inj (h.word.symm.trans hfetches.word)
  have hwords := congrArg (toWord 32) hbytes
  rw [toWord_toBytes _ (by decide), toWord_toBytes _ (by decide)] at hwords
  have hdecode : decode instr.word = some instr.mnem := decode_encode instr.mnem instr.operands
  rw [← hwords] at hdecode
  exact mnem_ne_ecall instr (Option.some.inj (hdecode.symm.trans decode_ecallWord))

/-- No step of the system leaves the exit call. -/
theorem not_systemStep_of_exitsWith {io : HostIO H} {status : Register} {s s' : System H}
    (h : ExitsWith status s.core) : ¬ SystemStep io s s' := by
  have hother {id : Register} (hid : id ≠ 93) : ¬ Rv32imb.MakesCall id s.core := fun hcall =>
    hid (hcall.number.symm.trans h.number)
  intro hstep
  cases hstep with
  | insn hstep => exact not_exactStep_of_makesCall h.toMakesCall hstep
  | write hcall => exact hother (by decide) hcall
  | readFailed hcall => exact hother (by decide) hcall
  | read hcall => exact hother (by decide) hcall

/-- The system has one next state. -/
theorem systemStep_unique (env : Env H) {m : Machine H} (hapart : m.sim.memory.Apart)
    {s s' : System H} (hs : SystemStep env.hostIO ⟨m.sim.toSpec, m.host⟩ s)
    (hs' : SystemStep env.hostIO ⟨m.sim.toSpec, m.host⟩ s') : s = s' := by
  obtain ⟨core, host⟩ := s
  obtain ⟨core', host'⟩ := s'
  obtain ⟨sim, hrun, rfl, _⟩ := executeInsn_system env hapart hs
  obtain ⟨sim', hrun', rfl, _⟩ := executeInsn_system env hapart hs'
  rw [hrun] at hrun'
  cases hrun'
  rfl

/-- The system that the smallest program comes to. -/
def exitSystem : System (List MemByte) := ⟨exitBooted.sim.toSpec, []⟩

theorem exitSystem_exits : ExitsWith 0 exitSystem.core := ⟨⟨rfl, rfl⟩, rfl⟩

theorem exitElf_step :
    SystemStep HostIO.queue ⟨bootState exitElf (.ofMain exitArgv), []⟩ exitSystem := by
  refine .insn ⟨.base (.opImm .ADDI 17 0 93), ⟨⟨by decide, by decide⟩, rfl⟩, trivial, ?_⟩
  exact congrArg (fun s : Rv32i.State => some s.next) (RVSim.toSpec_setXReg _ 17 93).symm

theorem exitElf_apart :
    (RVSim.initial exitElf.parsed (.ofMain exitArgv)).memory.Apart := by decide

/-- The system exits in its second state, and has no third. -/
theorem exitElf_runsSafely :
    RunsSafely queueEnv.hostIO ⟨bootState exitElf (.ofMain exitArgv), []⟩ := by
  intro n s hlead
  cases n with
  | zero =>
      obtain rfl := leads_zero_iff.mp hlead
      exact .inr ⟨_, exitElf_step⟩
  | succ n =>
      obtain ⟨mid, hstep, hrest⟩ := leads_succ_iff.mp hlead
      obtain rfl := systemStep_unique queueEnv
        (m := Machine.boot exitElf (.ofMain exitArgv) ⟨0, 0⟩ []) exitElf_apart hstep exitElf_step
      cases n with
      | zero =>
          obtain rfl := leads_zero_iff.mp hrest
          exact .inl ⟨0, exitSystem_exits⟩
      | succ n =>
          obtain ⟨_, hnext, _⟩ := leads_succ_iff.mp hrest
          exact absurd hnext (not_systemStep_of_exitsWith exitSystem_exits)

theorem main_follows_exit :
    (main queueEnv (fun _ => some exitElf) ⟨0, 0⟩ exitArgv 2).run [] = .ok (some 0) [] :=
  (main_follows_iff exitElf_boots (by decide) exitElf_apart exitElf_runsSafely).mpr
    ⟨1, exitSystem, by decide, leads_one exitElf_step, exitSystem_exits, rfl⟩

end Exit

end RiscvSim
