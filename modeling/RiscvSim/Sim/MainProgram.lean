import RiscvSim.Sim.ElfImage
import RiscvSim.Sim.ExecuteEnds
import RiscvSim.Sim.StackBounds

/-!
The simulator as a command. `main` reads the program file, builds the simulator
and returns what the loop returns; a file that it rejects, and a command line
without a file, give the failure status. The logger and the messages on the
standard error stream are left out.
-/

namespace RiscvSim

open Runs

variable {H : Type}

def EXIT_FAILURE : IRegister := 1

/-- The constructor that `main` calls: the command line without the simulator's
own name. -/
def ProgramArgs.ofMain (argv : List (List MemByte)) : ProgramArgs where
  argc := argv.length - 1
  argv := argv.tail
  argc_eq := List.length_tail.symm

/-- `main`, with the loop cut off after `fuel` iterations. `readElf` is what the
library makes of a file, and `softfloat` the initial state of the other one. -/
def main (env : Env H) (readElf : List MemByte → Option Elf) (softfloat : SoftFloatState)
    (argv : List (List MemByte)) (fuel : Nat) : EStateM Fault H (Option IRegister) :=
  if h : argv.length < 2 then return some EXIT_FAILURE
  else
    let progArgs := ProgramArgs.ofMain argv
    match loadElf (readElf argv[1]) with
    | .error (.exception _) => return some EXIT_FAILURE
    | .error fault => throw fault
    | .ok parsedElf =>
        match RVSim.construct parsedElf progArgs with
        | .error fault => throw fault
        | .ok sim => fun host =>
            match (execute env fuel).run ⟨sim, softfloat, host⟩ with
            | .ok rc m => .ok rc m.host
            | .error fault m => .error fault m.host

section Boot

/-- The file cannot be read, or is for another machine. -/
def Rejected : Option Elf → Prop
  | none => True
  | some elf => isTargetCorrect elf = false

/-- What the loader makes of a file whose segments fit. -/
def Elf.parsed (elf : Elf) : ParsedElf where
  mem := elf.loadable.map ElfSegment.image
  entryPoint := elf.entry.setWidth 32
  globalPtr := findGlobalPtr elf.sections

theorem loadElf_rejected {loaded : Option Elf} (h : Rejected loaded) :
    ∃ text, loadElf loaded = .error (.exception text) := by
  cases loaded with
  | none => exact ⟨_, rfl⟩
  | some elf =>
      refine ⟨"Unsupported target", ?_⟩
      unfold loadElf
      dsimp only
      rw [show isTargetCorrect elf = false from h]
      rfl

/-- Of a file for this target the headers alone decide whether it is loaded. -/
theorem loadElf_cases {elf : Elf} (htarget : isTargetCorrect elf = true) :
    ((∀ segm ∈ elf.loadable, segm.fileSize.toNat ≤ segm.memorySize.toNat) ∧
      loadElf (some elf) = .ok elf.parsed) ∨
    ((¬ ∀ segm ∈ elf.loadable, segm.fileSize.toNat ≤ segm.memorySize.toNat) ∧
      loadElf (some elf) = .error .outOfBounds) := by
  have hnarrow : ∀ segm ∈ elf.segments, segm.Narrow := fun _ => Elf.narrow_of_target htarget
  rw [loadElf_eq htarget]
  by_cases hfits : ∀ segm ∈ elf.loadable, segm.fileSize.toNat ≤ segm.memorySize.toNat
  · refine .inl ⟨hfits, ?_⟩
    rw [loadSegments_ok hnarrow fun segm hsegm hload => hfits segm (mem_loadable.mpr ⟨hsegm, hload⟩)]
    rfl
  · refine .inr ⟨hfits, ?_⟩
    obtain ⟨segm, hsegm, hlarge⟩ := not_forall₂.mp hfits
    rw [Nat.not_le] at hlarge
    obtain ⟨hmem, hload⟩ := mem_loadable.mp hsegm
    rw [loadSegments_overflow hnarrow hmem hload hlarge]
    rfl

/-- For argument strings that leave the address space room, the constructor
completes when the argument table fits the stack. -/
theorem RVSim.construct_cases (parsedElf : ParsedElf) {progArgs : ProgramArgs}
    (hargv : progArgs.FitsArgv) :
    (progArgs.FitsStack ∧
      RVSim.construct parsedElf progArgs = .ok (RVSim.initial parsedElf progArgs)) ∨
    (¬ progArgs.FitsStack ∧ RVSim.construct parsedElf progArgs = .error .outOfBounds) := by
  by_cases hstack : progArgs.FitsStack
  · exact .inl ⟨hstack, RVSim.construct_eq parsedElf hstack hargv⟩
  · refine .inr ⟨hstack, ?_⟩
    cases hconstruct : RVSim.construct parsedElf progArgs with
    | ok sim =>
        obtain ⟨table, stackData, hlength, hfill, _⟩ := RVSim.construct_fills hconstruct
        exact absurd (.of_fillStackData hlength hfill) hstack
    | error fault => rw [RVSim.construct_error parsedElf progArgs fault hconstruct]

/-- The machine that the loop starts from. -/
def Machine.boot (elf : Elf) (progArgs : ProgramArgs) (softfloat : SoftFloatState) (host : H) :
    Machine H := ⟨RVSim.initial elf.parsed progArgs, softfloat, host⟩

/-- The file is read and fits, and the argument table fits the stack. -/
structure Boots (readElf : List MemByte → Option Elf) (argv : List (List MemByte)) (elf : Elf) :
    Prop where
  read : ∃ path, argv[1]? = some path ∧ readElf path = some elf
  target : isTargetCorrect elf = true
  fits : ∀ segm ∈ elf.loadable, segm.fileSize.toNat ≤ segm.memorySize.toNat
  stack : (ProgramArgs.ofMain argv).FitsStack

/-- `main` refuses to start a program. -/
def Refuses (readElf : List MemByte → Option Elf) (argv : List (List MemByte)) : Prop :=
  argv[1]? = none ∨ ∃ path, argv[1]? = some path ∧ Rejected (readElf path)

variable {env : Env H} {readElf : List MemByte → Option Elf} {softfloat : SoftFloatState}
  {argv : List (List MemByte)}

theorem main_refuses (h : Refuses readElf argv) (fuel : Nat) :
    main env readElf softfloat argv fuel = pure (some EXIT_FAILURE) := by
  unfold main
  rcases h with hnone | ⟨path, hpath, hrejected⟩
  · rw [dif_pos]
    have hle := List.getElem?_eq_none_iff.mp hnone
    omega
  · obtain ⟨hlength, rfl⟩ := List.getElem?_eq_some_iff.mp hpath
    obtain ⟨text, herror⟩ := loadElf_rejected hrejected
    rw [dif_neg (by omega)]
    simp only [herror]

theorem main_boots {elf : Elf} (h : Boots readElf argv elf)
    (hargv : (ProgramArgs.ofMain argv).FitsArgv) (fuel : Nat) (host : H) :
    (main env readElf softfloat argv fuel).run host =
      match (execute env fuel).run (Machine.boot elf (.ofMain argv) softfloat host) with
      | .ok rc m => .ok rc m.host
      | .error fault m => .error fault m.host := by
  obtain ⟨⟨path, hpath, hread⟩, htarget, hfits, hstack⟩ := h
  obtain ⟨hlength, rfl⟩ := List.getElem?_eq_some_iff.mp hpath
  have hload := (loadElf_cases htarget).resolve_right fun hnot => hnot.1 hfits
  unfold main
  rw [dif_neg (by omega)]
  simp only [hread, hload.2, RVSim.construct_eq elf.parsed hstack hargv]
  rfl

/-- The status of a program that is started, from the run of the loop. -/
theorem main_boots_returns_iff {elf : Elf} (h : Boots readElf argv elf)
    (hargv : (ProgramArgs.ofMain argv).FitsArgv) {fuel : Nat} {host host' : H}
    {status : IRegister} :
    (main env readElf softfloat argv fuel).run host = .ok (some status) host' ↔
      ∃ n last, n < fuel ∧
        Leads (Iterates env) n (Machine.boot elf (.ofMain argv) softfloat host) last ∧
        last.sim.shouldStop = false ∧ AtExit env last ∧
        status = last.sim.getXReg XRegAlias.a0 ∧ host' = last.host := by
  have hrunning : (Machine.boot elf (.ofMain argv) softfloat host).sim.shouldStop = false := rfl
  rw [main_boots h hargv]
  constructor
  · intro hrun
    cases hexecute : (execute env fuel).run (Machine.boot elf (.ofMain argv) softfloat host) with
    | error fault m =>
        rw [hexecute] at hrun
        cases hrun
    | ok rc m =>
        rw [hexecute] at hrun
        cases hrun
        obtain ⟨n, hn, hlead, hstopped, rfl⟩ := execute_returned_iff.mp hexecute
        obtain ⟨k, last, rfl, hfront, hlast, hat, rfl⟩ :=
          (leads_stopped_iff hrunning).mp ⟨hlead, hstopped⟩
        exact ⟨k, last, by omega, hfront, hlast, hat, rfl, rfl⟩
  · rintro ⟨n, last, hn, hfront, hlast, hat, rfl, rfl⟩
    obtain ⟨hlead, hstopped⟩ :=
      (leads_stopped_iff hrunning).mpr ⟨n, last, rfl, hfront, hlast, hat, rfl⟩
    rw [execute_returned_iff.mpr ⟨n + 1, by omega, hlead, hstopped, rfl⟩]
    rfl

/-- Any other command line leaves a vector before the loop starts. -/
theorem main_overflows (hrefuses : ¬ Refuses readElf argv) (hboots : ∀ elf, ¬ Boots readElf argv elf)
    (hargv : (ProgramArgs.ofMain argv).FitsArgv) (fuel : Nat) (host : H) :
    (main env readElf softfloat argv fuel).run host = .error .outOfBounds host := by
  obtain ⟨hpath, hnot⟩ := not_or.mp hrefuses
  obtain ⟨path, hpath⟩ := Option.ne_none_iff_exists'.mp hpath
  obtain ⟨hlength, rfl⟩ := List.getElem?_eq_some_iff.mp hpath
  cases hread : readElf argv[1] with
  | none => exact absurd ⟨_, hpath, by rw [hread]; trivial⟩ hnot
  | some elf =>
      have htarget : isTargetCorrect elf = true := by
        by_contra hwrong
        refine hnot ⟨_, hpath, ?_⟩
        rw [hread]
        exact Bool.eq_false_of_not_eq_true hwrong
      unfold main
      rw [dif_neg (by omega)]
      rcases loadElf_cases htarget with ⟨hfits, hload⟩ | ⟨_, hload⟩
      · rcases RVSim.construct_cases elf.parsed hargv with ⟨hstack, _⟩ | ⟨_, hconstruct⟩
        · exact absurd ⟨⟨_, hpath, hread⟩, htarget, hfits, hstack⟩ (hboots elf)
        · simp only [hread, hload, hconstruct]
          rfl
      · simp only [hread, hload]
        rfl

/-- Where the argument strings fit, the command returns a status in two ways: the
failure status of a command line that it refuses, and the `a0` of the first exit call
of the program. -/
theorem main_returns_iff (hargv : (ProgramArgs.ofMain argv).FitsArgv) {fuel : Nat} {host host' : H}
    {status : IRegister} :
    (main env readElf softfloat argv fuel).run host = .ok (some status) host' ↔
      (Refuses readElf argv ∧ status = EXIT_FAILURE ∧ host' = host) ∨
      ∃ elf n last, Boots readElf argv elf ∧ n < fuel ∧
        Leads (Iterates env) n (Machine.boot elf (.ofMain argv) softfloat host) last ∧
        last.sim.shouldStop = false ∧ AtExit env last ∧
        status = last.sim.getXReg XRegAlias.a0 ∧ host' = last.host := by
  constructor
  · intro hrun
    by_cases hrefuses : Refuses readElf argv
    · rw [main_refuses hrefuses] at hrun
      cases hrun
      exact .inl ⟨hrefuses, rfl, rfl⟩
    · by_cases hboots : ∃ elf, Boots readElf argv elf
      · obtain ⟨elf, hboots⟩ := hboots
        obtain ⟨n, last, hend⟩ := (main_boots_returns_iff hboots hargv).mp hrun
        exact .inr ⟨elf, n, last, hboots, hend⟩
      · rw [main_overflows hrefuses (not_exists.mp hboots) hargv] at hrun
        cases hrun
  · rintro (⟨hrefuses, rfl, rfl⟩ | ⟨elf, n, last, hboots, hend⟩)
    · rw [main_refuses hrefuses]
      rfl
    · exact (main_boots_returns_iff hboots hargv).mpr ⟨n, last, hend⟩

/-- `addi a7, zero, 93` and `ecall`. -/
def exitSegment : ElfSegment :=
  ⟨PT_LOAD, PF_R ||| PF_X, 0x10000, 8, 8, [0x93, 0x08, 0xd0, 0x05, 0x73, 0x00, 0x00, 0x00], rfl⟩

def exitElf : Elf where
  machine := EM_RISCV
  elfClass := ELFCLASS32
  entry := 0x10000
  segments := [exitSegment]
  sections := []
  narrow := by
    intro _ segm hsegm
    obtain rfl := List.mem_singleton.mp hsegm
    exact ⟨by decide, by decide, by decide⟩

/-- The simulator's own name and a file. -/
def exitArgv : List (List MemByte) := [[0x73], [0x61]]

theorem exitElf_boots : Boots (fun _ => some exitElf) exitArgv exitElf where
  read := ⟨[0x61], rfl, rfl⟩
  target := rfl
  fits := by
    intro segm hsegm
    obtain rfl := List.mem_singleton.mp (mem_loadable.mp hsegm).1
    decide
  stack := by decide

/-- At the `ECALL`. -/
def exitBooted : Machine (List MemByte) :=
  (Machine.boot exitElf (.ofMain exitArgv) ⟨0, 0⟩ []).mapSim fun sim =>
    (sim.setXReg XRegAlias.a7 93).step

theorem exitElf_leads :
    Leads (Iterates queueEnv) 1 (Machine.boot exitElf (.ofMain exitArgv) ⟨0, 0⟩ []) exitBooted :=
  leads_one ⟨rfl, rfl⟩

theorem main_returns_exit :
    (main queueEnv (fun _ => some exitElf) ⟨0, 0⟩ exitArgv 2).run [] = .ok (some 0) [] :=
  (main_returns_iff (by decide)).mpr
    (.inr ⟨exitElf, 1, exitBooted, exitElf_boots, by decide, exitElf_leads, rfl, ⟨rfl, rfl⟩, rfl,
      rfl⟩)

end Boot

end RiscvSim
