import RiscvSim.Guest.FibRec

/-!
The Fibonacci numbers by a loop, `fib_it.s` of the tests, with its two constants
left open, and beside the recursive function. The two differ below zero.
-/

namespace Rv32imb

open TotalCorrectness RiscvSim

/-- The text of `fib_it.s`. -/
def fibItCode (n expected : Int) : List Asm :=
  [addi t0 zero 0,
   addi s0 zero n,
   addi s1 zero 0,
   addi s2 zero 1,
   addi s3 zero 1,
   addi t1 zero 1,
   blt s0 t1 36,
   beq s0 t1 40,
   -- fib_iter_loop
   add t1 s1 s2,
   add s1 zero s2,
   add s2 zero t1,
   addi s3 s3 1,
   blt s3 s0 (-16),
   add t1 zero s2,
   jal zero 16,
   -- fib_iter_done_n0_or_n1
   addi t1 zero 0,
   jal zero 8,
   -- fib_iter_done_n1
   addi t1 zero 1,
   -- fib_iter_check
   addi t2 zero expected,
   sub t2 t1 t2,
   add t0 t0 t2,
   addi a0 t0 0,
   addi a7 zero 93,
   .ecall]

section Loop

variable {n expected : Int} {base : Word} {s : State}

/-- At `fib_iter_check`, with the number that was found. -/
structure AtFibCheck (n expected : Int) (base : Word) (value : Nat) (s : State) : Prop where
  atCheck : At (fibItCode n expected) base 18 s
  accumulator : s.reg t0 = 0
  found : s.reg t1 = BitVec.ofNat 32 value

theorem AtFibCheck.reaches_exit {value : Nat} (h : AtFibCheck n expected base value s) :
    Reaches ExactStep (ExitsWith (BitVec.ofInt 32 (value - expected))) s := by
  apply h.atCheck.reaches_plain 5 rfl
  intro hend
  apply Reaches.here
  apply hend.exitsWith rfl
  · simp (disch := decide) [fibItCode]
  · simp (disch := decide) [fibItCode, h.accumulator, h.found]
    exact ofInt_natCast_sub value expected

/-- At a line of the loop, with two neighbours of the sequence. -/
structure InFibLoop (n expected : Int) (base : Word) (k j : Nat) (s : State) : Prop where
  atLine : At (fibItCode n expected) base k s
  accumulator : s.reg t0 = 0
  bound : s.reg s0 = BitVec.ofInt 32 n
  previous : s.reg s1 = BitVec.ofNat 32 (Nat.fib j)
  current : s.reg s2 = BitVec.ofNat 32 (Nat.fib (j + 1))
  index : s.reg s3 = BitVec.ofNat 32 (j + 1)
  within : (j : Int) + 1 ≤ n

namespace InFibLoop

variable {k j : Nat}

theorem toInt_bound (h : InFibLoop n expected base k j s) : (s.reg s0).toInt = n := by
  rw [h.bound]
  exact toInt_constant h.atLine.code.legal (rfl : (fibItCode n expected)[1]? = _)

theorem toInt_index (h : InFibLoop n expected base k j s) : (s.reg s3).toInt = (j : Int) + 1 := by
  have hbound := h.toInt_bound
  have hrange := (s.reg s0).toInt_lt
  have hwithin := h.within
  rw [h.index, ← BitVec.ofInt_natCast, BitVec.toInt_ofInt,
    Int.bmod_eq_of_le (by omega) (by omega), Nat.cast_succ]

/-- The lines from `fib_iter_loop` to its branch. -/
theorem reaches_branch (h : InFibLoop n expected base 8 j s) (hmore : (j : Int) + 1 < n) :
    Reaches ExactStep (InFibLoop n expected base 12 (j + 1)) s := by
  apply h.atLine.reaches_plain 4 rfl
  intro hblt
  apply Reaches.here
  refine ⟨hblt, ?_, ?_, ?_, ?_, ?_, ?_⟩
  · simp (disch := decide) [fibItCode, h.accumulator]
  · simp (disch := decide) [fibItCode, h.bound]
  · simp (disch := decide) [fibItCode, h.current]
  · simp (disch := decide) [fibItCode, h.previous, h.current]
    rw [Nat.fib_add_two, BitVec.ofNat_add]
  · simp (disch := decide) [fibItCode, h.index]
    rw [BitVec.ofNat_add (j + 1)]
  · push_cast
    omega

/-- The branch goes back as long as the index is below the bound. -/
theorem reaches_loop (h : InFibLoop n expected base 12 j s) (hmore : (j : Int) + 1 < n) :
    Reaches ExactStep (InFibLoop n expected base 8 j) s := by
  apply h.atLine.reaches_taken (j := 8) rfl rfl
  · simp [Rv32i.BranchOp.taken, h.toInt_index, h.toInt_bound]
    exact hmore
  · intro hloop
    apply Reaches.here
    exact ⟨hloop, h.accumulator, h.bound, h.previous, h.current, h.index, h.within⟩

/-- Behind the loop the number is moved to where the check expects it. -/
theorem reaches_found (h : InFibLoop n expected base 12 j s) (hdone : (j : Int) + 1 = n) :
    Reaches ExactStep (AtFibCheck n expected base (Nat.fib n.toNat)) s := by
  apply h.atLine.reaches_not_taken rfl
  · simp [Rv32i.BranchOp.taken, h.toInt_index, h.toInt_bound]
    omega
  intro hmove
  apply hmove.reaches_plain 1 rfl
  intro hjump
  apply hjump.reaches_jal (j := 18) rfl rfl
  intro hcheck
  apply Reaches.here
  have hn : n.toNat = j + 1 := by omega
  refine ⟨hcheck, ?_, ?_⟩
  · simp (disch := decide) [fibItCode, h.accumulator]
  · simp (disch := decide) [fibItCode, h.current, hn]

/-- The loop finds the number, whatever the bound is. -/
theorem reaches_check (h : InFibLoop n expected base 12 j s) :
    Reaches ExactStep (AtFibCheck n expected base (Nat.fib n.toNat)) s := by
  apply Reaches.loop (fun j => n.toNat - j) (InFibLoop n expected base 12) _ h
  intro j s h
  have hwithin := h.within
  rcases hwithin.lt_or_eq with hmore | hdone
  · apply (h.reaches_loop hmore).trans
    intro s' h'
    apply (h'.reaches_branch hmore).mono
    intro s'' h''
    exact .inr ⟨j + 1, by omega, h''⟩
  · exact (h.reaches_found hdone).mono fun s' => .inl

end InFibLoop

/-- At the two branches in front of the loop. -/
structure AtFibStart (n expected : Int) (base : Word) (k : Nat) (s : State) : Prop where
  atLine : At (fibItCode n expected) base k s
  accumulator : s.reg t0 = 0
  bound : s.reg s0 = BitVec.ofInt 32 n
  previous : s.reg s1 = BitVec.ofNat 32 (Nat.fib 0)
  current : s.reg s2 = BitVec.ofNat 32 (Nat.fib 1)
  index : s.reg s3 = BitVec.ofNat 32 1
  one : s.reg t1 = BitVec.ofNat 32 (Nat.fib 1)

namespace AtFibStart

variable {k : Nat}

theorem toInt_bound (h : AtFibStart n expected base k s) : (s.reg s0).toInt = n := by
  rw [h.bound]
  exact toInt_constant h.atLine.code.legal (rfl : (fibItCode n expected)[1]? = _)

theorem toInt_one (h : AtFibStart n expected base k s) : (s.reg t1).toInt = 1 := by
  rw [h.one]
  rfl

theorem reaches_zero (h : AtFibStart n expected base 6 s) (hless : n < 1) :
    Reaches ExactStep (AtFibCheck n expected base (Nat.fib n.toNat)) s := by
  apply h.atLine.reaches_taken (j := 15) rfl rfl
  · simp [Rv32i.BranchOp.taken, h.toInt_bound, h.toInt_one]
    exact hless
  intro hmove
  apply hmove.reaches_plain 1 rfl
  intro hjump
  apply hjump.reaches_jal (j := 18) rfl rfl
  intro hcheck
  apply Reaches.here
  have hn : n.toNat = 0 := by omega
  refine ⟨hcheck, ?_, ?_⟩
  · simp (disch := decide) [fibItCode, h.accumulator]
  · simp (disch := decide) [fibItCode, hn]

theorem reaches_second (h : AtFibStart n expected base 6 s) (hmore : 1 ≤ n) :
    Reaches ExactStep (AtFibStart n expected base 7) s := by
  apply h.atLine.reaches_not_taken rfl
  · simp [Rv32i.BranchOp.taken, h.toInt_bound, h.toInt_one]
    exact hmore
  · intro hbeq
    apply Reaches.here
    exact ⟨hbeq, h.accumulator, h.bound, h.previous, h.current, h.index, h.one⟩

theorem reaches_one (h : AtFibStart n expected base 7 s) (hone : n = 1) :
    Reaches ExactStep (AtFibCheck n expected base (Nat.fib n.toNat)) s := by
  subst hone
  apply h.atLine.reaches_taken (j := 17) rfl rfl
  · simp [Rv32i.BranchOp.taken, h.bound, h.one]
  intro hmove
  apply hmove.reaches_plain 1 rfl
  intro hcheck
  apply Reaches.here
  refine ⟨hcheck, ?_, ?_⟩
  · simp (disch := decide) [fibItCode, h.accumulator]
  · simp (disch := decide) [fibItCode]

theorem reaches_loop (h : AtFibStart n expected base 7 s) (hmore : 1 < n) :
    Reaches ExactStep (InFibLoop n expected base 8 0) s := by
  apply h.atLine.reaches_not_taken rfl
  · have hne : s.reg s0 ≠ s.reg t1 := by
      intro heq
      have hsame := congrArg BitVec.toInt heq
      rw [h.toInt_bound, h.toInt_one] at hsame
      omega
    simpa [Rv32i.BranchOp.taken] using hne
  · intro hloop
    apply Reaches.here
    exact ⟨hloop, h.accumulator, h.bound, h.previous, h.current, h.index, by omega⟩

theorem reaches_check (h : AtFibStart n expected base 6 s) :
    Reaches ExactStep (AtFibCheck n expected base (Nat.fib n.toNat)) s := by
  by_cases hless : n < 1
  · exact h.reaches_zero hless
  · apply (h.reaches_second (by omega)).trans
    intro s' h'
    by_cases hone : n = 1
    · exact h'.reaches_one hone
    · apply (h'.reaches_loop (by omega)).trans
      intro s'' h''
      apply (h''.reaches_branch (by omega)).trans
      exact fun _ hbranch => hbranch.reaches_check

end AtFibStart

/-- From its first line the program comes to the exit call, with the difference
of the Fibonacci number from the expected one. -/
theorem fibItCode_reaches (hstart : At (fibItCode n expected) base 0 s) :
    Reaches ExactStep (ExitsWith (BitVec.ofInt 32 (Nat.fib n.toNat - expected))) s := by
  apply hstart.reaches_plain 6 rfl
  intro hblt
  have h : AtFibStart n expected base 6
      (((fibItCode n expected).take 6).foldl plain s) := by
    refine ⟨hblt, ?_, ?_, ?_, ?_, ?_, ?_⟩
    · simp (disch := decide) [fibItCode]
    · simp (disch := decide) [fibItCode]
    · simp (disch := decide) [fibItCode]
    · simp (disch := decide) [fibItCode]
    · simp (disch := decide) [fibItCode]
    · simp (disch := decide) [fibItCode]
  apply h.reaches_check.trans
  exact fun _ hcheck => hcheck.reaches_exit

end Loop

end Rv32imb

namespace RiscvSim

variable {H : Type} {env : Env H} {readElf : List MemByte → Option Elf}
  {softfloat : SoftFloatState} {argv : List (List MemByte)} {elf : Elf} {base : Address}

/-- The command on `fib_it.s`: for every constant, zero and the negative ones
among them, it returns how far the Fibonacci number is from the expected one. -/
theorem main_fibIt {n expected : Int}
    (hloads : Loads readElf argv elf (Rv32imb.fibItCode n expected) base 0) :
    ∃ steps, ∀ fuel host, steps < fuel →
      (main env readElf softfloat argv fuel).run host =
        .ok (some (BitVec.ofInt 32 (Nat.fib n.toNat - expected))) host :=
  hloads.main_returns (Rv32imb.fibItCode_reaches hloads.atStart)

/-- The text of the test. -/
def fibItElf : Elf := textElf 0x10000 (Rv32imb.fibItCode 10 55) [] 0 (by decide)

theorem fibItElf_loads :
    Loads (fun _ => some fibItElf) exitArgv fibItElf (Rv32imb.fibItCode 10 55) 0x10000 0 :=
  textElf_loads (by decide) rfl (by decide) (by decide)

/-- The constants of the test. -/
theorem main_fibIt_test :
    ∃ steps, ∀ fuel host, steps < fuel →
      (main queueEnv (fun _ => some fibItElf) ⟨0, 0⟩ exitArgv fuel).run host =
        .ok (some (BitVec.ofInt 32 ((Nat.fib (10 : Int).toNat : Nat) - 55))) host :=
  main_fibIt fibItElf_loads

section Compare

open ByteStore
open Rv32imb (fibFrames fibItCode fibRecCode fibValue)

/-- A legal constant and what is expected are told apart by the word of the status. -/
theorem fibValue_status_iff {n expected : Int} (hlow : -2 ^ 11 ≤ n) :
    BitVec.ofInt 32 (fibValue n - expected) = BitVec.ofInt 32 (Nat.fib n.toNat - expected) ↔
      0 ≤ n := by
  constructor
  · intro hsame
    by_contra hneg
    have hzero : n.toNat = 0 := by omega
    rw [Rv32imb.fibValue_of_le (by omega), hzero, Int.sub_eq_add_neg, Int.sub_eq_add_neg,
      BitVec.ofInt_add, BitVec.ofInt_add, BitVec.add_left_inj] at hsame
    have hint := congrArg BitVec.toInt hsame
    rw [BitVec.toInt_ofInt, Int.bmod_eq_of_le (by omega) (by omega)] at hint
    exact hneg hint.ge
  · intro hnonneg
    rw [Rv32imb.fibValue_of_nonneg hnonneg]

variable {readElf' : List MemByte → Option Elf} {argv' : List (List MemByte)} {elf' : Elf}
  {base' : Address}

/-- The two programs with the same constants, each in any file that holds it: both calls of
the command return, and they return the same status exactly for the numbers from zero on. -/
theorem main_fib_agree_iff {n expected : Int} {stackTop : Address}
    (hrec : Loads readElf argv elf (fibRecCode n expected stackTop) base 0)
    (heven : base.toNat % 2 = 0)
    (hroom : ∀ x, Below stackTop (16 * fibFrames n) x →
      ((bootState elf (.ofMain argv)).mem x).isSome ∧
        ¬ Covers base (4 * (fibRecCode n expected stackTop).length) x)
    (hit : Loads readElf' argv' elf' (fibItCode n expected) base' 0) :
    ∃ steps recursive iterative, (∀ fuel host, steps < fuel →
        (main env readElf softfloat argv fuel).run host = .ok (some recursive) host ∧
          (main env readElf' softfloat argv' fuel).run host = .ok (some iterative) host) ∧
      (recursive = iterative ↔ 0 ≤ n) := by
  obtain ⟨recSteps, hrecursive⟩ : ∃ steps, ∀ fuel host, steps < fuel →
      (main env readElf softfloat argv fuel).run host =
        .ok (some (BitVec.ofInt 32 (fibValue n - expected))) host :=
    hrec.main_returns (Rv32imb.fibRecCode_reaches hrec.atStart heven hroom)
  obtain ⟨itSteps, hiterative⟩ : ∃ steps, ∀ fuel host, steps < fuel →
      (main env readElf' softfloat argv' fuel).run host =
        .ok (some (BitVec.ofInt 32 (Nat.fib n.toNat - expected))) host :=
    hit.main_returns (Rv32imb.fibItCode_reaches hit.atStart)
  have hlegal : (Rv32imb.addi Rv32imb.s0 Rv32imb.zero n).Legal :=
    hit.legal _ (List.mem_of_getElem? (rfl : (fibItCode n expected)[1]? = _))
  refine ⟨max recSteps itSteps, BitVec.ofInt 32 (fibValue n - expected),
    BitVec.ofInt 32 (Nat.fib n.toNat - expected), ?_, fibValue_status_iff hlegal.1⟩
  intro fuel host hfuel
  exact ⟨hrecursive fuel host (by omega), hiterative fuel host (by omega)⟩

/-- Both tests return the same for the tenth number. -/
theorem main_fib_agree_tests :
    ∃ steps recursive iterative, (∀ fuel host, steps < fuel →
        (main queueEnv (fun _ => some fibRecElf) ⟨0, 0⟩ exitArgv fuel).run host =
            .ok (some recursive) host ∧
          (main queueEnv (fun _ => some fibItElf) ⟨0, 0⟩ exitArgv fuel).run host =
            .ok (some iterative) host) ∧
      (recursive = iterative ↔ 0 ≤ (10 : Int)) :=
  main_fib_agree_iff fibRecElf_loads (by decide) fibRecElf_room fibItElf_loads

end Compare

end RiscvSim
