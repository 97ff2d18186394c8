import RiscvSim.Guest.TextFile

/-!
The greatest common divisor by subtraction, `gcd.s` of the tests, with its three
constants left open.
-/

namespace Rv32imb

open TotalCorrectness RiscvSim

/-- The text of `gcd.s`. -/
def gcdCode (a b expected : Int) : List Asm :=
  [addi t0 zero 0,
   addi s0 zero a,
   addi s1 zero b,
   -- gcd_loop
   beq s0 s1 24,
   blt s0 s1 12,
   sub s0 s0 s1,
   jal zero (-12),
   -- gcd_a_less
   sub s1 s1 s0,
   jal zero (-20),
   -- gcd_done
   add s2 zero s0,
   addi t1 zero expected,
   sub t1 s2 t1,
   add t0 t0 t1,
   addi a0 t0 0,
   addi a7 zero 93,
   .ecall]

/-- The difference of two numbers does not wrap. -/
theorem toInt_sub_nat {left right : Word} {x y : Nat} (hx : left.toInt = x) (hy : right.toInt = y)
    (hle : y ≤ x) : (left - right).toInt = (x - y : Nat) := by
  have hbound := left.toInt_lt
  rw [BitVec.toInt_sub, hx, hy, Int.bmod_eq_of_le (by omega) (by omega)]
  omega

section Loop

variable {a b expected : Int} {base : Word} {x y : Nat} {s : State}

/-- At `gcd_loop`, with two positive numbers. -/
structure InGcdLoop (a b expected : Int) (base : Word) (x y : Nat) (s : State) : Prop where
  atLoop : At (gcdCode a b expected) base 3 s
  accumulator : s.reg t0 = 0
  left : (s.reg s0).toInt = x
  right : (s.reg s1).toInt = y
  posLeft : 0 < x
  posRight : 0 < y

namespace InGcdLoop

theorem reaches_done (h : InGcdLoop a b expected base x x s) :
    Reaches ExactStep (ExitsWith (BitVec.ofInt 32 (x - expected))) s := by
  have heq : s.reg s0 = s.reg s1 := BitVec.eq_of_toInt_eq (h.left.trans h.right.symm)
  refine h.atLoop.reaches_taken (j := 9) rfl rfl (by simpa [Rv32i.BranchOp.taken] using heq) ?_
  intro hdone
  refine hdone.reaches_plain 6 rfl ?_
  intro hend
  refine .here (hend.exitsWith rfl ?_ ?_)
  · simp (disch := decide) [gcdCode]
  · simp (disch := decide) [gcdCode, h.accumulator]
    rw [← ofInt_natCast_sub, ← BitVec.ofInt_natCast, ← h.left, BitVec.ofInt_toInt]

theorem not_equal (h : InGcdLoop a b expected base x y s) (hne : x ≠ y) : s.reg s0 ≠ s.reg s1 := by
  intro heq
  have hsame := congrArg BitVec.toInt heq
  rw [h.left, h.right] at hsame
  omega

theorem reaches_left (h : InGcdLoop a b expected base x y s) (hless : y < x) :
    Reaches ExactStep (InGcdLoop a b expected base (x - y) y) s := by
  have hne := h.not_equal (by omega)
  refine h.atLoop.reaches_not_taken rfl (by simpa [Rv32i.BranchOp.taken] using hne) ?_
  intro hblt
  refine hblt.reaches_not_taken rfl ?_ ?_
  · simp [Rv32i.BranchOp.taken, h.left, h.right]
    omega
  · intro hsub
    refine hsub.reaches_plain 1 rfl fun hback => ?_
    refine hback.reaches_jal (j := 3) rfl rfl fun hloop => .here ⟨hloop, ?_, ?_, ?_, ?_, ?_⟩
    · simp (disch := decide) [gcdCode, h.accumulator]
    · simpa (disch := decide) [gcdCode] using toInt_sub_nat h.left h.right hless.le
    · simp (disch := decide) [gcdCode, h.right]
    · omega
    · exact h.posRight

theorem reaches_right (h : InGcdLoop a b expected base x y s) (hless : x < y) :
    Reaches ExactStep (InGcdLoop a b expected base x (y - x)) s := by
  have hne := h.not_equal (by omega)
  refine h.atLoop.reaches_not_taken rfl (by simpa [Rv32i.BranchOp.taken] using hne) ?_
  intro hblt
  refine hblt.reaches_taken (j := 7) rfl rfl ?_ ?_
  · simp [Rv32i.BranchOp.taken, h.left, h.right]
    omega
  · intro hsub
    refine hsub.reaches_plain 1 rfl fun hback => ?_
    refine hback.reaches_jal (j := 3) rfl rfl fun hloop => .here ⟨hloop, ?_, ?_, ?_, ?_, ?_⟩
    · simp (disch := decide) [gcdCode, h.accumulator]
    · simp (disch := decide) [gcdCode, h.left]
    · simpa (disch := decide) [gcdCode] using toInt_sub_nat h.right h.left hless.le
    · exact h.posLeft
    · omega

/-- The loop leaves the greatest common divisor, whatever the two numbers are. -/
theorem reaches_exit (h : InGcdLoop a b expected base x y s) :
    Reaches ExactStep (ExitsWith (BitVec.ofInt 32 (Nat.gcd x y - expected))) s := by
  refine Reaches.loop (α := Nat × Nat) (fun p => p.1 + p.2)
    (fun p s => InGcdLoop a b expected base p.1 p.2 s ∧ Nat.gcd p.1 p.2 = Nat.gcd x y) ?_
    (a := (x, y)) ⟨h, rfl⟩
  rintro ⟨n, m⟩ s ⟨h, hgcd⟩
  have hn := h.posLeft
  have hm := h.posRight
  rcases Nat.lt_trichotomy n m with hless | rfl | hless
  · refine (h.reaches_right hless).mono fun s' hs' =>
      .inr ⟨(n, m - n), by dsimp only; omega, hs', ?_⟩
    rw [← hgcd, Nat.gcd_sub_self_right hless.le]
  · rw [← hgcd, Nat.gcd_self]
    exact h.reaches_done.mono fun s' => .inl
  · refine (h.reaches_left hless).mono fun s' hs' =>
      .inr ⟨(n - m, m), by dsimp only; omega, hs', ?_⟩
    rw [← hgcd, Nat.gcd_sub_self_left hless.le]

end InGcdLoop

/-- From its first line the program comes to the exit call, with the difference
of the greatest common divisor from the expected one. -/
theorem gcdCode_reaches (hstart : At (gcdCode x y expected) base 0 s) (hposX : 0 < x)
    (hposY : 0 < y) :
    Reaches ExactStep (ExitsWith (BitVec.ofInt 32 (Nat.gcd x y - expected))) s := by
  have hleft : (BitVec.ofInt 32 x).toInt = x :=
    toInt_constant hstart.code.legal (rfl : (gcdCode x y expected)[1]? = _)
  have hright : (BitVec.ofInt 32 y).toInt = y :=
    toInt_constant hstart.code.legal (rfl : (gcdCode x y expected)[2]? = _)
  refine hstart.reaches_plain 3 rfl fun hloop => ?_
  refine InGcdLoop.reaches_exit ⟨hloop, ?_, ?_, ?_, hposX, hposY⟩
  · simp (disch := decide) [gcdCode]
  · simpa (disch := decide) [gcdCode] using hleft
  · simpa (disch := decide) [gcdCode] using hright

end Loop

end Rv32imb

namespace RiscvSim

variable {H : Type} {env : Env H} {readElf : List MemByte → Option Elf}
  {softfloat : SoftFloatState} {argv : List (List MemByte)} {elf : Elf} {base : Address}

/-- The command on `gcd.s`: for all positive constants it returns how far the
greatest common divisor is from the expected one. -/
theorem main_gcd {x y : Nat} {expected : Int}
    (hloads : Loads readElf argv elf (Rv32imb.gcdCode x y expected) base 0) (hposX : 0 < x)
    (hposY : 0 < y) :
    ∃ n, ∀ fuel host, n < fuel →
      (main env readElf softfloat argv fuel).run host =
        .ok (some (BitVec.ofInt 32 (Nat.gcd x y - expected))) host :=
  hloads.main_returns (Rv32imb.gcdCode_reaches hloads.atStart hposX hposY)

/-- The constants of the test. -/
theorem main_gcd_test :
    ∃ n, ∀ fuel host, n < fuel →
      (main queueEnv
        (fun _ => some (textElf 0x10000 (Rv32imb.gcdCode (1071 : Nat) (462 : Nat) 21) [] 0
          (by decide)))
        ⟨0, 0⟩ exitArgv fuel).run host =
        .ok (some (BitVec.ofInt 32 ((Nat.gcd 1071 462 : Nat) - 21))) host :=
  main_gcd (textElf_loads (by decide) rfl (by decide) (by decide)) (by decide) (by decide)

end RiscvSim
