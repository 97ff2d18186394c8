import Mathlib.Data.Nat.Fib.Basic
import RiscvSim.Guest.TextFile

/-!
The recursive Fibonacci function, `fib_rec.s` of the tests, with its constants
and the place of its stack left open. A call uses the stack below its stack
pointer, one frame for each call that is open at the same time.
-/

namespace Rv32imb

open ByteStore LittleEndian TotalCorrectness RiscvSim

variable {n : Int}

/-- The text of `fib_rec.s`. -/
def fibRecCode (n expected : Int) (stackTop : Word) : List Asm :=
  [addi t0 zero 0,
   lui sp (hi stackTop),
   addi sp sp (lo stackTop),
   addi a0 zero n,
   jal ra 28,
   addi t1 zero expected,
   sub t1 a0 t1,
   add t0 t0 t1,
   addi a0 t0 0,
   addi a7 zero 93,
   .ecall,
   -- fib
   addi sp sp (-16),
   sw ra sp 12,
   sw a0 sp 8,
   addi t1 zero 1,
   blt t1 a0 16,
   lw ra sp 12,
   addi sp sp 16,
   jalr zero ra 0,
   -- fib_recurse
   addi a0 a0 (-1),
   jal ra (-36),
   sw a0 sp 4,
   lw a0 sp 8,
   addi a0 a0 (-2),
   jal ra (-52),
   lw t2 sp 4,
   add a0 a0 t2,
   lw ra sp 12,
   addi sp sp 16,
   jalr zero ra 0]

/-- What the function returns: below two, its argument as it is. -/
def fibValue (n : Int) : Int := if n ≤ 1 then n else Nat.fib n.toNat

theorem fibValue_of_le (h : n ≤ 1) : fibValue n = n := if_pos h

/-- From zero on it is the Fibonacci number. -/
theorem fibValue_of_nonneg (h : 0 ≤ n) : fibValue n = Nat.fib n.toNat := by
  unfold fibValue
  split
  · obtain rfl | rfl : n = 0 ∨ n = 1 := by omega
    · rfl
    · rfl
  · rfl

theorem fibValue_step (h : 1 < n) : fibValue n = fibValue (n - 1) + fibValue (n - 2) := by
  obtain ⟨m, rfl⟩ : ∃ m : Nat, n = m + 2 := ⟨(n - 2).toNat, by omega⟩
  rw [fibValue_of_nonneg (by omega), fibValue_of_nonneg (by omega), fibValue_of_nonneg (by omega),
    show ((m : Int) + 2).toNat = m + 2 by omega, show ((m : Int) + 2 - 1).toNat = m + 1 by omega,
    show ((m : Int) + 2 - 2).toNat = m by omega, Nat.fib_add_two, Nat.cast_add, Int.add_comm]

/-- The frames that are open at the same time. -/
def fibFrames (n : Int) : Nat := max n.toNat 1

section Fib

variable {code : List Asm} {base top : Word} {j : Nat} {s₀ s : State}

/-- The function is called with `n`, to return to line `j`, and with room for its
frames below the stack pointer. -/
structure FibCall (code : List Asm) (base top : Word) (n : Int) (j : Nat) (s : State) : Prop where
  atEntry : At code base 11 s
  argument : s.reg a0 = BitVec.ofInt 32 n
  link : s.reg ra = lineAddr base j
  stack : s.reg sp = top
  low : -2 ^ 31 ≤ n
  fits : 16 * fibFrames n ≤ 2 ^ 32
  room : ∀ x, Below top (16 * fibFrames n) x →
    (s.mem x).isSome ∧ ¬ Covers base (4 * code.length) x

/-- The function has returned to its caller. -/
structure FibReturn (code : List Asm) (base top : Word) (n : Int) (j : Nat) (s₀ s : State) :
    Prop where
  atReturn : At code base j s
  result : s.reg a0 = BitVec.ofInt 32 (fibValue n)
  stack : s.reg sp = top
  accumulator : s.reg t0 = s₀.reg t0
  memory : ChangesOnly (Below top (16 * fibFrames n)) s₀.mem s.mem

/-- Between the first lines of the function and its last ones: the frame is laid,
with the return address in it. -/
structure InFrame (code : List Asm) (base top : Word) (n : Int) (j k : Nat) (s₀ s : State) :
    Prop where
  atLine : At code base k s
  stack : s.reg sp = top - 16
  accumulator : s.reg t0 = s₀.reg t0
  link : read s.mem (top - 4) 4 = some (toBytes 4 (lineAddr base j))
  memory : ChangesOnly (Below top (16 * fibFrames n)) s₀.mem s.mem

/-- The last three lines take the frame down. -/
theorem InFrame.reaches_return {k : Nat} (h : InFrame code base top n j k s₀ s)
    (heven : base.toNat % 2 = 0)
    (hload : code[k]? = some (lw ra sp 12)) (hpop : code[k + 1]? = some (addi sp sp 16))
    (hjump : code[k + 2]? = some (jalr zero ra 0))
    (hresult : s.reg a0 = BitVec.ofInt 32 (fibValue n)) :
    Reaches ExactStep (FibReturn code base top n j s₀) s := by
  have hslot : top - 16 + BitVec.ofInt 32 12 = top - 4 := by bv_omega
  refine h.atLine.reaches_lw hload (lineAddr base j) ?_ ?_
  · rw [h.stack, hslot]
    exact h.link
  · intro hnext
    refine hnext.reaches_line hpop rfl fun hnext => ?_
    refine hnext.reaches_jalr hjump (j := j) ?_ heven fun hnext => .here ⟨hnext, ?_, ?_, ?_, ?_⟩
    · simp (disch := decide)
    · simp (disch := decide) [hresult]
    · simp (disch := decide) [h.stack]
    · simp (disch := decide) [h.accumulator]
    · simp (disch := decide) [h.memory]

/-- Lines that leave the frame alone. -/
theorem InFrame.step {k k' : Nat} {s' : State} (h : InFrame code base top n j k s₀ s)
    (hline : At code base k' s') (hstack : s'.reg sp = s.reg sp) (hkept : s'.reg t0 = s.reg t0)
    (hmem : s'.mem = s.mem) : InFrame code base top n j k' s₀ s' where
  atLine := hline
  stack := hstack.trans h.stack
  accumulator := hkept.trans h.accumulator
  link := by
    rw [hmem]
    exact h.link
  memory := by
    rw [hmem]
    exact h.memory

/-- A slot of the frame is in the room of the call. -/
theorem below_of_slot {k : Nat} {x : Word} (hx : Covers (top - BitVec.ofNat 32 k) 4 x)
    (hlow : 4 ≤ k) (hhigh : k ≤ 16) : Below top (16 * fibFrames n) x := by
  have hdepth := depth_of_covers hx hlow (by omega)
  unfold Below fibFrames
  omega

theorem FibCall.write_slot (h : FibCall code base top n j s) {k : Nat} {x : Word}
    (hx : Covers (top - BitVec.ofNat 32 k) 4 x) (hlow : 4 ≤ k) (hhigh : k ≤ 16) :
    (s.mem x).isSome ∧ ¬ Covers base (4 * code.length) x :=
  h.room x (below_of_slot hx hlow hhigh)

/-- Two slots of the frame do not overlap. -/
theorem slots_apart {i k : Nat} {x : Word} (hx : Covers (top - BitVec.ofNat 32 i) 4 x)
    (hlow : 4 ≤ i) (hapart : i + 4 ≤ k) (hhigh : k ≤ 16) :
    ¬ Covers (top - BitVec.ofNat 32 k) 4 x := by
  intro hx'
  have hdepth := depth_of_covers hx hlow (by omega)
  have hdepth' := depth_of_covers hx' (by omega) (by omega)
  omega

/-- Behind the first lines of the function, at the comparison. -/
structure Compares (code : List Asm) (base top : Word) (n : Int) (j : Nat) (s₀ s : State) : Prop
    extends InFrame code base top n j 15 s₀ s where
  argument : s.reg a0 = BitVec.ofInt 32 n
  one : s.reg t1 = 1
  saved : read s.mem (top - 8#32) 4 = some (toBytes 4 (BitVec.ofInt 32 n))

variable {count expected : Int} {stackTop : Word}

theorem read_slot (m : Store 32) (addr value : Word) :
    read (write m addr (toBytes 4 value)) addr 4 = some (toBytes 4 value) :=
  read_write_same m addr (toBytes 4 value) (by rw [toBytes_length]; decide)

theorem FibCall.reaches_compares (h : FibCall (fibRecCode count expected stackTop) base top n j s) :
    Reaches ExactStep (Compares (fibRecCode count expected stackTop) base top n j s) s := by
  have hlink : ChangesOnly (Below top (16 * fibFrames n)) s.mem
      (write s.mem (top - 4#32) (toBytes 4 (lineAddr base j))) :=
    .of_write _ (toBytes_length _ _) fun x hx => below_of_slot hx (by decide) (by decide)
  have hsaved : ChangesOnly (Covers (top - 8#32) 4)
      (write s.mem (top - 4#32) (toBytes 4 (lineAddr base j)))
      (write (write s.mem (top - 4#32) (toBytes 4 (lineAddr base j))) (top - 8#32)
        (toBytes 4 (BitVec.ofInt 32 n))) := .of_write _ (toBytes_length _ _) fun x hx => hx
  refine h.atEntry.reaches_line rfl rfl fun hnext => ?_
  refine hnext.reaches_sw rfl (top - 4#32) (lineAddr base j) ?_ ?_ ?_ ?_
  · simp (disch := decide) [h.stack]
    bv_omega
  · simp (disch := decide) [h.link]
  · exact fun x hx => h.write_slot hx (by decide) (by decide)
  intro hnext
  refine hnext.reaches_sw rfl (top - 8#32) (BitVec.ofInt 32 n) ?_ ?_ ?_ ?_
  · simp (disch := decide) [h.stack]
    bv_omega
  · simp (disch := decide) [h.argument]
  · intro x hx
    obtain ⟨hpresent, hapart⟩ := h.write_slot hx (by decide) (by decide)
    exact ⟨hlink.present x hpresent, hapart⟩
  intro hnext
  refine hnext.reaches_line rfl rfl fun hnext => .here ⟨⟨hnext, ?_, ?_, ?_, ?_⟩, ?_, ?_, ?_⟩
  · simp (disch := decide) [h.stack]
    bv_omega
  · simp (disch := decide)
  · exact hsaved.read (by decide) (read_slot _ _ _) fun x hx =>
      slots_apart hx (by decide) (by decide) (by decide)
  · exact hlink.trans (hsaved.mono fun x hx => below_of_slot hx (by decide) (by decide))
  · simp (disch := decide) [h.argument]
  · simp (disch := decide)
  · exact read_slot _ _ _

/-- The function meets its contract for the number. -/
def FibCorrect (code : List Asm) (base : Word) (n : Int) : Prop :=
  ∀ top j s, FibCall code base top n j s → Reaches ExactStep (FibReturn code base top n j s) s

/-- The region of an inner call is below the frame. -/
theorem depth_of_inner {m : Int} {x : Word} (hx : Below (top - 16#32) (16 * fibFrames m) x)
    (hframes : fibFrames m + 1 ≤ fibFrames n) (hfits : 16 * fibFrames n ≤ 2 ^ 32) :
    16 ≤ depth top x ∧ Below top (16 * fibFrames n) x := by
  have hdepth := depth_sub (k := 16) hx (by omega)
  unfold Below at hx ⊢
  have hsame : depth (top - 16#32) x = depth (top - BitVec.ofNat 32 16) x := rfl
  omega

/-- An inner call from line `k`: it returns behind that line, with the slots of
the frame as they were. -/
theorem InFrame.reaches_call {m imm : Int} {k : Nat} (h : InFrame code base top n j k s₀ s)
    (houter : FibCall code base top n j s₀) (hcorrect : FibCorrect code base m)
    (hline : code[k]? = some (jal ra imm)) (hoffset : 4 * k + imm = 4 * (11 : Nat))
    (hframes : fibFrames m + 1 ≤ fibFrames n) (hlow : 0 ≤ m)
    (hargument : s.reg a0 = BitVec.ofInt 32 m) :
    Reaches ExactStep (fun s' =>
      InFrame code base top n j (k + 1) s₀ s' ∧ s'.reg a0 = BitVec.ofInt 32 (fibValue m) ∧
        ∀ i bytes, 4 ≤ i → i ≤ 16 → read s.mem (top - BitVec.ofNat 32 i) 4 = some bytes →
          read s'.mem (top - BitVec.ofNat 32 i) 4 = some bytes) s := by
  refine h.atLine.reaches_jal hline hoffset fun hentry => ?_
  have hcall : FibCall code base (top - 16#32) m (k + 1)
      ((s.setReg ra (lineAddr base (k + 1))).goto (lineAddr base 11)) := by
    refine ⟨hentry, ?_, ?_, ?_, ?_, ?_, ?_⟩
    · simp (disch := decide) [hargument]
    · simp (disch := decide)
    · simp (disch := decide) [h.stack]
    · omega
    · have hfits := houter.fits
      omega
    · intro x hx
      obtain ⟨hpresent, hapart⟩ := houter.room x (depth_of_inner hx hframes houter.fits).2
      exact ⟨h.memory.present x hpresent, hapart⟩
  refine (hcorrect _ _ _ hcall).mono fun s' hreturn => ?_
  have hslots : ∀ i bytes, 4 ≤ i → i ≤ 16 → read s.mem (top - BitVec.ofNat 32 i) 4 = some bytes →
      read s'.mem (top - BitVec.ofNat 32 i) 4 = some bytes := by
    intro i bytes hlow hhigh hread
    refine hreturn.memory.read (by decide) hread fun x hx hin => ?_
    have hslot := depth_of_covers hx hlow (by omega)
    have hinner := depth_of_inner hin hframes houter.fits
    omega
  refine ⟨⟨hreturn.atReturn, hreturn.stack, ?_, ?_, ?_⟩, hreturn.result, hslots⟩
  · rw [hreturn.accumulator, ← h.accumulator]
    simp (disch := decide)
  · exact hslots 4 _ (by decide) (by decide) h.link
  · exact h.memory.trans
      (hreturn.memory.mono fun x hx => (depth_of_inner hx hframes houter.fits).2)

theorem FibCall.argument_toInt (h : FibCall code base top n j s) :
    (BitVec.ofInt 32 n).toInt = n := by
  have hfits := h.fits
  have hlow := h.low
  unfold fibFrames at hfits
  rw [BitVec.toInt_ofInt, Int.bmod_eq_of_le (by omega) (by omega)]

theorem Compares.reaches_base (h : Compares (fibRecCode count expected stackTop) base top n j s₀ s)
    (hcall : FibCall (fibRecCode count expected stackTop) base top n j s₀)
    (heven : base.toNat % 2 = 0) (hn : n ≤ 1) :
    Reaches ExactStep (FibReturn (fibRecCode count expected stackTop) base top n j s₀) s := by
  have hvalue := hcall.argument_toInt
  refine h.atLine.reaches_not_taken rfl ?_ fun hnext => ?_
  · simp [Rv32i.BranchOp.taken, h.one, h.argument, hvalue]
    omega
  · refine (h.toInFrame.step hnext rfl rfl rfl).reaches_return heven rfl rfl rfl ?_
    rw [Rv32i.State.next_reg, h.argument, fibValue_of_le hn]

/-- A store into a slot below the return address. -/
theorem InFrame.store {k k' i : Nat} {s' : State} {value : Word}
    (h : InFrame code base top n j k s₀ s) (hline : At code base k' s') (hreg : s'.reg = s.reg)
    (hlow : 8 ≤ i) (hhigh : i ≤ 16)
    (hmem : s'.mem = write s.mem (top - BitVec.ofNat 32 i) (toBytes 4 value)) :
    InFrame code base top n j k' s₀ s' := by
  have hstored : ChangesOnly (Covers (top - BitVec.ofNat 32 i) 4) s.mem s'.mem := by
    rw [hmem]
    exact .of_write _ (toBytes_length _ _) fun x hx => hx
  refine ⟨hline, ?_, ?_, ?_, ?_⟩
  · rw [hreg, h.stack]
  · rw [hreg, h.accumulator]
  · exact hstored.read (by decide) h.link fun x hx =>
      slots_apart (i := 4) hx (by decide) (by omega) hhigh
  · exact h.memory.trans (hstored.mono fun x hx => below_of_slot hx (by omega) hhigh)

/-- Behind the first of the two inner calls. -/
structure FirstReturned (code : List Asm) (base top : Word) (n : Int) (j : Nat) (s₀ s : State) :
    Prop extends InFrame code base top n j 21 s₀ s where
  result : s.reg a0 = BitVec.ofInt 32 (fibValue (n - 1))
  saved : read s.mem (top - 8#32) 4 = some (toBytes 4 (BitVec.ofInt 32 n))

/-- Behind the second one. -/
structure SecondReturned (code : List Asm) (base top : Word) (n : Int) (j : Nat) (s₀ s : State) :
    Prop extends InFrame code base top n j 25 s₀ s where
  result : s.reg a0 = BitVec.ofInt 32 (fibValue (n - 2))
  first : read s.mem (top - 12#32) 4 = some (toBytes 4 (BitVec.ofInt 32 (fibValue (n - 1))))

section Recurse

variable (hlarge : 1 < n)

include hlarge

theorem Compares.reaches_first (h : Compares (fibRecCode count expected stackTop) base top n j s₀ s)
    (hcall : FibCall (fibRecCode count expected stackTop) base top n j s₀)
    (hfirst : FibCorrect (fibRecCode count expected stackTop) base (n - 1)) :
    Reaches ExactStep (FirstReturned (fibRecCode count expected stackTop) base top n j s₀) s := by
  have hvalue := hcall.argument_toInt
  refine h.atLine.reaches_taken (j := 19) rfl rfl ?_ fun hnext => ?_
  · simp [Rv32i.BranchOp.taken, h.one, h.argument, hvalue]
    omega
  refine hnext.reaches_line rfl rfl fun hnext => ?_
  have hframe := h.toInFrame.step hnext (by simp (disch := decide)) (by simp (disch := decide)) rfl
  refine (hframe.reaches_call hcall hfirst rfl rfl (by unfold fibFrames; omega) (by omega) ?_).mono
    ?_
  · rw [plain_addi, Rv32i.State.next_reg, Rv32i.State.reg_setReg_self (by decide),
      Rv32i.State.goto_reg, h.argument, ← BitVec.ofInt_add]
    rfl
  · rintro s' ⟨hframe, hresult, hslots⟩
    exact ⟨hframe, hresult, hslots 8 _ (by decide) (by decide) h.saved⟩

theorem FirstReturned.reaches_second
    (h : FirstReturned (fibRecCode count expected stackTop) base top n j s₀ s)
    (hcall : FibCall (fibRecCode count expected stackTop) base top n j s₀)
    (hsecond : FibCorrect (fibRecCode count expected stackTop) base (n - 2)) :
    Reaches ExactStep (SecondReturned (fibRecCode count expected stackTop) base top n j s₀) s := by
  have hstored : ChangesOnly (Covers (top - 12#32) 4) s.mem
      (write s.mem (top - 12#32) (toBytes 4 (BitVec.ofInt 32 (fibValue (n - 1))))) :=
    .of_write _ (toBytes_length _ _) fun x hx => hx
  refine h.atLine.reaches_sw rfl (top - 12#32) _ ?_ h.result ?_ fun hnext => ?_
  · rw [h.stack]
    bv_omega
  · intro x hx
    obtain ⟨hpresent, hapart⟩ := hcall.write_slot hx (by decide) (by decide)
    exact ⟨h.memory.present x hpresent, hapart⟩
  have hframe := h.toInFrame.store (i := 12) hnext rfl (by decide) (by decide) rfl
  refine hnext.reaches_lw rfl (BitVec.ofInt 32 n) ?_ fun hnext => ?_
  · rw [hframe.stack, show top - 16 + BitVec.ofInt 32 8 = top - 8#32 by bv_omega]
    exact hstored.read (by decide) h.saved fun x hx =>
      slots_apart hx (by decide) (by decide) (by decide)
  refine hnext.reaches_line rfl rfl fun hnext => ?_
  have hframe := hframe.step hnext (by simp (disch := decide)) (by simp (disch := decide)) rfl
  refine (hframe.reaches_call hcall hsecond rfl rfl (by unfold fibFrames; omega) (by omega) ?_).mono
    ?_
  · rw [plain_addi, Rv32i.State.next_reg, Rv32i.State.reg_setReg_self (by decide),
      Rv32i.State.next_reg, Rv32i.State.reg_setReg_self (by decide), ← BitVec.ofInt_add]
    rfl
  · rintro s' ⟨hframe, hresult, hslots⟩
    exact ⟨hframe, hresult, hslots 12 _ (by decide) (by decide) (read_slot _ _ _)⟩

theorem SecondReturned.reaches_return
    (h : SecondReturned (fibRecCode count expected stackTop) base top n j s₀ s)
    (heven : base.toNat % 2 = 0) :
    Reaches ExactStep (FibReturn (fibRecCode count expected stackTop) base top n j s₀) s := by
  refine h.atLine.reaches_lw rfl (BitVec.ofInt 32 (fibValue (n - 1))) ?_ fun hnext => ?_
  · rw [h.stack, show top - 16 + BitVec.ofInt 32 4 = top - 12#32 by bv_omega]
    exact h.first
  refine hnext.reaches_line rfl rfl fun hnext => ?_
  refine (h.toInFrame.step hnext ?_ ?_ rfl).reaches_return heven rfl rfl rfl ?_
  · simp (disch := decide)
  · simp (disch := decide)
  · simp (disch := decide) [h.result, fibValue_step hlarge, BitVec.ofInt_add, BitVec.add_comm]

end Recurse

/-- The function meets its contract, by induction on the frames that it opens. -/
theorem fib_correct (heven : base.toNat % 2 = 0) (n : Int) :
    FibCorrect (fibRecCode count expected stackTop) base n := by
  induction hk : n.toNat using Nat.strongRecOn generalizing n with
  | ind k ih =>
      intro top j s hcall
      refine hcall.reaches_compares.trans fun s' hcompares => ?_
      by_cases hlarge : 1 < n
      · have hfirst := ih (n - 1).toNat (by omega) (n - 1) rfl
        have hsecond := ih (n - 2).toNat (by omega) (n - 2) rfl
        refine (hcompares.reaches_first hlarge hcall hfirst).trans fun s' hreturned => ?_
        refine (hreturned.reaches_second hlarge hcall hsecond).trans fun s' hreturned => ?_
        exact hreturned.reaches_return hlarge heven
      · exact hcompares.reaches_base hcall heven (not_lt.mp hlarge)

/-- From its first line the program comes to the exit call, with the difference
of the value from the expected one. -/
theorem fibRecCode_reaches (hstart : At (fibRecCode n expected stackTop) base 0 s)
    (heven : base.toNat % 2 = 0)
    (hroom : ∀ x, Below stackTop (16 * fibFrames n) x →
      (s.mem x).isSome ∧ ¬ Covers base (4 * (fibRecCode n expected stackTop).length) x) :
    Reaches ExactStep (ExitsWith (BitVec.ofInt 32 (fibValue n - expected))) s := by
  have hlegal : (addi a0 zero n).Legal :=
    hstart.code.legal _ (List.mem_of_getElem? (rfl : (fibRecCode n expected stackTop)[3]? = _))
  have hrange : -2 ^ 11 ≤ n ∧ n < 2 ^ 11 := hlegal
  refine hstart.reaches_plain 4 rfl fun hjump => ?_
  refine hjump.reaches_jal (j := 11) rfl rfl fun hentry => ?_
  refine (fib_correct heven n stackTop 5 _ ⟨hentry, ?_, ?_, ?_, ?_, ?_, ?_⟩).trans
    fun s' hreturn => ?_
  · simp (disch := decide) [fibRecCode]
  · simp (disch := decide)
  · simp (disch := decide) [fibRecCode, hi_add_lo]
  · omega
  · unfold fibFrames
    omega
  · exact hroom
  refine hreturn.atReturn.reaches_plain 5 rfl fun hend => ?_
  refine .here (hend.exitsWith rfl ?_ ?_)
  · simp (disch := decide) [fibRecCode]
  · have haccumulator := hreturn.accumulator
    simp (disch := decide) [fibRecCode] at haccumulator
    simp (disch := decide) [fibRecCode, haccumulator, hreturn.result]
    rw [Int.sub_eq_add_neg, BitVec.ofInt_add, BitVec.ofInt_neg, BitVec.sub_eq_add_neg]

end Fib

end Rv32imb

namespace RiscvSim

open ByteStore
open Rv32imb (fibFrames fibRecCode fibValue)

variable {H : Type} {env : Env H} {readElf : List MemByte → Option Elf}
  {softfloat : SoftFloatState} {argv : List (List MemByte)} {elf : Elf} {base : Address}

/-- The command on `fib_rec.s`: it returns how far the value is from the expected one,
for every number whose frames have room below the stack top and away from the text. The
value is the Fibonacci number, and below zero the number itself. -/
theorem main_fibRec {n expected : Int} {stackTop : Address}
    (hloads : Loads readElf argv elf (fibRecCode n expected stackTop) base 0)
    (heven : base.toNat % 2 = 0)
    (hroom : ∀ x, Below stackTop (16 * fibFrames n) x →
      ((bootState elf (.ofMain argv)).mem x).isSome ∧
        ¬ Covers base (4 * (fibRecCode n expected stackTop).length) x) :
    ∃ steps, ∀ fuel host, steps < fuel →
      (main env readElf softfloat argv fuel).run host =
        .ok (some (BitVec.ofInt 32 (fibValue n - expected))) host :=
  hloads.main_returns (Rv32imb.fibRecCode_reaches hloads.atStart heven hroom)

/-- The text of the test, with the stack of the simulator. -/
def fibRecElf : Elf := textElf 0x10000 (fibRecCode 10 55 kStackTop) [] 0 (by decide)

theorem fibRecElf_loads :
    Loads (fun _ => some fibRecElf) exitArgv fibRecElf (fibRecCode 10 55 kStackTop) 0x10000 0 :=
  textElf_loads (by decide) rfl (by decide) (by decide)

/-- The frames of the test have room in the stack of the simulator. -/
theorem fibRecElf_room : ∀ x, Below kStackTop (16 * fibFrames 10) x →
    ((bootState fibRecElf (.ofMain exitArgv)).mem x).isSome ∧
      ¬ Covers 0x10000#32 (4 * (fibRecCode 10 55 kStackTop).length) x := by
  intro x hx
  have hdepth : (0x40000000#32 - 1#32 - x).toNat < 160 := hx
  have hrange : 0x3ff00000 ≤ x.toNat ∧ x.toNat < 0x40000000 := by bv_omega
  constructor
  · exact bootState_stack_present fibRecElf_loads.boots.stack fibRecElf_loads.apart hrange.1
      hrange.2
  · intro hcovers
    have hcode : (x - 0x10000#32).toNat < 120 := hcovers
    bv_omega

theorem main_fibRec_test :
    ∃ steps, ∀ fuel host, steps < fuel →
      (main queueEnv (fun _ => some fibRecElf) ⟨0, 0⟩ exitArgv fuel).run host =
        .ok (some (BitVec.ofInt 32 (fibValue 10 - 55))) host :=
  main_fibRec fibRecElf_loads (by decide) fibRecElf_room

end RiscvSim
