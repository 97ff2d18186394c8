import RiscvSim.Sim.CsrViews
import RiscvSim.Sim.MachineInvariant

/-!
The exception flags only ever grow, and the rounding mode only ever changes, by
a CSR instruction that names them. Both are relations between two states of a
run that hold of each step and so of any stretch of it.
-/

namespace RiscvSim

open Runs SimM

variable {H : Type}

/-- The instruction about to run is a CSR instruction on one of `csrs`. -/
def Machine.AtCsr (env : Env H) (m : Machine H) (csrs : List CSR) : Prop :=
  ∃ word mnem csr, m.sim.memory.fetch env.build m.sim.ip = .ok word ∧
    decode word = some mnem ∧ mnem ∈ zicsrMnemonics ∧
    CSR.toEnum? (RvInsn.mk word).immCSR = some csr ∧ csr ∈ csrs

section Step

variable {env : Env H} {m m' : Machine H}

/-- What one iteration does to the status word, when it is not a CSR
instruction on one of `csrs`. -/
theorem Iterates.fcsr_cases (h : Iterates env m m') {csrs : List CSR}
    (hnot : ¬ m.AtCsr env csrs) :
    m'.sim.fcsr = m.sim.fcsr ∨ (∃ raised, m'.sim.fcsr = (m.sim.raise raised).fcsr) ∨
      ∃ csr value, csr ∉ csrs ∧ m'.sim.fcsr = replaceCSR m.sim.fcsr value csr := by
  obtain ⟨word, mnem, hfetch, hdecode, heffect⟩ := h.effect
  rcases heffect.fcsr_cases with hsame | hraise | ⟨csr, value, hkind, hcsr, hreplace⟩
  · exact .inl hsame
  · exact .inr (.inl hraise)
  · refine .inr (.inr ⟨csr, value, ?_, hreplace⟩)
    intro hmem
    exact hnot ⟨word, mnem, csr, hfetch, hdecode, mem_zicsrMnemonics hkind, hcsr, hmem⟩

theorem Iterates.fflags_kept (h : Iterates env m m') (hnot : ¬ m.AtCsr env [.fflags, .fcsr])
    {b : Nat} (hset : (fpStatus m.sim.fcsr).fflags.getLsbD b = true) :
    (fpStatus m'.sim.fcsr).fflags.getLsbD b = true := by
  rcases h.fcsr_cases hnot with hsame | ⟨raised, hraise⟩ | ⟨csr, value, hmem, hreplace⟩
  · rwa [hsame]
  · have hb : b < 5 := BitVec.lt_of_getLsbD hset
    simp only [fpStatus, BitVec.getLsbD_setWidth, decide_eq_true hb, Bool.true_and] at hset ⊢
    rw [hraise, RVSim.getLsbD_raise, hset, Bool.true_or]
  · cases csr with
    | fflags => simp at hmem
    | fcsr => simp at hmem
    | frm => rwa [hreplace, fpStatus_replaceCSR]

theorem Iterates.frm_kept (h : Iterates env m m') (hnot : ¬ m.AtCsr env [.frm, .fcsr]) :
    (fpStatus m'.sim.fcsr).frm = (fpStatus m.sim.fcsr).frm := by
  rcases h.fcsr_cases hnot with hsame | ⟨raised, hraise⟩ | ⟨csr, value, hmem, hreplace⟩
  · rw [hsame]
  · apply BitVec.eq_of_getLsbD_eq
    intro b hb
    have hhigh : ¬ 5 + b < 5 := by omega
    simp only [fpStatus, BitVec.getLsbD_extractLsb', hraise, RVSim.getLsbD_raise,
      decide_eq_false hhigh, Bool.false_and, Bool.or_false]
  · cases csr with
    | frm => simp at hmem
    | fcsr => simp at hmem
    | fflags => rw [hreplace, fpStatus_replaceCSR, FpCsr.Status.write]

end Step

/-- Between two states of a run, no flag is lost unless a CSR instruction on
`fflags` or `fcsr` ran between them, and the rounding mode is the same unless
one on `frm` or `fcsr` did. -/
theorem flags_sticky_frm_stable (env : Env H) {trace : Nat → Machine H} {n : Nat}
    (hrun : IsRun (Iterates env) trace n) {i j : Nat} (hij : i ≤ j) (hj : j ≤ n) :
    ((∀ k, i ≤ k → k < j → ¬ (trace k).AtCsr env [.fflags, .fcsr]) →
      ∀ b, (fpStatus (trace i).sim.fcsr).fflags.getLsbD b = true →
        (fpStatus (trace j).sim.fcsr).fflags.getLsbD b = true) ∧
    ((∀ k, i ≤ k → k < j → ¬ (trace k).AtCsr env [.frm, .fcsr]) →
      (fpStatus (trace j).sim.fcsr).frm = (fpStatus (trace i).sim.fcsr).frm) := by
  constructor
  · intro hnot b
    refine hrun.relates (R := fun m m' : Machine H =>
      (fpStatus m.sim.fcsr).fflags.getLsbD b = true →
        (fpStatus m'.sim.fcsr).fflags.getLsbD b = true) (fun _ => id) (fun h h' => h' ∘ h) hij hj ?_
    intro k hik hkj hstep
    exact hstep.fflags_kept (hnot k hik hkj)
  · intro hnot
    refine hrun.relates (R := fun m m' : Machine H =>
      (fpStatus m'.sim.fcsr).frm = (fpStatus m.sim.fcsr).frm) (fun _ => rfl)
      (fun h h' => h'.trans h) hij hj ?_
    intro k hik hkj hstep
    exact hstep.frm_kept (hnot k hik hkj)

/-- `csrrwi x0, frm, 1`. -/
def towardsZero : FpCsr.Insn := ⟨.replace, .imm 1, .frm, 0⟩

/-- The conversion is followed by a write of the rounding mode. -/
def stickyMachine : Machine (List MemByte) :=
  (convertingMachine softfloat_round_near_even).mapSim fun sim =>
    { sim with
      memory := ⟨[⟨0x1000, 0x1008, LittleEndian.toBytes 4 convertWord ++
        LittleEndian.toBytes 4 towardsZero.word, true, false, true⟩]⟩ }

def stickyTrace : Nat → Machine (List MemByte)
  | 0 => stickyMachine
  | k + 1 =>
      match (executeInsn queueEnv).run (stickyTrace k) with
      | .ok _ m => m
      | .error _ m => m

theorem stickyTrace_isRun : IsRun (Iterates queueEnv) stickyTrace 2 := by
  intro k hk
  match k with
  | 0 => exact ⟨rfl, rfl⟩
  | 1 => exact ⟨rfl, rfl⟩

/-- The conversion was inexact, and still has been behind the second step. -/
theorem flags_sticky_frm_stable_inexact :
    (fpStatus (stickyTrace 2).sim.fcsr).fflags.getLsbD 0 = true := by
  have hfetch : (stickyTrace 1).sim.memory.fetch queueEnv.build (stickyTrace 1).sim.ip =
      .ok towardsZero.word := rfl
  have hview : CSR.toEnum? (RvInsn.mk towardsZero.word).immCSR = some .frm := by
    decide
  refine (flags_sticky_frm_stable queueEnv stickyTrace_isRun (i := 1) (j := 2) (by omega)
    (by omega)).1 ?_ 0 rfl
  intro k hone htwo
  obtain rfl : k = 1 := by omega
  rintro ⟨word, mnem, csr, hfetched, _, _, hcsr, hmem⟩
  rw [hfetch] at hfetched
  cases hfetched
  rw [hview] at hcsr
  cases hcsr
  simp at hmem

end RiscvSim
