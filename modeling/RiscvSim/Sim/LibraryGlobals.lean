import RiscvSim.Sim.HostCalls
import RiscvSim.Sim.ReservedModes

/-!
The two globals of the floating-point library. They carry nothing from one
instruction to the next, except to an instruction that runs under the mode that
was left: a conversion from an integer, which selects none, and an instruction
that selects a mode that the library has no name for.
-/

namespace RiscvSim

open Runs SimM Simulation

variable {H : Type} {env : Env H} {m m' : Machine H} {word : UndecodedInsn} {mnem : InsnMnemonic}

/-- The same machine but for the globals of the library. -/
structure Machine.SameButGlobals (m m' : Machine H) : Prop where
  sim : m'.sim = m.sim
  host : m'.host = m.host

/-- The operation runs under the mode that an earlier instruction left. -/
def RoundingInsn.UsesLeftMode (rounding : RoundingInsn) (sim : RVSim) (insn : RvInsn) : Prop :=
  rounding = .FCVT_S_W ∨ rounding = .FCVT_S_WU ∨ (sim.selectedRM insn).softfloat? = none

/-- The next instruction is one of these. -/
def Machine.UsesLeftMode (env : Env H) (m : Machine H) : Prop :=
  ∃ word rounding, m.sim.memory.fetch env.build m.sim.ip = .ok word ∧
    decode word = some (RoundingInsn.mnem rounding) ∧ rounding.UsesLeftMode m.sim ⟨word⟩

theorem Machine.sameButGlobals_iff :
    m.SameButGlobals m' ↔ m.Matches Eq (fun _ _ => True) Eq m' := by
  constructor
  · rintro ⟨hsim, hhost⟩
    obtain ⟨sim, softfloat, host⟩ := m'
    obtain rfl := hsim
    obtain rfl := hhost
    exact ⟨m.sim.memory, softfloat, m.host, rfl, trivial, rfl⟩
  · rintro ⟨_, _, _, rfl, _, rfl⟩
    exact ⟨rfl, rfl⟩

section Step

theorem Machine.SameButGlobals.afterRounding (hsame : m.SameButGlobals m') (insn : RvInsn)
    (mode mode' : BitVec 8) (res : Rounded) :
    (m.afterRounding insn mode res).SameButGlobals (m'.afterRounding insn mode' res) :=
  ⟨congrArg (fun sim => sim.retire insn res) hsame.sim, hsame.host⟩

/-- An operation under a mode of its own does the same from both machines. -/
theorem RoundingInsn.sameButGlobals {rounding : RoundingInsn} (hsame : m.SameButGlobals m')
    (hmode : ¬ rounding.UsesLeftMode m.sim ⟨word⟩) :
    SameEnd Machine.SameButGlobals ((getInsnCallback env rounding.mnem word).run m)
      ((getInsnCallback env rounding.mnem word).run m') := by
  obtain ⟨hW, hWU, hnamed⟩ : rounding ≠ .FCVT_S_W ∧ rounding ≠ .FCVT_S_WU ∧
      (m.sim.selectedRM ⟨word⟩).softfloat? ≠ none := by
    simpa [UsesLeftMode, not_or] using hmode
  obtain ⟨mode, hselected⟩ := Option.ne_none_iff_exists'.mp hnamed
  have hselected' : (m'.sim.selectedRM ⟨word⟩).softfloat? = some mode := by
    rw [hsame.sim]
    exact hselected
  rw [rounding.callback_run hselected, rounding.callback_run hselected']
  dsimp only
  rw [usedMode_eq (.inl ⟨hW, hWU⟩), usedMode_eq (.inl ⟨hW, hWU⟩), hsame.sim]
  exact .ok rfl (hsame.afterRounding _ _ _ _)

/-- A comparison rounds nothing. -/
theorem comparison_sameButGlobals (hsame : m.SameButGlobals m')
    {op : FRegister → FRegister → Bool × BitVec 8} :
    SameEnd Machine.SameButGlobals
      ((executeRRRCmpOp env word fun a b => callSoftFloat fun _ => op a b).run m)
      ((executeRRRCmpOp env word fun a b => callSoftFloat fun _ => op a b).run m') := by
  rw [executeRRRCmpOp_run fun _ _ => callSoftFloat_calls _,
    executeRRRCmpOp_run fun _ _ => callSoftFloat_calls _]
  dsimp only
  rw [hsame.sim]
  exact .ok rfl (hsame.afterRounding _ _ _ _)

theorem callback_sameButGlobals (hsame : m.SameButGlobals m')
    (hmode : ∀ rounding : RoundingInsn, rounding.mnem = mnem →
      ¬ rounding.UsesLeftMode m.sim ⟨word⟩) :
    SameEnd Machine.SameButGlobals ((getInsnCallback env mnem word).run m)
      ((getInsnCallback env mnem word).run m') := by
  by_cases hflags : mnem.RaisesFlags
  · rcases flagged_cases hflags with ⟨rounding, rfl⟩ | hcompare
    · exact rounding.sameButGlobals hsame (hmode rounding rfl)
    · simp only [List.mem_cons, List.not_mem_nil, or_false] at hcompare
      rcases hcompare with rfl | rfl | rfl
      · exact comparison_sameButGlobals hsame
      · exact comparison_sameButGlobals hsame
      · exact comparison_sameButGlobals hsame
  · have hlock := lockStep_same env.build
    have hstep : CallbackInStep (fun _ => False) Eq (fun _ _ => True) Eq env env.build env.hostIO
        word mnem := by
      by_cases hecall : mnem = .ECALL
      · subst hecall
        exact ecall_inStep hlock word (.refl env.hostIO)
      · exact quiet_inStep hlock word (fun _ _ _ _ => trivial) hflags hecall
    have hends := hstep m m' (Machine.sameButGlobals_iff.mp hsame)
    exact SameEnd.mono (fun _ _ => Machine.sameButGlobals_iff.mpr) hends

theorem executeInsn_sameButGlobals (hsame : m.SameButGlobals m') (hmode : ¬ m.UsesLeftMode env) :
    SameEnd Machine.SameButGlobals ((executeInsn env).run m) ((executeInsn env).run m') := by
  cases hfetch : m.sim.memory.fetch env.build m.sim.ip with
  | error fault =>
      have hfetch' : m'.sim.memory.fetch env.build m'.sim.ip = .error fault := by
        rw [hsame.sim]
        exact hfetch
      simp only [executeInsn, EStateM.run_bind, run_getMem, run_getIp, hfetch, hfetch',
        run_lift_error]
      exact .error fault hsame
  | ok word =>
      have hfetch' : m'.sim.memory.fetch env.build m'.sim.ip = .ok word := by
        rw [hsame.sim]
        exact hfetch
      cases hdecode : decode word with
      | none =>
          rw [executeInsn_unknown env hfetch hdecode, executeInsn_unknown env hfetch' hdecode]
          exact .error _ hsame
      | some mnem =>
          rw [executeInsn_run env hfetch hdecode, executeInsn_run env hfetch' hdecode]
          apply callback_sameButGlobals hsame
          rintro rounding rfl hleft
          exact hmode ⟨word, rounding, hfetch, hdecode, hleft⟩

end Step

theorem execute_stopped_sameButGlobals (env : Env H) (fuel : Nat) (hsame : m.SameButGlobals m')
    (hstop : m.sim.shouldStop = true) :
    SameEnd Machine.SameButGlobals ((execute env fuel).run m) ((execute env fuel).run m') := by
  have hstop' : m'.sim.shouldStop = true := by
    rw [hsame.sim]
    exact hstop
  rw [execute_stopped_run env hstop, execute_stopped_run env hstop', hsame.sim]
  exact .ok rfl hsame

/-- As long as a run comes to no such instruction, the globals make no difference
to it. -/
theorem execute_sameButGlobals (env : Env H) {fuel : Nat} (hsame : m.SameButGlobals m')
    (hmode : ∀ n last, n < fuel → Leads (Iterates env) n m last → last.sim.shouldStop = false →
      ¬ last.UsesLeftMode env) :
    SameEnd Machine.SameButGlobals ((execute env fuel).run m) ((execute env fuel).run m') := by
  induction fuel generalizing m m' with
  | zero =>
      cases hstop : m.sim.shouldStop with
      | true => exact execute_stopped_sameButGlobals env 0 hsame hstop
      | false =>
          rw [execute_zero_run env hstop, execute_zero_run env (hsame.sim ▸ hstop)]
          exact .ok rfl hsame
  | succ fuel ih =>
      cases hstop : m.sim.shouldStop with
      | true => exact execute_stopped_sameButGlobals env (fuel + 1) hsame hstop
      | false =>
          have hstep := executeInsn_sameButGlobals hsame
            (hmode 0 m (Nat.succ_pos fuel) (leads_zero_iff.mpr rfl) hstop)
          rw [execute_succ_run env hstop, execute_succ_run env (hsame.sim ▸ hstop),
            EStateM.run_bind, EStateM.run_bind]
          generalize hrun : (executeInsn env).run m = first at hstep ⊢
          generalize (executeInsn env).run m' = second at hstep ⊢
          cases hstep with
          | ok _ hnext =>
              apply ih hnext
              intro n last hn hlead
              exact hmode (n + 1) last (by omega) (leads_succ_iff.mpr ⟨_, ⟨hstop, hrun⟩, hlead⟩)
          | error fault hend => exact .error fault hend
          | excused h => exact h.elim

/-- A division that rounds to the nearest, whatever mode was left. -/
theorem execute_sameButGlobals_divide :
    SameEnd Machine.SameButGlobals
      ((execute (thirdEnv .release) 1).run (dividingMachine 0 0 softfloat_round_min))
      ((execute (thirdEnv .release) 1).run (dividingMachine 0 0 softfloat_round_max)) := by
  apply execute_sameButGlobals (thirdEnv .release) ⟨rfl, rfl⟩
  intro n last hn hlead _
  obtain rfl : n = 0 := by omega
  obtain rfl := leads_zero_iff.mp hlead
  rintro ⟨word, rounding, hfetch, hdecode, hleft⟩
  have hword : (dividingMachine 0 0 softfloat_round_min).sim.memory.fetch .release 0x1000 =
      .ok (divideWord 0) := by decide
  obtain rfl : divideWord 0 = word := Except.ok.inj (hword.symm.trans hfetch)
  have hdivide : decode (divideWord 0) = some .FDIV_S := decode_encode _ _
  have hmnem : InsnMnemonic.FDIV_S = rounding.mnem :=
    Option.some.inj (hdivide.symm.trans hdecode)
  have hselected : ((dividingMachine 0 0 softfloat_round_min).sim.selectedRM
      ⟨divideWord 0⟩).softfloat? ≠ none := by decide
  rcases hleft with rfl | rfl | hnone
  · cases hmnem
  · cases hmnem
  · exact hselected hnone

end RiscvSim
