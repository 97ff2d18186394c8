import RiscvSim.Sim.ExecuteEnds
import RiscvSim.Sim.ExtensionFrames

/-!
What a whole run leaves alone. A register, the status word or a byte of the guest
memory is the same at the end of a run as at its start, unless one of the
instructions of the run names it: as its destination, as a byte of a store, or as
a byte that a read call fills.
-/

namespace RiscvSim

open ByteStore Outcomes Runs SimM

variable {H : Type}

section Copy

variable (build : Build)

theorem covers_offset {addr x : Address} {i n : Nat} (hi : i < n)
    (h : Covers (addr + BitVec.ofNat 32 i) 1 x) : Covers addr n x := by
  have hzero : (x - (addr + BitVec.ofNat 32 i)).toNat = 0 := Nat.lt_one_iff.mp h
  have hdist : x - addr = BitVec.ofNat 32 i := by bv_omega
  unfold Covers
  rw [hdist, BitVec.toNat_ofNat]
  exact Nat.lt_of_le_of_lt (Nat.mod_le _ _) hi

theorem Memory.Keeps.refl (mem : Memory) (addr : Address) (n : Nat) : mem.Keeps addr n mem :=
  ⟨rfl, fun _ _ => rfl⟩

theorem Memory.Keeps.trans {mem mem' mem'' : Memory} {addr : Address} {n : Nat}
    (h : mem.Keeps addr n mem') (h' : mem'.Keeps addr n mem'') : mem.Keeps addr n mem'' :=
  ⟨h'.layout.trans h.layout, fun x hx => (h'.byteAt x hx).trans (h.byteAt x hx)⟩

/-- The loop of the read call, byte by byte. -/
theorem Memory.copyHostToGuest_keeps (mem : Memory) (addr : Address) (buf : List MemByte)
    (size : Nat) :
    Returns (mem.copyHostToGuest build addr buf size) (mem.Keeps addr size) := by
  unfold copyHostToGuest
  apply returns_foldlM_of_mem (R := fun mem mem' : Memory => mem.Keeps addr size mem')
  · intro mem
    exact .refl mem addr size
  · exact Keeps.trans
  · intro mem i hi
    split
    · intro mem' hstore
      have hkeeps := mem.storeU8_keeps build _ _ mem' hstore
      refine ⟨hkeeps.layout, fun x hx => hkeeps.byteAt x ?_⟩
      exact fun h => hx (covers_offset (List.mem_range.mp hi) h)
    · exact returns_error

end Copy

section Locations

/-- The parts of the state that an instruction can name. -/
inductive Location where
  | xReg (i : RegIndex)
  | fReg (i : RegIndex)
  | fcsr
  | byte (addr : Address)

/-- The part is the same in both states. -/
def Location.Same (sim sim' : RVSim) : Location → Prop
  | .xReg i => sim'.getXReg i = sim.getXReg i
  | .fReg i => sim'.getFReg i = sim.getFReg i
  | .fcsr => sim'.fcsr = sim.fcsr
  | .byte addr => sim'.memory.byteAt addr = sim.memory.byteAt addr

theorem Location.Same.refl (sim : RVSim) (loc : Location) : loc.Same sim sim := by
  cases loc <;> rfl

theorem Location.Same.trans {sim sim' sim'' : RVSim} {loc : Location} (h : loc.Same sim sim')
    (h' : loc.Same sim' sim'') : loc.Same sim sim'' := by
  cases loc <;> exact Eq.trans h' h

/-- The instruction names the part. -/
def Names (env : Env H) (m : Machine H) (insn : RvInsn) (mnem : InsnMnemonic) :
    Location → Prop
  | .xReg i =>
      i ≠ XRegAlias.zero ∧
        ((i = insn.rdIndex ∧
            (mnem.effectKind ∈ [.xReg, .flaggedX, .csr] ∨ mnem ∈ [.JAL, .JALR])) ∨
          (i = XRegAlias.a0 ∧ mnem = .ECALL ∧ m.sim.getXReg XRegAlias.a7 ∈ [63, 64]))
  | .fReg i => i = insn.rdIndex ∧ mnem.effectKind ∈ [.fReg, .flaggedF]
  | .fcsr => mnem.effectKind ∈ [.flaggedX, .flaggedF, .csr]
  | .byte addr =>
      (∃ n, mnem.effectKind = .store n ∧
        Covers (m.sim.getXReg insn.rs1Index + insn.immS) n addr) ∨
      (mnem = .ECALL ∧ m.sim.getXReg XRegAlias.a7 = 63 ∧
        Covers m.sim.guestBufPtr (m.hostRead env).1.toNat addr)

namespace Location

variable {sim : RVSim} {loc : Location}

theorem same_setXReg {rd : RegIndex} (value : Register)
    (h : ∀ i, loc = .xReg i → i ≠ XRegAlias.zero → i ≠ rd) :
    loc.Same sim (sim.setXReg rd value) := by
  cases loc with
  | xReg i =>
      change (sim.setXReg rd value).getXReg i = sim.getXReg i
      rw [RVSim.getXReg_setXReg]
      by_cases hzero : i = XRegAlias.zero
      · rw [if_pos hzero, hzero, RVSim.getXReg_zero]
      · rw [if_neg hzero, if_neg (h i rfl hzero)]
  | fReg i => exact congrArg (·[i]) (sim.setXReg_fregs rd value)
  | fcsr => exact sim.setXReg_fcsr rd value
  | byte addr => exact congrArg (Memory.byteAt · addr) (sim.setXReg_memory rd value)

theorem same_setFReg {rd : RegIndex} (value : FRegister) (h : loc ≠ .fReg rd) :
    loc.Same sim (sim.setFReg rd value) := by
  cases loc with
  | fReg i =>
      have hne : i ≠ rd := fun heq => h (congrArg Location.fReg heq)
      exact (sim.getFReg_setFReg rd i value).trans (if_neg hne)
  | xReg i | fcsr | byte addr => rfl

theorem same_setIp (ip : Address) : loc.Same sim { sim with ip } := by
  cases loc <;> rfl

theorem same_step : loc.Same sim sim.step := same_setIp _

theorem same_setFcsr (fcsr : Register) (h : loc ≠ .fcsr) : loc.Same sim { sim with fcsr } := by
  cases loc with
  | fcsr => exact absurd rfl h
  | xReg i | fReg i | byte addr => rfl

theorem same_setStop (shouldStop : Bool) : loc.Same sim { sim with shouldStop } := by
  cases loc <;> rfl

theorem same_setMem {memory : Memory} {addr : Address} {n : Nat}
    (hkeeps : sim.memory.Keeps addr n memory) (h : ∀ x, loc = .byte x → ¬ Covers addr n x) :
    loc.Same sim { sim with memory } := by
  cases loc with
  | byte x => exact hkeeps.byteAt x (h x rfl)
  | xReg i | fReg i | fcsr => rfl

end Location

end Locations

section Step

variable {env : Env H} {m : Machine H} {word : UndecodedInsn} {mnem : InsnMnemonic}
  {loc : Location}

/-- The instructions that are neither jumps nor system calls, by their effects. -/
theorem Effect.same {kind : EffectKind} {sim' : RVSim} (heffect : Effect ⟨word⟩ m.sim kind sim')
    (hkind : mnem.effectKind = kind) (hjump : kind ≠ .jump) (hsyscall : kind ≠ .syscall)
    (hnames : ¬ Names env m ⟨word⟩ mnem loc) : loc.Same m.sim sim' := by
  have hrd (hmem : kind ∈ [.xReg, .flaggedX, .csr]) : ∀ i, loc = .xReg i →
      i ≠ XRegAlias.zero → i ≠ (RvInsn.mk word).rdIndex := by
    rintro i rfl hzero hi
    exact hnames ⟨hzero, .inl ⟨hi, .inl (hkind ▸ hmem)⟩⟩
  have hfrd (hmem : kind ∈ [.fReg, .flaggedF]) : loc ≠ .fReg (RvInsn.mk word).rdIndex := by
    rintro rfl
    exact hnames ⟨rfl, hkind ▸ hmem⟩
  have hfcsr (hmem : kind ∈ [.flaggedX, .flaggedF, .csr]) : loc ≠ .fcsr := by
    rintro rfl
    have hmnem : mnem.effectKind ∈ [.flaggedX, .flaggedF, .csr] := by
      rw [hkind]
      exact hmem
    exact hnames hmnem
  cases heffect with
  | xReg value => exact (Location.same_setXReg value (hrd (by simp))).trans Location.same_step
  | fReg value => exact (Location.same_setFReg value (hfrd (by simp))).trans Location.same_step
  | flaggedX value raised =>
      refine (Location.same_setXReg value (hrd (by simp))).trans ?_
      exact (Location.same_setFcsr _ (hfcsr (by simp))).trans Location.same_step
  | flaggedF value raised =>
      refine (Location.same_setFReg value (hfrd (by simp))).trans ?_
      exact (Location.same_setFcsr _ (hfcsr (by simp))).trans Location.same_step
  | @csr csr hcsr value old =>
      refine (Location.same_setFcsr (replaceCSR m.sim.fcsr value csr) (hfcsr (by simp))).trans ?_
      exact (Location.same_setXReg old (hrd (by simp))).trans Location.same_step
  | unknownCsr hcsr => exact (Location.same_setXReg 0 (hrd (by simp))).trans Location.same_step
  | @store n memory hkeeps =>
      refine (Location.same_setMem hkeeps ?_).trans Location.same_step
      rintro x rfl hcovers
      exact hnames (.inl ⟨n, hkind, hcovers⟩)
  | nothing => exact Location.same_step
  | branch | fallThrough | jal | jalr => exact absurd rfl hjump
  | exit | unknownSyscall | transfer => exact absurd rfl hsyscall

theorem jump_same (h : mnem.effectKind = .jump) (hnames : ¬ Names env m ⟨word⟩ mnem loc) :
    Ends (getInsnCallback env mnem word) m fun _ m' => loc.Same m.sim m'.sim := by
  have hlinks (hmem : mnem ∈ [.JAL, .JALR]) : ∀ i, loc = .xReg i →
      i ≠ XRegAlias.zero → i ≠ (RvInsn.mk word).rdIndex := by
    rintro i rfl hzero hi
    exact hnames ⟨hzero, .inl ⟨hi, .inr hmem⟩⟩
  cases mnem with
  | BEQ | BNE | BLT | BGE | BLTU | BGEU =>
      simp only [getInsnCallback, callbackBEQ, callbackBNE, callbackBLT, callbackBGE,
        callbackBLTU, callbackBGEU, executeBranch, ends_bind, ends_getXReg]
      split
      · exact ends_bind.mpr (ends_getIp.mpr (ends_setIp.mpr (Location.same_setIp _)))
      · exact ends_step.mpr Location.same_step
  | JAL =>
      simp only [getInsnCallback, callbackJAL, ends_bind, ends_getIp, ends_setXReg, ends_setIp]
      exact (Location.same_setXReg _ (hlinks (by simp))).trans (Location.same_setIp _)
  | JALR =>
      simp only [getInsnCallback, callbackJALR, ends_bind, ends_getIp, ends_getXReg,
        ends_setXReg, ends_setIp]
      exact (Location.same_setIp _).trans (Location.same_setXReg _ (hlinks (by simp)))
  | _ => contradiction

theorem SyscallId.toEnum?_eq_some {value : Register} {id : SyscallId}
    (h : SyscallId.toEnum? value = some id) :
    value = match id with | .kRead => 63 | .kWrite => 64 | .kExit => 93 := by
  unfold toEnum? at h
  split at h
  · cases h
    assumption
  · split at h
    · cases h
      assumption
    · split at h
      · cases h
        assumption
      · cases h

theorem syscall_same (hnames : ¬ Names env m ⟨word⟩ .ECALL loc) :
    Ends (callbackECALL env word) m fun _ m' => loc.Same m.sim m'.sim := by
  have ha0 (hid : m.sim.getXReg XRegAlias.a7 ∈ [63, 64]) : ∀ i, loc = .xReg i →
      i ≠ XRegAlias.zero → i ≠ XRegAlias.a0 := by
    rintro i rfl hzero hi
    exact hnames ⟨hzero, .inr ⟨hi, rfl, hid⟩⟩
  simp only [callbackECALL, syscallHandler, ends_bind, ends_getXReg]
  cases hid : SyscallId.toEnum? (m.sim.getXReg XRegAlias.a7) with
  | none => exact ends_lift.mpr fun _ _ => ends_step.mpr Location.same_step
  | some id =>
      have ha7 := SyscallId.toEnum?_eq_some hid
      cases id with
      | kExit =>
          refine ends_modifySim.mpr (ends_step.mpr ?_)
          exact (Location.same_setStop true).trans Location.same_step
      | kRead =>
          have hread := ha0 (by simp [ha7])
          simp only [ends_bind, ends_getXReg, ends_get, ends_modify]
          split
          · simp only [ends_bind, ends_getMem, ends_lift, ends_setMem, ends_setXReg, ends_step]
            intro memory hcopy
            have hkeeps := Memory.copyHostToGuest_keeps _ _ _ _ _ memory hcopy
            refine (Location.same_setMem hkeeps ?_).trans
              ((Location.same_setXReg _ hread).trans Location.same_step)
            rintro x rfl hcovers
            exact hnames (.inr ⟨rfl, ha7, hcovers⟩)
          · simp only [ends_setXReg, ends_step]
            exact (Location.same_setXReg _ hread).trans Location.same_step
      | kWrite =>
          have hwrite := ha0 (by simp [ha7])
          simp only [ends_bind, ends_getXReg, ends_getMem, ends_lift, ends_get, ends_modify,
            ends_setXReg, ends_step]
          intro bytes _
          exact (Location.same_setXReg _ hwrite).trans Location.same_step

/-- The instruction that the next iteration fetches names the part. -/
def NextNames (env : Env H) (m : Machine H) (loc : Location) : Prop :=
  ∃ word mnem, m.sim.memory.fetch env.build m.sim.ip = .ok word ∧ decode word = some mnem ∧
    Names env m ⟨word⟩ mnem loc

theorem Iterates.same {m' : Machine H} (hstep : Iterates env m m')
    (hnames : ¬ NextNames env m loc) : loc.Same m.sim m'.sim := by
  obtain ⟨word, mnem, hfetch, hdecode, heffect⟩ := hstep.effect
  have hnot : ¬ Names env m ⟨word⟩ mnem loc := fun h => hnames ⟨word, mnem, hfetch, hdecode, h⟩
  have hrun := hstep.2
  rw [executeInsn_run env hfetch hdecode] at hrun
  by_cases hjump : mnem.effectKind = .jump
  · exact jump_same hjump hnot () m' hrun
  · by_cases hsyscall : mnem.effectKind = .syscall
    · have hmnem : mnem = .ECALL := by
        cases mnem <;> first | rfl | contradiction
      subst hmnem
      exact syscall_same hnot () m' hrun
    · exact heffect.same rfl hjump hsyscall hnot

/-- What none of the instructions that a call of `Execute` runs names is the same in the
end. -/
theorem execute_frame {fuel : Nat} {rc : Option IRegister} {m' : Machine H}
    (hrun : (execute env fuel).run m = .ok rc m')
    (hnames : ∀ n last, n < fuel → Leads (Iterates env) n m last → last.sim.shouldStop = false →
      ¬ NextNames env last loc) : loc.Same m.sim m'.sim := by
  obtain ⟨trace, n, hn, hsteps, rfl, rfl⟩ := execute_ends env fuel m rc m' hrun
  refine hsteps.relates (R := fun m m' => loc.Same m.sim m'.sim) (fun m => .refl m.sim loc) ?_
    (Nat.zero_le n) (Nat.le_refl n) ?_
  · exact fun h h' => h.trans h'
  · intro k _ hk hstep
    have hlead : Leads (Iterates env) k (trace 0) (trace k) :=
      ⟨trace, fun i hi => hsteps i (by omega), rfl, rfl⟩
    exact hstep.same (hnames k (trace k) (by omega) hlead hstep.1)

/-- A read of three bytes leaves the byte below the buffer. -/
theorem execute_frame_below :
    ∃ m', (execute queueEnv 1).run readingMachine = .ok none m' ∧
      (Location.byte 0x2000).Same readingMachine.sim m'.sim := by
  refine ⟨_, rfl, execute_frame (rfl : (execute queueEnv 1).run readingMachine = _) ?_⟩
  intro n last hn hlead _
  obtain rfl : n = 0 := by omega
  obtain rfl := leads_zero_iff.mp hlead
  rintro ⟨word, mnem, hfetch, hdecode, hnames⟩
  have hword : readingMachine.sim.memory.fetch queueEnv.build readingMachine.sim.ip =
      .ok ecallWord := rfl
  obtain rfl : ecallWord = word := Except.ok.inj (hword.symm.trans hfetch)
  obtain rfl : .ECALL = mnem := Option.some.inj (decode_ecallWord.symm.trans hdecode)
  rcases hnames with ⟨_, hstore, _⟩ | ⟨_, _, hcovers⟩
  · cases hstore
  · exact absurd hcovers (by decide)

end Step

end RiscvSim
