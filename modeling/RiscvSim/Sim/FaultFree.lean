import RiscvSim.Lib.Completion
import RiscvSim.Sim.ExecuteEnds
import RiscvSim.Sim.ExtensionFrames
import RiscvSim.Sim.ReservedModes

/-!
When a run of `Execute` is free of faults. For every instruction the condition
under which its callback completes is stated on the state before it; a run of
any length ends without an assertion, an exception or undefined behaviour if and
only if each state that it comes to meets the condition of its instruction.
-/

namespace RiscvSim

open Completion LittleEndian Outcomes Runs SimM

variable {H : Type}

section Accesses

/-- The first segment that contains the address has the data of the access; an
access outside all segments is one that no assertion catches. -/
def Memory.Serves (mem : Memory) (build : Build) (addr : Address) (bytes : Nat) : Prop :=
  match mem.memory.find? (isAddrInSegment addr) with
  | some segm => segm.offset addr + bytes ≤ segm.data.length
  | none => build = .release

variable (build : Build)

theorem assert_succeeds_iff {text : String} :
    Succeeds (build.assert false text) ↔ build = .release := by
  cases build with
  | debug => exact iff_of_false (not_succeeds_error _) (by decide)
  | release => exact iff_of_true (succeeds_ok ()) rfl

theorem Memory.serves_load (mem : Memory) (w : Nat) (addr : Address) :
    Succeeds (loadFrom build w addr mem.memory) ↔ mem.Serves build addr (w / 8) := by
  unfold Serves
  cases hfind : mem.memory.find? (isAddrInSegment addr) with
  | none =>
      rw [loadFrom_none build w (by simpa using hfind), succeeds_map_iff]
      exact assert_succeeds_iff build
  | some segm =>
      obtain ⟨pre, post, hsplit, hpre, hin⟩ := split_of_find? hfind
      rw [hsplit, loadFrom_append build w hpre hin, succeeds_map_iff]
      exact ErrorsIn.exists_guard_eq_ok

theorem Memory.serves_store (mem : Memory) {w : Nat} (addr : Address) (val : BitVec w) :
    Succeeds (storeTo build addr val mem.memory) ↔ mem.Serves build addr (w / 8) := by
  unfold Serves
  cases hfind : mem.memory.find? (isAddrInSegment addr) with
  | none =>
      rw [storeTo_none build val (by simpa using hfind), succeeds_map_iff]
      exact assert_succeeds_iff build
  | some segm =>
      obtain ⟨pre, post, hsplit, hpre, hin⟩ := split_of_find? hfind
      rw [hsplit, storeTo_append build val hpre hin, succeeds_map_iff]
      refine ErrorsIn.exists_guard_eq_ok.trans ?_
      rw [toBytes_length]

theorem MemorySegm.offset_of_layout {segm segm' : MemorySegm} (h : segm'.layout = segm.layout)
    (addr : Address) : segm'.offset addr = segm.offset addr :=
  congrArg (fun layout : SegmLayout => (addr - layout.startAddr).toNat) h

theorem isAddrInSegment_of_layout {segm segm' : MemorySegm} (h : segm'.layout = segm.layout)
    (addr : Address) : isAddrInSegment addr segm' = isAddrInSegment addr segm :=
  congrArg (fun layout : SegmLayout => layout.startAddr ≤ addr && addr < layout.endAddr) h

/-- Which accesses complete is a matter of the segment table. -/
theorem Memory.serves_of_layout {mem mem' : Memory} (h : mem'.layout = mem.layout) (addr : Address)
    (bytes : Nat) : mem'.Serves build addr bytes ↔ mem.Serves build addr bytes := by
  obtain ⟨segms⟩ := mem
  obtain ⟨segms'⟩ := mem'
  unfold Serves
  unfold layout at h
  induction segms' generalizing segms with
  | nil =>
      obtain rfl : segms = [] := List.map_eq_nil_iff.mp h.symm
      rfl
  | cons segm' rest' ih =>
      cases segms with
      | nil => cases h
      | cons segm rest =>
          obtain ⟨hhead, htail⟩ := List.cons.inj h
          simp only [List.find?_cons, isAddrInSegment_of_layout hhead]
          cases isAddrInSegment addr segm with
          | false => exact ih rest htail
          | true =>
              have hsize : segm'.data.length = segm.data.length :=
                congrArg SegmLayout.size hhead
              simp only [MemorySegm.offset_of_layout hhead, hsize]

theorem Memory.serves_copyGuestToHost (mem : Memory) (addr : Address) (size : Nat) :
    Succeeds (mem.copyGuestToHost build addr size) ↔
      ∀ i < size, mem.Serves build (addr + BitVec.ofNat 32 i) 1 := by
  unfold copyGuestToHost
  rw [succeeds_mapM_iff]
  constructor
  · intro h i hi
    exact (mem.serves_load build 8 _).mp (h i (List.mem_range.mpr hi))
  · intro h i hi
    exact (mem.serves_load build 8 _).mpr (h i (List.mem_range.mp hi))

/-- Each byte has a place, and comes from inside the host's buffer. -/
theorem Memory.serves_copyHostToGuest (mem : Memory) (addr : Address) (buf : List MemByte)
    (size : Nat) :
    Succeeds (mem.copyHostToGuest build addr buf size) ↔
      ∀ i < size, i < buf.length ∧ mem.Serves build (addr + BitVec.ofNat 32 i) 1 := by
  unfold copyHostToGuest
  rw [succeeds_foldlM_iff (I := fun mem' => mem'.layout = mem.layout)
    (D := fun i => i < buf.length ∧ mem.Serves build (addr + BitVec.ofNat 32 i) 1) ?_ ?_ rfl]
  · simp only [List.mem_range]
  · intro mem' i hlayout
    rw [← serves_of_layout build hlayout]
    cases hbyte : buf[i]? with
    | none =>
        have hge : ¬ i < buf.length := Nat.not_lt.mpr (List.getElem?_eq_none_iff.mp hbyte)
        exact iff_of_false (not_succeeds_error _) fun h => hge h.1
    | some byte =>
        have hlt : i < buf.length := (List.getElem?_eq_some_iff.mp hbyte).1
        rw [and_iff_right hlt]
        exact succeeds_map_iff.trans (mem'.serves_store build _ byte)
  · intro mem' i mem'' hlayout hround
    split at hround
    · exact (mem'.storeU8_keeps build _ _ mem'' hround).layout.trans hlayout
    · cases hround

end Accesses

section Callbacks

/-- The bytes of the call's buffer have a place, as far as they are copied. -/
def SyscallProceeds (env : Env H) (m : Machine H) : Prop :=
  match SyscallId.toEnum? (m.sim.getXReg XRegAlias.a7) with
  | some .kExit => True
  | some .kRead => ∀ i < (m.hostRead env).1.toNat,
      i < m.sim.size ∧ m.sim.memory.Serves env.build (m.sim.guestBufPtr + BitVec.ofNat 32 i) 1
  | some .kWrite => ∀ i < m.sim.size,
      m.sim.memory.Serves env.build (m.sim.guestBufPtr + BitVec.ofNat 32 i) 1
  | none => env.build = .release

/-- The condition under which the callback completes. -/
def Proceeds (env : Env H) (m : Machine H) (insn : RvInsn) : InsnMnemonic → Prop
  | .LB | .LBU => m.sim.memory.Serves env.build (m.sim.getXReg insn.rs1Index + insn.immI) 1
  | .LH | .LHU => m.sim.memory.Serves env.build (m.sim.getXReg insn.rs1Index + insn.immI) 2
  | .LW | .FLW => m.sim.memory.Serves env.build (m.sim.getXReg insn.rs1Index + insn.immI) 4
  | .SB => m.sim.memory.Serves env.build (m.sim.getXReg insn.rs1Index + insn.immS) 1
  | .SH => m.sim.memory.Serves env.build (m.sim.getXReg insn.rs1Index + insn.immS) 2
  | .SW | .FSW => m.sim.memory.Serves env.build (m.sim.getXReg insn.rs1Index + insn.immS) 4
  | .SLL | .SRL => (m.sim.getXReg insn.rs2Index).toNat < 32
  | .MULH => (m.sim.getXReg insn.rs1Index).toNat * (m.sim.getXReg insn.rs2Index).toNat < 2 ^ 63
  | .ROL | .ROR => (m.sim.getXReg insn.rs2Index).toNat % 32 ≠ 0
  | .RORI => insn.shamt ≠ 0
  | .CSRRW | .CSRRS | .CSRRC | .CSRRWI | .CSRRSI | .CSRRCI =>
      env.build = .release ∨ CSR.toEnum? insn.immCSR ≠ none
  | .FADD_S | .FSUB_S | .FMUL_S | .FDIV_S | .FSQRT_S | .FMADD_S | .FMSUB_S | .FNMSUB_S | .FNMADD_S
  | .FCVT_W_S | .FCVT_WU_S => env.build = .release ∨ m.sim.selectedRM insn ≠ .DYN
  | .ECALL => SyscallProceeds env m
  | _ => True

variable {env : Env H} {word : UndecodedInsn} {m : Machine H}

theorem finishes_lift_bind {α β : Type} {x : Except Fault α} {f : α → SimM H β}
    (hrest : ∀ a, Finishes (f a) m) : Finishes (liftM x >>= f) m ↔ Succeeds x := by
  cases x with
  | ok a =>
      refine iff_of_true ?_ (succeeds_ok a)
      exact (finishes_bind_of_run (run_lift_ok a m)).mpr (hrest a)
  | error fault => exact iff_of_false (not_finishes_of_run rfl) (not_succeeds_error fault)

theorem finishes_load (w : Nat) {i : RegIndex} {imm : Register} {f : BitVec w → SimM H Unit}
    (hrest : ∀ value, Finishes (f value) m) :
    Finishes (do
        let addr := (← getXReg i) + imm
        let value ← (loadFrom env.build w addr (← getMem).memory : Except Fault (BitVec w))
        f value) m ↔
      m.sim.memory.Serves env.build (m.sim.getXReg i + imm) (w / 8) :=
  (finishes_bind_of_run (run_getXReg m i)).trans <|
    (finishes_bind_of_run (run_getMem m)).trans <|
      (finishes_lift_bind hrest).trans (m.sim.memory.serves_load env.build w _)

theorem finishes_store {w : Nat} (val : BitVec w) (addr : Address) :
    Finishes (do
        setMem (← (Memory.mk <$> storeTo env.build addr val (← getMem).memory :
          Except Fault Memory))
        step : SimM H Unit) m ↔
      m.sim.memory.Serves env.build addr (w / 8) := by
  refine (finishes_bind_of_run (run_getMem m)).trans ?_
  refine Iff.trans ?_ (m.sim.memory.serves_store env.build addr val)
  refine Iff.trans ?_ (succeeds_map_iff (f := Memory.mk))
  exact finishes_lift_bind fun memory => finishes_of_run (run_step _)

theorem finishes_rrr (binOp : Register → Register → Except Fault Register) :
    Finishes (executeRRRBinOp word binOp : SimM H Unit) m ↔
      Succeeds (binOp (m.sim.getXReg (RvInsn.mk word).rs1Index)
        (m.sim.getXReg (RvInsn.mk word).rs2Index)) :=
  (finishes_bind_of_run (run_getXReg m _)).trans <|
    (finishes_bind_of_run (run_getXReg m _)).trans <|
      finishes_lift_bind fun _ => finishes_of_run rfl

theorem finishes_shift (binOp : Register → Register → Except Fault Register) :
    Finishes (executeRRIShift word binOp : SimM H Unit) m ↔
      Succeeds (binOp (m.sim.getXReg (RvInsn.mk word).rs1Index) (RvInsn.mk word).shamt) :=
  (finishes_bind_of_run (run_getXReg m _)).trans <|
    finishes_lift_bind fun _ => finishes_of_run rfl

theorem finishes_branch (pred : Register → Register → Bool) :
    Finishes (executeBranch word pred : SimM H Unit) m := by
  refine (finishes_bind_of_run (run_getXReg m _)).mpr ?_
  refine (finishes_bind_of_run (run_getXReg m _)).mpr ?_
  dsimp only
  split
  · exact finishes_of_run rfl
  · exact finishes_of_run rfl

/-- What one instruction of each kind needs, in the base set. -/
theorem extI_finishes_iff {mnem : InsnMnemonic} (h : mnem ∈ extI.map (·.mnem))
    (hsyscall : mnem ≠ .ECALL) :
    Finishes (getInsnCallback env mnem word) m ↔ Proceeds env m ⟨word⟩ mnem := by
  have hshamt : (RvInsn.mk word).shamt.toNat < 32 := and_field_lt _
  cases mnem with
  | LB => exact finishes_load 8 fun _ => finishes_of_run rfl
  | LH => exact finishes_load 16 fun _ => finishes_of_run rfl
  | LW => exact finishes_load 32 fun _ => finishes_of_run rfl
  | LBU => exact finishes_load 8 fun _ => finishes_of_run rfl
  | LHU => exact finishes_load 16 fun _ => finishes_of_run rfl
  | SB | SH | SW =>
      refine (finishes_bind_of_run (run_getXReg m _)).trans ?_
      refine (finishes_bind_of_run (run_getXReg m _)).trans ?_
      exact finishes_store _ _
  | SLL =>
      refine (finishes_rrr _).trans ?_
      exact shiftLeft_defined_iff _ _
  | SRL =>
      refine (finishes_rrr _).trans ?_
      exact shiftRight_defined_iff _ _
  | SRA =>
      refine iff_of_true ((finishes_rrr _).mpr ?_) trivial
      exact ⟨_, arithmRightShift_eq env.build _ _⟩
  | SLLI =>
      have hrun : Finishes (callbackSLLI word : SimM H Unit) m :=
        (finishes_shift _).mpr ⟨_, shiftLeft_ok _ hshamt⟩
      exact iff_of_true hrun trivial
  | SRLI =>
      have hrun : Finishes (callbackSRLI word : SimM H Unit) m :=
        (finishes_shift _).mpr ⟨_, shiftRight_ok _ hshamt⟩
      exact iff_of_true hrun trivial
  | SRAI =>
      have hrun : Finishes (callbackSRAI env word : SimM H Unit) m :=
        (finishes_shift _).mpr ⟨_, arithmRightShift_eq env.build _ _⟩
      exact iff_of_true hrun trivial
  | BEQ | BNE | BLT | BGE | BLTU | BGEU => exact iff_of_true (finishes_branch _) trivial
  | ADD | SUB | XOR | OR | AND => exact iff_of_true ((finishes_rrr _).mpr ⟨_, rfl⟩) trivial
  | LUI | AUIPC | JAL | JALR | ADDI | SLTI | SLTIU | XORI | ORI | ANDI | SLT | SLTU | FENCE
  | FENCE_I | EBREAK => exact iff_of_true (finishes_of_run rfl) trivial
  | ECALL => exact absurd rfl hsyscall
  | _ => exact absurd h (by decide)

theorem completes_iff_finishes {mnem : InsnMnemonic} :
    Completes env word m mnem ↔ Finishes (getInsnCallback env mnem word) m := by
  constructor
  · rintro ⟨m', hrun⟩
    exact finishes_of_run hrun
  · rintro ⟨_, m', hrun⟩
    exact ⟨m', hrun⟩

theorem csr_finishes_iff {mnem : InsnMnemonic} (h : mnem ∈ zicsrMnemonics) :
    Finishes (getInsnCallback env mnem word) m ↔
      env.build = .release ∨ CSR.toEnum? (RvInsn.mk word).immCSR ≠ none := by
  cases hcsr : CSR.toEnum? (RvInsn.mk word).immCSR with
  | some csr =>
      have hcompletes := (completes_extZicsr env word m h ⟨csr, hcsr⟩).mpr (by
        cases mnem <;> first | exact not_false | exact absurd h (by decide))
      exact iff_of_true (completes_iff_finishes.mp hcompletes) (.inr (by simp))
  | none =>
      obtain ⟨operand, f, hcallback⟩ := getInsnCallback_zicsr env h word
      have hrun : (csrInsn env.build ⟨word⟩ operand f).run m = _ :=
        csrInsn_run_unknown operand f hcsr
      rw [hcallback]
      cases hbuild : env.build with
      | debug =>
          rw [hbuild] at hrun
          exact iff_of_false (not_finishes_of_run hrun) (by simp)
      | release =>
          rw [hbuild] at hrun
          exact iff_of_true (finishes_of_run hrun) (.inl rfl)

theorem rounding_finishes_iff {insn : RoundingInsn}
    (hselects : ¬ (insn = .FCVT_S_W ∨ insn = .FCVT_S_WU)) :
    Finishes (getInsnCallback env insn.mnem word) m ↔
      env.build = .release ∨ m.sim.selectedRM ⟨word⟩ ≠ .DYN := by
  by_cases hassert : env.build = .release ∨ m.sim.selectedRM ⟨word⟩ ≠ .DYN
  · exact iff_of_true (completes_iff_finishes.mp (insn.completes env word m hassert)) hassert
  · rw [not_or, not_not] at hassert
    have hdebug : env.build = .debug := by
      cases hbuild : env.build with
      | debug => rfl
      | release => exact absurd hbuild hassert.1
    have hrun : (getInsnCallback env insn.mnem word).run m = _ :=
      RoundingInsn.callback_assert hselects hdebug hassert.2
    refine iff_of_false (not_finishes_of_run hrun) ?_
    · rintro (hrelease | hrm)
      · exact hassert.1 hrelease
      · exact hrm hassert.2

/-- The system call copies what it copies, and the rest cannot fail. -/
theorem syscall_finishes_iff :
    Finishes (callbackECALL env word) m ↔ SyscallProceeds env m := by
  refine (finishes_bind_of_rest fun _ m' => finishes_of_run (run_step m')).trans ?_
  unfold syscallHandler SyscallProceeds
  rw [finishes_bind_of_run (run_getXReg m _)]
  cases SyscallId.toEnum? (m.sim.getXReg XRegAlias.a7) with
  | none =>
      cases env.build with
      | debug =>
          refine iff_of_false (not_finishes_of_run rfl) ?_
          intro h
          cases h
      | release => exact iff_of_true (finishes_of_run rfl) rfl
  | some id =>
      cases id with
      | kExit => exact iff_of_true (finishes_of_run (run_modifySim m _)) trivial
      | kRead =>
          dsimp only
          rw [finishes_bind_of_run (run_getXReg m _), finishes_bind_of_run (run_getXReg m _),
            finishes_bind_of_run (run_getXReg m _), finishes_bind_of_run (EStateM.run_get m)]
          refine (finishes_bind_of_run (EStateM.run_modify _ _)).trans ?_
          split
          · refine (finishes_bind_of_run (run_getMem _)).trans ?_
            refine Iff.trans (finishes_lift_bind fun memory => ?_) ?_
            · exact finishes_of_run (run_setXReg _ _ _)
            refine (m.sim.memory.serves_copyHostToGuest env.build _ _ _).trans ?_
            rw [Vector.length_toList]
            rfl
          · rename_i hrc
            refine iff_of_true (finishes_of_run (run_setXReg _ _ _)) ?_
            intro i hi
            have hneg : (m.hostRead env).1 < 0 := Int.not_le.mp hrc
            omega
      | kWrite =>
          dsimp only
          rw [finishes_bind_of_run (run_getXReg m _), finishes_bind_of_run (run_getXReg m _),
            finishes_bind_of_run (run_getXReg m _), finishes_bind_of_run (run_getMem m)]
          refine Iff.trans ?_ (m.sim.memory.serves_copyGuestToHost env.build _ _)
          exact finishes_lift_bind fun bytes => finishes_of_run rfl

theorem extM_finishes_iff {mnem : InsnMnemonic} (h : mnem ∈ extM.map (·.mnem)) :
    Finishes (getInsnCallback env mnem word) m ↔ Proceeds env m ⟨word⟩ mnem := by
  rw [← completes_iff_finishes, completes_extM env word m h]
  cases mnem with
  | MULH => exact Nat.not_le
  | MUL | MULHSU | MULHU | DIV | DIVU | REM | REMU => exact not_false_iff
  | _ => exact absurd h (by decide)

theorem extZbb_finishes_iff {mnem : InsnMnemonic} (h : mnem ∈ extZbb.map (·.mnem)) :
    Finishes (getInsnCallback env mnem word) m ↔ Proceeds env m ⟨word⟩ mnem := by
  rw [← completes_iff_finishes, completes_extZbb env word m h]
  cases mnem with
  | ROL | ROR | RORI => exact Iff.rfl
  | ANDN | ORN | XNOR | CLZ | CTZ | CPOP | MAX | MAXU | MIN | MINU | SEXT_B | SEXT_H | ZEXT_H
  | ORC_B | REV8 => exact not_false_iff
  | _ => exact absurd h (by decide)

theorem extZicsr_finishes_iff {mnem : InsnMnemonic} (h : mnem ∈ zicsrMnemonics) :
    Finishes (getInsnCallback env mnem word) m ↔ Proceeds env m ⟨word⟩ mnem := by
  refine (csr_finishes_iff h).trans ?_
  cases mnem with
  | CSRRW | CSRRS | CSRRC | CSRRWI | CSRRSI | CSRRCI => exact Iff.rfl
  | _ => exact absurd h (by decide)

theorem extF_finishes_iff {mnem : InsnMnemonic} (h : mnem ∈ extF.map (·.mnem)) :
    Finishes (getInsnCallback env mnem word) m ↔ Proceeds env m ⟨word⟩ mnem := by
  have hrounding (insn : RoundingInsn) (hselects : ¬ (insn = .FCVT_S_W ∨ insn = .FCVT_S_WU)) :
      Finishes (getInsnCallback env insn.mnem word) m ↔
        env.build = .release ∨ m.sim.selectedRM ⟨word⟩ ≠ .DYN := rounding_finishes_iff hselects
  cases mnem with
  | FLW => exact finishes_load 32 fun _ => finishes_of_run rfl
  | FSW =>
      refine (finishes_bind_of_run (run_getXReg m _)).trans ?_
      refine (finishes_bind_of_run (run_getFReg m _)).trans ?_
      exact finishes_store _ _
  | FADD_S => exact hrounding .FADD_S (by decide)
  | FSUB_S => exact hrounding .FSUB_S (by decide)
  | FMUL_S => exact hrounding .FMUL_S (by decide)
  | FDIV_S => exact hrounding .FDIV_S (by decide)
  | FSQRT_S => exact hrounding .FSQRT_S (by decide)
  | FMADD_S => exact hrounding .FMADD_S (by decide)
  | FMSUB_S => exact hrounding .FMSUB_S (by decide)
  | FNMSUB_S => exact hrounding .FNMSUB_S (by decide)
  | FNMADD_S => exact hrounding .FNMADD_S (by decide)
  | FCVT_W_S => exact hrounding .FCVT_W_S (by decide)
  | FCVT_WU_S => exact hrounding .FCVT_WU_S (by decide)
  | FCVT_S_W =>
      exact iff_of_true (finishes_of_run (RoundingInsn.convert_run (.inl rfl))) trivial
  | FCVT_S_WU =>
      exact iff_of_true (finishes_of_run (RoundingInsn.convert_run (.inr rfl))) trivial
  | FLE_S | FLT_S | FEQ_S =>
      exact iff_of_true ⟨(), _, executeRRRCmpOp_run fun _ _ => callSoftFloat_calls _⟩ trivial
  | FSGNJ_S | FSGNJN_S | FSGNJX_S | FMIN_S | FMAX_S | FMV_X_W | FMV_W_X | FCLASS_S =>
      exact iff_of_true (finishes_of_run rfl) trivial
  | _ => exact absurd h (by decide)

/-- The condition is exact for every instruction. -/
theorem callback_finishes_iff (mnem : InsnMnemonic) :
    Finishes (getInsnCallback env mnem word) m ↔ Proceeds env m ⟨word⟩ mnem := by
  obtain ⟨entry, hentry, rfl⟩ := insnDecodeTable_complete mnem
  have hmem := List.mem_map_of_mem (f := (·.mnem)) hentry
  unfold insnDecodeTable at hmem
  simp only [List.map_append, List.mem_append] at hmem
  rcases hmem with (((hI | hM) | hZbb) | hZicsr) | hF
  · by_cases hsyscall : entry.mnem = .ECALL
    · rw [hsyscall]
      change Finishes (callbackECALL env word) m ↔ SyscallProceeds env m
      exact syscall_finishes_iff
    · exact extI_finishes_iff hI hsyscall
  · exact extM_finishes_iff hM
  · exact extZbb_finishes_iff hZbb
  · exact extZicsr_finishes_iff hZicsr
  · exact extF_finishes_iff hF

end Callbacks

section Runs

/-- The next iteration completes: the fetch does, the word is in the table, and
the instruction can go on. -/
def StepsSafely (env : Env H) (m : Machine H) : Prop :=
  ∃ word mnem, m.sim.memory.fetch env.build m.sim.ip = .ok word ∧ decode word = some mnem ∧
    Proceeds env m ⟨word⟩ mnem

variable {env : Env H} {m : Machine H}

theorem executeInsn_finishes_iff : Finishes (executeInsn env) m ↔ StepsSafely env m := by
  constructor
  · rintro ⟨_, m', hrun⟩
    obtain ⟨word, mnem, hfetch, hdecode, _⟩ := executeInsn_effect hrun
    refine ⟨word, mnem, hfetch, hdecode, callback_finishes_iff mnem |>.mp ?_⟩
    exact finishes_of_run ((executeInsn_run env hfetch hdecode).symm.trans hrun)
  · rintro ⟨word, mnem, hfetch, hdecode, hproceeds⟩
    obtain ⟨_, m', hrun⟩ := (callback_finishes_iff mnem).mpr hproceeds
    exact finishes_of_run ((executeInsn_run env hfetch hdecode).trans hrun)

/-- A call of `Execute` is free of faults for as many iterations as one likes if
and only if every state that it comes to before the last of them steps safely. -/
theorem execute_faultFree_iff {fuel : Nat} :
    Finishes (execute env fuel) m ↔
      ∀ n last, n < fuel → Leads (Iterates env) n m last → last.sim.shouldStop = false →
        StepsSafely env last := by
  constructor
  · rintro ⟨rc, m', hrun⟩ n last hn hlead hrunning
    rw [← executeInsn_finishes_iff]
    cases hstep : (executeInsn env).run last with
    | ok _ next => exact finishes_of_run hstep
    | error fault next =>
        have herror := execute_error_iff.mpr ⟨n, last, hn, hlead, hrunning, hstep⟩
        rw [hrun] at herror
        cases herror
  · intro hsafe
    cases hrun : (execute env fuel).run m with
    | ok rc m' => exact finishes_of_run hrun
    | error fault m' =>
        obtain ⟨n, last, hn, hlead, hrunning, hstep⟩ := execute_error_iff.mp hrun
        have hfinishes := executeInsn_finishes_iff.mpr (hsafe n last hn hlead hrunning)
        exact absurd hfinishes (not_finishes_of_run hstep)

end Runs

end RiscvSim
