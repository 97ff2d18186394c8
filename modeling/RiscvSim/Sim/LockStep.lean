import RiscvSim.Lib.Simulation
import RiscvSim.Sim.StepEffects

/-!
Two machines that differ in their memories, in the globals of the floating-point
library and in their hosts, run side by side. A relation between memories that
every load and every store respects, and one between hosts that every call
respects, are respected by every callback and by the loop, and the two builds may
differ in what they assert. The globals have to be the same for the callbacks that
raise flags; the others do with less.
-/

namespace RiscvSim

open SimM Simulation

variable {H H' : Type}

/-- What a relation between memories needs for two runs to stay in step. -/
structure Memory.LockStep (excused : Fault → Prop) (build build' : Build)
    (M : Memory → Memory → Prop) : Prop where
  assert : ∀ condition text, Answers excused Eq (build.assert condition text)
    (build'.assert condition text)
  load : ∀ {mem mem' : Memory}, M mem mem' → ∀ w addr,
    Answers excused Eq (loadFrom build w addr mem.memory) (loadFrom build' w addr mem'.memory)
  store : ∀ {mem mem' : Memory}, M mem mem' → ∀ {w : Nat} addr (val : BitVec w),
    Answers excused (fun segms segms' => M ⟨segms⟩ ⟨segms'⟩) (storeTo build addr val mem.memory)
      (storeTo build' addr val mem'.memory)

/-- What a relation between hosts needs: related hosts give the same answers and
stay related. -/
structure HostIO.LockStep (io : HostIO H) (io' : HostIO H') (T : H → H' → Prop) : Prop where
  read : ∀ {host host'}, T host host' → ∀ fd size buf,
    (io'.read host' fd size buf).1 = (io.read host fd size buf).1 ∧
      (io'.read host' fd size buf).2.1 = (io.read host fd size buf).2.1 ∧
      T (io.read host fd size buf).2.2 (io'.read host' fd size buf).2.2
  write : ∀ {host host'}, T host host' → ∀ fd bytes,
    (io'.write host' fd bytes).1 = (io.write host fd bytes).1 ∧
      T (io.write host fd bytes).2 (io'.write host' fd bytes).2

theorem HostIO.LockStep.refl (io : HostIO H) : io.LockStep io Eq where
  read := by
    rintro host _ rfl fd size buf
    exact ⟨rfl, rfl, rfl⟩
  write := by
    rintro host _ rfl fd bytes
    exact ⟨rfl, rfl⟩

/-- The relation between the globals survives an exception that both raise. -/
def RaisesInStep (L : SoftFloatState → SoftFloatState → Prop) : Prop :=
  ∀ s t raised, L s t → L { s with exceptionFlags := s.exceptionFlags ||| raised }
    { t with exceptionFlags := t.exceptionFlags ||| raised }

theorem raisesInStep_eq : RaisesInStep Eq := by
  rintro s _ raised rfl
  rfl

def RVSim.withMemory (sim : RVSim) (memory : Memory) : RVSim := { sim with memory }

/-- The machine with another memory, other globals and another host. -/
def Machine.moved (m : Machine H) (memory : Memory) (softfloat : SoftFloatState) (host : H') :
    Machine H' := ⟨m.sim.withMemory memory, softfloat, host⟩

def Machine.withMemory (m : Machine H) (memory : Memory) : Machine H :=
  m.moved memory m.softfloat m.host

@[simp] theorem Machine.moved_softfloat (m : Machine H) (memory : Memory)
    (softfloat : SoftFloatState) (host : H') :
    (m.moved memory softfloat host).softfloat = softfloat := rfl

@[simp] theorem Machine.moved_host (m : Machine H) (memory : Memory) (softfloat : SoftFloatState)
    (host : H') : (m.moved memory softfloat host).host = host := rfl

/-- The same object but for its memory, which is a related one. -/
inductive RVSim.Matches (M : Memory → Memory → Prop) (sim : RVSim) : RVSim → Prop
  | mk (memory : Memory) (h : M sim.memory memory) : Matches M sim (sim.withMemory memory)

/-- The same machine but for its memory, the library's globals and its host, which
are related ones. -/
inductive Machine.Matches (M : Memory → Memory → Prop)
    (L : SoftFloatState → SoftFloatState → Prop) (T : H → H' → Prop) (m : Machine H) :
    Machine H' → Prop
  | mk (memory : Memory) (softfloat : SoftFloatState) (host : H') (h : M m.sim.memory memory)
      (hsoftfloat : L m.softfloat softfloat) (hhost : T m.host host) :
      Matches M L T m (m.moved memory softfloat host)

variable {excused : Fault → Prop} {M : Memory → Memory → Prop}
  {L : SoftFloatState → SoftFloatState → Prop} {T : H → H' → Prop}

/-- Side by side from machines with related memories, globals and hosts. -/
abbrev InStep {α β : Type} (excused : Fault → Prop) (M : Memory → Memory → Prop)
    (L : SoftFloatState → SoftFloatState → Prop) (T : H → H' → Prop) (V : α → β → Prop)
    (x : SimM H α) (y : SimM H' β) : Prop :=
  Simulates excused (Machine.Matches M L T) V x y

section Actions

theorem inStep_getSim :
    InStep excused M L T (RVSim.Matches M) (getSim : SimM H RVSim) (getSim : SimM H' RVSim) := by
  rintro m _ ⟨memory, softfloat, host, h, hsoftfloat, hhost⟩
  exact .ok ⟨memory, h⟩ ⟨memory, softfloat, host, h, hsoftfloat, hhost⟩

theorem inStep_getXReg (i : RegIndex) :
    InStep excused M L T Eq (getXReg i : SimM H Register) (getXReg i : SimM H' Register) := by
  rintro m _ ⟨memory, softfloat, host, h, hsoftfloat, hhost⟩
  exact .ok rfl ⟨memory, softfloat, host, h, hsoftfloat, hhost⟩

theorem inStep_getFReg (i : RegIndex) :
    InStep excused M L T Eq (getFReg i : SimM H FRegister) (getFReg i : SimM H' FRegister) := by
  rintro m _ ⟨memory, softfloat, host, h, hsoftfloat, hhost⟩
  exact .ok rfl ⟨memory, softfloat, host, h, hsoftfloat, hhost⟩

theorem inStep_getIp :
    InStep excused M L T Eq (getIp : SimM H Address) (getIp : SimM H' Address) := by
  rintro m _ ⟨memory, softfloat, host, h, hsoftfloat, hhost⟩
  exact .ok rfl ⟨memory, softfloat, host, h, hsoftfloat, hhost⟩

theorem inStep_getMem :
    InStep excused M L T M (getMem : SimM H Memory) (getMem : SimM H' Memory) := by
  rintro m _ ⟨memory, softfloat, host, h, hsoftfloat, hhost⟩
  exact .ok h ⟨memory, softfloat, host, h, hsoftfloat, hhost⟩

theorem inStep_lift {α β : Type} {V : α → β → Prop} {x : Except Fault α} {y : Except Fault β}
    (h : Answers excused V x y) :
    InStep excused M L T V (liftM x : SimM H α) (liftM y : SimM H' β) := by
  intro m m' hm
  cases h with
  | ok hab => exact .ok hab hm
  | error fault => exact .error fault hm
  | excused h y => exact .excused h _ _

/-- A change of the object that neither reads nor writes its memory. -/
theorem inStep_modifySim {f : RVSim → RVSim}
    (hf : ∀ sim memory, f (sim.withMemory memory) = (f sim).withMemory memory)
    (hmemory : ∀ sim, (f sim).memory = sim.memory) :
    InStep excused M L T Eq (modifySim f : SimM H Unit) (modifySim f : SimM H' Unit) := by
  rintro m _ ⟨memory, softfloat, host, h, hsoftfloat, hhost⟩
  have hmoved : (m.moved memory softfloat host).mapSim f =
      (m.mapSim f).moved memory softfloat host :=
    congrArg (fun sim => Machine.mk sim softfloat host) (hf m.sim memory)
  rw [run_modifySim, run_modifySim, hmoved]
  refine .ok rfl ⟨memory, softfloat, host, ?_, hsoftfloat, hhost⟩
  rw [Machine.mapSim_sim, hmemory]
  exact h

theorem inStep_setXReg (i : RegIndex) (value : Register) :
    InStep excused M L T Eq (setXReg i value : SimM H Unit) (setXReg i value : SimM H' Unit) := by
  refine inStep_modifySim ?_ fun sim => sim.setXReg_memory i value
  intro sim memory
  unfold RVSim.setXReg
  split
  · rfl
  · rfl

theorem inStep_setFReg (i : RegIndex) (value : FRegister) :
    InStep excused M L T Eq (setFReg i value : SimM H Unit) (setFReg i value : SimM H' Unit) :=
  inStep_modifySim (fun _ _ => rfl) fun _ => rfl

theorem inStep_setIp (ip : Address) :
    InStep excused M L T Eq (setIp ip : SimM H Unit) (setIp ip : SimM H' Unit) :=
  inStep_modifySim (fun _ _ => rfl) fun _ => rfl

theorem inStep_step : InStep excused M L T Eq (step : SimM H Unit) (step : SimM H' Unit) :=
  inStep_modifySim (fun _ _ => rfl) fun _ => rfl

theorem inStep_setMem {mem mem' : Memory} (h : M mem mem') :
    InStep excused M L T Eq (setMem mem : SimM H Unit) (setMem mem' : SimM H' Unit) := by
  rintro m _ ⟨memory, softfloat, host, _, hsoftfloat, hhost⟩
  exact .ok rfl ⟨mem', softfloat, host, h, hsoftfloat, hhost⟩

theorem inStep_setHost {host : H} {host' : H'} (hhost : T host host') :
    InStep excused M L T Eq (modify ({ · with host }) : SimM H PUnit)
      (modify ({ · with host := host' }) : SimM H' PUnit) := by
  rintro m _ ⟨memory, softfloat, _, h, hsoftfloat, _⟩
  exact .ok rfl ⟨memory, softfloat, host', h, hsoftfloat, hhost⟩

end Actions

section Ends

/-! The ends that many callbacks share. -/

theorem inStep_writeX (i : RegIndex) (value : Register) :
    InStep excused M L T Eq (do setXReg i value; step : SimM H Unit) (do setXReg i value; step) :=
  (inStep_setXReg i value).next fun _ => inStep_step

theorem inStep_writeF (i : RegIndex) (value : FRegister) :
    InStep excused M L T Eq (do setFReg i value; step : SimM H Unit) (do setFReg i value; step) :=
  (inStep_setFReg i value).next fun _ => inStep_step

end Ends

section Helpers

/-! The helpers that assert something, under two builds. -/

variable {build build' : Build} (hlock : Memory.LockStep excused build build' M)

include hlock

theorem Memory.LockStep.isBitSet {w : Nat} (val : BitVec w) (index : Nat) :
    Answers excused Eq (isBitSet build val index) (isBitSet build' val index) := by
  exact (hlock.assert _ _).next fun _ => answers_refl _

theorem Memory.LockStep.getByte {w : Nat} (val : BitVec w) (index : Nat) :
    Answers excused Eq (getByte build val index) (getByte build' val index) := by
  exact (hlock.assert _ _).next fun _ => answers_refl _

theorem Memory.LockStep.setByte {w : Nat} (val : BitVec w) (byteVal : BitVec 8) (index : Nat) :
    Answers excused Eq (setByte build val byteVal index) (setByte build' val byteVal index) := by
  exact (hlock.assert _ _).next fun _ => answers_refl _

theorem Memory.LockStep.arithmRightShift (x : BitVec 32) (shift : Nat) :
    Answers excused Eq (arithmRightShift build x shift) (arithmRightShift build' x shift) := by
  unfold RiscvSim.arithmRightShift
  dsimp only
  split
  · exact answers_refl _
  · split
    · exact (hlock.isBitSet _ _).next fun bit => answers_refl _
    · refine (answers_refl _).next fun logical => ?_
      exact (hlock.isBitSet _ _).next fun bit => answers_refl _

theorem Memory.LockStep.findSetBit (rs : Register) (indices : List Nat) :
    Answers excused Eq (findSetBit build rs indices) (findSetBit build' rs indices) := by
  induction indices with
  | nil => exact answers_refl _
  | cons i rest ih =>
      refine (hlock.isBitSet _ _).next fun bit => ?_
      split
      · exact answers_refl _
      · exact ih

theorem Memory.LockStep.getCSR {sim sim' : RVSim} (h : RVSim.Matches M sim sim')
    (index : Register) :
    Answers excused Eq (sim.getCSR build index) (sim'.getCSR build' index) := by
  obtain ⟨memory, _⟩ := h
  unfold RVSim.getCSR
  cases CSR.toEnum? index with
  | some csr =>
      cases csr with
      | fflags | frm | fcsr => exact .ok rfl
  | none => exact (hlock.assert _ _).next fun _ => answers_refl _

theorem Memory.LockStep.setCSR {sim sim' : RVSim} (h : RVSim.Matches M sim sim')
    (index value : Register) :
    Answers excused (RVSim.Matches M) (sim.setCSR build index value)
      (sim'.setCSR build' index value) := by
  obtain ⟨memory, hM⟩ := h
  unfold RVSim.setCSR
  cases CSR.toEnum? index with
  | some csr =>
      cases csr with
      | fflags | frm | fcsr => exact .ok ⟨memory, hM⟩
  | none => exact (hlock.assert _ _).next fun _ => .ok ⟨memory, hM⟩

theorem Memory.LockStep.getRM {sim sim' : RVSim} (h : RVSim.Matches M sim sim')
    (rm : Register) : Answers excused Eq (sim.getRM build rm) (sim'.getRM build' rm) := by
  unfold RVSim.getRM
  split
  · exact (hlock.getCSR h _).next fun frm => answers_refl _
  · exact answers_refl _

end Helpers

section Transfers

/-! The loads, the stores and the two copying loops. -/

variable {build build' : Build} (hlock : Memory.LockStep excused build build' M)
  {mem mem' : Memory} (hmem : M mem mem')

include hlock hmem

theorem Memory.LockStep.storeAt {w : Nat} (addr : Address) (val : BitVec w) :
    Answers excused M (Memory.mk <$> storeTo build addr val mem.memory)
      (Memory.mk <$> storeTo build' addr val mem'.memory) :=
  (hlock.store hmem addr val).map fun _ _ h => h

theorem Memory.LockStep.copyGuestToHost (fromAddr : Address) (size : Nat) :
    Answers excused Eq (mem.copyGuestToHost build fromAddr size)
      (mem'.copyGuestToHost build' fromAddr size) :=
  answers_mapM _ fun _ => hlock.load hmem 8 _

theorem Memory.LockStep.copyHostToGuest (toAddr : Address) (fromBuf : List MemByte)
    (size : Nat) :
    Answers excused M (mem.copyHostToGuest build toAddr fromBuf size)
      (mem'.copyHostToGuest build' toAddr fromBuf size) := by
  refine answers_foldlM (V := M) _ (fun i mem mem' hmem => ?_) hmem
  split
  · exact hlock.storeAt hmem _ _
  · exact .error _

end Transfers

section Callbacks

variable {env : Env H} {build' : Build} {io' : HostIO H'}
  (hlock : Memory.LockStep excused env.build build' M) (word : UndecodedInsn)

/-- The same program under another build and with another host. -/
abbrev Env.linked (env : Env H) (build : Build) (io : HostIO H') : Env H' :=
  ⟨build, env.softfloat, io⟩

section Integer

variable {binOp binOp' : Register → Register → Except Fault Register}
  (hop : ∀ a b, Answers excused Eq (binOp a b) (binOp' a b))

include hop

theorem executeRRRBinOp_inStep :
    InStep excused M L T Eq (executeRRRBinOp word binOp : SimM H Unit) (executeRRRBinOp word binOp') :=
  (inStep_getXReg _).next fun rs1 => (inStep_getXReg _).next fun rs2 =>
    (inStep_lift (hop rs1 rs2)).next fun value => inStep_writeX _ value

theorem executeRRIBinOp_inStep :
    InStep excused M L T Eq (executeRRIBinOp word binOp : SimM H Unit) (executeRRIBinOp word binOp') :=
  (inStep_getXReg _).next fun rs1 =>
    (inStep_lift (hop rs1 _)).next fun value => inStep_writeX _ value

theorem executeRRIShift_inStep :
    InStep excused M L T Eq (executeRRIShift word binOp : SimM H Unit) (executeRRIShift word binOp') :=
  (inStep_getXReg _).next fun rs1 =>
    (inStep_lift (hop rs1 _)).next fun value => inStep_writeX _ value

end Integer

theorem executeBranch_inStep (pred : Register → Register → Bool) :
    InStep excused M L T Eq (executeBranch word pred : SimM H Unit) (executeBranch word pred) := by
  refine (inStep_getXReg _).next fun rs1 => (inStep_getXReg _).next fun rs2 => ?_
  dsimp only
  split
  · exact inStep_getIp.next fun ip => inStep_setIp _
  · exact inStep_step

/-- The callback of `mnem` stays in step. -/
abbrev CallbackInStep (excused : Fault → Prop) (M : Memory → Memory → Prop)
    (L : SoftFloatState → SoftFloatState → Prop) (T : H → H' → Prop) (env : Env H)
    (build' : Build) (io' : HostIO H') (word : UndecodedInsn) (mnem : InsnMnemonic) : Prop :=
  InStep excused M L T Eq (getInsnCallback env mnem word)
    (getInsnCallback (env.linked build' io') mnem word)

include hlock

/-- The callbacks that write an integer register and nothing else. -/
theorem xReg_inStep {mnem : InsnMnemonic} (h : mnem.effectKind = .xReg) :
    CallbackInStep excused M L T env build' io' word mnem := by
  cases mnem with
  | LUI => exact inStep_writeX _ _
  | AUIPC => exact inStep_getIp.next fun ip => inStep_writeX _ _
  | ADD | SUB | SLL | XOR | SRL | OR | AND =>
      exact executeRRRBinOp_inStep word fun _ _ => answers_refl _
  | SRA => exact executeRRRBinOp_inStep word fun _ _ => hlock.arithmRightShift _ _
  | ADDI | XORI | ORI | ANDI =>
      simp only [CallbackInStep, getInsnCallback, callbackADDI, callbackXORI, callbackORI,
        callbackANDI]
      exact executeRRIBinOp_inStep word fun _ _ => answers_refl _
  | SLLI | SRLI =>
      simp only [CallbackInStep, getInsnCallback, callbackSLLI, callbackSRLI]
      exact executeRRIShift_inStep word fun _ _ => answers_refl _
  | SRAI => exact executeRRIShift_inStep word fun _ _ => hlock.arithmRightShift _ _
  | SLTI | SLTIU | SEXT_B | SEXT_H | ZEXT_H =>
      exact (inStep_getXReg _).next fun rs1 => inStep_writeX _ _
  | SLT | SLTU | MUL | MULHU | ANDN | ORN | XNOR | MIN | MINU | MAX | MAXU =>
      exact (inStep_getXReg _).next fun rs1 => (inStep_getXReg _).next fun rs2 => inStep_writeX _ _
  | FMV_X_W | FCLASS_S => exact (inStep_getFReg _).next fun rs1 => inStep_writeX _ _
  | LB | LH | LW | LBU | LHU =>
      refine (inStep_getXReg _).next fun rs1 => inStep_getMem.bind fun _ _ hmem => ?_
      exact (inStep_lift (hlock.load hmem _ _)).next fun memVal => inStep_writeX _ _
  | MULH | MULHSU =>
      refine (inStep_getXReg _).next fun rs1 => (inStep_getXReg _).next fun rs2 => ?_
      exact (inStep_lift (answers_refl _)).next fun mul => inStep_writeX _ _
  | DIV | REM =>
      refine (inStep_getXReg _).next fun rs1 => (inStep_getXReg _).next fun rs2 => ?_
      dsimp only
      split
      · exact (simulates_pure rfl).next fun res => inStep_writeX _ _
      · split
        · exact (simulates_pure rfl).next fun res => inStep_writeX _ _
        · exact (inStep_lift (answers_refl _)).next fun res => inStep_writeX _ _
  | DIVU | REMU =>
      refine (inStep_getXReg _).next fun rs1 => (inStep_getXReg _).next fun rs2 => ?_
      dsimp only
      split
      · exact (simulates_pure rfl).next fun res => inStep_writeX _ _
      · exact (inStep_lift (answers_refl _)).next fun res => inStep_writeX _ _
  | CLZ | CTZ =>
      refine (inStep_getXReg _).next fun rs => ?_
      exact (inStep_lift (hlock.findSetBit rs _)).next fun found => inStep_writeX _ _
  | CPOP =>
      refine (inStep_getXReg _).next fun rs => ?_
      refine (simulates_foldlM _ (fun bcount i => ?_) _).next fun bcount => inStep_writeX _ _
      exact (inStep_lift (hlock.isBitSet rs i)).next fun bit => simulates_pure rfl
  | ROL | ROR =>
      refine (inStep_getXReg _).next fun rs2 => (inStep_getXReg _).next fun rs1 => ?_
      refine (inStep_lift (answers_refl _)).next fun first => ?_
      exact (inStep_lift (answers_refl _)).next fun second => inStep_writeX _ _
  | RORI =>
      refine (inStep_getXReg _).next fun rs1 => ?_
      refine (inStep_lift (answers_refl _)).next fun first => ?_
      exact (inStep_lift (answers_refl _)).next fun second => inStep_writeX _ _
  | REV8 =>
      refine (inStep_getXReg _).next fun rs => ?_
      refine (simulates_foldlM _ (fun val i => ?_) _).next fun val => inStep_writeX _ _
      exact (inStep_lift (hlock.getByte rs _)).next fun byte =>
        inStep_lift (hlock.setByte val byte i)
  | ORC_B =>
      refine (inStep_getXReg _).next fun rs => ?_
      refine (simulates_foldlM _ (fun val i => ?_) _).next fun val => inStep_writeX _ _
      refine (inStep_lift (hlock.getByte rs i)).next fun byte => ?_
      split
      · exact inStep_lift (hlock.setByte val _ i)
      · exact inStep_lift (hlock.setByte val _ i)
  | _ => contradiction

omit hlock in
/-- A library call that does not look at the mode. -/
theorem inStep_compare (hL : RaisesInStep L) {α : Type} (answer : α × BitVec 8) :
    InStep excused M L T Eq (callSoftFloat fun _ => answer : SimM H α)
      (callSoftFloat fun _ => answer) := by
  rintro m _ ⟨memory, softfloat, host, h, hsoftfloat, hhost⟩
  exact .ok rfl ⟨memory, _, host, h, hL _ _ answer.2 hsoftfloat, hhost⟩

theorem fReg_inStep (hL : RaisesInStep L) {mnem : InsnMnemonic} (h : mnem.effectKind = .fReg) :
    CallbackInStep excused M L T env build' io' word mnem := by
  cases mnem with
  | FLW =>
      refine (inStep_getXReg _).next fun rs1 => inStep_getMem.bind fun _ _ hmem => ?_
      exact (inStep_lift (hlock.load hmem 32 _)).next fun memVal => inStep_writeF _ _
  | FSGNJ_S | FSGNJN_S | FSGNJX_S =>
      exact (inStep_getFReg _).next fun rs1 => (inStep_getFReg _).next fun rs2 => inStep_writeF _ _
  | FMV_W_X => exact (inStep_getXReg _).next fun rs1 => inStep_writeF _ _
  | FMIN_S | FMAX_S =>
      refine (inStep_getFReg _).next fun rs1 => (inStep_getFReg _).next fun rs2 => ?_
      refine Simulates.next ?_ fun res => inStep_writeF _ res
      exact (inStep_compare hL _).next fun less => simulates_pure rfl
  | _ => contradiction

omit hlock in
theorem inStep_setSim {sim sim' : RVSim} (h : RVSim.Matches M sim sim') :
    InStep excused M L T Eq (modifySim fun _ => sim : SimM H Unit) (modifySim fun _ => sim') := by
  obtain ⟨mem', hM⟩ := h
  rintro m _ ⟨memory, softfloat, host, _, hsoftfloat, hhost⟩
  exact .ok rfl ⟨mem', softfloat, host, hM, hsoftfloat, hhost⟩

theorem inStep_getCSR (index : Register) :
    InStep excused M L T Eq (getCSR env.build index : SimM H Register)
      (getCSR build' index : SimM H' Register) :=
  inStep_getSim.bind fun _ _ hsim => inStep_lift (hlock.getCSR hsim index)

theorem inStep_setCSR (index value : Register) :
    InStep excused M L T Eq (setCSR env.build index value : SimM H Unit)
      (setCSR build' index value : SimM H' Unit) :=
  inStep_getSim.bind fun _ _ hsim =>
    (inStep_lift (hlock.setCSR hsim index value)).bind fun _ _ hsim' => inStep_setSim hsim'

/-- The end of every instruction that raises flags. -/
theorem inStep_flags :
    InStep excused M Eq T Eq (do softFloatSetFExcp env.build; step : SimM H Unit)
      (do softFloatSetFExcp build'; step) := by
  refine Simulates.next ?_ fun _ => inStep_step
  refine simulates_get.bind ?_
  rintro m _ ⟨memory, _, _, _, rfl, _⟩
  rw [Machine.moved_softfloat]
  dsimp only
  split
  · exact simulates_pure rfl
  · exact (inStep_getCSR hlock _).next fun simFlags => inStep_setCSR hlock _ _

omit hlock in
/-- A library call under the mode that both have. -/
theorem inStep_callSoftFloat {α : Type} (op : BitVec 8 → α × BitVec 8) :
    InStep excused M Eq T Eq (callSoftFloat op : SimM H α) (callSoftFloat op) := by
  rintro m _ ⟨memory, _, host, h, rfl, hhost⟩
  exact .ok rfl ⟨memory, _, host, h, rfl, hhost⟩

omit hlock in
theorem inStep_setRoundingMode (mode : BitVec 8) :
    InStep excused M Eq T Eq (setRoundingMode mode : SimM H (BitVec 8)) (setRoundingMode mode) := by
  rintro m _ ⟨memory, _, host, h, rfl, hhost⟩
  exact .ok rfl ⟨memory, _, host, h, rfl, hhost⟩

theorem inStep_selectRM (insn : RvInsn) :
    InStep excused M Eq T Eq (selectRM env insn) (selectRM (env.linked build' io') insn) := by
  refine inStep_getSim.bind fun _ _ hsim => (inStep_lift (hlock.getRM hsim _)).next fun rm => ?_
  cases rm with
  | RNE | RTZ | RDN | RUP | RMM => exact inStep_setRoundingMode _
  | DYN => exact (inStep_lift (hlock.assert _ _)).next fun _ => simulates_pure rfl
  | unnamed value => exact simulates_pure rfl

omit hlock in
theorem inStep_clearFlags :
    InStep excused M Eq T Eq (softFloatClearFExcp : SimM H Unit) softFloatClearFExcp := by
  rintro m _ ⟨memory, _, host, h, rfl, hhost⟩
  exact .ok rfl ⟨memory, _, host, h, rfl, hhost⟩

theorem inStep_retireX (i : RegIndex) (value : Register) :
    InStep excused M Eq T Eq (do setXReg i value; softFloatSetFExcp env.build; step : SimM H Unit)
      (do setXReg i value; softFloatSetFExcp build'; step) :=
  (inStep_setXReg i value).next fun _ => inStep_flags hlock

theorem inStep_retireF (i : RegIndex) (value : FRegister) :
    InStep excused M Eq T Eq (do setFReg i value; softFloatSetFExcp env.build; step : SimM H Unit)
      (do setFReg i value; softFloatSetFExcp build'; step) :=
  (inStep_setFReg i value).next fun _ => inStep_flags hlock

theorem executeRRRFBinOp_inStep {fbinOp : FRegister → FRegister → SimM H FRegister}
    {fbinOp' : FRegister → FRegister → SimM H' FRegister}
    (hop : ∀ a b, InStep excused M Eq T Eq (fbinOp a b) (fbinOp' a b)) :
    InStep excused M Eq T Eq (executeRRRFBinOp env word fbinOp)
      (executeRRRFBinOp (env.linked build' io') word fbinOp') := by
  refine inStep_clearFlags.next fun _ => (inStep_selectRM hlock _).next fun mode => ?_
  refine (inStep_getFReg _).next fun rs1 => (inStep_getFReg _).next fun rs2 => ?_
  exact (hop rs1 rs2).next fun res => inStep_retireF hlock _ res

theorem executeRRRRFTernOp_inStep
    {fternOp : FRegister → FRegister → FRegister → SimM H FRegister}
    {fternOp' : FRegister → FRegister → FRegister → SimM H' FRegister}
    (hop : ∀ a b c, InStep excused M Eq T Eq (fternOp a b c) (fternOp' a b c)) :
    InStep excused M Eq T Eq (executeRRRRFTernOp env word fternOp)
      (executeRRRRFTernOp (env.linked build' io') word fternOp') := by
  refine inStep_clearFlags.next fun _ => (inStep_selectRM hlock _).next fun mode => ?_
  refine (inStep_getFReg _).next fun rs1 => (inStep_getFReg _).next fun rs2 => ?_
  refine (inStep_getFReg _).next fun rs3 => ?_
  exact (hop rs1 rs2 rs3).next fun res => inStep_retireF hlock _ res

theorem executeRRRCmpOp_inStep {fcmpOp : FRegister → FRegister → SimM H Bool}
    {fcmpOp' : FRegister → FRegister → SimM H' Bool}
    (hop : ∀ a b, InStep excused M Eq T Eq (fcmpOp a b) (fcmpOp' a b)) :
    InStep excused M Eq T Eq (executeRRRCmpOp env word fcmpOp)
      (executeRRRCmpOp (env.linked build' io') word fcmpOp') := by
  refine inStep_clearFlags.next fun _ => ?_
  refine (inStep_getFReg _).next fun rs1 => (inStep_getFReg _).next fun rs2 => ?_
  exact (hop rs1 rs2).next fun cmp => inStep_retireX hlock _ _

/-- The instructions that raise flags. -/
theorem flagged_inStep {mnem : InsnMnemonic}
    (h : mnem.effectKind = .flaggedX ∨ mnem.effectKind = .flaggedF) :
    CallbackInStep excused M Eq T env build' io' word mnem := by
  cases mnem with
  | FADD_S | FSUB_S | FMUL_S | FDIV_S =>
      exact executeRRRFBinOp_inStep hlock word fun _ _ => inStep_callSoftFloat _
  | FSQRT_S =>
      refine inStep_clearFlags.next fun _ => (inStep_selectRM hlock _).next fun mode => ?_
      refine (inStep_getFReg _).next fun rs1 => (inStep_callSoftFloat _).next fun res => ?_
      exact inStep_retireF hlock _ res
  | FMADD_S | FMSUB_S | FNMSUB_S =>
      exact executeRRRRFTernOp_inStep hlock word fun _ _ _ => inStep_callSoftFloat _
  | FNMADD_S =>
      exact executeRRRRFTernOp_inStep hlock word fun _ _ _ =>
        (inStep_callSoftFloat _).next fun res => simulates_pure rfl
  | FLE_S | FLT_S | FEQ_S =>
      exact executeRRRCmpOp_inStep hlock word fun _ _ => inStep_callSoftFloat _
  | FCVT_W_S | FCVT_WU_S =>
      refine inStep_clearFlags.next fun _ => (inStep_getFReg _).next fun frs1 => ?_
      refine (inStep_selectRM hlock _).next fun mode => (inStep_callSoftFloat _).next fun conv => ?_
      exact inStep_retireX hlock _ _
  | FCVT_S_W | FCVT_S_WU =>
      refine inStep_clearFlags.next fun _ => (inStep_getXReg _).next fun rs1 => ?_
      exact (inStep_callSoftFloat _).next fun conv => inStep_retireF hlock _ conv
  | _ => rcases h with h | h <;> contradiction

theorem csr_inStep {mnem : InsnMnemonic} (h : mnem.effectKind = .csr) :
    CallbackInStep excused M L T env build' io' word mnem := by
  cases mnem with
  | CSRRW | CSRRS | CSRRC =>
      refine (inStep_getCSR hlock _).next fun tmp => (inStep_getXReg _).next fun rs1 => ?_
      exact (inStep_setCSR hlock _ _).next fun _ => inStep_writeX _ tmp
  | CSRRWI | CSRRSI | CSRRCI =>
      refine (inStep_getCSR hlock _).next fun tmp => ?_
      exact (inStep_setCSR hlock _ _).next fun _ => inStep_writeX _ tmp
  | _ => contradiction

theorem store_inStep {mnem : InsnMnemonic} {n : Nat} (h : mnem.effectKind = .store n) :
    CallbackInStep excused M L T env build' io' word mnem := by
  cases mnem with
  | SB | SH | SW =>
      refine (inStep_getXReg _).next fun rs1 => (inStep_getXReg _).next fun rs2 => ?_
      refine inStep_getMem.bind fun _ _ hmem => (inStep_lift (hlock.storeAt hmem _ _)).bind ?_
      exact fun _ _ hstored => (inStep_setMem hstored).next fun _ => inStep_step
  | FSW =>
      refine (inStep_getXReg _).next fun rs1 => (inStep_getFReg _).next fun rs2 => ?_
      refine inStep_getMem.bind fun _ _ hmem => (inStep_lift (hlock.storeAt hmem _ _)).bind ?_
      exact fun _ _ hstored => (inStep_setMem hstored).next fun _ => inStep_step
  | _ => contradiction

omit hlock in
theorem jump_inStep {mnem : InsnMnemonic} (h : mnem.effectKind = .jump) :
    CallbackInStep excused M L T env build' io' word mnem := by
  cases mnem with
  | BEQ | BNE | BLT | BGE | BLTU | BGEU =>
      simp only [CallbackInStep, getInsnCallback, callbackBEQ, callbackBNE, callbackBLT,
        callbackBGE, callbackBLTU, callbackBGEU]
      exact executeBranch_inStep word _
  | JAL =>
      refine inStep_getIp.next fun ip => (inStep_setXReg _ _).next fun _ => ?_
      exact inStep_getIp.next fun ip => inStep_setIp _
  | JALR =>
      refine inStep_getIp.next fun ip => (inStep_getXReg _).next fun rs1 => ?_
      exact (inStep_setIp _).next fun _ => inStep_setXReg _ _
  | _ => contradiction

/-- The callback ends with the exceptions of its operation. -/
def InsnMnemonic.RaisesFlags (mnem : InsnMnemonic) : Prop :=
  mnem.effectKind = .flaggedX ∨ mnem.effectKind = .flaggedF

/-- The callbacks that raise no flags and make no call. -/
theorem quiet_inStep (hL : RaisesInStep L) {mnem : InsnMnemonic} (hflags : ¬ mnem.RaisesFlags)
    (hne : mnem ≠ .ECALL) : CallbackInStep excused M L T env build' io' word mnem := by
  cases hkind : mnem.effectKind with
  | xReg => exact xReg_inStep hlock word hkind
  | fReg => exact fReg_inStep hlock word hL hkind
  | flaggedX => exact absurd (.inl hkind) hflags
  | flaggedF => exact absurd (.inr hkind) hflags
  | csr => exact csr_inStep hlock word hkind
  | store n => exact store_inStep hlock word hkind
  | jump => exact jump_inStep word hkind
  | nothing =>
      cases mnem with
      | FENCE | FENCE_I | EBREAK => exact inStep_step
      | _ => contradiction
  | syscall =>
      cases mnem with
      | ECALL => exact absurd rfl hne
      | _ => contradiction

/-- Every callback but the system call, whatever the hosts are. -/
theorem callback_inStep_of_ne {mnem : InsnMnemonic} (hne : mnem ≠ .ECALL) :
    CallbackInStep excused M Eq T env build' io' word mnem := by
  by_cases hflags : mnem.RaisesFlags
  · exact flagged_inStep hlock word hflags
  · exact quiet_inStep hlock word raisesInStep_eq hflags hne

section Hosts

variable (hio : env.hostIO.LockStep io' T)

include hio

theorem syscallHandler_inStep :
    InStep excused M L T Eq (syscallHandler env) (syscallHandler (env.linked build' io')) := by
  refine (inStep_getXReg _).next fun syscallId => ?_
  cases SyscallId.toEnum? syscallId with
  | none => exact inStep_lift (hlock.assert _ _)
  | some id =>
      cases id with
      | kExit => exact inStep_modifySim (fun _ _ => rfl) fun _ => rfl
      | kRead =>
          refine (inStep_getXReg _).next fun fd => (inStep_getXReg _).next fun guestBufPtr => ?_
          refine (inStep_getXReg _).next fun size => simulates_get.bind ?_
          rintro m _ ⟨memory, _, host', _, _, hhost⟩
          obtain ⟨hrc, hbuf, hnext⟩ := hio.read hhost fd size.toNat (Vector.replicate _ 0)
          rw [Machine.moved_host]
          generalize env.hostIO.read m.host fd size.toNat _ = answer at hrc hbuf hnext ⊢
          generalize io'.read host' fd size.toNat _ = answer' at hrc hbuf hnext ⊢
          obtain ⟨rc, buf, host⟩ := answer
          obtain ⟨_, _, _⟩ := answer'
          obtain rfl := hrc
          obtain rfl := hbuf
          refine (inStep_setHost hnext).next fun _ => ?_
          dsimp only
          split
          · refine inStep_getMem.bind fun _ _ hmem => ?_
            refine (inStep_lift (hlock.copyHostToGuest hmem _ _ _)).bind fun _ _ hcopied => ?_
            exact (inStep_setMem hcopied).next fun _ => inStep_setXReg _ _
          · exact inStep_setXReg _ _
      | kWrite =>
          refine (inStep_getXReg _).next fun fd => (inStep_getXReg _).next fun guestBufPtr => ?_
          refine (inStep_getXReg _).next fun size => inStep_getMem.bind fun _ _ hmem => ?_
          refine (inStep_lift (hlock.copyGuestToHost hmem _ _)).next fun buf => ?_
          refine simulates_get.bind ?_
          rintro m _ ⟨memory, _, host', _, _, hhost⟩
          obtain ⟨hwc, hnext⟩ := hio.write hhost fd buf
          rw [Machine.moved_host]
          generalize env.hostIO.write m.host fd buf = answer at hwc hnext ⊢
          generalize io'.write host' fd buf = answer' at hwc hnext ⊢
          obtain ⟨wc, host⟩ := answer
          obtain ⟨_, _⟩ := answer'
          obtain rfl := hwc
          exact (inStep_setHost hnext).next fun _ => inStep_setXReg _ _

theorem ecall_inStep : CallbackInStep excused M L T env build' io' word .ECALL :=
  (syscallHandler_inStep hlock hio).next fun _ => inStep_step

/-- Every callback stays in step. -/
theorem callback_inStep (mnem : InsnMnemonic) :
    CallbackInStep excused M Eq T env build' io' word mnem := by
  by_cases hecall : mnem = .ECALL
  · subst hecall
    exact ecall_inStep hlock word hio
  · exact callback_inStep_of_ne hlock word hecall

/-- One iteration of the loop stays in step. -/
theorem executeInsn_inStep :
    InStep excused M Eq T Eq (executeInsn env) (executeInsn (env.linked build' io')) := by
  refine inStep_getMem.bind fun _ _ hmem => inStep_getIp.next fun ip => ?_
  refine (inStep_lift (hlock.load hmem 32 ip)).next fun undecodedInsn => ?_
  cases decode undecodedInsn with
  | none => exact simulates_throw _
  | some mnem => exact callback_inStep hlock undecodedInsn hio mnem

/-- Whole runs stay in step. -/
theorem execute_inStep (fuel : Nat) :
    InStep excused M Eq T Eq (execute env fuel) (execute (env.linked build' io') fuel) := by
  induction fuel with
  | zero =>
      refine inStep_getSim.bind ?_
      rintro sim _ ⟨memory, _⟩
      change InStep excused M Eq T Eq (if sim.shouldStop then _ else _)
        (if sim.shouldStop then _ else _)
      split
      · exact (inStep_getXReg _).next fun a0 => simulates_pure rfl
      · exact simulates_pure rfl
  | succ fuel ih =>
      refine inStep_getSim.bind ?_
      rintro sim _ ⟨memory, _⟩
      change InStep excused M Eq T Eq (if sim.shouldStop then _ else _)
        (if sim.shouldStop then _ else _)
      split
      · exact (inStep_getXReg _).next fun a0 => simulates_pure rfl
      · exact (executeInsn_inStep hlock hio).next fun _ => ih

end Hosts

end Callbacks

end RiscvSim
