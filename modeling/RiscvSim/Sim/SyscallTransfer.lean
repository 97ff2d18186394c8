import RiscvSim.Sim.ByteCopy
import RiscvSim.Sim.Execute

/-!
The two system calls that move bytes between the guest and the host. The buffer
is the range of `a2` bytes from `a1` on, which may wrap around the top of the
address space and cross overlapping segments.
-/

namespace RiscvSim

open ByteStore SimM

variable {H : Type}

/-- `ECALL` has this one encoding. -/
def ecallWord : UndecodedInsn := 0x00000073

theorem decode_ecallWord : decode ecallWord = some .ECALL := by decide

namespace RVSim

/-- The next instruction is an `ECALL` with this number in `a7`. -/
def AtEcall (build : Build) (sim : RVSim) (id : Register) : Prop :=
  sim.memory.fetch build sim.ip = .ok ecallWord ∧ sim.getXReg XRegAlias.a7 = id

theorem AtEcall.kRead {build : Build} {sim : RVSim} (hat : sim.AtEcall build 63) :
    SyscallId.toEnum? (sim.getXReg XRegAlias.a7) = some .kRead := by
  rw [hat.2]
  decide

theorem AtEcall.kWrite {build : Build} {sim : RVSim} (hat : sim.AtEcall build 64) :
    SyscallId.toEnum? (sim.getXReg XRegAlias.a7) = some .kWrite := by
  rw [hat.2]
  decide

def fd (sim : RVSim) : IRegister := sim.getXReg XRegAlias.a0
def guestBufPtr (sim : RVSim) : Address := sim.getXReg XRegAlias.a1
def size (sim : RVSim) : Nat := (sim.getXReg XRegAlias.a2).toNat

/-- The whole buffer of the call is mapped and backed by data. -/
def BufferMapped (sim : RVSim) : Prop := sim.memory.Mapped sim.guestBufPtr sim.size

/-- The state after a call that returns `rc` and leaves this memory. -/
def afterSyscall (sim : RVSim) (memory : Memory) (rc : Int) : RVSim :=
  ({ sim with memory }.setXReg XRegAlias.a0 (BitVec.ofInt 32 rc)).step

theorem afterSyscall_a0 (sim : RVSim) (memory : Memory) (rc : Int) :
    (sim.afterSyscall memory rc).getXReg XRegAlias.a0 = BitVec.ofInt 32 rc := by
  simp [afterSyscall, getXReg_setXReg, XRegAlias.a0, XRegAlias.zero]

end RVSim

/-- What the host's `read` returns for the call the machine is about to make. -/
def Machine.hostRead (env : Env H) (m : Machine H) : Int × Vector MemByte m.sim.size × H :=
  env.hostIO.read m.host m.sim.fd m.sim.size (Vector.replicate m.sim.size 0)

/-- The machine after the host has taken these bytes. -/
def Machine.afterWrite (env : Env H) (m : Machine H) (bytes : List MemByte) : Machine H :=
  { m with
    sim := m.sim.afterSyscall m.sim.memory (env.hostIO.write m.host m.sim.fd bytes).1
    host := (env.hostIO.write m.host m.sim.fd bytes).2 }

theorem executeInsn_ecall (env : Env H) {m : Machine H} {id : Register}
    (hat : m.sim.AtEcall env.build id) :
    (executeInsn env).run m = (callbackECALL env ecallWord).run m :=
  executeInsn_run env hat.1 decode_ecallWord

/-- The write call: the host gets the bytes of the buffer in order. -/
theorem executeInsn_write (env : Env H) {m : Machine H} (hat : m.sim.AtEcall env.build 64)
    {bytes : List MemByte} (hlength : bytes.length = m.sim.size)
    (hbytes : m.sim.memory.Loads env.build m.sim.guestBufPtr bytes) :
    (executeInsn env).run m = .ok () (m.afterWrite env bytes) := by
  have hcopy := hbytes.copyGuestToHost
  unfold RVSim.guestBufPtr at hcopy
  rw [hlength, RVSim.size] at hcopy
  rw [executeInsn_ecall env hat, callbackECALL, EStateM.run_bind]
  simp only [syscallHandler, EStateM.run_bind, run_getXReg, run_getMem, hat.kWrite]
  simp only [hcopy, run_lift_ok, EStateM.run_get, EStateM.run_modify, run_setXReg, run_step]
  dsimp only [Machine.afterWrite, RVSim.afterSyscall, RVSim.fd, Machine.mapSim]

section Read

variable (env : Env H) {m : Machine H} (hat : m.sim.AtEcall env.build 63) {rc : Int}
  {buf : Vector MemByte m.sim.size} {host : H} (hread : m.hostRead env = (rc, buf, host))

include hat hread

/-- The read call that the host refuses. -/
theorem executeInsn_read_failed (hrc : rc < 0) :
    (executeInsn env).run m =
      .ok () { m with sim := m.sim.afterSyscall m.sim.memory rc, host } := by
  have hnot : ¬ rc ≥ 0 := by omega
  unfold Machine.hostRead RVSim.fd RVSim.size at hread
  rw [executeInsn_ecall env hat]
  simp only [callbackECALL, syscallHandler, EStateM.run_bind, run_getXReg, hat.kRead, EStateM.run_get,
    hread, EStateM.run_modify, hnot, if_false, run_setXReg, run_step]
  rfl

/-- The read call with a count of bytes, all of which have a place: they replace
the front of the buffer. -/
theorem executeInsn_read (hfront : m.sim.memory.Mapped m.sim.guestBufPtr rc.toNat) (hrc : 0 ≤ rc)
    (hcount : rc ≤ m.sim.size) :
    ∃ memory : Memory,
      memory.byteAt =
        write m.sim.memory.byteAt m.sim.guestBufPtr (buf.toList.take rc.toNat) ∧
      memory.layout = m.sim.memory.layout ∧
      (executeInsn env).run m = .ok () { m with sim := m.sim.afterSyscall memory rc, host } := by
  have hsize : m.sim.size < 2 ^ 32 := BitVec.isLt _
  have hlength : buf.toList.length = m.sim.size := Vector.length_toList
  obtain ⟨memory, hcopy, hbytes, hlayout⟩ :=
    Memory.copyHostToGuest_spec env.build hfront (by omega : rc.toNat ≤ buf.toList.length)
      (by omega)
  refine ⟨memory, hbytes, hlayout, ?_⟩
  unfold Machine.hostRead RVSim.fd RVSim.size at hread
  unfold RVSim.guestBufPtr RVSim.size at hcopy
  rw [executeInsn_ecall env hat]
  simp only [callbackECALL, syscallHandler, EStateM.run_bind, run_getXReg, hat.kRead, EStateM.run_get,
    hread, EStateM.run_modify, ge_iff_le, hrc, if_true, run_getMem, hcopy, run_lift_ok,
    run_setMem, run_setXReg, run_step]
  rfl

end Read

/-- A write call hands the host the bytes of the buffer, a read call leaves in
the buffer the bytes of the host, and nothing but `a0` and `ip` changes beside;
so a write of a buffer that was read into passes the same bytes on. -/
theorem syscall_transfer (env : Env H) (m : Machine H) (hmapped : m.sim.BufferMapped) :
    (m.sim.AtEcall env.build 64 →
      ∃ bytes : List MemByte, bytes.length = m.sim.size ∧
        m.sim.memory.Loads env.build m.sim.guestBufPtr bytes ∧
        (executeInsn env).run m = .ok () (m.afterWrite env bytes)) ∧
    (m.sim.AtEcall env.build 63 →
      ∀ (rc : Int) (buf : Vector MemByte m.sim.size) (host : H),
        m.hostRead env = (rc, buf, host) →
        (rc < 0 →
          (executeInsn env).run m =
            .ok () { m with sim := m.sim.afterSyscall m.sim.memory rc, host }) ∧
        (0 ≤ rc → rc ≤ m.sim.size →
          ∃ memory : Memory,
            (executeInsn env).run m =
              .ok () { m with sim := m.sim.afterSyscall memory rc, host } ∧
            ((m.sim.afterSyscall memory rc).getXReg XRegAlias.a0).toNat = rc ∧
            memory.Loads env.build m.sim.guestBufPtr (buf.toList.take rc.toNat) ∧
            memory.layout = m.sim.memory.layout ∧
            (∀ x, ¬ Covers m.sim.guestBufPtr rc.toNat x →
              memory.byteAt x = m.sim.memory.byteAt x ∧
              memory.loadU8 env.build x = m.sim.memory.loadU8 env.build x) ∧
            ∀ later : Machine H, later.sim.AtEcall env.build 64 →
              later.sim.guestBufPtr = m.sim.guestBufPtr → later.sim.size = rc.toNat →
              (∀ i < rc.toNat,
                later.sim.memory.loadU8 env.build (m.sim.guestBufPtr + BitVec.ofNat 32 i) =
                  memory.loadU8 env.build (m.sim.guestBufPtr + BitVec.ofNat 32 i)) →
              (executeInsn env).run later =
                .ok () (later.afterWrite env (buf.toList.take rc.toNat)))) := by
  constructor
  · intro hat
    obtain ⟨bytes, hlength, hbytes⟩ := hmapped.exists_loads env.build
    exact ⟨bytes, hlength, hbytes, executeInsn_write env hat hlength hbytes⟩
  · intro hat rc buf host hread
    refine ⟨executeInsn_read_failed env hat hread, ?_⟩
    intro hrc hcount
    have hfront : m.sim.memory.Mapped m.sim.guestBufPtr rc.toNat :=
      fun i hi => hmapped i (by omega)
    obtain ⟨memory, hwrite, hlayout, hrun⟩ := executeInsn_read env hat hread hfront hrc hcount
    have hsize : m.sim.size < 2 ^ 32 := BitVec.isLt _
    have hfull : buf.toList.length = m.sim.size := Vector.length_toList
    have hlength : (buf.toList.take rc.toNat).length = rc.toNat := by
      rw [List.length_take]
      omega
    have hloads : memory.Loads env.build m.sim.guestBufPtr (buf.toList.take rc.toNat) :=
      (Memory.hasBytes_of_write hwrite (by omega)).loads env.build
    refine ⟨memory, hrun, ?_, hloads, hlayout, ?_, ?_⟩
    · rw [RVSim.afterSyscall_a0, BitVec.toNat_ofInt]
      omega
    · intro x hx
      have hbyte : memory.byteAt x = m.sim.memory.byteAt x := by
        rw [hwrite, write_frame _ _ _ (by rwa [hlength])]
      exact ⟨hbyte, Memory.loadU8_congr env.build hlayout hbyte⟩
    · intro later hlater hptr hlaterSize hsame
      apply executeInsn_write env hlater (by omega)
      intro i hi
      rw [hptr, hsame i (by omega)]
      exact hloads i hi

/-- About to read three bytes to `0x2001`, across the end of the first of two
overlapping segments. -/
def readingMachine : Machine (List MemByte) where
  sim :=
    { memory := ⟨[⟨0x100, 0x104, [0x73, 0, 0, 0], true, false, true⟩,
        ⟨0x2000, 0x2002, [1, 2], true, true, false⟩,
        ⟨0x2000, 0x2004, [3, 4, 5, 6], true, true, false⟩]⟩
      ip := 0x100
      shouldStop := false
      xregs := Vector.ofFn fun i =>
        if i = XRegAlias.a1 then 0x2001 else if i = XRegAlias.a2 then 3
        else if i = XRegAlias.a7 then 63 else 0
      fregs := Vector.replicate 32 0
      fcsr := 0 }
  softfloat := ⟨0, 0⟩
  host := [0x68, 0x69, 0x0a, 0x00]

theorem syscall_transfer_overlap :
    ∃ memory : Memory,
      (executeInsn queueEnv).run readingMachine =
        .ok () { readingMachine with
          sim := readingMachine.sim.afterSyscall memory 3
          host := [0x00] } ∧
      memory.Loads .release 0x2001 [0x68, 0x69, 0x0a] := by
  have hmapped : readingMachine.sim.BufferMapped := by
    unfold RVSim.BufferMapped
    decide
  have hread : readingMachine.hostRead queueEnv = (3, #v[0x68, 0x69, 0x0a], [0x00]) := rfl
  obtain ⟨memory, hrun, _, hloads, _⟩ :=
    ((syscall_transfer queueEnv readingMachine hmapped).2 ⟨rfl, rfl⟩ 3 _ _ hread).2
      (by decide) (by decide)
  exact ⟨memory, hrun, hloads⟩

end RiscvSim
