import RiscvSim.Sim.ReleaseFaults
import RiscvSim.Sim.StepEffects

/-!
System calls on a buffer that is not all in guest memory. Without assertions the
byte loops drop a byte that has no place and make up a zero for one that is not
there, and the result register is that of the host call alone.
-/

namespace RiscvSim

open ByteStore Outcomes SimM

variable {H : Type}

/-- What the host documents of the result of `read`: minus one, or a number of
bytes that is neither above the number asked for nor above `0x7ffff000`. -/
structure DocumentedCount (rc : Int) (size : Nat) : Prop where
  error : -1 ≤ rc
  asked : rc ≤ size
  limit : rc ≤ 0x7ffff000

/-- The read call returns. With a positive result all the bytes read are in the
buffer, and if they have no place there the result is negative and the memory as
it was. -/
def ReadReported (env : Env H) (m : Machine H) : Prop :=
  ∃ m', (executeInsn env).run m = .ok () m' ∧
    (0 < (m'.sim.getXReg XRegAlias.a0).toInt →
      m'.sim.memory.HasBytes m.sim.guestBufPtr
        ((m.hostRead env).2.1.toList.take (m.hostRead env).1.toNat)) ∧
    (¬ m.sim.memory.Mapped m.sim.guestBufPtr (m.hostRead env).1.toNat →
      (m'.sim.getXReg XRegAlias.a0).toInt < 0 ∧ m'.sim.memory = m.sim.memory)

/-- A call of the host's `write`: the bytes handed to it, and what it returned. -/
structure WriteCall where
  bytes : List MemByte
  count : Int

/-- The bytes that the host took. -/
def WriteCall.taken (call : WriteCall) : List MemByte := call.bytes.take call.count.toNat

/-- The same host, which keeps a log of the calls to `write`. -/
def HostIO.logged (calls : HostIO H) : HostIO (H × List WriteCall) where
  read host fd size buf :=
    let (rc, buf, host') := calls.read host.1 fd size buf
    (rc, buf, (host', host.2))
  write host fd bytes :=
    let (wc, host') := calls.write host.1 fd bytes
    (wc, (host', host.2 ++ [⟨bytes, wc⟩]))

def Env.logged (env : Env H) : Env (H × List WriteCall) :=
  ⟨env.build, env.softfloat, env.hostIO.logged⟩

def Machine.logged (m : Machine H) : Machine (H × List WriteCall) :=
  ⟨m.sim, m.softfloat, (m.host, [])⟩

/-- The write call returns, and the bytes sent are those that guest memory holds
from the start of the buffer on. -/
def WriteReported (env : Env H) (m : Machine H) (sent : WriteCall → List MemByte) : Prop :=
  ∃ m', (executeInsn env.logged).run m.logged = .ok () m' ∧
    ∀ call ∈ m'.host.2, m.sim.memory.HasBytes m.sim.guestBufPtr (sent call)

namespace Memory

variable {mem : Memory} {addr : Address}

/-- The bytes that loads return are the ones there, as far as there are any. -/
theorem Loads.hasBytes {build : Build} {bytes : List MemByte} (h : mem.Loads build addr bytes)
    {n : Nat} (hmapped : mem.Mapped addr n) : mem.HasBytes addr (bytes.take n) := by
  intro i hi
  rw [List.length_take] at hi
  obtain ⟨byte, hbyte⟩ := Option.isSome_iff_exists.mp (hmapped i (by omega))
  have hload := h i (by omega)
  rw [mem.loadU8_of_byteAt build hbyte] at hload
  cases hload
  rw [List.getElem_take, hbyte]

theorem NoSegment.byteAt (h : mem.NoSegment addr) : mem.byteAt addr = none := by
  have hfind : mem.memory.find? (isAddrInSegment addr) = none := by
    rw [List.find?_eq_none]
    intro segm hsegm
    simp [h segm hsegm]
  rw [Memory.byteAt, hfind]
  rfl

/-- The write system call's loop returns what the byte loads do. -/
theorem copyGuestToHost_returns (build : Build) (mem : Memory) (addr : Address) (size : Nat) :
    Returns (mem.copyGuestToHost build addr size) fun bytes =>
      bytes.length = size ∧ mem.Loads build addr bytes := by
  intro bytes hcopy
  have hrounds := returns_mapM (List.range size) bytes hcopy
  have hlength : bytes.length = size := by
    rw [← hrounds.length_eq, List.length_range]
  refine ⟨hlength, ?_⟩
  intro i hi
  have hround := hrounds.get (i := i) (by rwa [List.length_range, ← hlength]) hi
  simpa using hround

end Memory

/-- A documented count fits into the result register. -/
theorem afterSyscall_toInt (sim : RVSim) (memory : Memory) {rc : Int} {size : Nat}
    (hcount : DocumentedCount rc size) :
    ((sim.afterSyscall memory rc).getXReg XRegAlias.a0).toInt = rc := by
  have herror := hcount.error
  have hlimit := hcount.limit
  rw [RVSim.afterSyscall_a0, BitVec.toInt_ofInt]
  exact Int.bmod_eq_of_le (by omega) (by omega)

theorem ends_executeInsn_ecall (env : Env H) {m : Machine H} {id : Register}
    (hat : m.sim.AtEcall env.build id) {Q : Unit → Machine H → Prop} :
    Ends (executeInsn env) m Q ↔ Ends (callbackECALL env ecallWord) m Q := by
  unfold Ends
  rw [executeInsn_ecall env hat]

section Read

variable (env : Env H) {m : Machine H} (hat : m.sim.AtEcall env.build 63)

include hat

/-- Whatever happened to the memory, the result is that of the host. -/
theorem executeInsn_read_ends :
    Ends (executeInsn env) m fun _ m' =>
      ∃ memory, m'.sim = m.sim.afterSyscall memory (m.hostRead env).1 := by
  rw [ends_executeInsn_ecall env hat]
  simp only [callbackECALL, syscallHandler, ends_bind, ends_getXReg, hat.kRead, ends_get, ends_modify]
  split
  · simp only [ends_bind, ends_getMem, ends_lift, ends_setMem, ends_setXReg, ends_step]
    intro memory _
    exact ⟨memory, rfl⟩
  · simp only [ends_setXReg, ends_step]
    exact ⟨m.sim.memory, rfl⟩

/-- A read reports its failure exactly when there was none: nothing was read, or
there was a place for all of it. -/
theorem readReported_iff (hcount : DocumentedCount (m.hostRead env).1 m.sim.size) :
    ReadReported env m ↔ (m.hostRead env).1 ≤ 0 ∨
      m.sim.memory.Mapped m.sim.guestBufPtr (m.hostRead env).1.toNat := by
  constructor
  · rintro ⟨m', hrun, _, hlost⟩
    by_contra hnot
    obtain ⟨hpositive, hunmapped⟩ := not_or.mp hnot
    obtain ⟨memory, hsim⟩ := executeInsn_read_ends env hat () m' hrun
    have hnegative := (hlost hunmapped).1
    rw [hsim, afterSyscall_toInt _ memory hcount] at hnegative
    omega
  · intro h
    have hvalue (memory : Memory) := afterSyscall_toInt m.sim memory hcount
    have hasked := hcount.asked
    obtain ⟨⟨rc, buf, host⟩, hread⟩ : ∃ res, m.hostRead env = res := ⟨_, rfl⟩
    rw [ReadReported, hread]
    rw [hread] at h hvalue hasked
    by_cases hnegative : rc < 0
    · refine ⟨_, executeInsn_read_failed env hat hread hnegative, ?_, ?_⟩
      · intro hpositive
        rw [hvalue] at hpositive
        omega
      · intro _
        exact ⟨(hvalue _).trans_lt hnegative, rfl⟩
    · have hfront : m.sim.memory.Mapped m.sim.guestBufPtr rc.toNat := by
        intro i hi
        exact h.resolve_left (by omega) i hi
      obtain ⟨memory, hwrite, _, hrun⟩ :=
        executeInsn_read env hat hread hfront (by omega) hasked
      refine ⟨_, hrun, fun _ => ?_, fun hunmapped => absurd hfront hunmapped⟩
      refine Memory.hasBytes_of_write hwrite ?_
      have hsize : m.sim.size < 2 ^ 32 := BitVec.isLt _
      rw [List.length_take, Vector.length_toList]
      omega

end Read

/-- A buffer with a gap is not mapped to its end. -/
theorem not_mapped_of_gap {sim : RVSim}
    (hgap : ∃ i < sim.size, sim.memory.NoSegment (sim.guestBufPtr + BitVec.ofNat 32 i)) {n : Nat}
    (h : sim.memory.Mapped sim.guestBufPtr n) :
    n < sim.size := by
  obtain ⟨i, hi, hnone⟩ := hgap
  by_contra hn
  have hbyte := h i (by omega)
  rw [hnone.byteAt] at hbyte
  simp at hbyte

section Write

variable (env : Env H) {m : Machine H} (hat : m.sim.AtEcall env.build 64)

include hat

/-- The host is handed what the byte loads return. -/
theorem executeInsn_write_ends :
    Ends (executeInsn env) m fun _ m' =>
      ∃ bytes : List MemByte, bytes.length = m.sim.size ∧
        m.sim.memory.Loads env.build m.sim.guestBufPtr bytes ∧ m' = m.afterWrite env bytes := by
  rw [ends_executeInsn_ecall env hat]
  simp only [callbackECALL, syscallHandler, ends_bind, ends_getXReg, hat.kWrite, ends_getMem, ends_lift,
    ends_get, ends_modify, ends_setXReg, ends_step]
  intro bytes hcopy
  obtain ⟨hlength, hloads⟩ := Memory.copyGuestToHost_returns _ _ _ _ bytes hcopy
  exact ⟨bytes, hlength, hloads, rfl⟩

variable (hgap : ∃ i < m.sim.size,
  m.sim.memory.NoSegment (m.sim.guestBufPtr + BitVec.ofNat 32 i))

include hgap

/-- The host is always handed a byte that is not there. -/
theorem not_writeReported : ¬ WriteReported env m WriteCall.bytes := by
  rintro ⟨m', hrun, hsent⟩
  obtain ⟨bytes, hlength, _, rfl⟩ := executeInsn_write_ends env.logged (m := m.logged) hat () m' hrun
  have hmapped := (hsent _ List.mem_cons_self).mapped
  have hshort := not_mapped_of_gap hgap hmapped
  exact absurd hlength (Nat.ne_of_lt hshort)

/-- The host takes such a byte exactly when it takes more than are there from the
start of the buffer on. -/
theorem writeReported_taken_iff {bytes : List MemByte} (hlength : bytes.length = m.sim.size)
    (hloads : m.sim.memory.Loads env.build m.sim.guestBufPtr bytes) :
    WriteReported env m WriteCall.taken ↔
      m.sim.memory.Mapped m.sim.guestBufPtr
        (env.hostIO.write m.host m.sim.fd bytes).1.toNat := by
  have hrun := executeInsn_write env.logged (m := m.logged) hat hlength hloads
  constructor
  · rintro ⟨m', hrun', hsent⟩
    rw [hrun] at hrun'
    cases hrun'
    have hmapped : m.sim.memory.Mapped m.sim.guestBufPtr
        (bytes.take (env.hostIO.write m.host m.sim.fd bytes).1.toNat).length :=
      (hsent _ List.mem_cons_self).mapped
    have hshort := not_mapped_of_gap hgap hmapped
    rw [List.length_take] at hmapped hshort
    rwa [Nat.min_eq_left (by omega)] at hmapped
  · intro hmapped
    refine ⟨_, hrun, ?_⟩
    intro call hcall
    obtain rfl := List.mem_singleton.mp hcall
    exact hloads.hasBytes hmapped

end Write

/-- On a buffer with a byte in no segment, a read call reports what it did exactly
when the host read nothing or there was a place for all that it read; a write call
never keeps to what guest memory holds, and the host takes nothing but that
exactly when it stops before the first byte that is not there. -/
theorem syscall_reported_iff (env : Env H) (m : Machine H)
    (hgap : ∃ i < m.sim.size,
      m.sim.memory.NoSegment (m.sim.guestBufPtr + BitVec.ofNat 32 i)) :
    (m.sim.AtEcall env.build 63 → DocumentedCount (m.hostRead env).1 m.sim.size →
      (ReadReported env m ↔ (m.hostRead env).1 ≤ 0 ∨
        m.sim.memory.Mapped m.sim.guestBufPtr (m.hostRead env).1.toNat)) ∧
    (m.sim.AtEcall env.build 64 →
      ¬ WriteReported env m WriteCall.bytes ∧
      ∀ bytes : List MemByte, bytes.length = m.sim.size →
        m.sim.memory.Loads env.build m.sim.guestBufPtr bytes →
        (WriteReported env m WriteCall.taken ↔
          m.sim.memory.Mapped m.sim.guestBufPtr
            (env.hostIO.write m.host m.sim.fd bytes).1.toNat)) := by
  constructor
  · intro hat hcount
    exact readReported_iff env hat hcount
  · intro hat
    refine ⟨not_writeReported env hat hgap, ?_⟩
    intro bytes hlength hloads
    exact writeReported_taken_iff env hat hgap hlength hloads

/-- About to read three bytes to the last place of a segment. -/
def tornSim : RVSim := readingMachine.sim.setXReg XRegAlias.a1 0x2003

def tornMachine (pending : List MemByte) : Machine (List MemByte) :=
  ⟨tornSim, readingMachine.softfloat, pending⟩

theorem tornSim_gap :
    ∃ i < tornSim.size, tornSim.memory.NoSegment (tornSim.guestBufPtr + BitVec.ofNat 32 i) := by
  refine ⟨1, by decide, ?_⟩
  unfold Memory.NoSegment
  decide

/-- The host has one byte, for which there is a place. -/
theorem syscall_reported_iff_short : ReadReported queueEnv (tornMachine [0x68]) := by
  obtain ⟨hread, _⟩ := syscall_reported_iff queueEnv (tornMachine [0x68]) tornSim_gap
  refine (hread ⟨rfl, rfl⟩ ⟨by decide, by decide, by decide⟩).mpr (.inr ?_)
  decide

/-- The host has three bytes: the call stores one and returns three. -/
theorem torn_read_returns_three :
    (tornMachine [0x68, 0x69, 0x0a]).sim.AtEcall queueEnv.build 63 ∧
      ∃ m', (executeInsn queueEnv).run (tornMachine [0x68, 0x69, 0x0a]) = .ok () m' ∧
        m'.sim.getXReg XRegAlias.a0 = 3 ∧
        m'.sim.memory.byteAt 0x2003 = some 0x68 ∧ m'.sim.memory.byteAt 0x2004 = none ∧
        ¬ ReadReported queueEnv (tornMachine [0x68, 0x69, 0x0a]) := by
  have hat : (tornMachine [0x68, 0x69, 0x0a]).sim.AtEcall queueEnv.build 63 := ⟨rfl, rfl⟩
  refine ⟨hat, _, rfl, rfl, by decide, by decide, ?_⟩
  rw [readReported_iff queueEnv hat ⟨by decide, by decide, by decide⟩]
  decide

end RiscvSim
