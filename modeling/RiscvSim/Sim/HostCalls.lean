import RiscvSim.Sim.ExecuteEnds
import RiscvSim.Sim.SameRuns
import RiscvSim.Sim.SyscallFaults

/-!
The host on the other side of the system calls. A run depends on its host by the
answers to the calls only, and it leaves the host as its read and write calls
do, one after the other. Both hold of a run that ends in a fault as well.
-/

namespace RiscvSim

open Runs SimM Simulation

variable {H H' : Type} {env : Env H}

theorem Machine.Matches.host {M : Memory → Memory → Prop} {T : H → H' → Prop} {m : Machine H}
    {m' : Machine H'} (h : m.Matches M Eq T m') : T m.host m'.host := by
  cases h with
  | mk _ _ _ _ _ hhost => exact hhost

theorem lockStep_same (build : Build) : Memory.LockStep (fun _ => False) build build Eq where
  assert := answers_assert_self build
  load := by
    rintro mem _ rfl w addr
    exact answers_refl _
  store := by
    rintro mem _ rfl w addr val
    cases storeTo build addr val mem.memory with
    | ok segms => exact .ok rfl
    | error fault => exact .error fault

section Parametric

variable {io' : HostIO H'} {T : H → H' → Prop}

/-- Two machines that are equal but for their hosts, which are related. -/
structure Machine.SameButHost (T : H → H' → Prop) (m : Machine H) (m' : Machine H') : Prop where
  sim : m'.sim = m.sim
  softfloat : m'.softfloat = m.softfloat
  host : T m.host m'.host

theorem Machine.sameButHost_iff {m : Machine H} {m' : Machine H'} :
    m.SameButHost T m' ↔ m.Matches Eq Eq T m' := by
  constructor
  · rintro ⟨hsim, hsoftfloat, hhost⟩
    obtain ⟨sim, softfloat, host⟩ := m'
    obtain rfl := hsim
    obtain rfl := hsoftfloat
    exact ⟨m.sim.memory, m.softfloat, host, rfl, rfl, hhost⟩
  · rintro ⟨_, _, host, rfl, rfl, hhost⟩
    exact ⟨rfl, rfl, hhost⟩

/-- With a host that answers alike, a run ends in the same way. -/
theorem execute_hosts (env : Env H) (hio : env.hostIO.LockStep io' T) (fuel : Nat) {m : Machine H}
    {m' : Machine H'} (hsame : m.SameButHost T m') :
    SameEnd (Machine.SameButHost T) ((execute env fuel).run m)
      ((execute (env.linked env.build io') fuel).run m') := by
  have hends := execute_inStep (lockStep_same env.build) hio fuel m m'
    (Machine.sameButHost_iff.mp hsame)
  exact SameEnd.mono (fun _ _ => Machine.sameButHost_iff.mpr) hends

/-- A host that keeps a log answers as the host without one. -/
theorem HostIO.lockStep_logged (io : HostIO H) :
    io.LockStep io.logged fun host logged => logged.1 = host where
  read := by
    rintro _ host rfl fd size buf
    exact ⟨rfl, rfl, rfl⟩
  write := by
    rintro _ host rfl fd bytes
    exact ⟨rfl, rfl⟩

theorem execute_hosts_logged :
    SameEnd (Machine.SameButHost fun host logged => logged.1 = host)
      ((execute queueEnv 1).run readingMachine)
      ((execute (queueEnv.linked .release HostIO.queue.logged) 1).run readingMachine.logged) :=
  execute_hosts queueEnv HostIO.queue.lockStep_logged 1 ⟨rfl, rfl, rfl⟩

end Parametric

section Log

/-- A call that the simulator makes to its host. -/
inductive HostCall where
  | read (fd : IRegister) (size : Nat)
  | write (fd : IRegister) (bytes : List MemByte)
  deriving DecidableEq, Repr

/-- What the call makes of the host. -/
def HostCall.apply (io : HostIO H) (host : H) : HostCall → H
  | .read fd size => (io.read host fd size (Vector.replicate size 0)).2.2
  | .write fd bytes => (io.write host fd bytes).2

/-- The call that the system call handler makes. It gets to the host with a
buffer to write only if all of the buffer can be loaded. -/
def Machine.handlerCall (env : Env H) (m : Machine H) : Option HostCall :=
  match SyscallId.toEnum? (m.sim.getXReg XRegAlias.a7) with
  | some .kRead => some (.read m.sim.fd m.sim.size)
  | some .kWrite =>
      match m.sim.memory.copyGuestToHost env.build m.sim.guestBufPtr m.sim.size with
      | .ok bytes => some (.write m.sim.fd bytes)
      | .error _ => none
  | some .kExit => none
  | none => none

/-- The call that the next iteration makes. -/
def Machine.nextCall (env : Env H) (m : Machine H) : Option HostCall :=
  match m.sim.memory.fetch env.build m.sim.ip with
  | .ok word => if word = ecallWord then m.handlerCall env else none
  | .error _ => none

/-- The host behind a list of calls, the first one first. -/
def replay (io : HostIO H) (host : H) (calls : List HostCall) : H :=
  calls.foldl (HostCall.apply io) host

/-- The calls that the first `n` iterations of a run make. -/
def callsOf (env : Env H) (trace : Nat → Machine H) (n : Nat) : List HostCall :=
  (List.range n).filterMap fun k => (trace k).nextCall env

/-- No callback but the system call touches the host. -/
theorem callback_host_of_ne {mnem : InsnMnemonic} (hne : mnem ≠ .ECALL) (word : UndecodedInsn)
    (m : Machine H) : (stateOf ((getInsnCallback env mnem word).run m)).host = m.host := by
  have hstep : CallbackInStep (fun _ => False) Eq Eq (fun host (_ : H) => host = m.host) env
      env.build env.hostIO word mnem :=
    callback_inStep_of_ne (lockStep_same env.build) word hne
  have hends := hstep m m ⟨m.sim.memory, m.softfloat, m.host, rfl, rfl, rfl⟩
  exact (SameEnd.stateOf hends).host

theorem syscallHandler_host (env : Env H) (m : Machine H) :
    (stateOf ((syscallHandler env).run m)).host =
      replay env.hostIO m.host (m.handlerCall env).toList := by
  unfold Machine.handlerCall
  simp only [syscallHandler, EStateM.run_bind, run_getXReg]
  cases SyscallId.toEnum? (m.sim.getXReg XRegAlias.a7) with
  | none =>
      dsimp only
      cases env.build.assert false "unknown syscall id" with
      | ok => rfl
      | error fault => rfl
  | some id =>
      cases id with
      | kExit => rfl
      | kRead =>
          -- the host has answered before the bytes are put into the guest memory
          simp only [EStateM.run_bind, run_getXReg, EStateM.run_get, EStateM.run_modify]
          split
          · simp only [EStateM.run_bind, run_getMem]
            cases Memory.copyHostToGuest env.build m.sim.memory _ _ _ with
            | ok memory => rfl
            | error fault => rfl
          · rfl
      | kWrite =>
          unfold RVSim.guestBufPtr RVSim.size
          simp only [EStateM.run_bind, run_getXReg, run_getMem]
          cases Memory.copyGuestToHost env.build m.sim.memory _ _ with
          | ok bytes => rfl
          | error fault => rfl

/-- One iteration makes its call, whether it completes or ends in a fault. -/
theorem executeInsn_host (env : Env H) (m : Machine H) :
    (stateOf ((executeInsn env).run m)).host =
      replay env.hostIO m.host (m.nextCall env).toList := by
  unfold Machine.nextCall
  cases hfetch : m.sim.memory.fetch env.build m.sim.ip with
  | error fault =>
      simp only [executeInsn, EStateM.run_bind, run_getMem, run_getIp, hfetch]
      rfl
  | ok word =>
      dsimp only
      by_cases hecall : word = ecallWord
      · subst hecall
        rw [executeInsn_run env hfetch decode_ecallWord, if_pos rfl]
        refine (stateOf_bind_of_rest (p := Machine.host) (fun _ _ => rfl) m).trans ?_
        exact syscallHandler_host env m
      · rw [if_neg hecall]
        cases hdecode : decode word with
        | none =>
            rw [executeInsn_unknown env hfetch hdecode]
            rfl
        | some mnem =>
            have hne : mnem ≠ .ECALL := by
              rintro rfl
              exact hecall (eq_ecallWord_of_decode hdecode)
            rw [executeInsn_run env hfetch hdecode, callback_host_of_ne hne]
            rfl

theorem replay_append (io : HostIO H) (host : H) (calls rest : List HostCall) :
    replay io host (calls ++ rest) = replay io (replay io host calls) rest :=
  List.foldl_append

theorem callsOf_succ (env : Env H) (trace : Nat → Machine H) (n : Nat) :
    callsOf env trace (n + 1) = callsOf env trace n ++ ((trace n).nextCall env).toList := by
  unfold callsOf
  rw [List.range_succ, List.filterMap_append]
  rfl

/-- The host behind the iterations of a run. -/
theorem isRun_host {trace : Nat → Machine H} {n : Nat} (hrun : IsRun (Iterates env) trace n) :
    (trace n).host = replay env.hostIO (trace 0).host (callsOf env trace n) := by
  induction n with
  | zero => rfl
  | succ n ih =>
      have hfront := ih fun k hk => hrun k (by omega)
      have hstep := executeInsn_host env (trace n)
      rw [(hrun n (by omega)).2, hfront, ← replay_append, ← callsOf_succ] at hstep
      exact hstep

/-- However a call of `Execute` ends, the host is left as by the calls of its
iterations, in their order and with no other calls among them. A run that ends in
a fault may have made one in its last iteration. -/
theorem execute_host (env : Env H) (fuel : Nat) (m : Machine H) :
    (∀ rc m', (execute env fuel).run m = .ok rc m' →
      ∃ trace n, n ≤ fuel ∧ IsRun (Iterates env) trace n ∧ trace 0 = m ∧ trace n = m' ∧
        m'.host = replay env.hostIO m.host (callsOf env trace n)) ∧
    (∀ fault m', (execute env fuel).run m = .error fault m' →
      ∃ trace n, n < fuel ∧ IsRun (Iterates env) trace n ∧ trace 0 = m ∧
        (executeInsn env).run (trace n) = .error fault m' ∧
        m'.host = replay env.hostIO m.host (callsOf env trace (n + 1))) := by
  constructor
  · intro rc m' hend
    obtain ⟨trace, n, hn, hrun, rfl, rfl⟩ := execute_ends env fuel m rc m' hend
    exact ⟨trace, n, hn, hrun, rfl, rfl, isRun_host hrun⟩
  · intro fault m' hend
    obtain ⟨n, last, hn, ⟨trace, hrun, rfl, rfl⟩, _, hfault⟩ := execute_error_iff.mp hend
    have hstep := executeInsn_host env (trace n)
    rw [hfault, isRun_host hrun, ← replay_append, ← callsOf_succ] at hstep
    exact ⟨trace, n, hn, hrun, rfl, hfault, hstep⟩

end Log

end RiscvSim
