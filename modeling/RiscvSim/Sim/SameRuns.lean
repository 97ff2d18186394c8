import Mathlib.Data.List.Perm.Basic
import RiscvSim.Sim.LockStep
import RiscvSim.Sim.Rv32iStep
import RiscvSim.Sim.WordWindows

/-!
What a run of the simulator does not depend on: the build it was made with, as
long as no assertion fails; the permission flags of the segments; the order of
segments that do not overlap; and segments that the program never touches. Each
is a relation between memories that the loads and the stores respect.
-/

namespace RiscvSim

open LittleEndian SimM Simulation

variable {H : Type}

/-- A failed assertion, which only a debug build has. -/
def Fault.IsAssertion : Fault → Prop
  | .assertion _ => True
  | _ => False

theorem answers_assert_self {excused : Fault → Prop} (build : Build) (condition : Bool)
    (text : String) :
    Answers excused Eq (build.assert condition text) (build.assert condition text) :=
  answers_refl _

/-- A debug build stops at an assertion or goes on like any other build. -/
theorem answers_assert_debug (build : Build) (condition : Bool) (text : String) :
    Answers Fault.IsAssertion Eq (Build.debug.assert condition text)
      (build.assert condition text) := by
  cases condition with
  | false => exact .excused trivial _
  | true =>
      rw [Build.assert_true, Build.assert_true]
      exact .ok rfl

section Extension

/-! A debug build, and more segments behind the list. The ones behind are only
looked at for an address that the debug build asserts against. -/

/-- The same segments with more of them behind. -/
def Memory.Extends (extra : List MemorySegm) (mem mem' : Memory) : Prop :=
  mem'.memory = mem.memory ++ extra

variable (extra : List MemorySegm) (build : Build)

theorem loadFrom_extends (w : Nat) (addr : Address) (segms : List MemorySegm) :
    Answers Fault.IsAssertion Eq (loadFrom .debug w addr segms)
      (loadFrom build w addr (segms ++ extra)) := by
  induction segms with
  | nil => exact .excused trivial _
  | cons segm rest ih =>
      rw [List.cons_append]
      unfold loadFrom
      split
      · exact ih
      · exact answers_refl _

theorem storeTo_extends {w : Nat} (addr : Address) (val : BitVec w) (segms : List MemorySegm) :
    Answers Fault.IsAssertion (fun segms segms' => segms' = segms ++ extra)
      (storeTo .debug addr val segms) (storeTo build addr val (segms ++ extra)) := by
  induction segms with
  | nil => exact .excused trivial _
  | cons segm rest ih =>
      rw [List.cons_append]
      unfold storeTo
      split
      · refine ih.bind fun rest' _ h => .ok ?_
        rw [h]
        rfl
      · exact (answers_refl _).next fun data => .ok rfl

theorem lockStep_extends :
    Memory.LockStep Fault.IsAssertion .debug build (Memory.Extends extra) where
  assert := answers_assert_debug build
  load := by
    intro mem mem' hmem w addr
    rw [hmem]
    exact loadFrom_extends extra build w addr mem.memory
  store := by
    intro mem mem' hmem w addr val
    rw [hmem]
    exact storeTo_extends extra build addr val mem.memory

end Extension

section Permissions

/-! The same segments with other permission flags. -/

/-- Equal but for the three permission flags. -/
structure MemorySegm.SameBytes (segm segm' : MemorySegm) : Prop where
  startAddr : segm.startAddr = segm'.startAddr
  endAddr : segm.endAddr = segm'.endAddr
  data : segm.data = segm'.data

def Memory.SameBytes (mem mem' : Memory) : Prop :=
  List.Forall₂ MemorySegm.SameBytes mem.memory mem'.memory

theorem MemorySegm.SameBytes.isAddrInSegment {segm segm' : MemorySegm}
    (h : segm.SameBytes segm') (addr : Address) :
    isAddrInSegment addr segm = isAddrInSegment addr segm' := by
  unfold RiscvSim.isAddrInSegment
  rw [h.startAddr, h.endAddr]

theorem MemorySegm.SameBytes.offset {segm segm' : MemorySegm} (h : segm.SameBytes segm')
    (addr : Address) : segm.offset addr = segm'.offset addr := by
  unfold MemorySegm.offset
  rw [h.startAddr]

theorem loadFrom_sameBytes (build : Build) (w : Nat) (addr : Address)
    {segms segms' : List MemorySegm} (h : List.Forall₂ MemorySegm.SameBytes segms segms') :
    loadFrom build w addr segms = loadFrom build w addr segms' := by
  induction h with
  | nil => rfl
  | cons hsegm hrest ih =>
      unfold loadFrom
      rw [hsegm.isAddrInSegment addr, hsegm.offset addr, hsegm.data, ih]

theorem storeTo_sameBytes {excused : Fault → Prop} (build : Build) {w : Nat} (addr : Address)
    (val : BitVec w) {segms segms' : List MemorySegm}
    (h : List.Forall₂ MemorySegm.SameBytes segms segms') :
    Answers excused (List.Forall₂ MemorySegm.SameBytes) (storeTo build addr val segms)
      (storeTo build addr val segms') := by
  induction h with
  | nil => exact (answers_refl _).next fun _ => .ok .nil
  | cons hsegm hrest ih =>
      unfold storeTo
      rw [hsegm.isAddrInSegment addr, hsegm.offset addr, hsegm.data]
      split
      · exact ih.bind fun _ _ hrest' => .ok (.cons hsegm hrest')
      · exact (answers_refl _).next fun data =>
          .ok (.cons ⟨hsegm.startAddr, hsegm.endAddr, rfl⟩ hrest)

theorem lockStep_sameBytes (build : Build) :
    Memory.LockStep (fun _ => False) build build Memory.SameBytes where
  assert := answers_assert_self build
  load := by
    intro mem mem' hmem w addr
    rw [loadFrom_sameBytes build w addr hmem]
    exact answers_refl _
  store := by
    intro mem mem' hmem w addr val
    exact storeTo_sameBytes build addr val hmem

end Permissions

section Order

/-! The segments of a table without overlaps in another order. -/

/-- The same segments in some order, none of which overlap. -/
structure Memory.Reordered (mem mem' : Memory) : Prop where
  perm : mem.memory.Perm mem'.memory
  disjoint : mem.Disjoint

theorem Memory.Disjoint.perm {mem mem' : Memory} (hdisjoint : mem.Disjoint)
    (hperm : mem.memory.Perm mem'.memory) : mem'.Disjoint :=
  (hperm.pairwise_iff fun hst addr h => hst addr h.symm).mp hdisjoint

/-- An address is in no segment of either table, or in the same one of both. -/
theorem Memory.Reordered.cases {mem mem' : Memory} (h : mem.Reordered mem') (addr : Address) :
    ((∀ s ∈ mem.memory, isAddrInSegment addr s = false) ∧
      ∀ s ∈ mem'.memory, isAddrInSegment addr s = false) ∨
    ∃ segm pre post pre' post', mem.memory = pre ++ segm :: post ∧
      mem'.memory = pre' ++ segm :: post' ∧ isAddrInSegment addr segm = true ∧
      (∀ s ∈ pre, isAddrInSegment addr s = false) ∧
      ∀ s ∈ pre', isAddrInSegment addr s = false := by
  by_cases hany : ∃ segm ∈ mem.memory, isAddrInSegment addr segm = true
  · obtain ⟨segm, hsegm, hin⟩ := hany
    obtain ⟨pre, post, hsplit, hpre⟩ := h.disjoint.split hsegm hin
    obtain ⟨pre', post', hsplit', hpre'⟩ :=
      (h.disjoint.perm h.perm).split (h.perm.mem_iff.mp hsegm) hin
    exact .inr ⟨segm, pre, post, pre', post', hsplit, hsplit', hin, hpre, hpre'⟩
  · have hnone : ∀ s ∈ mem.memory, isAddrInSegment addr s = false := by
      intro s hs
      by_contra hin
      exact hany ⟨s, hs, by simpa using hin⟩
    exact .inl ⟨hnone, fun s hs => hnone s (h.perm.mem_iff.mpr hs)⟩

theorem Memory.Reordered.loadFrom {mem mem' : Memory} (h : mem.Reordered mem') (build : Build)
    (w : Nat) (addr : Address) :
    loadFrom build w addr mem.memory = loadFrom build w addr mem'.memory := by
  rcases h.cases addr with ⟨hnone, hnone'⟩ |
    ⟨segm, pre, post, pre', post', hsplit, hsplit', hin, hpre, hpre'⟩
  · rw [loadFrom_none build w hnone, loadFrom_none build w hnone']
  · rw [hsplit, hsplit', loadFrom_append build w hpre hin, loadFrom_append build w hpre' hin]

/-- The segment that is written keeps its bounds, so the tables stay reordered. -/
theorem Memory.Reordered.replace {pre post pre' post' : List MemorySegm} {segm : MemorySegm}
    (h : (Memory.mk (pre ++ segm :: post)).Reordered ⟨pre' ++ segm :: post'⟩)
    {data : List MemByte} (hlength : data.length = segm.data.length) :
    (Memory.mk (pre ++ { segm with data } :: post)).Reordered
      ⟨pre' ++ { segm with data } :: post'⟩ := by
  constructor
  · have hperm : (segm :: (pre ++ post)).Perm (segm :: (pre' ++ post')) :=
      List.perm_middle.symm.trans (h.perm.trans List.perm_middle)
    have hrest := hperm.cons_inv
    exact List.perm_middle.trans ((hrest.cons _).trans List.perm_middle.symm)
  · refine h.disjoint.of_layout ?_
    simp [Memory.layout, MemorySegm.layout, hlength]

theorem Memory.Reordered.storeTo {mem mem' : Memory} (h : mem.Reordered mem') (build : Build)
    {w : Nat} (addr : Address) (val : BitVec w) :
    Answers (fun _ => False) (fun segms segms' => (Memory.mk segms).Reordered ⟨segms'⟩)
      (storeTo build addr val mem.memory) (storeTo build addr val mem'.memory) := by
  rcases h.cases addr with ⟨hnone, hnone'⟩ |
    ⟨segm, pre, post, pre', post', hsplit, hsplit', hin, hpre, hpre'⟩
  · rw [storeTo_none build val hnone, storeTo_none build val hnone']
    exact (answers_refl _).map fun _ _ _ => h
  · rw [hsplit, hsplit', storeTo_append build val hpre hin, storeTo_append build val hpre' hin]
    cases hcopy : memcpyTo segm.data (segm.offset addr) (toBytes (w / 8) val) with
    | error fault => exact .error fault
    | ok data =>
        have hmem : mem = ⟨pre ++ segm :: post⟩ := congrArg Memory.mk hsplit
        have hmem' : mem' = ⟨pre' ++ segm :: post'⟩ := congrArg Memory.mk hsplit'
        rw [hmem, hmem'] at h
        exact .ok (h.replace (memcpyTo_length hcopy))

theorem lockStep_reordered (build : Build) :
    Memory.LockStep (fun _ => False) build build Memory.Reordered where
  assert := answers_assert_self build
  load := by
    intro mem mem' hmem w addr
    rw [hmem.loadFrom build w addr]
    exact answers_refl _
  store := fun hmem _ addr val => hmem.storeTo build addr val

end Order

section Runs

/-- The same program under another build. -/
abbrev Env.withBuild (env : Env H) (build : Build) : Env H := env.linked build env.hostIO

variable (env : Env H) (fuel : Nat)

theorem execute_inStep_sameHost {excused : Fault → Prop} {build : Build}
    {M : Memory → Memory → Prop} (hlock : Memory.LockStep excused env.build build M)
    {m : Machine H} {memory : Memory} (hmemory : M m.sim.memory memory) :
    AnswersRun excused (Machine.Matches M Eq Eq) Eq ((execute env fuel).run m)
      ((execute (env.withBuild build) fuel).run (m.withMemory memory)) :=
  execute_inStep hlock (.refl env.hostIO) fuel m _ ⟨memory, m.softfloat, m.host, hmemory, rfl, rfl⟩

/-- A run of a debug build stops at a failed assertion, or a run of any other
build from a memory with more segments behind does the same and leaves these
segments alone. -/
theorem execute_extends (build : Build) (extra : List MemorySegm) (m : Machine H) :
    (∃ text m', (execute (env.withBuild .debug) fuel).run m = .error (.assertion text) m') ∨
      SameEnd (Machine.Matches (Memory.Extends extra) Eq Eq)
        ((execute (env.withBuild .debug) fuel).run m)
        ((execute (env.withBuild build) fuel).run
          (m.withMemory ⟨m.sim.memory.memory ++ extra⟩)) := by
  have hlock : Memory.LockStep Fault.IsAssertion (env.withBuild .debug).build build
      (Memory.Extends extra) := lockStep_extends extra build
  have hruns := execute_inStep_sameHost (env.withBuild .debug) fuel hlock
    (rfl : Memory.Extends extra m.sim.memory ⟨m.sim.memory.memory ++ extra⟩)
  rcases hruns.sameEnd with ⟨fault, m', hfault, hrun⟩ | hsame
  · cases fault with
    | assertion text => exact .inl ⟨text, m', hrun⟩
    | _ => cases hfault
  · exact .inr hsame

theorem Machine.Matches.eq_of_extends_nil {m m' : Machine H}
    (h : m.Matches (Memory.Extends []) Eq Eq m') : m = m' := by
  obtain ⟨memory, _, _, hmemory, rfl, rfl⟩ := h
  have hsame : memory = m.sim.memory :=
    congrArg Memory.mk (hmemory.trans (List.append_nil m.sim.memory.memory))
  rw [hsame]
  rfl

/-- The release build does what the debug build does, up to the first assertion
that fails. -/
theorem execute_release_of_debug (m : Machine H) :
    (∃ text m', (execute (env.withBuild .debug) fuel).run m = .error (.assertion text) m') ∨
      (execute (env.withBuild .release) fuel).run m =
        (execute (env.withBuild .debug) fuel).run m := by
  rcases execute_extends env fuel .release [] m with hassert | hsame
  · exact .inl hassert
  · rw [List.append_nil] at hsame
    exact .inr (hsame.eq fun _ _ => Machine.Matches.eq_of_extends_nil).symm

/-- No access looks at the permission flags. -/
theorem execute_sameBytes {m : Machine H} {memory : Memory}
    (hbytes : m.sim.memory.SameBytes memory) :
    SameEnd (Machine.Matches Memory.SameBytes Eq Eq) ((execute env fuel).run m)
      ((execute env fuel).run (m.withMemory memory)) :=
  execute_inStep_sameHost env fuel (lockStep_sameBytes env.build) hbytes

/-- Segments that do not overlap may come in any order. -/
theorem execute_reordered {m : Machine H} {memory : Memory}
    (hperm : m.sim.memory.memory.Perm memory.memory) (hdisjoint : m.sim.memory.Disjoint) :
    SameEnd (Machine.Matches Memory.Reordered Eq Eq) ((execute env fuel).run m)
      ((execute env fuel).run (m.withMemory memory)) :=
  execute_inStep_sameHost env fuel (lockStep_reordered env.build) ⟨hperm, hdisjoint⟩

/-- The memory of `storingMachine` without a permission to write the data. -/
def readOnlyMemory : Memory :=
  ⟨[⟨0x1000, 0x1004, toBytes 4 storeBelow.word, true, false, true⟩,
    ⟨0x2000, 0x2004, [1, 2, 3, 4], true, false, false⟩]⟩

theorem execute_sameBytes_readOnly :
    SameEnd (Machine.Matches Memory.SameBytes Eq Eq) ((execute queueEnv 1).run storingMachine)
      ((execute queueEnv 1).run (storingMachine.withMemory readOnlyMemory)) :=
  execute_sameBytes queueEnv 1
    (.cons ⟨rfl, rfl, rfl⟩ (.cons ⟨rfl, rfl, rfl⟩ .nil))

theorem execute_reordered_swap :
    SameEnd (Machine.Matches Memory.Reordered Eq Eq) ((execute queueEnv 1).run storingMachine)
      ((execute queueEnv 1).run
        (storingMachine.withMemory ⟨storingMachine.sim.memory.memory.reverse⟩)) :=
  execute_reordered queueEnv 1 (List.reverse_perm _).symm (Memory.disjoint_pair (by decide))

end Runs

end RiscvSim
