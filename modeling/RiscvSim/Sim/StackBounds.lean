import RiscvSim.Sim.FreshSegments
import RiscvSim.Sim.ReleaseFaults

/-!
The constructor's copies into the data of the stack. The place of the first one
is computed from the number of arguments and is not checked against the size of
the stack, so the copies are inside exactly for argument lists that fit.
-/

namespace RiscvSim

open ErrorsIn LittleEndian

/-- The fill of the stack's data, for any table of the argument strings. -/
def ProgramArgs.fillStackData (progArgs : ProgramArgs) (offsetTable : List (BitVec 32)) :
    Except Fault (List MemByte) := do
  let fillAddr : Int := progArgs.fillStart.toNat - kStackBase.toNat
  let stackData ← memcpyToPtr (List.replicate kStackSize 0) fillAddr
    (toBytes 4 (BitVec.ofNat 32 progArgs.argc))
  let (stackData, fillAddr) ← fillPointers offsetTable stackData (fillAddr + 4)
  memcpyToPtr stackData fillAddr (toBytes 4 (0 : Register))

/-- Each copy is inside the data of the stack, whatever the table holds, and the
stack pointer is not below the base. -/
def ProgramArgs.StaysInStack (progArgs : ProgramArgs) : Prop :=
  (∀ offsetTable : List (BitVec 32), offsetTable.length = progArgs.argc →
    ∃ stackData, progArgs.fillStackData offsetTable = .ok stackData) ∧
  kStackBase.toNat ≤ progArgs.fillStart.toNat

/-- The copies stay inside, or the construction ends in an error of the program's
own. -/
def ConstructsInStack (parsedElf : ParsedElf) (progArgs : ProgramArgs) : Prop :=
  progArgs.StaysInStack ∨
    ∃ fault, RVSim.construct parsedElf progArgs = .error fault ∧ fault.Reported

section Copies

theorem memcpyToPtr_bounds {data data' bytes : List MemByte} {ptr : Int}
    (h : memcpyToPtr data ptr bytes = .ok data') :
    0 ≤ ptr ∧ ptr + bytes.length ≤ data.length ∧ data'.length = data.length := by
  unfold memcpyToPtr at h
  by_cases hptr : ptr < 0
  · rw [if_pos hptr] at h
    cases h
  · rw [if_neg hptr] at h
    have hfits := (memcpyTo_ok_iff data ptr.toNat bytes).mp ⟨data', h⟩
    exact ⟨by omega, by omega, memcpyTo_length h⟩

/-- The loop moves on by one word for each entry of the table. -/
theorem fillPointers_end {table : List (BitVec 32)} {data data' : List MemByte}
    {fillAddr fillAddr' : Int} (h : fillPointers table data fillAddr = .ok (data', fillAddr')) :
    data'.length = data.length ∧ fillAddr' = fillAddr + 4 * table.length := by
  induction table generalizing data fillAddr with
  | nil =>
      cases h
      exact ⟨rfl, by simp⟩
  | cons segmOffset rest ih =>
      obtain ⟨afterCopy, hcopy, hrest⟩ := bind_eq_ok.mp h
      obtain ⟨_, _, hlength⟩ := memcpyToPtr_bounds hcopy
      obtain ⟨hdata, haddr⟩ := ih hrest
      rw [hlength] at hdata
      refine ⟨hdata, ?_⟩
      rw [haddr, List.length_cons]
      push_cast
      omega

theorem memcpyToPtr_error (data bytes : List MemByte) (ptr : Int) :
    OfExcept (· = Fault.outOfBounds) (memcpyToPtr data ptr bytes) := by
  unfold memcpyToPtr
  split
  · exact ofExcept_error rfl
  · exact memcpyTo_errors _ _ _

theorem fillPointers_error (table : List (BitVec 32)) (data : List MemByte) (fillAddr : Int) :
    OfExcept (· = Fault.outOfBounds) (fillPointers table data fillAddr) := by
  induction table generalizing data fillAddr with
  | nil => exact ofExcept_ok _
  | cons segmOffset rest ih =>
      apply (memcpyToPtr_error _ _ _).bind
      intro afterCopy
      exact ih _ _

theorem copyStrings_error (strs : List (List MemByte)) (copyTo : List MemByte)
    (copyOffset : Nat) :
    OfExcept (· = Fault.outOfBounds) (copyStrings strs copyTo copyOffset) := by
  induction strs generalizing copyTo copyOffset with
  | nil => exact ofExcept_ok _
  | cons str rest ih =>
      apply (memcpyTo_errors copyTo copyOffset (cString str)).bind
      intro afterCopy
      apply (ih _ _).bind
      intro afterRest
      exact ofExcept_ok _

end Copies

section Construct

variable {parsedElf : ParsedElf} {progArgs : ProgramArgs}

/-- The words lie one behind the other, so they fit where the first and the last
one do. -/
theorem ProgramArgs.FitsStack.of_fillStackData {table : List (BitVec 32)}
    {stackData : List MemByte} (hlength : table.length = progArgs.argc)
    (h : progArgs.fillStackData table = .ok stackData) : progArgs.FitsStack := by
  -- the first address may have wrapped: that it is in range is all that is used of it
  obtain ⟨afterCount, hcount, hrest⟩ := bind_eq_ok.mp h
  obtain ⟨⟨afterPointers, fillAddr⟩, hpointers, hnull⟩ := bind_eq_ok.mp hrest
  obtain ⟨hstart, _, hafterCount⟩ := memcpyToPtr_bounds hcount
  obtain ⟨hafterPointers, hend⟩ := fillPointers_end hpointers
  obtain ⟨_, hlast, _⟩ := memcpyToPtr_bounds hnull
  rw [List.length_replicate] at hafterCount
  rw [hafterPointers, hafterCount, hend, hlength, toBytes_length] at hlast
  unfold ProgramArgs.FitsStack
  push_cast at hlast
  omega

theorem ProgramArgs.FitsStack.fillStackData (hstack : progArgs.FitsStack)
    {table : List (BitVec 32)} (hlength : table.length = progArgs.argc) :
    ∃ stackData, progArgs.fillStackData table = .ok stackData := by
  have hfill := hstack.fillStart_sub
  have hsize := hstack.size_eq hlength
  obtain ⟨afterCount, afterPointers, hfirst, hpointers, hlast⟩ :=
    fillStack (BitVec.ofNat 32 progArgs.argc) 0 table progArgs.fillOffset
  rw [← hsize] at hfirst
  unfold ProgramArgs.fillStackData
  rw [hfill]
  dsimp only
  rw [hfirst, ok_bind, hpointers, ok_bind]
  exact ⟨_, hlast⟩

/-- What a completed construction has done. -/
theorem RVSim.construct_fills {sim : RVSim} (h : RVSim.construct parsedElf progArgs = .ok sim) :
    ∃ table stackData, table.length = progArgs.argc ∧
      progArgs.fillStackData table = .ok stackData ∧
      sim.getXReg XRegAlias.sp = progArgs.fillStart := by
  obtain ⟨⟨argvData, table⟩, hcopy, hstack⟩ := bind_eq_ok.mp h
  obtain ⟨afterCount, hcount, hpointers⟩ := bind_eq_ok.mp hstack
  obtain ⟨⟨afterPointers, fillAddr⟩, hloop, hnull⟩ := bind_eq_ok.mp hpointers
  obtain ⟨stackData, hlast, hpure⟩ := bind_eq_ok.mp hnull
  cases hpure
  have hlength := (copyStrings_lengths hcopy).2
  refine ⟨table, stackData, by rw [hlength, progArgs.argc_eq], ?_, ?_⟩
  · exact bind_eq_ok.mpr ⟨_, hcount, bind_eq_ok.mpr ⟨_, hloop, hlast⟩⟩
  · simp [RVSim.getXReg, initialXRegs, XRegAlias.sp, XRegAlias.zero, ProgramArgs.fillStart]

/-- The constructor raises no error of its own. -/
theorem RVSim.construct_error (parsedElf : ParsedElf) (progArgs : ProgramArgs) :
    OfExcept (· = Fault.outOfBounds) (RVSim.construct parsedElf progArgs) := by
  apply (copyStrings_error _ _ _).bind
  intro _
  apply (memcpyToPtr_error _ _ _).bind
  intro _
  apply (fillPointers_error _ _ _).bind
  intro _
  apply (memcpyToPtr_error _ _ _).bind
  intro _
  exact ofExcept_ok _

theorem ProgramArgs.staysInStack_iff : progArgs.StaysInStack ↔ progArgs.FitsStack := by
  constructor
  · rintro ⟨hcopies, _⟩
    have hlength : (List.replicate progArgs.argc (0 : BitVec 32)).length = progArgs.argc :=
      List.length_replicate
    obtain ⟨stackData, hfill⟩ := hcopies _ hlength
    exact .of_fillStackData hlength hfill
  · intro hstack
    refine ⟨fun _ hlength => hstack.fillStackData hlength, ?_⟩
    rw [hstack.fillStart_toNat]
    omega

end Construct

/-- The copies into the stack stay inside exactly for argument lists that fit.
For any other list nothing rejects the construction: it is undefined. -/
theorem constructsInStack_iff (parsedElf : ParsedElf) (progArgs : ProgramArgs) :
    (ConstructsInStack parsedElf progArgs ↔ progArgs.FitsStack) ∧
    (¬ progArgs.FitsStack → RVSim.construct parsedElf progArgs = .error .outOfBounds) ∧
    ∀ sim, RVSim.construct parsedElf progArgs = .ok sim →
      progArgs.FitsStack ∧ sim.getXReg XRegAlias.sp = progArgs.fillStart := by
  have hdone : ∀ sim, RVSim.construct parsedElf progArgs = .ok sim →
      progArgs.FitsStack ∧ sim.getXReg XRegAlias.sp = progArgs.fillStart := by
    intro sim hsim
    obtain ⟨table, stackData, hlength, hfill, hsp⟩ := RVSim.construct_fills hsim
    exact ⟨.of_fillStackData hlength hfill, hsp⟩
  have herror := RVSim.construct_error parsedElf progArgs
  refine ⟨?_, ?_, hdone⟩
  · constructor
    · rintro (hstays | ⟨fault, hfault, hreported⟩)
      · exact ProgramArgs.staysInStack_iff.mp hstays
      · rw [herror fault hfault] at hreported
        exact hreported.elim
    · intro hstack
      exact .inl (ProgramArgs.staysInStack_iff.mpr hstack)
  · intro hnot
    cases hconstruct : RVSim.construct parsedElf progArgs with
    | ok sim => exact absurd (hdone sim hconstruct).1 hnot
    | error fault => rw [herror fault hconstruct]

theorem constructsInStack_twoArgs : ConstructsInStack smallElf twoArgs :=
  (constructsInStack_iff smallElf twoArgs).1.mpr (by decide)

/-- One argument more than the stack has room for. -/
def manyArgs : ProgramArgs :=
  ⟨262143, List.replicate 262143 [], List.length_replicate.symm⟩

theorem manyArgs_leave_stack :
    ¬ ConstructsInStack smallElf manyArgs ∧
      RVSim.construct smallElf manyArgs = .error .outOfBounds ∧
      manyArgs.fillStart.toNat + 4 = kStackBase.toNat := by
  have hnot : ¬ manyArgs.FitsStack := by decide
  obtain ⟨hiff, hfault, _⟩ := constructsInStack_iff smallElf manyArgs
  exact ⟨fun h => hnot (hiff.mp h), hfault hnot, by decide⟩

end RiscvSim
