import RiscvSim.Isa.ExtZbb
import RiscvSim.Isa.HelpersSpec
import RiscvSim.Lib.Outcomes

/-!
The loops of the bit-manipulation callbacks end, and what they compute: the
first set bit in the order of the search, a count, and a fold over the bytes.
Every shift on the way has an amount below the width, since every index does.
-/

namespace RiscvSim

open Outcomes SimM

variable {H : Type}

theorem getByte_eq {w : Nat} (build : Build) (val : BitVec w) {index : Nat} (h : index < w / 8) :
    getByte build val index = .ok ((val >>> (index * 8)).setWidth 8) := by
  unfold getByte
  rw [decide_eq_true h, Build.assert_true, shiftRight_ok _ (by omega)]
  exact congrArg Except.ok (truncHigh_eq 8 _)

/-- The masks that `SetByte` builds in the promoted type, and how it uses them. -/
def withByte {w : Nat} (val : BitVec w) (byteVal : BitVec 8) (index : Nat) : BitVec w :=
  (val &&& (~~~(~~~(0 : BitVec 32) <<< (index * 8))).signExtend w) |||
    (byteVal.setWidth 32 <<< (index * 8)).signExtend w

theorem setByte_eq {w : Nat} (build : Build) (val : BitVec w) (byteVal : BitVec 8) {index : Nat}
    (h : index < w / 8) (hint : index < 4) :
    setByte build val byteVal index = .ok (withByte val byteVal index) := by
  unfold setByte
  rw [decide_eq_true h, Build.assert_true, ok_bind]
  dsimp only
  rw [shiftLeft_ok _ (by omega), ok_bind, shiftLeft_ok _ (by omega), ok_bind]
  rfl

theorem findSetBit_eq (build : Build) (rs : Register) {indices : List Nat}
    (h : ∀ i ∈ indices, i < 32) :
    findSetBit build rs indices = .ok (indices.find? rs.getLsbD) := by
  induction indices with
  | nil => rfl
  | cons i rest ih =>
      have hrest := ih fun j hj => h j (List.mem_cons_of_mem i hj)
      rw [findSetBit, isBitSet_eq build rs (h i List.mem_cons_self), ok_bind, List.find?_cons]
      cases rs.getLsbD i with
      | true => rfl
      | false => exact hrest

section Runs

variable (env : Env H) (word : UndecodedInsn) (m : Machine H)

theorem callbackCLZ_run :
    let x := m.sim.getXReg (RvInsn.mk word).rs1Index
    let found := (List.range kXlen).reverse.find? x.getLsbD
    (callbackCLZ env word).run m =
      .ok () (m.mapSim fun sim => (sim.setXReg (RvInsn.mk word).rdIndex
        (BitVec.ofInt 32 ((kXlen - 1 : Nat) - found.elim (-1 : Int) fun i => i))).step) := by
  intro x found
  have hfound : findSetBit env.build x (List.range kXlen).reverse = .ok found :=
    findSetBit_eq env.build x fun _ hi => List.mem_range.mp (List.mem_reverse.mp hi)
  simp only [callbackCLZ, EStateM.run_bind, run_getXReg]
  rw [hfound]
  simp only [run_lift_ok, run_setXReg, run_step, Machine.mapSim_mapSim]

theorem callbackCTZ_run :
    let x := m.sim.getXReg (RvInsn.mk word).rs1Index
    let found := (List.range kXlen).find? x.getLsbD
    (callbackCTZ env word).run m =
      .ok () (m.mapSim fun sim => (sim.setXReg (RvInsn.mk word).rdIndex
        (BitVec.ofNat 32 (found.getD kXlen))).step) := by
  intro x found
  have hfound : findSetBit env.build x (List.range kXlen) = .ok found :=
    findSetBit_eq env.build x fun _ hi => List.mem_range.mp hi
  simp only [callbackCTZ, EStateM.run_bind, run_getXReg]
  rw [hfound]
  simp only [run_lift_ok, run_setXReg, run_step, Machine.mapSim_mapSim]

theorem callbackCPOP_run :
    let x := m.sim.getXReg (RvInsn.mk word).rs1Index
    let bcount := (List.range kXlen).foldl
      (fun bcount i => if x.getLsbD i then bcount + 1 else bcount) 0
    (callbackCPOP env word).run m =
      .ok () (m.mapSim fun sim =>
        (sim.setXReg (RvInsn.mk word).rdIndex (BitVec.ofNat 32 bcount)).step) := by
  intro x bcount
  have hround : ∀ (bcount : Nat), ∀ i ∈ List.range kXlen,
      (do return if ← liftM (isBitSet env.build x i) then bcount + 1 else bcount :
        SimM H Nat).run m = .ok (if x.getLsbD i then bcount + 1 else bcount) m := by
    intro bcount i hi
    have hlt : i < 32 := List.mem_range.mp hi
    rw [EStateM.run_bind, isBitSet_eq env.build x hlt, run_lift_ok]
    rfl
  have hloop := run_foldlM hround 0
  simp only [callbackCPOP, EStateM.run_bind, run_getXReg]
  dsimp only [x] at hloop
  rw [hloop]
  rfl

theorem callbackREV8_run :
    let x := m.sim.getXReg (RvInsn.mk word).rs1Index
    let val := (List.range kXlenByte).foldl (fun val i =>
      withByte val ((x >>> ((kXlenByte - 1 - i) * 8)).setWidth 8) i) (0 : Register)
    (callbackREV8 env word).run m =
      .ok () (m.mapSim fun sim => (sim.setXReg (RvInsn.mk word).rdIndex val).step) := by
  intro x val
  have hround : ∀ (val : Register), ∀ i ∈ List.range kXlenByte,
      (do setByte env.build val (← getByte env.build x (kXlenByte - 1 - i)) i :
        SimM H Register).run m =
          .ok (withByte val ((x >>> ((kXlenByte - 1 - i) * 8)).setWidth 8) i) m := by
    intro val i hi
    have hlt : i < 4 := List.mem_range.mp hi
    have hback : kXlenByte - 1 - i < 32 / 8 := by
      unfold kXlenByte
      omega
    rw [EStateM.run_bind, getByte_eq env.build x hback, run_lift_ok]
    simp only [setByte_eq env.build val _ (by omega : i < 32 / 8) hlt, run_lift_ok]
  have hloop := run_foldlM hround 0
  simp only [callbackREV8, EStateM.run_bind, run_getXReg]
  dsimp only [x] at hloop
  rw [hloop]
  rfl

theorem callbackORC_B_run :
    let x := m.sim.getXReg (RvInsn.mk word).rs1Index
    let val := (List.range kXlenByte).foldl (fun val i =>
      withByte val (if (x >>> (i * 8)).setWidth 8 = 0 then 0 else ~~~0) i) (0 : Register)
    (callbackORC_B env word).run m =
      .ok () (m.mapSim fun sim => (sim.setXReg (RvInsn.mk word).rdIndex val).step) := by
  intro x val
  have hround : ∀ (val : Register), ∀ i ∈ List.range kXlenByte,
      (do
        if (← getByte env.build x i) = 0 then setByte env.build val 0 i
        else setByte env.build val (~~~0) i : SimM H Register).run m =
          .ok (withByte val (if (x >>> (i * 8)).setWidth 8 = 0 then 0 else ~~~0) i) m := by
    intro val i hi
    have hlt : i < 4 := List.mem_range.mp hi
    rw [EStateM.run_bind, getByte_eq env.build x (by omega : i < 32 / 8), run_lift_ok]
    dsimp only
    split
    · rw [setByte_eq env.build val _ (by omega : i < 32 / 8) hlt, run_lift_ok]
    · rw [setByte_eq env.build val _ (by omega : i < 32 / 8) hlt, run_lift_ok]
  have hloop := run_foldlM hround 0
  simp only [callbackORC_B, EStateM.run_bind, run_getXReg]
  dsimp only [x] at hloop
  rw [hloop]
  rfl

end Runs

end RiscvSim
