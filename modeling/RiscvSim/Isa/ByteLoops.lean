import RiscvSim.Isa.SetByte

/-!
The two loops that build a register byte by byte. They write in ascending order
into a zero, so that a write that clears everything above it clears nothing.
-/

namespace RiscvSim

open LittleEndian

variable {H : Type}

/-- The bytes written so far are in their places, and the others are zero. -/
theorem byte_foldl_withByte (f : Nat → BitVec 8) {n : Nat} (hn : n ≤ 4) {k : Nat} (hk : k < 4) :
    byte ((List.range n).foldl (fun val i => withByte val (f i) i) (0 : Register)) k =
      if k < n then f k else 0 := by
  induction n with
  | zero =>
      rw [if_neg (Nat.not_lt_zero k)]
      apply BitVec.eq_of_getLsbD_eq
      intro i hi
      rw [getLsbD_byte, decide_eq_true hi, Bool.true_and]
      exact BitVec.getLsbD_zero.trans BitVec.getLsbD_zero.symm
  | succ n ih =>
      have hprev := ih (by omega)
      rw [List.range_succ, List.foldl_append, List.foldl_cons, List.foldl_nil,
        byte_withByte _ (f n) (by omega) (by omega : k < 32 / 8), hprev]
      rcases Nat.lt_trichotomy k n with hlt | rfl | hgt
      · rw [if_pos hlt, if_pos hlt, if_pos (by omega : k < n + 1)]
      · rw [if_neg (Nat.lt_irrefl k), if_pos rfl, if_pos (by omega)]
      · -- the last round has no place above it
        rw [if_neg (by omega), if_neg (by omega), if_neg (by omega),
          spillByte_low (f n) (by omega)]

theorem register_bytes : 32 = 8 * 4 := by decide

theorem kXlenByte_eq : kXlenByte = 4 := rfl

/-- A full byte for a byte that is not zero. -/
def orByte (b : BitVec 8) : BitVec 8 := if b = 0 then 0 else ~~~0

theorem orByte_idem : orByte ∘ orByte = orByte := by
  funext b
  change orByte (orByte b) = orByte b
  by_cases hb : b = 0
  · rw [hb]
    rfl
  · have hfull : orByte b = ~~~0 := if_neg hb
    rw [hfull]
    rfl

theorem rev8_eq (x : Register) :
    (List.range kXlenByte).foldl (fun val i =>
      withByte val ((x >>> ((kXlenByte - 1 - i) * 8)).setWidth 8) i) (0 : Register) =
        reverseBytes 4 x := by
  apply eq_of_byte_eq register_bytes
  intro k hk
  rw [kXlenByte_eq, byte_foldl_withByte _ (Nat.le_refl 4) hk, if_pos hk,
    byte_reverseBytes register_bytes x hk, byte_eq_shiftRight]

theorem orc_b_eq (x : Register) :
    (List.range kXlenByte).foldl (fun val i =>
      withByte val (if (x >>> (i * 8)).setWidth 8 = 0 then 0 else ~~~0) i) (0 : Register) =
        mapBytes 4 orByte x := by
  apply eq_of_byte_eq register_bytes
  intro k hk
  rw [kXlenByte_eq, byte_foldl_withByte _ (Nat.le_refl 4) hk, if_pos hk,
    byte_mapBytes register_bytes x orByte hk, byte_eq_shiftRight]
  rfl

/-- The callbacks write the operand with its bytes reversed, and with each byte
filled that is not zero; `rd` then holds it. -/
theorem byteLoops_written (env : Env H) (word : UndecodedInsn) (m : Machine H) :
    let insn := RvInsn.mk word
    let x := m.sim.getXReg insn.rs1Index
    let written := fun val : Register =>
      m.mapSim fun sim => (sim.setXReg insn.rdIndex val).step
    ((callbackREV8 env word).run m = .ok () (written (reverseBytes 4 x)) ∧
      (callbackORC_B env word).run m = .ok () (written (mapBytes 4 orByte x))) ∧
    (∀ val, (written val).sim.getXReg insn.rdIndex =
      if insn.rdIndex = XRegAlias.zero then 0 else val) ∧
    ∀ y : Register,
      (∀ i < 4, byte (reverseBytes 4 y) i = byte y (3 - i)) ∧
      reverseBytes 4 (reverseBytes 4 y) = y ∧
      (∀ i < 4, byte (mapBytes 4 orByte y) i = if byte y i ≠ 0 then 0xff else 0) ∧
      mapBytes 4 orByte (mapBytes 4 orByte y) = mapBytes 4 orByte y ∧
      mapBytes 4 orByte (reverseBytes 4 y) = reverseBytes 4 (mapBytes 4 orByte y) := by
  intro insn x written
  refine ⟨⟨?_, ?_⟩, m.sim.getXReg_step_setXReg insn.rdIndex, ?_⟩
  · have hrun := callbackREV8_run env word m
    dsimp only at hrun
    rwa [rev8_eq] at hrun
  · have hrun := callbackORC_B_run env word m
    dsimp only at hrun
    rwa [orc_b_eq] at hrun
  · intro y
    refine ⟨fun i hi => byte_reverseBytes register_bytes y hi,
      reverseBytes_reverseBytes register_bytes y, ?_, ?_,
      mapBytes_reverseBytes register_bytes y orByte⟩
    · intro i hi
      rw [byte_mapBytes register_bytes y orByte hi, orByte, ite_not]
      rfl
    · rw [mapBytes_mapBytes register_bytes y, orByte_idem]

end RiscvSim
