import RiscvSim.Sim.DecodeEncode
import RiscvSim.Sim.Execute

/-!
What the decode table accepts beyond the encodings of the manual. The mask of
`ZEXT.H` leaves out the field of the second source register, which the encoding
fixes to zero; every other entry tests all the fixed bits of its mnemonic.
-/

namespace RiscvSim

open MaskMatch

theorem insnDecodeTable_exact : ∀ entry ∈ insnDecodeTable, entry.mnem ≠ .ZEXT_H →
    entry.mask = entry.mnem.format.fixed.mask ∧
      entry.matchBits = entry.mnem.format.fixed.bits := by
  decide +kernel

theorem insnDecodeTable_zextH : ∀ entry ∈ insnDecodeTable, entry.mnem = .ZEXT_H →
    entry.mask = (InsnFormat.r 0b0000100 0b100 Opcode.OP).fixed.mask ∧
      entry.matchBits = (InsnFormat.r 0b0000100 0b100 Opcode.OP).fixed.bits := by
  decide +kernel

/-- The words that differ from an encoding of `ZEXT.H` in the field of the
second source register. -/
def NearZextH (word : UndecodedInsn) : Prop :=
  word.extractLsb' 0 7 = Opcode.OP ∧ word.extractLsb' 12 3 = 0b100#3 ∧
    word.extractLsb' 25 7 = 0b0000100#7 ∧ word.extractLsb' 20 5 ≠ 0#5

theorem exists_entry_of_decode {word : UndecodedInsn} {mnem : InsnMnemonic}
    (h : decode word = some mnem) :
    ∃ entry ∈ insnDecodeTable, entry.mnem = mnem ∧ word &&& entry.mask = entry.matchBits := by
  obtain ⟨entry, hfind, rfl⟩ := Option.map_eq_some_iff.mp h
  have hword := List.find?_some hfind
  exact ⟨entry, List.mem_of_find?_eq_some hfind, rfl, by simpa using hword⟩

/-- A decoded word is an encoding of its mnemonic or one of the words near
those of `ZEXT.H`. -/
theorem encodes_or_nearZextH {word : UndecodedInsn} {mnem : InsnMnemonic}
    (h : decode word = some mnem) : mnem.Encodes word ∨ (mnem = .ZEXT_H ∧ NearZextH word) := by
  obtain ⟨entry, hentry, rfl, hword⟩ := exists_entry_of_decode h
  by_cases hmnem : entry.mnem = .ZEXT_H
  · obtain ⟨hmask, hbits⟩ := insnDecodeTable_zextH entry hentry hmnem
    rw [hmask, hbits, ← Pattern.holds_iff (InsnFormat.fixed_disjoint _)] at hword
    simp only [Pattern.Holds, InsnFormat.fixed, List.forall_mem_cons, FixedField.Holds] at hword
    obtain ⟨hfunct7, hfunct3, hopcode, _⟩ := hword
    rw [hmnem]
    by_cases hrs2 : word.extractLsb' 20 5 = 0#5
    · left
      simp only [InsnMnemonic.Encodes, InsnMnemonic.format, Pattern.Holds, InsnFormat.fixed,
        List.forall_mem_cons, FixedField.Holds]
      exact ⟨hfunct7, hrs2, hfunct3, hopcode, by simp⟩
    · right
      exact ⟨rfl, hopcode, hfunct3, hfunct7, hrs2⟩
  · left
    obtain ⟨hmask, hbits⟩ := insnDecodeTable_exact entry hentry hmnem
    rw [hmask, hbits] at hword
    exact (Pattern.holds_iff (InsnFormat.fixed_disjoint _) word).mpr hword

theorem NearZextH.decode {word : UndecodedInsn} (h : NearZextH word) :
    decode word = some .ZEXT_H := by
  obtain ⟨hopcode, hfunct3, hfunct7, _⟩ := h
  obtain ⟨entry, hentry, hmnem⟩ := insnDecodeTable_complete .ZEXT_H
  obtain ⟨hmask, hbits⟩ := insnDecodeTable_zextH entry hentry hmnem
  have hholds : (InsnFormat.r 0b0000100 0b100 Opcode.OP).fixed.Holds word := by
    simp only [Pattern.Holds, InsnFormat.fixed, List.forall_mem_cons, FixedField.Holds]
    exact ⟨hfunct7, hfunct3, hopcode, by simp⟩
  rw [Pattern.holds_iff (InsnFormat.fixed_disjoint _), ← hmask, ← hbits] at hholds
  rw [decode_eq_some_of_hits hentry hholds, hmnem]

theorem NearZextH.not_encodes {word : UndecodedInsn} (h : NearZextH word) :
    ¬ InsnMnemonic.ZEXT_H.Encodes word := by
  intro hencodes
  simp only [InsnMnemonic.Encodes, InsnMnemonic.format, Pattern.Holds, InsnFormat.fixed,
    List.forall_mem_cons, FixedField.Holds] at hencodes
  exact h.2.2.2 hencodes.2.1

/-- The word is decoded to a mnemonic only if it encodes it, and a word that
encodes no mnemonic is not decoded and ends the run with an exception. -/
def AcceptsOnlyIsa (word : UndecodedInsn) : Prop :=
  (∀ mnem, decode word = some mnem → mnem.Encodes word) ∧
    ((∀ mnem : InsnMnemonic, ¬ mnem.Encodes word) →
      decode word = none ∧
        ∀ (H : Type) (env : Env H) (m : Machine H),
          m.sim.memory.fetch env.build m.sim.ip = .ok word →
          (executeInsn env).run m = .error (.exception "Unkown instuction encountered") m)

/-- The decoder accepts the claimed instruction set and nothing else on exactly
the words that are not near `ZEXT.H`. -/
theorem acceptsOnlyIsa_iff (word : UndecodedInsn) :
    AcceptsOnlyIsa word ↔ ¬ NearZextH word := by
  constructor
  · rintro ⟨hdecoded, _⟩ hnear
    exact hnear.not_encodes (hdecoded .ZEXT_H hnear.decode)
  · intro hnot
    have hdecoded : ∀ mnem, decode word = some mnem → mnem.Encodes word := by
      intro mnem hmnem
      rcases encodes_or_nearZextH hmnem with hencodes | ⟨_, hnear⟩
      · exact hencodes
      · exact absurd hnear hnot
    refine ⟨hdecoded, ?_⟩
    intro hnone
    have hdecode : decode word = none := by
      cases hword : decode word with
      | none => rfl
      | some mnem => exact absurd (hdecoded mnem hword) (hnone mnem)
    exact ⟨hdecode, fun _ env _ hfetch => executeInsn_unknown env hfetch hdecode⟩

/-- `ZEXT.H x0, x0` with a one in the field of the second source register. -/
theorem decode_accepts_nearZextH : ¬ ∀ word : UndecodedInsn, AcceptsOnlyIsa word := by
  intro h
  have hencodes := (h 0x08104033).1 .ZEXT_H (by decide +kernel)
  revert hencodes
  decide

end RiscvSim
