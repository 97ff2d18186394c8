import RiscvSim.Sim.DecodeEncode

/-!
The decode table has one entry for each word at most. The order of the entries,
and with it the order of the included extensions, is therefore of no consequence
for what a word is decoded to, and no entry is hidden behind another one.
-/

namespace RiscvSim

open MaskMatch

/-- `Decode` over some other table. -/
def decodeIn (table : List InsnEntry) (insn : UndecodedInsn) : Option InsnMnemonic :=
  (table.find? fun entry => insn &&& entry.mask == entry.matchBits).map (·.mnem)

/-- The extensions in the order of their includes. -/
def extensions : List (List InsnEntry) := [extI, extM, extZbb, extZicsr, extF]

theorem extensions_flatten : extensions.flatten = insnDecodeTable := by
  unfold extensions insnDecodeTable
  simp only [List.flatten_cons, List.flatten_nil, List.append_nil, List.append_assoc]

theorem insnDecodeTable_inside : ∀ entry ∈ insnDecodeTable,
    entry.matchBits &&& ~~~entry.mask = 0 ∧ entry.matchBits &&& entry.mask = entry.matchBits := by
  decide +kernel

/-- The entries in another order decode every word to the same mnemonic. -/
theorem decodeIn_perm {table : List InsnEntry} (hperm : table.Perm insnDecodeTable)
    (word : UndecodedInsn) : decodeIn table word = decode word := by
  have hfind := find?_perm insnDecodeTable_apart hperm word
  exact congrArg (Option.map InsnEntry.mnem) hfind

/-- No word hits two entries, the order of the extensions does not matter, an
entry that a word hits is the one found, and every entry is hit by some word. -/
theorem insnDecodeTable_unambiguous :
    (∀ word : UndecodedInsn,
      insnDecodeTable.countP (fun entry => word &&& entry.mask == entry.matchBits) ≤ 1) ∧
    (∀ exts : List (List InsnEntry), exts.Perm extensions → ∀ word, decodeIn exts.flatten word = decode word) ∧
    (∀ entry ∈ insnDecodeTable, ∀ word, word &&& entry.mask = entry.matchBits →
      decode word = some entry.mnem) ∧
    ∀ entry ∈ insnDecodeTable,
      entry.matchBits &&& ~~~entry.mask = 0 ∧ decode entry.matchBits = some entry.mnem := by
  refine ⟨countP_hits_le_one insnDecodeTable_apart, ?_, ?_, ?_⟩
  · intro exts hperm word
    have hflatten := hperm.flatten
    rw [extensions_flatten] at hflatten
    exact decodeIn_perm hflatten word
  · intro entry hentry word hword
    exact decode_eq_some_of_hits hentry hword
  · intro entry hentry
    obtain ⟨houtside, hinside⟩ := insnDecodeTable_inside entry hentry
    exact ⟨houtside, decode_eq_some_of_hits hentry hinside⟩

end RiscvSim
