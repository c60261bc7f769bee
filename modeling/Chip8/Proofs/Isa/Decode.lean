import Chip8.Isa.Instruction

/-!
# What a word decodes to

The decoder answers with the fields of an operation whose fixed bits the word has, or, if it has
those of none, with the word (`Instruction.eq_fields_of_decode`,
`Instruction.decode_eq_error_iff`). Every field it reads is as wide as words have it
(`Instruction.InRange`), so the registers that a decoded instruction names are registers
(`Register.ofOperand?_of_field` in the machine's own theory).
-/

namespace Chip8

namespace Opcode

theorem mem_searchOrder (op : Opcode) : op ∈ searchOrder :=
  List.mem_mergeSort.mpr (mem_all op)

end Opcode

namespace Instruction

/-- Every field fits the width that words have for it. -/
structure InRange (i : Instruction) : Prop where
  x : 0 ≤ i.x ∧ i.x < 16
  y : 0 ≤ i.y ∧ i.y < 16
  n : 0 ≤ i.n ∧ i.n < 16
  nn : 0 ≤ i.nn ∧ i.nn < 256
  nnn : 0 ≤ i.nnn ∧ i.nnn < 4096

/-- Some word decodes to the instruction. -/
def Decoded (i : Instruction) : Prop := ∃ word, decode word = .ok i

theorem inRange_fields (op : Opcode) (w : Nat) : (op.fields w).InRange := by
  unfold Opcode.fields
  cases op.layout <;> constructor <;> dsimp only <;> omega

theorem op_fields (op : Opcode) (w : Nat) : (op.fields w).op = op := by
  unfold Opcode.fields
  cases op.layout <;> rfl

/-- A decoded instruction is read off the word by an operation that the word matches. -/
theorem eq_fields_of_decode {word : Int} {i : Instruction} (h : decode word = .ok i) :
    i.op.matchesWord (lowBits 16 word) ∧ i = i.op.fields (lowBits 16 word) := by
  simp only [decode, decodeIn] at h
  split at h
  · next op hop =>
    have hmatch := List.find?_some hop
    obtain rfl := Except.ok.inj h
    rw [op_fields]
    exact ⟨hmatch, rfl⟩
  · contradiction

/-- A word is refused if it matches no operation, and then as it is. -/
theorem decode_eq_error_iff {word : Int} {e : UnknownWord} :
    decode word = .error e ↔
      (∀ op : Opcode, op.matchesWord (lowBits 16 word) = false) ∧ e = ⟨lowBits 16 word⟩ := by
  simp only [decode, decodeIn]
  split
  · next op hop =>
    have hmatch := List.find?_some hop
    simp only [reduceCtorEq, false_iff, not_and]
    intro hno
    simp [hno op] at hmatch
  · next hop =>
    rw [List.find?_eq_none] at hop
    have hno : ∀ op : Opcode, op.matchesWord (lowBits 16 word) = false := fun op => by
      simpa using hop op op.mem_searchOrder
    simp [hno, eq_comm]

theorem Decoded.inRange {i : Instruction} (h : i.Decoded) : i.InRange := by
  obtain ⟨word, hw⟩ := h
  rw [(eq_fields_of_decode hw).2]
  exact inRange_fields _ _

end Instruction

end Chip8
