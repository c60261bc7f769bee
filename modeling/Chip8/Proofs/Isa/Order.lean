import Chip8.Proofs.Isa.Words

/-!
# The order of the search

A decoder takes the first operation whose fixed bits a word has. No word has those of two operations
(`Opcode.eq_of_matchesWord`), so the first one is the only one, wherever it stands : any two
searches that leave no operation out come to the same (`Instruction.decodeIn_congr`). Trying the
most fixed bits first is one order of many, and in none of them does an operation stand in front of
another (`Instruction.orders_decode_alike`).
-/

namespace Chip8

namespace Instruction

/-- A word that no operation has is refused by every search. -/
theorem decodeIn_of_no_match {word : Int}
    (hno : ∀ op : Opcode, op.matchesWord (lowBits 16 word) = false) (order : List Opcode) :
    decodeIn order word = .error ⟨lowBits 16 word⟩ := by
  have hfind : order.find? (·.matchesWord (lowBits 16 word)) = none :=
    List.find?_eq_none.mpr fun op _ => by simp [hno op]
  simp only [decodeIn, hfind]

/-- Searches that leave no operation out come to the same. -/
theorem decodeIn_congr {order other : List Opcode} (horder : ∀ op, op ∈ order)
    (hother : ∀ op, op ∈ other) (word : Int) : decodeIn order word = decodeIn other word := by
  by_cases hsome : ∃ op : Opcode, op.matchesWord (lowBits 16 word) = true
  · obtain ⟨op, hop⟩ := hsome
    rw [decodeIn_of_matchesWord (horder op) hop, decodeIn_of_matchesWord (hother op) hop]
  · have hno : ∀ op : Opcode, op.matchesWord (lowBits 16 word) = false := fun op =>
      Bool.eq_false_iff.mpr fun hop => hsome ⟨op, hop⟩
    rw [decodeIn_of_no_match hno, decodeIn_of_no_match hno]

/-- No word has the fixed bits of two operations. So in whatever order the operations are tried, an
integer decodes to the same instruction or is refused with the same error, and no operation keeps
the words of another from it. -/
theorem orders_decode_alike :
    (∀ w < 65536, ∀ a b : Opcode, a.matchesWord w = true → b.matchesWord w = true → a = b) ∧
      ∀ order : List Opcode, order.Perm Opcode.searchOrder → ∀ word : Int,
        decodeIn order word = decode word ∧
          ∀ op : Opcode, op.matchesWord (lowBits 16 word) = true →
            decodeIn order word = .ok (op.fields (lowBits 16 word)) := by
  refine ⟨fun w hw a b => Opcode.eq_of_matchesWord hw, fun order hperm word => ?_⟩
  have hmem : ∀ op, op ∈ order := fun op => hperm.mem_iff.mpr op.mem_searchOrder
  exact ⟨decodeIn_congr hmem Opcode.mem_searchOrder word,
    fun op hop => decodeIn_of_matchesWord (hmem op) hop⟩

end Instruction

end Chip8
