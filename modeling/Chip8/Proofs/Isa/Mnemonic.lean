import Chip8.Proofs.Isa.Words
import Chip8.Proofs.Text.Numeral

/-!
# Trace text

The trace text of an instruction is made of words : the name of its operation, and a word for each
operand that it carries (`Instruction.traceWords`). A text is made of words in one way only, no two
operations have one name, and a number is told by its text. So a trace text tells the operation and
the operands that it carries, and nothing else (`Instruction.mnemonic_eq_iff`).

The word of an instruction is made of the same things. Hence of two words that decode, the texts are
the same if the words are, up to the bits above the lowest sixteen
(`Instruction.mnemonics_are_lossless`).
-/

namespace Chip8

open Text (IsWord Spaced)
open Text.Literal (legible_ten legible_sixteen)

namespace Opcode

theorem isWord_name (op : Opcode) : IsWord op.name.toList := by cases op <;> decide

theorem name_injective {a b : Opcode} (h : a.name = b.name) : a = b := by
  have hnodup : (all.map name).Nodup := by decide
  exact List.inj_on_of_nodup_map hnodup a.mem_all b.mem_all h

end Opcode

namespace Instruction

/-- The operands that an instruction carries, in the order in which they are written. -/
def operands (i : Instruction) : List Int :=
  match i.op.layout with
  | .none => []
  | .address => [i.nnn]
  | .register => [i.x]
  | .immediate => [i.x, i.nn]
  | .registers => [i.x, i.y]
  | .sprite => [i.x, i.y, i.n]

/-- The letters of a register operand. -/
def registerLetters (r : Int) : List Char := 'V' :: Text.signed 16 r

/-- The letters of a number that is filled up with zeros. -/
def numberLetters (width : Nat) (k : Int) : List Char := '0' :: 'x' :: Text.zeroPadded 16 width k

/-- The words of the operands in trace text, each but the last with a comma. -/
def operandWords (i : Instruction) : List (List Char) :=
  match i.op.layout with
  | .none => []
  | .address => [numberLetters 3 i.nnn]
  | .register => [registerLetters i.x]
  | .immediate => [registerLetters i.x ++ [','], numberLetters 2 i.nn]
  | .registers => [registerLetters i.x ++ [','], registerLetters i.y]
  | .sprite => [registerLetters i.x ++ [','], registerLetters i.y ++ [','], Text.signed 10 i.n]

/-- The words of a trace text. -/
def traceWords (i : Instruction) : List (List Char) := i.op.name.toList :: i.operandWords

/-! ## Words of operands -/

theorem registerLetters_injective : Function.Injective registerLetters := fun _ _ h =>
  Text.signed_injective legible_sixteen (List.cons.inj h).2

theorem numberLetters_injective (width : Nat) : Function.Injective (numberLetters width) :=
  fun _ _ h => Text.zeroPadded_injective legible_sixteen width (List.cons.inj (List.cons.inj h).2).2

theorem isWord_registerLetters (r : Int) : IsWord (registerLetters r) where
  ne_nil := List.cons_ne_nil _ _
  letters := List.forall_mem_cons.mpr ⟨by decide, (legible_sixteen.isWord_signed r).letters⟩

theorem isWord_numberLetters (width : Nat) (k : Int) : IsWord (numberLetters width k) where
  ne_nil := List.cons_ne_nil _ _
  letters := List.forall_mem_cons.mpr ⟨by decide, List.forall_mem_cons.mpr
    ⟨by decide, legible_sixteen.not_blank_of_zeroPadded⟩⟩

theorem isWord_comma {word : List Char} (h : IsWord word) : IsWord (word ++ [',']) where
  ne_nil := by simp
  letters := List.forall_mem_append.mpr ⟨h.letters, List.forall_mem_singleton.mpr (by decide)⟩

theorem isWord_operandWords (i : Instruction) : ∀ w ∈ i.operandWords, IsWord w := by
  unfold operandWords
  cases i.op.layout <;>
    simp only [List.forall_mem_cons, List.not_mem_nil, false_implies, implies_true, and_true,
      isWord_comma, isWord_registerLetters, isWord_numberLetters, legible_ten.isWord_signed]

/-- Words of one operation tell the operands. -/
theorem operandWords_eq_iff {i j : Instruction} (hop : i.op = j.op) :
    i.operandWords = j.operandWords ↔ i.operands = j.operands := by
  unfold operandWords operands
  rw [hop]
  cases j.op.layout <;>
    simp only [List.cons.injEq, List.append_cancel_right_eq, registerLetters_injective.eq_iff,
      (numberLetters_injective _).eq_iff, (Text.signed_injective legible_ten).eq_iff]

/-! ## Texts -/

/-- A trace text is made of its words with single spaces between them. -/
theorem toList_mnemonic (i : Instruction) :
    i.mnemonic.toList = i.op.name.toList ++ i.operandWords.flatMap (' ' :: ·) := by
  unfold mnemonic operandText operandWords
  cases i.op.layout <;>
    simp [registerText, registerLetters, numberLetters, Text.hex, Text.hexPadded, Text.decimal]

/-- The words of a trace text are read from it. -/
theorem words_mnemonic (i : Instruction) : Text.words i.mnemonic.toList = i.traceWords := by
  rw [Text.words_eq_iff, toList_mnemonic]
  exact .join i.op.isWord_name i.isWord_operandWords

/-- A trace text tells the operation and the operands that it carries. -/
theorem mnemonic_eq_iff {i j : Instruction} :
    i.mnemonic = j.mnemonic ↔ i.op = j.op ∧ i.operands = j.operands := by
  constructor
  · intro h
    have hwords : i.traceWords = j.traceWords := by
      rw [← words_mnemonic, ← words_mnemonic, h]
    obtain ⟨hname, hoperands⟩ := List.cons.inj hwords
    have hop := Opcode.name_injective (String.toList_injective hname)
    exact ⟨hop, (operandWords_eq_iff hop).mp hoperands⟩
  · rintro ⟨hop, hoperands⟩
    apply String.toList_injective
    rw [toList_mnemonic, toList_mnemonic, hop, (operandWords_eq_iff hop).mpr hoperands]

/-- The word of an instruction has nothing else in it. -/
theorem encode_congr {i j : Instruction} (hop : i.op = j.op) (h : i.operands = j.operands) :
    i.encode = j.encode := by
  have hbits : i.operandBits = j.operandBits := by
    unfold operandBits operands at *
    rw [hop] at h ⊢
    cases hl : j.op.layout <;> simp_all
  rw [encode, encode, hop, hbits]

/-- Two instructions have one trace text if they are the same operation and carry the same
operands, whatever integers these are. Two words that decode have one trace text if they are the
same word but for the bits above the lowest sixteen. -/
theorem mnemonics_are_lossless :
    (∀ i j : Instruction, i.mnemonic = j.mnemonic ↔ i.op = j.op ∧ i.operands = j.operands) ∧
      ∀ (v w : Int) (i j : Instruction), decode v = .ok i → decode w = .ok j →
        (i.mnemonic = j.mnemonic ↔ v % 65536 = w % 65536) := by
  refine ⟨fun _ _ => mnemonic_eq_iff, fun v w i j hi hj => ?_⟩
  have hv := lowBits_eq 16 v
  have hw := lowBits_eq 16 w
  constructor
  · intro h
    obtain ⟨hop, hoperands⟩ := mnemonic_eq_iff.mp h
    have hencode := encode_congr hop hoperands
    rw [encode_of_decode hi, encode_of_decode hj] at hencode
    omega
  · intro h
    have hbits : lowBits 16 v = lowBits 16 w := by omega
    have hdecode : decode v = decode w := by rw [decode, decodeIn, hbits, decode, decodeIn]
    rw [hi, hj] at hdecode
    rw [Except.ok.inj hdecode]

/-- The sum of two registers, and the sum the other way round in a word that is too wide. -/
theorem mnemonics_of_sums :
    let i : Instruction := { op := .addReg, x := 0xA, y := 0xB }
    let j : Instruction := { op := .addReg, x := 0xB, y := 0xA }
    (decode 0x8AB4 = .ok i ∧ decode 0x18BA4 = .ok j) ∧
      (i.mnemonic = j.mnemonic ↔ (0x8AB4 : Int) % 65536 = 0x18BA4 % 65536) := by
  intro i j
  have hi : decode 0x8AB4 = .ok i :=
    decodeIn_of_matchesWord (Opcode.mem_searchOrder .addReg) (by decide)
  have hj : decode 0x18BA4 = .ok j :=
    decodeIn_of_matchesWord (Opcode.mem_searchOrder .addReg) (by decide)
  exact ⟨⟨hi, hj⟩, mnemonics_are_lossless.2 _ _ _ _ hi hj⟩

end Instruction

end Chip8
