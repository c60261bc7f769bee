import Mathlib.Algebra.Group.Int.Defs
import Mathlib.Algebra.Group.Nat.Defs
import Mathlib.Data.List.Nodup
import Chip8.Proofs.Isa.Decode

/-!
# The words of the instructions

A mask keeps the first digit of a word and some of its low bits (`Layout.and_mask`), and the first
digit alone tells which layout a word has (`Opcode.layout_eq_ofDigit`). So no word has the fixed
bits of two operations (`Opcode.eq_of_matchesWord`), and the order in which a decoder tries them
does not matter (`Instruction.decodeIn_of_matchesWord`).

The operands of a word take just the bits that its layout leaves free
(`Instruction.operandBits_le`). Hence an instruction is read back from its word, with each field
it carries reduced to its width (`Instruction.decode_encode`), and a word that is decoded is the
word of its instruction (`Instruction.encode_of_decode`). Which words are decoded is said digit by
digit (`Listed`). `Instruction.words_decode_and_encode` is all of this together.
-/

namespace Chip8

namespace Layout

/-- The number of low bits that a layout leaves fixed. -/
def fixedTail : Layout → Nat
  | .none => 12
  | .register => 8
  | .registers => 4
  | .address | .immediate | .sprite => 0

/-- The layout of the words that begin with a digit. -/
def ofDigit : Nat → Layout
  | 0x0 => .none
  | 0x1 | 0x2 | 0xA | 0xB => .address
  | 0x3 | 0x4 | 0x6 | 0x7 | 0xC => .immediate
  | 0x5 | 0x8 | 0x9 => .registers
  | 0xD => .sprite
  | _ => .register

theorem fixedTail_le (l : Layout) : l.fixedTail ≤ 12 := by cases l <;> decide

/-- A mask keeps the first digit of a word and its fixed low bits. -/
theorem and_mask (l : Layout) {w : Nat} (hw : w < 65536) :
    w &&& l.mask = 4096 * (w / 4096) + w % 2 ^ l.fixedTail := by
  have hdigit : (w &&& l.mask) / 2 ^ 12 = w / 2 ^ 12 := by
    have hmask : l.mask / 2 ^ 12 = 2 ^ 4 - 1 := by cases l <;> rfl
    rw [Nat.and_div_two_pow, hmask, Nat.and_two_pow_sub_one_eq_mod]
    omega
  have hrest : (w &&& l.mask) % 2 ^ 12 = w % 2 ^ l.fixedTail := by
    have hmask : l.mask % 2 ^ 12 = 2 ^ l.fixedTail - 1 := by cases l <;> rfl
    rw [Nat.and_mod_two_pow, hmask, Nat.and_two_pow_sub_one_eq_mod]
    exact Nat.mod_mod_of_dvd w (Nat.pow_dvd_pow 2 l.fixedTail_le)
  omega

end Layout

namespace Opcode

theorem pattern_lt (op : Opcode) : op.pattern < 65536 := by cases op <;> decide

/-- The bits of a pattern that its layout leaves free are zero. -/
theorem pattern_eq (op : Opcode) :
    op.pattern = 4096 * (op.pattern / 4096) + op.pattern % 2 ^ op.layout.fixedTail := by
  cases op <;> rfl

/-- The first digit of a word tells what operands it has. -/
theorem layout_eq_ofDigit (op : Opcode) : op.layout = .ofDigit (op.pattern / 4096) := by
  cases op <;> rfl

theorem pattern_injective {a b : Opcode} (h : a.pattern = b.pattern) : a = b := by
  have hnodup : (all.map pattern).Nodup := by decide
  exact List.inj_on_of_nodup_map hnodup a.mem_all b.mem_all h

/-- A word has the fixed bits of an operation if it has its first digit and its fixed low bits. -/
theorem matchesWord_iff {op : Opcode} {w : Nat} (hw : w < 65536) :
    op.matchesWord w = true ↔ w / 4096 = op.pattern / 4096 ∧
      w % 2 ^ op.layout.fixedTail = op.pattern % 2 ^ op.layout.fixedTail := by
  have hpattern := op.pattern_eq
  have htail : 2 ^ op.layout.fixedTail ≤ 2 ^ 12 :=
    Nat.pow_le_pow_right (by decide) op.layout.fixedTail_le
  have hlt := Nat.mod_lt w (Nat.two_pow_pos op.layout.fixedTail)
  have hlt' := Nat.mod_lt op.pattern (Nat.two_pow_pos op.layout.fixedTail)
  rw [matchesWord, mask, beq_iff_eq, Layout.and_mask _ hw]
  omega

/-- No word has the fixed bits of two operations. -/
theorem eq_of_matchesWord {a b : Opcode} {w : Nat} (hw : w < 65536)
    (ha : a.matchesWord w = true) (hb : b.matchesWord w = true) : a = b := by
  rw [matchesWord_iff hw] at ha hb
  have hlayout : a.layout = b.layout := by
    rw [layout_eq_ofDigit a, layout_eq_ofDigit b, ← ha.1, hb.1]
  refine pattern_injective ?_
  rw [pattern_eq a, pattern_eq b, ← ha.1, hb.1, ← ha.2, hlayout, hb.2]

end Opcode

theorem lowBits_eq (width : Nat) (i : Int) : (lowBits width i : Int) = i % 2 ^ width := by
  have hpos : (0 : Int) < 2 ^ width := Int.pow_pos (by decide)
  have hmod := Int.emod_nonneg i (Int.ne_of_gt hpos)
  simp only [lowBits, Nat.one_shiftLeft, Int.natCast_pow, Int.cast_ofNat_Int]
  exact Int.toNat_of_nonneg hmod

theorem lowBits_natCast {width n : Nat} (h : n < 2 ^ width) : lowBits width n = n := by
  have heq := lowBits_eq width n
  rw [Int.emod_eq_of_lt (by omega) (by exact_mod_cast h)] at heq
  exact Int.ofNat.inj heq

namespace Instruction

/-- An instruction with the fields that it carries reduced to their widths, and the others zero. -/
def reduced (i : Instruction) : Instruction :=
  match i.op.layout with
  | .none => { op := i.op }
  | .address => { op := i.op, nnn := i.nnn % 4096 }
  | .register => { op := i.op, x := i.x % 16 }
  | .immediate => { op := i.op, x := i.x % 16, nn := i.nn % 256 }
  | .registers => { op := i.op, x := i.x % 16, y := i.y % 16 }
  | .sprite => { op := i.op, x := i.x % 16, y := i.y % 16, n := i.n % 16 }

/-- The operands of a word take the bits that its layout leaves free. -/
theorem operandBits_le (i : Instruction) :
    i.operandBits + 2 ^ i.op.layout.fixedTail ≤ 4096 ∧
      i.operandBits % 2 ^ i.op.layout.fixedTail = 0 := by
  have hx := lowBits_eq 4 i.x
  have hy := lowBits_eq 4 i.y
  have hn := lowBits_eq 4 i.n
  have hnn := lowBits_eq 8 i.nn
  have hnnn := lowBits_eq 12 i.nnn
  unfold operandBits
  cases i.op.layout with
  | none => simp [Layout.fixedTail]
  | address | register | immediate | registers | sprite =>
    simp only [Layout.fixedTail]
    omega

theorem encode_lt (i : Instruction) : i.encode < 65536 := by
  have hbits := i.operandBits_le.1
  have hpattern := i.op.pattern_eq
  have hlt := i.op.pattern_lt
  have hpos := Nat.two_pow_pos i.op.layout.fixedTail
  have htail := Nat.mod_lt i.op.pattern hpos
  unfold encode
  omega

theorem lowBits_encode (i : Instruction) : lowBits 16 i.encode = i.encode := by
  have heq := lowBits_eq 16 i.encode
  have hlt := i.encode_lt
  omega

theorem matchesWord_encode (i : Instruction) : i.op.matchesWord i.encode = true := by
  obtain ⟨hbits, hfree⟩ := i.operandBits_le
  have hpattern := i.op.pattern_eq
  have htail := Nat.mod_lt i.op.pattern (Nat.two_pow_pos i.op.layout.fixedTail)
  rw [Opcode.matchesWord_iff i.encode_lt, encode, Nat.add_mod, hfree, Nat.add_zero, Nat.mod_mod]
  exact ⟨by omega, rfl⟩

/-- Writing an instruction down as a word and reading its fields again reduces them. -/
theorem fields_encode (i : Instruction) : i.op.fields i.encode = i.reduced := by
  have hx : i.x % 16 = lowBits 4 i.x := (lowBits_eq 4 i.x).symm
  have hy : i.y % 16 = lowBits 4 i.y := (lowBits_eq 4 i.y).symm
  have hn : i.n % 16 = lowBits 4 i.n := (lowBits_eq 4 i.n).symm
  have hnn : i.nn % 256 = lowBits 8 i.nn := (lowBits_eq 8 i.nn).symm
  have hnnn : i.nnn % 4096 = lowBits 12 i.nnn := (lowBits_eq 12 i.nnn).symm
  have hpattern := i.op.pattern_eq
  have hbits : lowBits 4 i.x < 16 ∧ lowBits 4 i.y < 16 ∧ lowBits 4 i.n < 16 ∧
      lowBits 8 i.nn < 256 ∧ lowBits 12 i.nnn < 4096 :=
    ⟨lowBits_lt 4 _, lowBits_lt 4 _, lowBits_lt 4 _, lowBits_lt 8 _, lowBits_lt 12 _⟩
  unfold Opcode.fields reduced encode operandBits
  rw [hx, hy, hn, hnn, hnnn]
  cases hl : i.op.layout <;> simp only [hl, Layout.fixedTail] at hpattern ⊢ <;>
    simp only [Instruction.mk.injEq, true_and, and_true, Int.natCast_inj] <;> omega

/-- Reading the fields of a word and writing them down again gives the word. -/
theorem encode_fields {op : Opcode} {w : Nat} (hw : w < 65536) (hop : op.matchesWord w = true) :
    (op.fields w).encode = w := by
  obtain ⟨hdigit, htail⟩ := (Opcode.matchesWord_iff hw).mp hop
  have hpattern := op.pattern_eq
  have hx : lowBits 4 (w / 256 % 16 : Nat) = w / 256 % 16 := lowBits_natCast (by omega)
  have hy : lowBits 4 (w / 16 % 16 : Nat) = w / 16 % 16 := lowBits_natCast (by omega)
  have hn : lowBits 4 (w % 16 : Nat) = w % 16 := lowBits_natCast (by omega)
  have hnn : lowBits 8 (w % 256 : Nat) = w % 256 := lowBits_natCast (by omega)
  have hnnn : lowBits 12 (w % 4096 : Nat) = w % 4096 := lowBits_natCast (by omega)
  rw [encode, operandBits, op_fields]
  unfold Opcode.fields
  cases hl : op.layout <;>
    simp only [hl, Layout.fixedTail, hx, hy, hn, hnn, hnnn] at htail hpattern ⊢ <;>
    clear hx hy hn hnn hnnn <;> omega

/-- A word is decoded by the operation whose fixed bits it has, wherever that is looked for. -/
theorem decodeIn_of_matchesWord {order : List Opcode} {op : Opcode} (hmem : op ∈ order) {word : Int}
    (hop : op.matchesWord (lowBits 16 word) = true) :
    decodeIn order word = .ok (op.fields (lowBits 16 word)) := by
  cases hfind : order.find? (·.matchesWord (lowBits 16 word)) with
  | none =>
    have hno := List.find?_eq_none.mp hfind op hmem
    exact absurd hop hno
  | some found =>
    have hfound := List.find?_some hfind
    obtain rfl := Opcode.eq_of_matchesWord (lowBits_lt 16 word) hfound hop
    simp only [decodeIn, hfind]

theorem decode_encode (i : Instruction) : decode i.encode = .ok i.reduced := by
  have hop : i.op.matchesWord (lowBits 16 i.encode) = true := by
    rw [lowBits_encode]
    exact i.matchesWord_encode
  rw [decode, decodeIn_of_matchesWord i.op.mem_searchOrder hop, lowBits_encode, fields_encode]

/-- An instruction on one register is read back as it was written. -/
theorem decode_encode_of_register {op : Opcode} (hop : op.layout = .register) {x : Int}
    (hx : 0 ≤ x ∧ x < 16) : decode ({ op, x } : Instruction).encode = .ok { op, x } := by
  have hreduced : ({ op, x } : Instruction).reduced = { op, x } := by
    simp only [reduced, hop, Int.emod_eq_of_lt hx.1 hx.2]
  rw [decode_encode, hreduced]

theorem encode_of_decode {word : Int} {i : Instruction} (h : decode word = .ok i) :
    i.encode = lowBits 16 word := by
  obtain ⟨hop, hi⟩ := eq_fields_of_decode h
  rw [hi]
  exact encode_fields (lowBits_lt 16 word) hop

end Instruction

/-! ## The listing -/

/-- The words that the listing of the instructions has, by their digits. -/
inductive Listed (w : Nat) : Prop
  /-- Words without an operand. -/
  | fixed (h : w ∈ [0x0000, 0x00E0, 0x00EE])
  /-- Words whose first digit alone is fixed. -/
  | free (h : w / 4096 ∈ [1, 2, 3, 4, 6, 7, 0xA, 0xB, 0xC, 0xD])
  /-- Comparisons of two registers. -/
  | compare (h : w / 4096 ∈ [5, 9]) (hlow : w % 16 = 0)
  /-- Operations on two registers. -/
  | combine (h : w / 4096 = 8) (hlow : w % 16 ∈ [0, 1, 2, 3, 4, 5, 6, 7, 0xE])
  /-- Questions for a key. -/
  | key (h : w / 4096 = 0xE) (hlow : w % 256 ∈ [0x9E, 0xA1])
  /-- Transfers of one register, or of those up to it. -/
  | transfer (h : w / 4096 = 0xF)
    (hlow : w % 256 ∈ [0x07, 0x0A, 0x15, 0x18, 0x1E, 0x29, 0x33, 0x55, 0x65])

namespace Opcode

/-- The first digit and the fixed low bits of an operation are in one row of the listing. -/
theorem listed_pattern (op : Opcode) :
    (op.layout.fixedTail = 12 ∧ op.pattern ∈ [0x0000, 0x00E0, 0x00EE]) ∨
      (op.layout.fixedTail = 0 ∧ op.pattern / 4096 ∈ [1, 2, 3, 4, 6, 7, 0xA, 0xB, 0xC, 0xD]) ∨
      (op.layout.fixedTail = 4 ∧ op.pattern / 4096 ∈ [5, 9] ∧ op.pattern % 16 = 0) ∨
      (op.layout.fixedTail = 4 ∧ op.pattern / 4096 = 8 ∧
        op.pattern % 16 ∈ [0, 1, 2, 3, 4, 5, 6, 7, 0xE]) ∨
      (op.layout.fixedTail = 8 ∧ op.pattern / 4096 = 0xE ∧ op.pattern % 256 ∈ [0x9E, 0xA1]) ∨
      (op.layout.fixedTail = 8 ∧ op.pattern / 4096 = 0xF ∧
        op.pattern % 256 ∈ [0x07, 0x0A, 0x15, 0x18, 0x1E, 0x29, 0x33, 0x55, 0x65]) := by
  cases op <;> decide

theorem listed_of_matchesWord {op : Opcode} {w : Nat} (hw : w < 65536)
    (hop : op.matchesWord w = true) : Listed w := by
  obtain ⟨hdigit, hlow⟩ := (matchesWord_iff hw).mp hop
  rcases op.listed_pattern with ⟨ht, h⟩ | ⟨ht, h⟩ | ⟨ht, h, hrow⟩ | ⟨ht, h, hrow⟩ | ⟨ht, h, hrow⟩ |
    ⟨ht, h, hrow⟩ <;> rw [ht] at hlow
  · have hwhole : w = op.pattern := by omega
    exact .fixed (hwhole ▸ h)
  · exact .free (hdigit ▸ h)
  · exact .compare (hdigit ▸ h) (hlow.trans hrow)
  · exact .combine (hdigit.trans h) (hlow ▸ hrow)
  · exact .key (hdigit.trans h) (hlow ▸ hrow)
  · exact .transfer (hdigit.trans h) (hlow ▸ hrow)

/-- A word matches an operation that has its first digit and its fixed low bits. -/
theorem exists_matchesWord {w : Nat} (hw : w < 65536) {tail : Nat}
    (hrow : ∃ op ∈ all, op.layout.fixedTail = tail ∧ op.pattern / 4096 = w / 4096 ∧
      op.pattern % 2 ^ tail = w % 2 ^ tail) : ∃ op : Opcode, op.matchesWord w = true := by
  obtain ⟨op, -, rfl, hdigit, hlow⟩ := hrow
  exact ⟨op, (matchesWord_iff hw).mpr ⟨hdigit.symm, hlow.symm⟩⟩

theorem exists_matchesWord_of_listed {w : Nat} (hw : w < 65536) (h : Listed w) :
    ∃ op : Opcode, op.matchesWord w = true := by
  cases h with
  | fixed h =>
    have hrows : ∀ w ∈ [0x0000, 0x00E0, 0x00EE], ∃ op ∈ all, op.layout.fixedTail = 12 ∧
        op.pattern / 4096 = w / 4096 ∧ op.pattern % 2 ^ 12 = w % 2 ^ 12 := by decide
    exact exists_matchesWord hw (hrows w h)
  | free h =>
    have hrows : ∀ d ∈ [1, 2, 3, 4, 6, 7, 0xA, 0xB, 0xC, 0xD], ∃ op ∈ all,
        op.layout.fixedTail = 0 ∧ op.pattern / 4096 = d := by decide
    obtain ⟨op, hop, ht, hdigit⟩ := hrows _ h
    exact exists_matchesWord hw ⟨op, hop, ht, hdigit, by simp [Nat.mod_one]⟩
  | compare h hlow =>
    have hrows : ∀ d ∈ [5, 9], ∃ op ∈ all, op.layout.fixedTail = 4 ∧ op.pattern / 4096 = d ∧
        op.pattern % 2 ^ 4 = 0 := by decide
    exact exists_matchesWord hw (hlow ▸ hrows _ h)
  | combine h hlow =>
    have hrows : ∀ k ∈ [0, 1, 2, 3, 4, 5, 6, 7, 0xE], ∃ op ∈ all, op.layout.fixedTail = 4 ∧
        op.pattern / 4096 = 8 ∧ op.pattern % 2 ^ 4 = k := by decide
    exact exists_matchesWord hw (h ▸ hrows _ hlow)
  | key h hlow =>
    have hrows : ∀ k ∈ [0x9E, 0xA1], ∃ op ∈ all, op.layout.fixedTail = 8 ∧
        op.pattern / 4096 = 0xE ∧ op.pattern % 2 ^ 8 = k := by decide
    exact exists_matchesWord hw (h ▸ hrows _ hlow)
  | transfer h hlow =>
    have hrows : ∀ k ∈ [0x07, 0x0A, 0x15, 0x18, 0x1E, 0x29, 0x33, 0x55, 0x65], ∃ op ∈ all,
        op.layout.fixedTail = 8 ∧ op.pattern / 4096 = 0xF ∧ op.pattern % 2 ^ 8 = k := by decide
    exact exists_matchesWord hw (h ▸ hrows _ hlow)

end Opcode

namespace Instruction

theorem decode_eq_ok_iff_listed {word : Int} :
    (∃ i, decode word = .ok i) ↔ Listed (lowBits 16 word) := by
  have hw := lowBits_lt 16 word
  constructor
  · rintro ⟨i, hi⟩
    exact Opcode.listed_of_matchesWord hw (eq_fields_of_decode hi).1
  · intro h
    obtain ⟨op, hop⟩ := Opcode.exists_matchesWord_of_listed hw h
    exact ⟨_, decodeIn_of_matchesWord op.mem_searchOrder hop⟩

/-- The word of an instruction decodes to the instruction with the fields that it carries reduced
to their widths. A word is decoded if the listing has it, and then the instruction has that word.
Otherwise the word itself is the error. Of an integer only the low sixteen bits count. -/
theorem words_decode_and_encode :
    (∀ i : Instruction, decode i.encode = .ok i.reduced) ∧
      ∀ word : Int,
        ((∃ i, decode word = .ok i) ↔ Listed (word % 65536).toNat) ∧
        (∀ i, decode word = .ok i → (i.encode : Int) = word % 65536) ∧
        (∀ e, decode word = .error e → (e.word : Int) = word % 65536) := by
  refine ⟨decode_encode, fun word => ?_⟩
  have hword := lowBits_eq 16 word
  refine ⟨decode_eq_ok_iff_listed, fun i hi => ?_, fun e he => ?_⟩
  · rw [encode_of_decode hi]
    exact hword
  · rw [(decode_eq_error_iff.mp he).2]
    exact hword

end Instruction

end Chip8
