import Chip8.Isa.Opcode
import Chip8.Text.Numeral

/-!
# Instructions and their words

An `Instruction` is an operation with its operand fields, which may be any integers : a word keeps
each field reduced to its width (`Instruction.encode`).

`Instruction.decode` reads a word back. It takes the first operation of a search order whose fixed
bits agree with the word (`Instruction.decodeIn`); the order in use tries the operations with
the most fixed bits first, so that `00E0` is never taken for anything wider (`Opcode.searchOrder`).
-/

namespace Chip8

/-- An operation with its operand fields. A field the operation does not carry is zero in a
decoded instruction. -/
structure Instruction where
  op : Opcode
  x : Int := 0
  y : Int := 0
  n : Int := 0
  nn : Int := 0
  nnn : Int := 0
deriving DecidableEq

/-- A word that is no operation's. -/
structure UnknownWord where
  word : Nat
deriving DecidableEq

/-- The text of the error. -/
def UnknownWord.message (e : UnknownWord) : String :=
  "Unknown opcode 0x" ++ Text.hexPadded 4 e.word

/-- The low `width` bits of an integer. -/
def lowBits (width : Nat) (i : Int) : Nat := (i % (1 <<< width : Nat)).toNat

theorem lowBits_lt (width : Nat) (i : Int) : lowBits width i < 1 <<< width := by
  have hpos : 0 < 1 <<< width := Nat.one_shiftLeft width ▸ Nat.two_pow_pos width
  have := Int.emod_lt_of_pos i (Int.natCast_pos.mpr hpos)
  unfold lowBits
  omega

/-- The four nibbles of a word, most significant first. -/
def nibbles (w : Int) : Nat × Nat × Nat × Nat :=
  (lowBits 4 (w / 4096), lowBits 4 (w / 256), lowBits 4 (w / 16), lowBits 4 w)

namespace Opcode

/-- Whether a word has the fixed bits of the operation. -/
def matchesWord (op : Opcode) (w : Nat) : Bool := w &&& op.mask == op.pattern

/-- The operations in the order a decoder tries them : the most fixed bits first, and of equally
many the lower number first. -/
def searchOrder : List Opcode := all.mergeSort fun a b => b.fixedBits ≤ a.fixedBits

/-- Read the operand fields of the operation off a word. -/
def fields (op : Opcode) (w : Nat) : Instruction :=
  let x : Int := (w / 256 % 16 : Nat)
  let y : Int := (w / 16 % 16 : Nat)
  match op.layout with
  | .none => { op }
  | .address => { op, nnn := (w % 4096 : Nat) }
  | .register => { op, x }
  | .immediate => { op, x, nn := (w % 256 : Nat) }
  | .registers => { op, x, y }
  | .sprite => { op, x, y, n := (w % 16 : Nat) }

end Opcode

namespace Instruction

/-- Decode a word, trying the operations in a given order. -/
def decodeIn (order : List Opcode) (word : Int) : Except UnknownWord Instruction :=
  let w := lowBits 16 word
  match order.find? (·.matchesWord w) with
  | some op => .ok (op.fields w)
  | none => .error ⟨w⟩

/-- Decode the low sixteen bits of a word. -/
def decode (word : Int) : Except UnknownWord Instruction := decodeIn Opcode.searchOrder word

/-- The bits of a word taken by the operands, each field reduced to its width. -/
def operandBits (i : Instruction) : Nat :=
  match i.op.layout with
  | .none => 0
  | .address => lowBits 12 i.nnn
  | .register => 256 * lowBits 4 i.x
  | .immediate => 256 * lowBits 4 i.x + lowBits 8 i.nn
  | .registers => 256 * lowBits 4 i.x + 16 * lowBits 4 i.y
  | .sprite => 256 * lowBits 4 i.x + 16 * lowBits 4 i.y + lowBits 4 i.n

/-- The word of an instruction. -/
def encode (i : Instruction) : Nat := i.op.pattern + i.operandBits

/-- A register operand in trace text. -/
def registerText (r : Int) : String := "V" ++ Text.hex r

/-- The operands in trace text. -/
def operandText (i : Instruction) : String :=
  match i.op.layout with
  | .none => ""
  | .address => " 0x" ++ Text.hexPadded 3 i.nnn
  | .register => " " ++ registerText i.x
  | .immediate => " " ++ registerText i.x ++ ", 0x" ++ Text.hexPadded 2 i.nn
  | .registers => " " ++ registerText i.x ++ ", " ++ registerText i.y
  | .sprite => " " ++ registerText i.x ++ ", " ++ registerText i.y ++ ", " ++ Text.decimal i.n

/-- The trace text of an instruction : its name, then the operands it carries. -/
def mnemonic (i : Instruction) : String := i.op.name ++ i.operandText

end Instruction

/-- The image of a program : each word big-endian in two bytes, only its low sixteen bits kept. -/
def programImage (words : List Int) : List UInt8 :=
  words.flatMap fun w => [.ofNat (lowBits 8 (w / 256)), .ofNat (lowBits 8 w)]

end Chip8
