import Chip8.Isa.Opcode
import Chip8.Text.Quoted
import Chip8.Text.Numeral

/-!
# Naming an operation

An operation is asked for by its name or by its number. There may be none.
-/

namespace Chip8

/-- A name or a number for an opcode. -/
inductive Code where
  | name (s : String)
  | number (i : Int)
deriving DecidableEq

namespace Code

/-- The operation asked for. -/
def opcode? : Code → Option Opcode
  | name s => Opcode.ofName? s
  | number i => Opcode.ofNumber? i

/-- The code as it was given. -/
def text : Code → String
  | name s => Text.quoted s
  | number i => Text.decimal i

/-- What is said of a number that is to be executed and is no operation's. -/
def unhandled (c : Code) : String := "Unhandled opcode: " ++ c.text

end Code

end Chip8
