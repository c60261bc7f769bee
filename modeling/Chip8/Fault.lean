import Chip8.Text.Numeral

/-!
# Machine faults

What stops a machine : a word that is no operation's, a call stack used past either end, an
address outside memory, an image that is too large. A fault is the cause alone; `Fault.message`
is its wording.
-/

namespace Chip8

/-- Why the machine cannot go on. -/
inductive Fault where
  /-- The word fetched from an address is no operation's. -/
  | decode (word : Nat) (address : Int)
  /-- A call with every slot of the call stack in use. The program counter is the one at the
  moment of the call. -/
  | stackOverflow (pc : Int)
  /-- A return with no slot in use. -/
  | stackUnderflow (pc : Int)
  /-- An access, named for its purpose, outside memory. -/
  | memory (address : Int) (purpose : String)
  /-- An image larger than the room above the load address. -/
  | loadSize (size capacity : Nat)
deriving DecidableEq

/-- The number of return addresses the call stack holds. -/
def stackSize : Nat := 16

namespace Fault

/-- The text of a fault. -/
def message : Fault → String
  | decode word address =>
    "Unknown opcode 0x" ++ Text.hexPadded 4 word ++ " at 0x" ++ Text.hexPadded 3 address
  | stackOverflow pc =>
    "Call stack overflow (depth " ++ Text.decimal stackSize ++ ") at PC 0x" ++ Text.hexPadded 3 pc
  | stackUnderflow pc => "Call stack underflow at PC 0x" ++ Text.hexPadded 3 pc
  | memory address purpose =>
    "Memory " ++ purpose ++ " out of range at 0x" ++ Text.hex address
  | loadSize size capacity =>
    "Program of " ++ Text.decimal size ++ " bytes doesn't fit into " ++ Text.decimal capacity ++
      " bytes of memory"

end Fault

end Chip8
